/-
Cycles of imports.

A cycle is reported where an import leads back to a text that is still
being expanded. The keys of the report are those of the texts on the way,
so each one but the first is the key of a path that the text before it
imports; all but the last are different, and the last is one of them. A
text may be imported any number of times as long as it is not under way:
if imports always lead to keys of smaller rank, no cycle is reported.
-/
import DefTree.Proofs.Imports
import Mathlib.Order.Basic

namespace DefTree

/-- A cycle is never the fault of a construct other than an import whose key is in the chain. -/
theorem Construct.Fails.importCycle {loader : Loader} {chain keys : List String} {before : Nat} {c : Construct}
    {fault : Fault} {source : Option String} (h : c.Fails (lookUpImport loader chain) before fault)
    (hk : fault.inFile source = .importCycle keys) : ∃ path, c = .ref path false ∧
      loader.key (String.ofList path) ∈ chain ∧ keys = chain ++ [loader.key (String.ofList path)] := by
  rcases h.kind with ⟨text, rfl, rfl⟩ | ⟨line, opener, rfl⟩ | ⟨path, rfl, hc, rfl⟩ | ⟨hline, hcycle⟩
  · rw [Fault.unknownLine_inFile] at hk
    cases hk
  · rw [Fault.unclosedBlock_inFile] at hk
    cases hk
  · rw [Fault.inFile_eq (by simp)] at hk
    cases hk
    exact ⟨path, rfl, hc, rfl⟩
  · rw [Fault.inFile_eq hline] at hk
    exact absurd hk (hcycle keys)

/-- Imports that always lead to keys of smaller rank lead to a file all of whose imports have a smaller
rank than every path on the way, and than whatever bounds the imports of the text they start from. -/
theorem Leads.rank_lt {library : Library} {α : Type} [Preorder α] {rank : String → α}
    (hrank : ∀ path text q, library.load path = .ok text → Imports text q →
      rank (library.key q) < rank (library.key path))
    {text file q : String} {paths : List String} (h : Leads library text paths file) (hq : Imports file q) :
    (∀ path ∈ paths, rank (library.key q) < rank (library.key path)) ∧
      ∀ bound, (∀ p, Imports text p → rank (library.key p) < bound) → rank (library.key q) < bound := by
  induction h with
  | here text => exact ⟨fun _ h => absurd h List.not_mem_nil, fun _ hbound => hbound q hq⟩
  | @step text path text' paths file hi hl _ ih =>
    obtain ⟨hpaths, hbelow⟩ := ih hq
    have hpath : rank (library.key q) < rank (library.key path) := hbelow _ fun p hp => hrank path text' p hl hp
    exact ⟨List.forall_mem_cons.2 ⟨hpath, hpaths⟩, fun bound hbound => hpath.trans (hbound path hi)⟩

/-- A text leads into a cycle of keys: imports lead from it to a file that imports a path whose key is that
of a text under way. The keys are that of the source, if the text has one, those of the paths on the way,
all of them different, and that of the last path. -/
def Library.Cycle (library : Library) (text : String) (source : Option String) (keys : List String) : Prop :=
  ∃ paths file path, Leads library text paths file ∧ Imports file path ∧
    keys = library.origin source ++ paths.map library.key ++ [library.key path] ∧
    (library.origin source ++ paths.map library.key).Nodup ∧
    library.key path ∈ library.origin source ++ paths.map library.key

section

variable {library : Library} {expand : Bool} {text : String} {source : Option String} {run : Run Node}

theorem cycle_of_reads (h : library.Reads expand text source run) {keys : List String}
    (hkeys : run.result = .error (.importCycle keys)) : library.Cycle text source keys := by
  rw [← h.eq_restrict fun _ hp => hp, parse_error_iff] at hkeys
  obtain ⟨paths, file, hfrom, -⟩ := exists_comesFrom (fun _ _ => Library.load_of_restrict) _ hkeys
  obtain ⟨before, l, ls, fault₀, hv, hf, hfault⟩ := hfrom.fails
  obtain ⟨path, hc, hmem, rfl⟩ := hf.importCycle hfault.symm
  have hnodup : (library.origin source).Nodup := by
    cases source with
    | none => exact List.nodup_nil
    | some path => exact List.nodup_singleton _
  exact ⟨paths, file, String.ofList path, hfrom.leads, ⟨before, l, ls, hv, by simpa using hc⟩, rfl,
    hfrom.nodup hnodup, hmem⟩

theorem Library.Cycle.elim {α : Type} [Preorder α] {rank : String → α}
    (hrank : ∀ path text' q, library.load path = .ok text' → Imports text' q →
      rank (library.key q) < rank (library.key path))
    (hsource : ∀ path q, source = some path → Imports text q → rank (library.key q) < rank (library.key path))
    {keys : List String} (h : library.Cycle text source keys) : False := by
  obtain ⟨paths, file, path, hleads, hi, -, -, hmem⟩ := h
  obtain ⟨hpaths, hbelow⟩ := hleads.rank_lt hrank hi
  -- the last key is that of a text under way, and all of these have a greater rank
  have habove : ∀ k ∈ library.origin source ++ paths.map library.key, rank (library.key path) < rank k := by
    intro k hk
    rcases List.mem_append.1 hk with hk | hk
    · cases source with
      | none => cases hk
      | some s =>
        rw [List.mem_singleton.1 hk]
        exact hbelow _ fun p hp => hsource s p rfl hp
    · obtain ⟨p, hp, rfl⟩ := List.mem_map.1 hk
      exact hpaths p hp
  exact lt_irrefl _ (habove _ hmem)

/-- **Reports of cycles are sound and never spurious.** The keys that are reported are those of a cycle that
the text leads into. If every import of a text that can be loaded has a smaller rank than the path of that
text, and every import of the text itself than its source, then no cycle is reported. -/
theorem importCycle_reported (h : library.Reads expand text source run) :
    (∀ keys, run.result = .error (.importCycle keys) → library.Cycle text source keys) ∧
    (∀ {α : Type} [Preorder α] (rank : String → α),
      (∀ path text' q, library.load path = .ok text' → Imports text' q →
        rank (library.key q) < rank (library.key path)) →
      (∀ path q, source = some path → Imports text q → rank (library.key q) < rank (library.key path)) →
      ∀ keys, run.result ≠ .error (.importCycle keys)) :=
  ⟨fun _ => cycle_of_reads h, fun _ hrank hsource _ hkeys => (cycle_of_reads h hkeys).elim hrank hsource⟩

end

theorem Loader.mem_of_load_ofMemory {texts : List (String × Option String)} {aliases : List (String × String)}
    {path text : String} (h : (ofMemory texts aliases).load path = .ok text) : (path, some text) ∈ texts := by
  have hlookup : texts.lookup path = some (some text) := by
    simp only [ofMemory] at h
    split at h
    · cases h
    · cases h
    · next hlookup =>
      cases h
      exact hlookup
  obtain ⟨_, _, rfl, -⟩ := List.lookup_eq_some_iff.1 hlookup
  exact List.mem_append_right _ List.mem_cons_self

/-- A cycle through another spelling of a path, inside a section; and one text that is imported three times,
on two ways, without a cycle. -/
theorem importCycle_reported_alias :
    let loader := Loader.ofMemory [("a", some "s \x7b\n@import \"b\"\n\x7d"), ("b", some "@import \"./a\"")]
      [("./a", "a")]
    let shared := Loader.ofMemory [("a", some "@import \"c\""), ("b", some "@import \"c\"\n@import \"c\""),
      ("c", some "k: 1")] []
    ((parse true loader "@import \"a\"" none).result = .error (.importCycle ["a", "b", "a"]) ∧
      loader.library.Cycle "@import \"a\"" none ["a", "b", "a"]) ∧
    (parse true shared "@import \"a\"\n@import \"b\"" (some "main")).loads = ["a", "c", "b", "c", "c"] ∧
    ∀ keys, (parse true shared "@import \"a\"\n@import \"b\"" (some "main")).result ≠ .error (.importCycle keys) := by
  intro loader shared
  have hcycle : (parse true loader "@import \"a\"" none).result = .error (.importCycle ["a", "b", "a"]) :=
    Run.result_eq_error_of_map (f := fun _ => ()) (by decide +kernel)
  refine ⟨⟨hcycle, (importCycle_reported (Library.reads_library_iff.2 rfl)).1 _ hcycle⟩, by decide +kernel, ?_⟩
  have hreads : shared.library.Reads true "@import \"a\"\n@import \"b\"" (some "main") _ :=
    Library.reads_library_iff.2 rfl
  let rank : String → Nat := fun k => if k = "c" then 0 else if k = "main" then 2 else 1
  refine (importCycle_reported hreads).2 rank ?_ ?_
  · intro path text q hl hi
    have hrank : ∀ e ∈ [("a", some "@import \"c\""), ("b", some "@import \"c\"\n@import \"c\""),
        ("c", some "k: 1")], ∀ t ∈ e.2, ∀ q ∈ directives t, rank (shared.key q) < rank (shared.key e.1) := by
      decide +kernel
    have hload : shared.load path = .ok text := hl
    exact hrank (path, some text) (Loader.mem_of_load_ofMemory hload) text rfl q hi.mem_directives
  · rintro path q h hi
    cases h
    have hrank : ∀ q ∈ directives "@import \"a\"\n@import \"b\"", rank (shared.key q) < rank (shared.key "main") := by
      decide +kernel
    exact hrank q hi.mem_directives

end DefTree
