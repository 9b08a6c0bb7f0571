/-
Loaders: where the texts of imports come from.

A loader reads the text of a path and gives each path a key, its identity:
two paths with one key are the same source. Only finitely many keys have a
text. `Loader.unused` counts those that are not in a chain of keys; it
falls whenever a new one is entered, which is why expanding imports ends.
-/
import DefTree.Fault

namespace DefTree

inductive LoadFault where
  | unreadable (reason : Option String)
  /-- The path cannot be the name of a file. -/
  | nulInPath
  deriving DecidableEq, Repr

def LoadFault.ofImport (path : String) : LoadFault → Fault
  | .unreadable reason => .unreadableImport path reason
  | .nulInPath => .nulInPath

structure Loader where
  /-- The identity of a path. -/
  key : String → String
  load : String → Except LoadFault String
  /-- The keys of all paths that can be loaded. -/
  keys : List String
  covers : ∀ {path text}, load path = .ok text → key path ∈ keys

namespace Loader

/-- How many keys of loadable paths a chain leaves. -/
def unused (loader : Loader) (chain : List String) : Nat :=
  (loader.keys.filter (!chain.contains ·)).length

theorem unused_append_lt {loader : Loader} {chain : List String} {k : String}
    (hk : k ∈ loader.keys) (hc : k ∉ chain) :
    loader.unused (chain ++ [k]) < loader.unused chain := by
  unfold unused
  generalize loader.keys = ks at hk
  have hle : ∀ ks : List String, (ks.filter (!(chain ++ [k]).contains ·)).length ≤
      (ks.filter (!chain.contains ·)).length := by
    intro ks
    apply List.Sublist.length_le
    have : ks.filter (!(chain ++ [k]).contains ·) =
        (ks.filter (!chain.contains ·)).filter (!(chain ++ [k]).contains ·) := by
      rw [List.filter_filter]
      apply List.filter_congr
      intro x _
      by_cases hx : x ∈ chain <;> simp [hx]
    rw [this]
    exact List.filter_sublist
  induction ks with
  | nil => simp at hk
  | cons x ks ih =>
    by_cases hx : x = k
    · subst hx
      have := hle ks
      simp only [List.filter_cons]
      simp [hc] at this ⊢
      omega
    · have hk' : k ∈ ks := by
        rcases List.mem_cons.1 hk with h | h
        · exact absurd h.symm hx
        · exact h
      have := ih hk'
      simp only [List.filter_cons]
      by_cases hxc : x ∈ chain
      · simpa [hxc] using this
      · simp [hxc, hx] at this ⊢
        omega

/-! ## Loading from memory -/

/-- A loader over texts held by path. A path whose entry is empty cannot be read, and `aliases`
gives the keys of paths that are not their own. -/
def ofMemory (texts : List (String × Option String)) (aliases : List (String × String)) : Loader where
  key path := (aliases.lookup path).getD path
  load path := match texts.lookup path with
    | none => .error (.unreadable (some "no such file"))
    | some none => .error (.unreadable none)
    | some (some text) => .ok text
  keys := texts.map fun (path, _) => (aliases.lookup path).getD path
  covers := by
    intro path text h
    have : texts.lookup path = some (some text) := by
      split at h <;> simp_all
    have hm : ∃ t, (path, t) ∈ texts := by
      clear h
      induction texts with
      | nil => simp at this
      | cons e es ih =>
        obtain ⟨p, t⟩ := e
        by_cases hp : path = p
        · subst hp; exact ⟨t, by simp⟩
        · have hb : (path == p) = false := by simpa using hp
          rw [List.lookup_cons, hb] at this
          obtain ⟨t', ht'⟩ := ih this
          exact ⟨t', List.mem_cons_of_mem _ ht'⟩
    obtain ⟨t, ht⟩ := hm
    exact List.mem_map.2 ⟨(path, t), ht, rfl⟩

end Loader

end DefTree
