/-
Reading from libraries.

A loader has texts for finitely many keys only; a library may have a text
for every path. A run that ends has asked for finitely many of them, and it
depends on those alone (`parse_congr`). So what reading does with a library
is what it does with a loader that agrees with the library on the paths the
run asks for: `Library.Reads`. There is at most one such run
(`Library.Reads.unique`), and what is proved about all of them holds for
any place that texts may come from.
-/
import DefTree.Proofs.Parse

namespace DefTree

/-- A place that texts come from, for any number of paths. -/
structure Library where
  /-- The identity of a path. -/
  key : String → String
  load : String → Except LoadFault String

/-- The texts of a loader as a library. -/
def Loader.library (loader : Loader) : Library := ⟨loader.key, loader.load⟩

namespace Library

/-- Reading a text with a library comes to a run: it is the run with a loader that has the keys of the
library and agrees with it on every path that the run asks for. -/
def Reads (library : Library) (expand : Bool) (text : String) (source : Option String)
    (run : Run Node) : Prop :=
  ∃ loader : Loader, loader.key = library.key ∧
    (∀ path ∈ run.loads, loader.load path = library.load path) ∧ parse expand loader text source = run

/-- The chain that reading a text begins with: the key of its source, if it has one. -/
def origin (library : Library) (source : Option String) : List String := (source.map library.key).toList

/-- The loader that knows some paths of a library. -/
def restrict (library : Library) (paths : List String) : Loader where
  key := library.key
  load path := if path ∈ paths then library.load path else .error (.unreadable none)
  keys := paths.map library.key
  covers := by
    intro path text h
    split at h
    · next hp => exact List.mem_map_of_mem hp
    · cases h

theorem load_restrict {library : Library} {paths : List String} {path : String} (h : path ∈ paths) :
    (library.restrict paths).load path = library.load path := if_pos h

theorem load_of_restrict {library : Library} {paths : List String} {path text : String}
    (h : (library.restrict paths).load path = .ok text) : library.load path = .ok text := by
  change (if path ∈ paths then library.load path else _) = _ at h
  split at h
  · exact h
  · cases h

end Library

/-! ## What a run depends on -/

section

variable {rule rule' : ImportRule} {P : String → Prop}

theorem buildConstruct_congr
    (hrule : ∀ path deferred, (∀ p ∈ (rule path deferred).loads, P p) → rule' path deferred = rule path deferred)
    (before : Nat) (c : Construct)
    (hblock : ∀ name attributes block, c = .sect name attributes block → ∀ before,
      (∀ p ∈ (buildLines rule before block).loads, P p) →
        buildLines rule' before block = buildLines rule before block)
    (h : ∀ p ∈ (buildConstruct rule before c).loads, P p) :
    buildConstruct rule' before c = buildConstruct rule before c := by
  cases c with
  | blank | unknown _ | prop _ _ | func _ _ _ | openFunc _ _ | openSect _ _ => rfl
  | ref path deferred => exact hrule _ _ h
  | sect name attributes block =>
    refine Run.bind_congr_of_loads h (fun _ => rfl) fun a h => ?_
    refine Run.bind_congr_of_loads h (fun _ => rfl) fun _ h => ?_
    exact Run.bind_congr_of_loads h (hblock name attributes block rfl (before + 1)) fun _ _ => rfl

/-- Building is the same under two rules if they treat alike every import that loads nothing but what
`P` allows, and building loads nothing else. -/
theorem buildLines_congr
    (hrule : ∀ path deferred, (∀ p ∈ (rule path deferred).loads, P p) → rule' path deferred = rule path deferred)
    (ls : List (List Char)) : ∀ before, (∀ p ∈ (buildLines rule before ls).loads, P p) →
      buildLines rule' before ls = buildLines rule before ls := by
  induction ls using Front.induction with
  | nil => intro before _; rw [buildLines_nil, buildLines_nil]
  | cons l ls ih ihb =>
    intro before h
    rw [buildLines_cons] at h
    rw [buildLines_cons, buildLines_cons]
    refine Run.bind_congr_of_loads h (buildConstruct_congr hrule before _ ihb) fun nodes h => ?_
    exact Run.bind_congr_of_loads h (ih _) fun _ _ => rfl

end

section

variable {loader loader' : Loader}

theorem expandImport_congr (hkey : loader'.key = loader.key) (chain : List String) (path : String)
    (h : ∀ p ∈ (expandImport loader chain path).loads, loader'.load p = loader.load p) :
    expandImport loader' chain path = expandImport loader chain path := by
  rw [expandImport_eq] at h
  rw [expandImport_eq, expandImport_eq, hkey]
  by_cases hc : loader.key path ∈ chain
  · rw [if_pos hc, if_pos hc]
  rw [if_neg hc] at h
  rw [if_neg hc, if_neg hc]
  have hpath : loader'.load path = loader.load path := by
    refine h path ?_
    rw [Run.loads_bind_of_ok rfl, Run.loads_bind_of_ok rfl]
    simp [Run.loads, Run.emit, Event.loaded?]
  refine Run.bind_congr_of_loads h (fun _ => rfl) fun _ h => ?_
  refine Run.bind_congr_of_loads h (fun _ => rfl) fun _ h => ?_
  rw [hpath]
  cases hl : loader.load path with
  | error fault => rfl
  | ok text =>
    rw [hl] at h
    refine congrArg (Run.mapFault (.inSource path)) (buildLines_congr ?_ _ _ h)
    intro path' deferred h'
    cases deferred with
    | true => rfl
    | false => exact expandImport_congr hkey (chain ++ [loader.key path]) path' h'
termination_by loader.unused chain
decreasing_by exact Loader.unused_append_lt (loader.covers hl) hc

theorem importRule_congr (hkey : loader'.key = loader.key) (expand : Bool) (chain : List String)
    (path : String) (deferred : Bool)
    (h : ∀ p ∈ (importRule expand loader chain path deferred).loads, loader'.load p = loader.load p) :
    importRule expand loader' chain path deferred = importRule expand loader chain path deferred := by
  unfold importRule at h ⊢
  split
  · rfl
  · next hd =>
    rw [if_neg hd] at h
    exact expandImport_congr hkey chain path h

/-- **A run depends on the texts that it asks for** and on the keys, and on nothing else of a loader. -/
theorem parse_congr (hkey : loader'.key = loader.key) {expand : Bool} {text : String} {source : Option String}
    (h : ∀ path ∈ (parse expand loader text source).loads, loader'.load path = loader.load path) :
    parse expand loader' text source = parse expand loader text source := by
  rw [parse_loads] at h
  have horigin : loader'.origin source = loader.origin source := by
    rw [Loader.origin, hkey, Loader.origin]
  have hbuild : buildText (importRule expand loader' (loader.origin source)) text =
      buildText (importRule expand loader (loader.origin source)) text :=
    buildLines_congr (importRule_congr hkey expand (loader.origin source)) _ _ h
  rw [parse_eq, parse_eq, horigin, hbuild]

end

namespace Library

variable {library : Library} {expand : Bool} {text : String} {source : Option String} {run run' : Run Node}

/-- Knowing the paths that a run asks for is enough for it. -/
theorem Reads.eq_restrict (h : library.Reads expand text source run) {paths : List String}
    (hp : ∀ path ∈ run.loads, path ∈ paths) : parse expand (library.restrict paths) text source = run := by
  obtain ⟨loader, hkey, hload, rfl⟩ := h
  refine parse_congr hkey.symm fun path hm => ?_
  rw [load_restrict (hp path hm), hload path hm]

/-- Conversely, a run that asks for no other paths is one with the library. -/
theorem reads_restrict {paths : List String}
    (hp : ∀ path ∈ (parse expand (library.restrict paths) text source).loads, path ∈ paths) :
    library.Reads expand text source (parse expand (library.restrict paths) text source) :=
  ⟨library.restrict paths, rfl, fun path hm => load_restrict (hp path hm), rfl⟩

/-- **Reading with a library comes to one run.** -/
theorem Reads.unique (h : library.Reads expand text source run) (h' : library.Reads expand text source run') :
    run' = run := by
  rw [← h.eq_restrict fun path hm => List.mem_append_left run'.loads hm,
    h'.eq_restrict fun path hm => List.mem_append_right run.loads hm]

theorem reads_library_iff {loader : Loader} :
    loader.library.Reads expand text source run ↔ run = parse expand loader text source :=
  ⟨fun h => Reads.unique ⟨loader, rfl, fun _ _ => rfl, rfl⟩ h,
    fun h => ⟨loader, rfl, fun _ _ => rfl, h.symm⟩⟩

end Library

end DefTree
