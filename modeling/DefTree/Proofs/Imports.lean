/-
Which text imports which, and where a fault comes from.

A text imports a path if reading it comes to a directive of that path which
is not deferred; what stands in the bodies of functions is not read.
Imports lead from a text to others, one directive after the other, each in
the text that the one before it loads (`Leads`).

A fault of reading belongs to one text that imports lead to: it is the
fault of a construct there, and on its way out it is given the path of the
innermost import as its source, which no import around that one changes
(`exists_comesFrom`). The keys of the paths on the way are the chain
under which that text is read, so none of them comes twice.
-/
import DefTree.Proofs.Expansion
import DefTree.Proofs.Library
import DefTree.Proofs.Visit
import Mathlib.Data.List.Nodup

namespace DefTree

/-- A text has a directive for a path that is not deferred: reading it with its imports kept comes to
that directive. -/
def Imports (text path : String) : Prop :=
  ∃ before l ls, Visits markImport 0 (sourceLines text) before (l :: ls) ∧
    (Front.read l ls).construct = .ref path.toList false

/-- Imports lead from a text to a file: each of the paths is imported by the text that was loaded for
the one before it, the first one by the text itself, and the file is the text of the last one. -/
inductive Leads (library : Library) : String → List String → String → Prop where
  | here (text) : Leads library text [] text
  | step {text path text' paths file} (hi : Imports text path) (hl : library.load path = .ok text')
      (h : Leads library text' paths file) : Leads library text (path :: paths) file

/-- Looks an import up without reading its text. -/
def lookUpImport (loader : Loader) (chain : List String) : ImportRule := fun path deferred =>
  if deferred then pure []
  else if loader.key path ∈ chain then .fail (.importCycle (chain ++ [loader.key path]))
  else match loader.load path with
    | .error fault => .fail (fault.ofImport path)
    | .ok _ => pure []

/-- A fault of a text, as it is told outside of the file that the text is from; the text that reading
begins with is from no file. -/
def Fault.inFile (fault : Fault) : Option String → Fault
  | none => fault
  | some path => fault.inSource path

/-! ## Sources -/

theorem Fault.inSource_inSource (outer inner : String) (fault : Fault) :
    (fault.inSource inner).inSource outer = fault.inSource inner := by
  cases fault with
  | misread m => cases hs : m.source <;> simp [inSource, hs]
  | _ => rfl

theorem Fault.inFile_cons (fault : Fault) (path : String) (paths : List String) :
    (fault.inFile paths.getLast?).inSource path = fault.inFile (path :: paths).getLast? := by
  cases paths with
  | nil => rfl
  | cons q paths =>
    rw [List.getLast?_cons_cons]
    cases h : (q :: paths).getLast? with
    | none => simp at h
    | some inner => exact Fault.inSource_inSource path inner fault

theorem Fault.inFile_eq {fault : Fault} (h : ∀ m, fault ≠ .misread m) (source : Option String) :
    fault.inFile source = fault := by
  cases source with
  | none => rfl
  | some path => cases fault with
    | misread m => exact absurd rfl (h m)
    | _ => rfl

theorem Fault.unknownLine_inFile (line : Int) (text : List Char) (source : Option String) :
    (Fault.unknownLine line text).inFile source = .misread
      { complaint := .unknownLine, line := some line, text := some (String.ofList text), source := source } := by
  cases source <;> rfl

theorem Fault.unclosedBlock_inFile (line : Int) (opener : List Char) (source : Option String) :
    (Fault.unclosedBlock line opener).inFile source = .misread
      { complaint := .unclosedBlock, line := some line, text := some (String.ofList opener), source := source } := by
  cases source <;> rfl

/-! ## Visits with imports kept -/

theorem exists_marked_of_ok {expand : Bool} {loader : Loader} {chain : List String} {before : Nat} {c : Construct}
    {nodes : List Node} (h : (buildConstruct (importRule expand loader chain) before c).result = .ok nodes) :
    ∃ nodes', (buildConstruct markImport before c).result = .ok nodes' := by
  have hkept (path : String) : (importRule expand loader chain path true).success? = some ([.refOf path], []) := rfl
  have hblock : ∀ name attributes block, c = .sect name attributes block → ∀ before,
      (buildLines (importRule expand loader chain) before block).success? =
        (buildLines markImport before block).value?.bind
          (spliceNodes fun path => (importRule expand loader chain path false).success?) :=
    fun _ _ block _ => success?_buildLines hkept (fun _ => rfl) block
  have hsuccess := success?_buildConstruct hkept (fun _ => rfl) before c hblock
  rw [Run.success?_of_ok h] at hsuccess
  obtain ⟨nodes', hmarked, -⟩ := Option.bind_eq_some_iff.1 hsuccess.symm
  exact ⟨nodes', Run.value?_eq_some_iff.1 hmarked⟩

theorem Visits.marked {expand : Bool} {loader : Loader} {chain : List String} {before before' : Nat}
    {ls ls' : List (List Char)} (h : Visits (importRule expand loader chain) before ls before' ls') :
    Visits markImport before ls before' ls' := by
  induction h with
  | here => exact .here
  | next hc _ ih =>
    obtain ⟨nodes', hc⟩ := exists_marked_of_ok hc
    exact .next hc ih
  | into hc ha _ ih => exact .into hc ha ih

/-! ## Where a fault comes from -/

/-- A construct other than an import fails alike under every rule for imports. -/
theorem Construct.Fails.of_rule {rule : ImportRule} {before : Nat} {c : Construct} {fault : Fault}
    (h : c.Fails rule before fault) (rule' : ImportRule) :
    c.Fails rule' before fault ∨ ∃ path deferred, c = .ref path deferred ∧
      (rule (String.ofList path) deferred).result = .error fault := by
  cases h with
  | unknown text => exact .inl (.unknown text)
  | openFunc line opener => exact .inl (.openFunc line opener)
  | openSect attributes opener => exact .inl (.openSect attributes opener)
  | prop h => exact .inl (.prop h)
  | attributes h => exact .inl (.attributes h)
  | openAttributes h => exact .inl (.openAttributes h)
  | ref h => exact .inr ⟨_, _, rfl, h⟩

/-- An import that fails is one to be expanded. It fails when it is looked up, or in its text. -/
theorem importRule_error {expand : Bool} {loader : Loader} {chain : List String} {path : String} {deferred : Bool}
    {fault : Fault} (h : (importRule expand loader chain path deferred).result = .error fault) :
    deferred = false ∧ expand = true ∧ ((lookUpImport loader chain path false).result = .error fault ∨
      ∃ text fault', loader.key path ∉ chain ∧ loader.load path = .ok text ∧
        (buildText (importRule true loader (chain ++ [loader.key path])) text).result = .error fault' ∧
        fault = fault'.inSource path) := by
  cases deferred with
  | true => cases h
  | false =>
    cases expand with
    | false => cases h
    | true =>
      refine ⟨rfl, rfl, ?_⟩
      change (expandImport loader chain path).result = .error fault at h
      rw [expandImport_eq] at h
      simp only [lookUpImport, Bool.false_eq_true, if_false]
      by_cases hc : loader.key path ∈ chain
      · rw [if_pos hc] at h ⊢
        exact .inl h
      rw [if_neg hc, Run.result_bind_of_ok rfl, Run.result_bind_of_ok rfl] at h
      rw [if_neg hc]
      cases hl : loader.load path with
      | error f =>
        rw [hl] at h
        exact .inl h
      | ok text =>
        rw [hl] at h
        cases hb : (buildText (importRule true loader (chain ++ [loader.key path])) text).result with
        | ok nodes => simp [Run.mapFault, hb, Except.mapError] at h
        | error fault' =>
          simp only [Run.mapFault, hb, Except.mapError, Except.error.injEq] at h
          exact .inr ⟨text, fault', hc, rfl, hb, h.symm⟩

/-- An import that succeeds stays as a node, or becomes the nodes of its text. -/
theorem importRule_ok {expand : Bool} {loader : Loader} {chain : List String} {path : String} {deferred : Bool}
    {nodes : List Node} (h : (importRule expand loader chain path deferred).result = .ok nodes) :
    ((deferred = true ∨ expand = false) ∧ nodes = [.refOf path]) ∨
    (deferred = false ∧ expand = true ∧ ∃ text, loader.key path ∉ chain ∧ loader.load path = .ok text ∧
      (buildText (importRule true loader (chain ++ [loader.key path])) text).result = .ok nodes) := by
  cases deferred with
  | true => cases h; exact .inl ⟨.inl rfl, rfl⟩
  | false =>
    cases expand with
    | false => cases h; exact .inl ⟨.inr rfl, rfl⟩
    | true =>
      refine .inr ⟨rfl, rfl, ?_⟩
      change (expandImport loader chain path).result = .ok nodes at h
      rw [expandImport_eq] at h
      by_cases hc : loader.key path ∈ chain
      · rw [if_pos hc] at h
        cases h
      rw [if_neg hc, Run.result_bind_of_ok rfl, Run.result_bind_of_ok rfl] at h
      cases hl : loader.load path with
      | error f =>
        rw [hl] at h
        cases h
      | ok text =>
        rw [hl] at h
        cases hb : (buildText (importRule true loader (chain ++ [loader.key path])) text).result with
        | error fault => simp [Run.mapFault, hb, Except.mapError] at h
        | ok nodes' =>
          simp only [Run.mapFault, hb, Except.mapError, Except.ok.injEq] at h
          exact ⟨text, hc, rfl, hb.trans (congrArg Except.ok h)⟩

/-- Where a fault of reading a text under a chain comes from: imports lead from the text to a file, under
new keys, and reading that file visits a construct which fails; its fault is told as one of the innermost
import. -/
structure Fault.ComesFrom (library : Library) (loader : Loader) (chain : List String) (text : String)
    (fault : Fault) (paths : List String) (file : String) : Prop where
  leads : Leads library text paths file
  nodup : chain.Nodup → (chain ++ paths.map loader.key).Nodup
  fails : ∃ before l ls fault₀, Visits markImport 0 (sourceLines file) before (l :: ls) ∧
    (Front.read l ls).construct.Fails (lookUpImport loader (chain ++ paths.map loader.key)) before fault₀ ∧
    fault = fault₀.inFile paths.getLast?

namespace Fault.ComesFrom

variable {library : Library} {loader : Loader} {chain : List String} {text : String} {fault : Fault}

theorem own {before : Nat} {l : List Char} {ls : List (List Char)}
    (hv : Visits markImport 0 (sourceLines text) before (l :: ls))
    (hf : (Front.read l ls).construct.Fails (lookUpImport loader chain) before fault) :
    fault.ComesFrom library loader chain text [] text where
  leads := .here text
  nodup := by simp
  fails := ⟨before, l, ls, fault, hv, by simpa using hf, rfl⟩

/-- The fault of a text that is imported, under one key more. -/
theorem imported {path text' file : String} {paths : List String} (hi : Imports text path)
    (hk : loader.key path ∉ chain) (hl : library.load path = .ok text')
    (h : fault.ComesFrom library loader (chain ++ [loader.key path]) text' paths file) :
    (fault.inSource path).ComesFrom library loader chain text (path :: paths) file := by
  have hchain : chain ++ (path :: paths).map loader.key = chain ++ [loader.key path] ++ paths.map loader.key := by
    simp
  obtain ⟨before, l, ls, fault₀, hv, hf, rfl⟩ := h.fails
  refine ⟨.step hi hl h.leads, fun hn => ?_, before, l, ls, fault₀, hv, ?_, Fault.inFile_cons fault₀ path paths⟩
  · rw [hchain]
    exact h.nodup (hn.append (List.nodup_singleton _) (List.disjoint_singleton.2 hk))
  · rw [hchain]
    exact hf

end Fault.ComesFrom

/-- **A fault comes from one file.** No other text is imported than those of the library, and none at all
if imports are kept. -/
theorem exists_comesFrom {library : Library} {loader : Loader}
    (hload : ∀ path text, loader.load path = .ok text → library.load path = .ok text) {expand : Bool}
    (chain : List String) {text : String} {fault : Fault}
    (h : (buildText (importRule expand loader chain) text).result = .error fault) :
    ∃ paths file, fault.ComesFrom library loader chain text paths file ∧ (paths ≠ [] → expand = true) := by
  obtain ⟨before, l, ls, hv, hf⟩ := exists_visits_of_error h
  rcases hf.of_rule (lookUpImport loader chain) with hf | ⟨path, deferred, hc, hr⟩
  · exact ⟨[], text, .own hv.marked hf, fun h => absurd rfl h⟩
  obtain ⟨rfl, rfl, hr | ⟨text', fault', hk, hl, hb, rfl⟩⟩ := importRule_error hr
  · exact ⟨[], text, .own hv.marked (hc ▸ .ref hr), fun h => absurd rfl h⟩
  · obtain ⟨paths, file, h', -⟩ := exists_comesFrom hload (chain ++ [loader.key (String.ofList path)]) hb
    have hi : Imports text (String.ofList path) := ⟨before, l, ls, hv.marked, by simpa using hc⟩
    exact ⟨_, file, h'.imported hi hk (hload _ _ hl), fun _ => rfl⟩
termination_by loader.unused chain
decreasing_by exact Loader.unused_append_lt (loader.covers hl) hk

/-! ## Looking imports up -/

theorem lookUpImport_error {loader : Loader} {chain : List String} {path : String} {deferred : Bool} {fault : Fault}
    (h : (lookUpImport loader chain path deferred).result = .error fault) : deferred = false ∧
      (loader.key path ∈ chain ∧ fault = .importCycle (chain ++ [loader.key path]) ∨
        ∃ f, loader.load path = .error f ∧ fault = f.ofImport path) := by
  cases deferred with
  | true => cases h
  | false =>
    simp only [lookUpImport, Bool.false_eq_true, if_false] at h
    refine ⟨rfl, ?_⟩
    split at h
    · next hc => cases h; exact .inl ⟨hc, rfl⟩
    · split at h
      · next f hl => cases h; exact .inr ⟨f, hl, rfl⟩
      · cases h

/-- What the fault of a construct is about: a line of no known shape, a block that is never closed, a cycle
of imports, or neither a line nor a cycle. -/
theorem Construct.Fails.kind {loader : Loader} {chain : List String} {before : Nat} {c : Construct} {fault : Fault}
    (h : c.Fails (lookUpImport loader chain) before fault) :
    (∃ text, c = .unknown text ∧ fault = .unknownLine (before + 1) text) ∨
    (∃ line opener, fault = .unclosedBlock line opener) ∨
    (∃ path, c = .ref path false ∧ loader.key (String.ofList path) ∈ chain ∧
      fault = .importCycle (chain ++ [loader.key (String.ofList path)])) ∨
    ((∀ m, fault ≠ .misread m) ∧ ∀ keys, fault ≠ .importCycle keys) := by
  cases h with
  | unknown text => exact .inl ⟨text, rfl, rfl⟩
  | openFunc line opener => exact .inr (.inl ⟨_, opener, rfl⟩)
  | openSect attributes opener => exact .inr (.inl ⟨_, opener, rfl⟩)
  | attributes h | openAttributes h =>
    obtain ⟨digits, rfl⟩ := exists_of_buildAttributes_error h
    simp
  | prop h => rcases exists_of_buildProp_error h with ⟨digits, rfl⟩ | rfl <;> simp
  | @ref path _ _ h =>
    obtain ⟨rfl, ⟨hc, rfl⟩ | ⟨f, -, rfl⟩⟩ := lookUpImport_error h
    · exact .inr (.inr (.inl ⟨path, rfl, hc, rfl⟩))
    · cases f <;> simp [LoadFault.ofImport]

/-! ## Directives -/

/-- The paths of the import directives of a text that are not deferred, those in the bodies of functions
among them. -/
def directives (text : String) : List String :=
  (sourceLines text).filterMap fun l => match Line.read (Text.trim l) with
    | .ref path false => some (String.ofList path)
    | _ => none

/-- A path that a text imports stands in one of its directives. -/
theorem Imports.mem_directives {text path : String} (h : Imports text path) : path ∈ directives text := by
  obtain ⟨before, l, ls, hv, hc⟩ := h
  refine List.mem_filterMap.2 ⟨l, List.mem_of_getElem? hv.getElem?, ?_⟩
  rw [Front.line_of_read_ref hc]
  simp

end DefTree
