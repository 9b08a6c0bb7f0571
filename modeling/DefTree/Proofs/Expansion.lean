/-
Expanding imports is putting trees into trees.

`marked` is the tree of a text in which every import still stands, as a
reference that remembers whether it is deferred. `expand` replaces the
references that are not, at every depth and in their order, by the expanded
trees of the texts that they name, and lists the paths it went through.
The builder does both at once, while it is still scanning the text around
an import; `parse_eq_expand` says that it does not matter: what an import
brings in never reaches the scan of the text that imports it.
-/
import DefTree.Proofs.Parse

namespace DefTree

/-- The type of a reference that is still to be expanded. -/
def Node.pendingType : String := "pending"

/-- Keeps every import in the tree; one that is not deferred is pending. -/
def markImport : ImportRule := fun path deferred =>
  pure [if deferred then .refOf path else .ref path Node.pendingType path]

/-- The nodes of a text with its imports marked, if it can be built. -/
def marked (text : String) : Option (List Node) := (buildText markImport text).value?

/-- The nodes that come in the place of others, and the paths that were expanded for them. -/
abbrev Expansion := List Node × List String

/-- One expansion after another. -/
def Expansion.append (e f : Expansion) : Expansion := (e.1 ++ f.1, e.2 ++ f.2)

mutual

/-- Puts the expansions of pending references in their place, in a node and at every depth below. -/
def spliceNode (f : String → Option Expansion) : Node → Option Expansion
  | .sect name type attributes children =>
    (spliceNodes f children).map fun e => ([.sect name type attributes e.1], e.2)
  | .ref name type path => if type = Node.pendingType then f path else some ([.ref name type path], [])
  | n => some ([n], [])

/-- Puts the expansions of pending references in their place, from the first node to the last. -/
def spliceNodes (f : String → Option Expansion) : List Node → Option Expansion
  | [] => some ([], [])
  | n :: ns => (spliceNode f n).bind fun e => (spliceNodes f ns).map e.append

end

/-- Expands the pending references among some nodes under a chain of keys. It fails where a key is in
the chain already, where a path cannot be loaded and where its text cannot be built or expanded. -/
def expand (loader : Loader) (chain : List String) (nodes : List Node) : Option Expansion :=
  spliceNodes (fun path =>
    if _hc : loader.key path ∈ chain then none
    else match _h : loader.load path with
      | .error _ => none
      | .ok text => (marked text).bind fun ns =>
        (expand loader (chain ++ [loader.key path]) ns).map fun e => (e.1, path :: e.2)) nodes
termination_by loader.unused chain
decreasing_by exact Loader.unused_append_lt (loader.covers _h) _hc

/-- What an import under a chain expands to, with its own path first. -/
def expandPath (loader : Loader) (chain : List String) (path : String) : Option Expansion :=
  if loader.key path ∈ chain then none
  else match loader.load path with
    | .error _ => none
    | .ok text => (marked text).bind fun ns =>
      (expand loader (chain ++ [loader.key path]) ns).map fun e => (e.1, path :: e.2)

theorem expand_eq (loader : Loader) (chain : List String) (nodes : List Node) :
    expand loader chain nodes = spliceNodes (expandPath loader chain) nodes := by
  rw [expand]
  congr 1
  funext path
  unfold expandPath
  split
  · rfl
  · split
    · next h => rw [h]
    · next h => rw [h]

/-! ## Building under a rule for imports -/

theorem Expansion.append_assoc (e f g : Expansion) : (e.append f).append g = e.append (f.append g) := by
  simp [Expansion.append]

theorem spliceNodes_append (f : String → Option Expansion) (ms ns : List Node) :
    spliceNodes f (ms ++ ns) = (spliceNodes f ms).bind fun e => (spliceNodes f ns).map e.append := by
  induction ms with
  | nil =>
    rw [List.nil_append, spliceNodes]
    cases spliceNodes f ns <;> simp [Expansion.append]
  | cons m ms ih =>
    rw [List.cons_append, spliceNodes, ih, spliceNodes]
    cases spliceNode f m with
    | none => rfl
    | some e =>
      cases spliceNodes f ms with
      | none => rfl
      | some e' => cases spliceNodes f ns <;> simp [Expansion.append_assoc]

theorem spliceNodes_single (f : String → Option Expansion) (n : Node) : spliceNodes f [n] = spliceNode f n := by
  rw [spliceNodes, spliceNodes]
  cases spliceNode f n <;> simp [Expansion.append]

theorem success?_eq_of_loads {α : Type} {r : Run α} (h : r.loads = []) :
    r.success? = r.value?.map fun a => (a, []) := by
  cases hr : r.result with
  | error fault => rw [Run.success?_of_error hr, Run.value?_of_error hr]; rfl
  | ok a => rw [Run.success?_of_ok hr, Run.value?_eq_some_iff.2 hr, h]; rfl

theorem loads_buildProp (key value : List Char) : (buildProp key value).loads = [] := by
  unfold buildProp
  split
  · rfl
  · split <;> rfl

theorem loads_buildAttributes (attributes : List Char) : (buildAttributes attributes).loads = [] := by
  unfold buildAttributes
  split <;> rfl

theorem eq_propOf_of_buildProp {key value : List Char} {n : Node}
    (h : (buildProp key value).result = .ok n) : ∃ v, n = .propOf (String.ofList key) v := by
  unfold buildProp at h
  split at h
  · cases h
  · next v _ =>
    split at h
    · cases h
    · obtain ⟨_, -, h⟩ := Run.bind_ok_iff.1 h
      exact ⟨v, (Run.pure_ok_iff.1 h).symm⟩

/-- A construct that is no section and no import has the same nodes under every rule, and loads
nothing. -/
theorem success?_buildLeaf {f : String → Option Expansion} {r : Run Node}
    (hl : r.loads = []) (hn : ∀ n, r.result = .ok n → spliceNode f n = some ([n], [])) :
    (r >>= fun n => pure [n]).success? = (r >>= fun n => (pure [n] : Run (List Node))).value?.bind (spliceNodes f) := by
  rw [Run.success?_bind, Run.value?_bind, success?_eq_of_loads hl]
  cases h : r.result with
  | error fault => rw [Run.value?_of_error h]; rfl
  | ok n =>
    rw [Run.value?_eq_some_iff.2 h]
    show some ([n], [] ++ []) = spliceNodes f [n]
    rw [spliceNodes_single, hn n h]
    rfl

section

variable {rule : ImportRule} {f : String → Option Expansion}

theorem success?_buildConstruct (hd : ∀ path, (rule path true).success? = some ([.refOf path], []))
    (he : ∀ path, (rule path false).success? = f path) (before : Nat) (c : Construct)
    (hblock : ∀ name attributes block, c = .sect name attributes block → ∀ before,
      (buildLines rule before block).success? =
        (buildLines markImport before block).value?.bind (spliceNodes f)) :
    (buildConstruct rule before c).success? =
      (buildConstruct markImport before c).value?.bind (spliceNodes f) := by
  cases c with
  | blank | unknown _ | openFunc _ _ => rfl
  | prop key value =>
    refine success?_buildLeaf (loads_buildProp key value) fun n h => ?_
    obtain ⟨v, rfl⟩ := eq_propOf_of_buildProp h
    rfl
  | func name arguments block =>
    refine success?_buildLeaf rfl fun n h => ?_
    cases h
    rfl
  | openSect attributes opener =>
    simp only [buildConstruct, Run.success?_bind, Run.value?_bind]
    cases (buildAttributes attributes).success? <;> cases (buildAttributes attributes).value? <;> rfl
  | sect name attributes block =>
    have hemit (first last : Nat) : (Run.emit (.sect (String.ofList name) first last)).success? =
        some ((), []) := rfl
    simp only [buildConstruct, Run.success?_bind, Run.value?_bind, hemit,
      success?_eq_of_loads (loads_buildAttributes attributes), hblock name attributes block rfl,
      Run.success?_pure, Run.value?_pure, Run.value?_emit]
    cases (buildAttributes attributes).value? with
    | none => rfl
    | some a =>
      cases (buildLines markImport (before + 1) block).value? with
      | none => rfl
      | some children =>
        simp only [Option.bind_some, spliceNodes_single, Node.sectOf, spliceNode]
        cases spliceNodes f children <;> simp
  | ref path deferred =>
    show (rule (String.ofList path) deferred).success? = spliceNodes f _
    rw [spliceNodes_single]
    cases deferred with
    | true => exact hd _
    | false => exact he _

/-- Building under a rule is building with the imports marked and then putting in their place what
the rule makes of them. -/
theorem success?_buildLines (hd : ∀ path, (rule path true).success? = some ([.refOf path], []))
    (he : ∀ path, (rule path false).success? = f path) (ls : List (List Char)) : ∀ before,
    (buildLines rule before ls).success? =
      (buildLines markImport before ls).value?.bind (spliceNodes f) := by
  induction ls using Front.induction with
  | nil => intro before; rw [buildLines_nil, buildLines_nil]; rfl
  | cons l ls ih ihb =>
    intro before
    simp only [buildLines_cons, Run.success?_bind, Run.value?_bind, Run.success?_pure, Run.value?_pure,
      success?_buildConstruct hd he before _ ihb, ih]
    cases (buildConstruct markImport before (Front.read l ls).construct).value? with
    | none => rfl
    | some ms =>
      cases (buildLines markImport (before + (Front.read l ls).height) (Front.read l ls).rest).value? with
      | none => cases h : spliceNodes f ms <;> simp [h]
      | some ns =>
        simp only [Option.bind_some, spliceNodes_append]
        cases spliceNodes f ms with
        | none => rfl
        | some e => cases spliceNodes f ns <;> simp [Expansion.append]

end

theorem buildText_success? {rule : ImportRule} {f : String → Option Expansion}
    (hd : ∀ path, (rule path true).success? = some ([.refOf path], []))
    (he : ∀ path, (rule path false).success? = f path) (text : String) :
    (buildText rule text).success? = (marked text).bind (spliceNodes f) :=
  success?_buildLines hd he (sourceLines text) 0

theorem success?_expandImport (loader : Loader) (chain : List String) (path : String) :
    (expandImport loader chain path).success? = expandPath loader chain path := by
  rw [expandImport_eq, expandPath]
  by_cases hc : loader.key path ∈ chain
  · rw [if_pos hc, if_pos hc]
    rfl
  rw [if_neg hc, if_neg hc]
  have hexpanding : (Run.emit (.expanding path)).success? = some ((), []) := rfl
  have hloading : (Run.emit (.loading path)).success? = some ((), [path]) := rfl
  simp only [Run.success?_bind, hexpanding, hloading]
  cases h : loader.load path with
  | error fault => rfl
  | ok text =>
    have hkept (path' : String) : (importRule true loader (chain ++ [loader.key path]) path' true).success? =
        some ([.refOf path'], []) := rfl
    have hexpanded (path' : String) : (importRule true loader (chain ++ [loader.key path]) path' false).success? =
        expandPath loader (chain ++ [loader.key path]) path' :=
      success?_expandImport loader (chain ++ [loader.key path]) path'
    simp only [Run.success?_mapFault, buildText_success? hkept hexpanded, expand_eq]
    cases marked text with
    | none => rfl
    | some ns =>
      cases h' : spliceNodes (expandPath loader (chain ++ [loader.key path])) ns <;> simp [h']
termination_by loader.unused chain
decreasing_by exact Loader.unused_append_lt (loader.covers h) hc

/-! ## Texts without loads -/

theorem loads_buildLines_eq_nil {rule : ImportRule} {ls : List (List Char)} : ∀ {before : Nat},
    (∀ l ∈ ls, ∀ path deferred, Line.read (Text.trim l) = .ref path deferred →
      (rule (String.ofList path) deferred).loads = []) → (buildLines rule before ls).loads = [] := by
  induction ls using Front.induction with
  | nil => intro before _; rw [buildLines_nil]; rfl
  | cons l ls ih ihb =>
    intro before h
    have hrest : ∀ x ∈ (Front.read l ls).rest, x ∈ l :: ls := fun x hx =>
      List.mem_cons_of_mem _ (Front.mem_of_mem_rest hx)
    rw [buildLines_cons]
    refine Run.loads_bind_eq_nil ?_ fun nodes => Run.loads_bind_eq_nil
      (ih fun x hx => h x (hrest x hx)) fun _ => rfl
    cases hc : (Front.read l ls).construct with
    | blank | unknown _ | openFunc _ _ => rfl
    | prop key value => exact Run.loads_bind_eq_nil (loads_buildProp key value) fun _ => rfl
    | func name arguments block => rfl
    | openSect attributes opener =>
      exact Run.loads_bind_eq_nil (loads_buildAttributes attributes) fun _ => rfl
    | ref path deferred => exact h l List.mem_cons_self path deferred (Front.line_of_read_ref hc)
    | sect name attributes block =>
      have hblock : ∀ x ∈ block, x ∈ l :: ls := fun x hx =>
        List.mem_cons_of_mem _ (Block.mem_of_mem_body (Front.split?_of_read_sect hc) hx)
      refine Run.loads_bind_eq_nil (loads_buildAttributes attributes) fun _ =>
        Run.loads_bind_eq_nil rfl fun _ => Run.loads_bind_eq_nil ?_ fun _ => rfl
      exact ihb name attributes block hc fun x hx => h x (hblock x hx)

/-- **Expanding while reading is substitution.** With imports on, reading a text succeeds exactly
when the tree of the text with its imports marked can be expanded under the key of its source, and
gives that tree; the texts it loads are those of the expanded paths, in the order of the expansion.
With imports off nothing is loaded, and neither is it where all imports of the text are deferred,
whether or not reading succeeds. -/
theorem parse_eq_expand (loader : Loader) (text : String) (source : Option String) :
    (∀ tree, (parse true loader text source).result = .ok tree ↔
      ∃ e, (marked text).bind (expand loader (loader.origin source)) = some e ∧ tree = .rootOf e.1) ∧
    (∀ e, (marked text).bind (expand loader (loader.origin source)) = some e →
      (parse true loader text source).loads = e.2) ∧
    (parse false loader text source).loads = [] ∧
    ((∀ l ∈ sourceLines text, ∀ path, Line.read (Text.trim l) ≠ .ref path false) →
      (parse true loader text source).loads = []) := by
  have hsuccess : (buildText (importRule true loader (loader.origin source)) text).success? =
      (marked text).bind (expand loader (loader.origin source)) := by
    rw [buildText_success? (fun _ => rfl) (success?_expandImport loader (loader.origin source))]
    congr 1
    funext ns
    rw [expand_eq]
  refine ⟨fun tree => ?_, fun e he => ?_, ?_, fun h => ?_⟩
  · rw [parse_ok_iff, ← hsuccess]
    constructor
    · rintro ⟨nodes, hn, rfl⟩
      exact ⟨_, Run.success?_of_ok hn, rfl⟩
    · rintro ⟨e, he, rfl⟩
      exact ⟨e.1, (Run.success?_eq_some_iff.1 he).1, rfl⟩
  · rw [← hsuccess] at he
    rw [parse_loads, (Run.success?_eq_some_iff.1 he).2]
  · rw [parse_loads, buildText]
    refine loads_buildLines_eq_nil fun l _ path deferred _ => ?_
    cases deferred <;> rfl
  · rw [parse_loads, buildText]
    refine loads_buildLines_eq_nil fun l hl path deferred hr => ?_
    cases deferred with
    | true => rfl
    | false => exact absurd hr (h l hl path)

/-- A section with an import of a text that imports another one and defers one that is not there; and
that deferred import alone. -/
theorem parse_eq_expand_nested :
    (parse true (Loader.ofMemory [("a", some "@import \"b\"\n@import nonfinal \"c\""), ("b", some "x: 1")] [])
      "s \x7b\n@import \"a\"\n\x7d\n@import \"b\"" (some "main")).loads = ["a", "b", "b"] ∧
    (parse true (Loader.ofMemory [] []) "@import nonfinal \"c\"" none).loads = [] := by
  constructor
  · have hpaths : ((marked "s \x7b\n@import \"a\"\n\x7d\n@import \"b\"").bind (expand
        (Loader.ofMemory [("a", some "@import \"b\"\n@import nonfinal \"c\""), ("b", some "x: 1")] [])
        ["main"])).map (·.2) = some ["a", "b", "b"] := by decide +kernel
    obtain ⟨e, he, hpaths⟩ := Option.map_eq_some_iff.1 hpaths
    exact ((parse_eq_expand _ _ (some "main")).2.1 e he).trans hpaths
  · refine (parse_eq_expand _ _ none).2.2.2 fun l hl path => ?_
    have hlines : sourceLines "@import nonfinal \"c\"" = ["@import nonfinal \"c\"".toList] := by decide +kernel
    rw [hlines, List.mem_singleton] at hl
    have hread : Line.read (Text.trim l) = .ref ['c'] true := by rw [hl]; decide +kernel
    rw [hread]
    simp

end DefTree
