/-
Where the nodes of a tree come from.

A construct becomes one node, which `Construct.Makes` describes; what stands
in the block of a section becomes the children of that node. So every node
below the root of a tree that was read is made of one construct, and
reading comes to that construct in the text itself or in one that imports
lead to (`exists_nodeComesFrom`). An import that is a node still is one that
was deferred, unless imports are kept altogether.
-/
import DefTree.Proofs.Imports

namespace DefTree

mutual

/-- The nodes below a node, each before those below it. -/
def Node.descendants : Node → List Node
  | .root _ _ children => Node.allOf children
  | .sect _ _ _ children => Node.allOf children
  | _ => []

/-- Some nodes with all nodes below them. -/
def Node.allOf : List Node → List Node
  | [] => []
  | n :: ns => n :: n.descendants ++ Node.allOf ns

end

theorem Node.allOf_append (ms ns : List Node) : allOf (ms ++ ns) = allOf ms ++ allOf ns := by
  induction ms with
  | nil => rfl
  | cons m ms ih => simp [allOf, ih]

theorem Node.allOf_singleton (n : Node) : allOf [n] = n :: n.descendants := by
  rw [allOf, allOf, List.append_nil]

/-- The node that a construct becomes; a section may have any children. -/
inductive Construct.Makes : Construct → Node → Prop where
  | prop {key value v} (h : Scalar.ofValue value = .ok v) :
      Makes (.prop key value) (.propOf (String.ofList key) v)
  | func (name arguments block) : Makes (.func name arguments block)
      (.funcOf (String.ofList name) (arguments.map String.ofList)
        (String.ofList (Text.unlines (Block.unindent block))))
  | sect {name attributes block a} (h : Attributes.read attributes = .ok a) (children) :
      Makes (.sect name attributes block) (.sectOf (String.ofList name) a children)
  | ref (path deferred) : Makes (.ref path deferred) (.refOf (String.ofList path))

/-- Whether a construct stays as it is: only imports may be expanded, those that are not deferred. -/
def Construct.IsKept (expand : Bool) (c : Construct) : Prop :=
  ∀ path deferred, c = .ref path deferred → expand = true → deferred = true

/-! ## Nodes of lines -/

section

variable {rule : ImportRule} {n : Node}

theorem makes_of_buildProp {key value : List Char} (h : (buildProp key value).result = .ok n) :
    (Construct.prop key value).Makes n := by
  unfold buildProp at h
  split at h
  · cases h
  · next v hv =>
    split at h
    · cases h
    · obtain ⟨_, -, h⟩ := Run.bind_ok_iff.1 h
      rw [← Run.pure_ok_iff.1 h]
      exact .prop hv

theorem read_of_buildAttributes {attributes : List Char} {a : Attributes}
    (h : (buildAttributes attributes).result = .ok a) : Attributes.read attributes = .ok a := by
  unfold buildAttributes at h
  split at h
  · cases h
  · next a' hread =>
    rw [hread, Run.pure_ok_iff.1 h]

/-- A node of a construct is made of it, stands in the block of a section, or is imported. -/
theorem makes_or_block {before : Nat} {c : Construct} {nodes : List Node}
    (h : (buildConstruct rule before c).result = .ok nodes) (hn : n ∈ Node.allOf nodes) :
    (c.Makes n ∧ c.IsKept true) ∨
    (∃ path deferred, c = .ref path deferred ∧ (rule (String.ofList path) deferred).result = .ok nodes) ∨
    ∃ name attributes block a children, c = .sect name attributes block ∧
      (buildAttributes attributes).result = .ok a ∧ (buildLines rule (before + 1) block).result = .ok children ∧
      n ∈ Node.allOf children := by
  cases c with
  | blank => cases h; cases hn
  | unknown text => cases h
  | openFunc line opener => cases h
  | openSect attributes opener =>
    obtain ⟨_, -, h⟩ := Run.bind_ok_iff.1 h
    cases h
  | ref path deferred => exact .inr (.inl ⟨path, deferred, rfl, h⟩)
  | prop key value =>
    obtain ⟨m, hm, h⟩ := Run.bind_ok_iff.1 h
    have hmakes := makes_of_buildProp hm
    cases h
    refine .inl ⟨?_, fun _ _ h => by cases h⟩
    cases hmakes with
    | prop hv =>
      obtain rfl : n = _ := by simpa [Node.allOf, Node.descendants, Node.propOf] using hn
      exact .prop hv
  | func name arguments block =>
    cases h
    refine .inl ⟨?_, fun _ _ h => by cases h⟩
    obtain rfl : n = _ := by simpa [Node.allOf, Node.descendants, Node.funcOf] using hn
    exact .func name arguments block
  | sect name attributes block =>
    obtain ⟨a, ha, h⟩ := Run.bind_ok_iff.1 h
    obtain ⟨_, -, h⟩ := Run.bind_ok_iff.1 h
    obtain ⟨children, hchildren, h⟩ := Run.bind_ok_iff.1 h
    cases h
    rw [Node.allOf_singleton, List.mem_cons] at hn
    rcases hn with rfl | hn
    · exact .inl ⟨.sect (read_of_buildAttributes ha) children, fun _ _ h => by cases h⟩
    · exact .inr (.inr ⟨name, attributes, block, a, children, rfl, ha, hchildren, hn⟩)

/-- **A node is made of a construct that building visits**, or of an import there. -/
theorem exists_visits_of_mem {ls : List (List Char)} : ∀ {before : Nat} {nodes : List Node},
    (buildLines rule before ls).result = .ok nodes → n ∈ Node.allOf nodes →
      ∃ before' l ls', Visits rule before ls before' (l :: ls') ∧
        (((Front.read l ls').construct.Makes n ∧ (Front.read l ls').construct.IsKept true) ∨
        ∃ path deferred imported, (Front.read l ls').construct = .ref path deferred ∧
          (rule (String.ofList path) deferred).result = .ok imported ∧ n ∈ Node.allOf imported) := by
  induction ls using Front.induction with
  | nil =>
    intro before nodes h hn
    rw [buildLines_nil] at h
    cases h
    cases hn
  | cons l ls ih ihb =>
    intro before nodes h hn
    rw [buildLines_cons] at h
    obtain ⟨xs, hx, h⟩ := Run.bind_ok_iff.1 h
    obtain ⟨ys, hy, h⟩ := Run.bind_ok_iff.1 h
    cases h
    rw [Node.allOf_append, List.mem_append] at hn
    rcases hn with hn | hn
    · rcases makes_or_block hx hn with hmakes | ⟨path, deferred, hc, hr⟩ |
        ⟨name, attributes, block, a, children, hc, ha, hchildren, hn⟩
      · exact ⟨before, l, ls, .here, .inl hmakes⟩
      · exact ⟨before, l, ls, .here, .inr ⟨path, deferred, xs, hc, hr, hn⟩⟩
      · obtain ⟨before', l', ls', hv, hfound⟩ := ihb name attributes block hc hchildren hn
        exact ⟨before', l', ls', .into hc ha hv, hfound⟩
    · obtain ⟨before', l', ls', hv, hfound⟩ := ih hy hn
      exact ⟨before', l', ls', .next hx hv, hfound⟩

end

/-! ## Nodes of texts that are imported -/

/-- A node comes from a file that imports lead to from a text: reading that file comes to a construct which
stays as it is and makes the node. -/
structure Node.ComesFrom (library : Library) (expand : Bool) (text : String) (n : Node) (paths : List String)
    (file : String) : Prop where
  leads : Leads library text paths file
  expanded : paths ≠ [] → expand = true
  made : ∃ before l ls, Visits markImport 0 (sourceLines file) before (l :: ls) ∧
    (Front.read l ls).construct.Makes n ∧ (Front.read l ls).construct.IsKept expand

/-- **Every node that is read comes from one file.** -/
theorem exists_nodeComesFrom {library : Library} {loader : Loader}
    (hload : ∀ path text, loader.load path = .ok text → library.load path = .ok text) {expand : Bool}
    (chain : List String) {text : String} {nodes : List Node} {n : Node}
    (h : (buildText (importRule expand loader chain) text).result = .ok nodes) (hn : n ∈ Node.allOf nodes) :
    ∃ paths file, n.ComesFrom library expand text paths file := by
  obtain ⟨before, l, ls, hv, ⟨hmakes, hkept⟩ | ⟨path, deferred, imported, hc, hr, hn⟩⟩ :=
    exists_visits_of_mem h hn
  · exact ⟨[], text, .here text, fun h => absurd rfl h, before, l, ls, hv.marked, hmakes,
      fun path deferred hc _ => hkept path deferred hc rfl⟩
  rcases importRule_ok hr with ⟨hkept, rfl⟩ | ⟨rfl, rfl, text', hk, hl, hb⟩
  · -- the import is the node
    obtain rfl : n = .refOf (String.ofList path) := by
      simpa [Node.allOf, Node.descendants, Node.refOf] using hn
    refine ⟨[], text, .here text, fun h => absurd rfl h, before, l, ls, hv.marked, hc ▸ .ref path deferred, ?_⟩
    intro path' deferred' hc' hexpand
    rw [hc'] at hc
    cases hc
    exact hkept.resolve_right (by simp [hexpand])
  · obtain ⟨paths, file, hfrom⟩ := exists_nodeComesFrom hload (chain ++ [loader.key (String.ofList path)]) hb hn
    have hi : Imports text (String.ofList path) := ⟨before, l, ls, hv.marked, by simpa using hc⟩
    exact ⟨String.ofList path :: paths, file, .step hi (hload _ _ hl) hfrom.leads, fun _ => rfl, hfrom.made⟩
termination_by loader.unused chain
decreasing_by exact Loader.unused_append_lt (loader.covers hl) hk

end DefTree
