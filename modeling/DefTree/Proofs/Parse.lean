/-
Reading a definition text is building its lines under the chain that its
source begins; the events at both ends load nothing. An import that is
expanded is its text built under the chain with one more key.
-/
import DefTree.Proofs.Front

namespace DefTree

/-- The chain that reading a text begins with: the key of its source, if it has one. -/
def Loader.origin (loader : Loader) (source : Option String) : List String :=
  (source.map loader.key).toList

theorem parse_eq (expand : Bool) (loader : Loader) (text : String) (source : Option String) :
    parse expand loader text source =
      match (buildText (importRule expand loader (loader.origin source)) text).result with
      | .ok nodes => ⟨.started source ::
          (buildText (importRule expand loader (loader.origin source)) text).events ++
            [.finished nodes.length], .ok (.rootOf nodes)⟩
      | .error fault => ⟨.started source ::
          (buildText (importRule expand loader (loader.origin source)) text).events ++
            (if fault.isOwn then [.failed fault] else []), .error fault⟩ := by
  cases source <;> rfl

theorem parse_result (expand : Bool) (loader : Loader) (text : String) (source : Option String) :
    (parse expand loader text source).result =
      (buildText (importRule expand loader (loader.origin source)) text).result.map .rootOf := by
  rw [parse_eq]
  split
  · next h => rw [h]; rfl
  · next h => rw [h]; rfl

theorem parse_ok_iff {expand : Bool} {loader : Loader} {text : String} {source : Option String} {tree : Node} :
    (parse expand loader text source).result = .ok tree ↔
      ∃ nodes, (buildText (importRule expand loader (loader.origin source)) text).result = .ok nodes ∧
        tree = .rootOf nodes := by
  rw [parse_result]
  cases (buildText (importRule expand loader (loader.origin source)) text).result with
  | error fault => simp [Except.map]
  | ok nodes => simp [Except.map, eq_comm]

theorem parse_error_iff {expand : Bool} {loader : Loader} {text : String} {source : Option String}
    {fault : Fault} : (parse expand loader text source).result = .error fault ↔
      (buildText (importRule expand loader (loader.origin source)) text).result = .error fault := by
  rw [parse_result]
  cases (buildText (importRule expand loader (loader.origin source)) text).result <;> simp [Except.map]

theorem parse_loads (expand : Bool) (loader : Loader) (text : String) (source : Option String) :
    (parse expand loader text source).loads =
      (buildText (importRule expand loader (loader.origin source)) text).loads := by
  rw [parse_eq]
  unfold Run.loads
  split
  · simp [List.filterMap_cons, Event.loaded?]
  · next fault _ => cases h : fault.isOwn <;> simp [List.filterMap_cons, Event.loaded?]

/-- Under an expanding rule, an import is the text it names, built under the chain with its key. -/
theorem expandImport_eq (loader : Loader) (chain : List String) (path : String) :
    expandImport loader chain path =
      if loader.key path ∈ chain then .fail (.importCycle (chain ++ [loader.key path]))
      else (do
        .emit (.expanding path)
        .emit (.loading path)
        match loader.load path with
        | .error fault => .fail (fault.ofImport path)
        | .ok text =>
          Run.mapFault (.inSource path) (buildText (importRule true loader (chain ++ [loader.key path])) text)) := by
  have hrule : importRule true loader (chain ++ [loader.key path]) = fun path' deferred =>
      if deferred then keepImport path' else expandImport loader (chain ++ [loader.key path]) path' := by
    funext path' deferred
    simp [importRule]
  rw [expandImport, hrule]
  split
  · rfl
  · congr 1
    funext
    congr 1
    funext
    split
    · next h => rw [h]
    · next h => rw [h]

end DefTree
