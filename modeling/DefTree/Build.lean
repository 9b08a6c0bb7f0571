/-
Building the tree of a definition text.

`buildLines` reads the lines of a text one after another. A section's lines
are built by themselves and become its children, the lines of a function
become its body as they are, and a rule says what becomes of imports: they
stay in the tree, or they are replaced by the nodes of the text they name.
The chain holds the keys of the texts that are being expanded; a key that
comes up again would never end and is a fault.

Building ends because a block has fewer lines than the text around it, and
expanding because an import uses up one of the loader's keys.
-/
import DefTree.Block
import DefTree.Comment
import DefTree.Line
import DefTree.Loader
import DefTree.Node
import DefTree.Run

namespace DefTree

def buildProp (key value : List Char) : Run Node :=
  match Scalar.ofValue value with
  | .error e => .fail (.overlongNumeral e.digits)
  | .ok v => match v.shown? with
    | none => .fail .overlongValue
    | some shown => do
      .emit (.prop (String.ofList key) (String.ofList shown) v.kind)
      return .propOf (String.ofList key) v

def buildFunc (name : List Char) (arguments : List (List Char)) (block : List (List Char)) :
    Run Node := do
  let arguments := arguments.map String.ofList
  .emit (.func (String.ofList name) arguments)
  return .funcOf (String.ofList name) arguments (String.ofList (Text.unlines (Block.unindent block)))

def buildAttributes (attributes : List Char) : Run Attributes :=
  match Attributes.read attributes with
  | .error e => .fail (.overlongNumeral e.digits)
  | .ok a => pure a

def sourceLines (text : String) : List (List Char) := Text.lines (Comment.erase text.toList)

/-- What becomes of an import directive with a path, deferred or not. -/
abbrev ImportRule := String → Bool → Run (List Node)

/-- The nodes of some lines of a text, `before` being the number of lines that stand before them
in the text, and `rule` what becomes of its imports. -/
def buildLines (rule : ImportRule) (before : Nat) : List (List Char) → Run (List Node)
  | [] => pure []
  | l :: ls =>
    let line := Text.trim l
    if line.isEmpty then buildLines rule (before + 1) ls
    else match Line.read line with
    | .unknown text => .fail (.unknownLine (before + 1) text)
    | .prop key value => do
      let node ← buildProp key value
      let nodes ← buildLines rule (before + 1) ls
      return node :: nodes
    | .func name arguments true =>
      match _h : Block.split? {} ls with
      | none => .fail (.unclosedBlock (before + 1) line)
      | some (block, rest) => do
        let node ← buildFunc name arguments block
        let nodes ← buildLines rule (before + block.length + 2) rest
        return node :: nodes
    | .func name arguments false =>
      match _h : Block.split? {} (ls.drop 1) with
      | none => .fail (.unclosedBlock (before + 2) (Text.trim (ls.headD [])))
      | some (block, rest) => do
        let node ← buildFunc name arguments block
        let nodes ← buildLines rule (before + block.length + 3) rest
        return node :: nodes
    | .sect name attributes => do
      let attributes ← buildAttributes attributes
      match _h : Block.split? {} ls with
      | none => .fail (.unclosedBlock (before + 1) line)
      | some (block, rest) => do
        .emit (.sect (String.ofList name) (before + 1) (before + block.length + 2))
        let children ← buildLines rule (before + 1) block
        let nodes ← buildLines rule (before + block.length + 2) rest
        return .sectOf (String.ofList name) attributes children :: nodes
    | .ref path deferred => do
      let imported ← rule (String.ofList path) deferred
      let nodes ← buildLines rule (before + 1) ls
      return imported ++ nodes
termination_by ls => ls.length
decreasing_by
  all_goals first
    | exact Nat.lt_succ_self _
    | exact Nat.lt_succ_of_lt (Block.length_body_lt _h)
    | exact Nat.lt_succ_of_lt (Block.length_rest_lt _h)
    | exact Nat.lt_succ_of_le (Nat.le_trans (Nat.le_of_lt (Block.length_rest_lt _h))
        (List.drop_sublist 1 ls).length_le)

def buildText (rule : ImportRule) (text : String) : Run (List Node) :=
  buildLines rule 0 (sourceLines text)

/-! ## Imports -/

def keepImport (path : String) : Run (List Node) := do
  .emit (.kept path)
  return [.refOf path]

/-- Replaces an import by the nodes of the text it names, in which imports are expanded too unless
they are deferred. -/
def expandImport (loader : Loader) (chain : List String) (path : String) : Run (List Node) :=
  if _hc : loader.key path ∈ chain then .fail (.importCycle (chain ++ [loader.key path]))
  else do
    .emit (.expanding path)
    .emit (.loading path)
    match _h : loader.load path with
    | .error fault => .fail (fault.ofImport path)
    | .ok text =>
      let rule : ImportRule := fun path' deferred =>
        if deferred then keepImport path'
        else expandImport loader (chain ++ [loader.key path]) path'
      (buildText rule text).mapFault (Fault.inSource path)
termination_by loader.unused chain
decreasing_by exact Loader.unused_append_lt (loader.covers _h) _hc

/-- The rule for imports under a chain: those that are not deferred are expanded, if any are. -/
def importRule (expand : Bool) (loader : Loader) (chain : List String) : ImportRule :=
  fun path deferred =>
    if deferred || !expand then keepImport path else expandImport loader chain path

/-- Reads a definition text. `source` names the text; its key then begins the chain, so that a text
which imports itself is found out. -/
def parse (expand : Bool) (loader : Loader) (text : String) (source : Option String) : Run Node :=
  let chain := match source with
    | none => []
    | some path => [loader.key path]
  let run := buildText (importRule expand loader chain) text
  match run.result with
  | .ok nodes => ⟨.started source :: run.events ++ [.finished nodes.length], .ok (.rootOf nodes)⟩
  | .error fault =>
    ⟨.started source :: run.events ++ (if fault.isOwn then [.failed fault] else []), .error fault⟩

end DefTree
