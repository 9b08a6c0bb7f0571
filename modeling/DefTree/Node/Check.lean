/-
Checking JSON data against the shapes of nodes.

Each kind of node asks for certain fields; some have defaults, and fields
it does not know are passed over. `Node.check` gives the node that the data
describes, or all problems found, each with the place where it was found,
in the order of the fields.
-/
import DefTree.Json.Reader
import DefTree.Node

namespace DefTree

inductive ProblemKind where
  | invalidText | notObject | missing | notText | notAllowed | notArray | childNotObject
  | kindMissing | kindUnknown | notTable | notInteger | notFloat | notBoolean
  deriving DecidableEq, Repr

def ProblemKind.label : ProblemKind → String
  | .invalidText => "json_invalid"
  | .notObject => "model_type"
  | .missing => "missing"
  | .notText => "string_type"
  | .notAllowed => "literal_error"
  | .notArray => "tuple_type"
  | .childNotObject => "model_attributes_type"
  | .kindMissing => "union_tag_not_found"
  | .kindUnknown => "union_tag_invalid"
  | .notTable => "dict_type"
  | .notInteger => "int_type"
  | .notFloat => "float_type"
  | .notBoolean => "bool_type"

inductive Step where
  | key (s : String)
  | index (n : Nat)
  deriving DecidableEq, Repr

structure Problem where
  kind : ProblemKind
  place : List Step := []
  deriving DecidableEq, Repr

/-- A value, or everything that is wrong with the data for it. -/
abbrev Checked (α : Type) := Except (List Problem) α

namespace Checked

def both : Checked α → Checked β → Checked (α × β)
  | .ok a, .ok b => .ok (a, b)
  | .ok _, .error ps => .error ps
  | .error ps, .ok _ => .error ps
  | .error ps, .error qs => .error (ps ++ qs)

/-- The same outcome, seen from one step further out. -/
def under (s : Step) (c : Checked α) : Checked α :=
  c.mapError (·.map fun p => { p with place := s :: p.place })

def problem (kind : ProblemKind) : Checked α := .error [⟨kind, []⟩]

end Checked

namespace Node

open Checked

/-! ## Leaves -/

def checkText : Json → Checked String
  | .str s => .ok s
  | _ => problem .notText

def checkTextOr (default : String) : Option Json → Checked String
  | none => .ok default
  | some j => checkText j

def checkRequired : Option Json → Checked String
  | none => problem .missing
  | some j => checkText j

/-- A scalar; anything else is wrong in each of the four ways. -/
def checkScalar : Json → Checked Scalar
  | .str s => .ok (.text s)
  | .num n => .ok (.number n)
  | .bool b => .ok (.boolean b)
  | _ => .error [⟨.notText, [.key "str"]⟩, ⟨.notInteger, [.key "int"]⟩, ⟨.notFloat, [.key "float"]⟩,
      ⟨.notBoolean, [.key "bool"]⟩]

/-- The kind that a node states, which may be left out. -/
def checkKind (kind : NodeKind) : Option Json → Checked Unit
  | none => .ok ()
  | some (.str s) => if s = kind.label then .ok () else problem .notAllowed
  | some _ => problem .notAllowed

def checkScalarKind : Option Json → Checked ScalarKind
  | none => problem .missing
  | some (.str s) => match ScalarKind.ofLabel? s with
    | some k => .ok k
    | none => problem .notAllowed
  | some _ => problem .notAllowed

def checkEntries : List (String × Json) → Checked (List (String × Scalar))
  | [] => .ok []
  | (k, j) :: fs => (both ((checkScalar j).under (.key k)) (checkEntries fs)).map
      fun (v, es) => (k, v) :: es

/-- Entries as attributes: the first of a key gives its place, the last its value. -/
def attributesOf (es : List (String × Scalar)) : Attributes :=
  es.foldl (fun a (k, v) => a.insert k v) .empty

def checkAttributes : Option Json → Checked Attributes
  | none => .ok .empty
  | some (.obj fields) => (checkEntries fields).map attributesOf
  | some _ => problem .notTable

def checkTexts (index : Nat) : List Json → Checked (List String)
  | [] => .ok []
  | j :: js => (both ((checkText j).under (.index index)) (checkTexts (index + 1) js)).map
      fun (s, ss) => s :: ss

def checkArguments : Option Json → Checked (List String)
  | none => .ok []
  | some (.arr items) => checkTexts 0 items
  | some _ => problem .notArray

def childKind : Json → Except ProblemKind NodeKind
  | .obj fields => match Json.field? fields "kind" with
    | none => .error .kindMissing
    | some (.str s) => match NodeKind.ofLabel? s with
      | some k => .ok k
      | none => .error .kindUnknown
    | some _ => .error .kindUnknown
  | _ => .error .childNotObject

/-! ## Nodes -/

def checkField (fields : List (String × Json)) (key : String) (check : Option Json → Checked α) :
    Checked α :=
  (check (Json.field? fields key)).under (.key key)

def checkValue : Option Json → Checked Scalar
  | none => problem .missing
  | some j => checkScalar j

def assemble (kind : NodeKind) (fields : List (String × Json))
    (children : Checked (List Node)) : Checked Node :=
  let name := checkField fields "name" (if kind = .root then checkTextOr "root" else checkRequired)
  let stated := checkField fields "kind" (checkKind kind)
  let type := checkField fields "type" (checkTextOr kind.defaultType)
  match kind with
  | .root =>
    (both name (both stated (both type (children.under (.key "children"))))).map
      fun (name, _, type, children) => .root name type children
  | .sect =>
    (both name (both stated (both type (both (checkField fields "properties" checkAttributes)
      (children.under (.key "children")))))).map
      fun (name, _, type, attributes, children) => .sect name type attributes children
  | .func =>
    (both name (both stated (both type (both (checkField fields "arguments" checkArguments)
      (checkField fields "body" (checkTextOr "")))))).map
      fun (name, _, type, arguments, body) => .func name type arguments body
  | .prop =>
    (both name (both stated (both (checkField fields "type" checkScalarKind)
      (checkField fields "value" checkValue)))).map
      fun (name, _, type, value) => .prop name type value
  | .ref =>
    (both name (both stated (both type (checkField fields "value" checkRequired)))).map
      fun (name, _, type, value) => .ref name type value

mutual

def check (kind : NodeKind) : Json → Checked Node
  | .obj fields => assemble kind fields (checkChildren fields)
  | _ => problem .notObject

def checkChildren : List (String × Json) → Checked (List Node)
  | [] => .ok []
  | (key, j) :: fields => if key = "children" then checkList j else checkChildren fields

def checkList : Json → Checked (List Node)
  | .arr items => checkItems 0 items
  | _ => problem .notArray

def checkItems (index : Nat) : List Json → Checked (List Node)
  | [] => .ok []
  | j :: js =>
    let child : Checked Node := match childKind j with
      | .error p => problem p
      | .ok kind => (check kind j).under (.key kind.label)
    (both (child.under (.index index)) (checkItems (index + 1) js)).map fun (n, ns) => n :: ns

end

def ofJsonText (kind : NodeKind) (s : String) : Checked Node :=
  match Json.read? s with
  | none => problem .invalidText
  | some j => check kind j

end Node

end DefTree
