/-
Trees as JSON.

A node is an object with its name, kind and type first and the fields of
its kind after them.
-/
import DefTree.Fault
import DefTree.Json
import DefTree.Node

namespace DefTree

def Scalar.toJson : Scalar → Json
  | .text s => .str s
  | .number n => .num n
  | .boolean b => .bool b

def Attributes.toJson (a : Attributes) : Json := .obj (a.entries.map fun (k, v) => (k, v.toJson))

namespace Node

def header (name : String) (kind : NodeKind) (type : String) : List (String × Json) :=
  [("name", .str name), ("kind", .str kind.label), ("type", .str type)]

mutual

def toJson : Node → Json
  | .root name type children =>
    .obj (header name .root type ++ [("children", .arr (listToJson children))])
  | .sect name type attributes children =>
    .obj (header name .sect type ++
      [("properties", attributes.toJson), ("children", .arr (listToJson children))])
  | .func name type arguments body =>
    .obj (header name .func type ++ [("arguments", .arr (arguments.map .str)), ("body", .str body)])
  | .prop name type value => .obj (header name .prop type.label ++ [("value", value.toJson)])
  | .ref name type value => .obj (header name .ref type ++ [("value", .str value)])

def listToJson : List Node → List Json
  | [] => []
  | n :: ns => n.toJson :: listToJson ns

end

/-- The widths of an indentation are below this; they fill a machine word. -/
def widthLimit : Int := 18446744073709551616

/-- The layout for an indentation: none is all on one line. -/
def layout : Option Int → Except Fault Json.Layout
  | none => .ok .compact
  | some n =>
    if n < 0 then .error .negativeIndent
    else if widthLimit ≤ n then .error .hugeIndent
    else .ok (.indented n.toNat)

def dump (indent : Option Int) (n : Node) : Except Fault String :=
  (layout indent).map fun l => n.toJson.render l

end Node

end DefTree
