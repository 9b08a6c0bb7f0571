/-
The tree of definitions.

A node is a root, a section with attributes and children, a function with
an opaque body, a property with its value, or a reference to an import that
was not expanded. Every node has a name and a type; properties are typed by
their kind of value, the others by a constant unless they were given
another one.
-/
import DefTree.Attributes

namespace DefTree

inductive Node where
  | root (name type : String) (children : List Node)
  | sect (name type : String) (attributes : Attributes) (children : List Node)
  | func (name type : String) (arguments : List String) (body : String)
  | prop (name : String) (type : ScalarKind) (value : Scalar)
  | ref (name type value : String)

inductive NodeKind where
  | root | sect | func | prop | ref
  deriving DecidableEq, Repr

namespace NodeKind

def label : NodeKind → String
  | .root => "root"
  | .sect => "section"
  | .func => "function"
  | .prop => "property"
  | .ref => "import"

def all : List NodeKind := [.root, .sect, .func, .prop, .ref]

def ofLabel? (s : String) : Option NodeKind := all.find? (·.label == s)

def defaultType : NodeKind → String
  | .root => "KantaraObject"
  | .sect => "KantaraSection"
  | .func => "KantaraFunction"
  | .prop => ""
  | .ref => "KantaraImport"

end NodeKind

namespace Node

instance : Inhabited Node := ⟨.root "" "" []⟩

def kind : Node → NodeKind
  | .root .. => .root
  | .sect .. => .sect
  | .func .. => .func
  | .prop .. => .prop
  | .ref .. => .ref

def name : Node → String
  | .root name .. | .sect name .. | .func name .. | .prop name .. | .ref name .. => name

def type : Node → String
  | .root _ type _ | .sect _ type _ _ | .func _ type _ _ | .ref _ type _ => type
  | .prop _ type _ => type.label

def children : Node → List Node
  | .root _ _ children | .sect _ _ _ children => children
  | _ => []

def value? : Node → Option Scalar
  | .prop _ _ value => some value
  | .ref _ _ value => some (.text value)
  | _ => none

def arguments : Node → List String
  | .func _ _ arguments _ => arguments
  | _ => []

def body? : Node → Option String
  | .func _ _ _ body => some body
  | _ => none

def attribute? : Node → String → Option Scalar
  | .sect _ _ attributes _, key => attributes.get? key
  | _, _ => none

/-! ## Nodes as a definition text makes them -/

def rootOf (children : List Node) : Node := .root "root" NodeKind.root.defaultType children

def sectOf (name : String) (attributes : Attributes) (children : List Node) : Node :=
  .sect name NodeKind.sect.defaultType attributes children

def funcOf (name : String) (arguments : List String) (body : String) : Node :=
  .func name NodeKind.func.defaultType arguments body

def propOf (name : String) (value : Scalar) : Node := .prop name value.kind value

def refOf (path : String) : Node := .ref path NodeKind.ref.defaultType path

end Node

end DefTree
