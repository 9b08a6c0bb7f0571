/-
Walking a tree.

A cursor is a node together with its place in the tree: the indices of the
children on the way down to it. Two cursors into one tree are the same if
their places are, however much their nodes look alike.
-/
import DefTree.Index
import DefTree.Node
import DefTree.Text.Lines

namespace DefTree

structure Cursor where
  place : List Nat
  node : Node

namespace Cursor

def top (n : Node) : Cursor := ⟨[], n⟩

def isSame (a b : Cursor) : Bool := a.place == b.place

/-- The cursors of a list of children, the first of which has the given index. -/
def enumerate (place : List Nat) (index : Nat) : List Node → List Cursor
  | [] => []
  | n :: ns => ⟨place ++ [index], n⟩ :: enumerate place (index + 1) ns

def children (c : Cursor) : List Cursor := enumerate c.place 0 c.node.children

def find? (c : Cursor) (name : String) : Option Cursor :=
  c.children.find? (·.node.name == name)

def findAll (c : Cursor) (name : String) : List Cursor :=
  c.children.filter (·.node.name == name)

def ofKind (c : Cursor) (label : String) : List Cursor :=
  c.children.filter (·.node.kind.label == label)

def hasChild (c : Cursor) (name : String) : Bool := c.node.children.any (·.name == name)

mutual

/-- The first node of a name, a node coming before those below it and these in their order. -/
def searchNode (name : String) (place : List Nat) : Node → Option Cursor
  | .root n type children =>
    if n = name then some ⟨place, .root n type children⟩ else searchList name place 0 children
  | .sect n type attributes children =>
    if n = name then some ⟨place, .sect n type attributes children⟩
    else searchList name place 0 children
  | n => if n.name = name then some ⟨place, n⟩ else none

def searchList (name : String) (place : List Nat) (index : Nat) : List Node → Option Cursor
  | [] => none
  | n :: ns => match searchNode name (place ++ [index]) n with
    | some found => some found
    | none => searchList name place (index + 1) ns

end

def search? (c : Cursor) (name : String) : Option Cursor := searchNode name c.place c.node

/-! ## Paths -/

inductive Target where
  | node (c : Cursor)
  | scalar (v : Scalar)

/-- What the last name of a path stands for: an attribute, the value of a property, or a child. -/
def resolve? (c : Cursor) (name : String) : Option Target :=
  match c.node.attribute? name with
  | some v => some (.scalar v)
  | none => (c.find? name).map fun child => match child.node with
    | .prop _ _ value => .scalar value
    | _ => .node child

/-- Follows names: each but the last leads into the first child of that name. -/
def follow? (c : Cursor) : List String → Option Target
  | [] => some (.node c)
  | [name] => c.resolve? name
  | name :: names => (c.find? name).bind (·.follow? names)

/-- Follows a path of names with dots between them; the empty path stays. -/
def navigate? (c : Cursor) (path : String) : Option Target :=
  if path.isEmpty then some (.node c)
  else c.follow? ((Text.pieces '.' path.toList).map String.ofList)

end Cursor

namespace Node

def headline (n : Node) : String := n.kind.label ++ ": " ++ n.name

def shown (n : Node) : String := "KantaraNode(" ++ n.headline ++ ")"

/-- The line for a node at a depth; above the top there is nothing to indent. -/
def entry (depth : Int) (n : Node) : String :=
  String.ofList (List.replicate (2 * depth.toNat) ' ') ++ n.headline ++ "\n"

mutual

/-- A line for a node and each node below it, two spaces further in for each level. -/
def listing (depth : Int) : Node → List String
  | .root name type children =>
    entry depth (.root name type children) :: listingOf (depth + 1) children
  | .sect name type attributes children =>
    entry depth (.sect name type attributes children) :: listingOf (depth + 1) children
  | n => [entry depth n]

def listingOf (depth : Int) : List Node → List String
  | [] => []
  | n :: ns => n.listing depth ++ listingOf depth ns

end

/-- What stands against indenting a line to a depth, two spaces for each level. Texts of length `room`
and more do not fit into memory. -/
def indentFault? (room depth : Int) : Option Fault :=
  if !Index.isWord depth then some .hugeDepth
  else if !Index.isWord (2 * max depth 0) then some .overlongText
  else if room ≤ 2 * depth then some .outOfMemory
  else none

mutual

/-- The fault of the first line of a listing that cannot be indented. -/
def listingFault? (room depth : Int) : Node → Option Fault
  | .root _ _ children | .sect _ _ _ children =>
    (indentFault? room depth).or (listingFaultOf? room (depth + 1) children)
  | _ => indentFault? room depth

def listingFaultOf? (room depth : Int) : List Node → Option Fault
  | [] => none
  | n :: ns => (n.listingFault? room depth).or (listingFaultOf? room depth ns)

end

/-- The text of a listing, if its lines can be indented. How much fits into memory is up to the
machine; by default it is all that a word can count. -/
def outline (depth : Int) (n : Node) (room : Int := Index.wordLimit) : Except Fault String :=
  match n.listingFault? room depth with
  | some fault => .error fault
  | none => .ok (String.join (n.listing depth))

end Node

end DefTree
