/-
The order in which a tree is gone through.

A node comes before those below it, and these in their order, each with its
depth. Only roots and sections have nodes below them. The listing of a tree
has one line for each node, in this order (`Node.listing_eq`).

To say which node was met, and not only how it looks, each one is also given
the way down to it, the indices of the children from the top (`Node.ways`).
A search takes the first way in this order to a node of the name
(`Cursor.search?_eq`).
-/
import DefTree.Cursor

namespace DefTree.Node

mutual

/-- A node and all nodes below it with their depths, each before those below it. -/
def preorder (depth : Nat) : Node → List (Nat × Node)
  | .root name type children => (depth, .root name type children) :: preorderOf (depth + 1) children
  | .sect name type attributes children =>
    (depth, .sect name type attributes children) :: preorderOf (depth + 1) children
  | n => [(depth, n)]

/-- Some nodes and all nodes below them, from the first node to the last. -/
def preorderOf (depth : Nat) : List Node → List (Nat × Node)
  | [] => []
  | n :: ns => n.preorder depth ++ preorderOf depth ns

end

/-- The line for a node at a depth, everything being indented to another depth. -/
def line (i : Int) (p : Nat × Node) : String := entry (i + p.1) p.2

mutual

/-- **A listing has a line for each node**, in the order in which the tree is gone through. -/
theorem listing_eq (i : Int) : ∀ (n : Node) (depth : Nat), n.listing (i + depth) = (n.preorder depth).map (line i)
  | .root _ _ children, depth | .sect _ _ _ children, depth => by
    rw [listing, preorder, List.map_cons, ← listingOf_eq i children (depth + 1), Int.natCast_succ, ← Int.add_assoc]
    rfl
  | .func .., _ | .prop .., _ | .ref .., _ => rfl

theorem listingOf_eq (i : Int) : ∀ (ns : List Node) (depth : Nat),
    listingOf (i + depth) ns = (preorderOf depth ns).map (line i)
  | [], _ => rfl
  | n :: ns, depth => by
    rw [listingOf, preorderOf, List.map_append, listing_eq i n depth, listingOf_eq i ns depth]

end

/-! ## Ways -/

mutual

/-- A node and all nodes below it with the ways down to them, in the order of `preorder`. -/
def ways : Node → List (List Nat × Node)
  | .root name type children => ([], .root name type children) :: waysOf 0 children
  | .sect name type attributes children => ([], .sect name type attributes children) :: waysOf 0 children
  | n => [([], n)]

/-- The ways to some nodes and to all nodes below them, the first of which has the given index. -/
def waysOf (index : Nat) : List Node → List (List Nat × Node)
  | [] => []
  | n :: ns => n.ways.map (fun w => (index :: w.1, w.2)) ++ waysOf (index + 1) ns

end

/-- The node that a way leads to. -/
def at? : Node → List Nat → Option Node
  | n, [] => some n
  | n, i :: way => n.children[i]?.bind (·.at? way)

theorem ways_eq (n : Node) : n.ways = ([], n) :: waysOf 0 n.children := by
  cases n <;> rfl

mutual

/-- The depth of a node is the length of the way to it. -/
theorem preorder_eq_map : ∀ (n : Node) (depth : Nat),
    n.preorder depth = n.ways.map fun w => (depth + w.1.length, w.2)
  | .root _ _ children, depth | .sect _ _ _ children, depth => by
    rw [preorder, ways, List.map_cons, preorderOf_eq_map children depth 0]
    rfl
  | .func .., _ | .prop .., _ | .ref .., _ => rfl

theorem preorderOf_eq_map : ∀ (ns : List Node) (depth index : Nat),
    preorderOf (depth + 1) ns = (waysOf index ns).map fun w => (depth + w.1.length, w.2)
  | [], _, _ => rfl
  | n :: ns, depth, index => by
    rw [preorderOf, waysOf, List.map_append, List.map_map, preorder_eq_map n,
      preorderOf_eq_map ns depth (index + 1)]
    simp [Function.comp_def, Nat.add_assoc, Nat.add_comm 1]

end

/-- What the ways to some nodes lead to, the first node having the given index. -/
def LeadsFrom (index : Nat) (ns : List Node) (way : List Nat) (m : Node) : Prop :=
  ∃ i rest, way = (index + i) :: rest ∧ ns[i]?.bind (·.at? rest) = some m

variable {way : List Nat} {m : Node}

/-- From the ways to the nodes below a node to those from the node. -/
theorem mem_ways_of {n : Node} (h : (way, m) ∈ waysOf 0 n.children ↔ LeadsFrom 0 n.children way m) :
    (way, m) ∈ n.ways ↔ n.at? way = some m := by
  rw [ways_eq, List.mem_cons, h]
  cases way with
  | nil => simp [LeadsFrom, at?, eq_comm]
  | cons i rest =>
    simp only [Prod.mk.injEq, reduceCtorEq, false_and, false_or, at?]
    constructor
    · rintro ⟨j, rest', heq, hat⟩
      obtain ⟨rfl, rfl⟩ := List.cons.inj heq
      rwa [Nat.zero_add]
    · intro hat
      exact ⟨i, rest, by rw [Nat.zero_add], hat⟩

theorem leadsFrom_cons {index : Nat} {n : Node} {ns : List Node} : LeadsFrom index (n :: ns) way m ↔
    (∃ rest, way = index :: rest ∧ n.at? rest = some m) ∨ LeadsFrom (index + 1) ns way m := by
  have hsucc (i : Nat) : index + (i + 1) = index + 1 + i := by omega
  constructor
  · rintro ⟨i, rest, rfl, hat⟩
    cases i with
    | zero => exact .inl ⟨rest, rfl, hat⟩
    | succ i => exact .inr ⟨i, rest, by rw [hsucc i], hat⟩
  · rintro (⟨rest, rfl, hat⟩ | ⟨i, rest, rfl, hat⟩)
    · exact ⟨0, rest, rfl, hat⟩
    · exact ⟨i + 1, rest, by rw [hsucc i], hat⟩

mutual

/-- **The ways of a node are those that lead somewhere**, each to the node that it stands with. -/
theorem mem_ways_iff : ∀ (n : Node) {way : List Nat} {m : Node}, (way, m) ∈ n.ways ↔ n.at? way = some m
  | .root _ _ children, _, _ => mem_ways_of (mem_waysOf_iff children 0)
  | .sect _ _ _ children, _, _ => mem_ways_of (mem_waysOf_iff children 0)
  | .func .., _, _ | .prop .., _, _ | .ref .., _, _ => mem_ways_of (by simp [children, waysOf, LeadsFrom])

theorem mem_waysOf_iff : ∀ (ns : List Node) (index : Nat) {way : List Nat} {m : Node},
    (way, m) ∈ waysOf index ns ↔ LeadsFrom index ns way m
  | [], _, _, _ => by simp [waysOf, LeadsFrom]
  | n :: ns, index, way, m => by
    rw [waysOf, List.mem_append, mem_waysOf_iff ns, leadsFrom_cons, List.mem_map]
    refine or_congr_left ⟨?_, ?_⟩
    · rintro ⟨⟨rest, m'⟩, hmem, heq⟩
      obtain ⟨rfl, rfl⟩ := Prod.mk.inj heq
      exact ⟨rest, rfl, (mem_ways_iff n).1 hmem⟩
    · rintro ⟨rest, rfl, hat⟩
      exact ⟨(rest, m), (mem_ways_iff n).2 hat, rfl⟩

end

end DefTree.Node

namespace DefTree.Cursor

/-! ## Searches -/

/-- The cursor that a way from a place leads to. -/
def down (place : List Nat) (w : List Nat × Node) : Cursor := ⟨place ++ w.1, w.2⟩

/-- The cursors at a node and at all nodes below it, in the order of `Node.preorder`. -/
def preorder (c : Cursor) : List Cursor := c.node.ways.map (down c.place)

theorem searchNode_eq_ite (name : String) (place : List Nat) (n : Node) : searchNode name place n =
    if n.name = name then some ⟨place, n⟩ else searchList name place 0 n.children := by
  cases n <;> rfl

variable {name : String}

/-- From the search below a node to that from the node. -/
theorem searchNode_of {place : List Nat} {n : Node} (h : searchList name place 0 n.children =
    ((Node.waysOf 0 n.children).map (down place)).find? (·.node.name == name)) :
    searchNode name place n = (n.ways.map (down place)).find? (·.node.name == name) := by
  rw [searchNode_eq_ite, h, Node.ways_eq, List.map_cons, List.find?_cons]
  by_cases hname : n.name = name
  · simp [hname, down]
  · have hb : (n.name == name) = false := by simp [hname]
    simp only [hb, if_neg hname, down]

mutual

theorem searchNode_eq (name : String) : ∀ (n : Node) (place : List Nat),
    searchNode name place n = (n.ways.map (down place)).find? (·.node.name == name)
  | .root _ _ children, place => searchNode_of (searchList_eq name children place 0)
  | .sect _ _ _ children, place => searchNode_of (searchList_eq name children place 0)
  | .func .., _ | .prop .., _ | .ref .., _ => searchNode_of rfl

theorem searchList_eq (name : String) : ∀ (ns : List Node) (place : List Nat) (index : Nat),
    searchList name place index ns = ((Node.waysOf index ns).map (down place)).find? (·.node.name == name)
  | [], _, _ => rfl
  | n :: ns, place, index => by
    have hdown : (fun w : List Nat × Node => down place (index :: w.1, w.2)) = down (place ++ [index]) := by
      funext w
      simp [down]
    rw [searchList, searchNode_eq name n, searchList_eq name ns, Node.waysOf, List.map_append, List.find?_append,
      List.map_map, Function.comp_def, hdown]
    split
    · next hfound => rw [hfound, Option.some_or]
    · next hnone => rw [hnone, Option.none_or]

end

/-- **A search finds the first node of the name in the order in which the tree is gone through.** -/
theorem search?_eq (c : Cursor) (name : String) : c.search? name = c.preorder.find? (·.node.name == name) :=
  searchNode_eq name c.node c.place

theorem mem_preorder_iff {c x : Cursor} :
    x ∈ c.preorder ↔ ∃ way, x.place = c.place ++ way ∧ c.node.at? way = some x.node := by
  rw [preorder, List.mem_map]
  constructor
  · rintro ⟨⟨way, n⟩, hmem, rfl⟩
    exact ⟨way, rfl, (Node.mem_ways_iff c.node).1 hmem⟩
  · rintro ⟨way, hplace, hat⟩
    obtain ⟨place, n⟩ := x
    cases hplace
    exact ⟨(way, n), (Node.mem_ways_iff c.node).2 hat, rfl⟩

theorem search?_eq_none_iff (c : Cursor) (name : String) :
    c.search? name = none ↔ ∀ way n, c.node.at? way = some n → n.name ≠ name := by
  rw [search?_eq, List.find?_eq_none]
  constructor
  · intro h way n hat hname
    exact h ⟨c.place ++ way, n⟩ (mem_preorder_iff.2 ⟨way, rfl, hat⟩) (by simp [hname])
  · intro h x hx
    obtain ⟨way, -, hat⟩ := mem_preorder_iff.1 hx
    simpa using h way x.node hat

theorem map_preorder (c : Cursor) :
    c.preorder.map (fun x => (x.place.length - c.place.length, x.node)) = c.node.preorder 0 := by
  rw [preorder, List.map_map, Node.preorder_eq_map]
  refine List.map_congr_left fun w _ => ?_
  simp [down]

end DefTree.Cursor

namespace DefTree

/-! ## Listings -/

/-- A depth and the width of an indentation to it are words of the machine, and its memory has room for the width. -/
def Node.Fits (room depth : Int) : Prop :=
  -Index.wordLimit ≤ depth ∧ 2 * depth < Index.wordLimit ∧ 2 * depth < room

instance (room depth : Int) : Decidable (Node.Fits room depth) := inferInstanceAs (Decidable (_ ∧ _))

theorem Node.indentFault?_eq_none_iff {room depth : Int} : indentFault? room depth = none ↔ Fits room depth := by
  have hpos : 0 < Index.wordLimit := by decide
  simp only [Fits, indentFault?, Index.isWord, Bool.not_eq_true', Bool.and_eq_false_iff, decide_eq_false_iff_not]
  split
  · simp only [reduceCtorEq, false_iff]
    omega
  · split
    · simp only [reduceCtorEq, false_iff]
      omega
    · split
      · simp only [reduceCtorEq, false_iff]
        omega
      · simp only [true_iff]
        omega

mutual

/-- What stands against a listing is what stands against the first of its lines. -/
theorem Node.listingFault?_eq (room i : Int) : ∀ (n : Node) (depth : Nat), n.listingFault? room (i + depth) =
    (n.preorder depth).findSome? fun p => indentFault? room (i + p.1)
  | .root _ _ children, depth | .sect _ _ _ children, depth => by
    rw [listingFault?, preorder, List.findSome?_cons, Int.add_assoc, ← Int.natCast_succ,
      listingFaultOf?_eq room i children (depth + 1)]
    cases indentFault? room (i + depth) <;> rfl
  | .func .., _ | .prop .., _ | .ref .., _ => List.findSome?_singleton.symm

theorem Node.listingFaultOf?_eq (room i : Int) : ∀ (ns : List Node) (depth : Nat), listingFaultOf? room (i + depth) ns =
    (preorderOf depth ns).findSome? fun p => indentFault? room (i + p.1)
  | [], _ => rfl
  | n :: ns, depth => by
    rw [listingFaultOf?, preorderOf, List.findSome?_append, listingFault?_eq room i n, listingFaultOf?_eq room i ns]

end

theorem Node.listing_zero (i : Int) (n : Node) : n.listing i = (n.preorder 0).map (line i) := by
  have h := listing_eq i n 0
  rwa [Int.natCast_zero, Int.add_zero] at h

theorem Node.outline_ok_iff {i room : Int} {n : Node} {text : String} : n.outline i room = .ok text ↔
    (∀ p ∈ n.preorder 0, Fits room (i + p.1)) ∧ String.join (n.listing i) = text := by
  have hfault : n.listingFault? room i = none ↔ ∀ p ∈ n.preorder 0, Fits room (i + p.1) := by
    have h := listingFault?_eq room i n 0
    rw [Int.natCast_zero, Int.add_zero] at h
    simp only [h, List.findSome?_eq_none_iff, indentFault?_eq_none_iff]
  rw [outline, ← hfault]
  cases n.listingFault? room i <;> simp

/-- **Searches and listings go through a tree in one order**, which has the nodes that ways lead to, with their depths
and with their places. A search gives the first cursor in this order whose node has the name, and none exactly if no
node has it. A listing has one line for each node in this order, two spaces for each level, the kind and the name.
It is written out with each line behind the one before, on any machine whose words and memory hold the indentations. -/
theorem search_listing_preorder (c : Cursor) :
    let pre := c.node.preorder 0
    c.preorder.map (fun x => (x.place.length - c.place.length, x.node)) = pre ∧
    (∀ x, x ∈ c.preorder ↔ ∃ way, x.place = c.place ++ way ∧ c.node.at? way = some x.node) ∧
    (∀ name, c.search? name = c.preorder.find? (·.node.name == name)) ∧
    (∀ name, c.search? name = none ↔ ∀ way n, c.node.at? way = some n → n.name ≠ name) ∧
    (∀ i, c.node.listing i = pre.map fun p =>
      String.ofList (List.replicate (2 * (i + p.1).toNat) ' ') ++ (p.2.kind.label ++ ": " ++ p.2.name) ++ "\n") ∧
    ∀ i room text, c.node.outline i room = .ok text ↔
      (∀ p ∈ pre, Node.Fits room (i + p.1)) ∧ String.join (c.node.listing i) = text :=
  ⟨c.map_preorder, fun _ => Cursor.mem_preorder_iff, c.search?_eq, c.search?_eq_none_iff,
    fun i => c.node.listing_zero i, fun _ _ _ => Node.outline_ok_iff⟩

/-- A deeper node that comes before another of its name. -/
theorem search_listing_preorder_deeper :
    let tree := Node.rootOf [.sectOf "a" .empty [.propOf "x" (.boolean true)], .propOf "x" (.boolean false)]
    (Cursor.top tree).search? "x" = some ⟨[0, 0], .propOf "x" (.boolean true)⟩ ∧
      (∀ way n, tree.at? way = some n → n.name ≠ "y") ∧
      tree.outline 1 = .ok "  root: root\n    section: a\n      property: x\n    property: x\n" := by
  intro tree
  obtain ⟨-, -, hsearch, hnone, -, houtline⟩ := search_listing_preorder (Cursor.top tree)
  exact ⟨hsearch "x", (hnone "y").1 rfl, (houtline 1 _ _).2 ⟨by decide, by decide +kernel⟩⟩

end DefTree
