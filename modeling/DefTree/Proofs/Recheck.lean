/-
Data that was checked once.

Checking fills in what may be left out and passes over what it does not
know, so the node it gives may be told by other data as well. But the node
is of the kind that was asked for and has no numbers of its own: each one
stands in the data (`check_ok`). So if the numbers there can be written and
read again, then the dump of the node is checked as the node.
-/
import DefTree.Proofs.Dump

namespace DefTree

/-- Whether a number is none of the infinite ones. -/
def Number.isFinite : Number → Bool
  | .integer _ => true
  | .float x => x.isFinite

namespace Json

mutual

/-- The numbers in a value, at any depth. -/
def numbers : Json → List Number
  | .num n => [n]
  | .arr items => numbersOf items
  | .obj fields => numbersIn fields
  | .null | .bool _ | .str _ => []

def numbersOf : List Json → List Number
  | [] => []
  | x :: xs => x.numbers ++ numbersOf xs

def numbersIn : List (String × Json) → List Number
  | [] => []
  | (_, v) :: fs => v.numbers ++ numbersIn fs

end

theorem numbers_subset_of_field? {fields : List (String × Json)} {key : String} {j : Json}
    (h : field? fields key = some j) : j.numbers ⊆ numbersIn fields := by
  induction fields with
  | nil => cases h
  | cons f fs ih =>
    obtain ⟨k, v⟩ := f
    rw [Node.field?_cons] at h
    split at h
    · cases h
      exact List.subset_append_left _ _
    · exact List.subset_append_of_subset_right _ (ih h)

end Json

/-- Whether a scalar, if it is a number, is one of some numbers. -/
def Scalar.Within (ns : List Number) (s : Scalar) : Prop := ∀ n, s = .number n → n ∈ ns

theorem Scalar.Within.mono {ms ns : List Number} {s : Scalar} (h : s.Within ms) (hsub : ms ⊆ ns) : s.Within ns :=
  fun n hn => hsub (h n hn)

/-! ## Checks that succeed -/

namespace Checked

theorem both_ok_iff {c : Checked α} {d : Checked β} {a : α} {b : β} :
    both c d = .ok (a, b) ↔ c = .ok a ∧ d = .ok b := by
  cases c <;> cases d <;> simp [both]

theorem under_ok_iff {s : Step} {c : Checked α} {a : α} : c.under s = .ok a ↔ c = .ok a := by
  cases c <;> simp [under, Except.mapError]

theorem map_ok_iff {c : Checked α} {f : α → β} {b : β} : c.map f = .ok b ↔ ∃ a, c = .ok a ∧ f a = b := by
  cases c <;> simp [Except.map]

end Checked

namespace Node

open Checked

/-! ## Parts of nodes -/

theorem checkScalar_within {j : Json} {s : Scalar} (h : checkScalar j = .ok s) : s.Within j.numbers := by
  rintro n rfl
  cases j with
  | num m =>
    cases h
    exact List.mem_singleton_self n
  | _ => cases h

theorem checkEntries_within : ∀ {fields : List (String × Json)} {es : List (String × Scalar)},
    checkEntries fields = .ok es → ∀ e ∈ es, e.2.Within (Json.numbersIn fields)
  | [], es, h => by
    cases h
    simp
  | (k, j) :: fs, es, h => by
    obtain ⟨⟨v, vs⟩, hboth, rfl⟩ := map_ok_iff.1 h
    obtain ⟨hv, hvs⟩ := both_ok_iff.1 hboth
    refine List.forall_mem_cons.2 ⟨?_, fun e he => ?_⟩
    · exact (checkScalar_within (under_ok_iff.1 hv)).mono (List.subset_append_left _ _)
    · exact (checkEntries_within hvs e he).mono (List.subset_append_right _ _)

theorem forall_mem_put {p : Scalar → Prop} {key : String} {value : Scalar} {es : List (String × Scalar)}
    (h : ∀ e ∈ es, p e.2) (hvalue : p value) : ∀ e ∈ Attributes.put key value es, p e.2 := by
  induction es with
  | nil => exact List.forall_mem_singleton.2 hvalue
  | cons e es ih =>
    obtain ⟨he, hes⟩ := List.forall_mem_cons.1 h
    rw [Attributes.put]
    split
    · exact List.forall_mem_cons.2 ⟨hvalue, hes⟩
    · exact List.forall_mem_cons.2 ⟨he, ih hes⟩

theorem forall_mem_attributesOf {p : Scalar → Prop} {es : List (String × Scalar)} (h : ∀ e ∈ es, p e.2) :
    ∀ e ∈ (attributesOf es).entries, p e.2 := by
  have hinsert : ∀ (es : List (String × Scalar)) (a : Attributes), (∀ e ∈ a.entries, p e.2) → (∀ e ∈ es, p e.2) →
      ∀ e ∈ (es.foldl (fun a e => a.insert e.1 e.2) a).entries, p e.2 := by
    intro es
    induction es with
    | nil => exact fun a ha _ => ha
    | cons e es ih =>
      intro a ha hes
      obtain ⟨he, hes⟩ := List.forall_mem_cons.1 hes
      exact ih (a.insert e.1 e.2) (forall_mem_put ha he) hes
  exact hinsert es .empty (by simp [Attributes.empty]) h

theorem checkValue_within {fields : List (String × Json)} {s : Scalar}
    (h : checkField fields "value" checkValue = .ok s) : s.Within (Json.numbersIn fields) := by
  have hvalue := under_ok_iff.1 h
  cases hfield : Json.field? fields "value" with
  | none =>
    rw [hfield] at hvalue
    cases hvalue
  | some j =>
    rw [hfield] at hvalue
    exact (checkScalar_within hvalue).mono (Json.numbers_subset_of_field? hfield)

theorem checkAttributes_within {fields : List (String × Json)} {a : Attributes}
    (h : checkField fields "properties" checkAttributes = .ok a) :
    ∀ e ∈ a.entries, e.2.Within (Json.numbersIn fields) := by
  have hattributes := under_ok_iff.1 h
  cases hfield : Json.field? fields "properties" with
  | none =>
    rw [hfield] at hattributes
    cases hattributes
    simp [Attributes.empty]
  | some j =>
    rw [hfield] at hattributes
    cases j with
    | obj entries =>
      obtain ⟨es, hes, rfl⟩ := map_ok_iff.1 hattributes
      refine forall_mem_attributesOf fun e he => ?_
      exact (checkEntries_within hes e he).mono (Json.numbers_subset_of_field? hfield)
    | _ => cases hattributes

/-! ## Nodes -/

/-- A node that was put together is of its kind, and its numbers stand in its own fields or are those of the
children. -/
theorem assemble_ok {kind : NodeKind} {fields : List (String × Json)} {children : Checked (List Node)} {n : Node}
    (h : assemble kind fields children = .ok n)
    (hchildren : ∀ ns, children = .ok ns → ∀ s ∈ scalarsOf ns, s.Within (Json.numbersIn fields)) :
    n.kind = kind ∧ ∀ s ∈ n.scalars, s.Within (Json.numbersIn fields) := by
  cases kind with
  | root =>
    obtain ⟨⟨name, _, type, ns⟩, hfields, rfl⟩ := map_ok_iff.1 h
    simp only [both_ok_iff, under_ok_iff] at hfields
    obtain ⟨-, -, -, hns⟩ := hfields
    exact ⟨rfl, hchildren ns hns⟩
  | sect =>
    obtain ⟨⟨name, _, type, a, ns⟩, hfields, rfl⟩ := map_ok_iff.1 h
    simp only [both_ok_iff] at hfields
    obtain ⟨-, -, -, ha, hns⟩ := hfields
    refine ⟨rfl, List.forall_mem_append.2 ⟨List.forall_mem_map.2 ?_, hchildren ns (under_ok_iff.1 hns)⟩⟩
    exact checkAttributes_within ha
  | func =>
    obtain ⟨⟨name, _, type, arguments, body⟩, -, rfl⟩ := map_ok_iff.1 h
    exact ⟨rfl, by simp [scalars]⟩
  | prop =>
    obtain ⟨⟨name, _, type, value⟩, hfields, rfl⟩ := map_ok_iff.1 h
    simp only [both_ok_iff] at hfields
    obtain ⟨-, -, -, hvalue⟩ := hfields
    exact ⟨rfl, List.forall_mem_singleton.2 (checkValue_within hvalue)⟩
  | ref =>
    obtain ⟨⟨name, _, type, value⟩, -, rfl⟩ := map_ok_iff.1 h
    exact ⟨rfl, by simp [scalars]⟩

mutual

/-- **A node that was checked is of the kind that was asked for, and its numbers stand in the data.** -/
theorem check_ok : ∀ {kind : NodeKind} {j : Json} {n : Node}, check kind j = .ok n →
    n.kind = kind ∧ ∀ s ∈ n.scalars, s.Within j.numbers
  | _, .obj fields, _, h => assemble_ok h fun _ hns => checkChildren_ok hns
  | _, .null, _, h | _, .bool _, _, h | _, .num _, _, h | _, .str _, _, h | _, .arr _, _, h => by cases h

theorem checkChildren_ok : ∀ {fields : List (String × Json)} {ns : List Node}, checkChildren fields = .ok ns →
    ∀ s ∈ scalarsOf ns, s.Within (Json.numbersIn fields)
  | [], ns, h => by
    cases h
    simp [scalarsOf]
  | (key, j) :: fields, ns, h => by
    rw [checkChildren] at h
    intro s hs
    split at h
    · exact (checkList_ok h s hs).mono (List.subset_append_left _ _)
    · exact (checkChildren_ok h s hs).mono (List.subset_append_right _ _)

theorem checkList_ok : ∀ {j : Json} {ns : List Node}, checkList j = .ok ns →
    ∀ s ∈ scalarsOf ns, s.Within j.numbers
  | .arr items, _, h => checkItems_ok h
  | .null, _, h | .bool _, _, h | .num _, _, h | .str _, _, h | .obj _, _, h => by cases h

theorem checkItems_ok : ∀ {index : Nat} {items : List Json} {ns : List Node}, checkItems index items = .ok ns →
    ∀ s ∈ scalarsOf ns, s.Within (Json.numbersOf items)
  | _, [], ns, h => by
    cases h
    simp [scalarsOf]
  | _, j :: js, ns, h => by
    obtain ⟨⟨m, ms⟩, hboth, rfl⟩ := map_ok_iff.1 h
    obtain ⟨hm, hms⟩ := both_ok_iff.1 hboth
    have hchild := under_ok_iff.1 hm
    split at hchild
    · cases hchild
    · refine List.forall_mem_append.2 ⟨fun s hs => ?_, fun s hs => ?_⟩
      · exact ((check_ok (under_ok_iff.1 hchild)).2 s hs).mono (List.subset_append_left _ _)
      · exact (checkItems_ok hms s hs).mono (List.subset_append_right _ _)

end

end Node

/-- **Data is checked once.** If data whose integers are short and whose floating-point numbers are finite is checked
as a node of a kind, then the node can be dumped, and each dump of it is checked as the same node. -/
theorem check_dump {kind : NodeKind} {data : Json} {n : Node}
    (hnumbers : ∀ x ∈ data.numbers, x.Short ∧ x.isFinite = true) (h : Node.check kind data = .ok n) :
    (∃ json, n.dump none = .ok json) ∧
      ∀ indent json, n.dump indent = .ok json → Node.ofJsonText kind json = .ok n := by
  obtain ⟨rfl, hwithin⟩ := Node.check_ok h
  refine ⟨⟨_, rfl⟩, fun indent json hdump => ?_⟩
  have hshort (k : Int) (hk : Scalar.number (.integer k) ∈ n.scalars) :
      (Numeral.decimal k.natAbs).length ≤ Numeral.digitLimit := (hnumbers _ (hwithin _ hk _ rfl)).1
  refine (Node.tells_dump hdump hshort).ok fun s hs => ?_
  rintro ⟨negative, rfl⟩
  exact absurd (hnumbers _ (hwithin _ hs _ rfl)).2 (by simp [Number.isFinite, Binary64.isFinite])

/-- A root below a root with hardly anything said about them, and fields that nothing asks for. -/
theorem check_dump_defaults :
    let half : Number := .float (.ofDecimal true 5 (-1))
    let data := Json.obj [("note", .null), ("children", .arr [
      .obj [("kind", .str "root"), ("children", .arr [
        .obj [("kind", .str "function"), ("name", .str "f"), ("value", .num (.integer 7))]])],
      .obj [("kind", .str "property"), ("name", .str "k"), ("type", .str "string"), ("value", .num half)]])]
    let n := Node.rootOf [.rootOf [.funcOf "f" [] ""], .prop "k" .text (.number half)]
    (∀ x ∈ data.numbers, x.Short ∧ x.isFinite = true) ∧ Node.check .root data = .ok n ∧
      ∃ json, n.dump (some 2) = .ok json ∧ Node.ofJsonText .root json = .ok n := by
  intro half data n
  have hseven : (Numeral.decimal 7).length ≤ Numeral.digitLimit := by decide
  have hnumbers : ∀ x ∈ data.numbers, x.Short ∧ x.isFinite = true :=
    List.forall_mem_cons.2 ⟨⟨hseven, rfl⟩, List.forall_mem_singleton.2 ⟨trivial, by decide +kernel⟩⟩
  have hcheck : Node.check .root data = .ok n := rfl
  exact ⟨hnumbers, hcheck, _, rfl, (check_dump hnumbers hcheck).2 (some 2) _ rfl⟩

end DefTree
