/-
Trees as JSON, checked again.

A tree that is written and checked is itself, unless a value in it is an
infinite number: null stands for that one, and no scalar is null. So the
check says which of the two it is.
-/
import DefTree.Node.Check
import DefTree.Node.Json
import DefTree.Proofs.Attributes
import DefTree.Proofs.JsonText
import DefTree.Proofs.Parse

namespace DefTree

/-! ## Scalars of a tree -/

def Scalar.IsInfinite (s : Scalar) : Prop := ∃ negative, s = .number (.float (.infinite negative))

instance (s : Scalar) : Decidable s.IsInfinite :=
  inferInstanceAs (Decidable (∃ negative, s = .number (.float (.infinite negative))))

namespace Node

mutual

/-- The values of properties and of attributes, at any depth. -/
def scalars : Node → List Scalar
  | .root _ _ children => scalarsOf children
  | .sect _ _ attributes children => attributes.entries.map (·.2) ++ scalarsOf children
  | .prop _ _ value => [value]
  | .func .. | .ref .. => []

def scalarsOf : List Node → List Scalar
  | [] => []
  | n :: ns => n.scalars ++ scalarsOf ns

end

end Node

/-! ## Outcomes of checks -/

namespace Checked

/-- A check that gives a value under a condition, and finds something wrong otherwise. -/
structure Tells (c : Checked α) (good : Prop) (a : α) : Prop where
  ok : good → c = .ok a
  error : ¬good → ∃ p ps, c = .error (p :: ps)

namespace Tells

variable {c : Checked α} {d : Checked β} {good good' : Prop} {a : α} {b : β}

theorem pure (a : α) : Tells (.ok a) True a where
  ok _ := rfl
  error h := absurd trivial h

theorem congr (h : c.Tells good a) (hiff : good ↔ good') : c.Tells good' a where
  ok hg := h.ok (hiff.2 hg)
  error hg := h.error fun hgood => hg (hiff.1 hgood)

theorem under (h : c.Tells good a) (s : Step) : (c.under s).Tells good a where
  ok hg := by rw [h.ok hg]; rfl
  error hg := by
    obtain ⟨p, ps, hc⟩ := h.error hg
    exact ⟨_, _, by rw [hc]; rfl⟩

theorem map (h : c.Tells good a) (f : α → β) : Tells (c.map f) good (f a) where
  ok hg := by rw [h.ok hg]; rfl
  error hg := by
    obtain ⟨p, ps, hc⟩ := h.error hg
    exact ⟨p, ps, by rw [hc]; rfl⟩

theorem both (hc : c.Tells good a) (hd : d.Tells good' b) : (Checked.both c d).Tells (good ∧ good') (a, b) where
  ok hg := by rw [hc.ok hg.1, hd.ok hg.2]; rfl
  error hg := by
    by_cases hgood : good
    · obtain ⟨p, ps, hd⟩ := hd.error fun h => hg ⟨hgood, h⟩
      exact ⟨p, ps, by rw [hc.ok hgood, hd]; rfl⟩
    · obtain ⟨p, ps, hc⟩ := hc.error hgood
      by_cases hgood' : good'
      · exact ⟨p, ps, by rw [hc, hd.ok hgood']; rfl⟩
      · obtain ⟨q, qs, hd⟩ := hd.error hgood'
        exact ⟨p, ps ++ q :: qs, by rw [hc, hd]; rfl⟩

end Tells

end Checked

namespace Node

open Checked

/-! ## Fields -/

theorem field?_cons (k key : String) (v : Json) (fs : List (String × Json)) :
    Json.field? ((k, v) :: fs) key = if k = key then some v else Json.field? fs key := by
  unfold Json.field?
  rw [List.find?_cons]
  by_cases h : k = key
  · simp [h]
  · have hb : (k == key) = false := by simp [h]
    simp only [hb, if_neg h]

section Header

variable (name type : String) (kind : NodeKind) (fields : List (String × Json))

theorem writtenFields_header : Json.writtenFields (header name kind type ++ fields) =
    header name kind type ++ Json.writtenFields fields := by
  simp only [header, List.cons_append, List.nil_append, Json.writtenFields, Json.written]

theorem tells_name : (checkField (header name kind type ++ fields) "name"
    (if kind = .root then checkTextOr "root" else checkRequired)).Tells True name := by
  have hfield : Json.field? (header name kind type ++ fields) "name" = some (.str name) := by
    simp [header, field?_cons]
  rw [checkField, hfield]
  split <;> exact (Tells.pure name).under _

theorem field?_kind : Json.field? (header name kind type ++ fields) "kind" = some (.str kind.label) := by
  simp [header, field?_cons]

theorem tells_kind : (checkField (header name kind type ++ fields) "kind" (checkKind kind)).Tells True () := by
  rw [checkField, field?_kind, checkKind, if_pos rfl]
  exact (Tells.pure ()).under _

theorem field?_type : Json.field? (header name kind type ++ fields) "type" = some (.str type) := by
  simp [header, field?_cons]

theorem tells_type : (checkField (header name kind type ++ fields) "type" (checkTextOr kind.defaultType)).Tells True
    type := by
  rw [checkField, field?_type]
  exact (Tells.pure type).under _

theorem tells_header {rest : Checked α} {good : Prop} {a : α} (h : rest.Tells good a) :
    (both (checkField (header name kind type ++ fields) "name"
        (if kind = .root then checkTextOr "root" else checkRequired))
      (both (checkField (header name kind type ++ fields) "kind" (checkKind kind))
        (both (checkField (header name kind type ++ fields) "type" (checkTextOr kind.defaultType)) rest))).Tells good
      (name, (), type, a) :=
  ((tells_name name type kind fields).both ((tells_kind name type kind fields).both
    ((tells_type name type kind fields).both h))).congr (by simp only [true_and])

theorem checkChildren_header : checkChildren (header name kind type ++ fields) = checkChildren fields := by
  simp only [header, List.cons_append, List.nil_append, checkChildren]
  rw [if_neg (by decide), if_neg (by decide), if_neg (by decide)]

theorem tells_scalarKind (type : ScalarKind) :
    (checkField (header name kind type.label ++ fields) "type" checkScalarKind).Tells True type := by
  have hlabel : checkScalarKind (some (.str type.label)) = .ok type := by
    cases type <;> rfl
  rw [checkField, field?_type, hlabel]
  exact (Tells.pure type).under _

end Header

/-! ## Parts of nodes -/

theorem tells_scalar (s : Scalar) : (checkScalar s.toJson.written).Tells (¬s.IsInfinite) s := by
  have hpure {c : Checked Scalar} (hc : c = .ok s) (hs : ¬s.IsInfinite) : c.Tells (¬s.IsInfinite) s :=
    ⟨fun _ => hc, fun h => absurd hs h⟩
  cases s with
  | text s => exact hpure rfl (by rintro ⟨_, ⟨⟩⟩)
  | boolean b => exact hpure rfl (by rintro ⟨_, ⟨⟩⟩)
  | number n =>
    cases n with
    | integer n => exact hpure rfl (by rintro ⟨_, ⟨⟩⟩)
    | float x =>
      cases x with
      | finite negative m p valid => exact hpure rfl (by rintro ⟨_, ⟨⟩⟩)
      | infinite negative => exact ⟨fun h => absurd ⟨negative, rfl⟩ h, fun _ => ⟨_, _, rfl⟩⟩

theorem tells_entries (es : List (String × Scalar)) :
    (checkEntries (Json.writtenFields (es.map fun (k, v) => (k, v.toJson)))).Tells
      (∀ s ∈ es.map (·.2), ¬s.IsInfinite) es := by
  induction es with
  | nil => exact (Tells.pure []).congr (by simp)
  | cons e es ih =>
    obtain ⟨k, v⟩ := e
    have h := ((tells_scalar v).under (.key k)).both ih
    exact (h.map _).congr (by rw [List.map_cons, List.forall_mem_cons])

theorem tells_attributes (a : Attributes) :
    (checkAttributes (some a.toJson.written)).Tells (∀ s ∈ a.entries.map (·.2), ¬s.IsInfinite) a := by
  have h := (tells_entries a.entries).map attributesOf
  rw [show attributesOf a.entries = a from a.foldl_insert_entries] at h
  exact h

theorem tells_texts (ss : List String) (index : Nat) :
    (checkTexts index (Json.writtenItems (ss.map .str))).Tells True ss := by
  induction ss generalizing index with
  | nil => exact Tells.pure []
  | cons s ss ih =>
    have h := ((Tells.pure s).under (.index index)).both (ih (index + 1))
    exact (h.map _).congr and_self_iff

theorem ofLabel?_label (kind : NodeKind) : NodeKind.ofLabel? kind.label = some kind := by
  cases kind <;> rfl

theorem childKind_toJson (n : Node) : childKind n.toJson.written = .ok n.kind := by
  have h (name type : String) (kind : NodeKind) (fields : List (String × Json)) :
      childKind (Json.obj (header name kind type ++ fields)).written = .ok kind := by
    rw [Json.written, writtenFields_header, childKind, field?_kind]
    dsimp only
    rw [ofLabel?_label]
  cases n <;> exact h ..

/-! ## Nodes -/

mutual

/-- **What is written of a node is checked as the node**, unless a value in it is infinite. -/
theorem tells_node : ∀ n : Node, (check n.kind n.toJson.written).Tells (∀ s ∈ n.scalars, ¬s.IsInfinite) n
  | .root name type children => by
    have hchildren := (tells_items children 0).under (.key "children")
    rw [toJson, Json.written, writtenFields_header, kind, check, checkChildren_header]
    exact (tells_header name type .root _ hchildren).map _
  | .sect name type attributes children => by
    have hchildren := (tells_items children 0).under (.key "children")
    have hfields := ((tells_attributes attributes).under (.key "properties")).both hchildren
    rw [toJson, Json.written, writtenFields_header, kind, check, checkChildren_header]
    refine ((tells_header name type .sect _ hfields).map _).congr ?_
    simp only [scalars, List.forall_mem_append]
  | .func name type arguments body => by
    have hfields := ((tells_texts arguments 0).under (.key "arguments")).both ((Tells.pure body).under (.key "body"))
    rw [toJson, Json.written, writtenFields_header, kind, check]
    refine ((tells_header name type .func _ hfields).map _).congr ?_
    simp [scalars]
  | .prop name type value => by
    have hvalue := (tells_scalar value).under (.key "value")
    rw [toJson, Json.written, writtenFields_header, kind, check]
    refine (((tells_name name type.label .prop _).both ((tells_kind name type.label .prop _).both
      ((tells_scalarKind name .prop _ type).both hvalue))).map _).congr ?_
    simp [scalars]
  | .ref name type value => by
    have hvalue := (Tells.pure value).under (.key "value")
    rw [toJson, Json.written, writtenFields_header, kind, check]
    have h := (tells_header name type .ref (Json.writtenFields [("value", .str value)]) hvalue).map
      fun (name, _, type, value) => Node.ref name type value
    exact h.congr (by simp [scalars])

theorem tells_items : ∀ (ns : List Node) (index : Nat),
    (checkItems index (Json.writtenItems (listToJson ns))).Tells (∀ s ∈ scalarsOf ns, ¬s.IsInfinite) ns
  | [], index => (Tells.pure []).congr (by simp [scalarsOf])
  | n :: ns, index => by
    have h := ((((tells_node n).under (.key n.kind.label)).under (.index index)).both
      (tells_items ns (index + 1))).map fun (n, ns) => n :: ns
    rw [listToJson, Json.writtenItems, checkItems, childKind_toJson]
    exact h.congr (by simp only [scalarsOf, List.forall_mem_append])

end

/-! ## Short integers -/

theorem readable_entries (es : List (String × Scalar))
    (h : ∀ s ∈ es.map (·.2), s.toJson.Readable) : Json.ReadableFields (es.map fun (k, v) => (k, v.toJson)) := by
  induction es with
  | nil => trivial
  | cons e es ih =>
    obtain ⟨hv, hes⟩ := List.forall_mem_cons.1 h
    exact ⟨hv, ih hes⟩

theorem readable_texts (ss : List String) : Json.ReadableItems (ss.map .str) := by
  induction ss with
  | nil => trivial
  | cons s ss ih => exact ⟨trivial, ih⟩

theorem readable_header (name type : String) (kind : NodeKind) {fields : List (String × Json)}
    (h : Json.ReadableFields fields) : (Json.obj (header name kind type ++ fields)).Readable :=
  ⟨trivial, trivial, trivial, h⟩

mutual

/-- A node can be read again if its integers are short. -/
theorem readable_toJson : ∀ {n : Node}, (∀ s ∈ n.scalars, s.toJson.Readable) → n.toJson.Readable
  | .root name type children, h => readable_header name type .root ⟨readable_listToJson h, trivial⟩
  | .sect name type attributes children, h => by
    obtain ⟨hattributes, hchildren⟩ := List.forall_mem_append.1 h
    exact readable_header name type .sect
      ⟨readable_entries attributes.entries hattributes, readable_listToJson hchildren, trivial⟩
  | .func name type arguments body, h => readable_header name type .func ⟨readable_texts arguments, trivial, trivial⟩
  | .prop name type value, h => readable_header name type.label .prop ⟨h value List.mem_cons_self, trivial⟩
  | .ref name type value, h => readable_header name type .ref ⟨trivial, trivial⟩

theorem readable_listToJson : ∀ {ns : List Node}, (∀ s ∈ scalarsOf ns, s.toJson.Readable) →
    Json.ReadableItems (listToJson ns)
  | [], h => trivial
  | n :: ns, h => by
    obtain ⟨hn, hns⟩ := List.forall_mem_append.1 h
    exact ⟨readable_toJson hn, readable_listToJson hns⟩

end

/-! ## Dumps -/

/-- **What is dumped of a node is read as the node**, unless a value in it is infinite. -/
theorem tells_dump {n : Node} {indent : Option Int} {json : String} (h : n.dump indent = .ok json)
    (hshort : ∀ k, Scalar.number (.integer k) ∈ n.scalars →
      (Numeral.decimal k.natAbs).length ≤ Numeral.digitLimit) :
    (ofJsonText n.kind json).Tells (∀ s ∈ n.scalars, ¬s.IsInfinite) n := by
  obtain ⟨l, rfl⟩ : ∃ l, json = n.toJson.render l := by
    rw [dump] at h
    cases hl : layout indent with
    | error fault => rw [hl] at h; cases h
    | ok l =>
      rw [hl] at h
      cases h
      exact ⟨l, rfl⟩
  have hreadable : n.toJson.Readable := readable_toJson fun s hs => by
    cases s with
    | text s => trivial
    | boolean b => trivial
    | number x =>
      cases x with
      | integer k => exact hshort k hs
      | float x => trivial
  rw [ofJsonText, Json.read?_render l hreadable]
  exact tells_node n

end Node

/-- **A tree that was read is itself again after a dump exactly when no value in it is infinite**, whatever the
indentation; otherwise the check of the dump finds something wrong. -/
theorem parse_dump {expand : Bool} {loader : Loader} {text : String} {source : Option String} {tree : Node}
    (h : (parse expand loader text source).result = .ok tree)
    (hshort : ∀ n, Scalar.number (.integer n) ∈ tree.scalars →
      (Numeral.decimal n.natAbs).length ≤ Numeral.digitLimit) :
    (∃ json, tree.dump none = .ok json) ∧ ∀ indent json, tree.dump indent = .ok json →
      (Node.ofJsonText .root json = .ok tree ↔ ∀ s ∈ tree.scalars, ¬s.IsInfinite) ∧
      ((∃ s ∈ tree.scalars, s.IsInfinite) → ∃ p ps, Node.ofJsonText .root json = .error (p :: ps)) := by
  obtain ⟨nodes, -, rfl⟩ := parse_ok_iff.1 h
  refine ⟨⟨_, rfl⟩, fun indent json hdump => ?_⟩
  have htells := Node.tells_dump hdump hshort
  have herror (hbad : ¬∀ s ∈ (Node.rootOf nodes).scalars, ¬s.IsInfinite) :
      ∃ p ps, Node.ofJsonText .root json = .error (p :: ps) := htells.error hbad
  refine ⟨⟨fun hok => ?_, htells.ok⟩, fun ⟨s, hs, hinf⟩ => herror fun hall => hall s hs hinf⟩
  by_contra hbad
  obtain ⟨p, ps, hps⟩ := herror hbad
  rw [hok] at hps
  cases hps

/-- A section with a floating-point attribute and a text, and an integer; and an infinite number. -/
theorem parse_dump_scalars :
    let read (text : String) := (parse false (Loader.ofMemory [] []) text none).result
    (∃ tree json, read "s f:-1e-7 \x7b\nk: \"a\\b\"\n\x7d\nn: -12" = .ok tree ∧
      tree.dump (some 2) = .ok json ∧ Node.ofJsonText .root json = .ok tree) ∧
    ∃ tree json p ps, read "n: -Infinity" = .ok tree ∧
      tree.dump none = .ok json ∧ Node.ofJsonText .root json = .error (p :: ps) := by
  intro read
  constructor
  · obtain ⟨tree, htree⟩ : ∃ tree, read "s f:-1e-7 \x7b\nk: \"a\\b\"\n\x7d\nn: -12" = .ok tree :=
      Run.exists_ok_of_isOk (by decide +kernel)
    have hscalars : (read "s f:-1e-7 \x7b\nk: \"a\\b\"\n\x7d\nn: -12").map Node.scalars =
        .ok [.number (.float (.ofDecimal true 1 (-7))), .text "a\\b", .number (.integer (-12))] := by decide +kernel
    rw [htree] at hscalars
    have hscalars' := Except.ok.inj hscalars
    refine ⟨tree, _, htree, rfl, ((parse_dump htree fun n hn => ?_).2 (some 2) _ rfl).1.2 ?_⟩
    · rw [hscalars'] at hn
      obtain rfl : n = -12 := by simpa using hn
      decide
    · rw [hscalars']
      decide +kernel
  · obtain ⟨tree, htree⟩ : ∃ tree, read "n: -Infinity" = .ok tree := Run.exists_ok_of_isOk (by decide +kernel)
    have hscalars : (read "n: -Infinity").map Node.scalars = .ok [.number (.float (.infinite true))] := by
      decide +kernel
    rw [htree] at hscalars
    have hscalars' := Except.ok.inj hscalars
    have hdump := parse_dump htree fun n hn => by
      rw [hscalars'] at hn
      simp at hn
    obtain ⟨p, ps, hps⟩ := (hdump.2 none _ rfl).2 ⟨_, by rw [hscalars']; exact List.mem_cons_self, true, rfl⟩
    exact ⟨tree, _, p, ps, htree, rfl, hps⟩

end DefTree
