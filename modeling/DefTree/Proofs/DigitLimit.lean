/-
The limit on the digits of integers.

A run of decimal digits is refused if it has more than `Numeral.digitLimit`
of them, and that is all that can be wrong with a token. A value of a
property is also put into words, where the limit counts once more: it is a
literal of another base then, for a decimal one has been refused before.
-/
import DefTree.Proofs.Attributes
import DefTree.Proofs.NumberForm
import DefTree.Proofs.Visit

namespace DefTree

namespace Numeral

/-- A text with or without a sign in front of it. -/
inductive Signed (ds : List Char) : List Char → Prop where
  | bare : Signed ds ds
  | plus : Signed ds ('+' :: ds)
  | minus : Signed ds ('-' :: ds)

theorem signed_iff {cs ds : List Char} :
    Signed ds cs ↔ ∃ negative sign, WritesSign negative sign ∧ cs = sign ++ ds := by
  constructor
  · rintro (_ | _ | _)
    · exact ⟨_, [], .none, rfl⟩
    · exact ⟨_, ['+'], .plus, rfl⟩
    · exact ⟨_, ['-'], .minus, rfl⟩
  · rintro ⟨negative, sign, hsign, rfl⟩
    cases hsign with
    | none => exact .bare
    | plus => exact .plus
    | minus => exact .minus

end Numeral

namespace Number

/-- A text that stands for a decimal integer of more digits than may be read, blanks around it aside. -/
def IsOverlong (raw : List Char) (digits : Nat) : Prop :=
  ∃ ds, Numeral.Signed ds (Text.trim raw) ∧ (∀ c ∈ ds, c.isDigit = true) ∧ ds.length = digits ∧
    Numeral.digitLimit < digits

/-- A literal of another base whose value has more decimal digits than may be written. -/
def IsHuge (raw : List Char) : Prop :=
  ∃ n, radix? (Text.trim raw) = some n ∧ Numeral.digitLimit < (Numeral.decimal n).length

variable {raw : List Char} {digits : Nat}

/-- **Too long a run of digits** is all that is wrong with a number. -/
theorem read?_error_iff {e : Numeral.Overlong} : read? raw = .error e ↔ IsOverlong raw e.digits := by
  have hform : read? raw = .error e ↔ Form (Text.trim raw) (.error e) := @read?_eq_map_iff raw (.error e)
  rw [hform]
  constructor
  · intro h
    generalize hcs : Text.trim raw = cs at h
    cases h with
    | overlong hsign hds hlength =>
      exact ⟨_, hcs ▸ Numeral.signed_iff.2 ⟨_, _, hsign, rfl⟩, (Numeral.spells_ten_iff.1 hds).2.1, rfl, hlength⟩
  · rintro ⟨ds, hsigned, hdigits, hlength, hlimit⟩
    obtain ⟨negative, sign, hsign, hcs⟩ := Numeral.signed_iff.1 hsigned
    have hne : ds ≠ [] := List.ne_nil_of_length_pos (by omega)
    have hoverlong := Form.overlong hsign (Numeral.spells_ten_iff.2 ⟨hne, hdigits, rfl⟩) (hlength ▸ hlimit)
    rwa [← hcs, hlength] at hoverlong

/-- An integer that is read has few digits, or it is a literal of another base. -/
theorem length_decimal_of_read? {n : Int} (h : read? raw = .ok (some (.integer n))) :
    (Numeral.decimal n.natAbs).length ≤ Numeral.digitLimit ∨ radix? (Text.trim raw) = some n.natAbs := by
  have hform : Form (Text.trim raw) (.ok (.integer n)) := read?_eq_map_iff.1 h
  generalize Text.trim raw = cs at hform
  cases hform with
  | nothing => exact .inl (by decide)
  | radix hletter hds => exact .inr (radix?_eq_some_iff.2 ⟨_, _, _, rfl, hletter, hds⟩)
  | @decimal negative sign ds n hsign hds hlength =>
    obtain ⟨hne, hdigits, rfl⟩ := Numeral.spells_ten_iff.1 hds
    have habs : (Numeral.withSign negative (Numeral.value 10 ds)).natAbs = Numeral.value 10 ds := by
      cases negative <;> simp [Numeral.withSign]
    rw [habs]
    exact .inl ((Numeral.length_decimal_value_le hne hdigits).trans hlength)

theorem isOverlong_trim : IsOverlong (Text.trim raw) digits ↔ IsOverlong raw digits := by
  rw [IsOverlong, IsOverlong, (Text.tight_trim raw).trim_eq]

theorem not_quoted {cs : List Char} (h : Text.trim raw = '"' :: cs) :
    (∀ digits, ¬IsOverlong raw digits) ∧ ¬IsHuge raw := by
  constructor
  · rintro digits ⟨ds, hs, hds, -, -⟩
    rw [h] at hs
    cases hs
    exact absurd (hds '"' List.mem_cons_self) (by decide)
  · rintro ⟨n, hn, -⟩
    rw [h] at hn
    cases hn

end Number

namespace Scalar

variable {raw : List Char} {e : Numeral.Overlong}

theorem ofToken_error_iff : ofToken raw = .error e ↔ Number.IsOverlong raw e.digits := by
  rw [← Number.read?_error_iff, ofToken]
  cases Number.read? raw with
  | error e' => simp
  | ok n =>
    cases n with
    | some n => simp
    | none => cases boolean? raw <;> simp

theorem exists_of_unquote? {cs inner : List Char} (h : unquote? cs = some inner) : ∃ rest, cs = '"' :: rest := by
  unfold unquote? at h
  split at h
  · next rest => exact ⟨rest, rfl⟩
  · cases h

theorem ofValue_error_iff : ofValue raw = .error e ↔ Number.IsOverlong raw e.digits := by
  unfold ofValue
  dsimp only
  split
  · next inner h =>
    obtain ⟨rest, hrest⟩ := exists_of_unquote? h
    simp [(Number.not_quoted hrest).1]
  · rw [ofToken_error_iff, Number.isOverlong_trim]

/-- An integer that is shown with too many digits was written in another base. -/
theorem shown?_none_iff : (∃ v, ofValue raw = .ok v ∧ v.shown? = none) ↔ Number.IsHuge raw := by
  constructor
  · rintro ⟨v, hv, hshown⟩
    unfold ofValue at hv
    dsimp only at hv
    split at hv
    · cases hv
      cases hshown
    unfold ofToken at hv
    split at hv
    · cases hv
    · next n hn =>
      cases hv
      cases n with
      | float x => cases hshown
      | integer n =>
        rw [shown?, ite_eq_right_iff] at hshown
        have hlong : ¬(Numeral.decimal n.natAbs).length ≤ Numeral.digitLimit := fun h => by
          cases hshown h
        have hradix := (Number.length_decimal_of_read? hn).resolve_left hlong
        rw [(Text.tight_trim raw).trim_eq] at hradix
        exact ⟨_, hradix, Nat.lt_of_not_le hlong⟩
    · split at hv
      · cases hv
        cases hshown
      · cases hv
        cases hshown
  · rintro ⟨n, hn, hlong⟩
    have hvalue : ofValue raw = .ok (.number (.integer n)) := by
      have hne : (Text.trim raw).isEmpty = false := by
        cases h : Text.trim raw with
        | nil => rw [h] at hn; cases hn
        | cons c cs => rfl
      have hquote : unquote? (Text.trim raw) = none := by
        cases h : unquote? (Text.trim raw) with
        | none => rfl
        | some inner =>
          obtain ⟨rest, hrest⟩ := exists_of_unquote? h
          exact absurd ⟨n, hn, hlong⟩ (Number.not_quoted hrest).2
      simp [ofValue, hquote, ofToken, Number.read?, (Text.tight_trim raw).trim_eq, hne, hn]
    exact ⟨_, hvalue, if_neg (Nat.not_le.2 hlong)⟩

end Scalar

theorem buildProp_error_iff {key value : List Char} {fault : Fault} :
    (buildProp key value).result = .error fault ↔
      (∃ digits, Number.IsOverlong value digits ∧ fault = .overlongNumeral digits) ∨
        Number.IsHuge value ∧ fault = .overlongValue := by
  have hlong (digits : Nat) : Number.IsOverlong value digits ↔ Scalar.ofValue value = .error ⟨digits⟩ :=
    Scalar.ofValue_error_iff.symm
  simp only [hlong, ← Scalar.shown?_none_iff]
  cases hv : Scalar.ofValue value with
  | error e =>
    obtain ⟨digits⟩ := e
    simp [buildProp, hv, eq_comm]
  | ok v =>
    cases hs : v.shown? with
    | none => simp [buildProp, hv, hs, eq_comm]
    | some shown =>
      have hok : (buildProp key value).result = .ok (.propOf (String.ofList key) v) := by
        simp only [buildProp, hv, hs]
        rfl
      simp [hok, hs]

namespace Attributes

/-- The first item of a list whose value is too long has a value of so many digits. -/
inductive IsOverlong (digits : Nat) : List Item → Prop where
  | here {key value items} (h : Number.IsOverlong value digits) : IsOverlong digits (⟨key, some value⟩ :: items)
  | next {item items} (h : ∀ value, item.value = some value → ∀ n, ¬Number.IsOverlong value n)
      (hitems : IsOverlong digits items) : IsOverlong digits (item :: items)

theorem enter_error_iff {a : Attributes} {item : Item} {e : Numeral.Overlong} :
    enter a item = .error e ↔ ∃ value, item.value = some value ∧ Number.IsOverlong value e.digits := by
  unfold enter
  cases item.value with
  | none => simp
  | some value =>
    simp only [Option.some.injEq, exists_eq_left', ← Scalar.ofToken_error_iff]
    cases Scalar.ofToken value <;> simp [Except.map]

theorem foldlM_enter_error_iff {items : List Item} {e : Numeral.Overlong} : ∀ {a : Attributes},
    items.foldlM enter a = .error e ↔ IsOverlong e.digits items := by
  induction items with
  | nil =>
    intro a
    constructor
    · intro h; cases h
    · intro h; cases h
  | cons item items ih =>
    intro a
    rw [List.foldlM_cons]
    cases henter : enter a item with
    | error e' =>
      obtain ⟨value, hvalue, hlong⟩ := enter_error_iff.1 henter
      constructor
      · intro h
        cases h
        obtain ⟨key, _⟩ := item
        cases hvalue
        exact .here hlong
      · intro h
        cases h with
        | @here key v _ h =>
          have hread : enter a ⟨key, some v⟩ = .error e := enter_error_iff.2 ⟨v, rfl, h⟩
          exact henter.symm.trans hread
        | next h _ => exact absurd hlong (h value hvalue _)
    | ok b =>
      have hnone : ∀ value, item.value = some value → ∀ n, ¬Number.IsOverlong value n := by
        intro value hvalue n hlong
        rw [enter_error_iff.2 ⟨value, hvalue, (hlong : Number.IsOverlong value (⟨n⟩ : Numeral.Overlong).digits)⟩] at henter
        cases henter
      constructor
      · intro h
        exact .next hnone (ih.1 h)
      · intro h
        cases h with
        | here h => exact absurd h (hnone _ rfl _)
        | next _ h => exact ih.2 h

theorem buildAttributes_error_iff {raw : List Char} {fault : Fault} :
    (buildAttributes raw).result = .error fault ↔
      ∃ digits, IsOverlong digits (items raw) ∧ fault = .overlongNumeral digits := by
  have hlong (digits : Nat) : IsOverlong digits (items raw) ↔ read raw = .error ⟨digits⟩ :=
    foldlM_enter_error_iff.symm
  simp only [hlong, buildAttributes]
  cases read raw with
  | error e =>
    obtain ⟨digits⟩ := e
    simp [eq_comm]
  | ok a => simp

end Attributes

/-! ## Constructs -/

/-- A construct with an integer that is too long: to be read, in the value of a property or of an attribute,
or to be shown, in the value of a property. -/
inductive Construct.IsOverlong : Construct → Fault → Prop where
  | numeral {key value digits} (h : Number.IsOverlong value digits) :
      IsOverlong (.prop key value) (.overlongNumeral digits)
  | value {key value} (h : Number.IsHuge value) : IsOverlong (.prop key value) .overlongValue
  | attributes {name attributes block digits} (h : Attributes.IsOverlong digits (Attributes.items attributes)) :
      IsOverlong (.sect name attributes block) (.overlongNumeral digits)
  | openAttributes {attributes opener digits} (h : Attributes.IsOverlong digits (Attributes.items attributes)) :
      IsOverlong (.openSect attributes opener) (.overlongNumeral digits)

theorem Construct.IsOverlong.result {c : Construct} {fault : Fault} (h : c.IsOverlong fault) (rule : ImportRule)
    (before : Nat) : (buildConstruct rule before c).result = .error fault := by
  cases h with
  | numeral h => exact Run.result_bind_of_error (buildProp_error_iff.2 (.inl ⟨_, h, rfl⟩))
  | value h => exact Run.result_bind_of_error (buildProp_error_iff.2 (.inr ⟨h, rfl⟩))
  | attributes h => exact Run.result_bind_of_error (Attributes.buildAttributes_error_iff.2 ⟨_, h, rfl⟩)
  | openAttributes h => exact Run.result_bind_of_error (Attributes.buildAttributes_error_iff.2 ⟨_, h, rfl⟩)

/-- **A construct fails** for its line, for its block, for an integer that is too long, or for its import. -/
theorem Construct.Fails.cases {rule : ImportRule} {before : Nat} {c : Construct} {fault : Fault}
    (h : c.Fails rule before fault) :
    (∃ text, fault = .unknownLine (before + 1) text) ∨ (∃ line opener, fault = .unclosedBlock line opener) ∨
      c.IsOverlong fault ∨ ∃ path deferred, c = .ref path deferred ∧
        (rule (String.ofList path) deferred).result = .error fault := by
  cases h with
  | unknown text => exact .inl ⟨text, rfl⟩
  | openFunc line opener => exact .inr (.inl ⟨_, opener, rfl⟩)
  | openSect attributes opener => exact .inr (.inl ⟨_, opener, rfl⟩)
  | prop h =>
    rcases buildProp_error_iff.1 h with ⟨digits, hlong, rfl⟩ | ⟨hhuge, rfl⟩
    · exact .inr (.inr (.inl (.numeral hlong)))
    · exact .inr (.inr (.inl (.value hhuge)))
  | attributes h =>
    obtain ⟨digits, hlong, rfl⟩ := Attributes.buildAttributes_error_iff.1 h
    exact .inr (.inr (.inl (.attributes hlong)))
  | openAttributes h =>
    obtain ⟨digits, hlong, rfl⟩ := Attributes.buildAttributes_error_iff.1 h
    exact .inr (.inr (.inl (.openAttributes hlong)))
  | ref h => exact .inr (.inr (.inr ⟨_, _, rfl, h⟩))

end DefTree
