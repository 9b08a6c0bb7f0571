/-
Integers read back from their decimal text.

`Numeral.signed` writes an integer and `Number.read?` reads it, as long as
it has no more digits than `Numeral.digitLimit`.
-/
import DefTree.Number
import DefTree.Proofs.Text
import Mathlib.Algebra.Group.Nat.Defs
import Mathlib.Data.List.Induction

namespace DefTree

namespace Numeral

theorem digit?_of_isDigit {c : Char} (h : c.isDigit = true) : digit? 10 c = some (c.toNat - 0x30) := by
  obtain ⟨h₁, h₂⟩ := Char.isDigit_iff_toNat.1 h
  have h₁' : 0x30 ≤ c.toNat := h₁
  have h₂' : c.toNat ≤ 0x39 := h₂
  have hlt : c.toNat - 0x30 < 10 := by omega
  simp [digit?, h₁', h₂', hlt]

theorem value_of_isDigit {ds : List Char} (h : ∀ c ∈ ds, c.isDigit = true) :
    value 10 ds = Nat.ofDigitChars 10 ds 0 := by
  rw [value, Nat.ofDigitChars_eq_foldl]
  refine List.foldl_ext _ _ 0 fun n c hc => ?_
  rw [digit?_of_isDigit (h c hc), Nat.mul_comm]
  rfl

theorem isDigit_of_mem_decimal {n : Nat} {c : Char} (h : c ∈ decimal n) : c.isDigit = true :=
  Nat.isDigit_of_mem_toDigits (by decide) (by decide) h

theorem decimal_ne_nil (n : Nat) : decimal n ≠ [] := Nat.toDigits_ne_nil

theorem value_decimal (n : Nat) : value 10 (decimal n) = n := by
  rw [value_of_isDigit fun _ => isDigit_of_mem_decimal]
  exact Nat.ofDigitChars_ten_toDigits

theorem value_concat (ds : List Char) (c : Char) :
    value 10 (ds ++ [c]) = value 10 ds * 10 + (digit? 10 c).getD 0 := by simp [value]

theorem value_append (ds es : List Char) : value 10 (ds ++ es) = value 10 ds * 10 ^ es.length + value 10 es := by
  induction es using List.reverseRecOn with
  | nil => simp [value]
  | append_singleton es c ih =>
    rw [← List.append_assoc, value_concat, ih, value_concat, List.length_append, List.length_singleton,
      Nat.pow_succ, Nat.add_mul, Nat.mul_assoc, Nat.add_assoc]

theorem value_zeros (k : Nat) : value 10 (List.replicate k '0') = 0 := by
  induction k with
  | zero => rfl
  | succ k ih =>
    rw [List.replicate_succ', value_concat, ih]
    rfl

theorem value_lt {ds : List Char} (h : ∀ c ∈ ds, c.isDigit = true) : value 10 ds < 10 ^ ds.length := by
  induction ds using List.reverseRecOn with
  | nil => decide
  | append_singleton ds c ih =>
    have hds := ih fun d hd => h d (List.mem_append_left _ hd)
    have hc := digit?_of_isDigit (h c (by simp))
    have hlt : c.toNat - 0x30 < 10 := by
      have : c.toNat ≤ 0x39 := (Char.isDigit_iff_toNat.1 (h c (by simp))).2
      omega
    rw [value_concat, hc, Option.getD_some, List.length_append, List.length_singleton, Nat.pow_succ]
    omega

/-- A number has at most as many digits as a text of it. -/
theorem length_decimal_value_le {ds : List Char} (hne : ds ≠ []) (h : ∀ c ∈ ds, c.isDigit = true) :
    (decimal (value 10 ds)).length ≤ ds.length :=
  (Nat.length_toDigits_le_iff (by decide) (List.length_pos_iff.2 hne)).2 (value_lt h)

theorem head_decimal_ne {n : Nat} (hn : n ≠ 0) : (decimal n).head? ≠ some '0' := by
  intro h
  obtain ⟨ds, hds⟩ := List.head?_eq_some_iff.1 h
  have hvalue : value 10 ds = n := by
    rw [← value_decimal n, hds]
    rfl
  have hdigit : ∀ c ∈ ds, c.isDigit = true := fun c hc => isDigit_of_mem_decimal (hds ▸ List.mem_cons_of_mem _ hc)
  have hne : ds ≠ [] := by
    rintro rfl
    exact hn hvalue.symm
  have hle := length_decimal_value_le hne hdigit
  rw [hvalue, hds, List.length_cons] at hle
  omega

theorem ne_of_isDigit {c d : Char} (h : c.isDigit = true) (hd : d.isDigit = false) : c ≠ d := by
  rintro rfl
  rw [h] at hd
  cases hd

/-! ## Signs -/

theorem takeSign_signed (n : Int) : takeSign (signed n) = (decide (n < 0), decimal n.natAbs) := by
  cases n with
  | ofNat n =>
    obtain ⟨c, cs, hcs⟩ := List.exists_cons_of_ne_nil (decimal_ne_nil n)
    have hc : c.isDigit = true := isDigit_of_mem_decimal (hcs ▸ List.mem_cons_self)
    have h₁ := ne_of_isDigit hc (show '+'.isDigit = false by decide)
    have h₂ := ne_of_isDigit hc (show '-'.isDigit = false by decide)
    show takeSign (decimal n) = (_, decimal n)
    rw [hcs]
    simp [takeSign, h₁, h₂]
  | negSucc n => simp [signed, takeSign]

theorem isDigit_of_mem_signed {n : Int} {c : Char} (h : c ∈ signed n) : c.isDigit = true ∨ c = '-' := by
  cases n with
  | ofNat n => exact .inl (isDigit_of_mem_decimal h)
  | negSucc n =>
    rcases List.mem_cons.1 h with h | h
    · exact .inr h
    · exact .inl (isDigit_of_mem_decimal h)

theorem signed_ne_nil (n : Int) : signed n ≠ [] := by
  cases n with
  | ofNat n => exact decimal_ne_nil n
  | negSucc n => exact List.cons_ne_nil _ _

theorem withSign_natAbs (n : Int) : withSign (decide (n < 0)) n.natAbs = n := by
  by_cases h : n < 0
  · simp only [withSign, h, decide_true, if_true]; omega
  · simp only [withSign, h, decide_false, Bool.false_eq_true, if_false]; omega

end Numeral

theorem Text.isBlank_of_isDigit {c : Char} (h : c.isDigit = true) : Text.isBlank c = false := by
  obtain ⟨h₁, h₂⟩ := Char.isDigit_iff_toNat.1 h
  have h₁' : 0x30 ≤ c.toNat := h₁
  have h₂' : c.toNat ≤ 0x39 := h₂
  simp only [Text.isBlank, Bool.or_eq_false_iff, Bool.and_eq_false_iff, decide_eq_false_iff_not,
    beq_eq_false_iff_ne]
  omega

theorem Numeral.isBlank_of_mem_signed {n : Int} {c : Char} (h : c ∈ signed n) : Text.isBlank c = false := by
  rcases isDigit_of_mem_signed h with h | rfl
  · exact Text.isBlank_of_isDigit h
  · decide

theorem DecimalLiteral.read?_signed (n : Int) :
    read? (Numeral.signed n) = some ⟨decide (n < 0), Numeral.decimal n.natAbs, none, none⟩ := by
  have hdigits : ∀ c ∈ Numeral.decimal n.natAbs, c.isDigit = true := fun _ => Numeral.isDigit_of_mem_decimal
  have htake : (Numeral.decimal n.natAbs).takeWhile Char.isDigit = Numeral.decimal n.natAbs :=
    List.takeWhile_eq_self_iff.2 hdigits
  have hdrop : (Numeral.decimal n.natAbs).dropWhile Char.isDigit = [] := List.dropWhile_eq_nil_iff.2 hdigits
  have hne : (Numeral.decimal n.natAbs).isEmpty = false := by simp [Numeral.decimal_ne_nil]
  simp [read?, Numeral.takeSign_signed, htake, hdrop, takeFraction, exponent?, hne]

namespace Number

theorem radix?_signed (n : Int) : radix? (Numeral.signed n) = none := by
  unfold radix?
  split
  · next c ds h =>
    have hc : c ∈ Numeral.signed n := h ▸ List.mem_cons_of_mem _ List.mem_cons_self
    rw [base?, if_neg, if_neg, if_neg, Option.bind_none]
    all_goals
      rintro (rfl | rfl) <;> exact absurd (Numeral.isDigit_of_mem_signed hc) (by decide)
  · rfl

theorem infinity?_signed (n : Int) : infinity? (Numeral.signed n) = none := by
  rw [infinity?, Numeral.takeSign_signed]
  refine if_neg fun h => ?_
  have : 'I' ∈ Numeral.decimal n.natAbs := by rw [h]; decide
  exact absurd (Numeral.isDigit_of_mem_decimal this) (by decide)

/-- **An integer is read back from its text**, if it is not too long. -/
theorem read?_signed {n : Int} (h : (Numeral.decimal n.natAbs).length ≤ Numeral.digitLimit) :
    read? (Numeral.signed n) = .ok (some (.integer n)) := by
  have htight : Text.Tight (Numeral.signed n) := .of_forall fun _ => Numeral.isBlank_of_mem_signed
  have hne : (Numeral.signed n).isEmpty = false := by simp [Numeral.signed_ne_nil]
  simp only [read?, htight.trim_eq, hne, radix?_signed, infinity?_signed, DecimalLiteral.read?_signed,
    DecimalLiteral.isInteger, Option.isNone_none, Bool.and_self, Bool.not_true, Bool.false_eq_true,
    if_false, if_neg (Nat.not_lt.2 h), Numeral.value_decimal, Numeral.withSign_natAbs]

end Number

end DefTree
