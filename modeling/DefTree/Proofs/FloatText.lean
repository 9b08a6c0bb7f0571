/-
The texts of floating-point numbers, read as decimal literals.

A `FloatLayout` sets the digits of a decimal before and after a point, or
after a point and before an exponent. In every layout the text of a finite
number is a well-written literal that is no integer and that is read as the
number.
-/
import DefTree.Json.Token
import DefTree.Proofs.Shortest

namespace DefTree

namespace DecimalLiteral

/-! ## Literals and their texts -/

def fractionText : Option (List Char) → List Char
  | none => []
  | some ds => '.' :: ds

def exponentText : Option (Bool × List Char) → List Char
  | none => []
  | some (negative, ds) => 'e' :: (if negative then '-' else '+') :: ds

/-- The text of a literal, its sign aside. -/
def unsigned (l : DecimalLiteral) : List Char := l.whole ++ (fractionText l.fraction ++ exponentText l.exponent)

/-- The text of a literal, where only a minus sign is written. -/
def text (l : DecimalLiteral) : List Char := if l.negative then '-' :: l.unsigned else l.unsigned

/-- The parts of a literal are digits, and there is one before the point and one in an exponent. -/
structure Plain (l : DecimalLiteral) : Prop where
  whole_ne_nil : l.whole ≠ []
  whole : ∀ c ∈ l.whole, c.isDigit = true
  fraction : ∀ ds, l.fraction = some ds → ∀ c ∈ ds, c.isDigit = true
  exponent_ne_nil : ∀ negative ds, l.exponent = some (negative, ds) → ds ≠ []
  exponent : ∀ negative ds, l.exponent = some (negative, ds) → ∀ c ∈ ds, c.isDigit = true

theorem head_exponentText {e : Option (Bool × List Char)} {c : Char} (h : (exponentText e).head? = some c) :
    c = 'e' := by
  unfold exponentText at h
  split at h
  · cases h
  · exact (Option.some.inj h).symm

theorem head_tail {f : Option (List Char)} {e : Option (Bool × List Char)} {c : Char}
    (h : (fractionText f ++ exponentText e).head? = some c) : c.isDigit = false := by
  cases f with
  | none => rw [head_exponentText h]; decide
  | some ds => rw [← Option.some.inj h]; decide

variable {l : DecimalLiteral}

theorem takeFraction_text (h : l.Plain) :
    takeFraction (fractionText l.fraction ++ exponentText l.exponent) = (l.fraction, exponentText l.exponent) := by
  cases hf : l.fraction with
  | none =>
    cases he : l.exponent with
    | none => rfl
    | some e => rfl
  | some ds =>
    have hrest : ∀ c, (exponentText l.exponent).head? = some c → c.isDigit = false := fun c hc => by
      rw [head_exponentText hc]
      decide
    rw [fractionText, List.cons_append, takeFraction, Text.takeWhile_run (h.fraction ds hf) hrest,
      Text.dropWhile_run (h.fraction ds hf) hrest]

theorem exponent?_text (h : l.Plain) : exponent? (exponentText l.exponent) = some l.exponent := by
  cases he : l.exponent with
  | none => rfl
  | some e =>
    obtain ⟨negative, ds⟩ := e
    have hne : ds.isEmpty = false := by simp [h.exponent_ne_nil negative ds he]
    have hall : ds.all Char.isDigit = true := List.all_eq_true.2 (h.exponent negative ds he)
    cases negative <;> simp [exponentText, exponent?, Numeral.takeSign, hne, hall]

theorem exists_unsigned (h : l.Plain) : ∃ c cs, l.unsigned = c :: cs ∧ c.isDigit = true := by
  obtain ⟨c, cs, hcs⟩ := List.exists_cons_of_ne_nil h.whole_ne_nil
  exact ⟨c, cs ++ _, by rw [unsigned, hcs, List.cons_append], h.whole c (hcs ▸ List.mem_cons_self)⟩

theorem exists_text (h : l.Plain) : ∃ c cs, l.text = c :: cs ∧ (c.isDigit = true ∨ c = '-') := by
  unfold text
  split
  · exact ⟨'-', _, rfl, .inr rfl⟩
  · obtain ⟨c, cs, hcs, hc⟩ := exists_unsigned h
    exact ⟨c, cs, hcs, .inl hc⟩

theorem takeSign_text (h : l.Plain) : Numeral.takeSign l.text = (l.negative, l.unsigned) := by
  unfold text
  cases l.negative with
  | true => rfl
  | false =>
    obtain ⟨c, cs, hcs, hc⟩ := exists_unsigned h
    have h₁ := Numeral.ne_of_isDigit hc (show '+'.isDigit = false by decide)
    have h₂ := Numeral.ne_of_isDigit hc (show '-'.isDigit = false by decide)
    rw [hcs]
    simp [Numeral.takeSign, h₁, h₂]

/-- **A literal is read back from its text.** -/
theorem read?_text (h : l.Plain) : read? l.text = some l := by
  have hrest (c : Char) := head_tail (c := c) (f := l.fraction) (e := l.exponent)
  have hne : l.whole.isEmpty = false := by simp [h.whole_ne_nil]
  unfold read?
  rw [takeSign_text h]
  dsimp only
  rw [unsigned, Text.takeWhile_run h.whole hrest, Text.dropWhile_run h.whole hrest, takeFraction_text h]
  simp [hne, exponent?_text h]

theorem mem_text (h : l.Plain) {c : Char} (hc : c ∈ l.text) :
    c.isDigit = true ∨ c = '-' ∨ c = '+' ∨ c = '.' ∨ c = 'e' := by
  have hunsigned (hc : c ∈ l.unsigned) : c.isDigit = true ∨ c = '-' ∨ c = '+' ∨ c = '.' ∨ c = 'e' := by
    rcases List.mem_append.1 hc with hc | hc
    · exact .inl (h.whole c hc)
    rcases List.mem_append.1 hc with hc | hc
    · cases hf : l.fraction with
      | none => rw [hf] at hc; cases hc
      | some ds =>
        rw [hf] at hc
        rcases List.mem_cons.1 hc with rfl | hc
        · simp
        · exact .inl (h.fraction ds hf c hc)
    · cases he : l.exponent with
      | none => rw [he] at hc; cases hc
      | some e =>
        obtain ⟨negative, ds⟩ := e
        rw [he] at hc
        rcases List.mem_cons.1 hc with rfl | hc
        · simp
        rcases List.mem_cons.1 hc with rfl | hc
        · cases negative <;> simp
        · exact .inl (h.exponent negative ds he c hc)
  unfold text at hc
  split at hc
  · rcases List.mem_cons.1 hc with rfl | hc
    · simp
    · exact hunsigned hc
  · exact hunsigned hc

/-! ## Literals that stand for decimals -/

theorem wellWritten_iff : Json.Token.wellWritten l = true ↔
    l.whole ≠ [] ∧ (l.whole = ['0'] ∨ l.whole.head? ≠ some '0') ∧ l.fraction ≠ some [] := by
  simp [Json.Token.wellWritten, and_assoc]

/-- A literal that stands for a decimal and shows that it is no integer. -/
structure Renders (l : DecimalLiteral) (d : Decimal) : Prop where
  plain : l.Plain
  wellWritten : Json.Token.wellWritten l = true
  isInteger : l.isInteger = false
  toFloat : l.toFloat = Binary64.ofDecimal l.negative d.digits d.exponent

theorem isDigit_of_mem_zeros {k : Nat} {c : Char} (h : c ∈ List.replicate k '0') : c.isDigit = true := by
  rw [(List.mem_replicate.1 h).2]
  decide

theorem isDigit_of_mem_padded {k n : Nat} {c : Char} (h : c ∈ List.replicate k '0' ++ Numeral.decimal n) :
    c.isDigit = true :=
  (List.mem_append.1 h).elim isDigit_of_mem_zeros Numeral.isDigit_of_mem_decimal

theorem value_padded (k n : Nat) : Numeral.value 10 (List.replicate k '0' ++ Numeral.decimal n) = n := by
  rw [Numeral.value_append, Numeral.value_zeros, Nat.zero_mul, Nat.zero_add, Numeral.value_decimal]

namespace Renders

variable {negative : Bool} {digits : Nat}

/-- All digits before the point. -/
theorem whole (negative : Bool) {k : Nat} (h : digits = 0 → k = 0) :
    Renders ⟨negative, Numeral.decimal digits ++ List.replicate k '0', some ['0'], none⟩ ⟨digits, k⟩ where
  plain := {
    whole_ne_nil := by simp [Numeral.decimal_ne_nil]
    whole := fun c hc => (List.mem_append.1 hc).elim Numeral.isDigit_of_mem_decimal isDigit_of_mem_zeros
    fraction := by
      rintro ds ⟨⟩ c hc
      rw [List.mem_singleton.1 hc]
      decide
    exponent_ne_nil := by rintro _ _ ⟨⟩
    exponent := by rintro _ _ ⟨⟩ }
  wellWritten := by
    refine wellWritten_iff.2 ⟨by simp [Numeral.decimal_ne_nil], ?_, by simp⟩
    by_cases hd : digits = 0
    · rw [h hd, hd]
      exact .inl rfl
    · refine .inr ?_
      show (Numeral.decimal digits ++ _).head? ≠ _
      rw [List.head?_append_of_ne_nil _ (Numeral.decimal_ne_nil _)]
      exact Numeral.head_decimal_ne hd
  isInteger := rfl
  toFloat := by
    have hzero : List.replicate k '0' ++ ['0'] = List.replicate (k + 1) '0' := List.replicate_succ'.symm
    have hvalue : Numeral.value 10 (Numeral.decimal digits ++ List.replicate k '0' ++ ['0']) =
        digits * 10 ^ (k + 1) := by
      rw [List.append_assoc, hzero, Numeral.value_append, Numeral.value_zeros, Numeral.value_decimal,
        List.length_replicate, Nat.add_zero]
    simp only [DecimalLiteral.toFloat, Option.getD_some, hvalue, Binary64.ofDecimal_mul_pow, List.length_singleton]
    congr 1
    omega

theorem take_decimal_ne_nil {n : Nat} (hn : 0 < n) : (Numeral.decimal digits).take n ≠ [] := by
  intro h
  rcases List.take_eq_nil_iff.1 h with h | h
  · omega
  · exact Numeral.decimal_ne_nil _ h

/-- Digits on both sides of the point. -/
theorem split (negative : Bool) {n : Nat} (hn : 0 < n) (hlt : n < (Numeral.decimal digits).length) :
    Renders ⟨negative, (Numeral.decimal digits).take n, some ((Numeral.decimal digits).drop n), none⟩
      ⟨digits, n - (Numeral.decimal digits).length⟩ where
  plain := {
    whole_ne_nil := take_decimal_ne_nil hn
    whole := fun c hc => Numeral.isDigit_of_mem_decimal (List.mem_of_mem_take hc)
    fraction := by
      rintro ds ⟨⟩ c hc
      exact Numeral.isDigit_of_mem_decimal (List.mem_of_mem_drop hc)
    exponent_ne_nil := by rintro _ _ ⟨⟩
    exponent := by rintro _ _ ⟨⟩ }
  wellWritten := by
    have hd : digits ≠ 0 := by
      rintro rfl
      have : (Numeral.decimal 0).length = 1 := rfl
      omega
    refine wellWritten_iff.2 ⟨take_decimal_ne_nil hn, .inr ?_, ?_⟩
    · show ((Numeral.decimal digits).take n).head? ≠ _
      rw [List.head?_take, if_neg (by omega)]
      exact Numeral.head_decimal_ne hd
    · simp only [ne_eq, Option.some.injEq, List.drop_eq_nil_iff]
      omega
  isInteger := rfl
  toFloat := by
    simp only [DecimalLiteral.toFloat, Option.getD_some, List.take_append_drop, Numeral.value_decimal, List.length_drop]
    congr 1
    omega

/-- All digits behind the point, after zeros. -/
theorem below (negative : Bool) (digits k : Nat) :
    Renders ⟨negative, ['0'], some (List.replicate k '0' ++ Numeral.decimal digits), none⟩
      ⟨digits, -(k + (Numeral.decimal digits).length)⟩ where
  plain := {
    whole_ne_nil := by simp
    whole := fun c hc => by
      rw [List.mem_singleton.1 hc]
      decide
    fraction := by
      rintro ds ⟨⟩ c hc
      exact isDigit_of_mem_padded hc
    exponent_ne_nil := by rintro _ _ ⟨⟩
    exponent := by rintro _ _ ⟨⟩ }
  wellWritten := wellWritten_iff.2 ⟨by simp, .inl rfl, by simp [Numeral.decimal_ne_nil]⟩
  isInteger := rfl
  toFloat := by
    have hvalue : Numeral.value 10 (['0'] ++ (List.replicate k '0' ++ Numeral.decimal digits)) = digits := by
      exact value_padded (k + 1) digits
    simp only [DecimalLiteral.toFloat, Option.getD_some, hvalue, List.length_append, List.length_replicate]
    congr 1
    omega

/-- One digit before the point, the others behind it, and an exponent. -/
theorem scientific (negative : Bool) {c : Char} {rest : List Char} (h : Numeral.decimal digits = c :: rest)
    (width : Nat) (first : Int) :
    Renders ⟨negative, [c], if rest = [] then none else some rest, some (decide (first < 0),
        List.replicate (width - (Numeral.decimal first.natAbs).length) '0' ++ Numeral.decimal first.natAbs)⟩
      ⟨digits, first - rest.length⟩ where
  plain := {
    whole_ne_nil := by simp
    whole := fun d hd => by
      rw [List.mem_singleton.1 hd]
      exact Numeral.isDigit_of_mem_decimal (h ▸ List.mem_cons_self)
    fraction := by
      intro ds hds d hd
      obtain ⟨-, heq⟩ := Option.ite_none_left_eq_some.1 hds
      cases heq
      exact Numeral.isDigit_of_mem_decimal (h ▸ List.mem_cons_of_mem _ hd)
    exponent_ne_nil := by
      rintro _ _ ⟨⟩
      simp [Numeral.decimal_ne_nil]
    exponent := by
      rintro _ _ ⟨⟩ d hd
      exact isDigit_of_mem_padded hd }
  wellWritten := by
    refine wellWritten_iff.2 ⟨by simp, ?_, ?_⟩
    · by_cases hc : c = '0'
      · exact .inl (by rw [hc])
      · exact .inr (by simp [hc])
    · split
      · simp
      · next hne => simp [hne]
  isInteger := by simp [DecimalLiteral.isInteger]
  toFloat := by
    have hfraction : (if rest = [] then none else some rest).getD [] = rest := by
      split
      · next hnil => exact hnil.symm
      · rfl
    have hvalue : Numeral.value 10 (c :: rest) = digits := by rw [← h, Numeral.value_decimal]
    simp only [DecimalLiteral.toFloat, hfraction, List.singleton_append, hvalue, value_padded, Numeral.withSign_natAbs]

end Renders

end DecimalLiteral

namespace FloatLayout

theorem digits_shortest_eq_zero {m p : Nat} {valid : Binary64.Valid m p}
    (h : (Decimal.shortest m p valid).digits = 0) : (Decimal.shortest m p valid).exponent = 0 := by
  have hread := Decimal.ofDecimal_shortest false valid
  rw [h, Binary64.ofDecimal, if_pos (.inl rfl), Binary64.zero] at hread
  obtain ⟨-, rfl, -⟩ := Binary64.finite.inj hread
  rfl

theorem exists_positional (negative : Bool) {d : Decimal} (hd : d.digits = 0 → d.exponent = 0) :
    ∃ l, l.negative = negative ∧ DecimalLiteral.Renders l d ∧ l.unsigned =
      positional (Numeral.decimal d.digits) ((Numeral.decimal d.digits).length - 1 + d.exponent) := by
  obtain ⟨digits, exponent⟩ := d
  have hlen : 0 < (Numeral.decimal digits).length := List.length_pos_iff.2 (Numeral.decimal_ne_nil _)
  dsimp only at hd ⊢
  generalize hfirst : ((Numeral.decimal digits).length : Int) - 1 + exponent = first
  unfold positional
  -- all digits before the point, digits on both sides of it, or all behind it
  by_cases hneg : 0 ≤ first
  · rw [if_pos hneg]
    by_cases hshort : (Numeral.decimal digits).length ≤ first.toNat + 1
    · obtain ⟨k, rfl⟩ := Int.eq_ofNat_of_zero_le (show 0 ≤ exponent by omega)
      refine ⟨_, rfl, .whole negative fun h => Int.ofNat_eq_zero.1 (hd h), ?_⟩
      have hk : first.toNat + 1 - (Numeral.decimal digits).length = k := by omega
      dsimp only
      rw [List.take_of_length_le hshort, List.drop_eq_nil_of_le hshort, hk]
      simp [DecimalLiteral.unsigned, DecimalLiteral.fractionText, DecimalLiteral.exponentText]
    · have hn := DecimalLiteral.Renders.split negative (Nat.succ_pos first.toNat) (Nat.not_le.1 hshort)
      have hexp : ((first.toNat + 1 : Nat) : Int) - (Numeral.decimal digits).length = exponent := by omega
      rw [hexp] at hn
      refine ⟨_, rfl, hn, ?_⟩
      have hdrop : ((Numeral.decimal digits).drop (first.toNat + 1)).isEmpty = false := by
        simp only [List.isEmpty_eq_false_iff, ne_eq, List.drop_eq_nil_iff]
        omega
      have hpad : first.toNat + 1 - (Numeral.decimal digits).length = 0 := by omega
      simp [DecimalLiteral.unsigned, DecimalLiteral.fractionText, DecimalLiteral.exponentText, hdrop, hpad]
  · rw [if_neg hneg]
    have hbelow := DecimalLiteral.Renders.below negative digits ((-first).toNat - 1)
    have hexp : -((((-first).toNat - 1 : Nat) : Int) + (Numeral.decimal digits).length) = exponent := by omega
    rw [hexp] at hbelow
    exact ⟨_, rfl, hbelow, by
      simp [DecimalLiteral.unsigned, DecimalLiteral.fractionText, DecimalLiteral.exponentText]⟩

theorem exists_scientific (negative : Bool) (width : Nat) (d : Decimal) :
    ∃ l, l.negative = negative ∧ DecimalLiteral.Renders l d ∧ l.unsigned =
      scientific width (Numeral.decimal d.digits) ((Numeral.decimal d.digits).length - 1 + d.exponent) := by
  obtain ⟨digits, exponent⟩ := d
  obtain ⟨c, rest, hds⟩ := List.exists_cons_of_ne_nil (Numeral.decimal_ne_nil digits)
  have hexp : (((c :: rest).length : Int) - 1 + exponent) - rest.length = exponent := by
    rw [List.length_cons]
    omega
  have hsci := DecimalLiteral.Renders.scientific negative hds width (((c :: rest).length : Int) - 1 + exponent)
  rw [hexp] at hsci
  dsimp only
  rw [hds]
  refine ⟨_, rfl, hsci, ?_⟩
  cases rest <;>
    simp [DecimalLiteral.unsigned, DecimalLiteral.fractionText, DecimalLiteral.exponentText, scientific]

/-- **The text of a finite number is a literal of the number**, in every layout. -/
theorem exists_write (layout : FloatLayout) (negative : Bool) {m p : Nat} (valid : Binary64.Valid m p) :
    ∃ l : DecimalLiteral, l.text = layout.write (.finite negative m p valid) ∧ l.Plain ∧
      Json.Token.wellWritten l = true ∧ l.isInteger = false ∧ l.toFloat = .finite negative m p valid := by
  let d := Decimal.shortest m p valid
  let ds := Numeral.decimal d.digits
  let first : Int := ds.length - 1 + d.exponent
  obtain ⟨l, hneg, hl, htext⟩ : ∃ l, l.negative = negative ∧ DecimalLiteral.Renders l d ∧ l.unsigned =
      if layout.least ≤ first ∧ first ≤ layout.greatest then positional ds first
      else scientific layout.exponentWidth ds first := by
    split
    · exact exists_positional negative digits_shortest_eq_zero
    · exact exists_scientific negative layout.exponentWidth d
  refine ⟨l, ?_, hl.plain, hl.wellWritten, hl.isInteger, ?_⟩
  · rw [DecimalLiteral.text, hneg, htext, write]
  · rw [hl.toFloat, hneg, Decimal.ofDecimal_shortest]

end FloatLayout

end DefTree
