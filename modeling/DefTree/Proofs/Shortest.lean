/-
The shortest decimal of a floating-point number reads back as the number.

`Decimal.shortest` tries decimals of growing length and takes only what reads
back; where none does it would take the exact expansion of the number, which
is read back as well because a number is its own rounding. Trailing zeros do
not matter: what a decimal is read as depends on its value alone.
-/
import DefTree.Decimal
import DefTree.Proofs.Number
import Mathlib.Tactic.Ring

namespace DefTree

namespace Binary64

/-- A number with another sign. -/
def withSign (negative : Bool) : Binary64 → Binary64
  | .finite _ m p valid => .finite negative m p valid
  | .infinite _ => .infinite negative

/-! ## Signs -/

theorem ofParts_sign (negative : Bool) (m p : Nat) : ofParts negative m p = (ofParts false m p).withSign negative := by
  unfold ofParts
  generalize (if m = Nat.pow 2 53 then (Nat.pow 2 52, p + 1) else (m, p)) = parts
  dsimp only
  split
  · rfl
  · rfl

theorem ofRatio_sign (negative : Bool) (num den : Nat) :
    ofRatio negative num den = (ofRatio false num den).withSign negative := by
  unfold ofRatio
  exact ofParts_sign ..

theorem ofDecimal_sign (negative : Bool) (digits : Nat) (exponent : Int) :
    ofDecimal negative digits exponent = (ofDecimal false digits exponent).withSign negative := by
  unfold ofDecimal
  dsimp only
  split
  · rfl
  split
  · rfl
  · exact ofRatio_sign ..

/-! ## Ratios -/

theorem nearest_mul {k : Nat} (hk : 0 < k) (num den : Nat) : nearest (k * num) (k * den) = nearest num den := by
  unfold nearest
  rw [Nat.mul_div_mul_left _ _ hk, Nat.mul_mod_mul_left]
  have hdouble : 2 * (k * (num % den)) = k * (2 * (num % den)) := Nat.mul_left_comm ..
  simp only [hdouble, Nat.mul_lt_mul_left hk, Nat.mul_right_inj (Nat.ne_of_gt hk)]

/-- What a ratio is read as depends on its value alone. -/
theorem ofRatio_mul {k : Nat} (hk : 0 < k) (negative : Bool) (num den : Nat) :
    ofRatio negative (k * num) (k * den) = ofRatio negative num den := by
  unfold ofRatio
  generalize Nat.pow 2 1074 = unit
  dsimp only
  rw [Nat.mul_assoc, Nat.mul_div_mul_left _ _ hk, Nat.mul_assoc, nearest_mul hk]

theorem nearest_exact {num den : Nat} (hden : 0 < den) : nearest (num * den) den = num := by
  unfold nearest
  rw [Nat.mul_div_cancel _ hden, Nat.mul_mod_left]
  exact if_neg (by omega)

theorem ofParts_of_valid {m p : Nat} (valid : Valid m p) : ofParts false m p = .finite false m p valid := by
  unfold ofParts
  have hlt := valid.lt
  rw [if_neg (by omega)]
  exact dif_pos valid

/-- The unit of a number is found from its magnitude. -/
theorem log2_of_valid {m p : Nat} (valid : Valid m p) (hm : m ≠ 0) : (m * Nat.pow 2 p).log2 + 1 - 53 = p := by
  have hlt : m < 2 ^ 53 := valid.lt
  rcases valid.norm with hnorm | rfl
  · have hlow : 2 ^ 52 ≤ m := hnorm
    have hpow : 0 < 2 ^ p := Nat.two_pow_pos p
    have hlog : (m * 2 ^ p).log2 = 52 + p := by
      refine (Nat.log2_eq_iff (Nat.mul_ne_zero hm (Nat.ne_of_gt hpow))).2 ⟨?_, ?_⟩
      · rw [Nat.pow_add]
        exact Nat.mul_le_mul_right _ hlow
      · rw [show 52 + p + 1 = 53 + p by omega, Nat.pow_add]
        exact Nat.mul_lt_mul_of_pos_right hlt hpow
    rw [Nat.pow_eq, hlog]
    omega
  · have hlog : m.log2 < 53 := (Nat.log2_lt hm).2 hlt
    have hone : m * Nat.pow 2 0 = m := Nat.mul_one m
    rw [hone]
    omega

/-- A number is its own rounding. -/
theorem ofRatio_exact {m p num den k : Nat} (valid : Valid m p) (hm : m ≠ 0) (hden : 0 < den)
    (hk : k = 1074) (h : num * Nat.pow 2 k = m * Nat.pow 2 p * den) :
    ofRatio false num den = .finite false m p valid := by
  unfold ofRatio
  rw [← hk, h]
  dsimp only
  rw [Nat.mul_div_cancel _ hden, log2_of_valid valid hm]
  have hscale : m * Nat.pow 2 p * den = m * (den * Nat.pow 2 p) := by
    rw [Nat.mul_assoc, Nat.mul_comm den]
  have hpos : 0 < den * Nat.pow 2 p := Nat.mul_pos hden (Nat.two_pow_pos p)
  rw [hscale, nearest_exact hpos, ofParts_of_valid valid]

/-! ## Decimals -/

theorem decimal_mul_ten {n : Nat} (hn : n ≠ 0) : Numeral.decimal (10 * n) = Numeral.decimal n ++ ['0'] :=
  (Nat.toDigits_append_toDigits (by decide) (Nat.pos_of_ne_zero hn) (by decide : 0 < 10)).symm

/-- A zero at the end of the digits counts for one in the exponent. -/
theorem ofDecimal_mul_ten (negative : Bool) (digits : Nat) (exponent : Int) :
    ofDecimal negative (10 * digits) exponent = ofDecimal negative digits (exponent + 1) := by
  by_cases hd : digits = 0
  · simp [ofDecimal, hd]
  have hsize : ((Numeral.decimal (10 * digits)).length : Int) + exponent =
      (Numeral.decimal digits).length + (exponent + 1) := by
    rw [decimal_mul_ten hd, List.length_append, List.length_singleton]
    omega
  have hratio : ofRatio negative (10 * digits * Nat.pow 10 exponent.toNat) (Nat.pow 10 (-exponent).toNat) =
      ofRatio negative (digits * Nat.pow 10 (exponent + 1).toNat) (Nat.pow 10 (-(exponent + 1)).toNat) := by
    by_cases he : exponent < 0
    · have h₁ : exponent.toNat = 0 := by omega
      have h₂ : (exponent + 1).toNat = 0 := by omega
      have h₃ : (-exponent).toNat = (-(exponent + 1)).toNat + 1 := by omega
      rw [h₁, h₂, h₃, Nat.mul_assoc]
      have hpow (k : Nat) : Nat.pow 10 (k + 1) = 10 * Nat.pow 10 k := Nat.mul_comm ..
      rw [hpow, ofRatio_mul (by decide)]
    · have h₁ : (exponent + 1).toNat = exponent.toNat + 1 := by omega
      have h₂ : (-exponent).toNat = 0 := by omega
      have h₃ : (-(exponent + 1)).toNat = 0 := by omega
      have hpow (k : Nat) : digits * Nat.pow 10 (k + 1) = 10 * digits * Nat.pow 10 k := by
        rw [Nat.pow_eq, Nat.pow_succ, Nat.pow_eq]
        ring
      rw [h₁, h₂, h₃, hpow]
  have hne : 10 * digits ≠ 0 := by omega
  simp only [ofDecimal, hsize, hratio, hd, hne, false_or]

theorem ofDecimal_mul_pow (negative : Bool) (digits k : Nat) (exponent : Int) :
    ofDecimal negative (digits * 10 ^ k) exponent = ofDecimal negative digits (exponent + k) := by
  induction k generalizing exponent with
  | zero => simp
  | succ k ih =>
    have hpow : digits * 10 ^ (k + 1) = 10 * (digits * 10 ^ k) := by
      rw [Nat.pow_succ]
      ring
    rw [hpow, ofDecimal_mul_ten, ih]
    congr 1
    omega

theorem length_decimal_le_iff {n k : Nat} (hk : 0 < k) : (Numeral.decimal n).length ≤ k ↔ n < 10 ^ k :=
  Nat.length_toDigits_le_iff (by decide) hk

theorem pow_ten (k : Nat) : Nat.pow 10 k = Nat.pow 5 k * Nat.pow 2 k := Nat.mul_pow 5 2 k

theorem magnitude_le {m p a b : Nat} (hm : m < 2 ^ a) (hp : p ≤ b) : m * 2 ^ p ≤ 2 ^ a * 2 ^ b :=
  Nat.mul_le_mul (Nat.le_of_lt hm) (Nat.pow_le_pow_right (by decide) hp)

variable {m p digits : Nat}

/-- The exact expansion of a number has from 744 to 1384 digits. -/
theorem length_decimal_expansion (valid : Valid m p) (hm : m ≠ 0)
    (hdigits : digits = m * Nat.pow 2 p * Nat.pow 5 1074) :
    744 ≤ (Numeral.decimal digits).length ∧ (Numeral.decimal digits).length ≤ 1384 := by
  have hpos : 0 < m * Nat.pow 2 p := Nat.mul_pos (Nat.pos_of_ne_zero hm) (Nat.two_pow_pos p)
  have hfive : 10 ^ 743 ≤ Nat.pow 5 1074 := by decide +kernel
  have hten : 2 ^ 53 * 2 ^ 2045 * Nat.pow 5 1074 < 10 ^ 1384 := by decide +kernel
  have hm' : m * Nat.pow 2 p ≤ 2 ^ 53 * 2 ^ 2045 := magnitude_le valid.lt valid.le
  generalize Nat.pow 5 1074 = five at *
  constructor
  · have hlow : 10 ^ 743 ≤ digits := hdigits ▸ Nat.le_trans hfive (Nat.le_mul_of_pos_left _ hpos)
    refine Nat.lt_of_not_le fun h => Nat.not_lt.2 hlow ?_
    exact (length_decimal_le_iff (by decide)).1 h
  · have hhigh : digits < 10 ^ 1384 := hdigits ▸ Nat.lt_of_le_of_lt (Nat.mul_le_mul_right _ hm') hten
    exact (length_decimal_le_iff (by decide)).2 hhigh

theorem ofDecimal_expansion (valid : Valid m p) (hm : m ≠ 0)
    (hdigits : digits = m * Nat.pow 2 p * Nat.pow 5 1074) :
    ofDecimal false digits (-1074) = .finite false m p valid := by
  obtain ⟨hlow, hhigh⟩ := length_decimal_expansion valid hm hdigits
  have hround {k : Nat} (hk : k = 1074) (hd : digits = m * Nat.pow 2 p * Nat.pow 5 k) :
      ofRatio false (digits * Nat.pow 10 0) (Nat.pow 10 k) = .finite false m p valid := by
    refine ofRatio_exact valid hm (Nat.pow_pos (by decide)) hk ?_
    have hone : Nat.pow 10 0 = 1 := rfl
    rw [hd, pow_ten k, hone, Nat.mul_one, Nat.mul_assoc]
  have hne : digits ≠ 0 := by
    rintro rfl
    exact absurd hlow (by decide)
  -- neither too long nor too short to be rounded
  unfold ofDecimal
  dsimp only
  rw [if_neg (by omega), if_neg (by omega)]
  exact hround rfl hdigits

end Binary64

namespace Decimal

theorem ofDecimal_reduced (negative : Bool) (d : Decimal) :
    Binary64.ofDecimal negative d.reduced.digits d.reduced.exponent =
      Binary64.ofDecimal negative d.digits d.exponent := by
  fun_induction reduced d with
  | case1 d h ih =>
    rw [ih]
    have hdigits : d.digits = 10 * (d.digits / 10) := by omega
    conv_rhs => rw [hdigits, Binary64.ofDecimal_mul_ten]
  | case2 d h => rfl

theorem around?_readsBack {num den : Nat} {readsBack : Decimal → Bool} {scale : Int} {d : Decimal}
    (h : around? num den readsBack scale = some d) : readsBack d = true := by
  unfold around? at h
  dsimp only at h
  split at h
  · cases h
  · next hb _ => cases h; exact hb
  · next _ ha => cases h; exact ha
  · next hb ha =>
    cases h
    split
    · exact hb
    · exact ha

/-- **The shortest decimal of a number is read back as the number.** -/
theorem ofDecimal_shortest (negative : Bool) {m p : Nat} (valid : Binary64.Valid m p) :
    Binary64.ofDecimal negative (shortest m p valid).digits (shortest m p valid).exponent =
      .finite negative m p valid := by
  rw [Binary64.ofDecimal_sign]
  suffices h : Binary64.ofDecimal false (shortest m p valid).digits (shortest m p valid).exponent =
      .finite false m p valid by rw [h]; rfl
  unfold shortest
  split
  · next hm =>
    have hp : p = 0 := valid.norm.resolve_left (by rw [hm]; decide)
    subst hm hp
    rfl
  · next hm =>
    dsimp only
    rw [ofDecimal_reduced]
    generalize hfound : List.findSome? _ (List.range 17) = found
    cases found with
    -- this case never comes up, but it need not be excluded
    | none => exact Binary64.ofDecimal_expansion valid hm rfl
    | some d =>
      obtain ⟨n, -, hd⟩ := List.exists_of_findSome?_eq_some hfound
      exact of_decide_eq_true (around?_readsBack hd)

end Decimal

end DefTree
