/-
The texts that are read as numbers.

`Number.Form` lists them, with what each one is read as: nothing at all, a
run of decimal digits with or without a sign, a literal of another base,
`Infinity`, and a literal with a point or with an exponent. A run of digits
stands for the sum of its digits, each times the power of the base of its
place (`Numeral.Spells`). The reader tries its forms one after another, and
none of the earlier ones fits a text of a later one, so it reads these texts
and no others, whatever blanks stand around them (`read?_eq_map_iff`).
-/
import DefTree.Proofs.Number
import Mathlib.Data.List.Forall2
import Mathlib.Data.Nat.Digits.Defs
import Mathlib.Tactic.IntervalCases

namespace DefTree

/-! ## Digits -/

namespace Numeral

/-- The value of a digit of a base: its place among the figures and the letters that follow them, in either
case. -/
def DigitOf (base : Nat) (c : Char) (v : Nat) : Prop := v < base ∧ (c = v.digitChar ∨ c = v.digitChar.toUpper)

/-- A run of digits of a base, the most significant one first, and the natural that it stands for. -/
def Spells (base : Nat) (ds : List Char) (n : Nat) : Prop :=
  ds ≠ [] ∧ ∃ vs, List.Forall₂ (DigitOf base) ds vs ∧ n = Nat.ofDigits base vs.reverse

variable {base v n : Nat} {c : Char} {ds : List Char}

theorem digit?_digitChar (h : v < 16) :
    digit? 16 v.digitChar = some v ∧ digit? 16 v.digitChar.toUpper = some v := by
  have hall : ∀ v < 16, digit? 16 v.digitChar = some v ∧ digit? 16 v.digitChar.toUpper = some v := by decide
  exact hall v h

theorem eq_of_digit? (h : digit? 16 c = some v) : c = v.digitChar ∨ c = v.digitChar.toUpper := by
  obtain ⟨hd, -⟩ := Option.filter_eq_some_iff.1 h
  have hc := (Char.ofNat_toNat c).symm
  generalize c.toNat = k at hd hc
  subst hc
  split at hd
  · next hk =>
    obtain ⟨h₁, h₂⟩ := hk
    cases hd
    interval_cases k <;> decide
  split at hd
  · next hk =>
    obtain ⟨h₁, h₂⟩ := hk
    cases hd
    interval_cases k <;> decide
  split at hd
  · next hk =>
    obtain ⟨h₁, h₂⟩ := hk
    cases hd
    interval_cases k <;> decide
  · cases hd

theorem digit?_eq_some_iff (hbase : base ≤ 16) : digit? base c = some v ↔ DigitOf base c v := by
  have hsixteen : digit? base c = some v ↔ digit? 16 c = some v ∧ v < base := by
    simp only [digit?, Option.filter_eq_some_iff, decide_eq_true_eq]
    constructor
    · rintro ⟨h, hv⟩
      exact ⟨⟨h, by omega⟩, hv⟩
    · rintro ⟨⟨h, -⟩, hv⟩
      exact ⟨h, hv⟩
  rw [hsixteen, DigitOf, and_comm]
  refine and_congr_right fun hv => ⟨eq_of_digit?, ?_⟩
  have hdigit := digit?_digitChar (show v < 16 by omega)
  rintro (rfl | rfl)
  · exact hdigit.1
  · exact hdigit.2

theorem isDigit_iff (hbase : base ≤ 16) : isDigit base c = true ↔ ∃ v, DigitOf base c v := by
  simp only [isDigit, Option.isSome_iff_exists, digit?_eq_some_iff hbase]

theorem isDigit_ten_eq (c : Char) : isDigit 10 c = c.isDigit := by
  rw [Bool.eq_iff_iff, isDigit_iff (by decide)]
  constructor
  · rintro ⟨v, hv, h⟩
    have hfigure : ∀ v < 10, v.digitChar.isDigit = true ∧ v.digitChar.toUpper.isDigit = true := by decide
    rcases h with rfl | rfl
    · exact (hfigure v hv).1
    · exact (hfigure v hv).2
  · exact fun h => ⟨_, (digit?_eq_some_iff (by decide)).1 (digit?_of_isDigit h)⟩

/-- What is read before a run of digits counts by the power of the base that the run is long. -/
theorem foldl_eq_ofDigits (hbase : base ≤ 16) {vs : List Nat} (h : List.Forall₂ (DigitOf base) ds vs) (n : Nat) :
    ds.foldl (fun n c => n * base + (digit? base c).getD 0) n =
      n * base ^ ds.length + Nat.ofDigits base vs.reverse := by
  induction h generalizing n with
  | nil => simp
  | @cons c v ds vs hc hds ih =>
    rw [List.foldl_cons, ih, (digit?_eq_some_iff hbase).2 hc, Nat.ofDigits_reverse_cons, List.length_cons,
      hds.length_eq, Option.getD_some, Nat.pow_succ]
    ring

theorem value_eq_ofDigits (hbase : base ≤ 16) {vs : List Nat} (h : List.Forall₂ (DigitOf base) ds vs) :
    value base ds = Nat.ofDigits base vs.reverse := by
  rw [value, foldl_eq_ofDigits hbase h, Nat.zero_mul, Nat.zero_add]

theorem exists_values_iff (hbase : base ≤ 16) :
    (∃ vs, List.Forall₂ (DigitOf base) ds vs) ↔ ∀ c ∈ ds, isDigit base c = true := by
  induction ds with
  | nil => simp
  | cons c ds ih =>
    rw [List.forall_mem_cons, isDigit_iff hbase, ← ih]
    constructor
    · rintro ⟨_, _ | ⟨hv, hvs⟩⟩
      exact ⟨⟨_, hv⟩, _, hvs⟩
    · rintro ⟨⟨v, hv⟩, vs, hvs⟩
      exact ⟨v :: vs, .cons hv hvs⟩

/-- **What a run of digits stands for is what it is read as.** -/
theorem spells_iff (hbase : base ≤ 16) :
    Spells base ds n ↔ ds ≠ [] ∧ (∀ c ∈ ds, isDigit base c = true) ∧ value base ds = n := by
  refine and_congr_right fun _ => ?_
  rw [← exists_values_iff hbase]
  constructor
  · rintro ⟨vs, hvs, rfl⟩
    exact ⟨⟨vs, hvs⟩, value_eq_ofDigits hbase hvs⟩
  · rintro ⟨⟨vs, hvs⟩, rfl⟩
    exact ⟨vs, hvs, value_eq_ofDigits hbase hvs⟩

theorem natural?_eq_some_iff (hbase : base ≤ 16) : natural? base ds = some n ↔ Spells base ds n := by
  rw [spells_iff hbase, natural?, Option.ite_none_right_eq_some, Option.some.injEq, Bool.and_eq_true, Bool.not_eq_true',
    List.isEmpty_eq_false_iff, List.all_eq_true, and_assoc]

theorem spells_ten_iff : Spells 10 ds n ↔ ds ≠ [] ∧ (∀ c ∈ ds, c.isDigit = true) ∧ value 10 ds = n := by
  simp only [spells_iff (show 10 ≤ 16 by decide), isDigit_ten_eq]

theorem digitOf_digitChar (h : v < base) : DigitOf base v.digitChar v := ⟨h, .inl rfl⟩

theorem spells_toDigits (hbase : 2 ≤ base) (n : Nat) : Spells base (Nat.toDigits base n) n := by
  refine ⟨Nat.toDigits_ne_nil, ?_⟩
  induction n using Nat.strongRecOn with
  | ind n ih =>
    by_cases hn : n < base
    · rw [Nat.toDigits_of_lt_base hn]
      exact ⟨[n], .cons (digitOf_digitChar hn) .nil, by simp⟩
    · obtain ⟨vs, hvs, heq⟩ := ih (n / base) (Nat.div_lt_self (by omega) (by omega))
      rw [Nat.toDigits_of_base_le (by omega) (Nat.not_lt.1 hn)]
      refine ⟨vs ++ [n % base], ?_, ?_⟩
      · exact List.rel_append hvs (.cons (digitOf_digitChar (Nat.mod_lt n (by omega))) .nil)
      · rw [List.reverse_append, List.reverse_singleton, List.singleton_append, Nat.ofDigits_cons, ← heq]
        exact (Nat.mod_add_div n base).symm

theorem isBlank_of_isDigit (hbase : base ≤ 16) (h : isDigit base c = true) : Text.isBlank c = false := by
  obtain ⟨v, hv, hc⟩ := (isDigit_iff hbase).1 h
  have hall : ∀ v < 16, Text.isBlank v.digitChar = false ∧ Text.isBlank v.digitChar.toUpper = false := by decide
  rcases hc with rfl | rfl
  · exact (hall v (by omega)).1
  · exact (hall v (by omega)).2

/-! ## Signs -/

/-- How a sign is written; a plus may be left out. -/
inductive WritesSign : Bool → List Char → Prop where
  | none : WritesSign false []
  | plus : WritesSign false ['+']
  | minus : WritesSign true ['-']

theorem exists_writesSign (cs : List Char) :
    ∃ sign, WritesSign (takeSign cs).1 sign ∧ cs = sign ++ (takeSign cs).2 := by
  unfold takeSign
  split
  · exact ⟨['+'], .plus, rfl⟩
  · exact ⟨['-'], .minus, rfl⟩
  · exact ⟨[], .none, rfl⟩

namespace WritesSign

variable {negative : Bool} {sign rest : List Char}

theorem takeSign_append (h : WritesSign negative sign) (hrest : ∀ c, rest.head? = some c → c ≠ '+' ∧ c ≠ '-') :
    takeSign (sign ++ rest) = (negative, rest) := by
  cases h with
  | plus => rfl
  | minus => rfl
  | none =>
    rw [List.nil_append]
    unfold takeSign
    split
    · exact absurd rfl (hrest '+' rfl).1
    · exact absurd rfl (hrest '-' rfl).2
    · rfl

theorem eq_of_mem (h : WritesSign negative sign) (hc : c ∈ sign) : c = '+' ∨ c = '-' := by
  cases h with
  | none => cases hc
  | plus => exact .inl (List.mem_singleton.1 hc)
  | minus => exact .inr (List.mem_singleton.1 hc)

end WritesSign

theorem not_sign_of_isDigit (h : c.isDigit = true) : c ≠ '+' ∧ c ≠ '-' :=
  ⟨ne_of_isDigit h (by decide), ne_of_isDigit h (by decide)⟩

end Numeral

/-! ## Decimal literals -/

namespace DecimalLiteral

/-- How the digits behind a point are written, after it. -/
inductive WritesFraction : Option (List Char) → List Char → Prop where
  | none : WritesFraction none []
  | some {ds : List Char} (h : ∀ c ∈ ds, c.isDigit = true) : WritesFraction (some ds) ('.' :: ds)

/-- How an exponent is written, after its mark. -/
inductive WritesExponent : Option (Bool × List Char) → List Char → Prop where
  | none : WritesExponent none []
  | some {mark : Char} {negative : Bool} {sign ds : List Char} (hmark : mark = 'e' ∨ mark = 'E')
      (hsign : Numeral.WritesSign negative sign) (hne : ds ≠ []) (h : ∀ c ∈ ds, c.isDigit = true) :
      WritesExponent (some (negative, ds)) (mark :: (sign ++ ds))

/-- How a literal is written: it has a digit before or behind its point. -/
inductive Writes (l : DecimalLiteral) : List Char → Prop where
  | intro {sign fraction exponent : List Char} (hsign : Numeral.WritesSign l.negative sign)
      (hwhole : ∀ c ∈ l.whole, c.isDigit = true) (hfraction : WritesFraction l.fraction fraction)
      (hexponent : WritesExponent l.exponent exponent) (hne : l.whole ≠ [] ∨ l.fraction.getD [] ≠ []) :
      Writes l (sign ++ (l.whole ++ (fraction ++ exponent)))

variable {cs : List Char} {c : Char} {l : DecimalLiteral} {e : Option (Bool × List Char)}
  {f : Option (List Char)} {fraction exponent : List Char}

theorem exists_writesFraction (cs : List Char) :
    ∃ fraction, WritesFraction (takeFraction cs).1 fraction ∧ cs = fraction ++ (takeFraction cs).2 := by
  unfold takeFraction
  split
  · next ds =>
    refine ⟨'.' :: ds.takeWhile Char.isDigit, .some fun c hc => List.mem_takeWhile_imp hc, ?_⟩
    rw [List.cons_append, List.takeWhile_append_dropWhile]
  · exact ⟨[], .none, rfl⟩

theorem WritesExponent.head (h : WritesExponent e exponent) (hc : exponent.head? = .some c) : c = 'e' ∨ c = 'E' := by
  cases h with
  | none => cases hc
  | some hmark _ _ _ => exact Option.some.inj hc ▸ hmark

theorem exponent?_eq_some_iff : exponent? cs = some e ↔ WritesExponent e cs := by
  constructor
  · intro h
    unfold exponent? at h
    split at h
    · cases h
      exact .none
    · next mark cs =>
      split at h
      · next hmark =>
        dsimp only at h
        split at h
        · next hds =>
          cases h
          obtain ⟨sign, hsign, hcs⟩ := Numeral.exists_writesSign cs
          rw [Bool.and_eq_true, Bool.not_eq_true', List.isEmpty_eq_false_iff, List.all_eq_true] at hds
          conv => rhs; rw [hcs]
          exact .some hmark hsign hds.1 hds.2
        · cases h
      · cases h
  · intro h
    cases h with
    | none => rfl
    | @some mark negative sign ds hmark hsign hne hds =>
      have hhead : ∀ c, ds.head? = some c → c ≠ '+' ∧ c ≠ '-' := fun c hc =>
        Numeral.not_sign_of_isDigit (hds c (List.mem_of_mem_head? hc))
      have hdigits : (!ds.isEmpty && ds.all Char.isDigit) = true := by
        rw [Bool.and_eq_true, Bool.not_eq_true', List.isEmpty_eq_false_iff, List.all_eq_true]
        exact ⟨hne, hds⟩
      simp only [exponent?, if_pos hmark, hsign.takeSign_append hhead, hdigits, if_true]

theorem takeFraction_append (hf : WritesFraction f fraction) (he : WritesExponent e exponent) :
    takeFraction (fraction ++ exponent) = (f, exponent) := by
  cases hf with
  | none =>
    cases he with
    | none => rfl
    | some hmark _ _ _ => rcases hmark with rfl | rfl <;> rfl
  | some hds =>
    have hhead : ∀ c, exponent.head? = some c → c.isDigit = false := fun c hc => by
      rcases he.head hc with rfl | rfl <;> decide
    rw [List.cons_append, takeFraction, Text.takeWhile_run hds hhead, Text.dropWhile_run hds hhead]

theorem head_behind (hf : WritesFraction f fraction) (he : WritesExponent e exponent)
    (hc : (fraction ++ exponent).head? = some c) : c = '.' ∨ c = 'e' ∨ c = 'E' := by
  cases hf with
  | none => exact .inr (he.head hc)
  | some _ => exact .inl (Option.some.inj hc).symm

/-- **A text is read as a literal that it is a writing of**, and no other text is read as one. -/
theorem read?_eq_some_iff : read? cs = some l ↔ l.Writes cs := by
  constructor
  · intro h
    unfold read? at h
    dsimp only at h
    split at h
    · cases h
    next hne =>
    obtain ⟨e, he, rfl⟩ := Option.map_eq_some_iff.1 h
    obtain ⟨sign, hsign, hcs⟩ := Numeral.exists_writesSign cs
    obtain ⟨fraction, hfraction, hrest⟩ :=
      exists_writesFraction ((Numeral.takeSign cs).2.dropWhile Char.isDigit)
    rw [Bool.and_eq_true, List.isEmpty_iff, List.isEmpty_iff, not_and_or] at hne
    have hwrites := Writes.intro (l := ⟨_, _, _, e⟩) hsign (fun c hc => List.mem_takeWhile_imp hc) hfraction
      (exponent?_eq_some_iff.1 he) hne
    rwa [← hrest, List.takeWhile_append_dropWhile, ← hcs] at hwrites
  · rintro ⟨hsign, hwhole, hfraction, hexponent, hne⟩
    next sign fraction exponent =>
    have hbehind : ∀ c, (fraction ++ exponent).head? = some c → c.isDigit = false := fun c hc => by
      rcases head_behind hfraction hexponent hc with rfl | rfl | rfl <;> decide
    have hhead : ∀ c, (l.whole ++ (fraction ++ exponent)).head? = some c → c ≠ '+' ∧ c ≠ '-' := by
      intro c hc
      cases hw : l.whole with
      | nil =>
        rw [hw] at hc
        rcases head_behind hfraction hexponent hc with rfl | rfl | rfl <;> decide
      | cons d ds =>
        rw [hw] at hc
        exact Option.some.inj hc ▸ Numeral.not_sign_of_isDigit (hwhole d (hw ▸ List.mem_cons_self))
    have hsome : (l.whole.isEmpty && (l.fraction.getD []).isEmpty) = false := by
      rwa [Bool.and_eq_false_iff, List.isEmpty_eq_false_iff, List.isEmpty_eq_false_iff]
    unfold read?
    rw [hsign.takeSign_append hhead]
    dsimp only
    rw [Text.takeWhile_run hwhole hbehind, Text.dropWhile_run hwhole hbehind,
      takeFraction_append hfraction hexponent]
    simp only [hsome, exponent?_eq_some_iff.2 hexponent, Bool.false_eq_true, if_false, Option.map_some]

theorem WritesFraction.eq_of_mem (h : WritesFraction f fraction) (hc : c ∈ fraction) : c.isDigit = true ∨ c = '.' := by
  cases h with
  | none => cases hc
  | some hds =>
    rcases List.mem_cons.1 hc with rfl | hc
    · exact .inr rfl
    · exact .inl (hds c hc)

theorem WritesExponent.eq_of_mem (h : WritesExponent e exponent) (hc : c ∈ exponent) :
    c.isDigit = true ∨ c ∈ ['+', '-', 'e', 'E'] := by
  cases h with
  | none => cases hc
  | some hmark hsign _ hds =>
    rw [List.mem_cons, List.mem_append] at hc
    rcases hc with rfl | hc | hc
    · rcases hmark with rfl | rfl <;> simp
    · rcases hsign.eq_of_mem hc with rfl | rfl <;> simp
    · exact .inl (hds c hc)

theorem Writes.eq_of_mem (h : l.Writes cs) (hc : c ∈ cs) : c.isDigit = true ∨ c ∈ ['+', '-', '.', 'e', 'E'] := by
  obtain ⟨hsign, hwhole, hfraction, hexponent, -⟩ := h
  simp only [List.mem_append] at hc
  rcases hc with hc | hc | hc | hc
  · rcases hsign.eq_of_mem hc with rfl | rfl <;> simp
  · exact .inl (hwhole c hc)
  · exact (hfraction.eq_of_mem hc).imp_right fun h => by simp [h]
  · refine (hexponent.eq_of_mem hc).imp_right fun h => ?_
    simp only [List.mem_cons, List.not_mem_nil, or_false] at h ⊢
    rcases h with h | h | h | h <;> simp [h]

end DecimalLiteral

/-! ## Forms -/

namespace Number

/-- The letters that announce a base behind a leading zero. -/
def baseLetters : List (Char × Nat) := [('x', 16), ('X', 16), ('o', 8), ('O', 8), ('b', 2), ('B', 2)]

/-- An exponent: its mark, and digits with or without a sign. -/
inductive Exponent : List Char → Int → Prop where
  | intro {mark : Char} {negative : Bool} {sign ds : List Char} {n : Nat} (hmark : mark = 'e' ∨ mark = 'E')
      (hsign : Numeral.WritesSign negative sign) (hds : Numeral.Spells 10 ds n) :
      Exponent (mark :: (sign ++ ds)) (Numeral.withSign negative n)

/-- The texts without blanks around them that are numbers, and what each one is read as. A decimal integer may have
4300 digits, and a longer one is refused. -/
inductive Form : List Char → Except Numeral.Overlong Number → Prop where
  | nothing : Form [] (.ok (.integer 0))
  | decimal {negative : Bool} {sign ds : List Char} {n : Nat} (hsign : Numeral.WritesSign negative sign)
      (hds : Numeral.Spells 10 ds n) (hlength : ds.length ≤ 4300) :
      Form (sign ++ ds) (.ok (.integer (Numeral.withSign negative n)))
  | overlong {negative : Bool} {sign ds : List Char} {n : Nat} (hsign : Numeral.WritesSign negative sign)
      (hds : Numeral.Spells 10 ds n) (hlength : 4300 < ds.length) : Form (sign ++ ds) (.error ⟨ds.length⟩)
  | radix {letter : Char} {base n : Nat} {ds : List Char} (hletter : (letter, base) ∈ baseLetters)
      (hds : Numeral.Spells base ds n) : Form ('0' :: letter :: ds) (.ok (.integer n))
  | infinity {negative : Bool} {sign : List Char} (hsign : Numeral.WritesSign negative sign) :
      Form (sign ++ "Infinity".toList) (.ok (.float (.infinite negative)))
  /-- A point with a digit before or behind it; an exponent may follow. -/
  | point {negative : Bool} {sign whole fraction exponent : List Char} {n : Nat} {e : Int}
      (hsign : Numeral.WritesSign negative sign) (hds : Numeral.Spells 10 (whole ++ fraction) n)
      (hexponent : exponent = [] ∧ e = 0 ∨ Exponent exponent e) :
      Form (sign ++ (whole ++ '.' :: (fraction ++ exponent)))
        (.ok (.float (Binary64.ofDecimal negative n (e - fraction.length))))
  | exponent {negative : Bool} {sign whole exponent : List Char} {n : Nat} {e : Int}
      (hsign : Numeral.WritesSign negative sign) (hds : Numeral.Spells 10 whole n) (hexponent : Exponent exponent e) :
      Form (sign ++ (whole ++ exponent)) (.ok (.float (Binary64.ofDecimal negative n e)))

variable {raw cs : List Char} {letter : Char} {base n : Nat} {l : DecimalLiteral}

theorem base?_eq_some_iff : base? letter = some base ↔ (letter, base) ∈ baseLetters := by
  simp only [baseLetters, List.mem_cons, Prod.mk.injEq, List.not_mem_nil, or_false]
  constructor
  · intro h
    unfold base? at h
    split at h
    · next hl => cases h; rcases hl with rfl | rfl <;> simp
    split at h
    · next hl => cases h; rcases hl with rfl | rfl <;> simp
    split at h
    · next hl => cases h; rcases hl with rfl | rfl <;> simp
    · cases h
  · rintro (⟨rfl, rfl⟩ | ⟨rfl, rfl⟩ | ⟨rfl, rfl⟩ | ⟨rfl, rfl⟩ | ⟨rfl, rfl⟩ | ⟨rfl, rfl⟩) <;> rfl

theorem base_le (h : (letter, base) ∈ baseLetters) : base ≤ 16 := by
  have hall : ∀ p ∈ baseLetters, p.2 ≤ 16 := by decide
  exact hall _ h

theorem two_le_base (h : (letter, base) ∈ baseLetters) : 2 ≤ base := by
  have hall : ∀ p ∈ baseLetters, 2 ≤ p.2 := by decide
  exact hall _ h

theorem radix?_eq_some_iff : radix? cs = some n ↔
    ∃ letter base ds, cs = '0' :: letter :: ds ∧ (letter, base) ∈ baseLetters ∧ Numeral.Spells base ds n := by
  constructor
  · intro h
    unfold radix? at h
    split at h
    · next letter ds =>
      obtain ⟨base, hbase, hds⟩ := Option.bind_eq_some_iff.1 h
      have hletter := base?_eq_some_iff.1 hbase
      exact ⟨letter, base, ds, rfl, hletter, (Numeral.natural?_eq_some_iff (base_le hletter)).1 hds⟩
    · cases h
  · rintro ⟨letter, base, ds, rfl, hletter, hds⟩
    rw [radix?, base?_eq_some_iff.2 hletter, Option.bind_some, Numeral.natural?_eq_some_iff (base_le hletter)]
    exact hds

theorem infinity?_eq_some_iff {x : Binary64} : infinity? cs = some x ↔
    ∃ negative sign, Numeral.WritesSign negative sign ∧ cs = sign ++ "Infinity".toList ∧ x = .infinite negative := by
  constructor
  · intro h
    obtain ⟨hcs, hx⟩ := Option.ite_none_right_eq_some.1 h
    obtain ⟨sign, hsign, heq⟩ := Numeral.exists_writesSign cs
    exact ⟨_, sign, hsign, hcs ▸ heq, (Option.some.inj hx).symm⟩
  · rintro ⟨negative, sign, hsign, rfl, rfl⟩
    rw [infinity?, hsign.takeSign_append (by rintro c ⟨⟩; decide)]
    exact if_pos rfl

/-! ## Literals among the forms -/

theorem exponent_iff {cs : List Char} {e : Int} : Exponent cs e ↔ ∃ negative ds,
    DecimalLiteral.WritesExponent (some (negative, ds)) cs ∧ e = Numeral.withSign negative (Numeral.value 10 ds) := by
  constructor
  · rintro ⟨hmark, hsign, hds⟩
    obtain ⟨hne, hdigits, rfl⟩ := Numeral.spells_ten_iff.1 hds
    exact ⟨_, _, .some hmark hsign hne hdigits, rfl⟩
  · rintro ⟨negative, ds, h, rfl⟩
    cases h with
    | some hmark hsign hne hdigits => exact .intro hmark hsign (Numeral.spells_ten_iff.2 ⟨hne, hdigits, rfl⟩)

theorem integer_of_writes (h : l.Writes cs) (hl : l.isInteger = true) :
    ∃ sign, Numeral.WritesSign l.negative sign ∧ Numeral.Spells 10 l.whole (Numeral.value 10 l.whole) ∧
      cs = sign ++ l.whole := by
  obtain ⟨negative, whole, fraction, exponent⟩ := l
  obtain ⟨hsign, hwhole, hfraction, hexponent, hne⟩ := h
  cases hfraction with
  | some _ => cases hl
  | none =>
    cases hexponent with
    | some _ _ _ _ => cases hl
    | none => exact ⟨_, hsign, Numeral.spells_ten_iff.2 ⟨by simpa using hne, hwhole, rfl⟩, by simp⟩

/-- With a point or an exponent, it is a form that stands for the nearest number. -/
theorem form_of_writes (h : l.Writes cs) (hl : l.isInteger = false) : Form cs (.ok (.float l.toFloat)) := by
  obtain ⟨negative, whole, fraction, exponent⟩ := l
  obtain ⟨hsign, hwhole, hfraction, hexponent, hne⟩ := h
  cases hfraction with
  | none =>
    cases hexponent with
    | none => cases hl
    | some hmark hsign' hne' hds =>
      have hform := Form.exponent hsign (Numeral.spells_ten_iff.2 ⟨by simpa using hne, hwhole, rfl⟩)
        (.intro hmark hsign' (Numeral.spells_ten_iff.2 ⟨hne', hds, rfl⟩))
      simpa [DecimalLiteral.toFloat] using hform
  | @some ds hds =>
    have hspells : Numeral.Spells 10 (whole ++ ds) (Numeral.value 10 (whole ++ ds)) :=
      Numeral.spells_ten_iff.2 ⟨by simpa [imp_iff_not_or] using hne, List.forall_mem_append.2 ⟨hwhole, hds⟩, rfl⟩
    cases hexponent with
    | none => exact .point hsign hspells (.inl ⟨rfl, rfl⟩)
    | some hmark hsign' hne' hds' =>
      exact .point hsign hspells (.inr (.intro hmark hsign' (Numeral.spells_ten_iff.2 ⟨hne', hds', rfl⟩)))

theorem writes_integer {negative : Bool} {sign ds : List Char} (hsign : Numeral.WritesSign negative sign)
    (hds : Numeral.Spells 10 ds n) : DecimalLiteral.Writes ⟨negative, ds, none, none⟩ (sign ++ ds) := by
  obtain ⟨hne, hdigits, -⟩ := Numeral.spells_ten_iff.1 hds
  simpa using DecimalLiteral.Writes.intro (l := ⟨negative, ds, none, none⟩) hsign hdigits .none .none (.inl hne)

section

variable {negative : Bool} {sign whole fraction exponent : List Char} {e : Int}
  (hsign : Numeral.WritesSign negative sign)

include hsign

theorem exists_writes_point (hds : Numeral.Spells 10 (whole ++ fraction) n)
    (hexponent : exponent = [] ∧ e = 0 ∨ Exponent exponent e) :
    ∃ l : DecimalLiteral, l.Writes (sign ++ (whole ++ '.' :: (fraction ++ exponent))) ∧ l.isInteger = false ∧
      l.toFloat = Binary64.ofDecimal negative n (e - fraction.length) := by
  obtain ⟨hne, hdigits, rfl⟩ := Numeral.spells_ten_iff.1 hds
  obtain ⟨hwhole, hfraction⟩ := List.forall_mem_append.1 hdigits
  have hne' : whole ≠ [] ∨ fraction ≠ [] := by simpa [imp_iff_not_or] using hne
  rcases hexponent with ⟨rfl, rfl⟩ | hexponent
  · have hwrites := DecimalLiteral.Writes.intro (l := ⟨negative, whole, some fraction, none⟩) hsign hwhole
      (.some hfraction) .none hne'
    exact ⟨_, hwrites, rfl, rfl⟩
  · obtain ⟨below, ds, hwritten, rfl⟩ := exponent_iff.1 hexponent
    have hwrites := DecimalLiteral.Writes.intro (l := ⟨negative, whole, some fraction, some (below, ds)⟩) hsign hwhole
      (.some hfraction) hwritten hne'
    exact ⟨_, hwrites, rfl, rfl⟩

theorem exists_writes_exponent (hds : Numeral.Spells 10 whole n) (hexponent : Exponent exponent e) :
    ∃ l : DecimalLiteral, l.Writes (sign ++ (whole ++ exponent)) ∧ l.isInteger = false ∧
      l.toFloat = Binary64.ofDecimal negative n e := by
  obtain ⟨hne, hdigits, rfl⟩ := Numeral.spells_ten_iff.1 hds
  obtain ⟨below, ds, hwritten, rfl⟩ := exponent_iff.1 hexponent
  have hwrites := DecimalLiteral.Writes.intro (l := ⟨negative, whole, none, some (below, ds)⟩) hsign hdigits .none
    hwritten (.inl hne)
  exact ⟨_, hwrites, rfl, by simp [DecimalLiteral.toFloat]⟩

end

/-- No literal is `Infinity` or begins like a literal of another base. -/
theorem not_special_of_writes (h : l.Writes cs) : cs ≠ [] ∧ radix? cs = none ∧ infinity? cs = none := by
  refine ⟨?_, Option.eq_none_iff_forall_ne_some.2 fun n hn => ?_, Option.eq_none_iff_forall_ne_some.2 fun x hx => ?_⟩
  · obtain ⟨hsign, hwhole, hfraction, hexponent, hne⟩ := h
    generalize l.fraction = fraction at *
    cases hfraction <;> simp_all
  · obtain ⟨letter, base, ds, rfl, hletter, -⟩ := radix?_eq_some_iff.1 hn
    have hall : ∀ p ∈ baseLetters, p.1.isDigit = false ∧ p.1 ∉ ['+', '-', '.', 'e', 'E'] := by decide
    obtain ⟨hdigit, hmark⟩ := hall _ hletter
    rcases h.eq_of_mem (List.mem_cons_of_mem _ List.mem_cons_self) with h | h
    · exact absurd h (by simp [hdigit])
    · exact hmark h
  · obtain ⟨negative, sign, -, rfl, -⟩ := infinity?_eq_some_iff.1 hx
    have hmem : 'I' ∈ sign ++ "Infinity".toList := List.mem_append_right _ (by decide)
    exact absurd (h.eq_of_mem hmem) (by decide)

theorem read?_of_writes (h : l.Writes (Text.trim raw)) : read? raw =
    if l.isInteger = false then .ok (some (.float l.toFloat))
    else if 4300 < l.whole.length then .error ⟨l.whole.length⟩
    else .ok (some (.integer (Numeral.withSign l.negative (Numeral.value 10 l.whole)))) := by
  obtain ⟨hne, hradix, hinfinity⟩ := not_special_of_writes h
  have hempty : (Text.trim raw).isEmpty = false := by simp [hne]
  simp only [read?, hempty, hradix, hinfinity, DecimalLiteral.read?_eq_some_iff.2 h, Bool.false_eq_true, if_false,
    Numeral.digitLimit, Bool.not_eq_true']
  rfl

/-- **What is read as a number is of one of the forms**, and each form is read as it says. -/
theorem read?_eq_map_iff {r : Except Numeral.Overlong Number} : read? raw = r.map some ↔ Form (Text.trim raw) r := by
  constructor
  · intro h
    unfold read? at h
    dsimp only at h
    split at h
    · next hempty =>
      rw [List.isEmpty_iff.1 hempty]
      cases r <;> cases h
      exact .nothing
    split at h
    · next n hn =>
      obtain ⟨letter, base, ds, hcs, hletter, hds⟩ := radix?_eq_some_iff.1 hn
      cases r <;> cases h
      exact hcs ▸ .radix hletter hds
    split at h
    · next x hx =>
      obtain ⟨negative, sign, hsign, hcs, rfl⟩ := infinity?_eq_some_iff.1 hx
      cases r <;> cases h
      exact hcs ▸ .infinity hsign
    split at h
    · cases r <;> cases h
    next l hl =>
    have hwrites := DecimalLiteral.read?_eq_some_iff.1 hl
    split at h
    · next hfloat =>
      cases r <;> cases h
      exact form_of_writes hwrites (by simpa using hfloat)
    next hinteger =>
    obtain ⟨sign, hsign, hds, hcs⟩ := integer_of_writes hwrites (by simpa using hinteger)
    split at h
    · next hlimit =>
      cases r <;> cases h
      exact hcs ▸ .overlong hsign hds hlimit
    · next hlimit =>
      cases r <;> cases h
      exact hcs ▸ .decimal hsign hds (Nat.not_lt.1 hlimit)
  · intro h
    generalize hcs : Text.trim raw = cs at h
    cases h with
    | nothing => simp [read?, hcs, Except.map]
    | decimal hsign hds hlength =>
      have hread := read?_of_writes (hcs ▸ writes_integer hsign hds)
      obtain ⟨-, -, rfl⟩ := Numeral.spells_ten_iff.1 hds
      rwa [if_neg (by simp [DecimalLiteral.isInteger]), if_neg (Nat.not_lt.2 hlength)] at hread
    | overlong hsign hds hlength =>
      have hread := read?_of_writes (hcs ▸ writes_integer hsign hds)
      rwa [if_neg (by simp [DecimalLiteral.isInteger]), if_pos hlength] at hread
    | @radix letter base n ds hletter hds =>
      have hradix : radix? ('0' :: letter :: ds) = some n := radix?_eq_some_iff.2 ⟨_, _, _, rfl, hletter, hds⟩
      simp [read?, hcs, hradix, Except.map]
    | @infinity negative sign hsign =>
      have hinfinity : infinity? (sign ++ "Infinity".toList) = some (.infinite negative) :=
        infinity?_eq_some_iff.2 ⟨_, _, hsign, rfl, rfl⟩
      have hradix : radix? (sign ++ "Infinity".toList) = none := by cases hsign <;> rfl
      have hempty : (sign ++ "Infinity".toList).isEmpty = false := by simp
      simp only [read?, hcs, hempty, hradix, hinfinity, Bool.false_eq_true, if_false, Except.map]
    | point hsign hds hexponent =>
      obtain ⟨l, hwrites, hfloat, hvalue⟩ := exists_writes_point hsign hds hexponent
      rw [read?_of_writes (hcs ▸ hwrites), if_pos hfloat, hvalue, Except.map]
    | exponent hsign hds hexponent =>
      obtain ⟨l, hwrites, hfloat, hvalue⟩ := exists_writes_exponent hsign hds hexponent
      rw [read?_of_writes (hcs ▸ hwrites), if_pos hfloat, hvalue, Except.map]

/-! ## Integers read back -/

theorem read?_toDigits (h : (letter, base) ∈ baseLetters) (n : Nat) :
    read? ('0' :: letter :: Nat.toDigits base n) = .ok (some (.integer n)) := by
  have hds := Numeral.spells_toDigits (two_le_base h) n
  have htight : Text.Tight ('0' :: letter :: Nat.toDigits base n) := .of_forall fun c hc => by
    rw [List.mem_cons, List.mem_cons] at hc
    rcases hc with rfl | rfl | hc
    · decide
    · have hall : ∀ p ∈ baseLetters, Text.isBlank p.1 = false := by decide
      exact hall (c, base) h
    · exact Numeral.isBlank_of_isDigit (base_le h) (((Numeral.spells_iff (base_le h)).1 hds).2.1 c hc)
  have hform := Form.radix h hds
  rw [← htight.trim_eq] at hform
  exact read?_eq_map_iff.2 hform

/-- **A text is read as a number just as its form says**, and any text of no form is no number. So an integer of at
most 4300 digits is read back from its decimal text, and any natural from its digits in base sixteen, eight or
two. -/
theorem read?_exact :
    (∀ raw r, read? raw = r.map some ↔ Form (Text.trim raw) r) ∧
    (∀ raw, read? raw = .ok none ↔ ∀ r, ¬Form (Text.trim raw) r) ∧
    (∀ n : Int, (Numeral.decimal n.natAbs).length ≤ 4300 → read? (Numeral.signed n) = .ok (some (.integer n))) ∧
    ∀ letter base, (letter, base) ∈ baseLetters → ∀ n : Nat,
      read? ('0' :: letter :: Nat.toDigits base n) = .ok (some (.integer n)) := by
  refine ⟨fun raw r => read?_eq_map_iff, fun raw => ?_, fun n hn => read?_signed hn, fun letter base h n =>
    read?_toDigits h n⟩
  simp only [← read?_eq_map_iff]
  cases h : read? raw with
  | error e => exact iff_of_false (by simp) fun hnone => hnone (.error e) rfl
  | ok n =>
    cases n with
    | none => exact iff_of_true rfl fun r => by cases r <;> simp [Except.map]
    | some n => exact iff_of_false (by simp) fun hnone => hnone (.ok n) rfl

/-- A literal with nothing behind its point, a negative integer, and one in base sixteen. -/
theorem read?_exact_literals :
    (Form (Text.trim " 1.e1 ".toList) (.ok (.float (Binary64.ofDecimal false 1 1))) ∧
      read? " 1.e1 ".toList = .ok (some (.float (Binary64.ofDecimal false 1 1)))) ∧
    ((Numeral.decimal (-120 : Int).natAbs).length ≤ 4300 ∧
      read? (Numeral.signed (-120)) = .ok (some (.integer (-120)))) ∧
    ('X', 16) ∈ baseLetters ∧ read? ('0' :: 'X' :: Nat.toDigits 16 31) = .ok (some (.integer 31)) := by
  obtain ⟨hform, -, hdecimal, hradix⟩ := read?_exact
  have hds : Numeral.Spells 10 ['1'] 1 :=
    Numeral.spells_ten_iff.2 ⟨by decide, List.all_eq_true.1 (by decide), by decide⟩
  have hexponent : Exponent ['e', '1'] 1 := .intro (.inl rfl) .none hds
  have hpoint : Form (Text.trim " 1.e1 ".toList) (.ok (.float (Binary64.ofDecimal false 1 1))) := by
    have htrim : Text.trim " 1.e1 ".toList = [] ++ (['1'] ++ '.' :: ([] ++ ['e', '1'])) := by decide
    have he : (1 : Int) = 1 - ([] : List Char).length := rfl
    rw [htrim, he]
    exact .point .none hds (.inr hexponent)
  exact ⟨⟨hpoint, (hform _ _).2 hpoint⟩, ⟨by decide, hdecimal (-120) (by decide)⟩, by decide,
    hradix 'X' 16 (by decide) 31⟩

end Number

end DefTree
