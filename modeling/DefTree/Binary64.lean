/-
Binary floating-point numbers of 64 bits, without the undefined ones.

A finite number is a sign and a magnitude `m * 2 ^ p / 2 ^ 1074` whose
significand `m` has at most 53 bits, and exactly 53 unless the unit is the
smallest; so each number has one representation and equality is equality
of values and signs. `ofDecimal` is the nearest number to a decimal, ties
going to the even significand, and infinite from half a unit above the
largest finite number on.
-/
import DefTree.Numeral

namespace DefTree

/-- A significand `m` and unit exponent `p` that represent a magnitude in the one way allowed. -/
structure Binary64.Valid (m p : Nat) : Prop where
  lt : m < Nat.pow 2 53
  norm : Nat.pow 2 52 ≤ m ∨ p = 0
  le : p ≤ 2045

inductive Binary64 where
  | finite (negative : Bool) (m p : Nat) (valid : Binary64.Valid m p)
  | infinite (negative : Bool)
  deriving DecidableEq

namespace Binary64

instance (m p : Nat) : Decidable (Valid m p) :=
  decidable_of_iff (m < Nat.pow 2 53 ∧ (Nat.pow 2 52 ≤ m ∨ p = 0) ∧ p ≤ 2045)
    ⟨fun h => ⟨h.1, h.2.1, h.2.2⟩, fun h => ⟨h.lt, h.norm, h.le⟩⟩

def zero (negative : Bool) : Binary64 := .finite negative 0 0 ⟨by decide, .inr rfl, by decide⟩

def isFinite : Binary64 → Bool
  | .finite .. => true
  | .infinite _ => false

/-- The nearest natural to `num / den`, ties going to the even one. -/
def nearest (num den : Nat) : Nat :=
  let q := num / den
  let r := num % den
  if den < 2 * r ∨ (den = 2 * r ∧ q % 2 = 1) then q + 1 else q

/-- The number with significand `m` and unit exponent `p`, where a significand that rounding has
carried to 54 bits moves to the next unit; infinite if the exponent is too large. -/
def ofParts (negative : Bool) (m p : Nat) : Binary64 :=
  let (m, p) := if m = Nat.pow 2 53 then (Nat.pow 2 52, p + 1) else (m, p)
  if h : Valid m p then .finite negative m p h else .infinite negative

def ofRatio (negative : Bool) (num den : Nat) : Binary64 :=
  let scaled := num * Nat.pow 2 1074
  let p := (scaled / den).log2 + 1 - 53
  ofParts negative (nearest scaled (den * Nat.pow 2 p)) p

/-- The number nearest to `± digits * 10 ^ exponent`. Decimals beyond `10 ^ 310` or below
`10 ^ -330` are recognised by their length, so no large power is formed. -/
def ofDecimal (negative : Bool) (digits : Nat) (exponent : Int) : Binary64 :=
  let size := (Numeral.decimal digits).length + exponent
  if digits = 0 ∨ size < -330 then zero negative
  else if 310 < size then .infinite negative
  else ofRatio negative (digits * Nat.pow 10 exponent.toNat) (Nat.pow 10 (-exponent).toNat)

end Binary64

end DefTree
