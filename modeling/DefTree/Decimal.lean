/-
Decimals that stand for floating-point numbers, and how they are written.

`Decimal.shortest` is the decimal of fewest digits that rounds to a given
number and, among those, the nearest to it; an exact tie goes to the even
digit. A `FloatLayout` says how its digits are set: for which exponents
positionally, how wide an exponent is at least, and how infinity is spelt.
-/
import DefTree.Binary64

namespace DefTree

/-- The decimal `digits * 10 ^ exponent`. -/
structure Decimal where
  digits : Nat
  exponent : Int
  deriving DecidableEq, Repr

namespace Decimal

/-- The quotient and remainder of `num / den` by `10 ^ scale`, with the divisor used. -/
def onGrid (num den : Nat) (scale : Int) : Nat × Nat × Nat :=
  let num := num * Nat.pow 10 (-scale).toNat
  let den := den * Nat.pow 10 scale.toNat
  (num / den, num % den, den)

def leading (num den : Nat) : Int :=
  let k : Int := (Numeral.decimal num).length - (Numeral.decimal den).length
  if den * Nat.pow 10 k.toNat ≤ num * Nat.pow 10 (-k).toNat then k else k - 1

/-- Of the two multiples of `10 ^ scale` around the magnitude, the nearer one that reads back. -/
def around? (num den : Nat) (readsBack : Decimal → Bool) (scale : Int) : Option Decimal :=
  let (q, r, den) := onGrid num den scale
  let below : Decimal := ⟨q, scale⟩
  let above : Decimal := ⟨q + 1, scale⟩
  match readsBack below, readsBack above with
  | false, false => none
  | true, false => some below
  | false, true => some above
  | true, true => some (if 2 * r < den ∨ (2 * r = den ∧ q % 2 = 0) then below else above)

def reduced (d : Decimal) : Decimal :=
  if h : d.digits ≠ 0 ∧ d.digits % 10 = 0 then reduced ⟨d.digits / 10, d.exponent + 1⟩ else d
termination_by d.digits
decreasing_by exact Nat.div_lt_self (Nat.pos_of_ne_zero h.1) (by decide)

/-- The decimal of fewest digits that stands for the magnitude `m * 2 ^ p / 2 ^ 1074`. Seventeen
digits always suffice; the exact expansion completes the definition. -/
def shortest (m p : Nat) (valid : Binary64.Valid m p) : Decimal :=
  if m = 0 then ⟨0, 0⟩ else
  let num := m * Nat.pow 2 p
  let den := Nat.pow 2 1074
  let readsBack (d : Decimal) : Bool :=
    Binary64.ofDecimal false d.digits d.exponent = .finite false m p valid
  let first := leading num den
  let found := (List.range 17).findSome? fun (n : Nat) => around? num den readsBack (first - n)
  reduced (found.getD ⟨num * Nat.pow 5 1074, -1074⟩)

end Decimal

structure FloatLayout where
  /-- The least exponent of the first digit that is written positionally. -/
  least : Int
  /-- The greatest exponent of the first digit that is written positionally. -/
  greatest : Int
  /-- The least number of digits of a written exponent. -/
  exponentWidth : Nat
  /-- The spelling of the infinite number of a sign. -/
  infinite : Bool → List Char

namespace FloatLayout

/-- Digits with a point after the first digit's place is counted off; at least one on each side. -/
def positional (ds : List Char) (first : Int) : List Char :=
  if 0 ≤ first then
    let n := first.toNat + 1
    let whole := ds.take n ++ List.replicate (n - ds.length) '0'
    let fraction := ds.drop n
    whole ++ '.' :: (if fraction.isEmpty then ['0'] else fraction)
  else
    '0' :: '.' :: (List.replicate ((-first).toNat - 1) '0' ++ ds)

/-- Digits with a point after the first, if more follow, and the exponent of the first. -/
def scientific (width : Nat) (ds : List Char) (first : Int) : List Char :=
  let mantissa := match ds with
    | [] => []
    | [d] => [d]
    | d :: rest => d :: '.' :: rest
  let e := Numeral.decimal first.natAbs
  mantissa ++ 'e' :: (if first < 0 then '-' else '+') ::
    (List.replicate (width - e.length) '0' ++ e)

def write (layout : FloatLayout) : Binary64 → List Char
  | .infinite negative => layout.infinite negative
  | .finite negative m p valid =>
    let d := Decimal.shortest m p valid
    let ds := Numeral.decimal d.digits
    let first : Int := ds.length - 1 + d.exponent
    let text :=
      if layout.least ≤ first ∧ first ≤ layout.greatest then positional ds first
      else scientific layout.exponentWidth ds first
    if negative then '-' :: text else text

end FloatLayout

end DefTree
