/-
Numbers as they are written in a definition text.

A number is an integer of any size or a binary floating-point number.
`Number.read?` knows four forms, tried in this order: nothing at all, which
is zero; a literal in base sixteen, eight or two, after `0x`, `0o` or `0b`;
`Infinity` with an optional sign; and a decimal literal, which is an integer
unless it has a point or an exponent.
-/
import DefTree.Decimal
import DefTree.Text.Blank

namespace DefTree

inductive Number where
  | integer (n : Int)
  | float (x : Binary64)
  deriving DecidableEq

/-- The parts of a decimal literal: sign, digits before and after the point, and the exponent's
sign and digits. -/
structure DecimalLiteral where
  negative : Bool
  whole : List Char
  fraction : Option (List Char)
  exponent : Option (Bool × List Char)
  deriving DecidableEq, Repr

namespace DecimalLiteral

def takeFraction : List Char → Option (List Char) × List Char
  | '.' :: cs => (some (cs.takeWhile Char.isDigit), cs.dropWhile Char.isDigit)
  | cs => (none, cs)

def exponent? : List Char → Option (Option (Bool × List Char))
  | [] => some none
  | c :: cs =>
    if c = 'e' ∨ c = 'E' then
      let (negative, ds) := Numeral.takeSign cs
      if !ds.isEmpty && ds.all Char.isDigit then some (some (negative, ds)) else none
    else none

/-- Reads a whole text as a decimal literal; it has a digit before or after its point. -/
def read? (cs : List Char) : Option DecimalLiteral :=
  let (negative, cs) := Numeral.takeSign cs
  let whole := cs.takeWhile Char.isDigit
  let (fraction, cs) := takeFraction (cs.dropWhile Char.isDigit)
  if whole.isEmpty && (fraction.getD []).isEmpty then none
  else (exponent? cs).map fun exponent => { negative, whole, fraction, exponent }

def isInteger (l : DecimalLiteral) : Bool := l.fraction.isNone && l.exponent.isNone

def toFloat (l : DecimalLiteral) : Binary64 :=
  let fraction := l.fraction.getD []
  let exponent : Int := match l.exponent with
    | none => 0
    | some (negative, ds) => Numeral.withSign negative (Numeral.value 10 ds)
  Binary64.ofDecimal l.negative (Numeral.value 10 (l.whole ++ fraction))
    (exponent - fraction.length)

end DecimalLiteral

namespace Number

def base? (c : Char) : Option Nat :=
  if c = 'x' ∨ c = 'X' then some 16
  else if c = 'o' ∨ c = 'O' then some 8
  else if c = 'b' ∨ c = 'B' then some 2
  else none

def radix? : List Char → Option Nat
  | '0' :: c :: ds => (base? c).bind fun base => Numeral.natural? base ds
  | _ => none

def infinity? (cs : List Char) : Option Binary64 :=
  let (negative, cs) := Numeral.takeSign cs
  if cs = "Infinity".toList then some (.infinite negative) else none

/-- Reads a text as a number, blanks around it aside: `none` if it is not numeric. -/
def read? (raw : List Char) : Except Numeral.Overlong (Option Number) :=
  let cs := Text.trim raw
  if cs.isEmpty then .ok (some (.integer 0))
  else match radix? cs with
    | some n => .ok (some (.integer n))
    | none => match infinity? cs with
      | some x => .ok (some (.float x))
      | none => match DecimalLiteral.read? cs with
        | none => .ok none
        | some l =>
          if !l.isInteger then .ok (some (.float l.toFloat))
          else if Numeral.digitLimit < l.whole.length then .error ⟨l.whole.length⟩
          else .ok (some (.integer (Numeral.withSign l.negative (Numeral.value 10 l.whole))))

end Number

end DefTree
