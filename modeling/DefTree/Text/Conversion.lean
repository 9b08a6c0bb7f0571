/-
Conversions: how a value is set into a text.

A conversion is what a format says about a value: a letter that chooses a
notation, flags, a least width and a precision. Texts are written as they
are, quoted, or cut to the precision; integers in base ten, eight or
sixteen, as a character, or as floating-point numbers with a fixed count of
digits after the point or in all. A value and a letter that do not go
together have no text.
-/
import DefTree.Decimal
import DefTree.Text.Quoted

namespace DefTree.Text

inductive Operand where
  | text (cs : List Char)
  | integer (n : Int)
  /-- Any other value, which is shown in one way only. -/
  | symbol (shown : List Char)
  deriving DecidableEq, Repr

def Operand.shown : Operand → List Char
  | .text cs => quoted cs
  | .integer n => Numeral.signed n
  | .symbol shown => shown

structure Conversion where
  /-- Whether the value stands at the left of its width. -/
  left : Bool := false
  /-- Whether a plus sign stands before what is not negative. -/
  plus : Bool := false
  /-- Whether a space stands before what is not negative. -/
  space : Bool := false
  /-- Whether a base is announced, and a point stands also where no digit follows it. -/
  alternate : Bool := false
  /-- Whether zeros fill the width of a number. -/
  zeros : Bool := false
  width : Nat := 0
  precision : Option Nat := none
  letter : Char
  deriving DecidableEq, Repr

namespace Conversion

/-! ## Width -/

def pad (c : Conversion) (body : List Char) : List Char :=
  let fill := List.replicate (c.width - body.length) ' '
  if c.left then body ++ fill else fill ++ body

/-- A number of a sign and digits that is filled up to the width with zeros or spaces; `mark` stands
between them. -/
def padNumber (c : Conversion) (negative : Bool) (mark digits : List Char) : List Char :=
  let sign := if negative then ['-'] else if c.plus then ['+'] else if c.space then [' '] else []
  let lead := sign ++ mark
  let fill := List.replicate (c.width - (lead.length + digits.length)) '0'
  if c.zeros && !c.left then lead ++ fill ++ digits else c.pad (lead ++ digits)

def cut (c : Conversion) (cs : List Char) : List Char :=
  match c.precision with
  | none => cs
  | some n => cs.take n

/-! ## Integers -/

def widen (c : Conversion) (digits : List Char) : List Char :=
  List.replicate (c.precision.getD 0 - digits.length) '0' ++ digits

def inBase (c : Conversion) (base : Nat) (mark : List Char) (upper : Bool) (n : Int) : List Char :=
  let digits := c.widen (Nat.toDigits base n.natAbs)
  c.padNumber (n < 0) (if c.alternate then mark else [])
    (if upper then digits.map Char.toUpper else digits)

def character? (n : Int) : Option Char :=
  if 0 ≤ n ∧ n.toNat.isValidChar then some (Char.ofNat n.toNat) else none

/-! ## Floating-point notations -/

def point (c : Conversion) (places : Nat) (digits : List Char) : List Char :=
  let digits := List.replicate (places + 1 - digits.length) '0' ++ digits
  let whole := digits.take (digits.length - places)
  if places = 0 && !c.alternate then whole else whole ++ '.' :: digits.drop (digits.length - places)

def rounded (num den : Nat) (scale : Int) : Nat :=
  Binary64.nearest (num * Nat.pow 10 (-scale).toNat) (den * Nat.pow 10 scale.toNat)

def significant (num den count : Nat) : Nat × Int :=
  if num = 0 then (0, 0) else
  let first := Decimal.leading num den
  let n := rounded num den (first - count + 1)
  if n = Nat.pow 10 count then (n / 10, first + 1) else (n, first)

def scientific (c : Conversion) (mark : Char) (places n : Nat) (first : Int) : List Char :=
  let e := Numeral.decimal first.natAbs
  c.point places (Numeral.decimal n) ++ mark :: (if first < 0 then '-' else '+') ::
    (List.replicate (2 - e.length) '0' ++ e)

def endingZeros (n : Nat) : Nat → Nat
  | 0 => 0
  | limit + 1 => if n % 10 = 0 then endingZeros (n / 10) limit + 1 else 0

/-- A magnitude with `count` digits in all: with an exponent if the first of them stands beyond
them or far behind the point, and without ending zeros unless the conversion is alternate. -/
def shorter (c : Conversion) (mark : Char) (num den count : Nat) : List Char :=
  let (n, first) := significant num den count
  let positional : Bool := -4 ≤ first ∧ first < count
  let places := if positional then (count - 1 - first).toNat else count - 1
  let dropped := if c.alternate then 0 else endingZeros n places
  let n := n / Nat.pow 10 dropped
  if positional then c.point (places - dropped) (Numeral.decimal n)
  else c.scientific mark (places - dropped) n first

/-- An integer as a floating-point number; the largest integers are none. -/
def asFloat? (c : Conversion) (n : Int) (write : Nat → Nat → List Char) : Option (List Char) :=
  match Binary64.ofRatio false n.natAbs 1 with
  | .infinite _ => none
  | .finite _ m p _ => some (c.padNumber (n < 0) [] (write (m * Nat.pow 2 p) (Nat.pow 2 1074)))

/-! ## Applying a conversion -/

def ofInteger? (c : Conversion) (n : Int) : Option (List Char) :=
  let places := c.precision.getD 6
  let count := max 1 places
  match c.letter with
  | 's' | 'r' | 'a' => some (c.pad (c.cut (Numeral.signed n)))
  | 'd' | 'i' | 'u' => some (c.inBase 10 [] false n)
  | 'o' => some (c.inBase 8 ['0', 'o'] false n)
  | 'x' => some (c.inBase 16 ['0', 'x'] false n)
  | 'X' => some (c.inBase 16 ['0', 'X'] true n)
  | 'c' => (character? n).map fun ch => c.pad [ch]
  | 'f' | 'F' => c.asFloat? n fun num den =>
      c.point places (Numeral.decimal (rounded num den (-(places : Int))))
  | 'e' | 'E' => c.asFloat? n fun num den =>
      let (digits, first) := significant num den (places + 1)
      c.scientific c.letter places digits first
  | 'g' => c.asFloat? n fun num den => c.shorter 'e' num den count
  | 'G' => c.asFloat? n fun num den => c.shorter 'E' num den count
  | _ => none

def ofText? (c : Conversion) (cs : List Char) : Option (List Char) :=
  match c.letter with
  | 's' => some (c.pad (c.cut cs))
  | 'r' => some (c.pad (c.cut (quoted cs)))
  | 'a' => some (c.pad (c.cut (asciiOnly (quoted cs))))
  | 'c' => if cs.length = 1 then some (c.pad cs) else none
  | _ => none

def ofSymbol? (c : Conversion) (shown : List Char) : Option (List Char) :=
  match c.letter with
  | 's' | 'r' => some (c.pad (c.cut shown))
  | 'a' => some (c.pad (c.cut (asciiOnly shown)))
  | _ => none

def write? (c : Conversion) : Operand → Option (List Char)
  | .text cs => c.ofText? cs
  | .integer n => c.ofInteger? n
  | .symbol shown => c.ofSymbol? shown

end Conversion

end DefTree.Text
