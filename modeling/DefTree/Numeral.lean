/-
Digits and the naturals and integers they denote.

`value` reads a run of digits in a base, `decimal` and `signed` write a
number in base ten. Decimal text of an integer is limited to `digitLimit`
digits, leading zeros included; a longer run is refused and `Overlong`
tells how long it was.
-/
namespace DefTree.Numeral

def digit? (base : Nat) (c : Char) : Option Nat :=
  let n := c.toNat
  let d : Option Nat :=
    if 0x30 ≤ n ∧ n ≤ 0x39 then some (n - 0x30)
    else if 0x41 ≤ n ∧ n ≤ 0x46 then some (n - 0x41 + 10)
    else if 0x61 ≤ n ∧ n ≤ 0x66 then some (n - 0x61 + 10)
    else none
  d.filter (· < base)

def isDigit (base : Nat) (c : Char) : Bool := (digit? base c).isSome

def value (base : Nat) (ds : List Char) : Nat :=
  ds.foldl (fun n c => n * base + (digit? base c).getD 0) 0

def natural? (base : Nat) (ds : List Char) : Option Nat :=
  if !ds.isEmpty && ds.all (isDigit base) then some (value base ds) else none

def decimal (n : Nat) : List Char := Nat.toDigits 10 n

def signed : Int → List Char
  | .ofNat n => decimal n
  | .negSucc n => '-' :: decimal (n + 1)

def hex (width n : Nat) : List Char :=
  let ds := Nat.toDigits 16 n
  List.replicate (width - ds.length) '0' ++ ds

def digitLimit : Nat := 4300

structure Overlong where
  digits : Nat
  deriving DecidableEq, Repr

def takeSign : List Char → Bool × List Char
  | '+' :: cs => (false, cs)
  | '-' :: cs => (true, cs)
  | cs => (false, cs)

def withSign (negative : Bool) (n : Nat) : Int := if negative then -n else n

end DefTree.Numeral
