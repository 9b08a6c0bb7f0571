/-
Settings: the values that are given for the switches and limits of a run.

A setting may be any scalar, or null. What it is used for decides how it is
read: as a switch every value counts, and as a number a truth value counts
as one or zero.
-/
import DefTree.Scalar

namespace DefTree

def Number.isZero : Number → Bool
  | .integer n => n = 0
  | .float (.finite _ m _ _) => m = 0
  | .float (.infinite _) => false

def Number.isBelow : Number → Int → Bool
  | .integer k, n => k < n
  | .float (.finite negative m p _), n =>
    Numeral.withSign negative (m * Nat.pow 2 p) < n * Nat.pow 2 1074
  | .float (.infinite negative), _ => negative

def Number.isAtMost : Number → Int → Bool
  | .integer k, n => k ≤ n
  | .float (.finite negative m p _), n =>
    Numeral.withSign negative (m * Nat.pow 2 p) ≤ n * Nat.pow 2 1074
  | .float (.infinite negative), _ => negative

/-- A scalar, or none for null. -/
abbrev Setting := Option Scalar

namespace Setting

def ofBool (b : Bool) : Setting := some (.boolean b)

def ofInt (n : Int) : Setting := some (.number (.integer n))

def ofText (s : String) : Setting := some (.text s)

/-- Whether a setting counts as switched on: all do but null, false, zero and the empty text. -/
def isOn : Setting → Bool
  | none => false
  | some (.boolean b) => b
  | some (.number n) => !n.isZero
  | some (.text s) => !s.isEmpty

def number? : Setting → Option Number
  | some (.number n) => some n
  | some (.boolean b) => some (.integer (if b then 1 else 0))
  | _ => none

def kindName : Setting → String
  | none => "NoneType"
  | some (.boolean _) => "bool"
  | some (.number (.integer _)) => "int"
  | some (.number (.float _)) => "float"
  | some (.text _) => "str"

def shown : Setting → String
  | none => "None"
  | some v => String.ofList (v.shown?.getD [])

@[simp] theorem number?_ofInt (n : Int) : (ofInt n).number? = some (.integer n) := rfl

end Setting

end DefTree
