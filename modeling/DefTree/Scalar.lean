/-
Scalars: the values of properties and of section attributes.

A scalar is a text, a number or a truth value. A bare token is read as the
first of these that fits, numbers first; the value of a property may also
be a text in double quotes, which is then never read as anything else.
-/
import DefTree.Number
import DefTree.Text.Quoted

namespace DefTree

inductive Scalar where
  | text (s : String)
  | number (n : Number)
  | boolean (b : Bool)
  deriving DecidableEq

inductive ScalarKind where
  | text | number | boolean
  deriving DecidableEq, Repr

namespace ScalarKind

def label : ScalarKind → String
  | .text => "string"
  | .number => "number"
  | .boolean => "boolean"

def ofLabel? (s : String) : Option ScalarKind :=
  [ScalarKind.text, .number, .boolean].find? (·.label == s)

end ScalarKind

namespace Scalar

def kind : Scalar → ScalarKind
  | .text _ => .text
  | .number _ => .number
  | .boolean _ => .boolean

def boolean? (cs : List Char) : Option Bool :=
  if cs = "true".toList then some true
  else if cs = "false".toList then some false
  else none

def ofToken (cs : List Char) : Except Numeral.Overlong Scalar :=
  match Number.read? cs with
  | .error e => .error e
  | .ok (some n) => .ok (.number n)
  | .ok none => match boolean? cs with
    | some b => .ok (.boolean b)
    | none => .ok (.text (String.ofList cs))

def unquote? : List Char → Option (List Char)
  | '"' :: cs => if cs.getLast? = some '"' then some cs.dropLast else none
  | _ => none

def ofValue (raw : List Char) : Except Numeral.Overlong Scalar :=
  let cs := Text.trim raw
  match unquote? cs with
  | some inner => .ok (.text (String.ofList inner))
  | none => ofToken cs

/-- Floating-point numbers in log messages: positional from `0.0001` up to sixteen digits before
the point, and an exponent of two digits or more otherwise. -/
def floatLayout : FloatLayout where
  least := -4
  greatest := 15
  exponentWidth := 2
  infinite negative := (if negative then "-inf" else "inf").toList

/-- A scalar as log messages show it; an integer of more than `Numeral.digitLimit` digits cannot
be shown. -/
def shown? : Scalar → Option (List Char)
  | .text s => some (Text.quoted s.toList)
  | .boolean b => some (if b then "True" else "False").toList
  | .number (.float x) => some (floatLayout.write x)
  | .number (.integer n) =>
    if (Numeral.decimal n.natAbs).length ≤ Numeral.digitLimit then some (Numeral.signed n) else none

end Scalar

end DefTree
