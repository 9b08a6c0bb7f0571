/-
JSON values and their text.

Objects keep the order of their fields, and integers and floating-point
numbers are told apart. `Json.render` writes a value on one line or with an
indentation; the two texts differ only in spaces and line feeds between
the tokens.
-/
import DefTree.Number

namespace DefTree

inductive Json where
  | null
  | bool (b : Bool)
  | num (n : Number)
  | str (s : String)
  | arr (items : List Json)
  | obj (fields : List (String × Json))
  deriving Inhabited

namespace Json

def field? (fields : List (String × Json)) (key : String) : Option Json :=
  (fields.find? (·.1 == key)).map (·.2)

/-! ## Leaves -/

/-- A character inside a string: quotes, backslashes and controls are escaped, all else stands
for itself. -/
def escape (c : Char) : List Char :=
  if c = '"' then ['\\', '"']
  else if c = '\\' then ['\\', '\\']
  else if c = '\x08' then ['\\', 'b']
  else if c = '\t' then ['\\', 't']
  else if c = '\n' then ['\\', 'n']
  else if c = '\x0c' then ['\\', 'f']
  else if c = '\r' then ['\\', 'r']
  else if c.toNat < 0x20 then '\\' :: 'u' :: Numeral.hex 4 c.toNat
  else [c]

def renderString (s : String) : List Char := '"' :: (s.toList.flatMap escape ++ ['"'])

/-- Floating-point numbers in JSON: positional from `0.00001` up to sixteen digits before the
point, exponents without padding; there is no infinite number, and `null` stands for it. -/
def floatLayout : FloatLayout where
  least := -5
  greatest := 15
  exponentWidth := 1
  infinite _ := "null".toList

def renderNumber : Number → List Char
  | .integer n => Numeral.signed n
  | .float x => floatLayout.write x

/-! ## Layout -/

/-- How the parts of a value are set apart: not at all, or on lines of their own, indented by a
number of spaces per level. -/
inductive Layout where
  | compact
  | indented (width : Nat)
  deriving DecidableEq, Repr

def Layout.lineBreak : Layout → Nat → List Char
  | .compact, _ => []
  | .indented width, depth => '\n' :: List.replicate (width * depth) ' '

def Layout.colon : Layout → List Char
  | .compact => [':']
  | .indented _ => [':', ' ']

mutual

def renderAt (l : Layout) (depth : Nat) : Json → List Char
  | .null => "null".toList
  | .bool b => (if b then "true" else "false").toList
  | .num n => renderNumber n
  | .str s => renderString s
  | .arr [] => "[]".toList
  | .arr (x :: xs) =>
    '[' :: (l.lineBreak (depth + 1) ++ renderAt l (depth + 1) x ++ renderItems l (depth + 1) xs ++
      l.lineBreak depth ++ [']'])
  | .obj [] => "\x7b\x7d".toList
  | .obj ((k, v) :: fs) =>
    '{' :: (l.lineBreak (depth + 1) ++ renderString k ++ l.colon ++ renderAt l (depth + 1) v ++
      renderFields l (depth + 1) fs ++ l.lineBreak depth ++ ['}'])

/-- The items after the first, each with its comma. -/
def renderItems (l : Layout) (depth : Nat) : List Json → List Char
  | [] => []
  | x :: xs => ',' :: (l.lineBreak depth ++ renderAt l depth x ++ renderItems l depth xs)

def renderFields (l : Layout) (depth : Nat) : List (String × Json) → List Char
  | [] => []
  | (k, v) :: fs =>
    ',' :: (l.lineBreak depth ++ renderString k ++ l.colon ++ renderAt l depth v ++
      renderFields l depth fs)

end

def render (l : Layout) (j : Json) : String := String.ofList (renderAt l 0 j)

end Json

end DefTree
