/-
The tokens of a JSON text.

`Token.scan?` cuts a text into punctuation, strings and words, leaving the
white space between them out; words are the three literals and the numbers.
An integer of more than `Numeral.digitLimit` digits is refused.
-/
import DefTree.Json

namespace DefTree.Json

inductive Token where
  | openArray | closeArray | openObject | closeObject | comma | colon
  | null
  | bool (b : Bool)
  | num (n : Number)
  | str (s : String)
  deriving DecidableEq

namespace Token

def isSpace (c : Char) : Bool := c == ' ' || c == '\t' || c == '\n' || c == '\r'

def isWordChar (c : Char) : Bool := c.isAlphanum || c == '+' || c == '-' || c == '.'

/-! ## Numbers -/

/-- Whether a decimal literal has the form JSON asks for: no leading zero, digits on both sides
of a point. -/
def wellWritten (l : DecimalLiteral) : Bool :=
  !l.whole.isEmpty && (l.whole == ['0'] || l.whole.head? != some '0') && l.fraction != some []

def number? (cs : List Char) : Option Number :=
  if cs.head? = some '+' then none
  else match DecimalLiteral.read? cs with
    | none => none
    | some l =>
      if !wellWritten l then none
      else if !l.isInteger then some (.float l.toFloat)
      else if Numeral.digitLimit < l.whole.length then none
      else some (.integer (Numeral.withSign l.negative (Numeral.value 10 l.whole)))

def word? (cs : List Char) : Option Token :=
  if cs = "null".toList then some .null
  else if cs = "true".toList then some (.bool true)
  else if cs = "false".toList then some (.bool false)
  else (number? cs).map .num

/-! ## Strings -/

def named? (c : Char) : Option Char :=
  if c = '"' || c = '\\' || c = '/' then some c
  else if c = 'b' then some '\x08'
  else if c = 't' then some '\t'
  else if c = 'n' then some '\n'
  else if c = 'f' then some '\x0c'
  else if c = 'r' then some '\r'
  else none

/-- A string up to its closing quote as a sequence of code units, and what follows it. A code
written with four digits is a unit of its own; any other character is one unit here. -/
def takeUnits : List Char → Option (List Nat × List Char)
  | [] => none
  | '"' :: cs => some ([], cs)
  | '\\' :: 'u' :: a :: b :: c :: d :: cs =>
    match Numeral.natural? 16 [a, b, c, d], takeUnits cs with
    | some n, some (us, rest) => some (n :: us, rest)
    | _, _ => none
  | '\\' :: c :: cs =>
    match named? c, takeUnits cs with
    | some c, some (us, rest) => some (c.toNat :: us, rest)
    | _, _ => none
  | c :: cs =>
    if c.toNat < 0x20 || c = '\\' then none
    else match takeUnits cs with
      | some (us, rest) => some (c.toNat :: us, rest)
      | none => none

def isHighUnit (n : Nat) : Bool := 0xD800 ≤ n && n < 0xDC00

def isLowUnit (n : Nat) : Bool := 0xDC00 ≤ n && n < 0xE000

/-- The characters of a sequence of units, where a high and a low one make a character together;
one of them alone makes none. -/
def ofUnits? : List Nat → Option (List Char)
  | [] => some []
  | n :: us =>
    if isHighUnit n then
      match us with
      | m :: us =>
        if isLowUnit m then
          (ofUnits? us).map (Char.ofNat (0x10000 + (n - 0xD800) * 0x400 + (m - 0xDC00)) :: ·)
        else none
      | [] => none
    else if isLowUnit n then none
    else (ofUnits? us).map (Char.ofNat n :: ·)

theorem length_of_takeUnits {cs rest : List Char} {us : List Nat}
    (h : takeUnits cs = some (us, rest)) : rest.length < cs.length := by
  fun_induction takeUnits cs generalizing us with
  | case1 => simp at h
  | case2 cs => simp at h; obtain ⟨_, rfl⟩ := h; simp
  | case3 a b c d cs n us' rest' hu hn ih =>
    simp at h; obtain ⟨_, rfl⟩ := h
    have := ih hu; simp only [List.length_cons]; omega
  | case4 => simp at h
  | case5 c cs _ c' us' rest' hu hn ih =>
    simp at h; obtain ⟨_, rfl⟩ := h
    have := ih hu; simp only [List.length_cons]; omega
  | case6 => simp at h
  | case7 => simp at h
  | case8 c cs _ _ _ _ us' rest' hu ih =>
    simp at h; obtain ⟨_, rfl⟩ := h
    have := ih hu; simp only [List.length_cons]; omega
  | case9 => simp at h

/-! ## Texts -/

def mark? (c : Char) : Option Token :=
  if c = '[' then some .openArray
  else if c = ']' then some .closeArray
  else if c = '{' then some .openObject
  else if c = '}' then some .closeObject
  else if c = ',' then some .comma
  else if c = ':' then some .colon
  else none

def scan? : List Char → Option (List Token)
  | [] => some []
  | c :: cs =>
    if isSpace c then scan? cs
    else match mark? c with
      | some t => (scan? cs).map (t :: ·)
      | none =>
        if c = '"' then
          match _h : takeUnits cs with
          | some (us, rest) =>
            match ofUnits? us, scan? rest with
            | some s, some ts => some (.str (String.ofList s) :: ts)
            | _, _ => none
          | none => none
        else if isWordChar c then
          match word? (c :: cs.takeWhile isWordChar), scan? (cs.dropWhile isWordChar) with
          | some t, some ts => some (t :: ts)
          | _, _ => none
        else none
termination_by cs => cs.length
decreasing_by
  · simp
  · simp
  · have := length_of_takeUnits _h; simp only [List.length_cons]; omega
  · have := (List.dropWhile_sublist isWordChar (l := cs)).length_le
    simp only [List.length_cons]; omega

end Token

end DefTree.Json
