/-
Formats: how records are written.

A format is a text in which a percent sign begins a conversion. It names the
field that is shown, in parentheses, and says how; the first one may leave
the name out and then shows all fields. Two percent signs stand for one.
`Format.hasField` tells whether a text shows any field at all, which is asked
before it is used as a format, and `Format.fill?` writes the fields into it.
The two read a text on their own: what shows a field may still not fit its
value, and then nothing is written.
-/
import DefTree.Text.Conversion
import DefTree.Text.ScriptDigit
import DefTree.Text.Word

namespace DefTree.Log.Format

open Text

def messageOnly : String := "%(message)s"

def isFlag (c : Char) : Bool := c == '#' || c == '0' || c == '-' || c == ' ' || c == '+'

/-! ## Texts that show a field -/

def isLetter (c : Char) : Bool := "diouxefgcrsaDIOUXEFGCRSAİıſ%".toList.contains c

def afterCount? : List Char → Option (List Char)
  | [] => none
  | c :: cs =>
    if c = '*' then some cs
    else if (scriptDigit? c).isSome then some (cs.dropWhile fun c => (scriptDigit? c).isSome)
    else none

/-- Whether what follows the name of a field completes a conversion. -/
def completes (cs : List Char) : Bool :=
  let cs := cs.dropWhile isFlag
  let cs := (afterCount? cs).getD cs
  let cs := match cs with
    | '.' :: rest => (afterCount? rest).getD cs
    | _ => cs
  cs.head?.any isLetter

def beginsWithField : List Char → Bool
  | '%' :: '(' :: cs =>
    isWordChar (cs.headD ')') && match cs.dropWhile isWordChar with
      | ')' :: rest => completes rest
      | _ => false
  | _ => false

def hasField : List Char → Bool
  | [] => false
  | c :: cs => beginsWithField (c :: cs) || hasField cs

/-! ## Pieces -/

/-- A part of a format: a character that stands for itself, or a conversion of a field or of all
fields together. -/
inductive Piece where
  | literal (c : Char)
  | field (name : String) (c : Conversion)
  | all (c : Conversion)
  deriving DecidableEq, Repr

def Piece.isLiteral : Piece → Bool
  | .literal _ => true
  | _ => false

/-- A name up to the parenthesis that closes it, where `depth` parentheses are open, and what
follows that. -/
def takeName? (depth : Nat) : List Char → Option (List Char × List Char)
  | [] => none
  | c :: cs =>
    if c = ')' then
      match depth with
      | 0 => some ([], cs)
      | depth + 1 => (takeName? depth cs).map fun (name, rest) => (c :: name, rest)
    else
      (takeName? (if c = '(' then depth + 1 else depth) cs).map fun (name, rest) => (c :: name, rest)

def takeCount (cs : List Char) : Nat × List Char :=
  (Numeral.value 10 (cs.takeWhile Char.isDigit), cs.dropWhile Char.isDigit)

def takePrecision : List Char → Option Nat × List Char
  | '.' :: cs => let (n, rest) := takeCount cs; (some n, rest)
  | cs => (none, cs)

/-- What follows a letter that other notations use to tell sizes apart; here it says nothing. -/
def afterSize : List Char → List Char
  | c :: cs => if c = 'h' || c = 'l' || c = 'L' then cs else c :: cs
  | [] => []

def takeConversion? (cs : List Char) : Option (Conversion × List Char) :=
  let flags := cs.takeWhile isFlag
  let (width, cs) := takeCount (cs.dropWhile isFlag)
  let (precision, cs) := takePrecision cs
  match afterSize cs with
  | [] => none
  | letter :: rest =>
    some ({ left := flags.contains '-', plus := flags.contains '+', space := flags.contains ' '
            alternate := flags.contains '#', zeros := flags.contains '0'
            width, precision, letter }, rest)

def takePiece? : List Char → Option (Piece × List Char)
  | '%' :: cs => some (.literal '%', cs)
  | '(' :: cs => match takeName? 0 cs with
    | none => none
    | some (name, cs) => (takeConversion? cs).map fun (c, rest) =>
      (.field (String.ofList name) c, rest)
  | cs => (takeConversion? cs).map fun (c, rest) => (.all c, rest)

/-- The pieces of a format; none if a conversion is not complete. The first `skip` characters
belong to a piece that has been taken. -/
def pieces? (skip : Nat) : List Char → Option (List Piece)
  | [] => some []
  | c :: cs =>
    match skip with
    | skip + 1 => pieces? skip cs
    | 0 =>
      if c = '%' then
        match takePiece? cs with
        | none => none
        | some (piece, rest) => (pieces? (cs.length - rest.length) cs).map (piece :: ·)
      else (pieces? 0 cs).map (.literal c :: ·)

/-! ## Filling in -/

/-- Whether every conversion after the first names a field. -/
def wellNamed (pieces : List Piece) : Bool :=
  ((pieces.filter fun p => !p.isLiteral).drop 1).all fun
    | .all _ => false
    | _ => true

def together (fields : List (String × Operand)) : List Char :=
  let shown (f : String × Operand) : List Char := quoted f.1.toList ++ [':', ' '] ++ f.2.shown
  '{' :: ([',', ' '].intercalate (fields.map shown) ++ ['}'])

def Piece.write? (fields : List (String × Operand)) : Piece → Option (List Char)
  | .literal c => some [c]
  | .field name c => (fields.lookup name).bind c.write?
  | .all c => c.write? (.symbol (together fields))

def fill? (fields : List (String × Operand)) (format : List Char) : Option (List Char) :=
  match pieces? 0 format with
  | none => none
  | some pieces =>
    if wellNamed pieces then (pieces.mapM (Piece.write? fields)).map List.flatten else none

end DefTree.Log.Format
