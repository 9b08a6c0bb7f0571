/-
The shapes of a line.

A line is an import directive, the header of a function or of a section, a
property, or none of these. `Line.read` decides by the first shape that
fits, in that order, from the line alone.
-/
import DefTree.Text.Blank
import DefTree.Text.Lines

namespace DefTree

inductive Line where
  /-- `@import "path"`, or `@import nonfinal "path"` for one that stays in the tree. -/
  | ref (path : List Char) (deferred : Bool)
  /-- `name(argument, …)`; `opened` if the line also holds the opening brace. -/
  | func (name : List Char) (arguments : List (List Char)) (opened : Bool)
  /-- `name attributes {`. -/
  | sect (name attributes : List Char)
  /-- `key: value`, where the value is everything after the first colon. -/
  | prop (key value : List Char)
  | unknown (text : List Char)
  deriving DecidableEq, Repr

namespace Line

/-! ## Imports -/

def importMark : List Char := "@import ".toList

def deferredMark : List Char := "@import nonfinal ".toList

/-- Takes the blanks after the keyword off, and before them the word `nonfinal` if it is followed
by a blank. -/
def afterKeyword (cs : List Char) : List Char :=
  match Text.after? "nonfinal".toList cs with
  | some (c :: rest) => if Text.isBlank c then Text.trimStart rest else Text.trimStart cs
  | _ => Text.trimStart cs

def cleanPath (cs : List Char) : List Char :=
  Text.trim (Text.without (fun c => c == '"' || c == '\x27') cs)

def ref? (cs : List Char) : Option Line :=
  (Text.after? importMark cs).map fun rest =>
    .ref (cleanPath (afterKeyword rest)) (Text.after? deferredMark cs).isSome

/-! ## Function headers -/

def isWordChar (c : Char) : Bool := c.isAlphanum || c == '_'

/-- Whether a text ends in a closing parenthesis, blanks and an opening brace after it aside, with
no line feed before that parenthesis. -/
def closesHeader (cs : List Char) : Bool :=
  let cs := if cs.getLast? = some '{' then cs.dropLast else cs
  let cs := Text.trimEnd cs
  cs.getLast? = some ')' && !cs.contains '\n'

/-- The arguments in a text between parentheses: its parts between commas, blank ones left out. -/
def arguments (cs : List Char) : List (List Char) :=
  ((Text.pieces ',' cs).map Text.trim).filter (!·.isEmpty)

/-- Reads a function header: a word, and parentheses up to the end of the line or its brace. -/
def func? (cs : List Char) : Option Line :=
  let name := cs.takeWhile isWordChar
  match cs.dropWhile isWordChar with
  | '(' :: rest =>
    if !name.isEmpty && closesHeader rest then
      some (.func name (arguments (rest.takeWhile (· != ')'))) (cs.contains '{'))
    else none
  | _ => none

/-! ## Sections and properties -/

def isBrace (c : Char) : Bool := c == '{' || c == '}'

/-- Reads a section header: the name runs to the first space, and what follows it without braces
is its attribute list. -/
def sect? (cs : List Char) : Option Line :=
  if cs.contains '{' then
    some (.sect (cs.takeWhile (· != ' ')) (Text.trim (Text.without isBrace (cs.dropWhile (· != ' ')))))
  else none

def prop? (cs : List Char) : Option Line :=
  (Text.cut? ':' cs).map fun (key, value) => .prop (Text.trim key) value

def read (cs : List Char) : Line :=
  (ref? cs <|> func? cs <|> sect? cs <|> prop? cs).getD (.unknown cs)

end Line

end DefTree
