/-
What can go wrong, and what is said about it.

A fault is a cause; `Fault.message` is the one place where causes get their
wording. The faults of the definition language itself (`Fault.isOwn`) are
those a reader of the text can mend: a line that cannot be read, an import
that fails. The others come from the limits of numbers, from files, from
settings that cannot be used and from the arguments of a call.
-/
import DefTree.Setting

namespace DefTree

inductive Complaint where
  | unknownLine
  | unclosedBlock
  | other (headline : String)
  deriving DecidableEq, Repr

def Complaint.headline : Complaint → String
  | .unknownLine => "Unknown syntax"
  | .unclosedBlock => "Unterminated block"
  | .other s => s

/-- A complaint about a line, with the line's number and text and the import that it belongs to,
as far as they are known. -/
structure Misreading where
  complaint : Complaint
  line : Option Int := none
  text : Option String := none
  source : Option String := none
  deriving DecidableEq, Repr

def Misreading.message (m : Misreading) : String :=
  m.complaint.headline ++
    (m.source.map (" in " ++ ·)).getD "" ++
    (m.line.map fun n => " at line " ++ String.ofList (Numeral.signed n)).getD "" ++
    (m.text.map (": " ++ ·)).getD ""

inductive FileFault where
  | notFound | notDirectory | isDirectory | nameTooLong
  deriving DecidableEq, Repr

def FileFault.message : FileFault → String
  | .notFound => "[Errno 2] No such file or directory"
  | .notDirectory => "[Errno 20] Not a directory"
  | .isDirectory => "[Errno 21] Is a directory"
  | .nameTooLong => "[Errno 36] File name too long"

/-- Bytes that an encoding does not allow: the first one, where it stands, how many belong to it,
and what is wrong. -/
structure DecodeFault where
  encoding : String
  byte : Nat
  position : Nat
  length : Nat
  reason : String
  deriving DecidableEq, Repr

def DecodeFault.message (f : DecodeFault) : String :=
  let start := String.ofList (Numeral.decimal f.position)
  let place :=
    if f.length = 1 then "byte 0x" ++ String.ofList (Numeral.hex 2 f.byte) ++ " in position " ++ start
    else "bytes in position " ++ start ++ "-" ++
      String.ofList (Numeral.decimal (f.position + f.length - 1))
  "'" ++ f.encoding ++ "' codec can't decode " ++ place ++ ": " ++ f.reason

inductive LogFault where
  | nameNotText
  | incomparable (a : Setting) (relation : String) (b : Setting)
  | notLevel (level : Setting)
  | unknownLevel (name : String)
  | formatNotText (format : Setting)
  /-- A format shows no field of a record. -/
  | emptyFormat (format : String)
  deriving DecidableEq

def LogFault.message : LogFault → String
  | .nameNotText => "A logger name must be a string"
  | .incomparable a relation b =>
    "'" ++ relation ++ "' not supported between instances of '" ++ a.kindName ++ "' and '" ++
      b.kindName ++ "'"
  | .notLevel level => "Level not an integer or a valid string: " ++ level.shown
  | .unknownLevel name => "Unknown level: " ++ String.ofList (Text.quoted name.toList)
  | .formatNotText format =>
    "expected string or bytes-like object, got '" ++ format.kindName ++ "'"
  | .emptyFormat format => "Invalid format '" ++ format ++ "' for '%' style"

inductive Fault where
  | misread (m : Misreading)
  | unreadableImport (path : String) (reason : Option String)
  /-- An import leads back to a text that is still being expanded. -/
  | importCycle (chain : List String)
  /-- Any other fault of the definition language, described by some values. -/
  | general (details : List Setting)
  /-- A decimal integer has more digits than may be read. -/
  | overlongNumeral (digits : Nat)
  /-- An integer has more digits than may be written. -/
  | overlongValue
  | nulInPath
  | file (fault : FileFault) (path : String)
  | undecodable (fault : DecodeFault)
  | outOfRange
  | hugeIndex
  | hugeDepth
  | overlongText
  | outOfMemory
  | negativeIndent
  | hugeIndent
  | noIndent
  | log (fault : LogFault)
  deriving DecidableEq

namespace Fault

def limitText : String :=
  "Exceeds the limit (" ++ String.ofList (Numeral.decimal Numeral.digitLimit) ++
    " digits) for integer string conversion"

def adviceText : String := "; use sys.set_int_max_str_digits() to increase the limit"

/-- What values say about a fault: a single text stands by itself, several values stand in
parentheses. -/
def describe : List Setting → String
  | [] => ""
  | [some (.text s)] => s
  | [v] => v.shown
  | vs => "(" ++ ", ".intercalate (vs.map Setting.shown) ++ ")"

def message : Fault → String
  | .misread m => m.message
  | .unreadableImport path reason =>
    "Cannot read import '" ++ path ++ "'" ++ match reason with
      | none => ""
      | some r => if r.isEmpty then "" else ": " ++ r
  | .importCycle chain => "Import cycle detected: " ++ " -> ".intercalate chain
  | .general details => describe details
  | .overlongNumeral n =>
    limitText ++ ": value has " ++ String.ofList (Numeral.decimal n) ++ " digits" ++ adviceText
  | .overlongValue => limitText ++ adviceText
  | .nulInPath => "embedded null byte"
  | .file f path => f.message ++ ": " ++ String.ofList (Text.quoted path.toList)
  | .undecodable f => f.message
  | .outOfRange => "list index out of range"
  | .hugeIndex | .hugeDepth => "cannot fit 'int' into an index-sized integer"
  | .overlongText => "repeated string is too long"
  | .outOfMemory => ""
  | .negativeIndent => "can't convert negative int to unsigned"
  | .hugeIndent => "int too big to convert"
  | .noIndent => "'list' object cannot be interpreted as an integer"
  | .log f => f.message

def isOwn : Fault → Bool
  | .misread _ | .unreadableImport .. | .importCycle _ | .general _ => true
  | _ => false

def isFile : Fault → Bool
  | .file .. | .undecodable _ => true
  | _ => false

def unknownLine (line : Int) (text : List Char) : Fault :=
  .misread { complaint := .unknownLine, line := some line, text := some (String.ofList text) }

def unclosedBlock (line : Int) (opener : List Char) : Fault :=
  .misread { complaint := .unclosedBlock, line := some line, text := some (String.ofList opener) }

/-- Names the import that a misread line belongs to, unless an inner import is named already. -/
def inSource (path : String) : Fault → Fault
  | .misread m => .misread { m with source := m.source <|> some path }
  | f => f

end Fault

end DefTree
