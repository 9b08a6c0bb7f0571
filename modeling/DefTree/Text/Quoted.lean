/-
Quoted text, as log messages show it.

A text is put between single quotes, or between double quotes if it holds a
single quote and no double one. The quote in use and the backslash are
escaped, tab, line feed and carriage return have names, and every other
character that cannot be printed is written by its code in hexadecimal.
-/
import DefTree.Numeral
import DefTree.Text.Printable

namespace DefTree.Text

def quoteMark (cs : List Char) : Char :=
  if cs.contains '\x27' && !cs.contains '"' then '"' else '\x27'

/-- A character's code after a backslash, in as few digits as two, four or eight allow. -/
def codeEscape (c : Char) : List Char :=
  let n := c.toNat
  if n < 0x100 then '\\' :: 'x' :: Numeral.hex 2 n
  else if n < 0x10000 then '\\' :: 'u' :: Numeral.hex 4 n
  else '\\' :: 'U' :: Numeral.hex 8 n

def escapeIn (quote c : Char) : List Char :=
  if c = quote || c = '\\' then ['\\', c]
  else if c = '\t' then ['\\', 't']
  else if c = '\n' then ['\\', 'n']
  else if c = '\r' then ['\\', 'r']
  else if isPrintable c then [c]
  else codeEscape c

def quoted (cs : List Char) : List Char :=
  let q := quoteMark cs
  q :: (cs.flatMap (escapeIn q) ++ [q])

def asciiOnly (cs : List Char) : List Char :=
  cs.flatMap fun c => if c.toNat < 0x80 then [c] else codeEscape c

def quotedList (texts : List (List Char)) : List Char :=
  '[' :: ([',', ' '].intercalate (texts.map quoted) ++ [']'])

end DefTree.Text
