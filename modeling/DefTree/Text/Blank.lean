/-
Blank characters and trimming.

A blank is a character that may stand around a word without being part of
it: the white space of Unicode together with the four information
separators. `trim` takes the blanks off both ends of a text; nothing else
in the library decides where a word begins or ends.
-/
namespace DefTree.Text

def isBlank (c : Char) : Bool :=
  let n := c.toNat
  (0x09 ≤ n && n ≤ 0x0D) || (0x1C ≤ n && n ≤ 0x20) || n == 0x85 || n == 0xA0 || n == 0x1680 ||
    (0x2000 ≤ n && n ≤ 0x200A) || n == 0x2028 || n == 0x2029 || n == 0x202F || n == 0x205F ||
    n == 0x3000

def trimStart (cs : List Char) : List Char := cs.dropWhile isBlank

def trimEnd (cs : List Char) : List Char := (cs.reverse.dropWhile isBlank).reverse

def trim (cs : List Char) : List Char := trimEnd (trimStart cs)

def allBlank (cs : List Char) : Bool := cs.all isBlank

def indentation (cs : List Char) : Nat := (cs.takeWhile isBlank).length

end DefTree.Text
