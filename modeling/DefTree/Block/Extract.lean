/-
Taking a block out of a list of lines by index.

An index below zero counts from the end; the scan then goes from there to
the last line and on through all lines from the first.
-/
import DefTree.Block
import DefTree.Index

namespace DefTree.Block

/-- The lines that a scan from an index goes through. An index after them all leaves no lines, one
before them all is a fault. -/
def linesFrom (ls : List (List Char)) (start : Int) : Except Fault (List (List Char)) :=
  if 0 ≤ start then .ok (ls.drop start.toNat)
  else (Index.position start ls.length).map fun k => ls.drop k ++ ls

def opener (ls : List (List Char)) (start : Int) : List Char :=
  if 0 < start then Text.trim (ls[start.toNat - 1]?.getD []) else []

/-- The lines of the block whose first line has index `start`, and the index of the line that
closes it. `offset` is added to the line number of a block that is not closed. -/
def extract (ls : List (List Char)) (start offset : Int) : Except Fault (List (List Char) × Int) :=
  match linesFrom ls start with
  | .error fault => .error fault
  | .ok rest => match split? {} rest with
    | none => .error (.unclosedBlock (offset + start) (opener ls start))
    | some (body, _) => .ok (body, start + body.length)

end DefTree.Block
