/-
Blocks: the lines between an opening brace and the one that closes it.

The scan counts braces, except within double quotes and after a backslash,
and the block ends on the line where the count returns to zero; that line
belongs to no block. `Block.unindent` frees the body of a function of the
margin that all its lines share.
-/
import DefTree.Text.Blank
import DefTree.Text.Lines

namespace DefTree

/-- What the scan knows at a point of the text: how many braces are open, whether it stands inside
double quotes, and whether a backslash came just before. -/
structure Scan where
  depth : Int := 1
  quoted : Bool := false
  escaped : Bool := false
  deriving DecidableEq, Repr

namespace Scan

def feed (s : Scan) (c : Char) : Scan :=
  if s.escaped then { s with escaped := false }
  else if c = '\\' then { s with escaped := true }
  else if c = '"' then { s with quoted := !s.quoted }
  else if s.quoted then s
  else if c = '{' then { s with depth := s.depth + 1 }
  else if c = '}' then { s with depth := s.depth - 1 }
  else s

/-- The scan after a line, or at the point of it where no brace is open any more. -/
def feedLine (s : Scan) : List Char → Scan
  | [] => s
  | c :: cs => let s := s.feed c; if s.depth = 0 then s else s.feedLine cs

def trail (s : Scan) : List Char → List Scan
  | [] => []
  | c :: cs => let s := s.feed c; s :: s.trail cs

end Scan

namespace Block

/-- The lines of a block and the lines after the one that closes it; `none` if none does. -/
def split? (s : Scan) : List (List Char) → Option (List (List Char) × List (List Char))
  | [] => none
  | l :: ls =>
    let s := s.feedLine l
    if s.depth = 0 then some ([], ls)
    else (split? s ls).map fun (body, rest) => (l :: body, rest)

theorem length_of_split? {s : Scan} {ls body rest : List (List Char)}
    (h : split? s ls = some (body, rest)) : body.length + 1 + rest.length = ls.length := by
  induction ls generalizing s body rest with
  | nil => simp [split?] at h
  | cons l ls ih =>
    simp only [split?] at h
    split at h
    · simp only [Option.some.injEq, Prod.mk.injEq] at h
      obtain ⟨rfl, rfl⟩ := h
      simp only [List.length_nil, List.length_cons]; omega
    · obtain ⟨⟨b, r⟩, hb, e⟩ := Option.map_eq_some_iff.1 h
      simp only [Prod.mk.injEq] at e
      obtain ⟨rfl, rfl⟩ := e
      have := ih hb
      simp only [List.length_cons]; omega

theorem length_body_lt {s : Scan} {ls body rest : List (List Char)}
    (h : split? s ls = some (body, rest)) : body.length < ls.length := by
  have := length_of_split? h; omega

theorem length_rest_lt {s : Scan} {ls body rest : List (List Char)}
    (h : split? s ls = some (body, rest)) : rest.length < ls.length := by
  have := length_of_split? h; omega

/-! ## The shared margin -/

def trimLines (ls : List (List Char)) : List (List Char) :=
  ((ls.dropWhile Text.allBlank).reverse.dropWhile Text.allBlank).reverse

/-- The least number of blanks that a line which is not all blank begins with. -/
def margin (ls : List (List Char)) : Nat :=
  (((ls.filter (!Text.allBlank ·)).map Text.indentation).min?).getD 0

/-- A line without a margin, if it begins with that many spaces. -/
def cutMargin (width : Nat) (l : List Char) : List Char :=
  (Text.after? (List.replicate width ' ') l).getD l

def unindent (ls : List (List Char)) : List (List Char) :=
  let ls := trimLines ls
  ls.map (cutMargin (margin ls))

end Block

end DefTree
