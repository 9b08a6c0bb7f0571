/-
Comments and their removal.

A line comment runs from `//` to the end of its line, a block comment from
`/*` to the nearest `*/` after it. Line comments go first, so a `//` inside
a block comment also hides the rest of its line, and quotes protect
nothing. A block comment that is never closed stays in the text.
-/
namespace DefTree.Comment

def afterClose? : List Char → Option (List Char)
  | [] => none
  | '*' :: '/' :: cs => some cs
  | _ :: cs => afterClose? cs

theorem length_of_afterClose? {cs rest : List Char} (h : afterClose? cs = some rest) :
    rest.length < cs.length := by
  fun_induction afterClose? cs with
  | case1 => cases h
  | case2 cs => cases h; simp only [List.length_cons]; omega
  | case3 c cs _ ih => have := ih h; simp only [List.length_cons]; omega

/-- A text without its line comments. The line feed after a comment stays. -/
def eraseLine : List Char → List Char
  | [] => []
  | '/' :: '/' :: cs => eraseLine (cs.dropWhile (· != '\n'))
  | c :: cs => c :: eraseLine cs
termination_by cs => cs.length
decreasing_by
  · have := (List.dropWhile_sublist (· != '\n') (l := cs)).length_le
    simp only [List.length_cons]; omega
  · simp

def eraseBlock : List Char → List Char
  | [] => []
  | '/' :: '*' :: cs =>
    match _h : afterClose? cs with
    | some rest => eraseBlock rest
    | none => '/' :: '*' :: cs
  | c :: cs => c :: eraseBlock cs
termination_by cs => cs.length
decreasing_by
  · have := length_of_afterClose? _h; simp only [List.length_cons]; omega
  · simp

def erase (cs : List Char) : List Char := eraseBlock (eraseLine cs)

end DefTree.Comment
