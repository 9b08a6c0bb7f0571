/-
Cutting a text at a separator and putting the pieces together again.

`pieces` always returns at least one piece, so that `joined` undoes it on
every text; lines are the pieces between line feeds, and no other character
ends a line.
-/
namespace DefTree.Text

def pieces (sep : Char) : List Char → List (List Char)
  | [] => [[]]
  | c :: cs =>
    if c = sep then [] :: pieces sep cs
    else match pieces sep cs with
      | [] => [[c]]
      | p :: ps => (c :: p) :: ps

/-- Pieces put together with a separator between them. -/
def joined (sep : Char) : List (List Char) → List Char
  | [] => []
  | [p] => p
  | p :: q :: ps => p ++ sep :: joined sep (q :: ps)

def lines (cs : List Char) : List (List Char) := pieces '\n' cs

def unlines (ls : List (List Char)) : List Char := joined '\n' ls

/-- A text without every character that a test picks. -/
def without (p : Char → Bool) (cs : List Char) : List Char := cs.filter fun c => !p c

/-- What follows a given beginning, if the text has it. -/
def after? : List Char → List Char → Option (List Char)
  | [], cs => some cs
  | _ :: _, [] => none
  | b :: bs, c :: cs => if b = c then after? bs cs else none

/-- A text cut at the first occurrence of a character, which belongs to neither part. -/
def cut? (sep : Char) : List Char → Option (List Char × List Char)
  | [] => none
  | c :: cs =>
    if c = sep then some ([], cs)
    else (cut? sep cs).map fun (before, rest) => (c :: before, rest)

theorem pieces_ne_nil (sep : Char) (cs : List Char) : pieces sep cs ≠ [] := by
  cases cs with
  | nil => simp [pieces]
  | cons c cs =>
    simp only [pieces]
    split
    · simp
    · split <;> simp

theorem joined_pieces (sep : Char) (cs : List Char) : joined sep (pieces sep cs) = cs := by
  induction cs with
  | nil => rfl
  | cons c cs ih =>
    simp only [pieces]
    split
    · next h =>
      obtain ⟨p, ps, hp⟩ := List.exists_cons_of_ne_nil (pieces_ne_nil sep cs)
      rw [hp] at ih ⊢
      simp [joined, ih, h]
    · split
      · next h => exact absurd h (pieces_ne_nil sep cs)
      · next p ps h =>
        rw [h] at ih
        cases ps with
        | nil => simpa [joined] using ih
        | cons q ps => simpa [joined] using ih

end DefTree.Text
