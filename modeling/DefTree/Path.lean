/-
Paths of files, and the places they lead to.

A path is read from its text without regard to repeated slashes and to
parts that are a single dot; `..` stays, as only the walk through the
directories can tell what it means. A place is where an absolute path leads
when `..` takes back the part before it. The key of a path is the text of
its place, so that all spellings of a path have one key.
-/
import DefTree.Text.Lines

namespace DefTree

/-- Where a path starts: in the working directory or at the root, for which one slash or exactly
two may be written. -/
inductive Anchor where
  | working | slash | doubleSlash
  deriving DecidableEq, Repr

def Anchor.text : Anchor → String
  | .working => ""
  | .slash => "/"
  | .doubleSlash => "//"

structure Path where
  anchor : Anchor
  parts : List String
  deriving DecidableEq, Repr

/-- The names of a directory or file and of the directories around it, the innermost first. -/
abbrev Place := List String

namespace Place

/-- The place that parts of a path lead to from another one. Above the root there is nothing. -/
def follow (here : Place) : List String → Place
  | [] => here
  | part :: parts =>
    if part = ".." then follow here.tail parts else follow (part :: here) parts

def text (anchor : Anchor) (p : Place) : String := anchor.text ++ "/".intercalate p.reverse

end Place

namespace Path

def anchorOf (slashes : Nat) : Anchor :=
  if slashes = 0 then .working else if slashes = 2 then .doubleSlash else .slash

def ofText (s : String) : Path where
  anchor := anchorOf (s.toList.takeWhile (· == '/')).length
  parts := ((Text.pieces '/' s.toList).map String.ofList).filter fun p => p ≠ "" ∧ p ≠ "."

def isAbsolute (p : Path) : Bool := p.anchor ≠ .working

/-- The text of a path; a path without parts is a dot if it is relative. -/
def text (p : Path) : String :=
  if p.anchor = .working ∧ p.parts = [] then "." else p.anchor.text ++ "/".intercalate p.parts

/-- A path seen from a directory; an absolute path is the same from everywhere. -/
def under (base p : Path) : Path :=
  if p.isAbsolute then p else { anchor := base.anchor, parts := base.parts ++ p.parts }

def start (cwd : Place) (p : Path) : Place := if p.isAbsolute then [] else cwd

def place (cwd : Place) (p : Path) : Place := (p.start cwd).follow p.parts

def keyAnchor (p : Path) : Anchor := if p.isAbsolute then p.anchor else .slash

def key (cwd : Place) (p : Path) : String := (p.place cwd).text p.keyAnchor

theorem keyAnchor_eq (p : Path) : p.keyAnchor = .slash ∨ p.keyAnchor = .doubleSlash := by
  unfold keyAnchor isAbsolute
  cases p.anchor <;> simp

end Path

end DefTree
