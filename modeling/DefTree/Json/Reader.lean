/-
Reading JSON values from tokens.

The reader takes one token at a time and keeps the containers that are
still open on a stack, so it ends with the tokens whatever they are. A text
is accepted if the reader stands at a finished value with no container
open. Containers may be nested to any depth, here and where values are
written (`Json.render`); readers and writers that bound the depth refuse
some values that are taken here.
-/
import DefTree.Json.Token

namespace DefTree.Json

/-- A container that waits for the value of its next item, with the items before it in reverse. -/
inductive Frame where
  | item (done : List Json)
  | field (done : List (String × Json)) (key : String)

/-- What the reader expects next, with the container it is about where it is not on the stack. -/
inductive Expect where
  | value
  /-- A value or the end of an array just opened. -/
  | firstItem
  | afterItem (done : List Json)
  /-- A key or the end of an object just opened. -/
  | firstKey
  | key (done : List (String × Json))
  | colon (done : List (String × Json)) (key : String)
  | afterField (done : List (String × Json))
  | nothing (read : Json)

structure Reader where
  stack : List Frame
  expect : Expect

namespace Reader

def deliver (j : Json) : List Frame → Reader
  | [] => ⟨[], .nothing j⟩
  | .item done :: st => ⟨st, .afterItem (j :: done)⟩
  | .field done key :: st => ⟨st, .afterField ((key, j) :: done)⟩

def beginValue (st : List Frame) : Token → Option Reader
  | .null => some (deliver .null st)
  | .bool b => some (deliver (.bool b) st)
  | .num n => some (deliver (.num n) st)
  | .str s => some (deliver (.str s) st)
  | .openArray => some ⟨st, .firstItem⟩
  | .openObject => some ⟨st, .firstKey⟩
  | .closeArray | .closeObject | .comma | .colon => none

def step (r : Reader) (t : Token) : Option Reader :=
  match r.expect, t with
  | .value, t => beginValue r.stack t
  | .firstItem, .closeArray => some (deliver (.arr []) r.stack)
  | .firstItem, t => beginValue (.item [] :: r.stack) t
  | .afterItem done, .comma => some ⟨.item done :: r.stack, .value⟩
  | .afterItem done, .closeArray => some (deliver (.arr done.reverse) r.stack)
  | .firstKey, .closeObject => some (deliver (.obj []) r.stack)
  | .firstKey, .str k => some ⟨r.stack, .colon [] k⟩
  | .key done, .str k => some ⟨r.stack, .colon done k⟩
  | .colon done k, .colon => some ⟨.field done k :: r.stack, .value⟩
  | .afterField done, .comma => some ⟨r.stack, .key done⟩
  | .afterField done, .closeObject => some (deliver (.obj done.reverse) r.stack)
  | _, _ => none

def result? : Reader → Option Json
  | ⟨[], .nothing j⟩ => some j
  | _ => none

end Reader

def ofTokens? (ts : List Token) : Option Json :=
  (ts.foldlM Reader.step ⟨[], .value⟩).bind Reader.result?

def read? (s : String) : Option Json := (Token.scan? s.toList).bind ofTokens?

end DefTree.Json
