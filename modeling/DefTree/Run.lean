/-
Runs: results together with what happened on the way.

A run of the tree builder leaves a trail of events, whether it succeeds or
not: most of them are reported to the log, each at its level and in its
wording, and loading a text is an event of its own. Runs are sequenced
like results, and their events follow one another; a fault ends both.
-/
import DefTree.Fault
import DefTree.Scalar

namespace DefTree

inductive Event where
  | started (source : Option String)
  /-- A reference to an import stays in the tree. -/
  | kept (path : String)
  /-- An import is about to be replaced by what it holds. -/
  | expanding (path : String)
  | loading (path : String)
  | func (name : String) (arguments : List String)
  /-- A section that runs from line `first` to line `last`. -/
  | sect (name : String) (first last : Nat)
  | prop (name shown : String) (kind : ScalarKind)
  | finished (count : Nat)
  | failed (fault : Fault)
  deriving DecidableEq

namespace Event

def debug : Int := 10

def info : Int := 20

def error : Int := 40

/-- The log level and wording of an event; loading is not reported. -/
def report? : Event → Option (Int × String)
  | .started source =>
    some (info, "Parsing " ++ match source with
      | none => "<text>"
      | some s => if s.isEmpty then "<text>" else s)
  | .kept path => some (debug, "Keeping import reference '" ++ path ++ "'")
  | .expanding path => some (info, "Expanding import '" ++ path ++ "'")
  | .loading _ => none
  | .func name arguments =>
    some (debug, "Function '" ++ name ++ "' with arguments " ++
      String.ofList (Text.quotedList (arguments.map (·.toList))))
  | .sect name first last =>
    some (debug, "Section '" ++ name ++ "' spanning lines " ++
      String.ofList (Numeral.decimal first) ++ "-" ++ String.ofList (Numeral.decimal last))
  | .prop name shown kind =>
    some (debug, "Property '" ++ name ++ "' = " ++ shown ++ " (" ++ kind.label ++ ")")
  | .finished count =>
    some (info, "Parsed " ++ String.ofList (Numeral.decimal count) ++ " top-level node(s)")
  | .failed fault => some (error, fault.message)

def loaded? : Event → Option String
  | .loading path => some path
  | _ => none

end Event

structure Run (α : Type) where
  events : List Event
  result : Except Fault α

namespace Run

def andThen (r : Run α) (f : α → Run β) : Run β :=
  match r.result with
  | .error fault => ⟨r.events, .error fault⟩
  | .ok a => ⟨r.events ++ (f a).events, (f a).result⟩

instance : Monad Run where
  pure a := ⟨[], .ok a⟩
  bind := andThen

def fail (fault : Fault) : Run α := ⟨[], .error fault⟩

def emit (e : Event) : Run Unit := ⟨[e], .ok ()⟩

def mapFault (f : Fault → Fault) (r : Run α) : Run α := ⟨r.events, r.result.mapError f⟩

def loads (r : Run α) : List String := r.events.filterMap Event.loaded?

end Run

end DefTree
