/-
The options of the command line.

Every argument is first told apart by itself: an option that is spelt out,
shortened to a beginning that no other option shares, or run together with
others or with its value; the mark `--`, after which nothing is an option;
or a plain argument. Then the arguments are taken from left to right, where
an option may ask for the plain argument after it and the first plain
argument left over is the input.
-/
import DefTree.Numeral
import DefTree.Text.Blank
import DefTree.Text.Lines
import DefTree.Text.Quoted
import DefTree.Text.ScriptDigit

namespace DefTree.CommandLine

inductive Switch where
  | help | output
  | imports (expand : Bool)
  | indent | tree | verbose
  deriving DecidableEq, Repr

def spellings : List (String × Switch) :=
  [("-h", .help), ("--help", .help), ("-o", .output), ("--output", .output),
    ("--imports", .imports true), ("--no-imports", .imports false), ("--indent", .indent),
    ("--tree", .tree), ("-v", .verbose), ("--verbose", .verbose)]

namespace Switch

def takesValue : Switch → Bool
  | .output | .indent => true
  | _ => false

def label : Switch → String
  | .help => "-h/--help"
  | .output => "-o/--output"
  | .imports _ => "--imports/--no-imports"
  | .indent => "--indent"
  | .tree => "--tree"
  | .verbose => "-v/--verbose"

end Switch

inductive Misuse where
  | noInput
  | unrecognized (args : List String)
  | ambiguous (arg : String) (candidates : List String)
  | badIndent (value : String)
  | noValue (s : Switch)
  | unusedValue (s : Switch) (value : String)
  deriving DecidableEq, Repr

def Misuse.message : Misuse → String
  | .noInput => "the following arguments are required: input"
  | .unrecognized args => "unrecognized arguments: " ++ " ".intercalate args
  | .ambiguous arg candidates =>
    "ambiguous option: " ++ arg ++ " could match " ++ ", ".intercalate candidates
  | .badIndent value =>
    "argument " ++ Switch.indent.label ++ ": invalid int value: " ++
      String.ofList (Text.quoted value.toList)
  | .noValue s => "argument " ++ s.label ++ ": expected one argument"
  | .unusedValue s value =>
    "argument " ++ s.label ++ ": ignored explicit argument " ++
      String.ofList (Text.quoted value.toList)

/-! ## Words -/

inductive Word where
  | plain
  /-- The mark after which nothing is an option. -/
  | mark
  /-- An option; `long` if it is spelt with two dashes. More text may be attached to it. -/
  | switch (s : Switch) (long : Bool) (attached : Option (List Char))
  /-- An option that there is not. -/
  | unknown
  deriving DecidableEq, Repr

def Word.isOption : Word → Bool
  | .switch .. | .unknown => true
  | _ => false

def isLong (cs : List Char) : Bool := ['-', '-'].isPrefixOf cs

def cutValue (cs : List Char) : List Char × Option (List Char) :=
  match Text.cut? '=' cs with
  | some (name, attached) => (name, some attached)
  | none => (cs, none)

/-- The options that an argument may stand for: those that begin with it if it has two dashes, and
otherwise the one of its first letter, the rest being attached to it. -/
def candidates (cs : List Char) : List (String × Switch × Option (List Char)) :=
  if isLong cs then
    let (name, attached) := cutValue cs
    (spellings.filter fun (spelling, _) => name.isPrefixOf spelling.toList).map
      fun (spelling, s) => (spelling, s, attached)
  else
    (spellings.filter fun (spelling, _) => spelling.toList = cs.take 2).map
      fun (spelling, s) => (spelling, s, some (cs.drop 2))

/-- Whether a text is a run of digits, or has a point with digits after it. -/
def looksNumeric (cs : List Char) : Bool :=
  let isDigit (c : Char) : Bool := (Text.scriptDigit? c).isSome
  (!cs.isEmpty && cs.all isDigit) ||
    match cs.dropWhile isDigit with
    | '.' :: ds => !ds.isEmpty && ds.all isDigit
    | _ => false

def isNegativeNumber : List Char → Bool
  | '-' :: cs => looksNumeric (if cs.getLast? = some '\n' then cs.dropLast else cs)
  | _ => false

def exactly? (cs : List Char) : Option Switch := spellings.lookup (String.ofList cs)

def classify (arg : String) : Except Misuse Word :=
  let cs := arg.toList
  if cs.head? ≠ some '-' then .ok .plain
  else match exactly? cs with
    | some s => .ok (.switch s (isLong cs) none)
    | none =>
      if cs.length = 1 then .ok .plain
      else
        let (name, attached) := cutValue cs
        match attached, exactly? name with
        | some _, some s => .ok (.switch s (isLong name) attached)
        | _, _ => match candidates cs with
          | [(spelling, s, attached)] => .ok (.switch s (isLong spelling.toList) attached)
          | [] =>
            if isNegativeNumber cs || cs.contains ' ' then .ok .plain else .ok .unknown
          | several => .error (.ambiguous arg (several.map (·.1)))

/-- The arguments with what they are. After the mark all of them are plain. -/
def words : List String → Except Misuse (List (String × Word))
  | [] => .ok []
  | arg :: args =>
    if arg = "--" then .ok ((arg, .mark) :: args.map (·, .plain))
    else match classify arg, words args with
      | .error e, _ => .error e
      | .ok _, .error e => .error e
      | .ok w, .ok ws => .ok ((arg, w) :: ws)

/-! ## Options run together -/

/-- The value that is attached to an option. The mark is no value. -/
def value? (cs : List Char) : Option String :=
  if cs = ['-', '-'] then none else some (String.ofList cs)

/-- What an argument with options holds: options that are complete, and one that may still take the
next argument as its value. -/
structure Cluster where
  complete : List (Switch × Option String) := []
  open? : Option Switch := none
  deriving DecidableEq, Repr

def Cluster.after (s : Switch) (c : Cluster) : Cluster :=
  { c with complete := (s, none) :: c.complete }

/-- The options in an argument that begins with one and has more text attached: the value of that
option if it takes one, and otherwise the letters of further options, provided that they are
spelt with one dash. -/
def expand (s : Switch) (long : Bool) (attached : List Char) : Except Misuse Cluster :=
  if s.takesValue then .ok { complete := [(s, value? attached)] }
  else match attached with
    | [] => .error (.unusedValue s "")
    | c :: rest => match if long then none else exactly? ['-', c] with
      | none => .error (.unusedValue s (String.ofList (c :: rest)))
      | some next =>
        if rest.isEmpty then .ok { complete := [(s, none)], open? := some next }
        else (expand next false rest).map (·.after s)

def clusterOf (s : Switch) (long : Bool) : Option (List Char) → Except Misuse Cluster
  | none => .ok { open? := some s }
  | some attached => expand s long attached

/-! ## Taking the arguments -/

/-- What the arguments ask for. The indentation is none if the mark stands in its place. -/
structure Options where
  input : String
  output : Option String := none
  imports : Bool := true
  indent : Option Int := some 2
  tree : Bool := false
  verbose : Bool := false
  deriving DecidableEq, Repr

/-- The options so far, without the input if it has not come yet, and what nobody asked for. -/
structure Draft where
  input : Option String := none
  options : Options := { input := "" }
  extras : List String := []

inductive Stop where
  | help
  | misuse (m : Misuse)
  deriving DecidableEq, Repr

/-- Whether a character may stand around an integer: a blank, but not an information separator. -/
def isPadding (c : Char) : Bool := Text.isBlank c && !(0x1C ≤ c.toNat && c.toNat ≤ 0x1F)

/-- Reads an integer: digits of any script, after a sign, with single underscores between them. -/
def integer? (s : String) : Option Int :=
  let padded := s.toList.dropWhile isPadding
  let (negative, cs) := Numeral.takeSign (padded.reverse.dropWhile isPadding).reverse
  let groups := Text.pieces '_' cs
  let digits := groups.flatten.map Text.scriptDigit?
  if groups.any (·.isEmpty) || digits.contains none || Numeral.digitLimit < digits.length then none
  else some (Numeral.withSign negative (digits.foldl (fun n d => n * 10 + d.getD 0) 0))

def Draft.set (d : Draft) (s : Switch) (value : Option String) : Except Stop Draft :=
  match s with
  | .help => .error .help
  | .output => .ok { d with options := { d.options with output := value } }
  | .imports expand => .ok { d with options := { d.options with imports := expand } }
  | .indent => match value with
    | none => .ok { d with options := { d.options with indent := none } }
    | some value => match integer? value with
      | some n => .ok { d with options := { d.options with indent := some n } }
      | none => .error (.misuse (.badIndent value))
  | .tree => .ok { d with options := { d.options with tree := true } }
  | .verbose => .ok { d with options := { d.options with verbose := true } }

/-- The input at the front of the arguments, with the mark before or after it, and what follows. -/
def takeInput : List (String × Word) → Option (String × List (String × Word))
  | (_, .mark) :: (arg, .plain) :: rest => some (arg, rest)
  | (arg, .plain) :: (_, .mark) :: rest => some (arg, rest)
  | (arg, .plain) :: rest => some (arg, rest)
  | _ => none

theorem length_of_takeInput {ws rest : List (String × Word)} {input : String}
    (h : takeInput ws = some (input, rest)) : rest.length < ws.length := by
  unfold takeInput at h
  split at h
  · cases h; simp only [List.length_cons]; omega
  · cases h; simp only [List.length_cons]; omega
  · cases h; exact Nat.lt_succ_self _
  · cases h

/-- Gives an option that needs a value the next argument, if that is a plain one. -/
def supply (c : Cluster) (ws : List (String × Word)) :
    Except Misuse (List (Switch × Option String) × List (String × Word)) :=
  match c.open? with
  | none => .ok (c.complete, ws)
  | some s =>
    if s.takesValue then
      match ws with
      | (arg, .plain) :: rest => .ok (c.complete ++ [(s, some arg)], rest)
      | _ => .error (.noValue s)
    else .ok (c.complete ++ [(s, none)], ws)

theorem length_of_supply {c : Cluster} {ws rest : List (String × Word)}
    {set : List (Switch × Option String)} (h : supply c ws = .ok (set, rest)) :
    rest.length ≤ ws.length := by
  unfold supply at h
  split at h
  · cases h; exact Nat.le_refl _
  · split at h
    · split at h
      · cases h; simp
      · cases h
    · cases h; exact Nat.le_refl _

def Draft.take (d : Draft) (ws : List (String × Word)) : Except Stop Draft :=
  match ws with
  | [] => .ok d
  | (arg, .unknown) :: rest => Draft.take { d with extras := d.extras ++ [arg] } rest
  | (_, .switch s long attached) :: rest =>
    match clusterOf s long attached with
    | .error m => .error (.misuse m)
    | .ok cluster => match _h : supply cluster rest with
      | .error m => .error (.misuse m)
      | .ok (set, rest') =>
        match set.foldlM (fun d (s, value) => d.set s value) d with
        | .error stop => .error stop
        | .ok d => d.take rest'
  | (arg, w) :: rest =>
    match _h : if d.input.isNone then takeInput ((arg, w) :: rest) else none with
    | some (input, rest') => Draft.take { d with input := some input } rest'
    | none => Draft.take { d with extras := d.extras ++ [arg] } rest
termination_by ws.length
decreasing_by
  · simp
  · have := length_of_supply _h; simp only [List.length_cons]; omega
  · split at _h
    · exact length_of_takeInput _h
    · cases _h
  · simp

def Options.ofArgs (args : List String) : Except Stop Options :=
  match words args with
  | .error m => .error (.misuse m)
  | .ok ws => match Draft.take {} ws with
    | .error stop => .error stop
    | .ok d => match d.input with
      | none => .error (.misuse .noInput)
      | some input =>
        if d.extras.isEmpty then .ok { d.options with input }
        else .error (.misuse (.unrecognized d.extras))

end DefTree.CommandLine
