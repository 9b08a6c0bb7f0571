/-
Logging through named channels.

Channels form a hierarchy by the dots in their names, with the root channel
above all. A channel may have a level of its own; otherwise that of the
nearest channel above it counts. A record that a channel lets through is
written in every format of that channel and of the channels above it.

Programs log through gates. A gate has its own switch and threshold in
front of the channel it writes to, so that gates on one channel can differ
in what they let through. An enabled gate lowers the level of its channel to
its own where that is higher or not set, and the first one gives it a format.

A channel remembers what it answered when it was asked for a level, and
answers the same until some channel is given a level; a channel that is
made between the two does not count before that.
-/
import DefTree.Fault
import DefTree.Log.Format

namespace DefTree.Log

/-- The own level of a channel: a whole number, or a truth value that stands for one or zero. -/
inductive Level where
  | whole (n : Int)
  | truth (b : Bool)
  deriving DecidableEq, Repr

namespace Level

def value : Level → Int
  | .whole n => n
  | .truth b => if b then 1 else 0

def toSetting : Level → Setting
  | .whole n => .ofInt n
  | .truth b => .ofBool b

def unset : Level := .whole 0

end Level

/-- A named channel: its own level, which stands for zero if it has none; the formats it writes;
and for which levels it has been asked, with its answers. -/
structure Channel where
  name : String
  level : Level := .unset
  formats : List String := []
  answers : List (Int × Bool) := []
  deriving DecidableEq, Repr

def rootName : String := "root"

/-- The channels there are: the root, and the others in the order in which they were made. -/
structure Registry where
  root : Channel := { name := rootName, level := .whole 30 }
  channels : List Channel := []
  deriving DecidableEq, Repr

structure Config where
  name : Setting := .ofText "kantara"
  enabled : Setting := .ofBool true
  level : Setting := .ofInt 20
  format : Setting := .ofText "%(asctime)s - %(name)s - %(levelname)s - %(message)s"
  deriving DecidableEq

/-- A switch and a threshold in front of a channel. -/
structure Gate where
  channel : String
  switch : Setting
  threshold : Setting
  deriving DecidableEq

def Gate.enabled (g : Gate) : Bool := g.switch.isOn

/-! ## The hierarchy -/

/-- The names above a name that is given in reverse, nearest first: what stands before its last
dot, and so on from there. A dot at the very beginning does not count, nor does one right before
the dot at which a name was cut. -/
def namesAboveReverse (cs : List Char) : List (List Char) :=
  match _h : cs.dropWhile (· != '.') with
  | _ :: c :: above => (c :: above).reverse :: namesAboveReverse above
  | _ => []
termination_by cs.length
decreasing_by
  have := (List.dropWhile_sublist (· != '.') (l := cs)).length_le
  rw [_h] at this
  simp only [List.length_cons] at this
  omega

/-- The names above a name, nearest first. -/
def namesAbove (name : String) : List String :=
  (namesAboveReverse name.toList.reverse).map String.ofList

theorem length_of_mem_namesAboveReverse {cs above : List Char}
    (h : above ∈ namesAboveReverse cs) : above.length < cs.length := by
  fun_induction namesAboveReverse cs with
  | case1 cs d c rest hd ih =>
    have hl := (List.dropWhile_sublist (· != '.') (l := cs)).length_le
    rw [hd] at hl
    simp only [List.length_cons] at hl
    rcases List.mem_cons.1 h with h | h
    · subst h; simp only [List.length_reverse, List.length_cons]; omega
    · have := ih h; omega
  | case2 => simp at h

theorem length_of_mem_namesAbove {name above : String} (h : above ∈ namesAbove name) :
    above.length < name.length := by
  obtain ⟨cs, hcs, rfl⟩ := List.mem_map.1 h
  have := length_of_mem_namesAboveReverse hcs
  rw [List.length_reverse, String.length_toList] at this
  rw [String.length_ofList]
  exact this

namespace Registry

def channel? (r : Registry) (name : String) : Option Channel :=
  if name = rootName then some r.root else r.channels.find? (·.name == name)

def isOlder (r : Registry) (a b : String) : Bool :=
  let names := r.channels.map (·.name)
  names.idxOf a < names.idxOf b

/-- Whether a channel stands directly above another if none does between them. A name with which
the name of the root begins takes only channels made after its own. -/
def adopts (r : Registry) (above name : String) : Bool :=
  r.channels.any (·.name == above) &&
    (!above.toList.isPrefixOf rootName.toList || r.isOlder above name)

/-- The nearest channel above one, the root aside. -/
def parent? (r : Registry) (name : String) : Option String :=
  (namesAbove name).find? (r.adopts · name)

def lineage (r : Registry) (name : String) : List Channel :=
  if name = rootName then [r.root]
  else
    (r.channel? name).toList ++
      match _h : r.parent? name with
      | none => [r.root]
      | some above => r.lineage above
termination_by name.length
decreasing_by exact length_of_mem_namesAbove (List.mem_of_find?_eq_some _h)

def effectiveLevel (r : Registry) (name : String) : Int :=
  (((r.lineage name).map (·.level.value)).find? (· ≠ 0)).getD 0

/-- Whether a channel lets records of a level through; those of level zero and below never pass. -/
def lets (r : Registry) (name : String) (level : Int) : Bool :=
  0 < level && r.effectiveLevel name ≤ level

/-! ## Channels -/

def ensure (r : Registry) (name : String) : Registry :=
  if (r.channel? name).isSome then r else { r with channels := r.channels ++ [{ name }] }

def update (r : Registry) (name : String) (f : Channel → Channel) : Registry :=
  if name = rootName then { r with root := f r.root }
  else { r with channels := r.channels.map fun c => if c.name = name then f c else c }

def forget (r : Registry) : Registry :=
  { root := { r.root with answers := [] }
    channels := r.channels.map fun c => { c with answers := [] } }

def setLevel (r : Registry) (name : String) (level : Level) : Registry :=
  (r.update name fun c => { c with level }).forget

/-- Asks a channel whether it lets records of a level through. It answers as it did when it was
asked before. -/
def ask (r : Registry) (name : String) (level : Int) : Registry × Bool :=
  match (r.channel? name).bind (·.answers.lookup level) with
  | some answer => (r, answer)
  | none =>
    let answer := r.lets name level
    (r.update name fun c => { c with answers := (level, answer) :: c.answers }, answer)

end Registry

/-! ## Levels -/

def levelNames : List (String × Int) :=
  [("CRITICAL", 50), ("FATAL", 50), ("ERROR", 40), ("WARNING", 30), ("WARN", 30), ("INFO", 20),
    ("DEBUG", 10), ("NOTSET", 0)]

def levelName (level : Int) : String :=
  match levelNames.find? (·.2 == level) with
  | some (name, _) => name
  | none => "Level " ++ String.ofList (Numeral.signed level)

/-- The level that a setting gives a channel: a whole number, a truth value, or a level by its
name. -/
def levelOf (s : Setting) : Except LogFault Level :=
  match s with
  | some (.number (.integer n)) => .ok (.whole n)
  | some (.boolean b) => .ok (.truth b)
  | some (.text name) => match levelNames.lookup name with
    | some n => .ok (.whole n)
    | none => .error (.unknownLevel name)
  | _ => .error (.notLevel s)

/-! ## Gates -/

/-- The name under which a channel is kept. The root is meant where no name is given. -/
def channelName (s : Setting) : Except LogFault String :=
  match s with
  | some (.text name) => .ok (if name.isEmpty then rootName else name)
  | _ => if s.isOn then .error .nameNotText else .ok rootName

/-- The format that a setting gives. Where none is given the message is shown alone. -/
def formatOf (s : Setting) : Except LogFault String :=
  match s with
  | some (.text format) =>
    let format := if format.isEmpty then Format.messageOnly else format
    if Format.hasField format.toList then .ok format else .error (.emptyFormat format)
  | _ => if s.isOn then .error (.formatNotText s) else .ok Format.messageOnly

namespace Registry

/-- Makes a channel as permissive as a level: its own level is lowered to it if it had none or a
higher one. -/
def lower (r : Registry) (c : Channel) (level : Setting) : Except LogFault Registry :=
  if c.level.value = 0 then (levelOf level).map (r.setLevel c.name)
  else match level.number? with
    | none => .error (.incomparable c.level.toSetting ">" level)
    | some x => if x.isBelow c.level.value then (levelOf level).map (r.setLevel c.name) else .ok r

/-- Gives a channel a format if it has none. -/
def dress (r : Registry) (c : Channel) (format : Setting) : Except LogFault Registry :=
  if c.formats.isEmpty then
    (formatOf format).map fun format => r.update c.name fun c => { c with formats := [format] }
  else .ok r

/-- Makes a channel ready for an enabled gate: first its level, then its format. What was done
before a fault stays. -/
def prepare (r : Registry) (c : Channel) (config : Config) : Registry × Except LogFault Unit :=
  match r.lower c config.level with
  | .error fault => (r, .error fault)
  | .ok r => match r.dress c config.format with
    | .error fault => (r, .error fault)
    | .ok r => (r, .ok ())

def attach (r : Registry) (config : Config) : Registry × Except LogFault Gate :=
  match channelName config.name with
  | .error fault => (r, .error fault)
  | .ok name =>
    let gate : Gate := { channel := name, switch := config.enabled, threshold := config.level }
    let r := r.ensure name
    if gate.enabled then
      let (r, done) := r.prepare ((r.channel? name).getD { name }) config
      (r, done.map fun _ => gate)
    else (r, .ok gate)

end Registry

def Gate.admits (g : Gate) (level : Int) : Except LogFault Bool :=
  if g.enabled then
    match g.threshold.number? with
    | none => .error (.incomparable (.ofInt level) ">=" g.threshold)
    | some x => .ok (x.isAtMost level)
  else .ok false

/-- Whether a gate lets records of a level through. Its channel is asked only if the gate itself
admits the level. -/
def Registry.passes (r : Registry) (g : Gate) (level : Int) : Except LogFault (Registry × Bool) :=
  match g.admits level with
  | .error fault => .error fault
  | .ok false => .ok (r, false)
  | .ok true => .ok (r.ask g.channel level)

/-- What a gate says when it is asked whether it lets records of a level through: yes or no if its
switch is on, and otherwise that switch. -/
def Registry.reply (r : Registry) (g : Gate) (level : Int) :
    Except LogFault (Registry × Setting) :=
  if g.enabled then (r.passes g level).map fun (r, passed) => (r, .ofBool passed)
  else .ok (r, g.switch)

theorem isOn_of_reply {r r' : Registry} {g : Gate} {level : Int} {answer : Setting}
    (h : r.reply g level = .ok (r', answer)) : r.passes g level = .ok (r', answer.isOn) := by
  unfold Registry.reply at h
  split at h
  · cases hp : r.passes g level with
    | error fault => rw [hp] at h; cases h
    | ok p => rw [hp] at h; cases h; rfl
  · rename_i hg
    have he : g.enabled = false := by simpa using hg
    cases h
    have hs : g.switch.isOn = false := he
    simp only [Registry.passes, Gate.admits, he, hs, Bool.false_eq_true, if_false]

/-! ## Records -/

structure Record where
  channel : String
  level : Int
  message : String
  time : String
  deriving DecidableEq, Repr

/-- The fields of a record, in order. All records come from one process and thread, and none has
arguments, an exception or a stack. Where and when the call was made is left empty, but for the
time in words. -/
def Record.fields (r : Record) : List (String × Text.Operand) :=
  let absent := Text.Operand.symbol "None".toList
  [("name", .text r.channel.toList), ("msg", .text r.message.toList),
    ("args", .symbol "()".toList), ("levelname", .text (levelName r.level).toList),
    ("levelno", .integer r.level), ("pathname", .text []), ("filename", .text []),
    ("module", .text []), ("exc_info", absent), ("exc_text", absent), ("stack_info", absent),
    ("lineno", .symbol []), ("funcName", .text []), ("created", .symbol []),
    ("msecs", .symbol []), ("relativeCreated", .symbol []), ("thread", .symbol []),
    ("threadName", .text "MainThread".toList), ("processName", .text "MainProcess".toList),
    ("process", .symbol []), ("message", .text r.message.toList),
    ("asctime", .text r.time.toList)]

def Record.inFormat (r : Record) (format : String) : String :=
  match Format.fill? r.fields format.toList with
  | some cs => String.ofList cs ++ "\n"
  | none => ""

def Registry.emit (r : Registry) (record : Record) : String :=
  String.join ((r.lineage record.channel).flatMap fun c => c.formats.map record.inFormat)

def Registry.write (r : Registry) (g : Gate) (time : String) (level : Int) (message : String) :
    Except LogFault (Registry × String) :=
  (r.passes g level).map fun (r, passed) =>
    (r, if passed then r.emit { channel := g.channel, level, message, time } else "")

end DefTree.Log
