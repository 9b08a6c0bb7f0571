/-
Reading attribute lists with a head that moves over the text.

The list is read as a tape is: a head stands at a position, looks at the
character there and moves on, one character at a time. At the end of the
text the head sees a character of code zero, and so it does where there is
one in the text; a move beyond the end is an error that ends the reading.
Nothing in `Reading.step` says that this cannot happen, or that an item
takes a character at all: a key may be empty.

`reading_within` says that both are so for every text. The head is always
before some end `rest` of the text (`Head.before`), and what each move does
is what `Attributes.read` does to `rest`.
-/
import DefTree.Proofs.Attributes
import Mathlib.Logic.Function.Iterate

namespace DefTree.Attributes

/-- A text, and the position in it up to which it has been read. -/
structure Head where
  text : List Char
  position : Nat

/-- Why reading is given up: the head was to move beyond the end, or a value is too long. -/
inductive Stop where
  | beyondEnd
  | overlong (e : Numeral.Overlong)

namespace Head

def isAtEnd (h : Head) : Bool := h.text.length ≤ h.position

/-- The character at the head; at the end it is the one of code zero. -/
def peek (h : Head) : Char := h.text.getD h.position '\x00'

/-- Moves on by a character, which must be there. -/
def advance (h : Head) : Except Stop Head :=
  if h.position < h.text.length then .ok { h with position := h.position + 1 } else .error .beyondEnd

theorem left_lt_of_advance {h h' : Head} (e : h.advance = .ok h') :
    h'.text.length - h'.position < h.text.length - h.position := by
  unfold advance at e
  split at e
  · next hlt =>
    cases e
    simp only
    omega
  · cases e

/-- Moves on while there are characters that pass a test. -/
def advanceWhile (p : Char → Bool) (h : Head) : Except Stop Head :=
  if !h.isAtEnd && p h.peek then
    match _h : h.advance with
    | .error e => .error e
    | .ok h' => advanceWhile p h'
  else .ok h
termination_by h.text.length - h.position
decreasing_by exact left_lt_of_advance _h

/-- The characters that are moved over while they pass a test. -/
def readWhile (p : Char → Bool) (h : Head) : Except Stop (List Char × Head) := do
  let h' ← h.advanceWhile p
  return (h.text.extract h.position h'.position, h')

/-- A quoted run, the head being at its opening quote; the closing one may be missing. -/
def readQuoted (h : Head) : Except Stop (List Char × Head) := do
  let h ← h.advance
  let (run, h) ← h.readWhile (· != '"')
  if h.isAtEnd then return (run, h)
  let h ← h.advance
  return (run, h)

def readKey (h : Head) : Except Stop (List Char × Head) :=
  if h.peek = '"' then h.readQuoted else h.readWhile isKeyChar

def readValue (h : Head) : Except Stop (List Char × Head) := do
  let h ← h.advanceWhile Text.isBlank
  if h.peek = '"' then h.readQuoted else h.readWhile (!Text.isBlank ·)

/-- A key, with a value if a colon follows it. -/
def readItem (h : Head) : Except Stop (Item × Head) := do
  let (key, h) ← h.readKey
  let h ← h.advanceWhile Text.isBlank
  if h.peek = ':' then
    let h ← h.advance
    let (value, h) ← h.readValue
    return (⟨key, some value⟩, h)
  else return (⟨key, none⟩, h)

end Head

/-- A reading under way with what has been entered so far, at its end, or given up. -/
inductive Reading where
  | going (head : Head) (entered : Attributes)
  | ended (head : Head) (entered : Attributes)
  | stopped (why : Stop)

namespace Reading

/-- One item more, if there is one. -/
def step : Reading → Reading
  | .going h a =>
    if h.isAtEnd then .ended h a
    else match h.advanceWhile Text.isBlank with
    | .error why => .stopped why
    | .ok h =>
      if h.isAtEnd then .ended h a
      else match h.readItem with
      | .error why => .stopped why
      | .ok (item, h) => match enter a item with
        | .error e => .stopped (.overlong e)
        | .ok a => .going h a
  | r => r

/-- The reading of a text as it begins. -/
def start (cs : List Char) : Reading := .going ⟨cs, 0⟩ empty

/-- A reading after a number of steps. -/
def run (n : Nat) (r : Reading) : Reading := step^[n] r

end Reading

/-! ## The head before an end of the text -/

namespace Head

theorem bind_ok {α β : Type} (a : α) (f : α → Except Stop β) : (Except.ok a >>= f) = f a := rfl

/-- The head of a text with some characters still before it. -/
def before (text rest : List Char) : Head := ⟨text, text.length - rest.length⟩

variable {text rest : List Char} {c : Char}

theorem before_self (text : List Char) : before text text = ⟨text, 0⟩ := by rw [before, Nat.sub_self]

theorem drop_position (h : rest <:+ text) : (before text rest).text.drop (before text rest).position = rest :=
  (List.suffix_iff_eq_drop.1 h).symm

theorem isAtEnd_before (h : rest <:+ text) : (before text rest).isAtEnd = rest.isEmpty := by
  rw [isAtEnd, Bool.eq_iff_iff, decide_eq_true_iff, List.isEmpty_iff, ← List.drop_eq_nil_iff, drop_position h]

theorem peek_before (h : rest <:+ text) : (before text rest).peek = rest.head?.getD '\x00' := by
  rw [peek, List.getD_eq_getElem?_getD, ← List.head?_drop]
  exact congrArg (fun cs => cs.head?.getD '\x00') (drop_position h)

/-- Any character but the one of code zero is seen only where it stands. -/
theorem peek_before_eq_iff (h : rest <:+ text) (hc : c ≠ '\x00') :
    (before text rest).peek = c ↔ rest.head? = some c := by
  rw [peek_before h]
  cases rest with
  | nil => simpa using Ne.symm hc
  | cons d rest => simp

theorem advance_before (h : c :: rest <:+ text) : (before text (c :: rest)).advance = .ok (before text rest) := by
  have hlen := h.length_le
  rw [List.length_cons] at hlen
  have hlt : text.length - (rest.length + 1) < text.length := by omega
  have hnext : text.length - (rest.length + 1) + 1 = text.length - rest.length := by omega
  rw [advance, before, List.length_cons, if_pos hlt, before]
  simp only [hnext]

theorem suffix_tail (h : c :: rest <:+ text) : rest <:+ text := (List.suffix_cons c rest).trans h

theorem advanceWhile_eq (p : Char → Bool) (h : Head) : h.advanceWhile p =
    if !h.isAtEnd && p h.peek then h.advance.bind (advanceWhile p) else .ok h := by
  rw [advanceWhile]
  split
  · split
    · next e he => rw [he, Except.bind]
    · next h' he => rw [he, Except.bind]
  · rfl

theorem advanceWhile_before (p : Char → Bool) (h : rest <:+ text) :
    (before text rest).advanceWhile p = .ok (before text (rest.dropWhile p)) := by
  induction rest with
  | nil => rw [advanceWhile_eq, isAtEnd_before h]; rfl
  | cons c rest ih =>
    rw [advanceWhile_eq, isAtEnd_before h, peek_before h, advance_before h]
    by_cases hc : p c = true
    · rw [List.dropWhile_cons_of_pos hc]
      simpa [hc, Except.bind] using ih (suffix_tail h)
    · rw [List.dropWhile_cons_of_neg hc]
      simp [hc]

theorem advanceWhile_isBlank_before (h : rest <:+ text) :
    (before text rest).advanceWhile Text.isBlank = .ok (before text (Text.trimStart rest)) :=
  advanceWhile_before Text.isBlank h

theorem extract_before (p : Char → Bool) (h : rest <:+ text) :
    (before text rest).text.extract (before text rest).position (before text (rest.dropWhile p)).position =
      rest.takeWhile p := by
  have hlen := h.length_le
  have hsplit := congrArg List.length (@List.takeWhile_append_dropWhile _ p rest)
  rw [List.length_append] at hsplit
  have hwidth : (before text (rest.dropWhile p)).position - (before text rest).position =
      (rest.takeWhile p).length := by
    simp only [before]
    omega
  rw [List.extract_eq_take_drop, drop_position h, hwidth]
  exact (List.prefix_iff_eq_take.1 (List.takeWhile_prefix p)).symm

theorem readWhile_before (p : Char → Bool) (h : rest <:+ text) :
    (before text rest).readWhile p = .ok (rest.takeWhile p, before text (rest.dropWhile p)) := by
  rw [readWhile, advanceWhile_before p h]
  exact congrArg (fun cs => Except.ok (cs, _)) (extract_before p h)

theorem readQuoted_before (h : '"' :: rest <:+ text) :
    (before text ('"' :: rest)).readQuoted = .ok ((takeQuoted rest).1, before text (takeQuoted rest).2) := by
  have hrest := suffix_tail h
  have hend := (List.dropWhile_suffix (· != '"')).trans hrest
  rw [readQuoted, advance_before h, bind_ok, readWhile_before _ hrest, bind_ok, takeQuoted]
  simp only [isAtEnd_before hend]
  cases hleft : rest.dropWhile (· != '"') with
  | nil => rfl
  | cons c left =>
    rw [hleft] at hend
    simp only [List.isEmpty_cons, Bool.false_eq_true, if_false, advance_before hend, bind_ok]
    rfl

theorem readKey_before (h : rest <:+ text) :
    (before text rest).readKey = .ok ((takeKey rest).1, before text (takeKey rest).2) := by
  rw [readKey]
  by_cases hquote : rest.head? = some '"'
  · rw [if_pos ((peek_before_eq_iff h (by decide)).2 hquote)]
    obtain ⟨rest, rfl⟩ := List.head?_eq_some_iff.1 hquote
    exact readQuoted_before h
  · rw [if_neg (mt (peek_before_eq_iff h (by decide)).1 hquote), readWhile_before _ h, takeKey_of_head? hquote]

theorem readValue_before (h : rest <:+ text) :
    (before text rest).readValue =
      .ok ((takeValue (Text.trimStart rest)).1, before text (takeValue (Text.trimStart rest)).2) := by
  have htrim : Text.trimStart rest <:+ text := (Text.trimStart_suffix rest).trans h
  rw [readValue, advanceWhile_isBlank_before h, bind_ok]
  by_cases hquote : (Text.trimStart rest).head? = some '"'
  · rw [if_pos ((peek_before_eq_iff htrim (by decide)).2 hquote)]
    obtain ⟨cs, hcs⟩ := List.head?_eq_some_iff.1 hquote
    rw [hcs] at htrim ⊢
    exact readQuoted_before htrim
  · rw [if_neg (mt (peek_before_eq_iff htrim (by decide)).1 hquote), readWhile_before _ htrim,
      takeValue_of_head? hquote]

/-- **The head reads an item as it is taken off the text**, and never moves beyond the end. -/
theorem readItem_before (h : rest <:+ text) :
    (before text rest).readItem = .ok ((takeItem rest).1, before text (takeItem rest).2) := by
  have hkey : (takeKey rest).2 <:+ text := (takeKey_suffix rest).trans h
  have htrim : Text.trimStart (takeKey rest).2 <:+ text := (Text.trimStart_suffix _).trans hkey
  rw [readItem, readKey_before h, bind_ok]
  simp only [advanceWhile_isBlank_before hkey, bind_ok]
  by_cases hcolon : (Text.trimStart (takeKey rest).2).head? = some ':'
  · rw [if_pos ((peek_before_eq_iff htrim (by decide)).2 hcolon)]
    obtain ⟨cs, hcs⟩ := List.head?_eq_some_iff.1 hcolon
    rw [hcs] at htrim ⊢
    rw [advance_before htrim, bind_ok, readValue_before (suffix_tail htrim), bind_ok]
    simp only [takeItem, hcs]
    rfl
  · rw [if_neg (mt (peek_before_eq_iff htrim (by decide)).1 hcolon), takeItem_of_head? hcolon]
    rfl

end Head

/-! ## Steps -/

namespace Reading

variable {cs rest : List Char} {a : Attributes}

/-- What a step can do where an end of the text is left: it ends the reading if there are no items in
it, and else it enters the first one and leaves less of the text. -/
inductive Steps (cs rest : List Char) (a : Attributes) : Reading → Prop where
  | ended (h : items rest = []) : Steps cs rest a (.ended (.before cs []) a)
  | stopped {item : Item} {left : List Char} {e : Numeral.Overlong} (h : items rest = item :: items left)
      (henter : enter a item = .error e) : Steps cs rest a (.stopped (.overlong e))
  | going {item : Item} {left : List Char} {a' : Attributes} (h : items rest = item :: items left)
      (hleft : left <:+ cs) (hlt : left.length < rest.length) (henter : enter a item = .ok a') :
      Steps cs rest a (.going (.before cs left) a')

theorem steps (h : rest <:+ cs) (a : Attributes) : Steps cs rest a (step (.going (.before cs rest) a)) := by
  have htrim : Text.trimStart rest <:+ cs := (Text.trimStart_suffix rest).trans h
  have hitems := items_eq rest
  have hlen := length_trimStart_le rest
  rw [step, Head.isAtEnd_before h, Head.advanceWhile_isBlank_before h]
  simp only [Head.isAtEnd_before htrim]
  cases hleft : Text.trimStart rest with
  | nil =>
    rw [hleft] at hitems
    cases rest with
    | nil => exact .ended hitems
    | cons d rest => exact .ended hitems
  | cons c left =>
    rw [hleft] at htrim hitems hlen
    have hrest : rest.isEmpty = false := by
      cases rest with
      | nil => cases hleft
      | cons d rest => rfl
    have hlt : (takeItem (c :: left)).2.length < rest.length :=
      Nat.lt_of_lt_of_le (Nat.lt_succ_of_le (length_takeItem_lt (isBlank_of_trimStart hleft))) hlen
    simp only [hrest, List.isEmpty_cons, Bool.false_eq_true, if_false, Head.readItem_before htrim]
    cases henter : enter a (takeItem (c :: left)).1 with
    | error e => exact .stopped hitems henter
    | ok a' => exact .going hitems ((takeItem_suffix (c :: left)).trans htrim) hlt henter

/-- What holds of a reading of a text at every step: the head is before an end of the text, and
what is still to be entered is what stands in it. -/
inductive Sound (cs : List Char) : Reading → Prop where
  | going {rest : List Char} {a : Attributes} (hrest : rest <:+ cs) (h : (items rest).foldlM enter a = read cs) :
      Sound cs (.going (.before cs rest) a)
  | ended {a : Attributes} (h : read cs = .ok a) : Sound cs (.ended (.before cs []) a)
  | stopped {e : Numeral.Overlong} (h : read cs = .error e) : Sound cs (.stopped (.overlong e))

theorem Sound.start (cs : List Char) : Sound cs (start cs) := by
  rw [Reading.start, ← Head.before_self]
  exact .going List.suffix_rfl rfl

theorem Sound.step {r : Reading} (h : Sound cs r) : Sound cs r.step := by
  cases h with
  | ended h => exact .ended h
  | stopped h => exact .stopped h
  | @going rest a hrest h =>
    have hsteps := steps hrest a
    generalize Reading.step (.going (.before cs rest) a) = r at hsteps ⊢
    cases hsteps with
    | ended hitems =>
      rw [hitems] at h
      exact .ended h.symm
    | stopped hitems henter =>
      rw [hitems, List.foldlM_cons, henter] at h
      exact .stopped h.symm
    | going hitems hleft _ henter =>
      rw [hitems, List.foldlM_cons, henter] at h
      exact .going hleft h

theorem Sound.run {r : Reading} (h : Sound cs r) (n : Nat) : Sound cs (run n r) := by
  induction n generalizing r with
  | zero => exact h
  | succ n ih => exact ih h.step

/-- **A step that goes on moves the head forward**, by one character at least, and not beyond the end. -/
theorem position_lt_of_step (h : rest <:+ cs) {head : Head} {a' : Attributes}
    (hstep : step (.going (.before cs rest) a) = .going head a') :
    (Head.before cs rest).position < head.position ∧ head.position ≤ cs.length := by
  have hsteps := steps h a
  rw [hstep] at hsteps
  cases hsteps with
  | @going item left _ _ hleft hlt _ =>
    have hlen := h.length_le
    show cs.length - rest.length < cs.length - left.length ∧ cs.length - left.length ≤ cs.length
    omega

/-- **A reading comes to an end**: each step but the last takes a character. -/
theorem exists_run_ne_going (h : rest <:+ cs) (a : Attributes) :
    ∃ n ≤ rest.length + 1, ∀ head a', run n (.going (.before cs rest) a) ≠ .going head a' := by
  induction hk : rest.length using Nat.strongRecOn generalizing rest a with
  | ind k ih =>
    have hsteps := steps h a
    cases hstep : step (.going (.before cs rest) a) with
    | ended head a' => exact ⟨1, by omega, fun _ _ hgoing => by simp [run, hstep] at hgoing⟩
    | stopped why => exact ⟨1, by omega, fun _ _ hgoing => by simp [run, hstep] at hgoing⟩
    | going head a' =>
      rw [hstep] at hsteps
      cases hsteps with
      | @going item left _ _ hleft hlt _ =>
        obtain ⟨n, hn, hends⟩ := ih left.length (hk ▸ hlt) hleft a' rfl
        refine ⟨n + 1, by omega, fun head a'' hgoing => hends head a'' ?_⟩
        rwa [run, Function.iterate_succ_apply, hstep] at hgoing

end Reading

/-- **An attribute list is read within its text, to its end.** On every text each step that goes on moves the head
forward, the head is never moved beyond the end, and when reading ends the head is at the end of the text, with the
attributes that are read. It does end, after a step for each character and one more at the most, unless a value that
is too long to be read ends it before. -/
theorem reading_within (cs : List Char) :
    (∀ n head a, Reading.run n (.start cs) = .going head a → ∀ head' a',
        Reading.step (.going head a) = .going head' a' →
          head.position < head'.position ∧ head'.position ≤ cs.length) ∧
      (∀ n, Reading.run n (.start cs) ≠ .stopped .beyondEnd) ∧
      (∀ n head a, Reading.run n (.start cs) = .ended head a → head = ⟨cs, cs.length⟩ ∧ read cs = .ok a) ∧
      ∃ n ≤ cs.length + 1, (∃ a, Reading.run n (.start cs) = .ended ⟨cs, cs.length⟩ a ∧ read cs = .ok a) ∨
        ∃ e, Reading.run n (.start cs) = .stopped (.overlong e) ∧ read cs = .error e := by
  have hsound n := (Reading.Sound.start cs).run n
  refine ⟨fun n head a hn head' a' hstep => ?_, fun n hn => ?_, fun n head a hn => ?_, ?_⟩
  · have h := hsound n
    rw [hn] at h
    cases h with
    | going hrest _ => exact Reading.position_lt_of_step hrest hstep
  · have h := hsound n
    rw [hn] at h
    cases h
  · have h := hsound n
    rw [hn] at h
    cases h with
    | ended h => exact ⟨rfl, h⟩
  · obtain ⟨n, hle, hends⟩ := Reading.exists_run_ne_going (List.suffix_refl cs) empty
    refine ⟨n, hle, ?_⟩
    rw [Head.before_self] at hends
    have h := hsound n
    generalize hr : Reading.run n (.start cs) = r at h
    cases h with
    | going _ _ => exact absurd hr (hends _ _)
    | ended h => exact .inl ⟨_, rfl, h⟩
    | stopped h => exact .inr ⟨_, rfl, h⟩

end DefTree.Attributes
