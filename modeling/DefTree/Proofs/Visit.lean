/-
Where building gets to, and where it fails.

Building some lines visits others: those after a construct that can be
built, and the block of a section. What it visits stands in the lines as it
is, behind as many lines as the builder has counted (`Visits.infix`). A
fault of the whole is the fault of one construct that is visited
(`exists_visits_of_error`), and `Construct.Fails` lists what can be wrong
with a construct itself, its block apart.
-/
import DefTree.Proofs.Front

namespace DefTree

/-! ## Shapes of lines -/

namespace Line

/-- How a line comes to its shape: it is read as the first one that fits. -/
inductive Shape (cs : List Char) : Line → Prop where
  | ref {path deferred} (h : ref? cs = some (.ref path deferred)) : Shape cs (.ref path deferred)
  | func {name arguments opened} (hr : ref? cs = none) (h : func? cs = some (.func name arguments opened)) :
      Shape cs (.func name arguments opened)
  | sect {name attributes} (hr : ref? cs = none) (hf : func? cs = none)
      (h : sect? cs = some (.sect name attributes)) : Shape cs (.sect name attributes)
  | prop {key value} (hr : ref? cs = none) (hf : func? cs = none) (hs : sect? cs = none)
      (h : prop? cs = some (.prop key value)) : Shape cs (.prop key value)
  | unknown (hr : ref? cs = none) (hf : func? cs = none) (hs : sect? cs = none) (h : prop? cs = none) :
      Shape cs (.unknown cs)

theorem exists_func_of_func? {cs : List Char} {line : Line} (h : func? cs = some line) :
    ∃ name arguments opened, line = .func name arguments opened := by
  unfold func? at h
  simp only at h
  split at h
  · split at h
    · cases h; exact ⟨_, _, _, rfl⟩
    · cases h
  · cases h

theorem shape (cs : List Char) : Shape cs (read cs) := by
  unfold read
  cases hr : ref? cs with
  | some line =>
    obtain ⟨_, -, rfl⟩ := Option.map_eq_some_iff.1 hr
    exact .ref hr
  | none =>
    cases hf : func? cs with
    | some line =>
      obtain ⟨_, _, _, rfl⟩ := exists_func_of_func? hf
      exact .func hr hf
    | none =>
      cases hs : sect? cs with
      | some line =>
        have hline := hs
        unfold sect? at hline
        split at hline
        · cases hline; exact .sect hr hf hs
        · cases hline
      | none =>
        cases hp : prop? cs with
        | some line =>
          obtain ⟨_, -, rfl⟩ := Option.map_eq_some_iff.1 hp
          exact .prop hr hf hs hp
        | none => exact .unknown hr hf hs hp

theorem shape_of_read {cs : List Char} {line : Line} (h : read cs = line) : Shape cs line := h ▸ shape cs

theorem eq_of_read_unknown {cs text : List Char} (h : read cs = .unknown text) : text = cs := by
  cases shape_of_read h
  rfl

end Line

theorem Front.line_of_read_unknown {l : List Char} {ls : List (List Char)} {text : List Char}
    (hc : (read l ls).construct = .unknown text) :
    text = Text.trim l ∧ Line.read (Text.trim l) = .unknown (Text.trim l) := by
  have h := reads l ls
  generalize read l ls = f at h hc
  cases h <;> cases hc
  next h =>
    obtain rfl := Line.eq_of_read_unknown h
    exact ⟨rfl, h⟩

/-! ## Visits -/

/-- Building some lines visits others: those after a construct that can be built, and the block of a
section whose attributes can be read. The numbers count the lines of the text that stand before. -/
inductive Visits (rule : ImportRule) : Nat → List (List Char) → Nat → List (List Char) → Prop where
  | here {before ls} : Visits rule before ls before ls
  | next {before l ls nodes before' ls'}
      (hc : (buildConstruct rule before (Front.read l ls).construct).result = .ok nodes)
      (h : Visits rule (before + (Front.read l ls).height) (Front.read l ls).rest before' ls') :
      Visits rule before (l :: ls) before' ls'
  | into {before l ls name attributes block a before' ls'}
      (hc : (Front.read l ls).construct = .sect name attributes block)
      (ha : (buildAttributes attributes).result = .ok a) (h : Visits rule (before + 1) block before' ls') :
      Visits rule before (l :: ls) before' ls'

theorem Front.exists_eq_append (l : List Char) (ls : List (List Char)) :
    ∃ front, l :: ls = front ++ (read l ls).rest ∧ front.length = (read l ls).height := by
  have h := reads l ls
  generalize read l ls = f at h
  cases h with
  | @sect _ _ block rest _ hs =>
    obtain ⟨close, rfl⟩ := Block.eq_of_split? hs
    exact ⟨l :: block ++ [close], by simp, by simp⟩
  | @func _ _ opened block rest _ hs =>
    obtain ⟨close, hd⟩ := Block.eq_of_split? hs
    have hlen := Block.length_of_split? hs
    rw [List.length_drop] at hlen
    refine ⟨l :: ls.take (gap opened) ++ block ++ [close], ?_, ?_⟩
    · conv_lhs => rw [← List.take_append_drop (gap opened) ls, hd]
      simp
    · simp only [List.length_append, List.length_cons, List.length_take, List.length_nil]
      omega
  | _ => exact ⟨[l], rfl, rfl⟩

/-- **What is visited stands in the lines**, behind the lines that were counted on the way. -/
theorem Visits.infix {rule : ImportRule} {before before' : Nat} {ls ls' : List (List Char)}
    (h : Visits rule before ls before' ls') :
    ∃ front back, ls = front ++ ls' ++ back ∧ before' = before + front.length := by
  induction h with
  | here => exact ⟨[], [], by simp, rfl⟩
  | @next _ l ls _ _ _ _ _ ih =>
    obtain ⟨front, back, hrest, hbefore⟩ := ih
    obtain ⟨top, htop, hlen⟩ := Front.exists_eq_append l ls
    refine ⟨top ++ front, back, ?_, ?_⟩
    · rw [htop, hrest]
      simp
    · rw [hbefore, List.length_append, hlen, Nat.add_assoc]
  | @into _ l ls _ _ block _ _ _ hc _ _ ih =>
    obtain ⟨front, back, hblock, hbefore⟩ := ih
    obtain ⟨close, hls⟩ := Block.eq_of_split? (Front.split?_of_read_sect hc)
    refine ⟨l :: front, back ++ close :: (Front.read l ls).rest, ?_, ?_⟩
    · generalize (Front.read l ls).rest = rest at hls
      rw [hls, hblock]
      simp
    · rw [hbefore, List.length_cons]
      omega

theorem Visits.getElem? {rule : ImportRule} {before' : Nat} {ls ls' : List (List Char)} {l : List Char}
    (h : Visits rule 0 ls before' (l :: ls')) : ls[before']? = some l := by
  obtain ⟨front, back, rfl, rfl⟩ := h.infix
  simp

/-! ## Faults -/

/-- What can be wrong with a construct that begins after `before` lines, its block apart. -/
inductive Construct.Fails (rule : ImportRule) (before : Nat) : Construct → Fault → Prop where
  | unknown (text) : Fails rule before (.unknown text) (.unknownLine (before + 1) text)
  | openFunc (line opener) : Fails rule before (.openFunc line opener) (.unclosedBlock (before + line) opener)
  | openSect (attributes opener) :
      Fails rule before (.openSect attributes opener) (.unclosedBlock (before + 1) opener)
  | prop {key value fault} (h : (buildProp key value).result = .error fault) :
      Fails rule before (.prop key value) fault
  | attributes {name attributes block fault} (h : (buildAttributes attributes).result = .error fault) :
      Fails rule before (.sect name attributes block) fault
  | openAttributes {attributes opener fault} (h : (buildAttributes attributes).result = .error fault) :
      Fails rule before (.openSect attributes opener) fault
  | ref {path deferred fault} (h : (rule (String.ofList path) deferred).result = .error fault) :
      Fails rule before (.ref path deferred) fault

section

variable {rule : ImportRule} {fault : Fault}

/-- A construct fails by itself or in its block. -/
theorem fails_or_block {before : Nat} {c : Construct} (h : (buildConstruct rule before c).result = .error fault) :
    c.Fails rule before fault ∨ ∃ name attributes block a, c = .sect name attributes block ∧
      (buildAttributes attributes).result = .ok a ∧ (buildLines rule (before + 1) block).result = .error fault := by
  cases c with
  | blank => cases h
  | unknown text => cases h; exact .inl (.unknown text)
  | openFunc line opener => cases h; exact .inl (.openFunc line opener)
  | func name arguments block => cases h
  | ref path deferred => exact .inl (.ref h)
  | prop key value =>
    rcases Run.bind_error_iff.1 h with h | ⟨_, -, h⟩
    · exact .inl (.prop h)
    · cases h
  | openSect attributes opener =>
    rcases Run.bind_error_iff.1 h with h | ⟨_, -, h⟩
    · exact .inl (.openAttributes h)
    · cases h
      exact .inl (.openSect attributes opener)
  | sect name attributes block =>
    rcases Run.bind_error_iff.1 h with h | ⟨a, ha, h⟩
    · exact .inl (.attributes h)
    · rw [Run.result_bind_of_ok rfl] at h
      rcases Run.bind_error_iff.1 h with h | ⟨_, -, h⟩
      · exact .inr ⟨name, attributes, block, a, rfl, ha, h⟩
      · cases h

/-- **A fault is that of a construct which building visits.** -/
theorem exists_visits_of_error {ls : List (List Char)} : ∀ {before : Nat},
    (buildLines rule before ls).result = .error fault →
      ∃ before' l ls', Visits rule before ls before' (l :: ls') ∧
        (Front.read l ls').construct.Fails rule before' fault := by
  induction ls using Front.induction with
  | nil =>
    intro before h
    rw [buildLines_nil] at h
    cases h
  | cons l ls ih ihb =>
    intro before h
    rw [buildLines_cons] at h
    rcases Run.bind_error_iff.1 h with h | ⟨nodes, hc, h⟩
    · rcases fails_or_block h with hf | ⟨name, attributes, block, a, hc, ha, h⟩
      · exact ⟨before, l, ls, .here, hf⟩
      · obtain ⟨before', l', ls', hv, hf⟩ := ihb name attributes block hc h
        exact ⟨before', l', ls', .into hc ha hv, hf⟩
    · rcases Run.bind_error_iff.1 h with h | ⟨_, -, h⟩
      · obtain ⟨before', l', ls', hv, hf⟩ := ih h
        exact ⟨before', l', ls', .next hc hv, hf⟩
      · cases h

theorem error_of_visits {before before' : Nat} {l : List Char} {ls ls' : List (List Char)}
    (hv : Visits rule before ls before' (l :: ls'))
    (hf : (buildConstruct rule before' (Front.read l ls').construct).result = .error fault) :
    (buildLines rule before ls).result = .error fault := by
  generalize hls : l :: ls' = here at hv
  induction hv with
  | here =>
    subst hls
    rw [buildLines_cons]
    exact Run.result_bind_of_error hf
  | next hc _ ih =>
    rw [buildLines_cons, Run.result_bind_of_ok hc]
    exact Run.result_bind_of_error (ih hf hls)
  | into hc ha _ ih =>
    rw [buildLines_cons, hc]
    refine Run.result_bind_of_error ?_
    rw [buildConstruct, Run.result_bind_of_ok ha, Run.result_bind_of_ok rfl]
    exact Run.result_bind_of_error (ih hf hls)

end

/-- A number that is too long is all that can be wrong with attributes. -/
theorem exists_of_buildAttributes_error {attributes : List Char} {fault : Fault}
    (h : (buildAttributes attributes).result = .error fault) : ∃ digits, fault = .overlongNumeral digits := by
  unfold buildAttributes at h
  split at h
  · next e _ => cases h; exact ⟨e.digits, rfl⟩
  · cases h

/-- A number that is too long, to be read or to be written, is all that can be wrong with a property. -/
theorem exists_of_buildProp_error {key value : List Char} {fault : Fault}
    (h : (buildProp key value).result = .error fault) :
    (∃ digits, fault = .overlongNumeral digits) ∨ fault = .overlongValue := by
  unfold buildProp at h
  split at h
  · next e _ => cases h; exact .inl ⟨e.digits, rfl⟩
  · split at h
    · cases h; exact .inr rfl
    · cases h

end DefTree
