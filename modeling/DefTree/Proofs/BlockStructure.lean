/-
Blocks inside sections.

The scan that finds the end of a section runs over the headers and closing
lines of the blocks inside it; when those are built, each is scanned anew
from the line after its header, one brace deep and outside of quotes. The
two accounts of the same characters agree for a block if the scan of the
section is in step with it: behind the header it is outside of quotes, and
it gets below the depth it has there before the line that closes the
section (`Scan.InStep`). Then the block is closed within the section. They
need not agree otherwise: a block may be closed in the line of its header
or in the line that closes the section, and neither belongs to its lines.
-/
import DefTree.Proofs.Imports
import DefTree.Proofs.Indentation

namespace DefTree

/-! ## Scans of the section and of the block -/

namespace Scan

/-- The scan of a section is in step with a block inside it. The lines of the section are `front`, up to the
block's header, and `inner`. -/
structure InStep (front inner : List (List Char)) : Prop where
  unquoted : (({} : Scan).after front.flatten).quoted = false
  unescaped : (({} : Scan).after front.flatten).escaped = false
  closes : ∃ t ∈ (({} : Scan).after front.flatten).trail inner.flatten,
    t.depth < (({} : Scan).after front.flatten).depth

/-- Outside of quotes and escapes, a scan is the first one with more braces open. -/
theorem eq_raise {s : Scan} (hq : s.quoted = false) (he : s.escaped = false) (hd : 1 ≤ s.depth) :
    s = ({} : Scan).raise (s.depth - 1).toNat := by
  obtain ⟨depth, quoted, escaped⟩ := s
  dsimp only at hq he hd
  subst hq he
  simp only [raise, Scan.mk.injEq, and_true]
  omega

theorem trail_raise (s : Scan) (k : Nat) (cs : List Char) :
    (s.raise k).trail cs = (s.trail cs).map fun t : Scan => t.raise k := by
  induction cs generalizing s with
  | nil => rfl
  | cons c cs ih => simp only [trail, feed_raise, ih, List.map_cons]

theorem Passes.depth_pos {s : Scan} {cs : List Char} (hs : 0 < s.depth) (h : s.Passes cs) :
    ∀ t ∈ s.trail cs, 0 < t.depth := by
  induction cs generalizing s with
  | nil =>
    intro t ht
    cases ht
  | cons c cs ih =>
    obtain ⟨hc, hcs⟩ := passes_cons.1 h
    have hpos : 0 < (s.feed c).depth := by
      have := depth_feed_ge s c
      omega
    intro t ht
    rcases List.mem_cons.1 ht with rfl | ht
    · exact hpos
    · exact ih hpos hcs t ht

theorem Passes.depth_after_pos {s : Scan} {cs : List Char} (hs : 0 < s.depth) (h : s.Passes cs) :
    0 < (s.after cs).depth := by
  induction cs generalizing s with
  | nil => exact hs
  | cons c cs ih =>
    have hpos := h.depth_pos hs (s.feed c) List.mem_cons_self
    exact ih hpos (passes_cons.1 h).2

end Scan

namespace Block

theorem passes_of_split?_eq_none {s : Scan} {ls : List (List Char)} (h : split? s ls = none) : s.Passes ls.flatten := by
  induction ls generalizing s with
  | nil => exact Scan.passes_nil s
  | cons l ls ih =>
    simp only [split?] at h
    split at h
    · cases h
    · next hopen =>
      have hl := Scan.passes_of_open hopen
      rw [Scan.feedLine_of_passes hl] at h
      rw [List.flatten_cons, Scan.passes_append]
      exact ⟨hl, ih (Option.map_eq_none_iff.1 h)⟩

theorem passes_of_split? {s : Scan} {ls body rest : List (List Char)} (h : split? s ls = some (body, rest)) :
    s.Passes body.flatten := by
  induction ls generalizing s body with
  | nil => cases h
  | cons l ls ih =>
    simp only [split?] at h
    split at h
    · cases h
      exact Scan.passes_nil s
    · next hopen =>
      obtain ⟨⟨body', rest'⟩, hbody, he⟩ := Option.map_eq_some_iff.1 h
      cases he
      have hl := Scan.passes_of_open hopen
      rw [Scan.feedLine_of_passes hl] at hbody
      rw [List.flatten_cons, Scan.passes_append]
      exact ⟨hl, ih hbody⟩

/-- A block is what a scan goes through before the line that closes it. -/
theorem split?_eq_some_iff {s : Scan} (hs : s.depth ≠ 0) {ls body rest : List (List Char)} :
    split? s ls = some (body, rest) ↔ s.Passes body.flatten ∧ ∃ close, ls = body ++ close :: rest ∧
      ((s.after body.flatten).feedLine close).depth = 0 := by
  constructor
  · intro h
    have hpasses := passes_of_split? h
    obtain ⟨close, rfl⟩ := eq_of_split? h
    refine ⟨hpasses, close, rfl, ?_⟩
    by_contra hopen
    rw [split?_of_passes hs hpasses, split?, if_neg hopen, Option.map_map] at h
    obtain ⟨p, -, hp⟩ := Option.map_eq_some_iff.1 h
    have hbody := congrArg List.length (Prod.mk.inj hp).1
    simp at hbody
  · rintro ⟨hpasses, close, rfl, hclose⟩
    rw [split?_of_passes hs hpasses, split?, if_pos hclose]
    simp

/-- **A block is closed inside its section** if the scan of the section is in step with it. -/
theorem split?_ne_none_of_inStep {front inner : List (List Char)} (h : Scan.InStep front inner)
    (hdepth : 0 < (({} : Scan).after front.flatten).depth) : split? {} inner ≠ none := by
  intro hs
  -- the scan of the section is that of the block with more braces open, and gets below none of them
  obtain ⟨t, ht, hlt⟩ := h.closes
  have hraise := Scan.eq_raise h.unquoted h.unescaped (by omega)
  rw [hraise, Scan.trail_raise, List.mem_map] at ht
  obtain ⟨u, hu, rfl⟩ := ht
  have hpos := (passes_of_split?_eq_none hs).depth_pos (by decide) u hu
  simp only [Scan.raise] at hlt
  omega

end Block

/-! ## Constructs of one level -/

/-- Reading constructs one after the other, without going into blocks, comes from some lines to others. The
numbers count the lines of the text that stand before. -/
inductive Follows : Nat → List (List Char) → Nat → List (List Char) → Prop where
  | here {before ls} : Follows before ls before ls
  | next {before l ls before' ls'}
      (h : Follows (before + (Front.read l ls).height) (Front.read l ls).rest before' ls') :
      Follows before (l :: ls) before' ls'

theorem Follows.suffix {before before' : Nat} {ls ls' : List (List Char)} (h : Follows before ls before' ls') :
    ∃ front, ls = front ++ ls' ∧ before' = before + front.length := by
  induction h with
  | here => exact ⟨[], rfl, rfl⟩
  | @next before l ls before' ls' _ ih =>
    obtain ⟨front, hrest, hbefore⟩ := ih
    obtain ⟨top, htop, hlen⟩ := Front.exists_eq_append l ls
    refine ⟨top ++ front, ?_, ?_⟩
    · rw [htop, hrest, List.append_assoc]
    · rw [hbefore, List.length_append, hlen, Nat.add_assoc]

/-- **What is visited** stands at the top of the lines or in a section that is visited, at the top of its
block. -/
theorem Visits.follows {rule : ImportRule} {before before' : Nat} {ls ls' : List (List Char)}
    (h : Visits rule before ls before' ls') : Follows before ls before' ls' ∨
      ∃ b l ls₁ name attributes block, Visits rule before ls b (l :: ls₁) ∧
        (Front.read l ls₁).construct = .sect name attributes block ∧ Follows (b + 1) block before' ls' := by
  induction h with
  | here => exact .inl .here
  | next hc _ ih =>
    rcases ih with h | ⟨b, l, ls₁, name, attributes, block, hv, hsect, hf⟩
    · exact .inl (.next h)
    · exact .inr ⟨b, l, ls₁, name, attributes, block, .next hc hv, hsect, hf⟩
  | @into before l ls name attributes block _ _ _ hc ha _ ih =>
    rcases ih with h | ⟨b, l₁, ls₁, name₁, attributes₁, block₁, hv, hsect, hf⟩
    · exact .inr ⟨before, l, ls, name, attributes, block, .here, hc, h⟩
    · exact .inr ⟨b, l₁, ls₁, name₁, attributes₁, block₁, .into hc ha hv, hsect, hf⟩

/-- Some lines begin with a header of so many lines, the last one being `opener`, and with a block that is
never closed. -/
inductive BeginsOpen : List (List Char) → Nat → List Char → Prop where
  | func {l ls height opener} (h : (Front.read l ls).construct = .openFunc height opener) :
      BeginsOpen (l :: ls) height opener
  | sect {l ls attributes opener} (h : (Front.read l ls).construct = .openSect attributes opener) :
      BeginsOpen (l :: ls) 1 opener

theorem BeginsOpen.split?_eq_none {ls : List (List Char)} {height : Nat} {opener : List Char}
    (h : BeginsOpen ls height opener) : Block.split? {} (ls.drop height) = none := by
  cases h with
  | @func l ls _ _ hc =>
    have h := Front.reads l ls
    generalize Front.read l ls = f at h hc
    cases h <;> cases hc
    next hs => simpa using hs
  | @sect l ls _ _ hc =>
    have h := Front.reads l ls
    generalize Front.read l ls = f at h hc
    cases h <;> cases hc
    next hs _ => exact hs

/-- With imports kept, a block that is never closed is what such a fault is about. -/
theorem Construct.Fails.unclosedBlock {loader : Loader} {chain : List String} {before : Nat} {l : List Char}
    {ls : List (List Char)} {m : Misreading}
    (h : (Front.read l ls).construct.Fails (importRule false loader chain) before (.misread m))
    (hm : m.complaint = .unclosedBlock) : ∃ height opener, BeginsOpen (l :: ls) height opener ∧
      m.line = some ((before + height : Nat) : Int) ∧ m.text = some (String.ofList opener) := by
  generalize hc : (Front.read l ls).construct = c at h
  generalize hf : Fault.misread m = fault at h
  cases h with
  | unknown text => cases hf; cases hm
  | openFunc line opener => cases hf; exact ⟨line, opener, .func hc, rfl, rfl⟩
  | openSect attributes opener => cases hf; exact ⟨1, opener, .sect hc, rfl, rfl⟩
  | prop h => rcases exists_of_buildProp_error h with ⟨digits, rfl⟩ | rfl <;> cases hf
  | attributes h | openAttributes h =>
    obtain ⟨digits, rfl⟩ := exists_of_buildAttributes_error h
    cases hf
  | ref h =>
    obtain ⟨-, he, -⟩ := importRule_error h
    cases he

/-- **Which block is never closed.** With imports kept, such a report names the header of a block at the top
of the text, or of a block at the top of a section with whose scan it is out of step. -/
theorem unclosedBlock_located {loader : Loader} {text : String} {source : Option String} {m : Misreading}
    (h : (parse false loader text source).result = .error (.misread m)) (hm : m.complaint = .unclosedBlock) :
    ∃ before ls height opener, BeginsOpen ls height opener ∧ m.line = some ((before + height : Nat) : Int) ∧
      m.text = some (String.ofList opener) ∧
      (Follows 0 (sourceLines text) before ls ∨
        ∃ b l rest name attributes front, Visits markImport 0 (sourceLines text) b (l :: rest) ∧
          (Front.read l rest).construct = .sect name attributes (front ++ ls) ∧
          Follows (b + 1) (front ++ ls) before ls ∧
          ¬Scan.InStep (front ++ ls.take height) (ls.drop height)) := by
  obtain ⟨before, l, ls, hv, hf⟩ := exists_visits_of_error (parse_error_iff.1 h)
  obtain ⟨height, opener, hopen, hline, htext⟩ := hf.unclosedBlock hm
  refine ⟨before, l :: ls, height, opener, hopen, hline, htext, ?_⟩
  rcases hv.marked.follows with h | ⟨b, l₁, rest, name, attributes, block, hv, hsect, hfollows⟩
  · exact .inl h
  · obtain ⟨front, rfl, -⟩ := hfollows.suffix
    refine .inr ⟨b, l₁, rest, name, attributes, front, hv, hsect, hfollows, fun hstep => ?_⟩
    have hpasses := Block.passes_of_split? (Front.split?_of_read_sect hsect)
    have hsplit : front ++ l :: ls = front ++ (l :: ls).take height ++ (l :: ls).drop height := by
      rw [List.append_assoc, List.take_append_drop]
    rw [hsplit, List.flatten_append, Scan.passes_append] at hpasses
    exact Block.split?_ne_none_of_inStep hstep (hpasses.1.depth_after_pos (by decide)) hopen.split?_eq_none

/-- A section in a section, with one line that closes both. -/
theorem unclosedBlock_located_nested :
    let text := "s \x7b\nt \x7b\n\x7d\x7d"
    let m : Misreading := { complaint := .unclosedBlock, line := some 2, text := some "t \x7b" }
    (parse false (Loader.ofMemory [] []) text none).result = .error (.misread m) ∧
    ∃ before ls height opener, BeginsOpen ls height opener ∧ m.line = some ((before + height : Nat) : Int) ∧
      m.text = some (String.ofList opener) ∧
      (Follows 0 (sourceLines text) before ls ∨
        ∃ b l rest name attributes front, Visits markImport 0 (sourceLines text) b (l :: rest) ∧
          (Front.read l rest).construct = .sect name attributes (front ++ ls) ∧
          Follows (b + 1) (front ++ ls) before ls ∧
          ¬Scan.InStep (front ++ ls.take height) (ls.drop height)) := by
  intro text m
  have hresult : (parse false (Loader.ofMemory [] []) text none).result = .error (.misread m) :=
    Run.result_eq_error_of_map (f := fun _ => ()) (by decide +kernel)
  exact ⟨hresult, unclosedBlock_located hresult rfl⟩

/-- There the scan finds the end of the outer section, and the report is about the inner one. -/
theorem unclosedBlock_inside :
    let text := "s \x7b\nt \x7b\n\x7d\x7d"
    sourceLines text = ["s \x7b".toList, "t \x7b".toList, "\x7d\x7d".toList] ∧
    Line.read "s \x7b".toList = .sect ['s'] [] ∧
    Block.split? {} ["t \x7b".toList, "\x7d\x7d".toList] = some (["t \x7b".toList], []) ∧
    (parse false (Loader.ofMemory [] []) text none).result = .error (.unclosedBlock 2 "t \x7b".toList) := by
  refine ⟨by decide +kernel, by decide +kernel, by decide +kernel, ?_⟩
  exact Run.result_eq_error_of_map (f := fun _ => ()) (by decide +kernel)

end DefTree
