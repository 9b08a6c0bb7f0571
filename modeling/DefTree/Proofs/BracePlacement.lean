/-
The opening brace of a function, behind its header or by itself on the next
line.

The builder takes different ways for the two, but scans the same lines for
the block. The scans of the sections around see a blank before the brace,
or none; the blank means nothing to them, since a header ends in a
parenthesis and not in a backslash. So every section ends on the same line
with the same brace, and one text is read to what the other is read to,
whatever it is (`reads_either_brace`). Only the lines that a fault names
are others, since one text has a line more (`Fault.placeless`).

A brace among the arguments is taken for the opening one, and the next line
for the first line of the block: then the two texts have nothing to do with
each other.
-/
import DefTree.Proofs.FunctionBody
import DefTree.Proofs.Reading

namespace DefTree

/-! ## Faults without their places -/

/-- A fault without the line that it names. -/
def Fault.placeless : Fault → Fault
  | .misread m => .misread { m with line := none, text := none }
  | f => f

theorem Fault.placeless_below (k : Nat) (fault : Fault) : (fault.below k).placeless = fault.placeless := by
  cases fault with
  | misread m =>
    simp only [below, placeless]
    split <;> rfl
  | _ => rfl

namespace Run

variable {α β : Type}

/-- What a run comes to: its result, but for the line that a fault names, and the paths that it loads. -/
def outcome (r : Run α) : Except Fault α × List String := (r.result.mapError Fault.placeless, r.loads)

/-- Two runs come to the same if they have the same result, or faults that differ in their lines only, and the same
loads. -/
theorem outcome_eq_iff {r s : Run α} : r.outcome = s.outcome ↔ r.loads = s.loads ∧
    ((∃ a, r.result = .ok a ∧ s.result = .ok a) ∨ ∃ fault fault', r.result = .error fault ∧
      s.result = .error fault' ∧ fault.placeless = fault'.placeless) := by
  rw [outcome, outcome, Prod.mk.injEq, and_comm]
  refine and_congr_right fun _ => ?_
  cases r.result <;> cases s.result <;> simp [Except.mapError, eq_comm]

theorem outcome_bind {r s : Run α} {f g : α → Run β} (h : r.outcome = s.outcome)
    (hf : ∀ a, (f a).outcome = (g a).outcome) : (r >>= f).outcome = (s >>= g).outcome := by
  obtain ⟨hloads, ⟨a, hr, hs⟩ | ⟨fault, fault', hr, hs, hfault⟩⟩ := outcome_eq_iff.1 h
  · obtain ⟨hresult, hloads'⟩ := Prod.mk.inj (hf a)
    simp only [outcome, result_bind_of_ok hr, result_bind_of_ok hs, loads_bind_of_ok hr, loads_bind_of_ok hs, hloads,
      hresult, hloads']
  · rw [outcome_eq_iff, loads_bind_of_error hr, loads_bind_of_error hs]
    exact ⟨hloads, .inr ⟨fault, fault', result_bind_of_error hr, result_bind_of_error hs, hfault⟩⟩

theorem outcome_fail {fault fault' : Fault} (h : fault.placeless = fault'.placeless) :
    (fail fault : Run α).outcome = (fail fault' : Run α).outcome :=
  Prod.ext (congrArg Except.error h) rfl

/-- More lines above change nothing but the lines that faults name. -/
theorem Below.outcome_eq {k : Nat} {r s : Run α} (h : Below k r s) : s.outcome = r.outcome := by
  refine Prod.ext ?_ h.loads
  simp only [outcome, h.result]
  cases r.result with
  | ok a => rfl
  | error fault => exact congrArg Except.error (Fault.placeless_below k fault)

end Run

theorem outcome_buildLines {rule : ImportRule}
    (hrule : ∀ k path deferred, (rule path deferred).Below k (rule path deferred)) (ls : List (List Char))
    (before before' : Nat) : (buildLines rule before' ls).outcome = (buildLines rule before ls).outcome := by
  have h (k : Nat) : (buildLines rule k ls).outcome = (buildLines rule 0 ls).outcome := by
    have := (buildLines_below (hrule k) ls 0).outcome_eq
    rwa [Nat.zero_add] at this
  rw [h before', h before]

/-! ## Headers -/

namespace Line

theorem read_of_closesHeader {name : String} (h : IsWord name) {rest : List Char} (hcloses : closesHeader rest = true) :
    read (name.toList ++ '(' :: rest) = .func name.toList (arguments (rest.takeWhile (· != ')')))
      ((name.toList ++ '(' :: rest).contains '{') := by
  have hfunc : func? (name.toList ++ '(' :: rest) = some (.func name.toList
      (arguments (rest.takeWhile (· != ')'))) ((name.toList ++ '(' :: rest).contains '{')) := by
    rw [func?, (takeWhile_word h (by decide) _).1, (takeWhile_word h (by decide) _).2]
    simp only [isEmpty_word h, hcloses, Bool.not_false, Bool.and_self, if_true]
  rw [read, hfunc, ref?_word h]
  rfl

/-- The header of a function without its opening brace. -/
def header (name : String) (inner : List Char) : List Char := name.toList ++ '(' :: (inner ++ [')'])

variable {name : String} {inner : List Char}

theorem tight_header (h : IsWord name) : Text.Tight (header name inner) := by
  have htight : Text.Tight (name.toList ++ ('(' :: inner) ++ [')']) :=
    (tight_word h).append h.1 (.of_forall (Text.isBlank_of_all (by decide))) (by decide) ('(' :: inner)
  simpa [header] using htight

theorem tight_header_brace (h : IsWord name) : Text.Tight (header name inner ++ [' ', '{']) := by
  have htight : Text.Tight (header name inner ++ [' '] ++ ['{']) :=
    (tight_header h).append (by simp [header]) (.of_forall (Text.isBlank_of_all (by decide))) (by decide) [' ']
  simpa using htight

theorem closesHeader_of_parenthesis (h : '\n' ∉ inner) : closesHeader (inner ++ [')']) = true := by
  have htrim : Text.trimEnd (inner ++ [')']) = inner ++ [')'] := by
    refine Text.trimEnd_of_last fun c hc => ?_
    rw [List.getLast?_concat] at hc
    cases hc
    decide
  simp only [closesHeader, List.getLast?_concat, Option.some.injEq, show (')' = '{') = False by decide, if_false,
    htrim]
  simpa using h

theorem takeWhile_arguments (cs ds : List Char) :
    (cs ++ ')' :: ds).takeWhile (· != ')') = cs.takeWhile (· != ')') := by
  induction cs with
  | nil => simp
  | cons c cs ih => simp only [List.cons_append, List.takeWhile_cons, ih]

theorem read_header (h : IsWord name) (hline : '\n' ∉ inner) (hbrace : '{' ∉ inner) :
    read (header name inner) = .func name.toList (arguments (inner.takeWhile (· != ')'))) false := by
  have hname : '{' ∉ name.toList := fun hm => absurd (h.2 _ hm) (by decide)
  rw [header, read_of_closesHeader h (closesHeader_of_parenthesis hline), takeWhile_arguments]
  simp [hname, hbrace]

theorem read_header_brace (h : IsWord name) (hline : '\n' ∉ inner) :
    read (header name inner ++ [' ', '{']) = .func name.toList (arguments (inner.takeWhile (· != ')'))) true := by
  have hheader : header name inner ++ [' ', '{'] = name.toList ++ '(' :: (inner ++ [')', ' ', '{']) := by
    simp [header]
  rw [hheader, read_of_closesHeader h (closesHeader_printed hline), takeWhile_arguments]
  simp

end Line

/-! ## The two places -/

/-- The line of a header, with the opening brace or, if that stands apart, without it. -/
def headerLine (header : List Char) (apart : Bool) : List Char := if apart then header else header ++ [' ', '{']

/-- The lines of a header and its opening brace. -/
def headerLines (header : List Char) (apart : Bool) : List (List Char) :=
  headerLine header apart :: if apart then [['{']] else []

/-- A line is the header of a function, with the opening brace and without. -/
structure IsHeader (header name : List Char) (arguments : List (List Char)) : Prop where
  together : Line.read (Text.trim (header ++ [' ', '{'])) = .func name arguments true
  apart : Line.read (Text.trim header) = .func name arguments false
  last : header.getLast? = some ')'

theorem isHeader {name : String} {inner : List Char} (h : IsWord name) (hline : '\n' ∉ inner)
    (hbrace : '{' ∉ inner) :
    IsHeader (Line.header name inner) name.toList (Line.arguments (inner.takeWhile (· != ')'))) where
  together := by rw [(Line.tight_header_brace h).trim_eq, Line.read_header_brace h hline]
  apart := by rw [(Line.tight_header h).trim_eq, Line.read_header h hline hbrace]
  last := by
    have hconcat : Line.header name inner = name.toList ++ '(' :: inner ++ [')'] := by simp [Line.header]
    rw [hconcat, List.getLast?_concat]

namespace Scan

variable {s : Scan} {header : List Char}

theorem escaped_after_parenthesis (inner : List Char) {blanks : List Char} (h : Text.allBlank blanks = true) :
    (s.after (inner ++ ')' :: blanks)).escaped = false := by
  have hclose : ((s.after inner).feed ')').escaped = false := by
    rw [escaped_feed]
    simp
  rw [after_append, after_cons]
  cases blanks with
  | nil => exact hclose
  | cons c blanks => rw [after_blanks h (List.cons_ne_nil c blanks)]

theorem escaped_after_header (h : header.getLast? = some ')') : (s.after header).escaped = false := by
  obtain ⟨front, rfl⟩ := List.getLast?_eq_some_iff.1 h
  exact escaped_after_parenthesis front rfl

/-- The blank before the brace means nothing to a scan. -/
theorem after_headerLines (h : header.getLast? = some ')') (apart : Bool) :
    s.after (headerLines header apart).flatten = s.after (header ++ ['{']) := by
  cases apart with
  | true => rfl
  | false =>
    have hblank : (s.after header).feed ' ' = s.after header := feed_inert (escaped_after_header h) (by decide)
    simp [headerLines, headerLine, hblank]

theorem passes_headerLines (hs : s.depth ≠ 0) (h : header.getLast? = some ')') (apart : Bool) :
    s.Passes (headerLines header apart).flatten ↔ s.Passes (header ++ ['{']) := by
  cases apart with
  | true => rfl
  | false =>
    have hblank : (s.after header).feed ' ' = s.after header := feed_inert (escaped_after_header h) (by decide)
    have hflatten : (headerLines header false).flatten = header ++ [' ', '{'] := by simp [headerLines, headerLine]
    rw [hflatten, passes_append, passes_append, passes_cons, hblank]
    exact ⟨fun ⟨hheader, _, hbrace⟩ => ⟨hheader, hbrace⟩,
      fun ⟨hheader, hbrace⟩ => ⟨hheader, depth_after_ne hs hheader, hbrace⟩⟩

end Scan

/-- A section around the header has the same end wherever the brace stands. -/
theorem Block.split?_headerLines {header : List Char} (hlast : header.getLast? = some ')') {a : Bool}
    {front back rest : List (List Char)} {close : List Char}
    (h : split? {} (front ++ (headerLines header a ++ back) ++ close :: rest) =
      some (front ++ (headerLines header a ++ back), rest)) (b : Bool) :
    split? {} (front ++ (headerLines header b ++ back) ++ close :: rest) =
      some (front ++ (headerLines header b ++ back), rest) := by
  refine split?_exchange h (fun hd hheader => ?_) fun _ => ?_
  · rw [Scan.passes_headerLines (by omega) hlast] at hheader ⊢
    exact hheader
  · rw [Scan.after_headerLines hlast, Scan.after_headerLines hlast]

/-! ## Building -/

namespace IsHeader

variable {header name : List Char} {arguments : List (List Char)} {rule : ImportRule}

/-- With the brace behind the header and with the brace apart, a function has the same block. -/
theorem outcome_headerLines_true (h : IsHeader header name arguments)
    (hrule : ∀ k path deferred, (rule path deferred).Below k (rule path deferred)) (before : Nat)
    (below : List (List Char)) : (buildLines rule before (headerLines header true ++ below)).outcome =
      (buildLines rule before (headerLines header false ++ below)).outcome := by
  have hapart : Text.trim header ≠ [] := Line.ne_nil_of_read h.apart (by simp)
  have htogether : Text.trim (header ++ [' ', '{']) ≠ [] := Line.ne_nil_of_read h.together (by simp)
  show (buildLines rule before (header :: ['{'] :: below)).outcome =
    (buildLines rule before ((header ++ [' ', '{']) :: below)).outcome
  rw [buildLines_cons, buildLines_cons, Front.read_shape hapart, Front.read_shape htogether, h.apart, h.together]
  cases hs : Block.split? {} below with
  | none =>
    have hs₁ : Block.split? {} ((['{'] :: below).drop (Front.gap false)) = none := hs
    have hs₂ : Block.split? {} (below.drop (Front.gap true)) = none := hs
    simp only [Front.ofShape, hs₁, hs₂]
    exact Run.outcome_fail rfl
  | some p =>
    have hs₁ : Block.split? {} ((['{'] :: below).drop (Front.gap false)) = some p := hs
    have hs₂ : Block.split? {} (below.drop (Front.gap true)) = some p := hs
    simp only [Front.ofShape, hs₁, hs₂]
    exact Run.outcome_bind rfl fun nodes =>
      Run.outcome_bind (outcome_buildLines hrule p.2 _ _) fun more => rfl

theorem outcome_headerLines (h : IsHeader header name arguments)
    (hrule : ∀ k path deferred, (rule path deferred).Below k (rule path deferred)) (a b : Bool) (before : Nat)
    (below : List (List Char)) : (buildLines rule before (headerLines header a ++ below)).outcome =
      (buildLines rule before (headerLines header b ++ below)).outcome := by
  have heq (c : Bool) : (buildLines rule before (headerLines header c ++ below)).outcome =
      (buildLines rule before (headerLines header false ++ below)).outcome := by
    cases c with
    | true => exact h.outcome_headerLines_true hrule before below
    | false => rfl
  rw [heq a, heq b]

end IsHeader

theorem outcome_buildSect {rule : ImportRule} {before : Nat} {block block' : List (List Char)}
    (h : (buildLines rule (before + 1) block).outcome = (buildLines rule (before + 1) block').outcome)
    (name attributes : List Char) : (buildConstruct rule before (.sect name attributes block)).outcome =
      (buildConstruct rule before (.sect name attributes block')).outcome :=
  Run.outcome_bind rfl fun _ => Run.outcome_bind rfl fun _ => Run.outcome_bind h fun _ => rfl

/-- **Where building comes to a header,** the lines come to the same wherever its brace stands. -/
theorem Visits.outcome_headerLines {rule : ImportRule} {header name : List Char} {arguments : List (List Char)}
    (hheader : IsHeader header name arguments)
    (hrule : ∀ k path deferred, (rule path deferred).Below k (rule path deferred)) {a : Bool} (b : Bool)
    {before k : Nat} {ls below : List (List Char)}
    (hv : Visits markImport before ls k (headerLines header a ++ below)) :
    ∃ front back, ls = front ++ (headerLines header a ++ back) ∧ k = before + front.length ∧
      ∀ before', (buildLines rule before' (front ++ (headerLines header b ++ back))).outcome =
        (buildLines rule before' ls).outcome := by
  generalize hhere : headerLines header a ++ below = here at hv
  induction hv with
  | here =>
    refine ⟨[], below, hhere.symm, rfl, fun before' => ?_⟩
    rw [← hhere]
    exact hheader.outcome_headerLines hrule b a before' below
  | @next before l ls nodes k here hc hv ih =>
    obtain ⟨front, back, hrest, hk, hsame⟩ := ih hhere
    obtain ⟨top, htop, hread⟩ := Front.exists_read (isOpen_eq_false_of_ok hc)
    have hlen := Front.length_of_eq_append htop
    refine ⟨l :: top ++ front, back, ?_, ?_, fun before' => ?_⟩
    · rw [List.append_assoc, ← hrest, List.cons_append, ← htop]
    · rw [hk, List.length_append, hlen, Nat.add_assoc]
    · rw [List.append_assoc, List.cons_append, buildLines_cons, buildLines_cons, hread]
      exact Run.outcome_bind rfl fun nodes => Run.outcome_bind (hsame _) fun more => rfl
  | @into before l ls sectName attributes block attrs k here hc ha hv ih =>
    obtain ⟨front, back, rfl, hk, hsame⟩ := ih hhere
    have hs := Front.split?_of_read_sect hc
    have hl := Front.line_of_read_sect hc
    generalize (Front.read l ls).rest = rest at hs
    obtain ⟨close, rfl⟩ := Block.eq_of_split? hs
    have hs' := Block.split?_headerLines hheader.last hs b
    refine ⟨l :: front, back ++ close :: rest, by simp, ?_, fun before' => ?_⟩
    · rw [hk, List.length_cons]
      omega
    · have hlines : l :: front ++ (headerLines header b ++ (back ++ close :: rest)) =
          l :: (front ++ (headerLines header b ++ back) ++ close :: rest) := by simp
      rw [hlines, buildLines_cons, buildLines_cons, Front.read_of_sect hl hs, Front.read_of_sect hl hs']
      -- the section has a line more or less, so the lines below it have other numbers
      exact Run.outcome_bind (outcome_buildSect (hsame _) sectName attributes) fun nodes =>
        Run.outcome_bind (outcome_buildLines hrule rest _ _) fun more => rfl

theorem Scan.depth_le_feed_brace (s : Scan) : s.depth ≤ (s.feed '{').depth := by
  have hslash : ('{' = '\\') = False := by decide
  have hquote : ('{' = '"') = False := by decide
  simp only [feed, hslash, hquote, if_false, if_true]
  split
  · exact Int.le_refl _
  split
  · exact Int.le_refl _
  · show s.depth ≤ s.depth + 1
    omega

theorem Block.ne_brace_of_split? {block rest : List (List Char)} {close : List Char}
    (h : split? {} (block ++ close :: rest) = some (block, rest)) : close ≠ ['{'] := by
  rintro rfl
  obtain ⟨hpasses, close, hclose, hdepth⟩ := (split?_eq_some_iff (by decide)).1 h
  obtain ⟨rfl, -⟩ := List.cons.inj (List.append_cancel_left hclose)
  have hpos := hpasses.depth_after_pos (by decide)
  have hle := (({} : Scan).after block.flatten).depth_le_feed_brace
  have hfeed : (({} : Scan).after block.flatten).feedLine ['{'] = (({} : Scan).after block.flatten).feed '{' := by
    simp [Scan.feedLine]
  rw [hfeed] at hdepth
  omega

/-- Where building comes to the line of a header with its brace apart, the line of the brace is among those that
it comes to. -/
theorem Visits.exists_below {rule : ImportRule} {header : List Char} {apart : Bool}
    {above below tail : List (List Char)}
    (hv : Visits rule 0 (above ++ (headerLines header apart ++ below)) above.length (headerLine header apart :: tail)) :
    ∃ below', headerLine header apart :: tail = headerLines header apart ++ below' := by
  cases apart with
  | false => exact ⟨tail, rfl⟩
  | true =>
    suffices h : ∃ below', tail = ['{'] :: below' by
      obtain ⟨below', rfl⟩ := h
      exact ⟨below', rfl⟩
    rcases hv.follows with h | ⟨b, l, ls, name, attributes, block, hv', hsect, h⟩
    · obtain ⟨front, hls, hlen⟩ := h.suffix
      obtain ⟨-, htail⟩ := List.append_inj hls (by omega)
      exact ⟨below, (List.cons.inj htail).2.symm⟩
    · obtain ⟨front, rfl, hlen⟩ := h.suffix
      obtain ⟨front', back, hls, hlen'⟩ := hv'.infix
      have hs := Front.split?_of_read_sect hsect
      generalize (Front.read l ls).rest = rest at hs
      obtain ⟨close, rfl⟩ := Block.eq_of_split? hs
      have hsplit : above ++ (headerLines header true ++ below) =
          (front' ++ l :: front) ++ (header :: (tail ++ close :: (rest ++ back))) := by
        rw [hls]
        simp [headerLine]
      obtain ⟨-, htail⟩ := List.append_inj hsplit (by rw [List.length_append, List.length_cons]; omega)
      have htail' : ['{'] :: below = tail ++ close :: (rest ++ back) := (List.cons.inj htail).2
      -- the line of the brace is no closing line, so it is in the block that the header is in
      cases tail with
      | nil => exact absurd (List.cons.inj htail').1.symm (Block.ne_brace_of_split? hs)
      | cons l' tail => exact ⟨tail, by rw [(List.cons.inj htail').1]⟩

/-! ## Texts -/

namespace Comment

/-- What stands between two texts does not matter to pairs without it. -/
theorem HasPair.between {x y c : Char} {cs ds : List Char} (h : HasPair x y (cs ++ c :: ds)) (hx : c ≠ x)
    (hy : c ≠ y) (c' : Char) : HasPair x y (cs ++ c' :: ds) := by
  rcases h.of_append with ⟨front, back, rfl⟩ | h | ⟨-, h⟩
  · exact ⟨front, back ++ c' :: ds, by simp⟩
  · rcases hasPair_cons_iff.1 h with ⟨h, -⟩ | ⟨front, back, rfl⟩
    · exact absurd h hx
    · exact ⟨cs ++ c' :: front, back, by simp⟩
  · exact absurd (Option.some.inj h) hy

theorem HasBlock.between {c : Char} {cs ds : List Char} (h : HasBlock (cs ++ c :: ds)) (hslash : c ≠ '/')
    (hstar : c ≠ '*') (c' : Char) : HasBlock (cs ++ c' :: ds) := by
  induction cs with
  | nil =>
    rcases h.of_cons with ⟨h, -⟩ | h
    · exact absurd h hslash
    · exact h.cons c'
  | cons a cs ih =>
    rcases h.of_cons with ⟨rfl, inner, hinner, hclose⟩ | h
    · cases cs with
      | nil => exact absurd (List.cons.inj hinner).1 hstar
      | cons b cs =>
        obtain ⟨rfl, rfl⟩ := List.cons.inj hinner
        obtain ⟨front, back, h⟩ := hclose.between hstar hslash c'
        exact ⟨[], front, back, by rw [List.cons_append, List.cons_append, ← h]; simp⟩
    · exact (ih h).cons a

/-- A blank in a text without comments may be any other character that is in no mark. -/
theorem Bare.between {c c' : Char} {cs ds : List Char} (h : Bare (cs ++ c :: ds)) (hslash : c' ≠ '/')
    (hstar : c' ≠ '*') : Bare (cs ++ c' :: ds) where
  line hpair := h.line (hpair.between hslash hslash c)
  block hblock := h.block (hblock.between hslash hstar c)

end Comment

/-- A line that is cut in two has a line feed for the character at the cut. -/
theorem Text.exists_unlines (c : Char) (above : List (List Char)) (cs ds : List Char) (below : List (List Char)) :
    ∃ front back, unlines (above ++ (cs ++ c :: ds) :: below) = front ++ c :: back ∧
      unlines (above ++ cs :: ds :: below) = front ++ '\n' :: back := by
  induction above with
  | nil =>
    refine ⟨cs, unlines (ds :: below), ?_, rfl⟩
    cases below <;> simp [unlines, joined]
  | cons l above ih =>
    obtain ⟨front, back, h, h'⟩ := ih
    refine ⟨l ++ '\n' :: front, back, ?_, ?_⟩
    · have hcons : unlines (l :: above ++ (cs ++ c :: ds) :: below) =
          l ++ '\n' :: unlines (above ++ (cs ++ c :: ds) :: below) := by
        cases above <;> rfl
      rw [hcons, h]
      simp
    · have hcons : unlines (l :: above ++ cs :: ds :: below) = l ++ '\n' :: unlines (above ++ cs :: ds :: below) := by
        cases above <;> rfl
      rw [hcons, h']
      simp

/-- A header of a function in some lines. -/
structure Opening where
  above : List (List Char)
  header : List Char
  below : List (List Char)

namespace Opening

/-- The lines, with the opening brace behind the header or apart from it. -/
def lines (o : Opening) (apart : Bool) : List (List Char) := o.above ++ (headerLines o.header apart ++ o.below)

def text (o : Opening) (apart : Bool) : String := String.ofList (Text.unlines (o.lines apart))

/-- Building comes to the header, in one of the two texts at least. -/
def IsReached (o : Opening) : Prop :=
  ∃ apart tail, Visits markImport 0 (o.lines apart) o.above.length (headerLine o.header apart :: tail)

theorem bare {o : Opening} (h : Comment.Bare (Text.unlines (o.lines false))) (apart : Bool) :
    Comment.Bare (Text.unlines (o.lines apart)) := by
  cases apart with
  | false => exact h
  | true =>
    obtain ⟨front, back, htogether, hapart⟩ := Text.exists_unlines ' ' o.above o.header ['{'] o.below
    have hbare : Comment.Bare (front ++ ' ' :: back) := htogether ▸ h
    have hlines : Text.unlines (o.lines true) = front ++ '\n' :: back := hapart
    rw [hlines]
    exact hbare.between (by decide) (by decide)

theorem newline_not_mem {o : Opening} (h : ∀ l ∈ o.lines false, '\n' ∉ l) (apart : Bool) :
    ∀ l ∈ o.lines apart, '\n' ∉ l := by
  cases apart with
  | false => exact h
  | true =>
    simp only [lines, headerLines, headerLine, List.mem_append, List.mem_cons, or_imp, forall_and, forall_eq,
      Bool.false_eq_true, if_false, if_true, List.not_mem_nil, false_implies, and_true] at h ⊢
    obtain ⟨habove, hheader, hbelow⟩ := h
    exact ⟨habove, ⟨fun hm => hheader (.inl hm), by decide⟩, hbelow⟩

theorem sourceLines_text {o : Opening} (hline : ∀ l ∈ o.lines false, '\n' ∉ l)
    (hbare : Comment.Bare (Text.unlines (o.lines false))) (apart : Bool) :
    sourceLines (o.text apart) = o.lines apart := by
  rw [sourceLines, text, String.toList_ofList, (o.bare hbare apart).erase_eq,
    Text.lines_unlines (by simp [lines, headerLines]) (o.newline_not_mem hline apart)]

theorem outcome_buildLines {o : Opening} {rule : ImportRule} {name : List Char} {arguments : List (List Char)}
    (hheader : IsHeader o.header name arguments)
    (hrule : ∀ k path deferred, (rule path deferred).Below k (rule path deferred)) (hreach : o.IsReached)
    (a b : Bool) : (buildLines rule 0 (o.lines a)).outcome = (buildLines rule 0 (o.lines b)).outcome := by
  obtain ⟨apart, tail, hv⟩ := hreach
  obtain ⟨below', hbelow'⟩ := hv.exists_below
  rw [hbelow'] at hv
  have heq (c : Bool) : (buildLines rule 0 (o.lines c)).outcome = (buildLines rule 0 (o.lines apart)).outcome := by
    obtain ⟨front, back, hlines, hlen, hsame⟩ := hv.outcome_headerLines hheader hrule c
    obtain ⟨rfl, htail⟩ := List.append_inj hlines (by omega)
    rw [← List.append_cancel_left htail] at hsame
    exact hsame 0
  rw [heq a, heq b]

end Opening

/-- **The opening brace of a function** may stand behind the header or by itself on the next line. Let building
come to a header without braces, at the top or in any sections of a text without comments. Then both texts are
read to the same tree, or reading both ends in the same fault but for the line that it names; and both load the
same. -/
theorem reads_either_brace {library : Library} {expand : Bool} {source : Option String} {o : Opening} {name : String}
    {inner : List Char} (hheader : o.header = Line.header name inner) (hname : IsWord name) (hbrace : '{' ∉ inner)
    (hline : ∀ l ∈ o.lines false, '\n' ∉ l) (hbare : Comment.Bare (Text.unlines (o.lines false)))
    (hreach : o.IsReached) {a : Bool} {run : Run Node} (hrun : library.Reads expand (o.text a) source run) (b : Bool) :
    ∃ run', library.Reads expand (o.text b) source run' ∧ run'.loads = run.loads ∧
      ((∃ tree, run.result = .ok tree ∧ run'.result = .ok tree) ∨
        ∃ fault fault', run.result = .error fault ∧ run'.result = .error fault' ∧
          fault'.placeless = fault.placeless) := by
  obtain ⟨loader, hkey, hload, rfl⟩ := hrun
  have hinner : '\n' ∉ inner := by
    have hhead := hline (headerLine o.header false) (by simp [Opening.lines, headerLines])
    rw [hheader] at hhead
    exact fun hm => hhead (by simp [headerLine, Line.header, hm])
  have hsame := o.outcome_buildLines (hheader ▸ isHeader hname hinner hbrace)
    (importRule_below expand loader (loader.origin source)) hreach a b
  rw [← o.sourceLines_text hline hbare a, ← o.sourceLines_text hline hbare b] at hsame
  obtain ⟨hloads, hresult⟩ := Run.outcome_eq_iff.1 hsame
  have hloads' : (parse expand loader (o.text b) source).loads = (parse expand loader (o.text a) source).loads := by
    rw [parse_loads, parse_loads]
    exact hloads.symm
  refine ⟨parse expand loader (o.text b) source, ⟨loader, hkey, ?_, rfl⟩, hloads', ?_⟩
  · rw [hloads']
    exact hload
  · rcases hresult with ⟨nodes, hok, hok'⟩ | ⟨fault, fault', herror, herror', hfault⟩
    · exact .inl ⟨.rootOf nodes, parse_ok_iff.2 ⟨nodes, hok, rfl⟩, parse_ok_iff.2 ⟨nodes, hok', rfl⟩⟩
    · exact .inr ⟨fault, fault', parse_error_iff.2 herror, parse_error_iff.2 herror', hfault.symm⟩

/-- In a section, below an import, with a brace in quotes among the arguments. -/
theorem reads_either_brace_nested :
    let o : Opening := ⟨["@import a".toList, "s \x7b".toList], Line.header "f" "x=\"\x7d\"".toList,
      ["  return x".toList, "\x7d".toList, "\x7d".toList]⟩
    let loader := Loader.ofMemory [("a", some "v: 2")] []
    ∃ tree, (parse true loader (o.text false) none).result = .ok tree ∧
      (parse true loader (o.text true) none).result = .ok tree ∧
      (parse true loader (o.text true) none).loads = ["a"] := by
  intro o loader
  obtain ⟨tree, hok⟩ := Run.exists_ok_of_isOk (r := parse true loader (o.text false) none) (by decide +kernel)
  have himport : Front.read "@import a".toList (o.lines false).tail =
      ⟨.ref ['a'] false, 1, (o.lines false).tail⟩ := by decide +kernel
  have hsect : (Front.read "s \x7b".toList ((o.lines false).drop 2)).construct =
      .sect ['s'] [] [headerLine o.header false, "  return x".toList, "\x7d".toList] := by decide +kernel
  obtain ⟨a, ha⟩ := Run.exists_ok_of_isOk (r := buildAttributes []) (by decide +kernel)
  have hmark : (buildConstruct markImport 0
      (Front.read "@import a".toList (o.lines false).tail).construct).result =
        .ok [.ref "a" Node.pendingType "a"] := by
    rw [himport]
    rfl
  have hrest : Visits markImport (0 + (Front.read "@import a".toList (o.lines false).tail).height)
      (Front.read "@import a".toList (o.lines false).tail).rest 2
        [headerLine o.header false, "  return x".toList, "\x7d".toList] := by
    rw [himport]
    exact .into hsect ha .here
  have hreach : o.IsReached := ⟨false, _, .next hmark hrest⟩
  have hfree : Comment.Free (Text.unlines (o.lines false)) := ⟨by decide +kernel, by decide +kernel⟩
  have hrun : loader.library.Reads true (o.text false) none _ := Library.reads_library_iff.2 rfl
  obtain ⟨run', hrun', hloads, hresult⟩ := reads_either_brace rfl (by decide) (by decide) (by decide)
    hfree.bare hreach hrun true
  rw [Library.reads_library_iff.1 hrun'] at hloads hresult
  rcases hresult with ⟨tree', hok', hapart⟩ | ⟨fault, fault', herror, -, -⟩
  · exact ⟨tree', hok', hapart, hloads.trans (by decide +kernel)⟩
  · rw [hok] at herror
    cases herror

/-- A brace among the arguments is taken for the opening one, and the next line for a line of the block. -/
theorem brace_among_arguments :
    let o : Opening := ⟨[], Line.header "f" "x=\x7b\x7d".toList, ["\x7d".toList]⟩
    o.IsReached ∧ (∀ l ∈ o.lines false, '\n' ∉ l) ∧ Comment.Free (Text.unlines (o.lines false)) ∧
      (∃ tree, (parse false (Loader.ofMemory [] []) (o.text false) none).result = .ok tree) ∧
      (parse false (Loader.ofMemory [] []) (o.text true) none).result =
        .error (.unclosedBlock 1 "f(x=\x7b\x7d)".toList) := by
  intro o
  refine ⟨⟨false, o.below, .here⟩, by decide, ⟨by decide +kernel, by decide +kernel⟩, ?_, ?_⟩
  · exact Run.exists_ok_of_isOk (by decide +kernel)
  · exact Run.result_eq_error_of_map (f := fun _ => ()) (by decide +kernel)

end DefTree
