/-
Indentation.

The builder trims each line, but the scan for the end of a block runs over
the lines as they stand, with a backslash taking whatever character comes
next, also a blank, also on the next line. So blanks around lines matter
behind a backslash that ends a line, and nowhere else: two texts with the
same trimmed lines are read alike if no such backslash takes a brace, a
quote or a backslash in one of them and another character in the other
(`EscapesAlike`), function bodies apart, which keep their blanks.

The scans of two such texts are related by `Scan.Alike`: they agree but for
an escape that will be spent on a character that means nothing.
-/
import DefTree.Proofs.Comment
import DefTree.Proofs.Library

namespace DefTree

/-! ## Blanks around a line -/

namespace Text

/-- The blanks behind the trimmed part of a text. -/
def tail (cs : List Char) : List Char := ((trimStart cs).reverse.takeWhile isBlank).reverse

theorem margin_trim_tail (cs : List Char) : cs.takeWhile isBlank ++ (trim cs ++ tail cs) = cs := by
  have htail : trim cs ++ tail cs = trimStart cs := by
    rw [trim, trimEnd, tail, ← List.reverse_append, List.takeWhile_append_dropWhile, List.reverse_reverse]
  rw [htail, trimStart, List.takeWhile_append_dropWhile]

theorem allBlank_margin (cs : List Char) : allBlank (cs.takeWhile isBlank) = true := List.all_takeWhile

theorem allBlank_tail (cs : List Char) : allBlank (tail cs) = true := by
  rw [allBlank, tail, List.all_reverse]
  exact List.all_takeWhile

theorem allBlank_of_trim {cs : List Char} (h : trim cs = []) : allBlank cs = true := by
  have hcs := margin_trim_tail cs
  rw [h, List.nil_append] at hcs
  rw [← hcs, allBlank, List.all_append, Bool.and_eq_true]
  exact ⟨allBlank_margin cs, allBlank_tail cs⟩

/-- How many backslashes a text ends in. -/
def backslashes (cs : List Char) : Nat := (cs.reverse.takeWhile (· == '\\')).length

theorem backslashes_concat (cs : List Char) (c : Char) :
    backslashes (cs ++ [c]) = if c = '\\' then backslashes cs + 1 else 0 := by
  by_cases hc : c = '\\' <;> simp [backslashes, hc]

end Text

/-! ## Escapes at the end of a line -/

/-- A line that may escape what comes after it: one that ends in an odd number of backslashes, or that has
nothing but backslashes. -/
def MayEscape (cs : List Char) : Prop :=
  Text.backslashes cs % 2 = 1 ∨ (cs ≠ [] ∧ Text.backslashes cs = cs.length)

/-- Whether two texts begin with characters that both mean something to the scan or both do not, if
neither is at its end. -/
def BeginAlike (cs ds : List Char) : Prop :=
  ∀ c ∈ cs.head?, ∀ d ∈ ds.head?, Scan.isInert c = Scan.isInert d

/-- Wherever the trimmed part of a line may escape what comes next, this is a brace, a quote or a
backslash in both texts or in neither; the ends of lines are left out. -/
def EscapesAlike : List (List Char) → List (List Char) → Prop
  | a :: as, b :: bs =>
    (MayEscape (Text.trim a) → BeginAlike (Text.tail a ++ as.flatten) (Text.tail b ++ bs.flatten)) ∧
      EscapesAlike as bs
  | _, _ => True

instance (cs : List Char) : Decidable (MayEscape cs) :=
  inferInstanceAs (Decidable (_ ∨ _ ∧ _))

instance (cs ds : List Char) : Decidable (BeginAlike cs ds) :=
  decidable_of_iff (cs.head?.all fun c => ds.head?.all fun d => Scan.isInert c == Scan.isInert d)
    (by simp only [BeginAlike, Option.all_eq_true, Option.mem_def, beq_iff_eq])

instance EscapesAlike.decidable : ∀ as bs : List (List Char), Decidable (EscapesAlike as bs)
  | _ :: as, _ :: bs => @instDecidableAnd _ _ inferInstance (decidable as bs)
  | [], _ => isTrue trivial
  | _ :: _, [] => isTrue trivial

namespace Scan

variable {s t : Scan} {cs ds : List Char}

theorem escaped_feed (s : Scan) (c : Char) : (s.feed c).escaped = (!s.escaped && c == '\\') := by
  unfold feed
  split
  · next h => simp [h]
  split
  · next h h' => simp [h, h']
  · next h h' =>
    have hc : (c == '\\') = false := by simpa using h'
    rw [hc, Bool.and_false]
    repeat' split
    all_goals simpa using h

/-- Whether an escape waits behind a text is up to the backslashes that it ends in, unless it has nothing
else. -/
theorem escaped_after (s : Scan) (cs : List Char) : Text.backslashes cs = cs.length ∨
    ((s.after cs).escaped = true ↔ Text.backslashes cs % 2 = 1) := by
  induction cs using List.reverseRecOn with
  | nil => exact .inl rfl
  | append_singleton cs c ih =>
    have hafter : (s.after (cs ++ [c])).escaped = (!(s.after cs).escaped && c == '\\') := by
      rw [after_append, after_cons, after_nil, escaped_feed]
    rw [hafter, Text.backslashes_concat, List.length_append, List.length_singleton]
    by_cases hc : c = '\\'
    · subst hc
      rw [if_pos rfl, beq_self_eq_true, Bool.and_true, Bool.not_eq_true', ← Bool.not_eq_true]
      rcases ih with ih | ih
      · exact .inl (by omega)
      · exact .inr (by rw [ih]; omega)
    · exact .inr (by simp [hc])

theorem mayEscape_of_escaped (hne : cs ≠ []) (h : (s.after cs).escaped = true) : MayEscape cs := by
  rcases escaped_after s cs with hall | hodd
  · exact .inr ⟨hne, hall⟩
  · exact .inl (hodd.1 h)

/-! ## Blanks in a scan -/

theorem isInert_of_isBlank {c : Char} (h : Text.isBlank c = true) : isInert c = true := by
  simp only [isInert, Bool.and_eq_true, bne_iff_ne, ne_eq]
  refine ⟨⟨⟨?_, ?_⟩, ?_⟩, ?_⟩ <;> rintro rfl <;> revert h <;> decide

theorem feed_of_isInert {c : Char} (h : isInert c = true) : s.feed c = { s with escaped := false } := by
  cases hs : s.escaped with
  | true => simp [feed, hs]
  | false => rw [feed_inert hs h, ← hs]

theorem after_blanks (h : Text.allBlank cs = true) (hne : cs ≠ []) : s.after cs = { s with escaped := false } := by
  induction cs generalizing s with
  | nil => exact absurd rfl hne
  | cons c cs ih =>
    simp only [Text.allBlank, List.all_cons, Bool.and_eq_true] at h
    rw [after_cons, feed_of_isInert (isInert_of_isBlank h.1)]
    cases cs with
    | nil => rfl
    | cons d cs => rw [ih h.2 (List.cons_ne_nil d cs)]

theorem passes_blanks (h : Text.allBlank cs = true) (hs : s.depth ≠ 0) : s.Passes cs := by
  induction cs generalizing s with
  | nil => exact passes_nil s
  | cons c cs ih =>
    simp only [Text.allBlank, List.all_cons, Bool.and_eq_true] at h
    rw [passes_cons, feed_of_isInert (isInert_of_isBlank h.1)]
    exact ⟨hs, ih h.2 hs⟩

theorem feedLine_append_of_closed (hs : s.depth ≠ 0) (h : (s.feedLine cs).depth = 0) (ds : List Char) :
    s.feedLine (cs ++ ds) = s.feedLine cs := by
  induction cs generalizing s with
  | nil => exact absurd h hs
  | cons c cs ih =>
    simp only [List.cons_append, feedLine] at h ⊢
    split at h
    · next hc => rw [if_pos hc, if_pos hc]
    · next hc => rw [if_neg hc, if_neg hc, ih hc h]

theorem passes_of_open (h : (s.feedLine cs).depth ≠ 0) : s.Passes cs := by
  induction cs generalizing s with
  | nil => exact passes_nil s
  | cons c cs ih =>
    simp only [feedLine] at h
    split at h
    · next hc => exact absurd hc h
    · next hc => exact passes_cons.2 ⟨hc, ih h⟩

theorem feedLine_eq (hs : s.depth ≠ 0) (l : List Char) :
    s.feedLine l = (s.after (l.takeWhile Text.isBlank)).feedLine (Text.trim l ++ Text.tail l) := by
  conv_lhs => rw [← Text.margin_trim_tail l]
  exact feedLine_append (passes_blanks (Text.allBlank_margin l) hs) _

/-! ## Scans that go on alike -/

/-- No escape waits in front of a text, or it will be spent on a character that means nothing. -/
def Idle (s : Scan) (cs : List Char) : Prop :=
  s.escaped = true → ∀ c ∈ cs.head?, isInert c = true

/-- An escape waits in front of a text and will not be spent on a character that means nothing. -/
def Waits (s : Scan) (cs : List Char) : Prop :=
  s.escaped = true ∧ ∀ c ∈ cs.head?, isInert c = false

/-- Two scans, each in front of a text, that agree but for an escape that will be spent on a character
that means nothing. -/
structure Alike (s t : Scan) (cs ds : List Char) : Prop where
  depth : s.depth = t.depth
  quoted : s.quoted = t.quoted
  escaped : (s.Idle cs ∧ t.Idle ds) ∨ (s.Waits cs ∧ t.Waits ds)

theorem after_blanks_eq {blanks : List Char} (h : Text.allBlank blanks = true) :
    (s.after blanks).depth = s.depth ∧ (s.after blanks).quoted = s.quoted := by
  cases blanks with
  | nil => exact ⟨rfl, rfl⟩
  | cons c blanks =>
    rw [after_blanks h (List.cons_ne_nil c blanks)]
    exact ⟨rfl, rfl⟩

theorem Idle.blanks {blanks : List Char} (h : s.Idle (blanks ++ cs)) (hb : Text.allBlank blanks = true) :
    (s.after blanks).Idle cs := by
  cases blanks with
  | nil => exact h
  | cons c blanks =>
    intro hs
    rw [after_blanks hb (List.cons_ne_nil c blanks)] at hs
    cases hs

theorem Waits.blanks {blanks : List Char} (h : s.Waits (blanks ++ cs)) (hb : Text.allBlank blanks = true) :
    blanks = [] := by
  cases blanks with
  | nil => rfl
  | cons c blanks =>
    simp only [Text.allBlank, List.all_cons, Bool.and_eq_true] at hb
    have hc := h.2 c rfl
    rw [isInert_of_isBlank hb.1] at hc
    cases hc

namespace Alike

/-- Any blanks may come next in either text. -/
theorem blanks {x y : List Char} (h : s.Alike t (x ++ cs) (y ++ ds)) (hx : Text.allBlank x = true)
    (hy : Text.allBlank y = true) : (s.after x).Alike (t.after y) cs ds := by
  obtain ⟨hsd, hsq⟩ := after_blanks_eq (s := s) hx
  obtain ⟨htd, htq⟩ := after_blanks_eq (s := t) hy
  refine ⟨by rw [hsd, htd, h.depth], by rw [hsq, htq, h.quoted], ?_⟩
  rcases h.escaped with ⟨hs, ht⟩ | ⟨hs, ht⟩
  · exact .inl ⟨hs.blanks hx, ht.blanks hy⟩
  · obtain rfl := hs.blanks hx
    obtain rfl := ht.blanks hy
    exact .inr ⟨hs, ht⟩

theorem eq_of_escaped (h : s.Alike t cs ds) (he : s.escaped = t.escaped) : s = t := by
  have hdepth := h.depth
  have hquoted := h.quoted
  cases s
  cases t
  simp only [Scan.mk.injEq]
  exact ⟨hdepth, hquoted, he⟩

theorem feed_eq {c : Char} (h : s.Alike t (c :: cs) (c :: ds)) : s.feed c = t.feed c := by
  rcases h.escaped with ⟨hs, ht⟩ | ⟨hs, ht⟩
  · cases hc : isInert c with
    | true => rw [feed_of_isInert hc, feed_of_isInert hc, h.depth, h.quoted]
    | false =>
      have hidle : ∀ {u : Scan} {es : List Char}, u.Idle (c :: es) → u.escaped = false := by
        intro u es hu
        cases he : u.escaped with
        | false => rfl
        | true => rw [hu he c rfl] at hc; cases hc
      rw [h.eq_of_escaped ((hidle hs).trans (hidle ht).symm)]
  · rw [h.eq_of_escaped (hs.1.trans ht.1.symm)]

/-- A scan is like itself in front of two texts that begin alike, if it matters how they begin. -/
theorem refl (s : Scan) (h : s.escaped = true → BeginAlike cs ds) : s.Alike s cs ds := by
  refine ⟨rfl, rfl, ?_⟩
  cases hs : s.escaped with
  | false =>
    have hidle : ∀ es, s.Idle es := by
      intro es he
      rw [hs] at he
      cases he
    exact .inl ⟨hidle cs, hidle ds⟩
  | true =>
    have hcommon : ∃ b, (∀ c ∈ cs.head?, isInert c = b) ∧ ∀ d ∈ ds.head?, isInert d = b := by
      have hbegin := h hs
      unfold BeginAlike at hbegin
      cases cs with
      | nil => cases ds with
        | nil => exact ⟨true, by simp, by simp⟩
        | cons d ds => exact ⟨isInert d, by simp, by simp⟩
      | cons c cs => exact ⟨isInert c, by simp, fun d hd => (hbegin c rfl d hd).symm⟩
    obtain ⟨b, hc, hd⟩ := hcommon
    cases b with
    | true => exact .inl ⟨fun _ => hc, fun _ => hd⟩
    | false => exact .inr ⟨⟨hs, hc⟩, hs, hd⟩

/-- Behind their margins, both scans take the trimmed part of a line alike: its first character makes them
the same. -/
theorem feedLine_trim {a b : List Char} (h : s.Alike t (a ++ cs) (b ++ ds)) (htrim : Text.trim a = Text.trim b)
    (hne : Text.trim a ≠ []) (more : List Char) :
    (t.after (b.takeWhile Text.isBlank)).feedLine (Text.trim a ++ more) =
      (s.after (a.takeWhile Text.isBlank)).feedLine (Text.trim a ++ more) := by
  have hcut : ∀ l es : List Char,
      l.takeWhile Text.isBlank ++ (Text.trim l ++ (Text.tail l ++ es)) = l ++ es := by
    intro l es
    rw [← List.append_assoc (Text.trim l), ← List.append_assoc, Text.margin_trim_tail]
  rw [← hcut a, ← hcut b] at h
  have halike := h.blanks (Text.allBlank_margin a) (Text.allBlank_margin b)
  obtain ⟨c, rest, hc⟩ := List.exists_cons_of_ne_nil hne
  rw [← htrim, hc] at halike
  rw [hc, List.cons_append, Scan.feedLine, Scan.feedLine, halike.feed_eq]

/-- Lines with the same trimmed part end both scans, or leave them alike. -/
theorem feedLine {a b : List Char} (h : s.Alike t (a ++ cs) (b ++ ds)) (hs : s.depth ≠ 0)
    (htrim : Text.trim a = Text.trim b)
    (hescape : MayEscape (Text.trim a) → BeginAlike (Text.tail a ++ cs) (Text.tail b ++ ds)) :
    ((s.feedLine a).depth = 0 ∧ (t.feedLine b).depth = 0) ∨
      ((s.feedLine a).depth ≠ 0 ∧ (t.feedLine b).depth ≠ 0 ∧ (s.feedLine a).Alike (t.feedLine b) cs ds) := by
  have ht : t.depth ≠ 0 := h.depth ▸ hs
  by_cases hne : Text.trim a = []
  · have ha := Text.allBlank_of_trim hne
    have hb := Text.allBlank_of_trim (htrim ▸ hne)
    rw [feedLine_of_passes (passes_blanks ha hs), feedLine_of_passes (passes_blanks hb ht)]
    exact .inr ⟨by rwa [(after_blanks_eq ha).1], by rwa [(after_blanks_eq hb).1], h.blanks ha hb⟩
  have hopen : (s.after (a.takeWhile Text.isBlank)).depth ≠ 0 := by
    rwa [(after_blanks_eq (Text.allBlank_margin a)).1]
  rw [feedLine_eq hs, feedLine_eq ht, ← htrim, h.feedLine_trim htrim hne]
  generalize s.after (a.takeWhile Text.isBlank) = u at hopen
  by_cases hclosed : (u.feedLine (Text.trim a)).depth = 0
  · rw [feedLine_append_of_closed hopen hclosed, feedLine_append_of_closed hopen hclosed]
    exact .inl ⟨hclosed, hclosed⟩
  · -- the block goes on, and the scans part over the blanks behind the line
    have hpasses := passes_of_open hclosed
    have hdepth := depth_after_ne hopen hpasses
    have hta := Text.allBlank_tail a
    have htb := Text.allBlank_tail b
    have halike : (u.after (Text.trim a)).Alike (u.after (Text.trim a)) (Text.tail a ++ cs) (Text.tail b ++ ds) :=
      .refl _ fun he => hescape (mayEscape_of_escaped hne he)
    rw [feedLine_append hpasses, feedLine_append hpasses, feedLine_of_passes (passes_blanks hta hdepth),
      feedLine_of_passes (passes_blanks htb hdepth)]
    exact .inr ⟨by rwa [(after_blanks_eq hta).1], by rwa [(after_blanks_eq htb).1], halike.blanks hta htb⟩

end Alike

end Scan

/-! ## Lines with other blanks around them -/

/-- The same lines but for the blanks around them, with escapes that are spent alike. -/
structure Reindented (as bs : List (List Char)) : Prop where
  trims : as.map Text.trim = bs.map Text.trim
  escapes : EscapesAlike as bs

theorem BeginAlike.of_append {cs ds cs' ds' : List Char} (h : BeginAlike (cs ++ cs') (ds ++ ds')) :
    BeginAlike cs ds := by
  intro c hc d hd
  refine h c ?_ d ?_
  · rw [List.head?_append, Option.mem_def.1 hc]
    rfl
  · rw [List.head?_append, Option.mem_def.1 hd]
    rfl

namespace Reindented

variable {a b : List Char} {as bs as' bs' : List (List Char)}

theorem nil : Reindented [] [] := ⟨rfl, trivial⟩

theorem eq_nil (h : Reindented [] bs) : bs = [] := List.map_eq_nil_iff.1 h.trims.symm

theorem length_eq (h : Reindented as bs) : as.length = bs.length := by
  simpa only [List.length_map] using congrArg List.length h.trims

theorem exists_cons (h : Reindented (a :: as) bs) : ∃ b bs', bs = b :: bs' ∧ Reindented (a :: as) (b :: bs') := by
  cases bs with
  | nil => cases h.trims
  | cons b bs' => exact ⟨b, bs', rfl, h⟩

theorem head (h : Reindented (a :: as) (b :: bs)) : Text.trim a = Text.trim b := (List.cons.inj h.trims).1

theorem tail (h : Reindented (a :: as) (b :: bs)) : Reindented as bs := ⟨(List.cons.inj h.trims).2, h.escapes.2⟩

theorem cons_of_append (h : Reindented (a :: (as ++ as')) (b :: (bs ++ bs'))) (hrest : Reindented as bs) :
    Reindented (a :: as) (b :: bs) where
  trims := by rw [List.map_cons, List.map_cons, h.head, hrest.trims]
  escapes := by
    refine ⟨fun he => ?_, hrest.escapes⟩
    have hbegin := h.escapes.1 he
    rw [List.flatten_append, List.flatten_append, ← List.append_assoc, ← List.append_assoc] at hbegin
    exact hbegin.of_append

end Reindented

/-- **Blocks end on the same line**: the scans of both texts find one, with the same blocks and the same
lines after them but for blanks, or neither does. -/
theorem Block.split?_reindented {s t : Scan} {as bs : List (List Char)} (h : Reindented as bs)
    (halike : s.Alike t as.flatten bs.flatten) (hs : s.depth ≠ 0) :
    Option.Rel (fun p q => Reindented p.1 q.1 ∧ Reindented p.2 q.2) (split? s as) (split? t bs) := by
  induction as generalizing s t bs with
  | nil =>
    obtain rfl := h.eq_nil
    exact .none
  | cons a as ih =>
    obtain ⟨b, bs, rfl, h⟩ := h.exists_cons
    rw [List.flatten_cons, List.flatten_cons] at halike
    rw [split?, split?]
    rcases halike.feedLine hs h.head h.escapes.1 with ⟨hsc, htc⟩ | ⟨hso, hto, hnext⟩
    · simp only [hsc, htc, if_true]
      exact .some ⟨.nil, h.tail⟩
    · simp only [hso, hto, if_false]
      have hrel := ih h.tail hnext hso
      generalize hp : split? (s.feedLine a) as = o at hrel ⊢
      generalize hq : split? (t.feedLine b) bs = o' at hrel ⊢
      cases hrel with
      | none => exact .none
      | @some p q hpq =>
        obtain ⟨hblock, hrest⟩ := hpq
        obtain ⟨close, rfl⟩ := eq_of_split? hp
        obtain ⟨close', rfl⟩ := eq_of_split? hq
        exact .some ⟨h.cons_of_append hblock, hrest⟩

/-- The same construct but for the blanks around the lines of its block. -/
inductive Construct.Alike : Construct → Construct → Prop where
  | same (c) : Alike c c
  | sect {name attributes block block'} (h : Reindented block block') :
      Alike (.sect name attributes block) (.sect name attributes block')

/-- Whether a line is the header of a function. -/
def Line.isFunc : Line → Bool
  | .func .. => true
  | _ => false

/-- The same construct begins both texts, and the same lines follow it. -/
theorem Front.read_reindented {a b : List Char} {as bs : List (List Char)} (h : Reindented (a :: as) (b :: bs))
    (hfunc : (Line.read (Text.trim a)).isFunc = false) :
    (read a as).construct.Alike (read b bs).construct ∧ (read a as).height = (read b bs).height ∧
      Reindented (read a as).rest (read b bs).rest := by
  by_cases hb : Text.trim a = []
  · rw [read_blank hb, read_blank (h.head ▸ hb)]
    exact ⟨.same _, rfl, h.tail⟩
  rw [read_shape hb, read_shape (h.head ▸ hb), ← h.head]
  cases hl : Line.read (Text.trim a) with
  | unknown text => exact ⟨.same _, rfl, h.tail⟩
  | prop key value => exact ⟨.same _, rfl, h.tail⟩
  | ref path deferred => exact ⟨.same _, rfl, h.tail⟩
  | func name arguments opened => rw [hl] at hfunc; cases hfunc
  | sect name attributes =>
    have hrel := Block.split?_reindented h.tail (.refl {} fun he => by cases he) (by decide)
    rw [ofShape, ofShape]
    generalize Block.split? {} as = o at hrel ⊢
    generalize Block.split? {} bs = o' at hrel ⊢
    cases hrel with
    | none => exact ⟨.same _, rfl, h.tail⟩
    | some hpq => exact ⟨.sect hpq.1, by simp only [hpq.1.length_eq], hpq.2⟩

/-- **Blanks around lines do not matter to the builder**, whatever becomes of imports. -/
theorem buildLines_reindented {rule : ImportRule} {as : List (List Char)} : ∀ (before : Nat) {bs : List (List Char)},
    Reindented as bs → (∀ l ∈ as, (Line.read (Text.trim l)).isFunc = false) →
      buildLines rule before as = buildLines rule before bs := by
  induction as using Front.induction with
  | nil =>
    intro before bs h _
    rw [h.eq_nil]
  | cons a as ih ihb =>
    intro before bs h hfunc
    obtain ⟨b, bs, rfl, h⟩ := h.exists_cons
    obtain ⟨hconstruct, hheight, hrest⟩ := Front.read_reindented h (hfunc a List.mem_cons_self)
    have hmore := ih (before + (Front.read a as).height) hrest fun l hl =>
      hfunc l (List.mem_cons_of_mem a (Front.mem_of_mem_rest hl))
    have hsame : buildConstruct rule before (Front.read a as).construct =
        buildConstruct rule before (Front.read b bs).construct := by
      generalize (Front.read b bs).construct = c' at hconstruct
      generalize hc : (Front.read a as).construct = c at hconstruct
      cases hconstruct with
      | same => rfl
      | @sect name attributes block block' hblock =>
        have hinner := ihb name attributes block hc (before + 1) hblock fun l hl =>
          hfunc l (List.mem_cons_of_mem a (Block.mem_of_mem_body (Front.split?_of_read_sect hc) hl))
        rw [buildConstruct, buildConstruct, hinner, hblock.length_eq]
    rw [buildLines_cons, buildLines_cons, hsame, hmore, hheight]

/-! ## Whole texts -/

section

variable {a b : String} (ha : Comment.Free a.toList) (hb : Comment.Free b.toList)
  (htrim : (Text.lines a.toList).map Text.trim = (Text.lines b.toList).map Text.trim)
  (hfunc : ∀ l ∈ Text.lines a.toList, (Line.read (Text.trim l)).isFunc = false)
  (hescape : EscapesAlike (Text.lines a.toList) (Text.lines b.toList))

include ha hb htrim hfunc hescape

theorem parse_reindented (expand : Bool) (loader : Loader) (source : Option String) :
    parse expand loader a source = parse expand loader b source := by
  have hlines : ∀ {t : String}, Comment.Free t.toList → sourceLines t = Text.lines t.toList := by
    intro t ht
    rw [sourceLines, Comment.erase_of_free ht]
  have hbuild : buildText (importRule expand loader (loader.origin source)) a =
      buildText (importRule expand loader (loader.origin source)) b := by
    rw [buildText, buildText, hlines ha, hlines hb]
    exact buildLines_reindented 0 ⟨htrim, hescape⟩ hfunc
  rw [parse_eq, parse_eq, hbuild]

/-- **Indentation does not matter outside of functions**, unless a backslash at the end of a line takes a
brace, a quote or a backslash in one text and not in the other. Two texts without comments and function
headers, with the same lines but for the blanks around them, are read alike: to the same tree or the same
fault, over the same events. -/
theorem reads_reindented (library : Library) (expand : Bool) (source : Option String) (run : Run Node) :
    library.Reads expand a source run ↔ library.Reads expand b source run := by
  have hparse := parse_reindented ha hb htrim hfunc hescape expand
  constructor
  · rintro ⟨loader, hkey, hload, hrun⟩
    exact ⟨loader, hkey, hload, hparse loader source ▸ hrun⟩
  · rintro ⟨loader, hkey, hload, hrun⟩
    exact ⟨loader, hkey, hload, (hparse loader source).symm ▸ hrun⟩

end

/-- A backslash may take the first character of the next line in one text and a blank in the other. -/
theorem reads_reindented_import :
    let loader := Loader.ofMemory [("m", some "x: 1")] []
    let a := "s \x7b\nk: \\\n@import \"m\"\n\x7d"
    let b := "\ts \x7b\n k: \\\n  @import \"m\"  \n \x7d"
    (parse true loader a none).loads = ["m"] ∧ loader.library.Reads true b none (parse true loader a none) := by
  intro loader a b
  have hfree : Comment.Free a.toList ∧ Comment.Free b.toList :=
    ⟨⟨by decide, by decide⟩, ⟨by decide, by decide⟩⟩
  refine ⟨by decide +kernel, ?_⟩
  exact (reads_reindented hfree.1 hfree.2 (by decide +kernel) (by decide +kernel) (by decide +kernel) loader.library
    true none _).1 (Library.reads_library_iff.2 rfl)

/-- A blank behind a backslash that ends a line is what keeps the closing brace of the block. -/
theorem reindented_backslash_brace :
    let a := "s \x7b\nk: \\\n\x7d"
    let b := "s \x7b\nk: \\ \n\x7d"
    (Comment.Free a.toList ∧ Comment.Free b.toList) ∧
    (Text.lines a.toList).map Text.trim = (Text.lines b.toList).map Text.trim ∧
    (∀ l ∈ Text.lines a.toList, (Line.read (Text.trim l)).isFunc = false) ∧
    (parse false (Loader.ofMemory [] []) a none).result.map (fun _ => ()) =
      .error (.unclosedBlock 1 "s \x7b".toList) ∧
    (parse false (Loader.ofMemory [] []) b none).result.isOk = true := by
  refine ⟨⟨⟨by decide, by decide⟩, ⟨by decide, by decide⟩⟩, by decide +kernel, by decide +kernel, by decide +kernel,
    by decide +kernel⟩

end DefTree
