/-
The margin that lines share.

The margin is measured over blanks of any kind and cut off only where it is
all spaces, so what is left may have a margin again. A line that begins
with exactly the margin, in spaces, leaves none (`Flush`); otherwise it
depends on whether any line that is left begins with as many spaces as the
new margin has. Nothing else can make cutting twice different from cutting
once (`unindent_unindent_iff`): the blank lines at both ends are gone, and
a line is blank without its margin just when it was blank before.

The other way round, spaces put in front of all lines are what they share
(`margin_map_putMargin`) as soon as one of them began without blanks, and
cutting gives the lines back, whatever blank lines are put around them.
-/
import DefTree.Proofs.WellFormed

namespace DefTree.Block

variable {ls : List (List Char)} {l : List Char} {width : Nat}

/-- A text without the blank lines at both ends and without the margin that its lines share. -/
def unindentText (cs : List Char) : List Char := Text.unlines (unindent (Text.lines cs))

/-- A line that begins with exactly so many blanks, all of them spaces. -/
def Flush (width : Nat) (l : List Char) : Prop :=
  ∃ c cs, l = List.replicate width ' ' ++ c :: cs ∧ Text.isBlank c = false

/-! ## Lines that count -/

theorem filter_dropWhile_not {α : Type} (p : α → Bool) (as : List α) :
    (as.dropWhile p).filter (!p ·) = as.filter (!p ·) := by
  induction as with
  | nil => rfl
  | cons a as ih =>
    cases ha : p a with
    | true => rw [List.dropWhile_cons_of_pos ha, List.filter_cons_of_neg (by simp [ha]), ih]
    | false => rw [List.dropWhile_cons_of_neg (by simp [ha])]

theorem filter_trimLines (ls : List (List Char)) :
    (trimLines ls).filter (!Text.allBlank ·) = ls.filter (!Text.allBlank ·) := by
  rw [trimLines, List.filter_reverse, filter_dropWhile_not, List.filter_reverse, List.reverse_reverse,
    filter_dropWhile_not]

theorem margin_trimLines (ls : List (List Char)) : margin (trimLines ls) = margin ls := by
  rw [margin, margin, filter_trimLines]

theorem mem_trimLines_iff (h : Text.allBlank l = false) : l ∈ trimLines ls ↔ l ∈ ls := by
  have hmem (as : List (List Char)) : l ∈ as.filter (!Text.allBlank ·) ↔ l ∈ as := by
    rw [List.mem_filter, h]
    simp
  rw [← hmem, filter_trimLines, hmem]

theorem trimLines_eq_self (hfirst : ∀ l, ls.head? = some l → Text.allBlank l = false)
    (hlast : ∀ l, ls.getLast? = some l → Text.allBlank l = false) : trimLines ls = ls := by
  have hdrop {as : List (List Char)} (h : ∀ l, as.head? = some l → Text.allBlank l = false) :
      as.dropWhile Text.allBlank = as := by
    cases as with
    | nil => rfl
    | cons a as => rw [List.dropWhile_cons_of_neg (by simp [h a rfl])]
  rw [trimLines, hdrop hfirst, hdrop (by simpa only [List.head?_reverse] using hlast), List.reverse_reverse]

theorem margin_le (hl : l ∈ ls) (h : Text.allBlank l = false) : margin ls ≤ Text.indentation l := by
  refine List.min?_getD_le_of_mem (List.mem_map_of_mem ?_)
  rw [List.mem_filter, h]
  exact ⟨hl, rfl⟩

theorem exists_indentation_eq_margin (hl : l ∈ ls) (h : Text.allBlank l = false) :
    ∃ l' ∈ ls, Text.allBlank l' = false ∧ Text.indentation l' = margin ls := by
  cases hmin : ((ls.filter (!Text.allBlank ·)).map Text.indentation).min? with
  | none =>
    rw [List.min?_eq_none_iff, List.map_eq_nil_iff, List.filter_eq_nil_iff] at hmin
    exact absurd h (by simpa using hmin l hl)
  | some width =>
    obtain ⟨l', hl', hwidth⟩ := List.mem_map.1 (List.min?_mem hmin)
    obtain ⟨hmem, hblank⟩ := List.mem_filter.1 hl'
    exact ⟨l', hmem, by simpa using hblank, by rw [margin, hmin, hwidth]; rfl⟩

/-! ## Lines without a margin -/

theorem cutMargin_append (width : Nat) (l : List Char) : cutMargin width (List.replicate width ' ' ++ l) = l := by
  rw [cutMargin, Text.after?_append]
  rfl

theorem cutMargin_of_not_begins (h : ¬List.replicate width ' ' <+: l) : cutMargin width l = l := by
  rw [cutMargin, Text.after?_eq_none_iff.2 h]
  rfl

theorem cutMargin_eq_self_iff : cutMargin width l = l ↔ width = 0 ∨ ¬List.replicate width ' ' <+: l := by
  by_cases h : List.replicate width ' ' <+: l
  · obtain ⟨rest, rfl⟩ := h
    rw [cutMargin_append]
    constructor
    · intro hrest
      have := congrArg List.length hrest
      rw [List.length_append, List.length_replicate] at this
      exact .inl (by omega)
    · rintro (rfl | h)
      · rfl
      · exact absurd (List.prefix_append _ rest) h
  · simp [cutMargin_of_not_begins h, h]

theorem allBlank_cutMargin_eq (width : Nat) (l : List Char) :
    Text.allBlank (cutMargin width l) = Text.allBlank l := by
  cases h : Text.allBlank l with
  | false => exact allBlank_cutMargin h
  | true => exact List.all_eq_true.2 fun c hc => List.all_eq_true.1 h c ((cutMargin_sublist width l).subset hc)

theorem indentation_eq_zero_iff : Text.indentation l = 0 ↔ ∀ c, l.head? = some c → Text.isBlank c = false := by
  cases l with
  | nil => simp [Text.indentation]
  | cons c cs => cases h : Text.isBlank c <;> simp [Text.indentation, h]

/-- A line has no blanks left in front just when it began with exactly the margin, in spaces. -/
theorem indentation_cutMargin_eq_zero_iff (h : Text.allBlank l = false) (hwidth : width ≤ Text.indentation l) :
    Text.indentation (cutMargin width l) = 0 ↔ Flush width l := by
  by_cases hp : List.replicate width ' ' <+: l
  · obtain ⟨rest, rfl⟩ := hp
    have hrest : Text.allBlank rest = false := by
      rwa [← allBlank_cutMargin_eq width, cutMargin_append] at h
    cases rest with
    | nil => cases hrest
    | cons c cs =>
      rw [cutMargin_append, indentation_eq_zero_iff]
      constructor
      · exact fun hc => ⟨c, cs, rfl, hc c rfl⟩
      · rintro ⟨d, ds, heq, hd⟩
        obtain ⟨rfl, -⟩ := List.cons.inj (List.append_cancel_left heq)
        rintro _ ⟨⟩
        exact hd
  · rw [cutMargin_of_not_begins hp]
    constructor
    · intro hzero
      obtain rfl : width = 0 := by omega
      exact absurd List.nil_prefix hp
    · rintro ⟨c, cs, rfl, -⟩
      exact absurd (List.prefix_append _ _) hp

theorem allBlank_of_flush (h : Flush width l) : Text.allBlank l = false := by
  obtain ⟨c, cs, rfl, hc⟩ := h
  simp [Text.allBlank, hc]

/-! ## Cutting twice -/

theorem trimLines_unindent (ls : List (List Char)) : trimLines (unindent ls) = unindent ls := by
  refine trimLines_eq_self (fun l hl => ?_) fun l hl => ?_
  · rw [unindent, List.head?_map] at hl
    obtain ⟨l', hl', rfl⟩ := Option.map_eq_some_iff.1 hl
    exact allBlank_cutMargin (allBlank_of_head?_trimLines hl')
  · rw [unindent, List.getLast?_map] at hl
    obtain ⟨l', hl', rfl⟩ := Option.map_eq_some_iff.1 hl
    exact allBlank_cutMargin (allBlank_of_getLast?_trimLines hl')

theorem unindent_eq_nil_iff : unindent ls = [] ↔ ∀ l ∈ ls, Text.allBlank l = true := by
  rw [unindent, List.map_eq_nil_iff]
  constructor
  · intro hnil l hl
    by_contra h
    rw [Bool.not_eq_true] at h
    have hmem := (mem_trimLines_iff h).2 hl
    rw [hnil] at hmem
    cases hmem
  · intro h
    cases htrim : trimLines ls with
    | nil => rfl
    | cons l as =>
      have hblank : Text.allBlank l = false := allBlank_of_head?_trimLines (by rw [htrim]; rfl)
      have hl : l ∈ ls := (mem_trimLines_iff hblank).1 (by rw [htrim]; exact List.mem_cons_self)
      rw [h l hl] at hblank
      cases hblank

theorem cutMargin_mem_unindent (hl : l ∈ ls) (h : Text.allBlank l = false) :
    cutMargin (margin ls) l ∈ unindent ls := by
  rw [unindent, margin_trimLines]
  exact List.mem_map_of_mem ((mem_trimLines_iff h).2 hl)

theorem exists_of_mem_unindent (hl : l ∈ unindent ls) (h : Text.allBlank l = false) :
    ∃ l' ∈ ls, Text.allBlank l' = false ∧ l = cutMargin (margin ls) l' := by
  rw [unindent, margin_trimLines] at hl
  obtain ⟨l', hl', rfl⟩ := List.mem_map.1 hl
  rw [allBlank_cutMargin_eq] at h
  exact ⟨l', (mem_trimLines_iff h).1 hl', h, rfl⟩

/-- **What is left has no margin** if all lines were blank or one began with exactly the margin, in spaces. -/
theorem margin_unindent_eq_zero_iff : margin (unindent ls) = 0 ↔
    (∀ l ∈ ls, Text.allBlank l = true) ∨ ∃ l ∈ ls, Flush (margin ls) l := by
  constructor
  · intro hzero
    by_cases hall : ∀ l ∈ ls, Text.allBlank l = true
    · exact .inl hall
    · right
      obtain ⟨l, hl, h⟩ : ∃ l ∈ ls, Text.allBlank l = false := by simpa using hall
      obtain ⟨l₁, hl₁, h₁, hindent⟩ :=
        exists_indentation_eq_margin (cutMargin_mem_unindent hl h) (allBlank_cutMargin h)
      obtain ⟨l₂, hl₂, h₂, rfl⟩ := exists_of_mem_unindent hl₁ h₁
      rw [hzero] at hindent
      exact ⟨l₂, hl₂, (indentation_cutMargin_eq_zero_iff h₂ (margin_le hl₂ h₂)).1 hindent⟩
  · rintro (hall | ⟨l, hl, hflush⟩)
    · rw [unindent_eq_nil_iff.2 hall]
      rfl
    · have h := allBlank_of_flush hflush
      have hle := margin_le (cutMargin_mem_unindent hl h) (allBlank_cutMargin h)
      rw [(indentation_cutMargin_eq_zero_iff h (margin_le hl h)).2 hflush] at hle
      omega

theorem map_eq_self_iff {α : Type} {f : α → α} {as : List α} : as.map f = as ↔ ∀ a ∈ as, f a = a := by
  induction as with
  | nil => simp
  | cons a as ih => simp [ih]

/-- **Cutting twice is cutting once** if what is left has no margin, or has no line that begins with its
margin in spaces. -/
theorem unindent_unindent_iff : unindent (unindent ls) = unindent ls ↔ margin (unindent ls) = 0 ∨
    ∀ l ∈ unindent ls, ¬List.replicate (margin (unindent ls)) ' ' <+: l := by
  conv_lhs => lhs; rw [unindent, trimLines_unindent]
  rw [map_eq_self_iff]
  simp only [cutMargin_eq_self_iff, forall_or_left]

/-- The lines of a text without its margin are those that are left of its lines, or one that is empty. -/
theorem lines_unindentText {cs : List Char} (h : unindent (Text.lines cs) ≠ []) :
    Text.lines (unindentText cs) = unindent (Text.lines cs) := by
  refine Text.lines_unlines h fun l hl hm => ?_
  obtain ⟨l', hl', rfl⟩ := List.mem_map.1 hl
  exact Text.newline_not_mem_of_mem_lines ((trimLines_sublist _).subset hl') ((cutMargin_sublist _ l').subset hm)

theorem unindentText_unindentText_iff {cs : List Char} (h : unindent (Text.lines cs) ≠ []) :
    unindentText (unindentText cs) = unindentText cs ↔
      unindent (unindent (Text.lines cs)) = unindent (Text.lines cs) := by
  have hlines := lines_unindentText h
  constructor
  · intro heq
    have hne : unindent (Text.lines (unindentText cs)) ≠ [] := by
      rw [hlines, Ne, unindent, trimLines_unindent, List.map_eq_nil_iff]
      exact h
    have := congrArg Text.lines heq
    rwa [lines_unindentText hne, hlines] at this
  · intro heq
    rw [unindentText, hlines, heq]
    rfl

/-- **When cutting the margin off twice is cutting it off once**: if the text has blank lines only, or a line
that begins with exactly its margin, in spaces, or if no line of what is left begins with the new margin in
spaces. -/
theorem unindentText_twice_iff (cs : List Char) : unindentText (unindentText cs) = unindentText cs ↔
    (∀ l ∈ Text.lines cs, Text.allBlank l = true) ∨
    (∃ l ∈ Text.lines cs, Flush (margin (Text.lines cs)) l) ∨
    ∀ l ∈ Text.lines (unindentText cs), ¬List.replicate (margin (Text.lines (unindentText cs))) ' ' <+: l := by
  by_cases hnil : unindent (Text.lines cs) = []
  · refine iff_of_true ?_ (.inl (unindent_eq_nil_iff.1 hnil))
    have hempty : unindentText cs = [] := by rw [unindentText, hnil]; rfl
    rw [hempty]
    rfl
  · rw [unindentText_unindentText_iff hnil, lines_unindentText hnil, unindent_unindent_iff,
      margin_unindent_eq_zero_iff, or_assoc]

/-- A line with one space more than the margin is left with a space in front, which is the margin beside a
tab. -/
theorem unindentText_twice_tab :
    unindentText "  a\n\tb".toList = " a\n\tb".toList ∧
      unindentText (unindentText "  a\n\tb".toList) = "a\n\tb".toList ∧
      unindentText (unindentText "  a\n\tb".toList) ≠ unindentText "  a\n\tb".toList := by
  decide +kernel

/-! ## A margin put in front -/

/-- A line behind a margin of so many spaces. -/
def putMargin (width : Nat) (l : List Char) : List Char := List.replicate width ' ' ++ l

/-- A text behind a margin, with more lines above and below. -/
def setIn (width : Nat) (cs : List Char) (front back : List (List Char)) : List Char :=
  Text.unlines (front ++ (Text.lines cs).map (putMargin width) ++ back)

theorem cutMargin_putMargin (width : Nat) (l : List Char) : cutMargin width (putMargin width l) = l :=
  cutMargin_append width l

theorem indentation_putMargin (width : Nat) (l : List Char) :
    Text.indentation (putMargin width l) = width + Text.indentation l := by
  have hspaces : ∀ c ∈ List.replicate width ' ', Text.isBlank c = true := fun c hc => by
    rw [List.eq_of_mem_replicate hc]
    decide
  rw [Text.indentation, putMargin, List.takeWhile_append_of_pos hspaces, List.length_append, List.length_replicate,
    Text.indentation]

theorem allBlank_putMargin (width : Nat) (l : List Char) : Text.allBlank (putMargin width l) = Text.allBlank l := by
  rw [← allBlank_cutMargin_eq width, cutMargin_putMargin]

theorem trimLines_around {front back : List (List Char)} (hfront : ∀ l ∈ front, Text.allBlank l = true)
    (hback : ∀ l ∈ back, Text.allBlank l = true) (hne : ls ≠ [])
    (hfirst : ∀ l, ls.head? = some l → Text.allBlank l = false)
    (hlast : ∀ l, ls.getLast? = some l → Text.allBlank l = false) : trimLines (front ++ ls ++ back) = ls := by
  obtain ⟨l, as, rfl⟩ := List.exists_cons_of_ne_nil hne
  have hdrop : (l :: as ++ back).dropWhile Text.allBlank = l :: as ++ back := by
    rw [List.cons_append, List.dropWhile_cons_of_neg (by simp [hfirst l rfl])]
  have hself := trimLines_eq_self hfirst hlast
  rw [trimLines, List.dropWhile_cons_of_neg (by simp [hfirst l rfl])] at hself
  rw [trimLines, List.append_assoc, List.dropWhile_append_of_pos hfront, hdrop, List.reverse_append,
    List.dropWhile_append_of_pos fun b hb => hback b (List.mem_reverse.1 hb), hself]

theorem margin_map_putMargin (width : Nat) (hl : l ∈ ls) (hflush : Flush 0 l) :
    margin (ls.map (putMargin width)) = width := by
  have hblank : Text.allBlank (putMargin width l) = false :=
    (allBlank_putMargin width l).trans (allBlank_of_flush hflush)
  have hmem : putMargin width l ∈ ls.map (putMargin width) := List.mem_map_of_mem hl
  refine Nat.le_antisymm ?_ ?_
  · obtain ⟨c, cs, rfl, hc⟩ := hflush
    have hzero : Text.indentation (List.replicate 0 ' ' ++ c :: cs) = 0 := by simp [Text.indentation, hc]
    have hle := margin_le hmem hblank
    rwa [indentation_putMargin, hzero] at hle
  · obtain ⟨l', hl', -, heq⟩ := exists_indentation_eq_margin hmem hblank
    obtain ⟨l, -, rfl⟩ := List.mem_map.1 hl'
    rw [← heq, indentation_putMargin]
    exact Nat.le_add_right width _

/-- **Cutting the margin off undoes putting one in front.** A text whose first and last lines are not blank, and in
which some line begins with no blank, comes back from behind any margin, whatever blank lines stand above and
below. -/
theorem unindentText_setIn {s : String} (hframed : IsFramed s) (hflush : ∃ l ∈ Text.lines s.toList, Flush 0 l)
    {front back : List (List Char)} (hfront : ∀ l ∈ front, Text.allBlank l = true ∧ '\n' ∉ l)
    (hback : ∀ l ∈ back, Text.allBlank l = true ∧ '\n' ∉ l) (width : Nat) :
    unindentText (setIn width s.toList front back) = s.toList := by
  obtain ⟨l, hl, hflush⟩ := hflush
  have hne : (Text.lines s.toList).map (putMargin width) ≠ [] := List.ne_nil_of_mem (List.mem_map_of_mem hl)
  have hline : ∀ l ∈ front ++ (Text.lines s.toList).map (putMargin width) ++ back, '\n' ∉ l := by
    refine List.forall_mem_append.2 ⟨List.forall_mem_append.2 ⟨fun l hl => (hfront l hl).2, fun l hl => ?_⟩,
      fun l hl => (hback l hl).2⟩
    obtain ⟨l', hl', rfl⟩ := List.mem_map.1 hl
    simp [putMargin, List.mem_replicate, Text.newline_not_mem_of_mem_lines hl']
  have htrim : trimLines (front ++ (Text.lines s.toList).map (putMargin width) ++ back) =
      (Text.lines s.toList).map (putMargin width) := by
    refine trimLines_around (fun l hl => (hfront l hl).1) (fun l hl => (hback l hl).1) hne (fun l hl => ?_)
      fun l hl => ?_
    · rw [List.head?_map] at hl
      obtain ⟨l', hl', rfl⟩ := Option.map_eq_some_iff.1 hl
      exact (allBlank_putMargin width l').trans (hframed.first l' hl')
    · rw [List.getLast?_map] at hl
      obtain ⟨l', hl', rfl⟩ := Option.map_eq_some_iff.1 hl
      exact (allBlank_putMargin width l').trans (hframed.last l' hl')
  have hcut : (cutMargin width ∘ putMargin width) = id := funext (cutMargin_putMargin width)
  have hlines := Text.lines_unlines
    (List.append_ne_nil_of_left_ne_nil (List.append_ne_nil_of_right_ne_nil front hne) back) hline
  rw [unindentText, setIn, hlines, unindent, htrim, margin_map_putMargin width hl hflush, List.map_map, hcut,
    List.map_id]
  exact Text.joined_pieces '\n' s.toList

/-- With a tab in front of the first line, and a blank line that is longer than the margin. -/
theorem unindentText_setIn_tab :
    let s := "\ta\nb\n \t  \n  c"
    IsFramed s ∧ (∃ l ∈ Text.lines s.toList, Flush 0 l) ∧
      setIn 2 s.toList [[], ['\t']] [[' ']] = "\n\t\n  \ta\n  b\n   \t  \n    c\n ".toList ∧
      unindentText (setIn 2 s.toList [[], ['\t']] [[' ']]) = s.toList := by
  intro s
  have hframed : IsFramed s := ⟨by decide, by decide⟩
  have hflush : ∃ l ∈ Text.lines s.toList, Flush 0 l := ⟨['b'], by decide, 'b', [], rfl, by decide⟩
  exact ⟨hframed, hflush, by decide, unindentText_setIn hframed hflush (by decide) (by decide) 2⟩

end DefTree.Block
