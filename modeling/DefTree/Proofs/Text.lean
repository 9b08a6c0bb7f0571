/-
Facts about cutting texts and about trimming them.

Cutting at a separator and joining are inverse to each other on pieces
that hold no separator, and a text put after another one adds its pieces.
A tight text has no blank at either end: it is what trimming leaves of it
and of the blanks around it.
-/
import DefTree.Text.Blank
import DefTree.Text.Lines
import Mathlib.Data.List.Basic
import Mathlib.Data.List.TakeWhile

namespace DefTree.Text

/-! ## Pieces -/

theorem pieces_sep (sep : Char) (cs : List Char) : pieces sep (sep :: cs) = [] :: pieces sep cs := by
  simp [pieces]

theorem pieces_cons {sep c : Char} (h : c ≠ sep) {cs p : List Char} {ps : List (List Char)}
    (hp : pieces sep cs = p :: ps) : pieces sep (c :: cs) = (c :: p) :: ps := by
  simp [pieces, h, hp]

theorem pieces_append (sep : Char) (cs ds : List Char) :
    pieces sep (cs ++ sep :: ds) = pieces sep cs ++ pieces sep ds := by
  induction cs with
  | nil => exact pieces_sep sep ds
  | cons c cs ih =>
    by_cases hc : c = sep
    · subst hc
      rw [List.cons_append, pieces_sep, pieces_sep, ih, List.cons_append]
    · obtain ⟨p, ps, hp⟩ := List.exists_cons_of_ne_nil (pieces_ne_nil sep cs)
      rw [hp, List.cons_append] at ih
      rw [List.cons_append, pieces_cons hc hp, pieces_cons hc ih, List.cons_append]

theorem pieces_of_not_mem {sep : Char} {cs : List Char} (h : sep ∉ cs) : pieces sep cs = [cs] := by
  induction cs with
  | nil => rfl
  | cons c cs ih =>
    simp only [List.mem_cons, not_or] at h
    exact pieces_cons (Ne.symm h.1) (ih h.2)

theorem not_mem_of_mem_pieces {sep : Char} {cs p : List Char} (h : p ∈ pieces sep cs) : sep ∉ p := by
  induction cs generalizing p with
  | nil => simp only [pieces, List.mem_singleton] at h; simp [h]
  | cons c cs ih =>
    by_cases hc : c = sep
    · subst hc
      rw [pieces_sep, List.mem_cons] at h
      rcases h with rfl | h
      · simp
      · exact ih h
    · obtain ⟨q, qs, hq⟩ := List.exists_cons_of_ne_nil (pieces_ne_nil sep cs)
      rw [pieces_cons hc hq, List.mem_cons] at h
      rw [hq] at ih
      rcases h with rfl | h
      · simp only [List.mem_cons, not_or]
        exact ⟨Ne.symm hc, ih List.mem_cons_self⟩
      · exact ih (List.mem_cons_of_mem _ h)

theorem length_pieces (sep : Char) (cs : List Char) : (pieces sep cs).length = cs.count sep + 1 := by
  induction cs with
  | nil => rfl
  | cons c cs ih =>
    by_cases hc : c = sep
    · subst hc
      rw [pieces_sep, List.length_cons, ih, List.count_cons_self]
    · obtain ⟨p, ps, hp⟩ := List.exists_cons_of_ne_nil (pieces_ne_nil sep cs)
      rw [pieces_cons hc hp, List.count_cons_of_ne hc, ← ih, hp]
      rfl

theorem pieces_joined {sep : Char} : ∀ {ps : List (List Char)}, ps ≠ [] → (∀ p ∈ ps, sep ∉ p) →
    pieces sep (joined sep ps) = ps
  | [], h, _ => absurd rfl h
  | [p], _, h => pieces_of_not_mem (h p List.mem_cons_self)
  | p :: q :: ps, _, h => by
    rw [joined, pieces_append, pieces_of_not_mem (h p List.mem_cons_self),
      pieces_joined (List.cons_ne_nil q ps) fun r hr => h r (List.mem_cons_of_mem _ hr)]
    rfl

/-- Joined pieces, as the library of lists has them. -/
theorem joined_eq_intercalate (sep : Char) : ∀ ps : List (List Char), joined sep ps = [sep].intercalate ps
  | [] => rfl
  | [p] => (List.append_nil p).symm
  | p :: q :: ps => by
    rw [joined, joined_eq_intercalate sep (q :: ps), List.intercalate_cons_cons, List.append_assoc]
    rfl

/-! ## Lines -/

theorem lines_append (cs ds : List Char) : lines (cs ++ '\n' :: ds) = lines cs ++ lines ds :=
  pieces_append '\n' cs ds

theorem lines_of_not_mem {cs : List Char} (h : '\n' ∉ cs) : lines cs = [cs] := pieces_of_not_mem h

theorem newline_not_mem_of_mem_lines {cs l : List Char} (h : l ∈ lines cs) : '\n' ∉ l :=
  not_mem_of_mem_pieces h

theorem length_lines (cs : List Char) : (lines cs).length = cs.count '\n' + 1 := length_pieces '\n' cs

theorem lines_unlines {ls : List (List Char)} (hne : ls ≠ []) (h : ∀ l ∈ ls, '\n' ∉ l) :
    lines (unlines ls) = ls := pieces_joined hne h

theorem mem_joined {sep c : Char} : ∀ {ps : List (List Char)}, c ∈ joined sep ps → c = sep ∨ ∃ p ∈ ps, c ∈ p
  | [p], h => .inr ⟨p, List.mem_cons_self, h⟩
  | p :: q :: ps, h => by
    rw [joined, List.mem_append, List.mem_cons] at h
    rcases h with h | rfl | h
    · exact .inr ⟨p, List.mem_cons_self, h⟩
    · exact .inl rfl
    · rcases mem_joined h with rfl | ⟨r, hr, h⟩
      · exact .inl rfl
      · exact .inr ⟨r, List.mem_cons_of_mem _ hr, h⟩

theorem flatten_pieces (sep : Char) (cs : List Char) :
    (pieces sep cs).flatten = cs.filter (· != sep) := by
  induction cs with
  | nil => rfl
  | cons c cs ih =>
    by_cases hc : c = sep
    · subst hc
      rw [pieces_sep, List.flatten_cons, ih]
      simp
    · obtain ⟨p, ps, hp⟩ := List.exists_cons_of_ne_nil (pieces_ne_nil sep cs)
      rw [hp] at ih
      rw [pieces_cons hc hp, List.filter_cons_of_pos (by simpa using hc), ← ih]
      rfl

theorem flatten_lines (cs : List Char) : (lines cs).flatten = cs.filter (· != '\n') := flatten_pieces '\n' cs

/-! ## Trimming -/

/-- A text with no blank at either end. -/
structure Tight (cs : List Char) : Prop where
  first : ∀ c, cs.head? = some c → isBlank c = false
  last : ∀ c, cs.getLast? = some c → isBlank c = false

theorem trimStart_of_first {cs : List Char} (h : ∀ c, cs.head? = some c → isBlank c = false) :
    trimStart cs = cs := by
  cases cs with
  | nil => rfl
  | cons c cs => rw [trimStart, List.dropWhile_cons_of_neg (by simp [h c rfl])]

theorem trimEnd_of_last {cs : List Char} (h : ∀ c, cs.getLast? = some c → isBlank c = false) :
    trimEnd cs = cs := by
  have := @trimStart_of_first cs.reverse fun c hc => h c (by rwa [List.head?_reverse] at hc)
  rw [trimEnd, ← trimStart, this, List.reverse_reverse]

theorem trimStart_append {front : List Char} (h : allBlank front = true) (cs : List Char) :
    trimStart (front ++ cs) = trimStart cs := List.dropWhile_append_of_pos (List.all_eq_true.1 h)

theorem trimEnd_append {back : List Char} (h : allBlank back = true) (cs : List Char) :
    trimEnd (cs ++ back) = trimEnd cs := by
  rw [trimEnd, List.reverse_append,
    List.dropWhile_append_of_pos fun c hc => List.all_eq_true.1 h c (List.mem_reverse.1 hc), trimEnd]

theorem isBlank_of_all {cs : List Char} (h : cs.all (!isBlank ·) = true) : ∀ c ∈ cs, isBlank c = false := by
  simpa using h

namespace Tight

variable {cs ds : List Char}

theorem of_forall (h : ∀ c ∈ cs, isBlank c = false) : Tight cs :=
  ⟨fun c hc => h c (List.mem_of_mem_head? hc), fun c hc => h c (List.mem_of_mem_getLast? hc)⟩

/-- Whatever stands between tight texts is not at an end. -/
theorem append (hc : Tight cs) (hcne : cs ≠ []) (hd : Tight ds) (hdne : ds ≠ []) (mid : List Char) :
    Tight (cs ++ mid ++ ds) where
  first c h := by
    obtain ⟨a, as, rfl⟩ := List.exists_cons_of_ne_nil hcne
    exact hc.first c h
  last c h := by
    rw [List.getLast?_append_of_ne_nil _ hdne] at h
    exact hd.last c h

theorem quoted (cs : List Char) : Tight ('"' :: cs ++ ['"']) where
  first c h := by cases h; decide
  last c h := by
    rw [List.getLast?_append_of_ne_nil _ (by simp)] at h
    cases h
    decide

/-- Trimming takes off exactly the blanks around a tight text. -/
theorem trim_around (h : Tight cs) {front back : List Char} (hf : allBlank front = true)
    (hb : allBlank back = true) : trim (front ++ cs ++ back) = cs := by
  rw [trim, List.append_assoc, trimStart_append hf]
  cases cs with
  | nil =>
    have hnil : trimStart back = [] := List.dropWhile_eq_nil_iff.2 (List.all_eq_true.1 hb)
    rw [List.nil_append, hnil]
    rfl
  | cons c cs =>
    rw [trimStart_of_first (by simpa using h.first c rfl), trimEnd_append hb, trimEnd_of_last h.last]

theorem trim_append (h : Tight cs) {front : List Char} (hf : allBlank front = true) :
    trim (front ++ cs) = cs := by
  have := h.trim_around hf (show allBlank [] = true from rfl)
  rwa [List.append_nil] at this

theorem trim_eq (h : Tight cs) : trim cs = cs := h.trim_append (show allBlank [] = true from rfl)

end Tight

section

variable {α : Type} {p : α → Bool} {as : List α} {a : α}

theorem of_head?_dropWhile (h : (as.dropWhile p).head? = some a) : p a = false := by
  have := List.head?_dropWhile_not p as
  rwa [h] at this

/-- What is dropped at both ends is not left at the front. -/
theorem of_head?_dropWhile_both (h : ((as.dropWhile p).reverse.dropWhile p).reverse.head? = some a) :
    p a = false := by
  have hprefix : ((as.dropWhile p).reverse.dropWhile p).reverse <+: as.dropWhile p := by
    rw [← List.reverse_suffix, List.reverse_reverse]
    exact List.dropWhile_suffix _
  obtain ⟨back, hback⟩ := hprefix
  have hfirst : (as.dropWhile p).head? = some a := by
    rw [← hback, List.head?_append, h]
    rfl
  exact of_head?_dropWhile hfirst

/-- Neither is it left at the back. -/
theorem of_getLast?_dropWhile_both (h : ((as.dropWhile p).reverse.dropWhile p).reverse.getLast? = some a) :
    p a = false := by
  rw [List.getLast?_reverse] at h
  exact of_head?_dropWhile h

end

theorem tight_trim (cs : List Char) : Tight (trim cs) where
  first _ h := of_head?_dropWhile_both h
  last _ h := of_getLast?_dropWhile_both h

/-! ## Runs -/

theorem takeWhile_run {p : Char → Bool} {cs rest : List Char} (hcs : ∀ c ∈ cs, p c = true)
    (hrest : ∀ c, rest.head? = some c → p c = false) : (cs ++ rest).takeWhile p = cs := by
  rw [List.takeWhile_append_of_pos hcs]
  cases rest with
  | nil => simp
  | cons c rest => simp [hrest c rfl]

theorem dropWhile_run {p : Char → Bool} {cs rest : List Char} (hcs : ∀ c ∈ cs, p c = true)
    (hrest : ∀ c, rest.head? = some c → p c = false) : (cs ++ rest).dropWhile p = rest := by
  rw [List.dropWhile_append_of_pos hcs]
  cases rest with
  | nil => rfl
  | cons c rest => simp [hrest c rfl]

/-! ## Parts

What is cut out of a text stands in it in the same order. -/

theorem takeWhile_dropWhile_sublist (p : Char → Bool) (cs : List Char) :
    (cs.takeWhile p ++ cs.dropWhile p).Sublist cs := by
  rw [List.takeWhile_append_dropWhile]

theorem trimStart_suffix (cs : List Char) : trimStart cs <:+ cs := List.dropWhile_suffix _

theorem trimStart_sublist (cs : List Char) : (trimStart cs).Sublist cs := List.dropWhile_sublist _

theorem trimEnd_sublist (cs : List Char) : (trimEnd cs).Sublist cs := by
  have := (List.dropWhile_sublist isBlank (l := cs.reverse)).reverse
  rwa [List.reverse_reverse] at this

theorem trim_sublist (cs : List Char) : (trim cs).Sublist cs := (trimEnd_sublist _).trans (trimStart_sublist cs)

theorem without_sublist (p : Char → Bool) (cs : List Char) : (without p cs).Sublist cs := List.filter_sublist

theorem eq_of_after? {bs cs rest : List Char} (h : after? bs cs = some rest) : cs = bs ++ rest := by
  induction bs generalizing cs with
  | nil => cases h; rfl
  | cons b bs ih =>
    cases cs with
    | nil => cases h
    | cons c cs =>
      rw [after?] at h
      split at h
      · next hc => rw [hc, ih h, List.cons_append]
      · cases h

theorem after?_append (bs cs : List Char) : after? bs (bs ++ cs) = some cs := by
  induction bs with
  | nil => rfl
  | cons b bs ih => rw [List.cons_append, after?, if_pos rfl, ih]

theorem after?_eq_some_iff {bs cs rest : List Char} : after? bs cs = some rest ↔ cs = bs ++ rest :=
  ⟨eq_of_after?, fun h => h ▸ after?_append bs rest⟩

theorem after?_eq_none_iff {bs cs : List Char} : after? bs cs = none ↔ ¬bs <+: cs := by
  rw [Option.eq_none_iff_forall_not_mem]
  constructor
  · rintro h ⟨rest, rfl⟩
    exact h rest (after?_append bs rest)
  · intro h rest hrest
    exact h ⟨rest, (eq_of_after? hrest).symm⟩

theorem after?_sublist {bs cs rest : List Char} (h : after? bs cs = some rest) : rest.Sublist cs := by
  rw [eq_of_after? h]
  exact List.sublist_append_right bs rest

theorem cut?_sublist {sep : Char} {cs before rest : List Char} (h : cut? sep cs = some (before, rest)) :
    (before ++ rest).Sublist cs := by
  induction cs generalizing before with
  | nil => cases h
  | cons c cs ih =>
    rw [cut?] at h
    split at h
    · cases h
      exact .cons c (.refl _)
    · obtain ⟨⟨b, r⟩, hb, e⟩ := Option.map_eq_some_iff.1 h
      cases e
      exact (ih hb).cons_cons c

theorem not_mem_of_cut? {sep : Char} {cs before rest : List Char} (h : cut? sep cs = some (before, rest)) :
    sep ∉ before := by
  induction cs generalizing before with
  | nil => cases h
  | cons c cs ih =>
    rw [cut?] at h
    split at h
    · cases h
      exact List.not_mem_nil
    · next hc =>
      obtain ⟨⟨b, r⟩, hb, e⟩ := Option.map_eq_some_iff.1 h
      cases e
      rw [List.mem_cons, not_or]
      exact ⟨Ne.symm hc, ih hb⟩

theorem flatten_pieces_sublist (sep : Char) (cs : List Char) : (pieces sep cs).flatten.Sublist cs := by
  rw [flatten_pieces]
  exact List.filter_sublist

theorem count_joined {sep c : Char} (h : c ≠ sep) : ∀ ps : List (List Char),
    (joined sep ps).count c = ps.flatten.count c
  | [] => rfl
  | [p] => by rw [joined, List.flatten_singleton]
  | p :: q :: ps => by
    rw [joined, List.count_append, List.count_cons_of_ne (Ne.symm h), count_joined h (q :: ps),
      ← List.count_append, ← List.flatten_cons]

end DefTree.Text
