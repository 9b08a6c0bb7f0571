/-
Facts about the brace scan and the blocks it finds.

A text is neutral if a scan that begins right after an opening brace goes
through it without closing that brace and is back in its first state at the
end. Neutral texts can be put side by side and wrapped in braces, and a
neutral run of lines before a closing line is exactly a block: that is how
a printed subtree stays whole in the scans of all sections around it.
-/
import DefTree.Block

namespace DefTree

namespace Block

variable {s : Scan} {ls body rest : List (List Char)}

theorem eq_of_split? (h : split? s ls = some (body, rest)) : ∃ close, ls = body ++ close :: rest := by
  induction ls generalizing s body with
  | nil => simp [split?] at h
  | cons l ls ih =>
    simp only [split?] at h
    split at h
    · simp only [Option.some.injEq, Prod.mk.injEq] at h
      obtain ⟨rfl, rfl⟩ := h
      exact ⟨l, rfl⟩
    · obtain ⟨⟨b, r⟩, hb, e⟩ := Option.map_eq_some_iff.1 h
      simp only [Prod.mk.injEq] at e
      obtain ⟨rfl, rfl⟩ := e
      obtain ⟨close, rfl⟩ := ih hb
      exact ⟨close, rfl⟩

theorem mem_of_mem_body (h : split? s ls = some (body, rest)) {l : List Char} (hl : l ∈ body) : l ∈ ls := by
  obtain ⟨close, rfl⟩ := eq_of_split? h
  exact List.mem_append_left _ hl

theorem mem_of_mem_rest (h : split? s ls = some (body, rest)) {l : List Char} (hl : l ∈ rest) : l ∈ ls := by
  obtain ⟨close, rfl⟩ := eq_of_split? h
  exact List.mem_append_right _ (List.mem_cons_of_mem _ hl)

theorem split?_append (h : split? s ls = some (body, rest)) (more : List (List Char)) :
    split? s (ls ++ more) = some (body, rest ++ more) := by
  induction ls generalizing s body with
  | nil => simp [split?] at h
  | cons l ls ih =>
    simp only [List.cons_append, split?] at h ⊢
    split at h
    · next h0 =>
      simp only [Option.some.injEq, Prod.mk.injEq] at h
      obtain ⟨rfl, rfl⟩ := h
      rw [if_pos h0]
    · next h0 =>
      obtain ⟨⟨b, r⟩, hb, e⟩ := Option.map_eq_some_iff.1 h
      simp only [Prod.mk.injEq] at e
      obtain ⟨rfl, rfl⟩ := e
      rw [if_neg h0, ih hb]
      rfl

end Block

namespace Scan

/-- The scan after a whole text. -/
def after (s : Scan) (cs : List Char) : Scan := cs.foldl feed s

/-- The scan goes through a text without the last open brace being closed. -/
def Passes (s : Scan) (cs : List Char) : Prop := ∀ t ∈ s.trail cs, t.depth ≠ 0

instance (s : Scan) (cs : List Char) : Decidable (s.Passes cs) :=
  List.decidableBAll (fun t : Scan => t.depth ≠ 0) (s.trail cs)

@[simp] theorem after_nil (s : Scan) : s.after [] = s := rfl

@[simp] theorem after_cons (s : Scan) (c : Char) (cs : List Char) :
    s.after (c :: cs) = (s.feed c).after cs := rfl

@[simp] theorem after_append (s : Scan) (cs ds : List Char) :
    s.after (cs ++ ds) = (s.after cs).after ds := List.foldl_append

@[simp] theorem passes_nil (s : Scan) : s.Passes [] := by simp [Passes, trail]

@[simp] theorem passes_cons {s : Scan} {c : Char} {cs : List Char} :
    s.Passes (c :: cs) ↔ (s.feed c).depth ≠ 0 ∧ (s.feed c).Passes cs := by
  simp [Passes, trail]

@[simp] theorem passes_append {s : Scan} {cs ds : List Char} :
    s.Passes (cs ++ ds) ↔ s.Passes cs ∧ (s.after cs).Passes ds := by
  induction cs generalizing s with
  | nil => simp
  | cons c cs ih => simp [ih, and_assoc]

theorem feedLine_append {s : Scan} {l : List Char} (h : s.Passes l) (more : List Char) :
    s.feedLine (l ++ more) = (s.after l).feedLine more := by
  induction l generalizing s with
  | nil => rfl
  | cons c cs ih =>
    obtain ⟨hc, hcs⟩ := passes_cons.1 h
    simp only [List.cons_append, feedLine, hc, if_false, after_cons]
    exact ih hcs

theorem feedLine_of_passes {s : Scan} {l : List Char} (h : s.Passes l) : s.feedLine l = s.after l := by
  have := feedLine_append h []
  rwa [List.append_nil] at this

theorem depth_after_ne {s : Scan} {l : List Char} (hs : s.depth ≠ 0) (h : s.Passes l) :
    (s.after l).depth ≠ 0 := by
  induction l generalizing s with
  | nil => exact hs
  | cons c cs ih =>
    obtain ⟨hc, hcs⟩ := passes_cons.1 h
    exact ih hc hcs

/-! ## Scans at other depths -/

/-- The same scan with more braces open. -/
def raise (s : Scan) (k : Nat) : Scan := { s with depth := s.depth + k }

theorem feed_raise (s : Scan) (k : Nat) (c : Char) : (s.raise k).feed c = (s.feed c).raise k := by
  unfold feed raise
  simp only
  split
  · rfl
  split
  · rfl
  split
  · rfl
  split
  · rfl
  split
  · simp only [Scan.mk.injEq, and_true]; omega
  split
  · simp only [Scan.mk.injEq, and_true]; omega
  · rfl

theorem after_raise (s : Scan) (k : Nat) (cs : List Char) : (s.raise k).after cs = (s.after cs).raise k := by
  induction cs generalizing s with
  | nil => rfl
  | cons c cs ih => rw [after_cons, after_cons, feed_raise, ih]

theorem depth_feed_ge (s : Scan) (c : Char) : s.depth - 1 ≤ (s.feed c).depth := by
  unfold feed
  repeat' split
  all_goals first | omega | (simp only; omega)

/-- More open braces around a text that closes none of them change nothing. -/
theorem Passes.raise {s : Scan} {cs : List Char} (hs : 0 < s.depth) (h : s.Passes cs) (k : Nat) :
    (s.raise k).Passes cs := by
  induction cs generalizing s with
  | nil => exact passes_nil _
  | cons c cs ih =>
    obtain ⟨hc, hcs⟩ := passes_cons.1 h
    have hpos : 0 < (s.feed c).depth := by
      have := depth_feed_ge s c
      omega
    rw [passes_cons, feed_raise]
    refine ⟨?_, ih hpos hcs⟩
    simp only [Scan.raise]
    omega

/-! ## Neutral texts -/

/-- A text that a scan right after an opening brace goes through, ending as it began. -/
structure Neutral (cs : List Char) : Prop where
  passes : ({} : Scan).Passes cs
  returns : ({} : Scan).after cs = {}

namespace Neutral

variable {cs ds : List Char}

theorem nil : Neutral [] := ⟨passes_nil _, rfl⟩

theorem append (h₁ : Neutral cs) (h₂ : Neutral ds) : Neutral (cs ++ ds) where
  passes := by
    rw [passes_append, h₁.returns]
    exact ⟨h₁.passes, h₂.passes⟩
  returns := by rw [after_append, h₁.returns, h₂.returns]

theorem raise_after (h : Neutral cs) (k : Nat) : (({} : Scan).raise k).after cs = ({} : Scan).raise k := by
  rw [after_raise, h.returns]

theorem braces (h : Neutral cs) : Neutral ('{' :: cs ++ ['}']) where
  passes := by
    have hopen : ({} : Scan).feed '{' = ({} : Scan).raise 1 := by decide
    rw [List.cons_append, passes_cons, hopen, passes_append, h.raise_after]
    refine ⟨by decide, h.passes.raise (by decide) 1, ?_⟩
    rw [passes_cons]
    exact ⟨by decide, passes_nil _⟩
  returns := by
    have hopen : ({} : Scan).feed '{' = ({} : Scan).raise 1 := by decide
    rw [List.cons_append, after_cons, hopen, after_append, h.raise_after]
    decide

end Neutral

/-- A character that means nothing to the scan. -/
def isInert (c : Char) : Bool := c != '\\' && c != '"' && c != '{' && c != '}'

theorem feed_inert {s : Scan} {c : Char} (hs : s.escaped = false) (hc : isInert c = true) : s.feed c = s := by
  simp only [isInert, Bool.and_eq_true, bne_iff_ne, ne_eq] at hc
  obtain ⟨⟨⟨h1, h2⟩, h3⟩, h4⟩ := hc
  simp [feed, hs, h1, h2, h3, h4]

theorem Neutral.inert {cs : List Char} (h : ∀ c ∈ cs, isInert c = true) : Neutral cs := by
  induction cs with
  | nil => exact .nil
  | cons c cs ih =>
    have hc : ({} : Scan).feed c = {} := feed_inert rfl (h c List.mem_cons_self)
    obtain ⟨hp, ha⟩ := ih fun d hd => h d (List.mem_cons_of_mem _ hd)
    refine ⟨?_, by rw [after_cons, hc, ha]⟩
    rw [passes_cons, hc]
    exact ⟨by decide, hp⟩

theorem Neutral.of_all {cs : List Char} (h : cs.all isInert = true) : Neutral cs :=
  .inert (List.all_eq_true.1 h)

theorem feed_quoted {s : Scan} {c : Char} (hq : s.quoted = true) (hs : s.escaped = false)
    (h1 : c ≠ '"') (h2 : c ≠ '\\') : s.feed c = s := by
  simp [feed, hq, hs, h1, h2]

/-- Within quotes only a quote or a backslash means something. -/
theorem Neutral.quoted {cs : List Char} (h : ∀ c ∈ cs, c ≠ '"' ∧ c ≠ '\\') :
    Neutral ('"' :: cs ++ ['"']) := by
  have key : ∀ ds : List Char, (∀ c ∈ ds, c ≠ '"' ∧ c ≠ '\\') →
      ({ quoted := true } : Scan).Passes (ds ++ ['"']) ∧
        ({ quoted := true } : Scan).after (ds ++ ['"']) = {} := by
    intro ds
    induction ds with
    | nil => intro _; exact ⟨by simp [feed], rfl⟩
    | cons c ds ih =>
      intro hds
      obtain ⟨h1, h2⟩ := hds c List.mem_cons_self
      have hc : ({ quoted := true } : Scan).feed c = { quoted := true } := feed_quoted rfl rfl h1 h2
      obtain ⟨hp, ha⟩ := ih fun d hd => hds d (List.mem_cons_of_mem _ hd)
      rw [List.cons_append, passes_cons, after_cons, hc]
      exact ⟨⟨by decide, hp⟩, ha⟩
  have hopen : ({} : Scan).feed '"' = { quoted := true } := by decide
  obtain ⟨hp, ha⟩ := key cs h
  refine ⟨?_, ?_⟩
  · rw [List.cons_append, passes_cons, hopen]
    exact ⟨by decide, hp⟩
  · rw [List.cons_append, after_cons, hopen, ha]

end Scan

namespace Block

/-- A neutral run of lines goes into the block as it is. -/
theorem split?_of_passes {s : Scan} {ls : List (List Char)} (hs : s.depth ≠ 0) (h : s.Passes ls.flatten)
    (more : List (List Char)) :
    split? s (ls ++ more) = (split? (s.after ls.flatten) more).map fun (body, rest) => (ls ++ body, rest) := by
  induction ls generalizing s with
  | nil => simp
  | cons l ls ih =>
    rw [List.flatten_cons, Scan.passes_append] at h
    obtain ⟨hl, hls⟩ := h
    have hd := Scan.depth_after_ne hs hl
    rw [List.cons_append, split?, Scan.feedLine_of_passes hl, if_neg hd, ih hd hls,
      List.flatten_cons, Scan.after_append, Option.map_map]
    rfl

theorem split?_of_neutral {ls : List (List Char)} {close : List Char} (h : Scan.Neutral ls.flatten)
    (hclose : (({} : Scan).feedLine close).depth = 0) (rest : List (List Char)) :
    split? {} (ls ++ close :: rest) = some (ls, rest) := by
  rw [split?_of_passes (by decide) h.passes, h.returns, split?, if_pos hclose]
  simp

end Block

end DefTree
