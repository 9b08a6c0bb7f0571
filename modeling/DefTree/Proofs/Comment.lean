/-
Facts about the removal of comments.

A text without the openings of comments stays as it is, a line comment does
not reach beyond its line, and a block comment goes up to its closing mark,
line feeds and all.
-/
import DefTree.Comment
import Mathlib.Data.List.Infix

namespace DefTree.Comment

/-- Two characters stand next to each other somewhere in a text. -/
def HasPair (x y : Char) (cs : List Char) : Prop := [x, y] <:+: cs

instance (x y : Char) (cs : List Char) : Decidable (HasPair x y cs) :=
  inferInstanceAs (Decidable ([x, y] <:+: cs))

theorem not_hasPair_nil {x y : Char} : ¬HasPair x y [] := by
  simp [HasPair]

theorem hasPair_cons_iff {x y c : Char} {cs : List Char} :
    HasPair x y (c :: cs) ↔ (c = x ∧ cs.head? = some y) ∨ HasPair x y cs := by
  unfold HasPair
  rw [List.infix_cons_iff, List.cons_prefix_cons]
  cases cs with
  | nil => simp
  | cons d ds =>
    rw [List.cons_prefix_cons, List.head?_cons, Option.some.injEq, @eq_comm _ x c, @eq_comm _ y d]
    simp

theorem HasPair.of_append {x y : Char} {cs ds : List Char} (h : HasPair x y (cs ++ ds)) :
    HasPair x y cs ∨ HasPair x y ds ∨ (cs.getLast? = some x ∧ ds.head? = some y) := by
  induction cs with
  | nil => exact .inr (.inl h)
  | cons c cs ih =>
    rw [List.cons_append, hasPair_cons_iff] at h
    rcases h with ⟨rfl, h⟩ | h
    · cases cs with
      | nil => exact .inr (.inr ⟨rfl, h⟩)
      | cons d cs => exact .inl (hasPair_cons_iff.2 (.inl ⟨rfl, h⟩))
    · rcases ih h with h | h | ⟨h, h'⟩
      · exact .inl (hasPair_cons_iff.2 (.inr h))
      · exact .inr (.inl h)
      · refine .inr (.inr ⟨?_, h'⟩)
        cases cs with
        | nil => cases h
        | cons d cs => rw [List.getLast?_cons_cons, h]

/-- A text that opens no comment, neither of a line nor of a block. -/
structure Free (cs : List Char) : Prop where
  line : ¬HasPair '/' '/' cs
  block : ¬HasPair '/' '*' cs

/-! ## Line comments -/

theorem eraseLine_cons {c : Char} {cs : List Char} (h : ¬(c = '/' ∧ cs.head? = some '/')) :
    eraseLine (c :: cs) = c :: eraseLine cs := by
  rw [eraseLine]
  rintro cs' rfl rfl
  exact h ⟨rfl, rfl⟩

theorem eraseLine_of_not_hasPair {cs : List Char} (h : ¬HasPair '/' '/' cs) : eraseLine cs = cs := by
  induction cs with
  | nil => rw [eraseLine]
  | cons c cs ih =>
    rw [hasPair_cons_iff, not_or] at h
    rw [eraseLine_cons h.1, ih h.2]

theorem dropWhile_append_newline (cs ds : List Char) :
    (cs ++ '\n' :: ds).dropWhile (· != '\n') = cs.dropWhile (· != '\n') ++ '\n' :: ds := by
  induction cs with
  | nil => simp
  | cons c cs ih =>
    by_cases hc : c = '\n'
    · simp [hc]
    · simpa [List.dropWhile_cons, hc] using ih

/-- Line comments end with their line. -/
theorem eraseLine_append (cs ds : List Char) :
    eraseLine (cs ++ '\n' :: ds) = eraseLine cs ++ '\n' :: eraseLine ds := by
  fun_induction eraseLine cs with
  | case1 => exact eraseLine_cons (by simp)
  | case2 cs ih =>
    rw [List.cons_append, List.cons_append, eraseLine, dropWhile_append_newline, ih]
  | case3 c cs hc ih =>
    rw [List.cons_append, eraseLine_cons, ih, List.cons_append]
    rintro ⟨rfl, h⟩
    cases cs with
    | nil => simp at h
    | cons d cs => simp only [List.cons_append, List.head?_cons, Option.some.injEq] at h
                   exact hc cs rfl (by rw [h])

/-! ## Block comments -/

theorem eraseBlock_cons {c : Char} {cs : List Char} (h : ¬(c = '/' ∧ cs.head? = some '*')) :
    eraseBlock (c :: cs) = c :: eraseBlock cs := by
  rw [eraseBlock]
  rintro cs' rfl rfl
  exact h ⟨rfl, rfl⟩

theorem eraseBlock_of_not_hasPair {cs : List Char} (h : ¬HasPair '/' '*' cs) : eraseBlock cs = cs := by
  induction cs with
  | nil => rw [eraseBlock]
  | cons c cs ih =>
    rw [hasPair_cons_iff, not_or] at h
    rw [eraseBlock_cons h.1, ih h.2]

theorem eraseBlock_append {cs : List Char} (h : ¬HasPair '/' '*' cs) (ds : List Char) :
    eraseBlock (cs ++ '\n' :: ds) = cs ++ '\n' :: eraseBlock ds := by
  induction cs with
  | nil => exact eraseBlock_cons (by simp)
  | cons c cs ih =>
    rw [hasPair_cons_iff, not_or] at h
    rw [List.cons_append, eraseBlock_cons, ih h.2, List.cons_append]
    rintro ⟨rfl, hd⟩
    cases cs with
    | nil => simp at hd
    | cons d cs => exact h.1 ⟨rfl, hd⟩

/-- The first closing mark ends a comment, also after another star. -/
theorem afterClose?_append {cs : List Char} (h : ¬HasPair '*' '/' cs) (ds : List Char) :
    afterClose? (cs ++ '*' :: '/' :: ds) = some ds := by
  induction cs with
  | nil => rw [List.nil_append, afterClose?]
  | cons c cs ih =>
    rw [hasPair_cons_iff, not_or] at h
    rw [List.cons_append, afterClose?, ih h.2]
    rintro ds' rfl hd
    cases cs with
    | nil => simp at hd
    | cons d cs =>
      simp only [List.cons_append, List.cons.injEq] at hd
      exact h.1 ⟨rfl, by rw [hd.1]; rfl⟩

theorem eraseBlock_closed {cs : List Char} (h : ¬HasPair '*' '/' cs) (ds : List Char) :
    eraseBlock ('/' :: '*' :: (cs ++ '*' :: '/' :: ds)) = eraseBlock ds := by
  rw [eraseBlock]
  split
  · next rest e =>
    rw [afterClose?_append h] at e
    cases e
    rfl
  · next e => rw [afterClose?_append h] at e; cases e

/-! ## Both kinds -/

theorem erase_of_free {cs : List Char} (h : Free cs) : erase cs = cs := by
  rw [erase, eraseLine_of_not_hasPair h.line, eraseBlock_of_not_hasPair h.block]

/-- A closed block comment between two free texts, on lines of its own, leaves an empty line. -/
theorem erase_around {before comment after : List Char} (hb : Free before)
    (hl : ¬HasPair '/' '/' comment) (hc : ¬HasPair '*' '/' comment) (ha : Free after) :
    erase (before ++ '\n' :: ('/' :: '*' :: (comment ++ ['*', '/'])) ++ '\n' :: after) =
      before ++ '\n' :: '\n' :: after := by
  have hpair : ¬HasPair '/' '/' ('/' :: '*' :: (comment ++ ['*', '/'])) := by
    intro h
    simp only [hasPair_cons_iff, List.head?_cons, Option.some.injEq, Char.reduceEq, and_false,
      false_and, false_or] at h
    rcases h.of_append with h | h | ⟨-, h⟩
    · exact hl h
    · simp [hasPair_cons_iff, not_hasPair_nil] at h
    · simp at h
  have hline : eraseLine (before ++ '\n' :: ('/' :: '*' :: (comment ++ ['*', '/'])) ++ '\n' :: after) =
      before ++ '\n' :: ('/' :: '*' :: (comment ++ '*' :: '/' :: ('\n' :: after))) := by
    rw [eraseLine_append, eraseLine_append, eraseLine_of_not_hasPair hb.line,
      eraseLine_of_not_hasPair hpair, eraseLine_of_not_hasPair ha.line]
    simp
  rw [erase, hline, eraseBlock_append hb.block, eraseBlock_closed hc,
    eraseBlock_cons (by simp), eraseBlock_of_not_hasPair ha.block]

/-! ## What removal costs -/

theorem afterClose?_sublist {cs rest : List Char} (h : afterClose? cs = some rest) : rest.Sublist cs := by
  fun_induction afterClose? cs with
  | case1 => cases h
  | case2 cs => cases h; exact ((List.Sublist.refl _).cons '/').cons '*'
  | case3 c cs _ ih => exact (ih h).cons c

theorem eraseLine_eq_or_lt (cs : List Char) :
    eraseLine cs = cs ∨ (eraseLine cs).count '/' < cs.count '/' := by
  fun_induction eraseLine cs with
  | case1 => exact .inl rfl
  | case2 cs ih =>
    have hdrop := (List.dropWhile_sublist (· != '\n') (l := cs)).count_le '/'
    have hle : (eraseLine (cs.dropWhile (· != '\n'))).count '/' ≤ (cs.dropWhile (· != '\n')).count '/' := by
      rcases ih with ih | ih
      · rw [ih]
      · exact Nat.le_of_lt ih
    rw [List.count_cons_self, List.count_cons_self]
    exact .inr (by omega)
  | case3 c cs _ ih =>
    rcases ih with ih | ih
    · exact .inl (by rw [ih])
    · rw [List.count_cons, List.count_cons]
      exact .inr (by omega)

theorem eraseBlock_eq_or_lt (cs : List Char) :
    eraseBlock cs = cs ∨ (eraseBlock cs).count '/' < cs.count '/' := by
  fun_induction eraseBlock cs with
  | case1 => exact .inl rfl
  | case2 cs rest h ih =>
    have hrest := (afterClose?_sublist h).count_le '/'
    have hle : (eraseBlock rest).count '/' ≤ rest.count '/' := by
      rcases ih with ih | ih
      · rw [ih]
      · exact Nat.le_of_lt ih
    rw [List.count_cons_self, List.count_cons_of_ne (by decide)]
    exact .inr (by omega)
  | case3 cs _ => exact .inl rfl
  | case4 c cs _ ih =>
    rcases ih with ih | ih
    · exact .inl (by rw [ih])
    · rw [List.count_cons, List.count_cons]
      exact .inr (by omega)

/-- **Removal leaves a text as it is or takes a slash out of it**: every comment begins with one. -/
theorem erase_eq_or_lt (cs : List Char) : erase cs = cs ∨ (erase cs).count '/' < cs.count '/' := by
  rw [erase]
  rcases eraseLine_eq_or_lt cs with hl | hl
  · rw [hl]
    exact eraseBlock_eq_or_lt cs
  · rcases eraseBlock_eq_or_lt (eraseLine cs) with hb | hb
    · rw [hb]
      exact .inr hl
    · exact .inr (hb.trans hl)

end DefTree.Comment
