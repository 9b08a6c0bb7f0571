/-
Removing comments once is enough.

Line comments go first, and block comments are cut out of what is left: the
characters on both sides of a cut come together, also from different lines,
and might open a comment of their own. They do not, because no two slashes
stand side by side any more: so no slash stands right before a block
comment, and none right behind one. What is left is bare
(`Comment.Bare`), and a bare text loses nothing.
-/
import DefTree.Proofs.Comment
import DefTree.Proofs.Library

namespace DefTree

namespace Comment

/-- A block comment with its closing mark stands somewhere in a text. -/
def HasBlock (cs : List Char) : Prop :=
  ∃ front inner back, cs = front ++ '/' :: '*' :: (inner ++ '*' :: '/' :: back)

/-- A text in which nothing is a comment: a block comment may be opened, but not closed. -/
structure Bare (cs : List Char) : Prop where
  line : ¬HasPair '/' '/' cs
  block : ¬HasBlock cs

/-! ## Closed block comments -/

theorem afterClose?_eq_none_iff {cs : List Char} : afterClose? cs = none ↔ ¬HasPair '*' '/' cs := by
  fun_induction afterClose? cs with
  | case1 => simp [not_hasPair_nil]
  | case2 cs => simp [hasPair_cons_iff]
  | case3 c cs hc ih =>
    rw [hasPair_cons_iff, ih, not_or]
    refine ⟨fun h => ⟨?_, h⟩, fun h => h.2⟩
    rintro ⟨rfl, hd⟩
    cases cs with
    | nil => cases hd
    | cons d cs =>
      obtain rfl : d = '/' := by simpa using hd
      exact hc cs rfl rfl

theorem exists_of_afterClose? {cs rest : List Char} (h : afterClose? cs = some rest) :
    ∃ inner, cs = inner ++ '*' :: '/' :: rest := by
  fun_induction afterClose? cs with
  | case1 => cases h
  | case2 cs => cases h; exact ⟨[], rfl⟩
  | case3 c cs _ ih =>
    obtain ⟨inner, rfl⟩ := ih h
    exact ⟨c :: inner, rfl⟩

theorem not_hasBlock_nil : ¬HasBlock [] := by
  rintro ⟨front, inner, back, h⟩
  cases front <;> cases h

/-- A closed block comment begins a text, or it stands in what follows the first character. -/
theorem HasBlock.of_cons {c : Char} {cs : List Char} (h : HasBlock (c :: cs)) :
    (c = '/' ∧ ∃ ds, cs = '*' :: ds ∧ HasPair '*' '/' ds) ∨ HasBlock cs := by
  obtain ⟨front, inner, back, h⟩ := h
  cases front with
  | nil =>
    obtain ⟨rfl, rfl⟩ := List.cons.inj h
    exact .inl ⟨rfl, _, rfl, inner, back, by simp⟩
  | cons d front =>
    obtain ⟨-, rfl⟩ := List.cons.inj h
    exact .inr ⟨front, inner, back, rfl⟩

theorem HasBlock.cons {cs : List Char} (h : HasBlock cs) (c : Char) : HasBlock (c :: cs) := by
  obtain ⟨front, inner, back, rfl⟩ := h
  exact ⟨c :: front, inner, back, rfl⟩

theorem HasBlock.hasPair {cs : List Char} (h : HasBlock cs) : HasPair '*' '/' cs := by
  obtain ⟨front, inner, back, rfl⟩ := h
  exact ⟨front ++ '/' :: '*' :: inner, back, by simp⟩

theorem hasBlock_of_afterClose? {cs rest : List Char} (h : afterClose? cs = some rest) :
    HasBlock ('/' :: '*' :: cs) := by
  obtain ⟨inner, rfl⟩ := exists_of_afterClose? h
  exact ⟨[], inner, rest, rfl⟩

/-! ## Bare texts -/

theorem eraseBlock_of_not_hasBlock {cs : List Char} (h : ¬HasBlock cs) : eraseBlock cs = cs := by
  fun_induction eraseBlock cs with
  | case1 => rfl
  | case2 cs rest hrest => exact absurd (hasBlock_of_afterClose? hrest) h
  | case3 cs _ => rfl
  | case4 c cs _ ih => rw [ih fun hcs => h (hcs.cons c)]

theorem Free.bare {cs : List Char} (h : Free cs) : Bare cs where
  line := h.line
  block := by
    rintro ⟨front, inner, back, rfl⟩
    exact h.block ⟨front, inner ++ '*' :: '/' :: back, by simp⟩

theorem Bare.erase_eq {cs : List Char} (h : Bare cs) : erase cs = cs := by
  rw [erase, eraseLine_of_not_hasPair h.line, eraseBlock_of_not_hasBlock h.block]

/-! ## What is left -/

theorem head?_eraseLine {cs : List Char} (h : cs.head? ≠ some '/') : (eraseLine cs).head? = cs.head? := by
  cases cs with
  | nil => rw [eraseLine]
  | cons c cs => rw [eraseLine_cons fun hc => h (congrArg some hc.1), List.head?_cons, List.head?_cons]

theorem head?_eraseBlock {cs : List Char} (h : cs.head? ≠ some '/') : (eraseBlock cs).head? = cs.head? := by
  cases cs with
  | nil => rw [eraseBlock]
  | cons c cs => rw [eraseBlock_cons fun hc => h (congrArg some hc.1), List.head?_cons, List.head?_cons]

/-- Behind a slash that opens no line comment stands no slash. -/
theorem head?_ne_slash {cs : List Char} (h : ¬HasPair '/' '/' ('/' :: cs)) : cs.head? ≠ some '/' :=
  fun hd => h (hasPair_cons_iff.2 (.inl ⟨rfl, hd⟩))

/-- No line comment is left, and none comes about. -/
theorem not_hasPair_eraseLine (cs : List Char) : ¬HasPair '/' '/' (eraseLine cs) := by
  fun_induction eraseLine cs with
  | case1 => exact not_hasPair_nil
  | case2 cs ih => exact ih
  | case3 c cs hc ih =>
    rw [hasPair_cons_iff, not_or]
    refine ⟨?_, ih⟩
    rintro ⟨rfl, hd⟩
    have hcs : cs.head? ≠ some '/' := by
      cases cs with
      | nil => simp
      | cons d cs =>
        intro h
        obtain rfl : d = '/' := by simpa using h
        exact hc cs rfl rfl
    rw [head?_eraseLine hcs] at hd
    exact hcs hd

theorem not_hasPair_of_afterClose? {cs rest : List Char} (h : afterClose? cs = some rest)
    (hcs : ¬HasPair '/' '/' ('/' :: '*' :: cs)) : ¬HasPair '/' '/' rest := by
  obtain ⟨inner, rfl⟩ := exists_of_afterClose? h
  rintro ⟨front, back, rfl⟩
  exact hcs ⟨'/' :: '*' :: (inner ++ '*' :: '/' :: front), back, by simp⟩

/-- **What is left when the block comments are cut out is bare**, if no line comment was there before. -/
theorem bare_eraseBlock {cs : List Char} (h : ¬HasPair '/' '/' cs) : Bare (eraseBlock cs) := by
  fun_induction eraseBlock cs with
  | case1 => exact ⟨not_hasPair_nil, not_hasBlock_nil⟩
  | case2 cs rest hrest ih => exact ih (not_hasPair_of_afterClose? hrest h)
  | case3 cs hnone =>
    -- a block comment that is never closed: no closing mark follows it
    refine ⟨h, fun hblock => ?_⟩
    have hpair : HasPair '*' '/' cs := by
      rcases hblock.of_cons with ⟨-, ds, he, hds⟩ | hblock
      · cases he
        exact hds
      · rcases hblock.of_cons with ⟨hc, -⟩ | hblock
        · cases hc
        · exact hblock.hasPair
    exact afterClose?_eq_none_iff.1 hnone hpair
  | case4 c cs hc ih =>
    obtain ⟨hline, hblock⟩ := ih fun hcs => h (hasPair_cons_iff.2 (.inr hcs))
    -- a slash that stays keeps the character behind it
    have hnext : c = '/' → (eraseBlock cs).head? = cs.head? := by
      rintro rfl
      exact head?_eraseBlock (head?_ne_slash h)
    constructor
    · rw [hasPair_cons_iff, not_or]
      refine ⟨?_, hline⟩
      rintro ⟨rfl, hd⟩
      rw [hnext rfl] at hd
      exact head?_ne_slash h hd
    · intro hcons
      rcases hcons.of_cons with ⟨rfl, ds, he, -⟩ | hcons
      · have hd := hnext rfl
        rw [he, List.head?_cons] at hd
        cases cs with
        | nil => cases hd
        | cons d cs =>
          obtain rfl : '*' = d := by simpa using hd
          exact hc cs rfl rfl
      · exact hblock hcons

/-- **No comment is left in a text when its comments are removed.** -/
theorem bare_erase (cs : List Char) : Bare (erase cs) := bare_eraseBlock (not_hasPair_eraseLine cs)

/-- Exactly the bare texts stay as they are. -/
theorem erase_eq_iff {cs : List Char} : erase cs = cs ↔ Bare cs :=
  ⟨fun h => h ▸ bare_erase cs, Bare.erase_eq⟩

/-! ## Parts -/

theorem eraseLine_sublist (cs : List Char) : (eraseLine cs).Sublist cs := by
  fun_induction eraseLine cs with
  | case1 => exact .refl _
  | case2 cs ih => exact ((ih.trans (List.dropWhile_sublist _)).cons '/').cons '/'
  | case3 c cs _ ih => exact ih.cons_cons c

theorem eraseBlock_sublist (cs : List Char) : (eraseBlock cs).Sublist cs := by
  fun_induction eraseBlock cs with
  | case1 => exact .refl _
  | case2 cs rest h ih => exact ((ih.trans (afterClose?_sublist h)).cons '*').cons '/'
  | case3 cs _ => exact .refl _
  | case4 c cs _ ih => exact ih.cons_cons c

theorem erase_sublist (cs : List Char) : (erase cs).Sublist cs :=
  (eraseBlock_sublist (eraseLine cs)).trans (eraseLine_sublist cs)

end Comment

/-! ## Reading -/

theorem parse_congr_text {a b : String} (h : sourceLines a = sourceLines b) (expand : Bool) (loader : Loader)
    (source : Option String) : parse expand loader a source = parse expand loader b source := by
  rw [parse_eq, parse_eq, buildText, buildText, h]

theorem Library.reads_congr_text {a b : String} (h : sourceLines a = sourceLines b) {library : Library}
    {expand : Bool} {source : Option String} {run : Run Node} :
    library.Reads expand a source run ↔ library.Reads expand b source run := by
  unfold Library.Reads
  simp only [parse_congr_text h]

/-- **One removal of comments is enough.** What is left of a text has no line comment and no closed block
comment in it; removing comments once more changes nothing, and the text that is left is read as the text
itself is: to the same tree or the same fault, over the same events. It is the text with characters taken out,
and the whole text exactly if nothing in it is a comment. -/
theorem erase_once (text : String) :
    let left := String.ofList (Comment.erase text.toList)
    (¬Comment.HasPair '/' '/' left.toList ∧ ¬Comment.HasBlock left.toList) ∧
    Comment.erase left.toList = left.toList ∧
    (∀ (library : Library) (expand : Bool) (source : Option String) (run : Run Node),
      library.Reads expand left source run ↔ library.Reads expand text source run) ∧
    left.toList.Sublist text.toList ∧
    (left = text ↔ ¬Comment.HasPair '/' '/' text.toList ∧ ¬Comment.HasBlock text.toList) := by
  intro left
  have hleft : left.toList = Comment.erase text.toList := String.toList_ofList
  have hbare := Comment.bare_erase text.toList
  have hlines : sourceLines left = sourceLines text := by
    rw [sourceLines, hleft, hbare.erase_eq, sourceLines]
  refine ⟨?_, ?_, fun library expand source run => Library.reads_congr_text hlines, ?_, ?_⟩
  · rw [hleft]
    exact ⟨hbare.line, hbare.block⟩
  · rw [hleft, hbare.erase_eq]
  · rw [hleft]
    exact Comment.erase_sublist text.toList
  · rw [← String.toList_inj, hleft, Comment.erase_eq_iff]
    exact ⟨fun h => ⟨h.line, h.block⟩, fun h => ⟨h.1, h.2⟩⟩

/-- Marks that share a character, and a comment that is never closed. -/
example : Comment.erase "/*/ a */*/ b /* c".toList = "*/ b /* c".toList := by decide +kernel

end DefTree
