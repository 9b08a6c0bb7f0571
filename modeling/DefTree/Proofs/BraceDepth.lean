/-
How deep in braces a text is, told without a scan.

A character is escaped behind an odd run of backslashes, and quoted behind
an odd number of double quotes that are not escaped; the depth at an index
is one more than the braces opened before it, less those closed, where
escaped and quoted ones do not count (`Text.depth`). The scan comes to the
same three answers at every index (`Scan.after_take`), so a block ends on
the line with the character at which the depth first is zero, and is not
closed if there is none.
-/
import DefTree.Block.Extract
import DefTree.Proofs.BlockStructure
import Mathlib.Data.List.Flatten
import Mathlib.Data.Nat.Find

namespace DefTree

namespace Text

/-! ## Marks that count -/

/-- Whether the character at an index is escaped: the run of backslashes right before it is odd. -/
def isEscaped (cs : List Char) (i : Nat) : Bool := backslashes (cs.take i) % 2 == 1

/-- Whether a character stands at an index and is not escaped. -/
def hasMark (cs : List Char) (c : Char) (i : Nat) : Bool := cs[i]? == some c && !isEscaped cs i

/-- Whether the character at an index is quoted: an odd number of double quotes come before it, escaped ones
left out. -/
def isQuoted (cs : List Char) (i : Nat) : Bool := (List.range i).countP (hasMark cs '"') % 2 == 1

/-- How often a brace comes among the first characters, escaped and quoted ones left out. -/
def braces (cs : List Char) (brace : Char) (k : Nat) : Nat :=
  (List.range k).countP fun i => hasMark cs brace i && !isQuoted cs i

/-- How many braces are open after the first characters, one being open before them. -/
def depth (cs : List Char) (k : Nat) : Int := 1 + braces cs '{' k - braces cs '}' k

/-- The open brace is closed by the `k`-th character, and by none before it. -/
structure ClosesAt (cs : List Char) (k : Nat) : Prop where
  le : k ≤ cs.length
  zero : depth cs k = 0
  first : ∀ i < k, depth cs i ≠ 0

variable {cs : List Char} {c : Char} {k : Nat}

theorem isEscaped_succ (h : cs[k]? = some c) : isEscaped cs (k + 1) = (!isEscaped cs k && c == '\\') := by
  rw [isEscaped, List.take_add_one, h, Option.toList_some, backslashes_concat, isEscaped]
  by_cases hc : c = '\\'
  · rw [if_pos hc, hc, beq_self_eq_true, Bool.and_true]
    rcases Nat.mod_two_eq_zero_or_one (backslashes (cs.take k)) with hm | hm <;>
      simp [hm, Nat.add_mod]
  · simp [hc]

theorem isQuoted_succ (cs : List Char) (k : Nat) : isQuoted cs (k + 1) = (isQuoted cs k ^^ hasMark cs '"' k) := by
  rw [isQuoted, List.range_succ, List.countP_append, List.countP_singleton, isQuoted]
  rcases Nat.mod_two_eq_zero_or_one ((List.range k).countP (hasMark cs '"')) with hm | hm <;>
    cases hasMark cs '"' k <;> simp [hm, Nat.add_mod]

theorem braces_succ (cs : List Char) (brace : Char) (k : Nat) :
    braces cs brace (k + 1) = braces cs brace k + if hasMark cs brace k && !isQuoted cs k then 1 else 0 := by
  rw [braces, List.range_succ, List.countP_append, List.countP_singleton, braces]

theorem hasMark_of_getElem? (h : cs[k]? = some c) (d : Char) : hasMark cs d k = (c == d && !isEscaped cs k) := by
  rw [hasMark, h, Option.some_beq_some]

theorem depth_succ (cs : List Char) (k : Nat) : depth cs (k + 1) = depth cs k +
    (if hasMark cs '{' k && !isQuoted cs k then 1 else 0) - if hasMark cs '}' k && !isQuoted cs k then 1 else 0 := by
  rw [depth, depth, braces_succ, braces_succ]
  split <;> split <;> omega

theorem depth_succ_ge (cs : List Char) (k : Nat) : depth cs k - 1 ≤ depth cs (k + 1) := by
  rw [depth_succ]
  split <;> split <;> omega

theorem depth_pos : ∀ {k : Nat}, (∀ i ≤ k, depth cs i ≠ 0) → 0 < depth cs k
  | 0, _ => by simp [depth, braces]
  | k + 1, h => by
    have hpos : 0 < depth cs k := depth_pos fun i hi => h i (Nat.le_succ_of_le hi)
    have hge := depth_succ_ge cs k
    have hne := h (k + 1) (Nat.le_refl _)
    omega

/-- The depth is not negative before it has been zero, nor right then. -/
theorem depth_nonneg (h : ∀ i < k, depth cs i ≠ 0) : 0 ≤ depth cs k := by
  by_cases hk : depth cs k = 0
  · omega
  · refine Int.le_of_lt (depth_pos fun i hi => ?_)
    rcases Nat.lt_or_eq_of_le hi with hi | rfl
    · exact h i hi
    · exact hk

theorem exists_closesAt (hk : k ≤ cs.length) (h : depth cs k = 0) : ∃ i, ClosesAt cs i := by
  have hex : ∃ i, i ≤ cs.length ∧ depth cs i = 0 := ⟨k, hk, h⟩
  obtain ⟨hle, hzero⟩ := Nat.find_spec hex
  exact ⟨Nat.find hex, hle, hzero, fun i hi h => Nat.find_min hex hi ⟨hi.le.trans hle, h⟩⟩

end Text

/-! ## The scan -/

namespace Scan

open Text

/-- **The scan counts along**: after any number of characters it knows the depth and whether the next
character is quoted or escaped. -/
theorem after_take (cs : List Char) : ∀ {k : Nat}, k ≤ cs.length →
    ({} : Scan).after (cs.take k) = ⟨Text.depth cs k, isQuoted cs k, isEscaped cs k⟩
  | 0, _ => by simp [Text.depth, braces, isQuoted, isEscaped, backslashes]
  | k + 1, hk => by
    obtain ⟨c, hc⟩ : ∃ c, cs[k]? = some c := ⟨cs[k], List.getElem?_eq_getElem hk⟩
    rw [List.take_add_one, hc, Option.toList_some, after_append, after_take cs (Nat.le_of_succ_le hk), after_cons,
      after_nil, isQuoted_succ, isEscaped_succ hc, depth_succ, hasMark_of_getElem? hc,
      hasMark_of_getElem? hc, hasMark_of_getElem? hc]
    cases he : isEscaped cs k with
    | true => simp [feed]
    | false =>
      by_cases hslash : c = '\\'
      · subst hslash
        simp [feed]
      by_cases hquote : c = '"'
      · subst hquote
        simp [feed]
      cases hq : isQuoted cs k with
      | true => simp [feed, hslash, hquote]
      | false =>
        by_cases hopen : c = '{'
        · subst hopen
          simp [feed]
        by_cases hclose : c = '}'
        · subst hclose
          simp [feed]
        simp [feed, hslash, hquote, hopen, hclose]

/-- A scan that ends within a line ends at its first character without an open brace. -/
theorem exists_of_feedLine {s : Scan} {l : List Char} (hs : s.depth ≠ 0) (h : (s.feedLine l).depth = 0) :
    ∃ j, 0 < j ∧ j ≤ l.length ∧ (s.after (l.take j)).depth = 0 ∧ ∀ i < j, (s.after (l.take i)).depth ≠ 0 := by
  induction l generalizing s with
  | nil => exact absurd h hs
  | cons c l ih =>
    simp only [feedLine] at h
    split at h
    · next hc =>
      refine ⟨1, by omega, by simp, by simpa using hc, fun i hi => ?_⟩
      obtain rfl : i = 0 := by omega
      exact hs
    · next hc =>
      obtain ⟨j, -, hle, hzero, hfirst⟩ := ih hc h
      refine ⟨j + 1, by omega, by simpa using hle, hzero, fun i hi => ?_⟩
      cases i with
      | zero => exact hs
      | succ i => exact hfirst i (by omega)

theorem Passes.depth_take_ne {s : Scan} {cs : List Char} (hs : s.depth ≠ 0) (h : s.Passes cs) (i : Nat) :
    (s.after (cs.take i)).depth ≠ 0 := by
  rw [← List.take_append_drop i cs, passes_append] at h
  exact depth_after_ne hs h.1

end Scan

/-! ## Blocks -/

namespace Block

/-- The `k`-th character of some lines, the first one having number one, stands in the line of an index. -/
def StandsIn (rows : List (List Char)) (k n : Nat) : Prop :=
  (rows.take n).flatten.length < k ∧ k ≤ (rows.take (n + 1)).flatten.length

/-- The line that closes a block is that of the first character at which no brace is open. -/
theorem exists_of_split? {s : Scan} (hs : s.depth ≠ 0) {rows body rest : List (List Char)}
    (h : split? s rows = some (body, rest)) : ∃ k, StandsIn rows k body.length ∧
      (s.after (rows.flatten.take k)).depth = 0 ∧ ∀ i < k, (s.after (rows.flatten.take i)).depth ≠ 0 := by
  obtain ⟨hpasses, close, rfl, hclose⟩ := (split?_eq_some_iff hs).1 h
  obtain ⟨j, hpos, hle, hzero, hfirst⟩ := Scan.exists_of_feedLine (Scan.depth_after_ne hs hpasses) hclose
  have htake : ∀ i ≤ j, (body ++ close :: rest).flatten.take (body.flatten.length + i) =
      body.flatten ++ close.take i := by
    intro i hi
    rw [List.flatten_append, List.flatten_cons, List.take_length_add_append,
      List.take_append_of_le_length (hi.trans hle)]
  refine ⟨body.flatten.length + j, ?_, ?_, fun i hi => ?_⟩
  · have hbody : (body ++ close :: rest).take (body.length + 1) = body ++ [close] := by
      rw [List.take_length_add_append, List.take_succ_cons, List.take_zero]
    rw [StandsIn, hbody, List.take_left, List.flatten_append, List.flatten_singleton, List.length_append]
    omega
  · rw [htake j (Nat.le_refl j), Scan.after_append]
    exact hzero
  · rcases Nat.lt_or_ge i body.flatten.length with hlt | hge
    · rw [List.flatten_append, List.take_append_of_le_length (Nat.le_of_lt hlt)]
      exact hpasses.depth_take_ne hs i
    · obtain ⟨i, rfl⟩ := Nat.exists_eq_add_of_le hge
      rw [htake i (by omega), Scan.after_append]
      exact hfirst i (by omega)

theorem depth_after_take {cs : List Char} {k : Nat} (hk : k ≤ cs.length) :
    (({} : Scan).after (cs.take k)).depth = Text.depth cs k := by
  rw [Scan.after_take cs hk]

theorem StandsIn.le {rows : List (List Char)} {k n : Nat} (h : StandsIn rows k n) : k ≤ rows.flatten.length :=
  h.2.trans (List.take_sublist _ rows).flatten.length_le

/-- The character that closes the brace stands in the line that closes the block. -/
theorem split?_of_closesAt {rows : List (List Char)} {k : Nat} (hk : Text.ClosesAt rows.flatten k) :
    ∃ body rest, StandsIn rows k body.length ∧ split? {} rows = some (body, rest) := by
  cases hs : split? {} rows with
  | none =>
    have hne := (passes_of_split?_eq_none hs).depth_take_ne (by decide) k
    rw [depth_after_take hk.le] at hne
    exact absurd hk.zero hne
  | some p =>
    obtain ⟨body, rest⟩ := p
    obtain ⟨k', hstands, hzero, hfirst⟩ := exists_of_split? (by decide) hs
    -- both are the first character at which the depth is zero
    obtain rfl : k' = k := by
      rw [depth_after_take hstands.le] at hzero
      rcases Nat.lt_trichotomy k' k with hlt | heq | hgt
      · exact absurd hzero (hk.first k' hlt)
      · exact heq
      · refine absurd ?_ (hfirst k hgt)
        rw [depth_after_take hk.le]
        exact hk.zero
    exact ⟨body, rest, hstands, rfl⟩

theorem split?_eq_none_of_depth_ne {rows : List (List Char)}
    (h : ∀ k ≤ rows.flatten.length, Text.depth rows.flatten k ≠ 0) : split? {} rows = none := by
  cases hs : split? {} rows with
  | none => rfl
  | some p =>
    obtain ⟨k, hstands, hzero, -⟩ := exists_of_split? (by decide) hs
    rw [depth_after_take hstands.le] at hzero
    exact absurd hzero (h k hstands.le)

theorem extract_eq (ls : List (List Char)) (start : Nat) (offset : Int) :
    extract ls start offset = match split? {} (ls.drop start) with
      | none => .error (.unclosedBlock (offset + start) (opener ls start))
      | some (body, _) => .ok (body, (start + body.length : Nat)) := by
  have hlines : linesFrom ls start = .ok (ls.drop start) := by
    rw [linesFrom, if_pos (Int.natCast_nonneg start), Int.toNat_natCast]
  rw [extract, hlines]
  dsimp only
  cases split? {} (ls.drop start) with
  | none => rfl
  | some p => rfl

theorem extract_of_split? {ls body rest : List (List Char)} {start : Nat}
    (h : split? {} (ls.drop start) = some (body, rest)) (offset : Int) (more : List (List Char)) :
    extract (ls.take (start + body.length + 1) ++ more) start offset = .ok (body, (start + body.length : Nat)) := by
  obtain ⟨hpasses, close, hrows, hclose⟩ := (split?_eq_some_iff (by decide)).1 h
  have hstart : start ≤ (ls.take (start + body.length + 1)).length := by
    have hlen := congrArg List.length hrows
    simp only [List.length_drop, List.length_append, List.length_cons] at hlen
    rw [List.length_take]
    omega
  have hdrop : (ls.take (start + body.length + 1) ++ more).drop start = body ++ close :: more := by
    rw [List.drop_append_of_le_length hstart, List.drop_take, hrows,
      show start + body.length + 1 - start = body.length + 1 by omega, List.take_length_add_append,
      List.take_succ_cons, List.take_zero, List.append_assoc, List.singleton_append]
  rw [extract_eq, hdrop, (split?_eq_some_iff (by decide)).2 ⟨hpasses, close, rfl, hclose⟩]

end Block

/-- **A block ends where the depth is zero for the first time.** Let `cs` be the characters of the lines from an
index on. If the depth is zero somewhere, the block is the lines before the one in which the first such
character stands, and the index of that line is given with them; any lines may follow it. If it is zero nowhere,
the line before the block is reported. Up to there the scan knows the depth, which is never negative. -/
theorem extract_depth (ls : List (List Char)) (start : Nat) (offset : Int) :
    let rows := ls.drop start
    let cs := rows.flatten
    (∀ k ≤ cs.length, Text.depth cs k = 0 → ∃ first n, Text.ClosesAt cs first ∧ Block.StandsIn rows first n ∧
      Block.extract ls start offset = .ok (rows.take n, (start + n : Nat)) ∧
      ∀ more, Block.extract (ls.take (start + n + 1) ++ more) start offset = .ok (rows.take n, (start + n : Nat))) ∧
    ((∀ k ≤ cs.length, Text.depth cs k ≠ 0) →
      Block.extract ls start offset = .error (.unclosedBlock (offset + start) (Block.opener ls start))) ∧
    ∀ k ≤ cs.length, (∀ i < k, Text.depth cs i ≠ 0) →
      0 ≤ Text.depth cs k ∧
        ({} : Scan).after (cs.take k) = ⟨Text.depth cs k, Text.isQuoted cs k, Text.isEscaped cs k⟩ := by
  intro rows cs
  refine ⟨fun k hk hzero => ?_, fun hopen => ?_,
    fun k hk hfirst => ⟨Text.depth_nonneg hfirst, Scan.after_take cs hk⟩⟩
  · obtain ⟨first, hcloses⟩ := Text.exists_closesAt hk hzero
    obtain ⟨body, rest, hstands, hs⟩ := Block.split?_of_closesAt hcloses
    have htake : rows.take body.length = body := by
      obtain ⟨close, hrows⟩ := Block.eq_of_split? hs
      rw [hrows, List.take_left]
    refine ⟨first, body.length, hcloses, hstands, ?_, fun more => ?_⟩
    · rw [Block.extract_eq, hs, htake]
    · rw [Block.extract_of_split? hs, htake]
  · rw [Block.extract_eq, Block.split?_eq_none_of_depth_ne hopen]

/-- A quote that is escaped, a brace that is quoted, and the brace that counts on the second line. -/
example : Block.extract ["s \x7b".toList, "\\\" \"\x7d\"".toList, "x \x7d y".toList] 1 0 =
    .ok (["\\\" \"\x7d\"".toList], 2) := by decide +kernel

end DefTree
