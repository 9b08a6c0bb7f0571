/-
Which line a fault names.

The builder counts the lines of the text without its comments. A block
comment is taken out with all its line feeds, so below one that spans
several lines a fault names a line of the shortened text, too small by the
line feeds of the comment.
-/
import DefTree.Proofs.Comment
import DefTree.Proofs.Parse
import DefTree.Proofs.Text

namespace DefTree

/-- Lines that can be built, an empty line, and a line of no known shape: the fault names the last. -/
theorem buildLines_unknown {rule : ImportRule} {before : Nat} {ls : List (List Char)} {nodes : List Node}
    (h : (buildLines rule before ls).result = .ok nodes) {t text : List Char} (ht : Text.trim t ≠ [])
    (hr : Line.read (Text.trim t) = .unknown text) :
    (buildLines rule before (ls ++ [[], t])).result =
      .error (.unknownLine (before + ls.length + 2) text) := by
  have hblank : Front.read [] [t] = ⟨.blank, 1, [t]⟩ := Front.read_blank rfl [t]
  have hunknown : Front.read t [] = ⟨.unknown text, 1, []⟩ := by
    rw [Front.read_shape ht, hr]
    rfl
  rw [buildLines_append h, Run.result_bind_of_ok h, buildLines_cons, hblank, buildLines_cons, hunknown]
  simp only [buildConstruct, pure_bind, Run.fail_bind, Run.result_fail]
  congr 2

theorem sourceLines_around {a c t : String} (ha : Comment.Free a.toList)
    (hslash : ¬Comment.HasPair '/' '/' c.toList) (hstar : ¬Comment.HasPair '*' '/' c.toList)
    (ht : Comment.Free t.toList) (hline : '\n' ∉ t.toList) :
    sourceLines (a ++ "\n/*" ++ c ++ "*/\n" ++ t) = Text.lines a.toList ++ [[], t.toList] := by
  have hcs : (a ++ "\n/*" ++ c ++ "*/\n" ++ t).toList =
      a.toList ++ '\n' :: ('/' :: '*' :: (c.toList ++ ['*', '/'])) ++ '\n' :: t.toList := by
    simp
  rw [sourceLines, hcs, Comment.erase_around ha hslash hstar ht, Text.lines_append]
  congr 1
  rw [← List.nil_append ('\n' :: t.toList), Text.lines_append, Text.lines_of_not_mem hline]
  rfl

/-- **A fault below a block comment** names its line without the line feeds of the comment: it is
the line of the text as it stands exactly when the comment has none. -/
theorem unknown_line_below_comment {expand : Bool} {loader : Loader} {source : Option String}
    {a c t : String} (ha : Comment.Free a.toList)
    (hparse : ∃ tree, (parse expand loader a source).result = .ok tree)
    (hslash : ¬Comment.HasPair '/' '/' c.toList) (hstar : ¬Comment.HasPair '*' '/' c.toList)
    (ht : Comment.Free t.toList) (hline : '\n' ∉ t.toList) (hblank : Text.trim t.toList ≠ [])
    (hunknown : Line.read (Text.trim t.toList) = .unknown (Text.trim t.toList)) :
    ∃ line : Nat, (parse expand loader (a ++ "\n/*" ++ c ++ "*/\n" ++ t) source).result =
        .error (.unknownLine line (Text.trim t.toList)) ∧
      line + c.toList.count '\n' = 1 + (a ++ "\n/*" ++ c ++ "*/\n").toList.count '\n' ∧
      (line = 1 + (a ++ "\n/*" ++ c ++ "*/\n").toList.count '\n' ↔ '\n' ∉ c.toList) := by
  obtain ⟨tree, hparse⟩ := hparse
  obtain ⟨nodes, hnodes, -⟩ := parse_ok_iff.1 hparse
  have herase : sourceLines a = Text.lines a.toList := by
    rw [sourceLines, Comment.erase_of_free ha]
  rw [buildText, herase] at hnodes
  have hcount : (a ++ "\n/*" ++ c ++ "*/\n").toList.count '\n' =
      a.toList.count '\n' + c.toList.count '\n' + 2 := by
    simp [List.count_append]
    omega
  refine ⟨a.toList.count '\n' + 3, ?_, by omega, ?_⟩
  · rw [parse_error_iff, buildText, sourceLines_around ha hslash hstar ht hline,
      buildLines_unknown hnodes hblank hunknown, Text.length_lines]
    congr 2
    push_cast
    omega
  · rw [← List.count_eq_zero, hcount]
    omega

theorem unknown_line_below_comment_four :
    (parse false (Loader.ofMemory [] []) "k: 1" none).result.isOk = true ∧
    ∃ line : Nat, (parse false (Loader.ofMemory [] [])
        ("k: 1" ++ "\n/*" ++ "a\nb" ++ "*/\n" ++ " oops") none).result =
        .error (.unknownLine line (Text.trim " oops".toList)) ∧
      line + "a\nb".toList.count '\n' =
        1 + ("k: 1" ++ "\n/*" ++ "a\nb" ++ "*/\n").toList.count '\n' ∧
      (line = 1 + ("k: 1" ++ "\n/*" ++ "a\nb" ++ "*/\n").toList.count '\n' ↔ '\n' ∉ "a\nb".toList) := by
  have hok : (parse false (Loader.ofMemory [] []) "k: 1" none).result.isOk = true := by decide +kernel
  have hparse : ∃ tree, (parse false (Loader.ofMemory [] []) "k: 1" none).result = .ok tree := by
    cases h : (parse false (Loader.ofMemory [] []) "k: 1" none).result with
    | error fault => rw [h] at hok; cases hok
    | ok tree => exact ⟨tree, rfl⟩
  have hfree : Comment.Free "k: 1".toList ∧ Comment.Free " oops".toList :=
    ⟨⟨by decide, by decide⟩, ⟨by decide, by decide⟩⟩
  exact ⟨hok, unknown_line_below_comment hfree.1 hparse (by decide) (by decide) hfree.2 (by decide)
    (by decide) (by decide)⟩

/-- A comment over two lines: the fourth line is named as the third. -/
theorem unknown_line_miscounted :
    (parse false (Loader.ofMemory [] []) "\n/*\n*/\noops" none).result.map (fun _ => ()) =
      .error (.unknownLine 3 "oops".toList) ∧
    3 ≠ 1 + "\n/*\n*/\n".toList.count '\n' := by
  constructor
  · decide +kernel
  · decide

end DefTree
