/-
Where a line of no known shape is reported.

The builder counts lines inside sections from the header on, although the
block is read as a text of its own, and the source of a fault is filled in
while it leaves the imports around it. Both come out right: the fault names
the innermost file, and in that file the line with the text it quotes.
-/
import DefTree.Proofs.Imports

namespace DefTree

/-- Among the faults of constructs, those about a line of no known shape are those of such a line. -/
theorem Construct.Fails.unknownLine {loader : Loader} {chain : List String} {before : Nat} {c : Construct}
    {fault : Fault} {source : Option String} {m : Misreading}
    (h : c.Fails (lookUpImport loader chain) before fault) (hm : fault.inFile source = .misread m)
    (hc : m.complaint = .unknownLine) : ∃ text, c = .unknown text ∧
      m = { complaint := .unknownLine, line := some (before + 1 : Nat), text := some (String.ofList text),
            source := source } := by
  rcases h.kind with ⟨text, rfl, rfl⟩ | ⟨line, opener, rfl⟩ | ⟨path, -, -, rfl⟩ | ⟨hother, -⟩
  · rw [Fault.unknownLine_inFile, Fault.misread.injEq] at hm
    exact ⟨text, rfl, hm.symm⟩
  · rw [Fault.unclosedBlock_inFile, Fault.misread.injEq] at hm
    rw [← hm] at hc
    cases hc
  · rw [Fault.inFile_eq (by simp)] at hm
    cases hm
  · rw [Fault.inFile_eq hother] at hm
    exact absurd hm (hother m)

/-- **A line of no known shape is reported where it stands.** If reading fails with such a report, imports
lead from the text to a file, the innermost import being the source that is named and the text itself
having none; the line that is named is one of the lines of that file without its comments, what is quoted
is that line without the blanks around it, and it has none of the known shapes. -/
theorem unknownLine_located {library : Library} {expand : Bool} {text : String} {source : Option String}
    {run : Run Node} (h : library.Reads expand text source run) {m : Misreading}
    (hm : run.result = .error (.misread m)) (hc : m.complaint = .unknownLine) :
    ∃ paths file, Leads library text paths file ∧ (paths ≠ [] → expand = true) ∧ m.source = paths.getLast? ∧
      ∃ (line : Nat) (l : List Char), m.line = some (line : Int) ∧ 1 ≤ line ∧ line ≤ (sourceLines file).length ∧
        (sourceLines file)[line - 1]? = some l ∧ m.text = some (String.ofList (Text.trim l)) ∧
        Line.read (Text.trim l) = .unknown (Text.trim l) := by
  rw [← h.eq_restrict fun _ hp => hp, parse_error_iff] at hm
  obtain ⟨paths, file, hfrom, hexpand⟩ := exists_comesFrom (fun _ _ => Library.load_of_restrict) _ hm
  obtain ⟨before, l, ls, fault₀, hv, hf, hfault⟩ := hfrom.fails
  obtain ⟨text', hconstruct, rfl⟩ := hf.unknownLine hfault.symm hc
  obtain ⟨rfl, hread⟩ := Front.line_of_read_unknown hconstruct
  have hline : (sourceLines file)[before]? = some l := hv.getElem?
  have hlt : before < (sourceLines file).length := (List.getElem?_eq_some_iff.1 hline).1
  exact ⟨paths, file, hfrom.leads, hexpand, rfl, before + 1, l, rfl, by omega, by omega, hline, rfl, hread⟩

/-- Inside a section, two imports away and below a blank line. -/
theorem unknownLine_located_imported :
    let loader := Loader.ofMemory [("a", some "k: 1\n@import \"b\""), ("b", some "s \x7b\n\n  oops oops\n\x7d")] []
    let report : Misreading :=
      { complaint := .unknownLine, line := some 3, text := some "oops oops", source := some "b" }
    (parse true loader "@import \"a\"" none).result = .error (.misread report) ∧
    ∃ paths file, Leads loader.library "@import \"a\"" paths file ∧ (paths ≠ [] → true = true) ∧
      report.source = paths.getLast? ∧
      ∃ (line : Nat) (l : List Char), report.line = some (line : Int) ∧ 1 ≤ line ∧
        line ≤ (sourceLines file).length ∧ (sourceLines file)[line - 1]? = some l ∧
        report.text = some (String.ofList (Text.trim l)) ∧ Line.read (Text.trim l) = .unknown (Text.trim l) := by
  intro loader report
  have hresult : (parse true loader "@import \"a\"" none).result = .error (.misread report) :=
    Run.result_eq_error_of_map (f := fun _ => ()) (by decide +kernel)
  exact ⟨hresult, unknownLine_located (Library.reads_library_iff.2 rfl) hresult rfl⟩

end DefTree
