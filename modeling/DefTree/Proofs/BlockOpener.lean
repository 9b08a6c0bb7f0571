/-
Where a block that is never closed is reported.

The report names the line that opens the block, and quotes it: the header
of a section or a function, or the line after a header of a function that
has no brace. The builder does not look at that line: if it is missing in
the lines of the section, or has no brace, there is nothing that the report
could name (`LacksBrace`). In all other cases it names a line of the text
with a brace, however deep the block stands.
-/
import DefTree.Proofs.BlockStructure
import DefTree.Proofs.WellFormed

namespace DefTree

/-! ## Headers with a brace -/

namespace Line

variable {cs name attributes : List Char} {arguments : List (List Char)} {opened : Bool}

/-- The header of a function is open just when it has a brace, wherever that stands. -/
theorem opened_of_read (h : read cs = .func name arguments opened) : opened = cs.contains '{' := by
  cases shape_of_read h with
  | func _ hf =>
    unfold func? at hf
    simp only at hf
    split at hf
    · split at hf
      · cases hf
        rfl
      · cases hf
    · cases hf

theorem brace_mem_of_read_sect (h : read cs = .sect name attributes) : '{' ∈ cs := by
  cases shape_of_read h with
  | sect _ _ hs =>
    by_contra hbrace
    rw [sect?, if_neg (by simpa using hbrace)] at hs
    cases hs

end Line

/-- Some lines begin with the header of a function that has no brace, and the line after it has none or is
missing. -/
def LacksBrace (ls : List (List Char)) : Prop :=
  ∃ header rest name arguments, ls = header :: rest ∧
    Line.read (Text.trim header) = .func name arguments false ∧ ∀ l ∈ rest.head?, '{' ∉ l

/-- What a block that is never closed begins with has a brace in its last line, unless it lacks one. -/
theorem BeginsOpen.brace {ls : List (List Char)} {height : Nat} {opener : List Char}
    (h : BeginsOpen ls height opener) :
    (1 ≤ height ∧ ∃ l, ls[height - 1]? = some l ∧ opener = Text.trim l ∧ '{' ∈ l) ∨
      (LacksBrace ls ∧ height = 2 ∧ opener = Text.trim (ls.tail.headD [])) := by
  have htrim {l : List Char} (hl : '{' ∈ Text.trim l) : '{' ∈ l := (Text.trim_sublist l).subset hl
  cases h with
  | @sect l ls _ _ hc =>
    have hreads := Front.reads l ls
    generalize Front.read l ls = f at hreads hc
    cases hreads <;> cases hc
    next hl => exact .inl ⟨Nat.le_refl 1, l, rfl, rfl, htrim (Line.brace_mem_of_read_sect ‹_›)⟩
  | @func l ls _ _ hc =>
    have hreads := Front.reads l ls
    generalize Front.read l ls = f at hreads hc
    cases hreads <;> cases hc
    next name arguments opened hl _ =>
    cases opened with
    | true =>
      have hbrace : '{' ∈ Text.trim l := by simpa using (Line.opened_of_read hl).symm
      exact .inl ⟨Nat.le_refl 1, l, rfl, rfl, htrim hbrace⟩
    | false =>
      by_cases hnext : ∀ l' ∈ ls.head?, '{' ∉ l'
      · exact .inr ⟨⟨l, ls, name, arguments, rfl, hl, hnext⟩, rfl, rfl⟩
      · cases ls with
        | nil => exact absurd (fun _ h => by cases h) hnext
        | cons l' ls =>
          have hbrace : '{' ∈ l' := by simpa using hnext
          exact .inl ⟨by decide, l', rfl, rfl, hbrace⟩

/-! ## Reports -/

/-- A report names one of some lines by its number and quotes it without the blanks around it, and that line has
a brace. -/
def Misreading.NamesBrace (m : Misreading) (ls : List (List Char)) : Prop :=
  ∃ (line : Nat) (l : List Char), m.line = some (line : Int) ∧ 1 ≤ line ∧ line ≤ ls.length ∧
    ls[line - 1]? = some l ∧ m.text = some (String.ofList (Text.trim l)) ∧ '{' ∈ l

/-- A report names the line after a header that lacks its brace. -/
def Misreading.NamesLack (m : Misreading) (ls : List (List Char)) : Prop :=
  ∃ before here, Visits markImport 0 ls before here ∧ LacksBrace here ∧
    m.line = some ((before + 2 : Nat) : Int) ∧ m.text = some (String.ofList (Text.trim (here.tail.headD [])))

theorem Visits.getElem?_add {rule : ImportRule} {before i : Nat} {ls here : List (List Char)} {l : List Char}
    (hv : Visits rule 0 ls before here) (h : here[i]? = some l) : ls[before + i]? = some l := by
  obtain ⟨front, back, rfl, rfl⟩ := hv.infix
  obtain ⟨hi, hl⟩ := List.getElem?_eq_some_iff.1 h
  rw [Nat.zero_add, List.append_assoc, List.getElem?_append_right (by omega), Nat.add_sub_cancel_left,
    List.getElem?_append_left hi, h]

theorem Misreading.not_namesBrace {m : Misreading} {ls : List (List Char)} (h : m.NamesLack ls) :
    ¬m.NamesBrace ls := by
  rintro ⟨line, l, hline, -, -, hl, htext, hbrace⟩
  obtain ⟨before, _, hv, ⟨header, rest, name, arguments, rfl, -, hnext⟩, hline', htext'⟩ := h
  have hnumber : line = before + 2 := by
    rw [hline, Option.some.injEq] at hline'
    omega
  subst hnumber
  cases rest with
  | nil =>
    -- nothing stands after the header, so an empty line is quoted
    have hempty : Text.trim l = [] := by
      rw [htext, Option.some.injEq, String.ofList_inj] at htext'
      exact htext'
    have hblank := Text.allBlank_of_trim hempty
    exact absurd (List.all_eq_true.1 hblank '{' hbrace) (by decide)
  | cons l' rest =>
    have hl' : ls[before + 1]? = some l' := hv.getElem?_add rfl
    have heq : l = l' := Option.some.inj (hl.symm.trans hl')
    exact hnext l' rfl (heq ▸ hbrace)

theorem names_of_unclosedBlock {loader : Loader} {text : String} {source : Option String} {m : Misreading}
    (h : (parse false loader text source).result = .error (.misread m)) (hm : m.complaint = .unclosedBlock) :
    m.NamesBrace (sourceLines text) ∨ m.NamesLack (sourceLines text) := by
  obtain ⟨before, l, ls, hv, hf⟩ := exists_visits_of_error (parse_error_iff.1 h)
  obtain ⟨height, opener, hopen, hline, htext⟩ := hf.unclosedBlock hm
  rcases hopen.brace with ⟨hheight, l', hl', rfl, hbrace⟩ | ⟨hlacks, rfl, rfl⟩
  · have hget := hv.getElem?_add hl'
    obtain ⟨hlt, -⟩ := List.getElem?_eq_some_iff.1 hget
    refine .inl ⟨before + height, l', hline, by omega, by omega, ?_, htext, hbrace⟩
    rw [Nat.add_sub_assoc hheight]
    exact hget
  · exact .inr ⟨before, l :: ls, hv.marked, hlacks, hline, htext⟩

/-- **A block that is never closed is reported at its opening brace.** With imports kept, the report about a text
without comments names one of its lines and quotes it, and that line has a brace; only if building comes to the
header of a function without a brace, and the line after it in its section, or in the text, has none or is
missing, the report names that line instead. -/
theorem unclosedBlock_names_brace_iff {loader : Loader} {text : String} {source : Option String} {m : Misreading}
    (hfree : Comment.Free text.toList) (h : (parse false loader text source).result = .error (.misread m))
    (hm : m.complaint = .unclosedBlock) :
    m.NamesBrace (Text.lines text.toList) ↔ ¬m.NamesLack (Text.lines text.toList) := by
  have hlines : sourceLines text = Text.lines text.toList := by rw [sourceLines, Comment.erase_of_free hfree]
  rw [← hlines]
  exact ⟨fun hbrace hlack => Misreading.not_namesBrace hlack hbrace, (names_of_unclosedBlock h hm).resolve_right⟩

/-- In a section, with the brace on a line of its own. -/
theorem unclosedBlock_names_brace_nested :
    let text := "s \x7b\nf(x)\n  \x7b\n\x7d\x7d"
    let m : Misreading := { complaint := .unclosedBlock, line := some 3, text := some "\x7b" }
    Comment.Free text.toList ∧ (parse false (Loader.ofMemory [] []) text none).result = .error (.misread m) ∧
      (m.NamesBrace (Text.lines text.toList) ↔ ¬m.NamesLack (Text.lines text.toList)) := by
  intro text m
  have hfree : Comment.Free text.toList := ⟨by decide +kernel, by decide +kernel⟩
  have hresult : (parse false (Loader.ofMemory [] []) text none).result = .error (.misread m) :=
    Run.result_eq_error_of_map (f := fun _ => ()) (by decide +kernel)
  exact ⟨hfree, hresult, unclosedBlock_names_brace_iff hfree hresult rfl⟩

/-- A blank line after a header without a brace: that line is named, and not the one with the brace. -/
theorem unclosedBlock_names_blank :
    let text := "f()\n\n\x7b"
    Comment.Free text.toList ∧ Text.lines text.toList = ["f()".toList, [], ['{']] ∧
      (parse false (Loader.ofMemory [] []) text none).result = .error (.unclosedBlock 2 []) := by
  refine ⟨⟨by decide +kernel, by decide +kernel⟩, by decide +kernel, ?_⟩
  exact Run.result_eq_error_of_map (f := fun _ => ()) (by decide +kernel)

end DefTree
