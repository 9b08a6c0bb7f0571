/-
Deferred imports.

Two readers look at an import line: one tells whether it begins with the
mark of a deferred import, which ends in a space, and the other takes the
word `nonfinal` off the path if any blank follows it. They agree, and a
deferred import is never loaded, unless the word is followed by a blank
other than a space: then it is taken off the path, but the import is not
deferred (`Line.agrees_iff`). Whatever a run loads comes from a directive
that is not deferred (`exists_imports_of_load`).
-/
import DefTree.Proofs.Imports
import DefTree.Proofs.Indentation
import DefTree.Proofs.WellFormed

namespace DefTree

/-! ## Blanks and paths -/

namespace Text

theorem countP_trim (cs : List Char) : (trim cs).countP (!isBlank ·) = cs.countP (!isBlank ·) := by
  have hblank {bs : List Char} (h : allBlank bs = true) : bs.countP (!isBlank ·) = 0 := by
    rw [List.countP_eq_zero]
    intro b hb
    simp [List.all_eq_true.1 h b hb]
  conv_rhs => rw [← margin_trim_tail cs]
  rw [List.countP_append, List.countP_append, hblank (allBlank_margin cs), hblank (allBlank_tail cs), Nat.zero_add,
    Nat.add_zero]

theorem without_append (p : Char → Bool) (cs ds : List Char) : without p (cs ++ ds) = without p cs ++ without p ds :=
  List.filter_append ..

theorem trim_append_blanks {front : List Char} (h : allBlank front = true) (cs : List Char) :
    trim (front ++ cs) = trim cs := by
  rw [trim, trim, trimStart_append h]

end Text

namespace Line

theorem cleanPath_trimStart (cs : List Char) : cleanPath (Text.trimStart cs) = cleanPath cs := by
  have hblank : Text.allBlank (Text.without (fun c => c == '"' || c == '\x27') (cs.takeWhile Text.isBlank)) = true :=
    List.all_eq_true.2 fun c hc =>
      List.all_eq_true.1 (Text.allBlank_margin cs) c ((Text.without_sublist _ _).subset hc)
  have hcut : cs = cs.takeWhile Text.isBlank ++ Text.trimStart cs := List.takeWhile_append_dropWhile.symm
  rw [cleanPath, cleanPath]
  conv_rhs => rw [hcut, Text.without_append, Text.trim_append_blanks hblank]

/-! ## The word that defers an import -/

/-- The word that defers an import, if a space follows it. -/
def deferWord : List Char := "nonfinal".toList

theorem deferredMark_eq : deferredMark = importMark ++ (deferWord ++ [' ']) := by decide

/-- The word stands in front of a path, and a blank after it. -/
def HasWord (rest : List Char) : Prop :=
  ∃ c path, rest = deferWord ++ c :: path ∧ Text.isBlank c = true

/-- It does, and the blank is no space. -/
def HasWordOnly (rest : List Char) : Prop :=
  ∃ c path, rest = deferWord ++ c :: path ∧ Text.isBlank c = true ∧ c ≠ ' '

theorem afterKeyword_word {c : Char} (hc : Text.isBlank c = true) (path : List Char) :
    afterKeyword (deferWord ++ c :: path) = Text.trimStart path := by
  have hword : Text.after? "nonfinal".toList (deferWord ++ c :: path) = some (c :: path) := Text.after?_append ..
  rw [afterKeyword, hword]
  simp [hc]

theorem afterKeyword_of_not_hasWord {rest : List Char} (h : ¬HasWord rest) :
    afterKeyword rest = Text.trimStart rest := by
  unfold afterKeyword
  split
  · next c path hword =>
    have hc : Text.isBlank c ≠ true := fun hc => h ⟨c, path, Text.eq_of_after? hword, hc⟩
    simp [hc]
  · rfl

theorem read_importMark (rest : List Char) : read (importMark ++ rest) =
    .ref (cleanPath (afterKeyword rest)) (Text.after? deferredMark (importMark ++ rest)).isSome := by
  rw [read, ref?, Text.after?_append]
  rfl

/-- A line begins with the mark of a deferred import just when a space follows the word. -/
theorem isSome_deferredMark_iff {rest : List Char} :
    (Text.after? deferredMark (importMark ++ rest)).isSome = true ↔ ∃ path, rest = deferWord ++ ' ' :: path := by
  rw [Option.isSome_iff_exists]
  simp only [Text.after?_eq_some_iff, deferredMark_eq, List.append_assoc, List.append_cancel_left_eq,
    List.singleton_append]

/-- An import with a space after the word is deferred, and the word is taken off. -/
theorem read_deferred (path : List Char) :
    read (importMark ++ (deferWord ++ ' ' :: path)) = .ref (cleanPath path) true := by
  rw [read_importMark, afterKeyword_word (by decide), cleanPath_trimStart, isSome_deferredMark_iff.2 ⟨path, rfl⟩]

/-- With another blank after the word, the word is taken off and the import is not deferred. -/
theorem read_wordOnly {c : Char} (hc : Text.isBlank c = true) (hspace : c ≠ ' ') (path : List Char) :
    read (importMark ++ (deferWord ++ c :: path)) = .ref (cleanPath path) false := by
  have hdeferred : (Text.after? deferredMark (importMark ++ (deferWord ++ c :: path))).isSome = false := by
    rw [← Bool.not_eq_true, isSome_deferredMark_iff]
    rintro ⟨path', h⟩
    exact hspace (List.cons.inj (List.append_cancel_left h)).1
  rw [read_importMark, afterKeyword_word hc, cleanPath_trimStart, hdeferred]

/-- Otherwise the path is all that follows the import mark, and the import is not deferred. -/
theorem read_of_not_hasWord {rest : List Char} (h : ¬HasWord rest) :
    read (importMark ++ rest) = .ref (cleanPath rest) false := by
  have hdeferred : (Text.after? deferredMark (importMark ++ rest)).isSome = false := by
    rw [← Bool.not_eq_true, isSome_deferredMark_iff]
    rintro ⟨path, rfl⟩
    exact h ⟨' ', path, rfl, by decide⟩
  rw [read_importMark, afterKeyword_of_not_hasWord h, cleanPath_trimStart, hdeferred]

theorem cleanPath_word_ne {c : Char} (hc : Text.isBlank c = true) (path : List Char) :
    cleanPath (deferWord ++ c :: path) ≠ cleanPath path := by
  intro h
  have hcount := congrArg (List.countP (!Text.isBlank ·)) h
  have hword : Text.without (fun c => c == '"' || c == '\x27') deferWord = deferWord := by decide
  have height : deferWord.countP (!Text.isBlank ·) = 8 := by decide
  have hquote : (c == '"' || c == '\x27') = false := by
    rw [Bool.or_eq_false_iff, beq_eq_false_iff_ne, beq_eq_false_iff_ne]
    constructor <;> rintro rfl <;> revert hc <;> decide
  have hcons : Text.without (fun c => c == '"' || c == '\x27') (c :: path) =
      c :: Text.without (fun c => c == '"' || c == '\x27') path := List.filter_cons_of_pos (by simp [hquote])
  rw [cleanPath, cleanPath, Text.countP_trim, Text.countP_trim, Text.without_append, hword, hcons,
    List.countP_append, height, List.countP_cons_of_neg (by simp [hc])] at hcount
  omega

/-- The two readers agree on a line: it is deferred and the path is what follows the mark of a deferred
import, or it is not and the path is all that follows the import mark. -/
def Agrees (rest : List Char) : Prop :=
  ∃ path deferred, read (importMark ++ rest) = .ref path deferred ∧
    ((deferred = true ∧ ∃ path', importMark ++ rest = deferredMark ++ path' ∧ path = cleanPath path') ∨
      (deferred = false ∧ path = cleanPath rest))

theorem agrees_iff {rest : List Char} : Agrees rest ↔ ¬HasWordOnly rest := by
  constructor
  · rintro ⟨path, deferred, hread, hagree⟩ ⟨c, path', rfl, hc, hspace⟩
    rw [read_wordOnly hc hspace, Line.ref.injEq] at hread
    obtain ⟨rfl, rfl⟩ := hread
    rcases hagree with ⟨h, -⟩ | ⟨-, h⟩
    · cases h
    · exact cleanPath_word_ne hc path' h.symm
  · intro h
    by_cases hword : HasWord rest
    · obtain ⟨c, path, rfl, hc⟩ := hword
      obtain rfl : c = ' ' := by
        by_contra hspace
        exact h ⟨c, path, rfl, hc, hspace⟩
      exact ⟨_, _, read_deferred path, .inl ⟨rfl, path, by simp [deferredMark_eq], rfl⟩⟩
    · exact ⟨_, _, read_of_not_hasWord hword, .inr ⟨rfl, rfl⟩⟩

end Line

/-! ## What is loaded -/

theorem exists_visits_of_load {rule : ImportRule} {path : String} {ls : List (List Char)} : ∀ {before : Nat},
    path ∈ (buildLines rule before ls).loads → ∃ before' l ls' path' deferred,
      Visits rule before ls before' (l :: ls') ∧ (Front.read l ls').construct = .ref path' deferred ∧
        path ∈ (rule (String.ofList path') deferred).loads := by
  induction ls using Front.induction with
  | nil =>
    intro before h
    rw [buildLines_nil] at h
    cases h
  | cons l ls ih ihb =>
    intro before h
    rw [buildLines_cons] at h
    rcases Run.mem_loads_bind.1 h with h | ⟨nodes, hc, h⟩
    · generalize hconstruct : (Front.read l ls).construct = c at h
      cases c with
      | blank | unknown _ | func _ _ _ | openFunc _ _ => cases h
      | ref path' deferred => exact ⟨before, l, ls, path', deferred, .here, hconstruct, h⟩
      | prop key value =>
        rcases Run.mem_loads_bind.1 h with h | ⟨_, -, h⟩
        · rw [loads_buildProp] at h
          cases h
        · cases h
      | openSect attributes opener =>
        rcases Run.mem_loads_bind.1 h with h | ⟨_, -, h⟩
        · rw [loads_buildAttributes] at h
          cases h
        · cases h
      | sect name attributes block =>
        rcases Run.mem_loads_bind.1 h with h | ⟨a, ha, h⟩
        · rw [loads_buildAttributes] at h
          cases h
        rcases Run.mem_loads_bind.1 h with h | ⟨_, -, h⟩
        · cases h
        rcases Run.mem_loads_bind.1 h with h | ⟨_, -, h⟩
        · obtain ⟨before', l', ls', path', deferred, hv, hread, hpath⟩ := ihb name attributes block hconstruct h
          exact ⟨before', l', ls', path', deferred, .into hconstruct ha hv, hread, hpath⟩
        · cases h
    · rcases Run.mem_loads_bind.1 h with h | ⟨_, -, h⟩
      · obtain ⟨before', l', ls', path', deferred, hv, hread, hpath⟩ := ih h
        exact ⟨before', l', ls', path', deferred, .next hc hv, hread, hpath⟩
      · cases h

theorem mem_loads_importRule {expand : Bool} {loader : Loader} {chain : List String} {path path' : String}
    {deferred : Bool} (h : path' ∈ (importRule expand loader chain path deferred).loads) :
    deferred = false ∧ expand = true ∧ loader.key path ∉ chain ∧ (path' = path ∨ ∃ text,
      loader.load path = .ok text ∧
        path' ∈ (buildText (importRule true loader (chain ++ [loader.key path])) text).loads) := by
  cases deferred with
  | true => cases h
  | false =>
    cases expand with
    | false => cases h
    | true =>
      refine ⟨rfl, rfl, ?_⟩
      change path' ∈ (expandImport loader chain path).loads at h
      rw [expandImport_eq] at h
      by_cases hc : loader.key path ∈ chain
      · rw [if_pos hc] at h
        cases h
      refine ⟨hc, ?_⟩
      rw [if_neg hc] at h
      rcases Run.mem_loads_bind.1 h with h | ⟨_, -, h⟩
      · cases h
      rcases Run.mem_loads_bind.1 h with h | ⟨_, -, h⟩
      · exact .inl (List.mem_singleton.1 h)
      cases hl : loader.load path with
      | error fault =>
        rw [hl] at h
        cases h
      | ok text =>
        rw [hl] at h
        exact .inr ⟨text, rfl, h⟩

/-- **What is loaded is imported** by a text that imports lead to, and not at all if imports are kept. -/
theorem exists_imports_of_load {library : Library} {loader : Loader}
    (hload : ∀ path text, loader.load path = .ok text → library.load path = .ok text) {expand : Bool}
    (chain : List String) {text path : String}
    (h : path ∈ (buildText (importRule expand loader chain) text).loads) :
    expand = true ∧ ∃ paths file, Leads library text paths file ∧ Imports file path := by
  obtain ⟨before, l, ls, path', deferred, hv, hc, hpath⟩ := exists_visits_of_load h
  obtain ⟨rfl, rfl, hk, hpath⟩ := mem_loads_importRule hpath
  have hi : Imports text (String.ofList path') := ⟨before, l, ls, hv.marked, by simpa using hc⟩
  refine ⟨rfl, ?_⟩
  rcases hpath with rfl | ⟨text', hl, hpath⟩
  · exact ⟨[], text, .here text, hi⟩
  · obtain ⟨-, paths, file, hleads, himports⟩ := exists_imports_of_load hload _ hpath
    exact ⟨String.ofList path' :: paths, file, .step hi (hload _ _ hl) hleads, himports⟩
termination_by loader.unused chain
decreasing_by exact Loader.unused_append_lt (loader.covers hl) hk

theorem Imports.exists_line {text path : String} (h : Imports text path) :
    ∃ before l ls rest, Visits markImport 0 (sourceLines text) before (l :: ls) ∧
      Text.trim l = Line.importMark ++ rest ∧ Line.read (Line.importMark ++ rest) = .ref path.toList false := by
  obtain ⟨before, l, ls, hv, hc⟩ := h
  have hread := Front.line_of_read_ref hc
  cases Line.shape_of_read hread with
  | ref hr =>
    obtain ⟨rest, hrest, -⟩ := Option.map_eq_some_iff.1 hr
    rw [Text.eq_of_after? hrest] at hread
    exact ⟨before, l, ls, rest, hv, Text.eq_of_after? hrest, hread⟩

/-- **An import is deferred if the word `nonfinal` is taken off its path**, and otherwise it is not and its path
is all that follows the import mark, unless the word is followed by a blank other than a space. Whatever is
loaded when imports are expanded comes from a directive, in a text that imports lead to, from whose path that
word was not taken off, unless it was followed by such a blank. -/
theorem deferral_agrees {library : Library} {text : String} {source : Option String} {run : Run Node}
    (h : library.Reads true text source run) :
    (∀ rest, Line.Agrees rest ↔ ¬Line.HasWordOnly rest) ∧
    ∀ path ∈ run.loads, ∃ paths file before l ls rest,
      Leads library text paths file ∧ Visits markImport 0 (sourceLines file) before (l :: ls) ∧
      Text.trim l = Line.importMark ++ rest ∧ Line.read (Line.importMark ++ rest) = .ref path.toList false ∧
      (Line.HasWord rest → Line.HasWordOnly rest) := by
  refine ⟨fun rest => Line.agrees_iff, fun path hpath => ?_⟩
  rw [← h.eq_restrict fun _ hp => hp, parse_loads] at hpath
  obtain ⟨-, paths, file, hleads, himports⟩ :=
    exists_imports_of_load (fun _ _ => Library.load_of_restrict) _ hpath
  obtain ⟨before, l, ls, rest, hv, hl, hread⟩ := himports.exists_line
  refine ⟨paths, file, before, l, ls, rest, hleads, hv, hl, hread, ?_⟩
  rintro ⟨c, path', rfl, hc⟩
  refine ⟨c, path', rfl, hc, ?_⟩
  rintro rfl
  rw [Line.read_deferred, Line.ref.injEq] at hread
  cases hread.2

/-- A deferred import and another one, in a section of a text that is imported. -/
theorem deferral_agrees_nested :
    let loader := Loader.ofMemory [("a", some "s \x7b\n@import nonfinal 'b'\n@import nonfinal\n\x7d"),
      ("nonfinal", some "k: 1")] []
    (parse true loader "@import \"a\"" none).loads = ["a", "nonfinal"] ∧
    (Line.Agrees "nonfinal 'b'".toList ↔ ¬Line.HasWordOnly "nonfinal 'b'".toList) ∧
    ∃ paths file before l ls rest, Leads loader.library "@import \"a\"" paths file ∧
      Visits markImport 0 (sourceLines file) before (l :: ls) ∧ Text.trim l = Line.importMark ++ rest ∧
      Line.read (Line.importMark ++ rest) = .ref "nonfinal".toList false ∧
      (Line.HasWord rest → Line.HasWordOnly rest) := by
  intro loader
  have hloads : (parse true loader "@import \"a\"" none).loads = ["a", "nonfinal"] := by decide +kernel
  have hrun : loader.library.Reads true "@import \"a\"" none _ := Library.reads_library_iff.2 rfl
  obtain ⟨hagrees, hloaded⟩ := deferral_agrees hrun
  exact ⟨hloads, hagrees _, hloaded "nonfinal" (by simp [hloads])⟩

/-- A tab after the word: it is taken off the path, and the path is loaded. -/
theorem nonfinal_tab_loaded :
    let loader := Loader.ofMemory [("m", some "k: 1")] []
    Line.read "@import nonfinal\tm".toList = .ref ['m'] false ∧
      Line.cleanPath "nonfinal\tm".toList ≠ ['m'] ∧ ¬Line.deferredMark <+: "@import nonfinal\tm".toList ∧
      (parse true loader "@import nonfinal\tm" none).loads = ["m"] := by
  decide +kernel

end DefTree
