/-
How reading fails, and what the program ends with.

Reading a definition text is meant to fail in four ways: at a line of no
known shape, at a block that is never closed, at an import that cannot be
read and at a cycle of imports (`Fault.OfReading`). It does, with two
exceptions: an integer that is too long, and an import of a path that no file
can have, which only a loader of files meets. The log does not get in the
way, whatever was logged before. So the program, given an indentation that
the writer takes, ends with status zero or one, and else one of the two
exceptions breaks it off.
-/
import DefTree.CommandLine
import DefTree.Proofs.DigitLimit
import DefTree.Proofs.Imports
import DefTree.Proofs.QuotedText

namespace DefTree

/-- The ways in which reading a definition text is meant to fail. -/
inductive Fault.OfReading : Fault → Prop where
  | unknownLine (line : Int) (text : String) (source : Option String) :
      OfReading (.misread { complaint := .unknownLine, line := some line, text := some text, source })
  | unclosedBlock (line : Int) (text : String) (source : Option String) :
      OfReading (.misread { complaint := .unclosedBlock, line := some line, text := some text, source })
  | unreadableImport (path : String) (reason : Option String) : OfReading (.unreadableImport path reason)
  | importCycle (chain : List String) : OfReading (.importCycle chain)

theorem Fault.OfReading.isOwn {fault : Fault} (h : fault.OfReading) : fault.isOwn = true := by
  cases h <;> rfl

/-- A fault is that of an integer that is too long, in a construct that reading a text comes to, there or in
a text that imports lead to. -/
def Fault.OverlongIn (library : Library) (expand : Bool) (text : String) (fault : Fault) : Prop :=
  ∃ paths file before l ls, Leads library text paths file ∧ (paths ≠ [] → expand = true) ∧
    Visits markImport 0 (sourceLines file) before (l :: ls) ∧ (Front.read l ls).construct.IsOverlong fault

/-- A fault is that of an import of a path with the character of code zero, which no file can have. -/
def Fault.NulImportIn (library : Library) (expand : Bool) (text : String) (fault : Fault) : Prop :=
  fault = .nulInPath ∧ expand = true ∧ ∃ paths file path, Leads library text paths file ∧ Imports file path ∧
    '\x00' ∈ path.toList

theorem Construct.IsOverlong.eq {c : Construct} {fault : Fault} (h : c.IsOverlong fault) :
    (∃ digits, fault = .overlongNumeral digits) ∨ fault = .overlongValue := by
  cases h <;> simp

theorem Construct.IsOverlong.isOwn {c : Construct} {fault : Fault} (h : c.IsOverlong fault) :
    fault.isOwn = false ∧ fault.isFile = false ∧ (∀ m, fault ≠ .misread m) ∧ fault ≠ .nulInPath := by
  rcases h.eq with ⟨digits, rfl⟩ | rfl <;> simp [Fault.isOwn, Fault.isFile]

/-! ## Reading -/

/-- Only an import that is expanded can have a path that cannot be loaded. -/
theorem parse_kept_ne_nulInPath {loader : Loader} {text : String} {source : Option String} :
    (parse false loader text source).result ≠ .error .nulInPath := by
  intro h
  obtain ⟨before, l, ls, -, hf⟩ := exists_visits_of_error (parse_error_iff.1 h)
  rcases hf.cases with ⟨text', h⟩ | ⟨line, opener, h⟩ | h | ⟨path, deferred, -, h⟩
  · cases h
  · cases h
  · exact h.isOwn.2.2.2 rfl
  · obtain ⟨-, h, -⟩ := importRule_error h
    cases h

/-- **What reading can fail with.** -/
theorem parse_error_cases {expand : Bool} {loader : Loader} {text : String} {source : Option String} {fault : Fault}
    (h : (parse expand loader text source).result = .error fault) :
    fault.OfReading ∨ fault.OverlongIn loader.library expand text ∨ fault = .nulInPath ∧
      ∃ paths file path, Leads loader.library text paths file ∧ Imports file path ∧
        loader.load path = .error .nulInPath := by
  have hload : ∀ path text, loader.load path = .ok text → loader.library.load path = .ok text := fun _ _ h => h
  obtain ⟨paths, file, hfrom, hexpand⟩ := exists_comesFrom hload _ (parse_error_iff.1 h)
  obtain ⟨before, l, ls, fault₀, hv, hf, rfl⟩ := hfrom.fails
  rcases hf.cases with ⟨text', rfl⟩ | ⟨line, opener, rfl⟩ | hlong | ⟨path, deferred, hc, hr⟩
  · rw [Fault.unknownLine_inFile]
    exact .inl (.unknownLine ..)
  · rw [Fault.unclosedBlock_inFile]
    exact .inl (.unclosedBlock ..)
  · rw [Fault.inFile_eq hlong.isOwn.2.2.1]
    exact .inr (.inl ⟨paths, file, before, l, ls, hfrom.leads, hexpand, hv, hlong⟩)
  · obtain ⟨rfl, ⟨-, rfl⟩ | ⟨f, hl, rfl⟩⟩ := lookUpImport_error hr
    · rw [Fault.inFile_eq (by simp)]
      exact .inl (.importCycle _)
    · rw [Fault.inFile_eq (by cases f <;> simp [LoadFault.ofImport])]
      cases f with
      | unreadable reason => exact .inl (.unreadableImport _ reason)
      | nulInPath =>
        have himports : Imports file (String.ofList path) := ⟨before, l, ls, hv, by rwa [String.toList_ofList]⟩
        exact .inr (.inr ⟨rfl, paths, file, _, hfrom.leads, himports, hl⟩)

/-- A fault of the definition language is one of those that reading is meant to fail with. -/
theorem ofReading_of_isOwn {expand : Bool} {loader : Loader} {text : String} {source : Option String} {fault : Fault}
    (h : (parse expand loader text source).result = .error fault) (hown : fault.isOwn = true) : fault.OfReading := by
  rcases parse_error_cases h with h | ⟨_, _, _, _, _, _, _, _, hlong⟩ | ⟨rfl, -⟩
  · exact h
  · rw [hlong.isOwn.1] at hown
    cases hown
  · cases hown

theorem parse_of_overlong {expand : Bool} {loader : Loader} {text : String} {source : Option String} {before : Nat}
    {l : List Char} {ls : List (List Char)} {fault : Fault}
    (hv : Visits (importRule expand loader (loader.origin source)) 0 (sourceLines text) before (l :: ls))
    (h : (Front.read l ls).construct.IsOverlong fault) : (parse expand loader text source).result = .error fault :=
  parse_error_iff.2 (error_of_visits hv (h.result _ _))

/-! ## Logging -/

namespace Log

theorem Gate.exists_admits {g : Gate} {x : Number} (h : g.threshold.number? = some x) (level : Int) :
    ∃ b, g.admits level = .ok b := by
  rw [Gate.admits, h]
  split
  · exact ⟨_, rfl⟩
  · exact ⟨_, rfl⟩

theorem Registry.exists_write {g : Gate} {x : Number} (h : g.threshold.number? = some x) (r : Registry)
    (time : String) (level : Int) (message : String) : ∃ p, r.write g time level message = .ok p := by
  obtain ⟨b, hb⟩ := Gate.exists_admits h level
  rw [write, passes, hb]
  cases b <;> exact ⟨_, rfl⟩

theorem Registry.exists_writeEvents {g : Gate} {x : Number} (h : g.threshold.number? = some x) (time : String)
    (events : List Event) : ∀ r : Registry, ∃ p, r.writeEvents g time events = .ok p := by
  induction events with
  | nil => exact fun r => ⟨_, rfl⟩
  | cons e events ih =>
    intro r
    unfold writeEvents
    split
    · exact ih r
    · next level message _ =>
      obtain ⟨p, hp⟩ := exists_write h r time level message
      obtain ⟨q, hq⟩ := ih p.1
      rw [hp]
      dsimp only
      rw [hq]
      exact ⟨_, rfl⟩

theorem Registry.exists_lower (r : Registry) (c : Channel) (level : Int) : ∃ r', r.lower c (.ofInt level) = .ok r' := by
  rw [lower, Setting.number?_ofInt]
  split
  · exact ⟨_, rfl⟩
  · dsimp only
    split
    · exact ⟨_, rfl⟩
    · exact ⟨_, rfl⟩

/-- The format that gates have by themselves shows a field. -/
theorem Registry.exists_dress (r : Registry) (c : Channel) :
    ∃ r', r.dress c ({} : Config).format = .ok r' := by
  have hformat : formatOf ({} : Config).format =
      .ok "%(asctime)s - %(name)s - %(levelname)s - %(message)s" := by decide +kernel
  rw [dress, hformat]
  split
  · exact ⟨_, rfl⟩
  · exact ⟨_, rfl⟩

end Log

namespace Settings

/-- Settings of their kinds: two switches and a whole number. -/
def plain (expand logging : Bool) (level : Int) : Settings := ⟨.ofBool expand, .ofBool logging, .ofInt level⟩

variable {expand logging : Bool} {level : Int}

/-- They give a gate on every registry. -/
theorem exists_attach (r : Log.Registry) : ∃ r' gate,
    r.attach (plain expand logging level).gateConfig = (r', .ok gate) ∧ gate.threshold = .ofInt level := by
  unfold Log.Registry.attach
  have hname : Log.channelName (plain expand logging level).gateConfig.name = .ok "Kantara Parser" := rfl
  rw [hname]
  dsimp only
  split
  · generalize ((r.ensure "Kantara Parser").channel? "Kantara Parser").getD { name := "Kantara Parser" } = c
    obtain ⟨r₁, h₁⟩ := (r.ensure "Kantara Parser").exists_lower c level
    obtain ⟨r₂, h₂⟩ := r₁.exists_dress c
    have hprepare : (r.ensure "Kantara Parser").prepare c (plain expand logging level).gateConfig = (r₂, .ok ()) := by
      unfold Log.Registry.prepare
      have hl : (r.ensure "Kantara Parser").lower c (plain expand logging level).gateConfig.level = .ok r₁ := h₁
      have hd : r₁.dress c (plain expand logging level).gateConfig.format = .ok r₂ := h₂
      rw [hl]
      dsimp only
      rw [hd]
    rw [hprepare]
    exact ⟨_, _, rfl, rfl⟩
  · exact ⟨_, _, rfl, rfl⟩

end Settings

/-- **The log does not get in the way**: with settings of their kinds, a text is read to what it is read to
without a log. -/
theorem Report.result_ofText (registry : Log.Registry) (time : String) (expand logging : Bool) (level : Int)
    (loader : Loader) (text : String) (source : Option String) :
    (Report.ofText registry time (.plain expand logging level) loader text source).result =
      (parse expand loader text source).result := by
  obtain ⟨r, gate, hattach, hthreshold⟩ := @Settings.exists_attach expand logging level registry
  have hnumber : gate.threshold.number? = some (.integer level) := by
    rw [hthreshold, Setting.number?_ofInt]
  obtain ⟨written, hwritten⟩ :=
    Log.Registry.exists_writeEvents hnumber time (parse expand loader text source).events r
  have hstart : Session.start registry (.plain expand logging level) =
      (r, .ok ⟨.plain expand logging level, gate⟩) := by
    rw [Session.start, hattach]
    rfl
  have hparse : Session.parse ⟨.plain expand logging level, gate⟩ loader text source =
      parse expand loader text source := rfl
  rw [ofText, hstart]
  dsimp only [Session.report]
  rw [hparse, hwritten]

/-! ## Files -/

namespace Path

theorem mem_of_mem_text {s : String} {c : Char} (h : c ∈ (ofText s).text.toList) :
    c = '/' ∨ c = '.' ∨ c ∈ s.toList := by
  rw [text] at h
  split at h
  · exact .inr (.inl (List.mem_singleton.1 h))
  rw [String.toList_append, List.mem_append, String.toList_intercalate] at h
  rcases h with h | h
  · refine .inl ?_
    cases ha : (ofText s).anchor with
    | working => rw [ha] at h; cases h
    | slash | doubleSlash => rw [ha] at h; simpa [Anchor.text] using h
  · have hjoined : c ∈ Text.joined '/' ((ofText s).parts.map String.toList) := by rwa [Text.joined_eq_intercalate]
    rcases Text.mem_joined hjoined with h | ⟨l, hl, h⟩
    · exact .inl h
    · obtain ⟨part, hpart, rfl⟩ := List.mem_map.1 hl
      obtain ⟨piece, hpiece, rfl⟩ := List.mem_map.1 (List.mem_of_mem_filter hpart)
      rw [String.toList_ofList] at h
      exact .inr (.inr ((Text.flatten_pieces_sublist '/' s.toList).subset (List.mem_flatten_of_mem hpiece h)))

end Path

namespace Disk

theorem nul_mem_of_refuse? {p : Path} (h : refuse? p = some .nulInPath) : '\x00' ∈ p.text.toList := by
  by_contra hnul
  have hcontains : p.text.toList.contains '\x00' = false := by simpa using hnul
  rw [refuse?, hcontains, if_neg Bool.false_ne_true] at h
  split at h
  · cases h
  · cases h

theorem nul_mem_of_readBytes {d : Disk} {p : Path} (h : d.readBytes p = .error .nulInPath) :
    '\x00' ∈ p.text.toList := by
  unfold readBytes at h
  split at h
  · next fault hr =>
    cases h
    exact nul_mem_of_refuse? hr
  · repeat' split at h
    all_goals cases h

theorem nul_mem_of_readText {d : Disk} {p : Path} {e : Encoding} (h : d.readText p e = .error .nulInPath) :
    '\x00' ∈ p.text.toList := by
  unfold readText at h
  split at h
  · next hb =>
    cases h
    exact nul_mem_of_readBytes hb
  · split at h
    · cases h
    · cases h

theorem nul_mem_of_load {d : Disk} {e : Encoding} {path : String}
    (h : (d.loader none e).load path = .error .nulInPath) : '\x00' ∈ path.toList := by
  have hread : d.readText (.ofText path) e = .error .nulInPath := by
    dsimp only [loader, loadImport] at h
    split at h
    · cases h
    · next hr => exact hr
    · cases h
  rcases Path.mem_of_mem_text (nul_mem_of_readText hread) with h | h | h
  · exact absurd h (by decide)
  · exact absurd h (by decide)
  · exact h

end Disk

namespace CommandLine.Options

variable {o : Options} {time : String} {disk : Disk} {text : String} {indent : Int} {place : Place}

/-- What the program makes of an input that can be read is what reading its text makes of it. -/
theorem report_result (hread : disk.readText o.inputPath .utf8 = .ok text) :
    (o.report time disk).result =
      (parse o.imports (disk.loader none .utf8) text (some o.inputPath.text)).result := by
  rw [report, Report.ofFile, hread]
  exact Report.result_ofText {} time o.imports o.verbose Event.debug (disk.loader none .utf8) text _

/-- A tree can be saved with an indentation that fits into a machine word, where a file can be written. -/
theorem exists_save (hindent : o.indent = some indent) (hlow : 0 ≤ indent) (hhigh : indent < Node.widthLimit)
    (htarget : disk.target o.outputPath = .ok place) (n : Node) : ∃ disk', o.save disk n = .ok disk' := by
  have hlayout : Node.layout (some indent) = .ok (.indented indent.toNat) := by
    rw [Node.layout, if_neg (Int.not_lt.2 hlow), if_neg (Int.not_le.2 hhigh)]
  rw [save, hindent]
  dsimp only [Node.dump]
  rw [hlayout]
  dsimp only [Except.map, Disk.writeText]
  rw [htarget]
  exact ⟨_, rfl⟩

theorem status_of_error {fault : Fault} (h : (o.report time disk).result = .error fault) :
    (o.run time disk).status = if fault.isOwn || fault.isFile then .ok 1 else .error fault := by
  unfold run
  simp only [h]
  split
  · rfl
  · rfl

theorem status_of_ok {n : Node} {disk' : Disk} (h : (o.report time disk).result = .ok n)
    (hsave : o.save disk n = .ok disk') : (o.run time disk).status = .ok 0 := by
  unfold run
  simp only [h, hsave]
  rfl

theorem status_cases (hread : disk.readText o.inputPath .utf8 = .ok text)
    (htarget : disk.target o.outputPath = .ok place) (hindent : o.indent = some indent) (hlow : 0 ≤ indent)
    (hhigh : indent < Node.widthLimit) :
    (o.run time disk).status = .ok 0 ∨ (o.run time disk).status = .ok 1 ∨
      ∃ fault, (o.run time disk).status = .error fault ∧
        (fault.OverlongIn (disk.loader none .utf8).library o.imports text ∨
          fault.NulImportIn (disk.loader none .utf8).library o.imports text) := by
  cases hresult : (o.report time disk).result with
  | ok n =>
    obtain ⟨disk', hsave⟩ := exists_save hindent hlow hhigh htarget n
    exact .inl (status_of_ok hresult hsave)
  | error fault =>
    rw [status_of_error hresult]
    rw [report_result hread] at hresult
    rcases parse_error_cases hresult with h | h | ⟨rfl, paths, file, path, hleads, himports, hl⟩
    · rw [h.isOwn]
      exact .inr (.inl rfl)
    · obtain ⟨paths, file, before, l, ls, hleads, hexpand, hv, hlong⟩ := h
      rw [hlong.isOwn.1, hlong.isOwn.2.1]
      exact .inr (.inr ⟨fault, rfl, .inl ⟨paths, file, before, l, ls, hleads, hexpand, hv, hlong⟩⟩)
    · have hexpand : o.imports = true := by
        cases he : o.imports with
        | true => rfl
        | false =>
          rw [he] at hresult
          exact absurd hresult parse_kept_ne_nulInPath
      exact .inr (.inr ⟨.nulInPath, rfl, .inr ⟨rfl, hexpand, paths, file, path, hleads, himports,
        Disk.nul_mem_of_load hl⟩⟩)

end CommandLine.Options

/-- **Reading fails as it is meant to, but for integers that are too long.** With settings of their kinds and a
loader whose texts are readable or not, a text is read to a tree, or the fault is one of the four that reading is
meant to have, or it is that of an integer that is too long; and where reading comes to such an integer, it does end
with that other fault. So with an input that can be read, an output that can be written and an indentation that the
writer takes, from zero up to its limit, the program ends with status zero or one, unless such an integer breaks it
off, or an import of a path that no file can have. -/
theorem reading_faults (time text : String) :
    (∀ (registry : Log.Registry) (expand logging : Bool) (level : Int) (loader : Loader) (source : Option String),
      (∀ path f, loader.load path = .error f → ∃ reason, f = .unreadable reason) →
      let result := (Report.ofText registry time (.plain expand logging level) loader text source).result
      ((∃ nodes, result = .ok (.rootOf nodes)) ∨
        ∃ fault, result = .error fault ∧ (fault.OfReading ∨ fault.OverlongIn loader.library expand text)) ∧
      ∀ before l ls fault,
        Visits (importRule expand loader (loader.origin source)) 0 (sourceLines text) before (l :: ls) →
        (Front.read l ls).construct.IsOverlong fault → result = .error fault ∧ ¬fault.OfReading) ∧
    ∀ (args : List String) (o : CommandLine.Options) (disk : Disk) (place : Place) (indent : Int),
      CommandLine.Options.ofArgs args = .ok o → disk.readText o.inputPath .utf8 = .ok text →
      disk.target o.outputPath = .ok place → o.indent = some indent → 0 ≤ indent → indent < Node.widthLimit →
      let status := (CommandLine.run args time disk).status
      status = .ok 0 ∨ status = .ok 1 ∨ ∃ fault, status = .error fault ∧
        (fault.OverlongIn (disk.loader none .utf8).library o.imports text ∨
          fault.NulImportIn (disk.loader none .utf8).library o.imports text) := by
  constructor
  · intro registry expand logging level loader source hload
    dsimp only
    rw [Report.result_ofText]
    refine ⟨?_, fun before l ls fault hv hlong => ⟨parse_of_overlong hv hlong, fun h => ?_⟩⟩
    · cases hparse : (parse expand loader text source).result with
      | ok tree =>
        obtain ⟨nodes, -, rfl⟩ := parse_ok_iff.1 hparse
        exact .inl ⟨nodes, rfl⟩
      | error fault =>
        refine .inr ⟨fault, rfl, ?_⟩
        rcases parse_error_cases hparse with h | h | ⟨-, paths, file, path, -, -, hl⟩
        · exact .inl h
        · exact .inr h
        · obtain ⟨reason, hreason⟩ := hload path _ hl
          cases hreason
    · have hown := h.isOwn
      rw [hlong.isOwn.1] at hown
      cases hown
  · intro args o disk place indent hargs hread htarget hindent hlow hhigh
    rw [CommandLine.run, hargs]
    exact CommandLine.Options.status_cases hread htarget hindent hlow hhigh

theorem Loader.unreadable_of_load_ofMemory {texts : List (String × Option String)}
    {aliases : List (String × String)} {path : String} {f : LoadFault}
    (h : (ofMemory texts aliases).load path = .error f) : ∃ reason, f = .unreadable reason := by
  dsimp only [ofMemory] at h
  split at h
  · exact ⟨_, (Except.error.inj h).symm⟩
  · exact ⟨_, (Except.error.inj h).symm⟩
  · cases h

/-- An import that is not there, with a log; and a file with a line of no known shape. -/
theorem reading_faults_missing :
    let loader := Loader.ofMemory [("a", none)] []
    let result := (Report.ofText {} "" (.plain true true 10) loader "@import \"a\"" none).result
    let disk : Disk := ⟨[], [(["f"], .file [111, 111, 112, 115])]⟩
    let status := (CommandLine.run ["f"] "" disk).status
    ((∃ nodes, result = .ok (.rootOf nodes)) ∨
      ∃ fault, result = .error fault ∧ (fault.OfReading ∨ fault.OverlongIn loader.library true "@import \"a\"")) ∧
    (status = .ok 0 ∨ status = .ok 1 ∨ ∃ fault, status = .error fault ∧
      (fault.OverlongIn (disk.loader none .utf8).library true "oops" ∨
        fault.NulImportIn (disk.loader none .utf8).library true "oops")) := by
  intro loader result disk status
  refine ⟨((reading_faults "" "@import \"a\"").1 {} true true 10 loader none
    fun path f h => Loader.unreadable_of_load_ofMemory h).1, ?_⟩
  exact (reading_faults "" "oops").2 ["f"] { input := "f" } disk ["f.json"] 2 (by decide +kernel) (by decide +kernel)
    (by decide +kernel) rfl (by decide) (by decide)

theorem parse_digits {expand : Bool} {loader : Loader} {source : Option String} {k : String} {ds : List Char}
    (hk : ∀ c ∈ k.toList, Line.isWordChar c = true) (hds : ∀ c ∈ ds, c.isDigit = true)
    (hlong : Numeral.digitLimit < ds.length) :
    (parse expand loader (String.ofList (k.toList ++ ':' :: ds)) source).result =
      .error (.overlongNumeral ds.length) := by
  have hdigit : ∀ c : Char, c.isDigit = false → c ∉ ds := fun c hc hm => by
    rw [hds c hm] at hc
    cases hc
  have hblank : ∀ c ∈ k.toList ++ ':' :: ds, Text.isBlank c = false := by
    intro c hc
    rw [List.mem_append, List.mem_cons] at hc
    rcases hc with hc | rfl | hc
    · exact Text.isBlank_of_isWordChar (hk c hc)
    · decide
    · exact Text.isBlank_of_isDigit (hds c hc)
  have htrim : Text.trim (k.toList ++ ':' :: ds) = k.toList ++ ':' :: ds := (Text.Tight.of_forall hblank).trim_eq
  have hlines : sourceLines (String.ofList (k.toList ++ ':' :: ds)) = [k.toList ++ ':' :: ds] := by
    have hnewline : '\n' ∉ k.toList ++ ':' :: ds := by
      simp [Line.not_mem_word hk (show Line.isWordChar '\n' = false by decide), hdigit '\n' (by decide)]
    have hslash : '/' ∉ k.toList ++ ':' :: ds := by
      simp [Line.not_mem_word hk (show Line.isWordChar '/' = false by decide), hdigit '/' (by decide)]
    rw [sourceLines, String.toList_ofList, Comment.erase_of_free (Comment.free_of_not_mem hslash),
      Text.lines_of_not_mem hnewline]
  have hconstruct : (Front.read (k.toList ++ ':' :: ds) []).construct = .prop k.toList ds := by
    rw [Front.read_shape (by rw [htrim]; simp), htrim, Line.read_colon hk (hdigit '{' (by decide)), Front.ofShape]
  have hoverlong : Number.IsOverlong ds ds.length := by
    rw [Number.IsOverlong, (Text.Tight.of_forall fun c hc => Text.isBlank_of_isDigit (hds c hc)).trim_eq]
    exact ⟨ds, .bare, hds, rfl, hlong⟩
  have hvisits : Visits (importRule expand loader (loader.origin source)) 0
      (sourceLines (String.ofList (k.toList ++ ':' :: ds))) 0 [k.toList ++ ':' :: ds] := by
    rw [hlines]
    exact .here
  exact parse_of_overlong hvisits (by rw [hconstruct]; exact .numeral hoverlong)

/-- More digits than may be read, with no fault that reading is meant to have. -/
theorem reading_faults_digits :
    let text := String.ofList ("k".toList ++ ':' :: List.replicate 4301 '1')
    (parse false (Loader.ofMemory [] []) text none).result = .error (.overlongNumeral 4301) ∧
      ¬(Fault.overlongNumeral 4301).OfReading := by
  refine ⟨?_, fun h => by cases h⟩
  have hds : ∀ c ∈ List.replicate 4301 '1', c.isDigit = true := by
    intro c hc
    rw [List.eq_of_mem_replicate hc]
    decide
  have hparse := @parse_digits false (Loader.ofMemory [] []) none "k" _ (List.all_eq_true.1 (by decide)) hds
    (by rw [List.length_replicate]; decide)
  rwa [List.length_replicate] at hparse

end DefTree
