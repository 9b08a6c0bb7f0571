/-
What a session that has the log to itself writes.

On a fresh registry the channel of a session has no level, no format and
nothing above it but the root, which writes nothing. The gate of the session
gives the channel the level and the format that it asks for; from then on,
whatever reaches that level is written once, on a line of its own
(`Serves.writeEvents`). Asking for levels changes nothing of this but the
answers that are remembered, so it holds for every text that the session
reads.

Every record of a run is of level debug at least. A session with a level
from one to debug therefore writes them all, and its log accounts for what it
reads (`log_accounts`).
-/
import DefTree.Proofs.Channels
import DefTree.Proofs.Records

namespace DefTree

open Log Log.Registry

/-- The gate that settings of their kinds ask for. -/
def Settings.plan (logging : Bool) (level : Int) : Plan := { name := "Kantara Parser", enabled := logging, level }

theorem Settings.gateConfig_plain (expand logging : Bool) (level : Int) :
    (plain expand logging level).gateConfig = (plan logging level).config := rfl

namespace Session

/-- A session that logs from a level on. -/
def logged (expand : Bool) (level : Int) : Session := ⟨.plain expand true level, (Settings.plan true level).gate⟩

/-- The channel that sessions log to. -/
def channel : String := "Kantara Parser"

theorem channel_plan (logging : Bool) (level : Int) : (Settings.plan logging level).channel = channel := by
  change (if "Kantara Parser".isEmpty then rootName else "Kantara Parser") = _
  decide

/-! ## Lines -/

/-- A record as the log of a session shows it. -/
def line (time : String) (record : Int × String) : String :=
  time ++ " - " ++ channel ++ " - " ++ levelName record.1 ++ " - " ++ record.2 ++ "\n"

/-- A field that is shown as it is. -/
def field (name : String) : Format.Piece := .field name { letter := 's' }

/-- The format that gates have by themselves, in pieces. -/
def pieces : List Format.Piece :=
  let dash := " - ".toList.map .literal
  field "asctime" :: dash ++ field "name" :: dash ++ field "levelname" :: dash ++ [field "message"]

theorem write?_field {fields : List (String × Text.Operand)} {name : String} {cs : List Char}
    (h : fields.lookup name = some (.text cs)) : (field name).write? fields = some cs := by
  rw [field, Format.Piece.write?, h]
  simp [Text.Conversion.write?, Text.Conversion.ofText?, Text.Conversion.pad, Text.Conversion.cut]

theorem inFormat_eq (time : String) (record : Int × String) :
    (⟨channel, record.1, record.2, time⟩ : Record).inFormat ({} : Plan).format = line time record := by
  have hpieces : Format.pieces? 0 ({} : Plan).format.toList = some pieces := by decide +kernel
  have hnamed : Format.wellNamed pieces = true := by decide +kernel
  rw [Record.inFormat, Format.fill?, hpieces]
  dsimp only
  rw [if_pos hnamed]
  generalize hr : (⟨channel, record.1, record.2, time⟩ : Record).fields = fields
  have htime : (field "asctime").write? fields = some time.toList := write?_field (by rw [← hr]; rfl)
  have hname : (field "name").write? fields = some channel.toList := write?_field (by rw [← hr]; rfl)
  have hlevel : (field "levelname").write? fields = some (levelName record.1).toList :=
    write?_field (by rw [← hr]; rfl)
  have hmessage : (field "message").write? fields = some record.2.toList := write?_field (by rw [← hr]; rfl)
  have hliteral (c : Char) : (Format.Piece.literal c).write? fields = some [c] := rfl
  rw [← String.toList_inj]
  simp [pieces, line, htime, hname, hlevel, hmessage, hliteral]

/-! ## Registries of a single session -/

/-- A registry that a single session writes to: its channel has the level and the format of its gate, and the
root writes nothing. -/
structure Serves (level : Int) (r : Registry) : Prop where
  sound : r.Sound
  has : r.Has channel
  level : (r.get channel).level = .whole level
  formats : (r.get channel).formats = [({} : Plan).format]
  root : (r.get rootName).formats = []

variable {level : Int} {r : Registry}

theorem attach_fresh (level : Int) :
    ∃ r, ({} : Registry).attach (Settings.plan true level).config = (r, .ok (Settings.plan true level).gate) ∧
      Serves level r := by
  have ha := attached Sound.fresh (Settings.plan true level)
  have hchannel := channel_plan true level
  have hfresh : (({} : Registry).get channel) = { name := channel } := get_fresh channel
  have hbare : (({} : Registry).get channel).formats = [] := by rw [hfresh]
  have hroot : rootName ≠ (Settings.plan true level).channel := by
    rw [hchannel]
    decide
  have hformat : formatOf (Settings.plan true level).config.format = .ok ({} : Plan).format := by
    change formatOf ({} : Plan).config.format = _
    decide +kernel
  have hgate : (({} : Registry).attach (Settings.plan true level).config).2 = .ok (Settings.plan true level).gate := by
    rw [ha.gate, hformat]
    split <;> rfl
  refine ⟨_, Prod.ext rfl hgate, ha.sound, (ha.has channel).2 (.inr hchannel.symm), ?_, ?_, ?_⟩
  · rw [ha.level, if_pos ⟨rfl, hchannel.symm⟩, hfresh]
    rfl
  · rw [ha.formats, if_pos ⟨rfl, hchannel.symm, hbare⟩, hformat]
    rfl
  · rw [ha.formats, if_neg fun h => hroot h.2.1, get_root]

/-- Beginning a session on a fresh registry gives a gate, and the registry serves it. -/
theorem exists_start (expand : Bool) (level : Int) :
    ∃ r, Session.start {} (.plain expand true level) = (r, .ok (logged expand level)) ∧ Serves level r := by
  obtain ⟨r, hattach, hserves⟩ := attach_fresh level
  refine ⟨r, ?_, hserves⟩
  rw [Session.start, Settings.gateConfig_plain, hattach]
  rfl

namespace Serves

theorem same {r' : Registry} (h : Serves level r) (hs : r'.Sound) (hsame : r.Same r') : Serves level r' where
  sound := hs
  has := (hsame.has _).2 h.has
  level := (hsame.level _).trans h.level
  formats := (hsame.formats _).trans h.formats
  root := (hsame.formats _).trans h.root

/-- There is nothing above the channel but the root. -/
theorem lineage (h : Serves level r) : r.lineage channel = [r.get channel, r.get rootName] := by
  have habove : namesAbove channel = [] := by decide +kernel
  rw [Registry.lineage, if_neg (by decide), channel?_eq_get h.has, get_root]
  split
  · rfl
  · next hp =>
    rw [parent?, habove] at hp
    cases hp

theorem emit (h : Serves level r) (time : String) (record : Int × String) :
    r.emit ⟨channel, record.1, record.2, time⟩ = line time record := by
  rw [Registry.emit]
  dsimp only
  rw [h.lineage, List.flatMap_cons, List.flatMap_cons, h.formats, h.root, List.map_singleton, inFormat_eq]
  simp

theorem passes (h : Serves level r) (hpos : 0 < level) {n : Int} (hn : level ≤ n) :
    ∃ r', r.passes (Settings.plan true level).gate n = .ok (r', true) ∧ Serves level r' := by
  have hhas : r.Has (Settings.plan true level).channel := channel_plan true level ▸ h.has
  have hlevel : (r.get (Settings.plan true level).channel).level.value = level := by
    rw [channel_plan, h.level]
    rfl
  obtain ⟨r', hp⟩ := h.sound.passes_gate hhas (by rw [hlevel]; omega) n
  have hyes : (true && (level ≤ n && (0 < n && level ≤ n) : Bool)) = true := by
    rw [Bool.true_and]
    simp only [Bool.and_eq_true, decide_eq_true_eq]
    omega
  rw [hlevel] at hp
  replace hp := hp.trans (congrArg (fun b => Except.ok (r', b)) hyes)
  obtain ⟨hs, hsame⟩ := h.sound.of_passes hhas hp
  exact ⟨r', hp, h.same hs hsame⟩

/-- **Everything that is reported is written**, in its order. -/
theorem writeEvents (time : String) {es : List Event} (hpos : 0 < level) : ∀ {r : Registry}, Serves level r →
    (∀ e ∈ es, ∀ record, e.report? = some record → level ≤ record.1) →
      ∃ r', r.writeEvents (Settings.plan true level).gate time es =
        .ok (r', String.join ((es.filterMap Event.report?).map (line time))) ∧ Serves level r' := by
  induction es with
  | nil => exact fun h _ => ⟨_, rfl, h⟩
  | cons e es ih =>
    intro r h hes
    rw [Log.Registry.writeEvents]
    have hrest : ∀ e ∈ es, ∀ record, e.report? = some record → level ≤ record.1 := fun e he =>
      hes e (List.mem_cons_of_mem _ he)
    cases hr : e.report? with
    | none =>
      rw [List.filterMap_cons_none hr]
      exact ih h hrest
    | some record =>
      obtain ⟨r', hp, h'⟩ := h.passes hpos (hes e List.mem_cons_self record hr)
      obtain ⟨r'', hw, h''⟩ := ih h' hrest
      refine ⟨r'', ?_, h''⟩
      have hwrite : r.write (Settings.plan true level).gate time record.1 record.2 =
          .ok (r', line time record) := by
        rw [Registry.write, hp, ← h'.emit]
        rfl
      rw [List.filterMap_cons_some hr, List.map_cons, String.join_cons]
      simp only [hwrite, hw]
      rfl

/-- A session that is served reads as it would without a log, and writes all records. -/
theorem report (h : Serves level r) (hlow : 1 ≤ level) (hhigh : level ≤ Event.debug) (expand : Bool) (time : String)
    (loader : Loader) (text : String) (source : Option String) :
    ∃ r', (logged expand level).report r time loader text source =
      { registry := r', log := String.join ((DefTree.parse expand loader text source).records.map (line time))
        loads := (DefTree.parse expand loader text source).loads
        result := (DefTree.parse expand loader text source).result } ∧
      Serves level r' := by
  obtain ⟨r', hw, h'⟩ := h.writeEvents time hlow fun e _ record hr =>
    Int.le_trans hhigh (Event.debug_le_of_report? (e := e) hr)
  refine ⟨r', ?_, h'⟩
  have hparse : (logged expand level).parse loader text source = DefTree.parse expand loader text source := rfl
  rw [Session.report, hparse, logged]
  dsimp only
  rw [hw]
  rfl

end Serves

/-- A session has the log to itself: it began on a fresh registry, and what the registry is now comes from the
texts that it has read. -/
inductive Alone (settings : Settings) (s : Session) : Registry → Prop where
  | start {r : Registry} (h : Session.start {} settings = (r, .ok s)) : Alone settings s r
  | next {r : Registry} (h : Alone settings s r) (time : String) (loader : Loader) (text : String)
      (source : Option String) : Alone settings s (s.report r time loader text source).registry

theorem Alone.serves {expand : Bool} {s : Session} (h : Alone (.plain expand true level) s r) (hlow : 1 ≤ level)
    (hhigh : level ≤ Event.debug) :
    s = logged expand level ∧ Serves level r := by
  induction h with
  | start h =>
    obtain ⟨r', hstart, hserves⟩ := exists_start expand level
    rw [hstart] at h
    cases h
    exact ⟨rfl, hserves⟩
  | next _ time loader text source ih =>
    obtain ⟨rfl, hserves⟩ := ih
    obtain ⟨r', hreport, hserves'⟩ := hserves.report hlow hhigh expand time loader text source
    rw [hreport]
    exact ⟨rfl, hserves'⟩

end Session

/-- Reading a text with a library in a session comes to a report: it is the report with a loader that has the
keys of the library and agrees with it on every path that reading asks for. -/
def Library.Reports (library : Library) (s : Session) (r : Registry) (time text : String) (source : Option String)
    (report : Report) : Prop :=
  ∃ loader : Loader, loader.key = library.key ∧
    (∀ path ∈ (s.parse loader text source).loads, loader.load path = library.load path) ∧
    s.report r time loader text source = report

/-- **The log accounts for what is read.** In a session that has the log to itself, with a level from one to
debug, reading a text with a library writes the records of the run with that library, all of them and each on
one line; and these account for the tree, or for the fault. -/
theorem log_accounts {expand : Bool} {level : Int} (hlow : 1 ≤ level) (hhigh : level ≤ 10) {s : Session} {r : Registry}
    (hs : s.Alone (.plain expand true level) r) {library : Library} {time text : String} {source : Option String}
    {report : Report} (h : library.Reports s r time text source report) :
    ∃ run, library.Reads expand text source run ∧ report.result = run.result ∧ report.loads = run.loads ∧
      report.log = String.join (run.records.map (Session.line time)) ∧ run.Accounts source := by
  obtain ⟨loader, hkey, hload, rfl⟩ := h
  obtain ⟨rfl, hserves⟩ := hs.serves hlow hhigh
  obtain ⟨r', hreport, -⟩ := hserves.report hlow hhigh expand time loader text source
  rw [hreport]
  exact ⟨parse expand loader text source, ⟨loader, hkey, hload, rfl⟩, rfl, rfl, rfl,
    parse_accounts expand loader text source⟩

/-- A section with an import of a text that cannot be read, in a text that is imported; a text was read before. -/
theorem log_accounts_nested :
    let loader := Loader.ofMemory [("a", some "s \x7b\n  @import \"b\"\n\x7d"), ("b", some "\noops")] []
    let s := Session.logged true 10
    ∃ r run, s.Alone (.plain true true 10) r ∧ run = parse true loader "@import \"a\"" none ∧
      (s.report r "now" loader "@import \"a\"" none).log = String.join (run.records.map (Session.line "now")) ∧
      run.Accounts none ∧ run.records = [(20, "Parsing <text>"), (20, "Expanding import 'a'"),
        (10, "Section 's' spanning lines 1-3"), (20, "Expanding import 'b'"),
        (40, "Unknown syntax in b at line 2: oops")] := by
  intro loader s
  obtain ⟨r, hstart, -⟩ := Session.exists_start true 10
  have halone := (Session.Alone.start hstart).next "then" loader "k: 1" (some "f")
  obtain ⟨run, hreads, -, -, hlog, haccounts⟩ := log_accounts (by decide) (by decide) halone
    (⟨loader, rfl, fun _ _ => rfl, rfl⟩ : loader.library.Reports s _ "now" "@import \"a\"" none _)
  obtain rfl := Library.reads_library_iff.1 hreads
  exact ⟨_, _, halone, rfl, hlog, haccounts, by decide +kernel⟩

end DefTree
