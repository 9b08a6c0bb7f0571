/-
What a run of the program leaves on the disk.

All that can fail comes before the one step that changes the disk: the input
is read, its imports are loaded, the tree is built and put into text, and
only then is a file written. So a run that does not end with status zero
leaves the disk as it was and prints nothing; one that does has written one
file, at the place of the output (`run_all_or_nothing`). Which imports a run
that succeeds has loaded follows from what they expand to
(`exists_load_of_parse_ok`).
-/
import DefTree.Proofs.Failure
import DefTree.Proofs.PathKey
import DefTree.Proofs.Traversal

namespace DefTree

/-! ## Loads of a tree that was built -/

section

variable {f : String → Option Expansion} {P : String → Prop}

mutual

theorem forall_mem_spliceNode (hf : ∀ path e, f path = some e → ∀ p ∈ e.2, P p) :
    ∀ (n : Node) {e : Expansion}, spliceNode f n = some e → ∀ p ∈ e.2, P p
  | .sect name type attributes children, e, h => by
    rw [spliceNode] at h
    obtain ⟨e', he', rfl⟩ := Option.map_eq_some_iff.1 h
    have hchildren := forall_mem_spliceNodes hf children he'
    exact hchildren
  | .ref name type path, e, h => by
    rw [spliceNode] at h
    split at h
    · exact hf path e h
    · cases h
      simp
  | .root .., e, h | .func .., e, h | .prop .., e, h => by
    cases h
    simp

theorem forall_mem_spliceNodes (hf : ∀ path e, f path = some e → ∀ p ∈ e.2, P p) :
    ∀ (ns : List Node) {e : Expansion}, spliceNodes f ns = some e → ∀ p ∈ e.2, P p
  | [], e, h => by
    cases h
    simp
  | n :: ns, e, h => by
    rw [spliceNodes] at h
    obtain ⟨e₁, he₁, h⟩ := Option.bind_eq_some_iff.1 h
    obtain ⟨e₂, he₂, rfl⟩ := Option.map_eq_some_iff.1 h
    intro p hp
    rcases List.mem_append.1 hp with hp | hp
    · exact forall_mem_spliceNode hf n he₁ p hp
    · exact forall_mem_spliceNodes hf ns he₂ p hp

end

end

theorem exists_load_of_expandPath (loader : Loader) (chain : List String) (path : String) {e : Expansion}
    (h : expandPath loader chain path = some e) : ∀ p ∈ e.2, ∃ text, loader.load p = .ok text := by
  rw [expandPath] at h
  by_cases hc : loader.key path ∈ chain
  · rw [if_pos hc] at h
    cases h
  rw [if_neg hc] at h
  cases hl : loader.load path with
  | error fault =>
    rw [hl] at h
    cases h
  | ok text =>
    rw [hl] at h
    obtain ⟨ns, -, h⟩ := Option.bind_eq_some_iff.1 h
    obtain ⟨e', he', rfl⟩ := Option.map_eq_some_iff.1 h
    rw [expand_eq] at he'
    intro p hp
    rcases List.mem_cons.1 hp with rfl | hp
    · exact ⟨text, hl⟩
    · exact forall_mem_spliceNodes
        (fun path' _ h' => exists_load_of_expandPath loader (chain ++ [loader.key path]) path' h') ns he' p hp
termination_by loader.unused chain
decreasing_by exact Loader.unused_append_lt (loader.covers hl) hc

/-- **Reading succeeds only if every text that it asks for can be loaded.** -/
theorem exists_load_of_parse_ok {expand : Bool} {loader : Loader} {text : String} {source : Option String}
    {tree : Node} (h : (parse expand loader text source).result = .ok tree) :
    ∀ p ∈ (parse expand loader text source).loads, ∃ text, loader.load p = .ok text := by
  obtain ⟨nodes, hnodes, -⟩ := parse_ok_iff.1 h
  have hsuccess := Run.success?_of_ok hnodes
  rw [buildText_success? (fun _ => rfl) (fun _ => rfl)] at hsuccess
  obtain ⟨ns, -, hsplice⟩ := Option.bind_eq_some_iff.1 hsuccess
  rw [parse_loads]
  refine forall_mem_spliceNodes (fun path e he => ?_) ns hsplice
  cases expand with
  | true => exact exists_load_of_expandPath loader _ path ((success?_expandImport loader _ path).symm.trans he)
  | false =>
    obtain rfl : ([.refOf path], []) = e := Option.some.inj he
    simp

/-! ## One file on the disk -/

namespace Disk

variable {d : Disk} {p q : Place}

theorem lookup_put_self (p : Place) (e : Entry) : ∀ es, (put p e es).lookup p = some e
  | [] => by rw [put, List.lookup_cons, beq_self_eq_true]
  | (q, f) :: es => by
    rw [put]
    split
    · next h => rw [h, List.lookup_cons, beq_self_eq_true]
    · next h =>
      rw [List.lookup_cons, beq_false_of_ne (Ne.symm h)]
      exact lookup_put_self p e es

theorem lookup_put_of_ne (h : q ≠ p) (e : Entry) : ∀ es, (put p e es).lookup q = es.lookup q
  | [] => by rw [put, List.lookup_cons, beq_false_of_ne h]
  | (r, f) :: es => by
    rw [put]
    split
    · next hr => rw [hr, List.lookup_cons, List.lookup_cons, beq_false_of_ne h]
    · rw [List.lookup_cons, List.lookup_cons, lookup_put_of_ne h e es]

theorem get?_insert_self (hp : p ≠ []) (e : Entry) : (d.insert p e).get? p = some e := by
  cases p with
  | nil => exact absurd rfl hp
  | cons name dir => exact lookup_put_self (name :: dir) e d.entries

theorem get?_insert_of_ne (h : q ≠ p) (e : Entry) : (d.insert p e).get? q = d.get? q := by
  cases q with
  | nil => rfl
  | cons name dir => exact lookup_put_of_ne h e d.entries

/-- Where a path can have a file written is the place that it leads to, and not the root. -/
theorem eq_place_of_target {p : Path} {place : Place} (h : d.target p = .ok place) :
    place = p.place d.cwd ∧ place ≠ [] := by
  unfold target at h
  split at h
  · cases h
  dsimp only at h
  split at h
  · cases h
  next dir hwalk =>
  split at h
  · cases h
  · cases h
  split at h
  · cases h
  next hname =>
  split at h
  · cases h
  split at h
  · cases h
  cases h
  have hparts : p.parts ≠ [] := by
    intro hnil
    rw [hnil] at hname
    exact hname rfl
  have hlast : p.parts = p.parts.dropLast ++ [p.parts.getLastD ".."] := by
    rw [List.getLastD_eq_getLast?, List.getLast?_eq_some_getLast hparts, Option.getD_some,
      List.dropLast_concat_getLast]
  refine ⟨?_, List.cons_ne_nil _ _⟩
  have hplace : p.place d.cwd = (p.start d.cwd).follow (p.parts.dropLast ++ [p.parts.getLastD ".."]) :=
    congrArg _ hlast
  rw [hplace, Place.follow_append, ← eq_follow_of_walk hwalk, Place.follow, if_neg hname, Place.follow]

end Disk

/-! ## The program -/

namespace CommandLine

namespace Options

variable {o : Options} {time : String} {disk : Disk}

/-- The output: the one that is given if it is not empty, else the input with `.json` after it. -/
def outputText (o : Options) : String := (o.output.filter (· ≠ "")).getD (o.input ++ ".json")

theorem outputPath_eq (o : Options) : o.outputPath = .ofText o.outputText := by
  unfold outputPath outputText
  cases o.output with
  | none => rfl
  | some s =>
    by_cases h : s = ""
    · rw [h]
      rfl
    · simp [Option.filter, h]

/-- The text of a tree as JSON, in the indentation that was asked for. -/
def json (o : Options) (n : Node) : Except Fault String :=
  match o.indent with
  | none => .error .noIndent
  | some indent => n.dump (some indent)

/-- Reading a text as the program does. -/
def reading (o : Options) (disk : Disk) (text : String) : Run Node :=
  parse o.imports (disk.loader none .utf8) text (some o.inputPath.text)

/-- What can go wrong before anything is written: the input cannot be read, its text cannot, an import that
is asked for cannot be loaded, or the tree cannot be put into text. -/
inductive Fails (o : Options) (disk : Disk) : Prop where
  | input {fault} (h : disk.readText o.inputPath .utf8 = .error fault)
  | text {text fault} (hread : disk.readText o.inputPath .utf8 = .ok text)
      (h : (o.reading disk text).result = .error fault)
  | load {text path fault} (hread : disk.readText o.inputPath .utf8 = .ok text)
      (hp : path ∈ (o.reading disk text).loads) (h : (disk.loader none .utf8).load path = .error fault)
  | dump {text tree fault} (hread : disk.readText o.inputPath .utf8 = .ok text)
      (hparse : (o.reading disk text).result = .ok tree) (h : o.json tree = .error fault)

theorem save_ok_iff {n : Node} {disk' : Disk} : o.save disk n = .ok disk' ↔ ∃ json place, o.json n = .ok json ∧
    disk.target o.outputPath = .ok place ∧ disk' = disk.insert place (.file (Encoding.encode (json ++ "\n"))) := by
  unfold save Options.json
  cases o.indent with
  | none => simp
  | some indent =>
    dsimp only
    cases n.dump (some indent) with
    | error fault => simp
    | ok json =>
      dsimp only [Disk.writeText]
      cases disk.target o.outputPath with
      | error fault => simp [Except.map]
      | ok place => simp [Except.map, eq_comm]

theorem exists_of_report_ok {n : Node} (h : (o.report time disk).result = .ok n) :
    ∃ text, disk.readText o.inputPath .utf8 = .ok text ∧ (o.reading disk text).result = .ok n := by
  cases hread : disk.readText o.inputPath .utf8 with
  | error fault =>
    rw [report, Report.ofFile, hread] at h
    cases h
  | ok text => exact ⟨text, rfl, (report_result hread).symm.trans h⟩

theorem run_cases (o : Options) (time : String) (disk : Disk) :
    (∃ n disk', (o.report time disk).result = .ok n ∧ o.save disk n = .ok disk' ∧ (o.run time disk).status = .ok 0 ∧
      (o.run time disk).disk = disk' ∧ (o.run time disk).stdout = o.success n) ∨
    (((o.run time disk).status = .ok 1 ∨ ∃ fault, (o.run time disk).status = .error fault) ∧
      (o.run time disk).disk = disk ∧ (o.run time disk).stdout = "") := by
  unfold run
  dsimp only
  split
  · next n disk' hsaved =>
    split at hsaved
    · cases hsaved
    · next n' hresult =>
      cases hsave : o.save disk n' with
      | error fault =>
        rw [hsave] at hsaved
        cases hsaved
      | ok saved =>
        rw [hsave] at hsaved
        cases hsaved
        exact .inl ⟨n, disk', hresult, hsave, rfl, rfl, rfl⟩
  · next fault _ =>
    split
    · exact .inr ⟨.inl rfl, rfl, rfl⟩
    · exact .inr ⟨.inr ⟨fault, rfl⟩, rfl, rfl⟩

/-- A run that ends with status zero has read the input, built its tree and written it. -/
theorem exists_of_status_eq_zero (h : (o.run time disk).status = .ok 0) : ∃ text tree json place,
    disk.readText o.inputPath .utf8 = .ok text ∧ (o.reading disk text).result = .ok tree ∧ o.json tree = .ok json ∧
      disk.target o.outputPath = .ok place ∧
      (o.run time disk).disk = disk.insert place (.file (Encoding.encode (json ++ "\n"))) ∧
      (o.run time disk).stdout = o.success tree := by
  rcases o.run_cases time disk with ⟨tree, disk', hresult, hsave, -, hdisk, hout⟩ | ⟨h1 | ⟨fault, hf⟩, -⟩
  · obtain ⟨text, hread, hparse⟩ := exists_of_report_ok hresult
    obtain ⟨json, place, hjson, htarget, rfl⟩ := save_ok_iff.1 hsave
    exact ⟨text, tree, json, place, hread, hparse, hjson, htarget, hdisk, hout⟩
  · rw [h1] at h
    cases h
  · rw [hf] at h
    cases h

theorem Fails.status_ne_zero (hfails : o.Fails disk) : (o.run time disk).status ≠ .ok 0 := by
  intro h
  obtain ⟨text, tree, json, -, hread, hparse, hjson, -⟩ := exists_of_status_eq_zero h
  have hsame : ∀ {text'}, disk.readText o.inputPath .utf8 = .ok text' → text' = text := fun hread' =>
    Except.ok.inj (hread'.symm.trans hread)
  cases hfails with
  | input h' =>
    rw [hread] at h'
    cases h'
  | text hread' h' =>
    rw [hsame hread', hparse] at h'
    cases h'
  | load hread' hp h' =>
    rw [hsame hread'] at hp
    obtain ⟨text', hl⟩ := exists_load_of_parse_ok hparse _ hp
    rw [hl] at h'
    cases h'
  | dump hread' hparse' h' =>
    rw [hsame hread', hparse] at hparse'
    rw [← Except.ok.inj hparse', hjson] at h'
    cases h'

theorem success_eq (o : Options) (n : Node) : o.success n =
    (if o.tree then String.join ((n.preorder 0).map (Node.line 0)) else "") ++
      "Wrote output to " ++ (Path.ofText o.outputText).text ++ "\n" := by
  have hlisting : n.listing 0 = (n.preorder 0).map (Node.line 0) := Node.listing_eq 0 n 0
  rw [success, hlisting, outputPath_eq]

end Options

end CommandLine

/-- **A run writes one file or none.** If the input cannot be read, if its text cannot, if an import that is
asked for cannot be loaded or if the tree cannot be put into text, the status is not zero. Whenever it is not,
it is one, or a fault breaks the run off; the disk is as it was, and nothing is printed. If it is zero, then the
file at the place of the output holds the JSON text of the tree that the input was read to, with a line feed
after it, and everything else on the disk is as it was; what is printed is the listing of the tree, if that was
asked for, and a line that names the output. -/
theorem run_all_or_nothing {args : List String} {o : CommandLine.Options}
    (hargs : CommandLine.Options.ofArgs args = .ok o) (time : String) (disk : Disk) :
    let out := CommandLine.run args time disk
    let output : Path := .ofText o.outputText
    (o.Fails disk → out.status ≠ .ok 0) ∧
    (out.status ≠ .ok 0 →
      (out.status = .ok 1 ∨ ∃ fault, out.status = .error fault) ∧ out.disk = disk ∧ out.stdout = "") ∧
    (out.status = .ok 0 → ∃ text tree json, disk.readText o.inputPath .utf8 = .ok text ∧
      (o.reading disk text).result = .ok tree ∧ o.json tree = .ok json ∧
      out.disk.get? (output.place disk.cwd) = some (.file (Encoding.encode (json ++ "\n"))) ∧
      (∀ place, place ≠ output.place disk.cwd → out.disk.get? place = disk.get? place) ∧
      out.disk.cwd = disk.cwd ∧
      out.stdout = (if o.tree then String.join ((tree.preorder 0).map (Node.line 0)) else "") ++
        "Wrote output to " ++ output.text ++ "\n") := by
  intro out output
  have hout : out = o.run time disk := by
    show CommandLine.run args time disk = _
    rw [CommandLine.run, hargs]
  rw [hout]
  refine ⟨fun h => h.status_ne_zero, fun h => ?_, fun h => ?_⟩
  · rcases o.run_cases time disk with ⟨_, _, -, -, hzero, -⟩ | hfail
    · exact absurd hzero h
    · exact hfail
  · obtain ⟨text, tree, json, place, hread, hparse, hjson, htarget, hdisk, hstdout⟩ :=
      CommandLine.Options.exists_of_status_eq_zero h
    rw [o.outputPath_eq] at htarget
    obtain ⟨rfl, hne⟩ := Disk.eq_place_of_target htarget
    rw [hdisk]
    exact ⟨text, tree, json, hread, hparse, hjson, Disk.get?_insert_self hne _,
      fun place hplace => Disk.get?_insert_of_ne hplace _, rfl, hstdout.trans (o.success_eq tree)⟩

/-- A tree that is written and listed; and the same input with an import that is not there. -/
theorem run_all_or_nothing_listed :
    let args := ["f", "-o", "t", "--tree", "--indent=0"]
    let good : Disk := ⟨[], [(["f"], .file (Encoding.encode "s \x7b\nk: 1\n\x7d\n"))]⟩
    let bad : Disk := ⟨[], [(["f"], .file (Encoding.encode "s \x7b\n@import x\n\x7d\n"))]⟩
    let out := CommandLine.run args "" good
    (out.status = .ok 0 ∧ (∃ json, out.disk.get? ["t"] = some (.file (Encoding.encode (json ++ "\n")))) ∧
      (∀ place, place ≠ ["t"] → out.disk.get? place = good.get? place)) ∧
    (CommandLine.run args "" bad).status ≠ .ok 0 ∧ (CommandLine.run args "" bad).disk = bad := by
  intro args good bad out
  have hargs : CommandLine.Options.ofArgs args =
      .ok { input := "f", output := some "t", indent := some 0, tree := true } := by decide +kernel
  have hzero : out.status = .ok 0 := by decide +kernel
  obtain ⟨-, -, hok⟩ := run_all_or_nothing hargs "" good
  obtain ⟨-, -, json, -, -, -, hwritten, hothers, -⟩ := hok hzero
  have hread : bad.readText (Path.ofText "f") .utf8 = .ok "s \x7b\n@import x\n\x7d\n" := by decide +kernel
  have hload : (bad.loader none .utf8).load "x" =
      .error (.unreadable (some "[Errno 2] No such file or directory: 'x'")) := by decide +kernel
  obtain ⟨hfails, hfail, -⟩ := run_all_or_nothing hargs "" bad
  have hone : (CommandLine.run args "" bad).status ≠ .ok 0 := hfails (.load hread (by decide +kernel) hload)
  have hplace : (Path.ofText "t").place [] = ["t"] := by decide +kernel
  exact ⟨⟨hzero, ⟨json, hplace ▸ hwritten⟩, fun place h => hothers place (hplace ▸ h)⟩, hone, (hfail hone).2.1⟩

/-- An output that is given and empty is not where the tree is written. -/
theorem run_empty_output :
    let args := ["f", "-o", ""]
    let disk : Disk := ⟨[], [(["f"], .file (Encoding.encode "k: 1\n"))]⟩
    let out := CommandLine.run args "" disk
    CommandLine.Options.ofArgs args = .ok { input := "f", output := some "" } ∧ out.status = .ok 0 ∧
      ¬∀ place, place ≠ (Path.ofText "").place disk.cwd → out.disk.get? place = disk.get? place := by
  intro args disk out
  refine ⟨by decide +kernel, by decide +kernel, fun h => ?_⟩
  have hwritten : out.disk.get? ["f.json"] ≠ disk.get? ["f.json"] := by decide +kernel
  exact hwritten (h ["f.json"] (by decide +kernel))

end DefTree
