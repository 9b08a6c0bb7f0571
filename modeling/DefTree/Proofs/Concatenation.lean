/-
Texts one below the other.

Reading two texts as one is reading the first and then the second, unless a
block comment of the first is never closed or a block of it is: these two
reach on into whatever follows. A fault of the second text then names its
line further down, by the lines of the first (`Fault.below`); faults that
belong to an import name no line of it and stay as they are.
-/
import DefTree.Proofs.Comment
import DefTree.Proofs.Imports

namespace DefTree

/-! ## Comments -/

namespace Comment

/-- A comment that is closed does not look at what follows. -/
theorem afterClose?_append_of_some {cs rest : List Char} (h : afterClose? cs = some rest) (ds : List Char) :
    afterClose? (cs ++ ds) = some (rest ++ ds) := by
  fun_induction afterClose? cs with
  | case1 => cases h
  | case2 cs =>
    cases h
    rw [List.cons_append, List.cons_append, afterClose?]
  | case3 c cs hc ih =>
    rw [List.cons_append, afterClose?, ih h]
    rintro ds' rfl hd
    cases cs with
    | nil => cases h
    | cons d cs =>
      obtain ⟨rfl, -⟩ := List.cons.inj hd
      exact hc cs rfl rfl

/-- If no block comment is left open, the lines that follow are read by themselves. -/
theorem eraseBlock_append_of_closed {cs : List Char} (h : ¬HasPair '/' '*' (eraseBlock cs)) (ds : List Char) :
    eraseBlock (cs ++ '\n' :: ds) = eraseBlock cs ++ '\n' :: eraseBlock ds := by
  fun_induction eraseBlock cs with
  | case1 => exact eraseBlock_cons (by simp)
  | case2 cs rest hrest ih =>
    rw [List.cons_append, List.cons_append, eraseBlock]
    split
    · next rest' hrest' =>
      rw [afterClose?_append_of_some hrest] at hrest'
      cases hrest'
      exact ih h
    · next hnone =>
      rw [afterClose?_append_of_some hrest] at hnone
      cases hnone
  | case3 cs _ => exact absurd (hasPair_cons_iff.2 (.inl ⟨rfl, rfl⟩)) h
  | case4 c cs hc ih =>
    rw [hasPair_cons_iff, not_or] at h
    rw [List.cons_append, eraseBlock_cons, ih h.2, List.cons_append]
    rintro ⟨rfl, hd⟩
    cases cs with
    | nil => simp at hd
    | cons d cs =>
      simp only [List.cons_append, List.head?_cons, Option.some.injEq] at hd
      exact hc cs rfl (by rw [hd])

theorem erase_append {cs : List Char} (h : ¬HasPair '/' '*' (erase cs)) (ds : List Char) :
    erase (cs ++ '\n' :: ds) = erase cs ++ '\n' :: erase ds := by
  rw [erase, eraseLine_append, eraseBlock_append_of_closed h]
  rfl

end Comment

theorem sourceLines_append {a : String} (h : ¬Comment.HasPair '/' '*' (Comment.erase a.toList)) (b : String) :
    sourceLines (a ++ "\n" ++ b) = sourceLines a ++ sourceLines b := by
  have hcs : (a ++ "\n" ++ b).toList = a.toList ++ '\n' :: b.toList := by simp
  rw [sourceLines, hcs, Comment.erase_append h, Text.lines_append, sourceLines, sourceLines]

/-! ## Faults further down -/

/-- A fault as it is told when more lines stand before the text. A line that belongs to an import is not one
of them. -/
def Fault.below (k : Nat) : Fault → Fault
  | .misread m => .misread (if m.source = none then { m with line := m.line.map (· + (k : Int)) } else m)
  | f => f

theorem Fault.below_inSource (k : Nat) (path : String) (fault : Fault) :
    (fault.inSource path).below k = fault.inSource path := by
  cases fault with
  | misread m => cases hs : m.source <;> simp [inSource, below, hs]
  | _ => rfl

theorem Fault.below_unknownLine (k before : Nat) (text : List Char) :
    (Fault.unknownLine (before + 1) text).below k = .unknownLine ((before + k : Nat) + 1) text := by
  simp only [unknownLine, below, if_true, Option.map_some]
  congr 3
  omega

theorem Fault.below_unclosedBlock (k before line : Nat) (opener : List Char) :
    (Fault.unclosedBlock (before + line) opener).below k = .unclosedBlock ((before + k : Nat) + line) opener := by
  simp only [unclosedBlock, below, if_true, Option.map_some]
  congr 3
  omega

namespace Run

variable {α β : Type} {k : Nat}

/-- A run comes out as another one does when more lines stand before the text: with the same loads, and with
the same result but for the line that a fault names. -/
structure Below (k : Nat) (r s : Run α) : Prop where
  result : s.result = r.result.mapError (Fault.below k)
  loads : s.loads = r.loads

theorem Below.fixed {r : Run α} (h : ∀ fault, r.result = .error fault → fault.below k = fault) : Below k r r where
  result := by
    cases hr : r.result with
    | ok a => rfl
    | error fault => exact congrArg Except.error (h fault hr).symm
  loads := rfl

theorem Below.pure (a : α) : Below k (pure a) (pure a) := ⟨rfl, rfl⟩

theorem Below.emit (e e' : Event) (h : e'.loaded? = e.loaded?) : Below k (emit e) (emit e') where
  result := rfl
  loads := by simp [Run.loads, Run.emit, List.filterMap_cons, h]

theorem Below.fail (fault : Fault) : Below k (fail fault : Run α) (fail (fault.below k)) := ⟨rfl, rfl⟩

theorem Below.bind {r s : Run α} {f g : α → Run β} (h : Below k r s) (hf : ∀ a, Below k (f a) (g a)) :
    Below k (r >>= f) (s >>= g) := by
  cases hr : r.result with
  | error fault =>
    have hs : s.result = .error (fault.below k) := by rw [h.result, hr]; rfl
    exact ⟨by rw [result_bind_of_error hs, result_bind_of_error hr]; rfl,
      by rw [loads_bind_of_error hs, loads_bind_of_error hr, h.loads]⟩
  | ok a =>
    have hs : s.result = .ok a := by rw [h.result, hr]; rfl
    exact ⟨by rw [result_bind_of_ok hs, result_bind_of_ok hr, (hf a).result],
      by rw [loads_bind_of_ok hs, loads_bind_of_ok hr, h.loads, (hf a).loads]⟩

end Run

section

variable {rule : ImportRule} {k : Nat}

theorem buildConstruct_below (hrule : ∀ path deferred, (rule path deferred).Below k (rule path deferred))
    (before : Nat) (c : Construct)
    (hblock : ∀ name attributes block, c = .sect name attributes block → ∀ before,
      (buildLines rule before block).Below k (buildLines rule (before + k) block)) :
    (buildConstruct rule before c).Below k (buildConstruct rule (before + k) c) := by
  have hattributes (attributes : List Char) : (buildAttributes attributes).Below k (buildAttributes attributes) := by
    refine .fixed fun fault h => ?_
    obtain ⟨digits, rfl⟩ := exists_of_buildAttributes_error h
    rfl
  cases c with
  | blank => exact .pure []
  | func name arguments block => exact .fixed fun _ h => by cases h
  | ref path deferred => exact hrule _ _
  | unknown text =>
    have := Run.Below.fail (α := List Node) (k := k) (.unknownLine (before + 1) text)
    rwa [Fault.below_unknownLine] at this
  | openFunc line opener =>
    have := Run.Below.fail (α := List Node) (k := k) (.unclosedBlock (before + line) opener)
    rwa [Fault.below_unclosedBlock] at this
  | prop key value =>
    refine .bind (.fixed fun fault h => ?_) fun node => .pure [node]
    rcases exists_of_buildProp_error h with ⟨digits, rfl⟩ | rfl <;> rfl
  | openSect attributes opener =>
    refine .bind (hattributes attributes) fun _ => ?_
    have := Run.Below.fail (α := List Node) (k := k) (.unclosedBlock (before + 1) opener)
    rwa [show ((before : Int) + 1) = before + (1 : Nat) from rfl, Fault.below_unclosedBlock] at this
  | sect name attributes block =>
    refine .bind (hattributes attributes) fun a => .bind (.emit _ _ rfl) fun _ => ?_
    have := hblock name attributes block rfl (before + 1)
    rw [Nat.add_right_comm] at this
    exact .bind this fun children => .pure _

theorem buildLines_below (hrule : ∀ path deferred, (rule path deferred).Below k (rule path deferred))
    (ls : List (List Char)) : ∀ before, (buildLines rule before ls).Below k (buildLines rule (before + k) ls) := by
  induction ls using Front.induction with
  | nil => intro before; rw [buildLines_nil, buildLines_nil]; exact .pure []
  | cons l ls ih ihb =>
    intro before
    rw [buildLines_cons, buildLines_cons, Nat.add_right_comm]
    exact .bind (buildConstruct_below hrule before _ ihb) fun nodes => .bind (ih _) fun more => .pure _

end

/-- The faults of imports name no line of the text that imports. -/
theorem importRule_below (expand : Bool) (loader : Loader) (chain : List String) (k : Nat) (path : String)
    (deferred : Bool) : (importRule expand loader chain path deferred).Below k
      (importRule expand loader chain path deferred) := by
  refine .fixed fun fault h => ?_
  obtain ⟨-, -, h | ⟨_, fault', -, -, -, rfl⟩⟩ := importRule_error h
  · obtain ⟨-, ⟨-, rfl⟩ | ⟨f, -, rfl⟩⟩ := lookUpImport_error h
    · rfl
    · cases f <;> rfl
  · exact Fault.below_inSource k path fault'

/-! ## Faults that stay -/

/-- The block of a section that is never closed may be closed by more lines; its header stays the same. -/
theorem Front.read_append_of_openSect {l : List Char} {ls : List (List Char)} {attributes opener : List Char}
    (hc : (read l ls).construct = .openSect attributes opener) (more : List (List Char)) :
    (read l (ls ++ more)).construct = .openSect attributes opener ∨
      ∃ name block, (read l (ls ++ more)).construct = .sect name attributes block := by
  have hl : ∃ name, Line.read (Text.trim l) = .sect name attributes ∧ opener = Text.trim l := by
    have h := reads l ls
    generalize read l ls = f at h hc
    cases h <;> cases hc
    exact ⟨_, ‹_›, rfl⟩
  obtain ⟨name, hl, rfl⟩ := hl
  have hb : Text.trim l ≠ [] := by
    intro hb
    rw [hb] at hl
    cases hl
  rw [read_shape hb, hl]
  cases hs : Block.split? {} (ls ++ more) with
  | none => exact .inl (by simp only [ofShape, hs])
  | some p => exact .inr ⟨name, p.1, by simp only [ofShape, hs]⟩

/-- Lines whose building fails for another reason than a block that is never closed fail alike, whatever
follows them. -/
theorem buildLines_append_of_error {rule : ImportRule} {ls : List (List Char)} {fault : Fault}
    (hfault : ∀ m, fault = .misread m → m.complaint ≠ .unclosedBlock) (more : List (List Char)) :
    ∀ {before : Nat}, (buildLines rule before ls).result = .error fault →
      buildLines rule before (ls ++ more) = buildLines rule before ls := by
  induction ls using Front.induction with
  | nil =>
    intro before h
    rw [buildLines_nil] at h
    cases h
  | cons l ls ih _ =>
    intro before h
    rw [buildLines_cons] at h
    rw [List.cons_append, buildLines_cons, buildLines_cons]
    cases hopen : (Front.read l ls).construct.isOpen with
    | false =>
      rw [Front.read_append hopen]
      rcases Run.bind_error_iff.1 h with h | ⟨nodes, hc, h⟩
      · rw [Run.bind_of_error h, Run.bind_of_error h]
      · rcases Run.bind_error_iff.1 h with h | ⟨_, -, h⟩
        · simp only [ih h]
        · cases h
    | true =>
      cases hc : (Front.read l ls).construct with
      | openFunc line opener =>
        rw [hc] at h
        cases h
        exact absurd rfl (hfault _ rfl)
      | openSect attributes opener =>
        rw [hc] at h
        -- the header is read before its block is looked for
        cases ha : (buildAttributes attributes).result with
        | ok a =>
          simp only [buildConstruct, Run.result_bind_of_ok ha, bind_assoc, Run.fail_bind, Run.result_fail,
            Except.error.injEq] at h
          exact absurd rfl (hfault _ h.symm)
        | error e =>
          have hfails : ∀ c, (c = .openSect attributes opener ∨ ∃ name block, c = .sect name attributes block) →
              buildConstruct rule before c = ⟨(buildAttributes attributes).events, .error e⟩ := by
            rintro _ (rfl | ⟨name, block, rfl⟩) <;> exact Run.bind_of_error ha
          rw [hfails _ (Front.read_append_of_openSect hc more), hfails _ (.inl rfl)]
          rfl
      | _ => rw [hc] at hopen; cases hopen

/-! ## Whole texts -/

section

variable {expand : Bool} {loader : Loader} {a : String}

theorem parse_append_of_ok (hopen : ¬Comment.HasPair '/' '*' (Comment.erase a.toList)) {tree : Node}
    (ha : (parse expand loader a none).result = .ok tree) (b : String) :
    (parse expand loader (a ++ "\n" ++ b) none).loads =
        (parse expand loader a none).loads ++ (parse expand loader b none).loads ∧
      (parse expand loader (a ++ "\n" ++ b) none).result =
        ((parse expand loader b none).result.mapError (Fault.below (sourceLines a).length)).map
          fun t => .rootOf (tree.children ++ t.children) := by
  obtain ⟨nodes, hnodes, rfl⟩ := parse_ok_iff.1 ha
  have hbelow := buildLines_below (importRule_below expand loader (loader.origin none) (sourceLines a).length)
    (sourceLines b) 0
  rw [parse_loads, parse_loads, parse_loads, parse_result, parse_result]
  unfold buildText at hnodes ⊢
  rw [sourceLines_append hopen, buildLines_append hnodes, Run.loads_bind_of_ok hnodes,
    Run.result_bind_of_ok hnodes]
  constructor
  · congr 1
    rw [← hbelow.loads]
    cases h : (buildLines (importRule expand loader (loader.origin none)) (0 + (sourceLines a).length)
        (sourceLines b)).result with
    | error fault => rw [Run.loads_bind_of_error h]
    | ok more => rw [Run.loads_bind_of_ok h, Run.loads_pure, List.append_nil]
  · cases h : (buildLines (importRule expand loader (loader.origin none)) 0 (sourceLines b)).result with
    | error fault =>
      rw [Run.result_bind_of_error (by rw [hbelow.result, h]; rfl)]
      rfl
    | ok more =>
      rw [Run.result_bind_of_ok (by rw [hbelow.result, h]; rfl)]
      rfl

theorem parse_append_of_error (hopen : ¬Comment.HasPair '/' '*' (Comment.erase a.toList)) {fault : Fault}
    (hfault : ∀ m, fault = .misread m → m.complaint ≠ .unclosedBlock)
    (ha : (parse expand loader a none).result = .error fault) (b : String) :
    parse expand loader (a ++ "\n" ++ b) none = parse expand loader a none := by
  have hbuild : buildText (importRule expand loader (loader.origin none)) (a ++ "\n" ++ b) =
      buildText (importRule expand loader (loader.origin none)) a := by
    rw [buildText, sourceLines_append hopen]
    exact buildLines_append_of_error hfault _ (parse_error_iff.1 ha)
  rw [parse_eq, parse_eq, hbuild]

end

/-- **Reading is compositional.** Let a text leave no block comment open. If it can be read, then a text below
it is read after it: the children and the loads of the one come before those of the other, a fault of the
second text names its line further down by the lines of the first, and the fault of an import stays as it is.
If the first text cannot be read, and not for a block that is never closed, it fails alike whatever text is
below it. -/
theorem reads_append {library : Library} {expand : Bool} {a b : String}
    (hopen : ¬Comment.HasPair '/' '*' (Comment.erase a.toList)) {runA : Run Node}
    (hA : library.Reads expand a none runA) :
    (∀ treeA runB, runA.result = .ok treeA → library.Reads expand b none runB →
      ∃ run, library.Reads expand (a ++ "\n" ++ b) none run ∧ run.loads = runA.loads ++ runB.loads ∧
        (∀ treeB, runB.result = .ok treeB →
          run.result = .ok (.rootOf (treeA.children ++ treeB.children))) ∧
        (∀ m, runB.result = .error (.misread m) → m.source = none →
          run.result = .error (.misread { m with line := m.line.map (· + ((sourceLines a).length : Int)) })) ∧
        (∀ fault, runB.result = .error fault → (∀ m, fault = .misread m → m.source ≠ none) →
          run.result = .error fault)) ∧
    (∀ fault, runA.result = .error fault → (∀ m, fault = .misread m → m.complaint ≠ .unclosedBlock) →
      library.Reads expand (a ++ "\n" ++ b) none runA) := by
  constructor
  · intro treeA runB hok hB
    -- one loader for both texts
    have hparseA := hA.eq_restrict fun path hp => List.mem_append_left runB.loads hp
    have hparseB := hB.eq_restrict fun path hp => List.mem_append_right runA.loads hp
    rw [← hparseA] at hok
    obtain ⟨hloads, hresult⟩ := parse_append_of_ok hopen hok b
    rw [hparseA, hparseB] at hloads
    rw [hparseB] at hresult
    refine ⟨_, Library.reads_restrict fun path hp => hloads ▸ hp, hloads, fun treeB h => ?_, fun m h hs => ?_,
      fun fault h hf => ?_⟩
    · rw [hresult, h]
      rfl
    · rw [hresult, h]
      simp [Except.mapError, Except.map, Fault.below, hs]
    · rw [hresult, h]
      cases fault with
      | misread m => simp [Except.mapError, Except.map, Fault.below, hf m rfl]
      | _ => rfl
  · intro fault h hfault
    have hparse := hA.eq_restrict fun path hp => hp
    rw [← hparse] at h
    have happend := parse_append_of_error hopen hfault h b
    rw [hparse] at happend
    rw [← happend]
    exact Library.reads_restrict fun path hp => by rwa [happend] at hp

/-- A fault of the lower text, below a section with an import; and the same fault in the upper text. -/
theorem reads_append_unknownLine :
    let loader := Loader.ofMemory [("m", some "k: 1")] []
    let a := "s \x7b\n@import \"m\"\n\x7d // end"
    let b := "k: 2\noops"
    (parse true loader b none).result = .error (.unknownLine 2 "oops".toList) ∧
    (∃ run, loader.library.Reads true (a ++ "\n" ++ b) none run ∧ run.loads = ["m"] ∧
      run.result = .error (.unknownLine 5 "oops".toList)) ∧
    loader.library.Reads true (b ++ "\n" ++ a) none (parse true loader b none) := by
  intro loader a b
  have hA : loader.library.Reads true a none (parse true loader a none) := Library.reads_library_iff.2 rfl
  have hB : loader.library.Reads true b none (parse true loader b none) := Library.reads_library_iff.2 rfl
  have hfault : (parse true loader b none).result = .error (.unknownLine 2 "oops".toList) :=
    Run.result_eq_error_of_map (f := fun _ => ()) (by decide +kernel)
  have hok : (parse true loader a none).result.isOk = true := by decide +kernel
  obtain ⟨tree, htree⟩ := Run.exists_ok_of_isOk hok
  refine ⟨hfault, ?_, (reads_append (by decide +kernel) hB).2 _ hfault fun m hm => ?_⟩
  · obtain ⟨run, hrun, hloads, -, hbelow, -⟩ := (reads_append (by decide +kernel) hA).1 tree _ htree hB
    have hloadsA : (parse true loader a none).loads = ["m"] := by decide +kernel
    have hloadsB : (parse true loader b none).loads = [] := by decide +kernel
    have hlength : (sourceLines a).length = 3 := by decide +kernel
    refine ⟨run, hrun, by rw [hloads, hloadsA, hloadsB]; rfl, ?_⟩
    rw [hbelow _ hfault rfl, hlength]
    rfl
  · cases hm
    decide

end DefTree
