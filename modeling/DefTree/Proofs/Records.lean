/-
What a run reports.

The builder tells of every node once, and of every import before it asks for
its text; `Run.Tells` counts along, `n` being the number of nodes told of so
far, and holds of all that is built, in sections and in imports
(`importRule_tells`). What it tells of says nothing about the beginning or the
end: these are two records around it, and the second of them is the only
place where a fault is reported, whatever it has passed through.

`parse_accounts` puts this together: the records of a run account for its
tree, or for its fault.
-/
import DefTree.Proofs.Failure
import DefTree.Proofs.Provenance

namespace DefTree

namespace Event

/-- Whether an event tells of a node. -/
def isNode : Event → Bool
  | .kept _ | .func .. | .sect .. | .prop .. => true
  | _ => false

/-- Whether an event tells that an import is expanded. -/
def isExpanding : Event → Bool
  | .expanding _ => true
  | _ => false

/-- Whether an event happens between the beginning and the end of reading. -/
def isInner : Event → Bool
  | .started _ | .finished _ | .failed _ => false
  | _ => true

/-- Whether the message of a record begins with some words. -/
def beginsWith (words : String) (record : Int × String) : Bool := words.toList.isPrefixOf record.2.toList

end Event

namespace Run

variable {α β : Type}

/-- The records of a run: the level and the message of each event that is reported. -/
def records (r : Run α) : List (Int × String) := r.events.filterMap Event.report?

/-- What a part of building tells, `n` nodes having been told of before: it neither begins nor ends reading, it
tells of an import for every text that it asks for, and if it succeeds then it has told of the nodes that
`count` makes of its result. -/
structure Tells (r : Run α) (n : Nat) (count : α → Nat) : Prop where
  inner : ∀ e ∈ r.events, e.isInner = true
  expanding : r.events.countP Event.isExpanding = r.loads.length
  nodes : ∀ a, r.result = .ok a → n + r.events.countP Event.isNode = count a

/-- A run tells of each node that it returns and of each below it. -/
def TellsAll (r : Run (List Node)) : Prop := ∀ n, r.Tells n fun ns => n + (Node.allOf ns).length

theorem Tells.pure {n : Nat} {count : α → Nat} {a : α} (h : n = count a) : (pure a : Run α).Tells n count where
  inner e he := by cases he
  expanding := rfl
  nodes b hb := by cases hb; exact h

theorem Tells.fail {n : Nat} {count : α → Nat} (fault : Fault) : (fail fault : Run α).Tells n count where
  inner e he := by cases he
  expanding := rfl
  nodes b hb := by cases hb

theorem Tells.bind {n : Nat} {count : α → Nat} {count' : β → Nat} {r : Run α} {f : α → Run β}
    (h : r.Tells n count) (hf : ∀ a, (f a).Tells (count a) count') : (r >>= f).Tells n count' := by
  cases hr : r.result with
  | error fault =>
    rw [bind_of_error hr]
    exact ⟨h.inner, h.expanding, fun b hb => by cases hb⟩
  | ok a =>
    refine ⟨fun e he => ?_, ?_, fun b hb => ?_⟩
    · rw [bind_of_ok hr, List.mem_append] at he
      exact he.elim (h.inner e) ((hf a).inner e)
    · rw [loads_bind_of_ok hr, bind_of_ok hr, List.countP_append, List.length_append, h.expanding,
        (hf a).expanding]
    · rw [result_bind_of_ok hr] at hb
      rw [bind_of_ok hr, List.countP_append, ← Nat.add_assoc, h.nodes a hr, (hf a).nodes b hb]

theorem Tells.mapFault {n : Nat} {count : α → Nat} {r : Run α} (h : r.Tells n count) (f : Fault → Fault) :
    (r.mapFault f).Tells n count where
  inner := h.inner
  expanding := h.expanding
  nodes a ha := by
    refine h.nodes a ?_
    cases hr : r.result with
    | error fault => rw [Run.mapFault, hr] at ha; cases ha
    | ok b => rw [Run.mapFault, hr] at ha; exact ha

theorem Tells.emit {n : Nat} {e : Event} (h : e.isNode = true) : (Run.emit e).Tells n fun _ => n + 1 := by
  cases e with
  | kept | func | sect | prop => exact ⟨by simp [Run.emit, Event.isInner], rfl, fun _ _ => rfl⟩
  | _ => cases h

theorem Tells.expand {n : Nat} {count : α → Nat} {r : Run α} (h : r.Tells n count) (path : String) :
    (do Run.emit (.expanding path); Run.emit (.loading path); r).Tells n count := by
  have hrun : (do Run.emit (.expanding path); Run.emit (.loading path); r : Run α) =
      ⟨.expanding path :: .loading path :: r.events, r.result⟩ := rfl
  have hexpanding := h.expanding
  rw [loads] at hexpanding
  rw [hrun]
  refine ⟨?_, ?_, h.nodes⟩
  · simpa [Event.isInner] using h.inner
  · simp [loads, List.countP_cons, List.filterMap_cons, Event.isExpanding, Event.loaded?, hexpanding]

end Run

/-! ## Building -/

section

variable {rule : ImportRule}

theorem buildProp_tells (key value : List Char) (n : Nat) :
    (buildProp key value).Tells n fun node => n + (Node.allOf [node]).length := by
  unfold buildProp
  split
  · exact .fail _
  · split
    · exact .fail _
    · exact (Run.Tells.emit rfl).bind fun _ => .pure rfl

theorem buildFunc_tells (name : List Char) (arguments block : List (List Char)) (n : Nat) :
    (buildFunc name arguments block).Tells n fun node => n + (Node.allOf [node]).length :=
  (Run.Tells.emit rfl).bind fun _ => .pure rfl

theorem buildAttributes_tells (attributes : List Char) (n : Nat) :
    (buildAttributes attributes).Tells n fun _ => n := by
  unfold buildAttributes
  split
  · exact .fail _
  · exact .pure rfl

theorem buildConstruct_tells (hrule : ∀ path deferred, (rule path deferred).TellsAll) (before : Nat) (c : Construct)
    (hblock : ∀ name attributes block, c = .sect name attributes block → ∀ before,
      (buildLines rule before block).TellsAll) : (buildConstruct rule before c).TellsAll := by
  intro n
  cases c with
  | blank => exact .pure rfl
  | unknown text => exact .fail _
  | openFunc line opener => exact .fail _
  | openSect attributes opener => exact (buildAttributes_tells attributes n).bind fun _ => .fail _
  | ref path deferred => exact hrule _ deferred n
  | prop key value => exact (buildProp_tells key value n).bind fun _ => .pure rfl
  | func name arguments block => exact (buildFunc_tells name arguments block n).bind fun _ => .pure rfl
  | sect name attributes block =>
    refine (buildAttributes_tells attributes n).bind fun a => (Run.Tells.emit rfl).bind fun _ => ?_
    refine (hblock name attributes block rfl (before + 1) (n + 1)).bind fun children => .pure ?_
    rw [Node.allOf_singleton, Node.sectOf, Node.descendants, List.length_cons]
    omega

/-- **Building tells of every node**, if the rule for imports does. -/
theorem buildLines_tells (hrule : ∀ path deferred, (rule path deferred).TellsAll) (ls : List (List Char)) :
    ∀ before, (buildLines rule before ls).TellsAll := by
  induction ls using Front.induction with
  | nil =>
    intro before n
    rw [buildLines_nil]
    exact .pure rfl
  | cons l ls ih ihb =>
    intro before n
    rw [buildLines_cons]
    refine (buildConstruct_tells hrule before _ ihb n).bind fun xs => (ih _ _).bind fun ys => .pure ?_
    rw [Node.allOf_append, List.length_append, Nat.add_assoc]

end

theorem expandImport_tells (loader : Loader) (chain : List String) (path : String) :
    (expandImport loader chain path).TellsAll := by
  intro n
  rw [expandImport_eq]
  by_cases hc : loader.key path ∈ chain
  · rw [if_pos hc]
    exact .fail _
  rw [if_neg hc]
  refine Run.Tells.expand ?_ path
  cases hl : loader.load path with
  | error fault => exact .fail _
  | ok text =>
    refine (buildLines_tells ?_ _ 0 n).mapFault _
    intro path' deferred
    cases deferred with
    | true => exact fun n => (Run.Tells.emit rfl).bind fun _ => .pure rfl
    | false => exact expandImport_tells loader (chain ++ [loader.key path]) path'
termination_by loader.unused chain
decreasing_by exact Loader.unused_append_lt (loader.covers hl) hc

theorem importRule_tells (expand : Bool) (loader : Loader) (chain : List String) (path : String) (deferred : Bool) :
    (importRule expand loader chain path deferred).TellsAll := by
  unfold importRule
  split
  · exact fun n => (Run.Tells.emit rfl).bind fun _ => .pure rfl
  · exact expandImport_tells loader chain path

/-! ## Messages -/

namespace Event

/-- A message that differs from some words within its front does not begin with them. -/
theorem beginsWith_append {words front : String}
    (h : (words.toList.zip front.toList).any (fun p => p.1 != p.2) = true) (level : Int) (rest : String) :
    beginsWith words (level, front ++ rest) = false := by
  rw [beginsWith, String.toList_append]
  generalize words.toList = ws at h
  generalize front.toList = fs at h
  induction ws generalizing fs with
  | nil => cases h
  | cons w ws ih =>
    cases fs with
    | nil => cases h
    | cons f fs =>
      rw [List.zip_cons_cons, List.any_cons, Bool.or_eq_true, bne_iff_ne] at h
      rw [List.cons_append, List.isPrefixOf_cons_cons, Bool.and_eq_false_iff]
      exact h.imp (by simp) (ih fs)

theorem report?_started (source : Option String) :
    (started source).report? = some (info, "Parsing " ++ (source.filter (!·.isEmpty)).getD "<text>") := by
  cases source with
  | none => rfl
  | some s => cases hs : s.isEmpty <;> simp [report?, Option.filter, hs]

theorem debug_le_of_report? {e : Event} {record : Int × String} (h : e.report? = some record) : debug ≤ record.1 := by
  have hinfo : debug ≤ info := by decide
  have herror : debug ≤ error := by decide
  cases e with
  | loading => cases h
  | failed => cases h; exact herror
  | started | expanding | finished => cases h; exact hinfo
  | kept | func | sect | prop => cases h; exact Int.le_refl debug

/-- Between the beginning and the end, the records of level debug are those of nodes, and the wording tells the
imports that are expanded. -/
theorem report?_inner {e : Event} (h : e.isInner = true) :
    (∀ record, e.report? = some record → record.1 ≠ error ∧ beginsWith "Parsed" record = false) ∧
    (e.report?.map (·.1 == debug)).getD false = e.isNode ∧
    (e.report?.map (beginsWith "Expanding import")).getD false = e.isExpanding := by
  cases e with
  | started | finished | failed => cases h
  | loading => exact ⟨by simp [report?], rfl, rfl⟩
  | kept | expanding | func | sect | prop =>
    simp only [report?, Option.some.injEq, forall_eq', Option.map_some, Option.getD_some, beginsWith,
      String.toList_append]
    exact ⟨⟨by decide, rfl⟩, rfl, rfl⟩

/-- What reading can fail with is never told in words of success. -/
theorem beginsWith_of_ofReading {fault : Fault} (h : fault.OfReading) :
    beginsWith "Parsed" (error, fault.message) = false := by
  have hmisread (m : Misreading) (hm : m.complaint = .unknownLine ∨ m.complaint = .unclosedBlock) :
      beginsWith "Parsed" (error, m.message) = false := by
    rw [Misreading.message, String.append_assoc, String.append_assoc]
    rcases hm with hm | hm <;> rw [hm] <;> exact beginsWith_append (by decide) _ _
  cases h with
  | unknownLine line text source => exact hmisread _ (.inl rfl)
  | unclosedBlock line text source => exact hmisread _ (.inr rfl)
  | unreadableImport path reason =>
    change beginsWith "Parsed" (error, "Cannot read import '" ++ path ++ "'" ++ _) = false
    rw [String.append_assoc, String.append_assoc]
    exact beginsWith_append (by decide) _ _
  | importCycle chain => exact beginsWith_append (by decide) _ _

end Event

/-! ## Accounts -/

namespace Run

variable {α : Type} {r : Run α} {n : Nat} {count : α → Nat}

theorem Tells.record (h : r.Tells n count) {record : Int × String} (hr : record ∈ r.records) :
    record.1 ≠ Event.error ∧ Event.beginsWith "Parsed" record = false := by
  obtain ⟨e, he, hr⟩ := List.mem_filterMap.1 hr
  exact (Event.report?_inner (h.inner e he)).1 record hr

theorem Tells.countP_debug (h : r.Tells n count) :
    r.records.countP (·.1 == Event.debug) = r.events.countP Event.isNode := by
  rw [records, List.countP_filterMap]
  exact List.countP_congr fun e he => by rw [(Event.report?_inner (h.inner e he)).2.1]

theorem Tells.countP_expanding (h : r.Tells n count) :
    r.records.countP (Event.beginsWith "Expanding import") = r.loads.length := by
  rw [records, List.countP_filterMap, ← h.expanding]
  exact List.countP_congr fun e he => by rw [(Event.report?_inner (h.inner e he)).2.2]

/-- The records of reading a text account for what it comes to. -/
structure Accounts (run : Run Node) (source : Option String) : Prop where
  /-- First it is said what is read. -/
  first : run.records.head? = some (Event.info, "Parsing " ++ (source.filter (!·.isEmpty)).getD "<text>")
  /-- A tree: no error; last the number of nodes at the top; a record of each node, and of each text asked for. -/
  tree : ∀ tree, run.result = .ok tree →
    (∀ record ∈ run.records, record.1 ≠ Event.error) ∧
    run.records.getLast? = some (Event.info,
      "Parsed " ++ String.ofList (Numeral.decimal tree.children.length) ++ " top-level node(s)") ∧
    run.records.countP (·.1 == Event.debug) = tree.descendants.length ∧
    run.records.countP (Event.beginsWith "Expanding import") = run.loads.length
  /-- A fault: the only error is the last record, which says what the fault that comes out says. -/
  fault : ∀ fault, run.result = .error fault → fault.isOwn = true →
    (∃ front, run.records = front ++ [(Event.error, fault.message)] ∧ ∀ record ∈ front, record.1 ≠ Event.error) ∧
    ∀ record ∈ run.records, Event.beginsWith "Parsed" record = false

end Run

namespace Run.Tells

variable {built : Run (List Node)} {source : Option String}

theorem records_started (source : Option String) (built : Run (List Node)) (ends : List Event)
    (result : Except Fault Node) :
    ∃ shown, shown = "Parsing " ++ (source.filter (!·.isEmpty)).getD "<text>" ∧
      (⟨.started source :: built.events ++ ends, result⟩ : Run Node).records =
        (Event.info, shown) :: (built.records ++ ends.filterMap Event.report?) := by
  refine ⟨_, rfl, ?_⟩
  rw [records, List.filterMap_append, List.filterMap_cons, Event.report?_started]
  rfl

theorem accounts_ok {nodes : List Node} (h : built.Tells 0 fun ns => 0 + (Node.allOf ns).length)
    (hr : built.result = .ok nodes) :
    (⟨.started source :: built.events ++ [.finished nodes.length], .ok (.rootOf nodes)⟩ : Run Node).Accounts source := by
  obtain ⟨shown, hshown, hrecords⟩ := records_started source built [.finished nodes.length] (.ok (.rootOf nodes))
  obtain ⟨last, hlast, hfinished⟩ : ∃ last, last = "Parsed " ++ String.ofList (Numeral.decimal nodes.length) ++
      " top-level node(s)" ∧ (Event.finished nodes.length).report? = some (Event.info, last) := ⟨_, rfl, rfl⟩
  rw [List.filterMap_cons, hfinished, List.filterMap_nil] at hrecords
  refine ⟨by rw [hrecords, hshown]; rfl, fun tree htree => ?_, fun fault hf => by cases hf⟩
  cases htree
  have hloads : (⟨.started source :: built.events ++ [.finished nodes.length], .ok (.rootOf nodes)⟩ :
      Run Node).loads = built.loads := by simp [loads, List.filterMap_cons, Event.loaded?]
  have herror : Event.info ≠ Event.error := by decide
  have hdebug : Event.info ≠ Event.debug := by decide
  have hfirst : Event.beginsWith "Expanding import" (Event.info, shown) = false :=
    hshown ▸ Event.beginsWith_append (by decide) _ _
  have hexpanding : Event.beginsWith "Expanding import" (Event.info, last) = false := by
    rw [hlast, String.append_assoc]
    exact Event.beginsWith_append (by decide) _ _
  rw [hrecords, hloads]
  refine ⟨fun record hm => ?_, ?_, ?_, ?_⟩
  · rw [List.mem_cons, List.mem_append, List.mem_singleton] at hm
    rcases hm with rfl | hm | rfl
    · exact herror
    · exact (h.record hm).1
    · exact herror
  · rw [← List.cons_append, List.getLast?_concat, hlast]
    rfl
  · have hnodes := h.nodes nodes hr
    rw [List.countP_cons_of_neg (by simpa using hdebug), List.countP_append, h.countP_debug]
    simpa [hdebug, Node.rootOf, Node.descendants] using hnodes
  · rw [List.countP_cons_of_neg (by simp [hfirst]), List.countP_append, h.countP_expanding]
    simp [hexpanding]

theorem accounts_error {fault : Fault} (h : built.Tells 0 fun ns => 0 + (Node.allOf ns).length)
    (hown : fault.isOwn = true → fault.OfReading) :
    (⟨.started source :: built.events ++ (if fault.isOwn then [.failed fault] else []), .error fault⟩ :
      Run Node).Accounts source := by
  obtain ⟨shown, hshown, hrecords⟩ := records_started source built (if fault.isOwn then [.failed fault] else [])
    (.error fault)
  refine ⟨by rw [hrecords, hshown]; rfl, fun tree htree => (by cases htree), fun fault' hf hfault => ?_⟩
  cases hf
  rw [if_pos hfault] at hrecords
  rw [if_pos hfault, hrecords]
  refine ⟨⟨(Event.info, shown) :: built.records, rfl, fun record hm => ?_⟩, fun record hm => ?_⟩
  · rcases List.mem_cons.1 hm with rfl | hm
    · exact (by decide : Event.info ≠ Event.error)
    · exact (h.record hm).1
  · rw [List.mem_cons, List.mem_append] at hm
    rcases hm with rfl | hm | hm
    · exact hshown ▸ Event.beginsWith_append (by decide) _ _
    · exact (h.record hm).2
    · obtain rfl := List.mem_singleton.1 hm
      exact Event.beginsWith_of_ofReading (hown hfault)

end Run.Tells

/-- **What reading reports accounts for what it comes to**, however many sections and imports it has gone
through. -/
theorem parse_accounts (expand : Bool) (loader : Loader) (text : String) (source : Option String) :
    (parse expand loader text source).Accounts source := by
  have htells := buildLines_tells (importRule_tells expand loader (loader.origin source)) (sourceLines text) 0 0
  have hreading := @ofReading_of_isOwn expand loader text source
  rw [parse_eq] at hreading ⊢
  rw [← buildText] at htells
  cases hr : (buildText (importRule expand loader (loader.origin source)) text).result with
  | ok nodes => exact htells.accounts_ok hr
  | error fault =>
    rw [hr] at hreading
    exact htells.accounts_error (hreading rfl)

end DefTree
