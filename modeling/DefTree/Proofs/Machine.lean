/-
Reading as a machine that takes one step after another.

The builder and the expansion of imports call each other; here their calls
stand on a stack. A step reads the front of the lines that the innermost
call has left, enters a call for the block of a section or for the text of
an import, or hands the nodes of a finished call to its caller. Nothing in
`Machine.step` says that this ends: the stack could grow for ever.

`parse_reached` says that it does end, with the result of `parse`, and what
every call looks like on the way: no key stands in its chain twice, only
keys of loadable paths are ever added, and the block of a section is always
shorter than the lines around it, also when it is empty and is read as one
blank line.
-/
import DefTree.Proofs.Parse
import DefTree.Proofs.Text
import Mathlib.Data.Finset.Image
import Mathlib.Data.Finset.Card
import Mathlib.Logic.Function.Iterate

namespace DefTree

/-- A call of the builder: the chain under which it reads, the lines it was given and those it has
left, how many lines of the text stand before these, and its nodes so far. -/
structure Call where
  chain : List String
  given : List (List Char)
  left : List (List Char)
  before : Nat
  nodes : List Node

/-- What the nodes of a call become in its caller. -/
inductive Purpose where
  /-- The children of a section of a name, with its attributes. -/
  | children (name : String) (attributes : Attributes)
  /-- What stands in the place of an import. -/
  | imported (path : String)

/-- The calls under way, the innermost apart and each caller with what it waits for, or the end. -/
inductive Machine where
  | running (call : Call) (callers : List (Purpose × Call))
  | ended (result : Except Fault (List Node))

namespace Call

/-- A call on some lines. -/
def enter (chain : List String) (before : Nat) (lines : List (List Char)) : Call :=
  ⟨chain, lines, lines, before, []⟩

/-- A call with more nodes. -/
def add (c : Call) (nodes : List Node) : Call := { c with nodes := c.nodes ++ nodes }

/-- A call behind the front of its lines. -/
def pass (c : Call) (front : Front) : Call :=
  { c with left := front.rest, before := c.before + front.height }

end Call

namespace Machine

/-- A fault on its way out: each import it leaves may name itself as its source. -/
def leave (fault : Fault) : List (Purpose × Call) → Fault
  | [] => fault
  | (.children .., _) :: callers => leave fault callers
  | (.imported path, _) :: callers => leave (fault.inSource path) callers

/-- Goes on with a result, or ends with its fault. -/
def proceed {α : Type} (callers : List (Purpose × Call)) (r : Except Fault α) (next : α → Machine) : Machine :=
  match r with
  | .error fault => .ended (.error (leave fault callers))
  | .ok a => next a

/-- Hands the nodes of a call that has read all its lines to its caller. -/
def finish (nodes : List Node) : List (Purpose × Call) → Machine
  | [] => .ended (.ok nodes)
  | (.children name attributes, caller) :: callers =>
    .running (caller.add [.sectOf name attributes nodes]) callers
  | (.imported _, caller) :: callers => .running (caller.add nodes) callers

/-- One step of the innermost call on a construct, `c` being the call behind it. -/
def take (loader : Loader) (before : Nat) (c : Call) (callers : List (Purpose × Call)) : Construct → Machine
  | .sect name attributes block =>
    proceed callers (buildAttributes attributes).result fun attributes =>
      .running (.enter c.chain (before + 1) (Text.lines (Text.unlines block)))
        ((.children (String.ofList name) attributes, c) :: callers)
  | .ref path false =>
    let path := String.ofList path
    let key := loader.key path
    if key ∈ c.chain then proceed callers (.error (.importCycle (c.chain ++ [key]))) (finish · callers)
    else match loader.load path with
      | .error fault => proceed callers (.error (fault.ofImport path)) (finish · callers)
      | .ok text => .running (.enter (c.chain ++ [key]) 0 (sourceLines text)) ((.imported path, c) :: callers)
  | construct =>
    proceed callers (buildConstruct (fun path _ => keepImport path) before construct).result fun nodes =>
      .running (c.add nodes) callers

/-- One step. -/
def step (loader : Loader) : Machine → Machine
  | .ended result => .ended result
  | .running c callers => match c.left with
    | [] => finish c.nodes callers
    | l :: ls => take loader c.before (c.pass (Front.read l ls)) callers (Front.read l ls).construct

/-- The machine that is about to read a text. -/
def start (loader : Loader) (text : String) (source : Option String) : Machine :=
  .running (.enter (loader.origin source) 0 (sourceLines text)) []

/-- The machine after a number of steps. -/
def run (loader : Loader) (n : Nat) (m : Machine) : Machine := (step loader)^[n] m

/-- All calls under way. -/
def calls : Machine → List Call
  | .running c callers => c :: callers.map (·.2)
  | .ended _ => []

/-- The calls for blocks among a call and its callers, each with the call that it was made by. -/
def blocksOf (c : Call) : List (Purpose × Call) → List (Call × Call)
  | [] => []
  | (.children .., caller) :: callers => (c, caller) :: blocksOf caller callers
  | (.imported _, caller) :: callers => blocksOf caller callers

/-- The calls under way for the blocks of sections, each with the call that it was made by. -/
def blocks : Machine → List (Call × Call)
  | .running c callers => blocksOf c callers
  | .ended _ => []

/-! ## Where the machine gets -/

/-- Some number of steps leads from one state to another. -/
def Reaches (loader : Loader) (m m' : Machine) : Prop := ∃ n, run loader n m = m'

theorem Reaches.refl {loader : Loader} {m : Machine} : Reaches loader m m := ⟨0, rfl⟩

theorem Reaches.trans {loader : Loader} {m₁ m₂ m₃ : Machine} (h₁ : Reaches loader m₁ m₂)
    (h₂ : Reaches loader m₂ m₃) : Reaches loader m₁ m₃ := by
  obtain ⟨n₁, rfl⟩ := h₁
  obtain ⟨n₂, rfl⟩ := h₂
  exact ⟨n₂ + n₁, Function.iterate_add_apply ..⟩

theorem Reaches.head {loader : Loader} {m m' : Machine} (h : Reaches loader (step loader m) m') :
    Reaches loader m m' := by
  obtain ⟨n, rfl⟩ := h
  exact ⟨n + 1, rfl⟩

theorem step_nil {loader : Loader} {c : Call} (h : c.left = []) (callers : List (Purpose × Call)) :
    step loader (.running c callers) = finish c.nodes callers := by
  rw [step, h]

theorem step_cons {loader : Loader} {c : Call} {l : List Char} {ls : List (List Char)} (h : c.left = l :: ls)
    (callers : List (Purpose × Call)) : step loader (.running c callers) =
      take loader c.before (c.pass (Front.read l ls)) callers (Front.read l ls).construct := by
  rw [step, h]

/-- A block cut again has fewer lines than the lines from its opener on, be it empty or not. -/
theorem length_recut_lt {ls block rest : List (List Char)} (hs : Block.split? {} ls = some (block, rest))
    (h : ∀ l ∈ ls, '\n' ∉ l) : (Text.lines (Text.unlines block)).length < ls.length + 1 := by
  have hlen := Block.length_of_split? hs
  cases block with
  | nil =>
    show 1 < ls.length + 1
    omega
  | cons l block =>
    rw [Text.lines_unlines (List.cons_ne_nil l block) fun x hx => h x (Block.mem_of_mem_body hs hx)]
    omega

/-- Taking a construct leads to what the builder makes of it, if the calls it enters lead to what the
builder makes of their lines. -/
theorem reaches_take {loader : Loader} {before : Nat} {c : Call} {callers : List (Purpose × Call)}
    {construct : Construct}
    (hblock : ∀ name attributes block, construct = .sect name attributes block → ∀ callers,
      Reaches loader (.running (.enter c.chain (before + 1) (Text.lines (Text.unlines block))) callers)
        (proceed callers (buildLines (importRule true loader c.chain) (before + 1) block).result
          (finish · callers)))
    (himport : ∀ path text, loader.key path ∉ c.chain → loader.load path = .ok text → ∀ callers,
      Reaches loader (.running (.enter (c.chain ++ [loader.key path]) 0 (sourceLines text)) callers)
        (proceed callers (buildText (importRule true loader (c.chain ++ [loader.key path])) text).result
          (finish · callers))) :
    Reaches loader (take loader before c callers construct)
      (proceed callers (buildConstruct (importRule true loader c.chain) before construct).result
        fun nodes => .running (c.add nodes) callers) := by
  cases construct with
  | blank | unknown _ | prop _ _ | func _ _ _ | openFunc _ _ | openSect _ _ => exact .refl
  | sect name attributes block =>
    simp only [take, buildConstruct]
    cases ha : (buildAttributes attributes).result with
    | error fault => rw [Run.result_bind_of_error ha]; exact .refl
    | ok a =>
      rw [Run.result_bind_of_ok ha, Run.result_bind_of_ok rfl]
      refine (hblock name attributes block rfl _).trans ?_
      cases hb : (buildLines (importRule true loader c.chain) (before + 1) block).result with
      | error fault => rw [Run.result_bind_of_error hb]; exact .refl
      | ok children => rw [Run.result_bind_of_ok hb]; exact .refl
  | ref path deferred =>
    cases deferred with
    | true => exact .refl
    | false =>
      show Reaches loader _ (proceed callers (expandImport loader c.chain (String.ofList path)).result _)
      rw [expandImport_eq]
      simp only [take]
      by_cases hc : loader.key (String.ofList path) ∈ c.chain
      · rw [if_pos hc, if_pos hc]
        exact .refl
      rw [if_neg hc, if_neg hc, Run.result_bind_of_ok rfl, Run.result_bind_of_ok rfl]
      cases hl : loader.load (String.ofList path) with
      | error fault => exact .refl
      | ok text =>
        refine (himport (String.ofList path) text hc hl _).trans ?_
        cases hb : (buildText (importRule true loader (c.chain ++ [loader.key (String.ofList path)])) text).result with
        | error fault =>
          simp only [Run.mapFault, hb]
          exact .refl
        | ok nodes =>
          simp only [Run.mapFault, hb]
          exact .refl

/-- **A call comes to its end** with the nodes that the builder makes of the lines it has left. Inside
a text the lines get fewer, and each text of an import uses up a key of the loader. -/
theorem reaches_buildLines (loader : Loader) (c : Call) (callers : List (Purpose × Call))
    (hnl : ∀ l ∈ c.left, '\n' ∉ l) :
    Reaches loader (.running c callers)
      (proceed callers (buildLines (importRule true loader c.chain) c.before c.left).result
        fun nodes => finish (c.nodes ++ nodes) callers) := by
  refine .head ?_
  cases hleft : c.left with
  | nil =>
    rw [step_nil hleft, buildLines_nil]
    simp only [proceed, Run.result_pure, List.append_nil]
    exact .refl
  | cons l ls =>
    rw [hleft] at hnl
    have hls : ∀ x ∈ ls, '\n' ∉ x := fun x hx => hnl x (List.mem_cons_of_mem _ hx)
    rw [step_cons hleft, buildLines_cons]
    -- the first construct, with the calls that it enters, then the lines after it
    refine (reaches_take (fun name attributes block hc callers => ?_)
      (fun path text hk hl callers => ?_)).trans ?_
    · have hs := Front.split?_of_read_sect hc
      have hlt := length_recut_lt hs hls
      have := reaches_buildLines loader
        (.enter c.chain (c.before + 1) (Text.lines (Text.unlines block))) callers
        fun x hx => Text.newline_not_mem_of_mem_lines hx
      simp only [Call.enter, List.nil_append,
        buildLines_recut fun x hx => hls x (Block.mem_of_mem_body hs hx)] at this
      exact this
    · have := reaches_buildLines loader (.enter (c.chain ++ [loader.key path]) 0 (sourceLines text)) callers
        fun x hx => Text.newline_not_mem_of_mem_lines hx
      simp only [Call.enter, List.nil_append] at this
      exact this
    · have hlen := Front.length_rest_le l ls
      cases hx : (buildConstruct (importRule true loader c.chain) c.before (Front.read l ls).construct).result with
      | error fault =>
        rw [Call.pass, hx, Run.result_bind_of_error hx]
        exact .refl
      | ok xs =>
        rw [Call.pass, hx, Run.result_bind_of_ok hx]
        have := reaches_buildLines loader ((c.pass (Front.read l ls)).add xs) callers
          fun x hx => hls x (Front.mem_of_mem_rest hx)
        refine this.trans ?_
        simp only [Call.add, Call.pass, List.append_assoc]
        cases hy : (buildLines (importRule true loader c.chain) (c.before + (Front.read l ls).height)
            (Front.read l ls).rest).result with
        | error fault =>
          rw [Run.result_bind_of_error hy]
          exact .refl
        | ok ys =>
          rw [Run.result_bind_of_ok hy]
          exact .refl
termination_by (loader.unused c.chain, c.left.length)
decreasing_by
  -- a block and the lines after a construct are shorter; an import uses up a key
  · exact .right _ (by rw [hleft]; exact hlt)
  · exact .left _ _ (Loader.unused_append_lt (loader.covers hl) hk)
  · exact .right _ (by rw [hleft]; exact Nat.lt_succ_of_le hlen)

/-! ## What a call looks like -/

/-- What holds of every call under way: its chain is that of the text with keys of loadable paths
behind it, none of them twice, and it has left some of the lines it was given. -/
structure Sound (loader : Loader) (origin : List String) (F : Finset String) (c : Call) : Prop where
  chain : ∃ keys, c.chain = origin ++ keys ∧ ∀ k ∈ keys, k ∈ F.image loader.key
  nodup : c.chain.Nodup
  left : c.left.length ≤ c.given.length
  newline : ∀ l ∈ c.left, '\n' ∉ l

namespace Sound

variable {loader : Loader} {origin : List String} {F : Finset String} {c : Call}

theorem add (h : Sound loader origin F c) (nodes : List Node) : Sound loader origin F (c.add nodes) :=
  ⟨h.chain, h.nodup, h.left, h.newline⟩

theorem pass (h : Sound loader origin F c) {l : List Char} {ls : List (List Char)} (hleft : c.left = l :: ls) :
    Sound loader origin F (c.pass (Front.read l ls)) where
  chain := h.chain
  nodup := h.nodup
  left := by
    have h₁ := h.left
    have h₂ := Front.length_rest_le l ls
    rw [hleft, List.length_cons] at h₁
    show (Front.read l ls).rest.length ≤ c.given.length
    omega
  newline x hx := h.newline x (hleft ▸ List.mem_cons_of_mem l (Front.mem_of_mem_rest hx))

theorem enter_block (h : Sound loader origin F c) (before : Nat) (text : List Char) :
    Sound loader origin F (.enter c.chain before (Text.lines text)) where
  chain := h.chain
  nodup := h.nodup
  left := le_refl _
  newline _ hx := Text.newline_not_mem_of_mem_lines hx

/-- A call that enters the text of an import has one key more, which is new to its chain. -/
theorem enter_import (h : Sound loader origin F c) {path text : String} (hk : loader.key path ∉ c.chain)
    (hF : path ∈ F) : Sound loader origin F (.enter (c.chain ++ [loader.key path]) 0 (sourceLines text)) where
  chain := by
    obtain ⟨keys, hchain, hkeys⟩ := h.chain
    refine ⟨keys ++ [loader.key path], ?_, fun k hmem => ?_⟩
    · show c.chain ++ _ = _
      rw [hchain, List.append_assoc]
    · rcases List.mem_append.1 hmem with hmem | hmem
      · exact hkeys k hmem
      · rw [List.mem_singleton.1 hmem]
        exact Finset.mem_image_of_mem _ hF
  nodup := h.nodup.append (List.nodup_singleton _) (List.disjoint_singleton.2 hk)
  left := le_refl _
  newline _ hx := Text.newline_not_mem_of_mem_lines hx

/-- No chain is longer than the one the text begins with and all the keys of loadable paths. -/
theorem length_chain_le (h : Sound loader origin F c) :
    c.chain.length ≤ origin.length + (F.image loader.key).card := by
  obtain ⟨keys, hchain, hkeys⟩ := h.chain
  have hnodup : keys.Nodup := (List.nodup_append.1 (hchain ▸ h.nodup)).2.1
  have hcard : keys.length ≤ (F.image loader.key).card := by
    rw [← List.toFinset_card_of_nodup hnodup]
    exact Finset.card_le_card fun k hk => hkeys k (List.mem_toFinset.1 hk)
  rw [hchain, List.length_append]
  omega

end Sound

/-! ## What one step can do -/

/-- The states that a step can lead to from a call and its callers. -/
inductive Steps (loader : Loader) (c : Call) : List (Purpose × Call) → Machine → Prop where
  | ended {callers} (result : Except Fault (List Node)) : Steps loader c callers (.ended result)
  | back {callers purpose caller} (nodes : List Node) :
      Steps loader c ((purpose, caller) :: callers) (.running (caller.add nodes) callers)
  | on {callers l ls} (nodes : List Node) (hleft : c.left = l :: ls) :
      Steps loader c callers (.running ((c.pass (Front.read l ls)).add nodes) callers)
  | block {callers l ls block} {name : String} {attributes : Attributes} (before : Nat)
      (hleft : c.left = l :: ls) (hs : Block.split? {} ls = some (block, (Front.read l ls).rest)) :
      Steps loader c callers (.running (.enter c.chain before (Text.lines (Text.unlines block)))
        ((.children name attributes, c.pass (Front.read l ls)) :: callers))
  | imported {callers l ls path text} (hleft : c.left = l :: ls) (hk : loader.key path ∉ c.chain)
      (hl : loader.load path = .ok text) :
      Steps loader c callers (.running (.enter (c.chain ++ [loader.key path]) 0 (sourceLines text))
        ((.imported path, c.pass (Front.read l ls)) :: callers))

theorem steps (loader : Loader) (c : Call) (callers : List (Purpose × Call)) :
    Steps loader c callers (step loader (.running c callers)) := by
  cases hleft : c.left with
  | nil =>
    rw [step_nil hleft]
    match callers with
    | [] => exact .ended _
    | (.children .., _) :: _ => exact .back _
    | (.imported _, _) :: _ => exact .back _
  | cons l ls =>
    rw [step_cons hleft]
    have hon : ∀ r : Except Fault (List Node), Steps loader c callers
        (proceed callers r fun nodes => .running ((c.pass (Front.read l ls)).add nodes) callers) := by
      intro r
      cases r with
      | error fault => exact .ended _
      | ok nodes => exact .on nodes hleft
    cases hc : (Front.read l ls).construct with
    | blank | unknown _ | prop _ _ | func _ _ _ | openFunc _ _ | openSect _ _ =>
      simp only [take]
      exact hon _
    | sect name attributes block =>
      simp only [take]
      cases (buildAttributes attributes).result with
      | error fault => exact .ended _
      | ok attributes => exact .block _ hleft (Front.split?_of_read_sect hc)
    | ref path deferred =>
      cases deferred with
      | true =>
        simp only [take]
        exact hon _
      | false =>
        simp only [take]
        split
        · exact .ended _
        · next hk =>
          cases hl : loader.load (String.ofList path) with
          | error fault => exact .ended _
          | ok text => exact .imported hleft hk hl

/-! ## What holds of every state -/

theorem blocksOf_of_given (c c' : Call) (h : c'.given = c.given) {callers : List (Purpose × Call)}
    (hlt : ∀ p ∈ blocksOf c callers, p.1.given.length < p.2.given.length) :
    ∀ p ∈ blocksOf c' callers, p.1.given.length < p.2.given.length := by
  match callers with
  | [] => exact hlt
  | (.imported _, caller) :: callers => exact hlt
  | (.children .., caller) :: callers =>
    intro p hp
    rcases List.mem_cons.1 hp with rfl | hp
    · have := hlt (c, caller) List.mem_cons_self
      rw [← h] at this
      exact this
    · exact hlt p (List.mem_cons_of_mem _ hp)

theorem mem_blocksOf_of_caller {c caller : Call} {purpose : Purpose} {callers : List (Purpose × Call)}
    {p : Call × Call} (hp : p ∈ blocksOf caller callers) : p ∈ blocksOf c ((purpose, caller) :: callers) := by
  cases purpose with
  | children _ _ => exact List.mem_cons_of_mem _ hp
  | imported _ => exact hp

/-- All calls under way are sound, and blocks are shorter than the lines around them. -/
structure Safe (loader : Loader) (origin : List String) (F : Finset String) (m : Machine) : Prop where
  calls : ∀ c ∈ calls m, Sound loader origin F c
  blocks : ∀ p ∈ blocks m, p.1.given.length < p.2.given.length

theorem Safe.ended {loader : Loader} {origin : List String} {F : Finset String}
    (result : Except Fault (List Node)) : Safe loader origin F (.ended result) :=
  ⟨fun _ h => absurd h List.not_mem_nil, fun _ h => absurd h List.not_mem_nil⟩

theorem Safe.step {loader : Loader} {origin : List String} {F : Finset String}
    (hF : ∀ path text, loader.load path = .ok text → path ∈ F) {m : Machine} (h : Safe loader origin F m) :
    Safe loader origin F (step loader m) := by
  cases m with
  | ended result => exact h
  | running c callers =>
    have hc : Sound loader origin F c := h.calls c List.mem_cons_self
    have hcallers : ∀ x ∈ callers.map (·.2), Sound loader origin F x :=
      fun x hx => h.calls x (List.mem_cons_of_mem _ hx)
    cases hs : Machine.step loader (.running c callers) with
    | ended result => exact .ended result
    | running c' callers' =>
      have hsteps := hs ▸ steps loader c callers
      cases hsteps with
      | @back _ _ caller nodes =>
        exact ⟨List.forall_mem_cons.2 ⟨(hcallers caller List.mem_cons_self).add nodes,
            fun x hx => hcallers x (List.mem_cons_of_mem _ hx)⟩,
          blocksOf_of_given caller (caller.add nodes) rfl fun p hp => h.blocks p (mem_blocksOf_of_caller hp)⟩
      | @on _ l ls nodes hleft =>
        exact ⟨List.forall_mem_cons.2 ⟨(hc.pass hleft).add nodes, hcallers⟩,
          blocksOf_of_given c ((c.pass (Front.read l ls)).add nodes) rfl h.blocks⟩
      | @block _ l ls block _ _ before hleft hblock =>
        refine ⟨List.forall_mem_cons.2 ⟨hc.enter_block before _,
          List.forall_mem_cons.2 ⟨hc.pass hleft, hcallers⟩⟩, List.forall_mem_cons.2 ⟨?_, ?_⟩⟩
        · have h₁ := length_recut_lt hblock fun x hx => hc.newline x (hleft ▸ List.mem_cons_of_mem l hx)
          have h₂ := hc.left
          rw [hleft, List.length_cons] at h₂
          show (Text.lines (Text.unlines block)).length < c.given.length
          omega
        · exact blocksOf_of_given c (c.pass (Front.read l ls)) rfl h.blocks
      | @imported _ l ls _ _ hleft hk hl =>
        exact ⟨List.forall_mem_cons.2 ⟨hc.enter_import hk (hF _ _ hl),
            List.forall_mem_cons.2 ⟨hc.pass hleft, hcallers⟩⟩,
          blocksOf_of_given c (c.pass (Front.read l ls)) rfl h.blocks⟩

theorem Safe.run {loader : Loader} {origin : List String} {F : Finset String}
    (hF : ∀ path text, loader.load path = .ok text → path ∈ F) {m : Machine} (h : Safe loader origin F m)
    (n : Nat) : Safe loader origin F (run loader n m) := by
  induction n generalizing m with
  | zero => exact h
  | succ n ih => exact ih (h.step hF)

theorem Safe.start (loader : Loader) (F : Finset String) (text : String) (source : Option String) :
    Safe loader (loader.origin source) F (start loader text source) where
  calls c hc := by
    rw [List.mem_singleton.1 hc]
    refine ⟨⟨[], (List.append_nil _).symm, fun _ h => absurd h List.not_mem_nil⟩, ?_, le_refl _,
      fun _ hx => Text.newline_not_mem_of_mem_lines hx⟩
    cases source with
    | none => exact List.nodup_nil
    | some path => exact List.nodup_singleton _
  blocks _ h := absurd h List.not_mem_nil

end Machine

/-- **Reading always ends**, whatever imports what: after some number of steps the machine has the
result of `parse`, and each call on the way comes to the end that the builder comes to on the lines it
has left. If only the paths in `F` can be loaded, then in every state that the machine gets to, each
call under way has a chain with no key twice and with at most one key more than `F` has, and each call
for the block of a section has fewer lines than the call that made it. -/
theorem parse_reached (loader : Loader) (F : Finset String)
    (hF : ∀ path text, loader.load path = .ok text → path ∈ F) (text : String) (source : Option String) :
    (∃ n result, Machine.run loader n (.start loader text source) = .ended result ∧
      (parse true loader text source).result = result.map .rootOf) ∧
    (∀ n c callers, Machine.run loader n (.start loader text source) = .running c callers →
      Machine.Reaches loader (.running c callers)
        (Machine.proceed callers (buildLines (importRule true loader c.chain) c.before c.left).result
          fun nodes => Machine.finish (c.nodes ++ nodes) callers)) ∧
    (∀ n, ∀ c ∈ Machine.calls (Machine.run loader n (.start loader text source)),
      c.chain.Nodup ∧ c.chain.length ≤ 1 + (F.image loader.key).card) ∧
    (∀ n, ∀ p ∈ Machine.blocks (Machine.run loader n (.start loader text source)),
      p.1.given.length < p.2.given.length) := by
  have hsafe n := (Machine.Safe.start loader F text source).run hF n
  refine ⟨?_, fun n c callers hn => ?_, fun n c hc => ?_, fun n => (hsafe n).blocks⟩
  · obtain ⟨n, hn⟩ := Machine.reaches_buildLines loader (.enter (loader.origin source) 0 (sourceLines text)) []
      fun x hx => Text.newline_not_mem_of_mem_lines hx
    refine ⟨n, (buildText (importRule true loader (loader.origin source)) text).result, hn.trans ?_,
      parse_result ..⟩
    show Machine.proceed [] (buildText (importRule true loader (loader.origin source)) text).result _ = _
    cases (buildText (importRule true loader (loader.origin source)) text).result <;> rfl
  · have hc : c ∈ Machine.calls (Machine.run loader n (.start loader text source)) := by
      rw [hn]
      exact List.mem_cons_self
    exact Machine.reaches_buildLines loader c callers ((hsafe n).calls c hc).newline
  · have hlen := ((hsafe n).calls c hc).length_chain_le
    have horigin : (loader.origin source).length ≤ 1 := by cases source <;> simp [Loader.origin]
    exact ⟨((hsafe n).calls c hc).nodup, by omega⟩

/-- A section with an import of a text that imports the first one again. -/
theorem parse_reached_cycle :
    let loader := Loader.ofMemory [("a", some "s \x7b\n\x7d\n@import \"b\""), ("b", some "@import \"a\"")] []
    (∀ path text, loader.load path = .ok text → path ∈ ({"a", "b"} : Finset String)) ∧
      ∃ n, Machine.run loader n (.start loader "s \x7b\n@import \"b\"\n\x7d" (some "a")) =
        .ended (.error (.importCycle ["a", "b", "a"])) := by
  intro loader
  have hF : ∀ path text, loader.load path = .ok text → path ∈ ({"a", "b"} : Finset String) := by
    intro path text h
    by_contra hp
    simp only [Finset.mem_insert, Finset.mem_singleton, not_or] at hp
    simp [loader, Loader.ofMemory, List.lookup_cons, beq_eq_false_iff_ne.2 hp.1,
      beq_eq_false_iff_ne.2 hp.2] at h
  refine ⟨hF, ?_⟩
  obtain ⟨⟨n, result, hn, hr⟩, -⟩ := parse_reached loader _ hF "s \x7b\n@import \"b\"\n\x7d" (some "a")
  refine ⟨n, hn.trans ?_⟩
  have hparse : (parse true loader "s \x7b\n@import \"b\"\n\x7d" (some "a")).result.map (fun _ => ()) =
      .error (.importCycle ["a", "b", "a"]) := by decide +kernel
  rw [hr] at hparse
  cases result with
  | ok nodes => cases hparse
  | error fault => rw [Except.error.inj hparse]

end DefTree
