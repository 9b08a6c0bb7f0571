/-
How gates that share channels get on with one another.

A registry comes about by gates that are made one after the other, with
questions asked at them in between (`Registry.After`). What a history
leaves is told by the enabled gates of each channel alone
(`Registry.Told`): the level is the one of the first, lowered by each that
follows, and the format is that of the first that was made.

**Gates with positive levels let through exactly what they are meant to**
(`gating_exact`): no gate is in the way of another one, above it, below it
or beside it. Level zero is the exception, since a channel whose own level
is zero has none: **lowering a channel to zero takes its level away**
(`attach_zero_quiets`). A gate of a channel where neither it nor a later one
has level zero is not made quieter (`attach_keeps_passing`); of other gates
nothing is said.
-/
import DefTree.Proofs.Channels
import Mathlib.Data.List.MinMax

namespace DefTree.Log

/-! ## Levels -/

namespace Level

variable {own : Level} {level : Int}

theorem value_lowered : (own.lowered level).value =
    if own.value = 0 ∨ level < own.value then level else own.value := by
  rw [lowered]
  split <;> rfl

theorem value_lowered_le (h : own.value ≠ 0) : (own.lowered level).value ≤ own.value := by
  rw [value_lowered]
  split <;> omega

theorem value_lowered_eq_zero_iff (h : own.value ≠ 0) :
    (own.lowered level).value = 0 ↔ level = 0 ∧ 0 < own.value := by
  rw [value_lowered]
  split <;> omega

theorem value_lowered_le_level : (own.lowered level).value ≤ level := by
  rw [value_lowered]
  split <;> omega

theorem value_lowered_ne_zero (h : level ≠ 0) : (own.lowered level).value ≠ 0 := by
  rw [value_lowered]
  split <;> omega

/-- Levels other than zero keep a channel at a level of its own, not above the one it has. -/
theorem foldl_lowered_le {levels : List Int} (h : ∀ level ∈ levels, level ≠ 0) : ∀ {own : Level}, own.value ≠ 0 →
    (levels.foldl lowered own).value ≠ 0 ∧ (levels.foldl lowered own).value ≤ own.value := by
  induction levels with
  | nil => exact fun hown => ⟨hown, Int.le_refl _⟩
  | cons level levels ih =>
    intro own hown
    have hlow : (own.lowered level).value ≠ 0 := value_lowered_ne_zero (h level List.mem_cons_self)
    obtain ⟨hne, hle⟩ := ih (fun l hl => h l (List.mem_cons_of_mem _ hl)) hlow
    exact ⟨hne, Int.le_trans hle (value_lowered_le hown)⟩

theorem foldl_lowered_whole {levels : List Int} (h : ∀ level ∈ levels, 0 < level) :
    ∀ {first : Int}, 0 < first → levels.foldl lowered (.whole first) = .whole (levels.foldl min first) := by
  induction levels with
  | nil => exact fun _ => rfl
  | cons level levels ih =>
    intro first hfirst
    have hlevel := h level List.mem_cons_self
    have hmin : lowered (.whole first) level = .whole (min first level) := by
      rw [lowered]
      split
      · next hlow =>
        have : level < first := hlow.resolve_left (by simp only [value]; omega)
        rw [min_eq_right (Int.le_of_lt this)]
      · next hlow =>
        have : ¬level < first := fun hlt => hlow (.inr hlt)
        rw [min_eq_left (Int.not_lt.1 this)]
    rw [List.foldl_cons, List.foldl_cons, hmin]
    exact ih (fun l hl => h l (List.mem_cons_of_mem _ hl)) (lt_min hfirst hlevel)

/-- Positive levels lower a channel that has none to the least of them. -/
theorem foldl_lowered_unset {levels : List Int} (h : ∀ level ∈ levels, 0 < level) :
    levels.foldl lowered .unset = .whole (levels.min?.getD 0) := by
  cases levels with
  | nil => rfl
  | cons level levels =>
    rw [List.min?_cons', Option.getD_some]
    exact foldl_lowered_whole (fun l hl => h l (List.mem_cons_of_mem _ hl)) (h level List.mem_cons_self)

end Level

/-! ## Histories -/

/-- A gate that was asked for, and what came of it. -/
structure Making where
  plan : Plan
  result : Except LogFault Gate

/-- What was asked for on a channel with the switch on. -/
def enabledOn (ms : List Making) (name : String) : List Making :=
  ms.filter fun m => m.plan.enabled && m.plan.channel == name

/-- The enabled gates on a channel. -/
def gatesOn (ms : List Making) (name : String) : List Making := (enabledOn ms name).filter (·.result.isOk)

/-- A registry after some gates were asked for, one after the other, with questions in between. -/
inductive Registry.After : Registry → List Making → Prop where
  | fresh : After {} []
  | make {r ms} (h : After r ms) (p : Plan) :
      After (r.attach p.config).1 (ms ++ [⟨p, (r.attach p.config).2⟩])
  | ask {r ms m g level r' passed} (h : After r ms) (hm : m ∈ ms) (hg : m.result = .ok g)
      (hp : r.passes g level = .ok (r', passed)) : After r' ms

theorem enabledOn_append (ms ms' : List Making) (name : String) :
    enabledOn (ms ++ ms') name = enabledOn ms name ++ enabledOn ms' name := List.filter_append ..

theorem enabledOn_single (m : Making) (name : String) :
    enabledOn [m] name = if m.plan.enabled = true ∧ name = m.plan.channel then [m] else [] := by
  have htest : (m.plan.enabled && m.plan.channel == name) = decide (m.plan.enabled = true ∧ name = m.plan.channel) := by
    by_cases h : name = m.plan.channel
    · simp [h]
    · simp [h, Ne.symm h]
  rw [enabledOn, List.filter_singleton, htest]
  simp

theorem gatesOn_append (ms ms' : List Making) (name : String) :
    gatesOn (ms ++ ms') name = gatesOn ms name ++ gatesOn ms' name := by
  rw [gatesOn, enabledOn_append, List.filter_append]
  rfl

theorem gatesOn_single (m : Making) (name : String) : gatesOn [m] name =
    if m.plan.enabled = true ∧ name = m.plan.channel then [m].filter (·.result.isOk) else [] := by
  rw [gatesOn, enabledOn_single]
  split <;> rfl

/-- What a history says about the registry it leads to. -/
structure Registry.Told (r : Registry) (ms : List Making) : Prop where
  sound : r.Sound
  has : ∀ m ∈ ms, r.Has m.plan.channel
  gate : ∀ m ∈ ms, ∀ g, m.result = .ok g → g = m.plan.gate
  level : ∀ name, (r.get name).level =
    ((enabledOn ms name).map (·.plan.level)).foldl Level.lowered (({} : Registry).get name).level
  formats : ∀ name, (r.get name).formats = ((gatesOn ms name).head?.map (·.plan.shownFormat)).toList

namespace Registry

variable {r : Registry} {ms : List Making}

theorem Attached.eq_gate {r' : Registry} {p : Plan} {result : Except LogFault Gate} (h : Attached r p r' result)
    {g : Gate} (hg : result = .ok g) : g = p.gate := by
  have hresult := h.gate
  rw [hg] at hresult
  split at hresult
  · cases hf : formatOf p.config.format with
    | error fault => rw [hf] at hresult; cases hresult
    | ok format => rw [hf] at hresult; exact Except.ok.inj hresult
  · exact Except.ok.inj hresult

theorem Told.formats_make (h : r.Told ms) {r' : Registry} {p : Plan} {result : Except LogFault Gate}
    (ha : Attached r p r' result) (name : String) :
    (r'.get name).formats = ((gatesOn (ms ++ [⟨p, result⟩]) name).head?.map (·.plan.shownFormat)).toList := by
  rw [ha.formats, gatesOn_append, gatesOn_single]
  by_cases hx : p.enabled = true ∧ name = p.channel
  · obtain ⟨henabled, rfl⟩ := hx
    rw [if_pos (show _ ∧ _ from ⟨henabled, rfl⟩)]
    have hresult := ha.gate
    cases hgates : gatesOn ms p.channel with
    | nil =>
      have hbare : (r.get p.channel).formats = [] := by rw [h.formats, hgates]; rfl
      rw [if_pos ⟨henabled, rfl, hbare⟩]
      rw [if_pos ⟨henabled, hbare⟩] at hresult
      cases hf : formatOf p.config.format with
      | error fault =>
        rw [hf] at hresult
        rw [hresult]
        rfl
      | ok format =>
        rw [hf] at hresult
        rw [hresult, Plan.formatOf_eq_ok hf]
        rfl
    | cons first gates =>
      have hdressed : (r.get p.channel).formats = [first.plan.shownFormat] := by rw [h.formats, hgates]; rfl
      rw [if_neg (by simp [hdressed]), hdressed]
      rfl
  · rw [if_neg (fun h => hx ⟨h.1, h.2.1⟩), if_neg hx, List.append_nil]
    exact h.formats name

theorem Told.make (h : r.Told ms) (p : Plan) :
    (r.attach p.config).1.Told (ms ++ [⟨p, (r.attach p.config).2⟩]) := by
  have ha := attached h.sound p
  generalize (r.attach p.config).1 = r', (r.attach p.config).2 = result at ha
  refine ⟨ha.sound, fun m hm => ?_, fun m hm g hg => ?_, fun name => ?_, fun name => ?_⟩
  · rcases List.mem_append.1 hm with hm | hm
    · exact (ha.has _).2 (.inl (h.has m hm))
    · obtain rfl := List.mem_singleton.1 hm
      exact (ha.has _).2 (.inr rfl)
  · rcases List.mem_append.1 hm with hm | hm
    · exact h.gate m hm g hg
    · obtain rfl := List.mem_singleton.1 hm
      exact ha.eq_gate hg
  · rw [ha.level, enabledOn_append, List.map_append, List.foldl_append, ← h.level, enabledOn_single]
    split
    · rfl
    · rfl
  · exact h.formats_make ha name

theorem Told.same {r' : Registry} (h : r.Told ms) (hs : r'.Sound) (hsame : r.Same r') : r'.Told ms where
  sound := hs
  has m hm := (hsame.has _).2 (h.has m hm)
  gate := h.gate
  level name := (hsame.level name).trans (h.level name)
  formats name := (hsame.formats name).trans (h.formats name)

theorem Told.ask (h : r.Told ms) {m : Making} (hm : m ∈ ms) {g : Gate} (hg : m.result = .ok g) {level : Int}
    {r' : Registry} {passed : Bool} (hp : r.passes g level = .ok (r', passed)) : r'.Told ms := by
  obtain rfl := h.gate m hm g hg
  obtain ⟨hs, hsame⟩ := h.sound.of_passes (h.has m hm) hp
  exact h.same hs hsame

/-- **A history tells its registry.** -/
theorem After.told (h : r.After ms) : r.Told ms := by
  induction h with
  | fresh =>
    refine ⟨.fresh, by simp, by simp, fun name => rfl, fun name => ?_⟩
    rw [get_fresh]
    rfl
  | make _ p ih => exact ih.make p
  | ask _ hm hg hp ih => exact ih.ask hm hg hp

/-! ## What gates let through -/

/-- A channel is at most at the level of a gate on it, unless it is lowered to zero by that gate or by one
that follows. -/
theorem Told.level_le {front back : List Making} {m : Making} (h : r.Told (front ++ m :: back))
    (henabled : m.plan.enabled = true)
    (hzero : ∀ q ∈ m :: back, q.plan.enabled = true → q.plan.channel = m.plan.channel → q.plan.level ≠ 0) :
    (r.get m.plan.channel).level.value ≠ 0 ∧ (r.get m.plan.channel).level.value ≤ m.plan.level := by
  have hsingle : enabledOn [m] m.plan.channel = [m] := by rw [enabledOn_single, if_pos ⟨henabled, rfl⟩]
  have hlevels : ∀ level ∈ (enabledOn back m.plan.channel).map (·.plan.level), level ≠ 0 := by
    intro level hlevel
    obtain ⟨q, hq, rfl⟩ := List.mem_map.1 hlevel
    obtain ⟨hback, hon⟩ := List.mem_filter.1 hq
    simp only [Bool.and_eq_true, beq_iff_eq] at hon
    exact hzero q (List.mem_cons_of_mem _ hback) hon.1 hon.2
  have hm : m.plan.level ≠ 0 := hzero m List.mem_cons_self henabled rfl
  rw [h.level, enabledOn_append, ← List.singleton_append, enabledOn_append, hsingle, List.map_append,
    List.foldl_append, List.singleton_append, List.map_cons, List.foldl_cons]
  obtain ⟨hne, hle⟩ := Level.foldl_lowered_le hlevels (Level.value_lowered_ne_zero hm)
  exact ⟨hne, Int.le_trans hle Level.value_lowered_le_level⟩

/-- A gate whose channel was not lowered to zero since then lets through what its own switch and level say, whatever
else happens to the registry. -/
theorem Told.passes_eq {front back : List Making} {m : Making} {g : Gate} (h : r.Told (front ++ m :: back))
    (hg : m.result = .ok g)
    (hzero : ∀ q ∈ m :: back, q.plan.enabled = true → q.plan.channel = m.plan.channel → q.plan.level ≠ 0)
    (n : Int) :
    ∃ r', r.passes g n = .ok (r', m.plan.enabled && (m.plan.level ≤ n && 0 < n : Bool)) := by
  have hm : m ∈ front ++ m :: back := List.mem_append_right _ List.mem_cons_self
  obtain rfl := h.gate m hm g hg
  cases henabled : m.plan.enabled with
  | false => exact ⟨r, passes_of_disabled r henabled n⟩
  | true =>
    obtain ⟨hne, hle⟩ := h.level_le henabled hzero
    obtain ⟨r', hp⟩ := h.sound.passes_gate (h.has m hm) hne n
    refine ⟨r', hp.trans (congrArg (fun b => Except.ok (r', b)) ?_)⟩
    rw [henabled, Bool.true_and, Bool.true_and, Bool.eq_iff_iff]
    simp only [Bool.and_eq_true, decide_eq_true_eq]
    omega

end Registry

open Registry

/-- **Gates with positive levels let through exactly what they are meant to**, in every order and with any
names. The channels that were asked for are there, and one that is not the root has the format of its first
gate with the switch on and the least level of these gates. -/
theorem gating_exact {r : Registry} {ms : List Making} (h : r.After ms)
    (hpos : ∀ m ∈ ms, m.plan.enabled = true → 0 < m.plan.level) :
    (∀ m ∈ ms, ∀ g, m.result = .ok g → ∀ n, ∃ r', r.passes g n =
      .ok (r', m.plan.enabled && (m.plan.level ≤ n : Bool))) ∧
    (∀ m ∈ ms, (r.channel? m.plan.channel).isSome = true) ∧
    ∀ name c, name ≠ rootName → r.channel? name = some c →
      c.formats = ((gatesOn ms name).head?.map (·.plan.shownFormat)).toList ∧
      ((∀ m ∈ ms, m.result.isOk = true) →
        c.level = .whole (((gatesOn ms name).map (·.plan.level)).min?.getD 0)) := by
  have htold := h.told
  refine ⟨fun m hm g hg n => ?_, htold.has, fun name c hname hc => ?_⟩
  · obtain ⟨front, back, hms⟩ := List.append_of_mem hm
    subst hms
    have hzero : ∀ q ∈ m :: back, q.plan.enabled = true → q.plan.channel = m.plan.channel → q.plan.level ≠ 0 :=
      fun q hq henabled _ => Int.ne_of_gt (hpos q (List.mem_append_right _ hq) henabled)
    obtain ⟨r', hp⟩ := htold.passes_eq hg hzero n
    refine ⟨r', hp.trans (congrArg (fun b => Except.ok (r', b)) ?_)⟩
    cases henabled : m.plan.enabled with
    | false => rfl
    | true =>
      have := hpos m hm henabled
      rw [Bool.true_and, Bool.true_and, Bool.eq_iff_iff]
      simp only [Bool.and_eq_true, decide_eq_true_eq]
      omega
  · obtain rfl := eq_get_of_channel? hc
    refine ⟨htold.formats name, fun hdone => ?_⟩
    have hgates : gatesOn ms name = enabledOn ms name :=
      List.filter_eq_self.2 fun m hm => hdone m (List.mem_of_mem_filter hm)
    have hlevels : ∀ level ∈ (enabledOn ms name).map (·.plan.level), 0 < level := by
      intro level hlevel
      obtain ⟨m, hm, rfl⟩ := List.mem_map.1 hlevel
      obtain ⟨hmem, hon⟩ := List.mem_filter.1 hm
      exact hpos m hmem (Bool.and_eq_true_iff.1 hon).1
    rw [htold.level, hgates, get_fresh, if_neg hname, Level.foldl_lowered_unset hlevels]

/-- A child, its parent and a gate that is switched off, with formats of their own. -/
theorem gating_exact_family :
    let child : Plan := { name := "a.b", level := 10, format := "%(message)s!" }
    let parent : Plan := { name := "a", level := 50 }
    let quiet : Plan := { name := "a.b", enabled := false, level := 5 }
    let r := ((((({} : Registry).attach child.config).1.attach parent.config).1).attach quiet.config).1
    (∃ r', r.passes child.gate 10 = .ok (r', true)) ∧ (∃ r', r.passes quiet.gate 40 = .ok (r', false)) ∧
      ∀ c, r.channel? "a.b" = some c → c.formats = ["%(message)s!"] ∧ c.level = .whole 10 := by
  intro child parent quiet r
  have hchild : (({} : Registry).attach child.config).2 = .ok child.gate := by decide +kernel
  have hparent : ((({} : Registry).attach child.config).1.attach parent.config).2 = .ok parent.gate := by
    decide +kernel
  have hquiet : (((({} : Registry).attach child.config).1.attach parent.config).1.attach quiet.config).2 =
      .ok quiet.gate := by decide +kernel
  have h := gating_exact (((Registry.After.fresh.make child).make parent).make quiet)
    (by simp [child, parent, quiet])
  rw [hchild, hparent, hquiet] at h
  obtain ⟨hpasses, -, hchannels⟩ := h
  refine ⟨hpasses ⟨child, .ok child.gate⟩ (by simp) child.gate rfl 10,
    hpasses ⟨quiet, .ok quiet.gate⟩ (by simp) quiet.gate rfl 40, fun c hc => ?_⟩
  obtain ⟨hformats, hlevel⟩ := hchannels "a.b" c (by decide) hc
  exact ⟨hformats, hlevel (by simp [Except.isOk, Except.toBool])⟩

/-- **Making a gate makes no other one quieter** where neither the other one nor an enabled gate made for its channel
since then, the new one among them, has level zero: it still lets through what it did, asked for before or not. And
the own level of a channel, once there, is never raised, and it is taken away exactly by an enabled gate of level
zero for the channel, where it was positive. -/
theorem attach_keeps_passing {r : Registry} {ms : List Making} (h : r.After ms) (p : Plan) :
    (∀ front m back g n r₁, ms = front ++ m :: back → m.result = .ok g →
      (∀ q ∈ (m :: back).map (·.plan) ++ [p], q.enabled = true → q.channel = m.plan.channel → q.level ≠ 0) →
      r.passes g n = .ok (r₁, true) →
        (∃ r₂, (r.attach p.config).1.passes g n = .ok (r₂, true)) ∧
        ∃ r₂, (r₁.attach p.config).1.passes g n = .ok (r₂, true)) ∧
    ∀ name c, r.channel? name = some c → c.level.value ≠ 0 →
      ∃ c', (r.attach p.config).1.channel? name = some c' ∧ c'.level.value ≤ c.level.value ∧
        (c'.level.value = 0 ↔ p.enabled = true ∧ p.channel = name ∧ p.level = 0 ∧ 0 < c.level.value) := by
  refine ⟨fun front m back g n r₁ hms hg hzero hpass => ?_, fun name c hc hne => ?_⟩
  · subst hms
    have hm : m ∈ front ++ m :: back := List.mem_append_right _ List.mem_cons_self
    have hmade : ∀ q ∈ m :: back, q.plan.enabled = true → q.plan.channel = m.plan.channel → q.plan.level ≠ 0 :=
      fun q hq => hzero q.plan (List.mem_append_left _ (List.mem_map_of_mem hq))
    -- what the gate says for itself is yes, and after one more gate it still counts alone
    obtain ⟨r', hp⟩ := h.told.passes_eq hg hmade n
    have hyes : (m.plan.enabled && (m.plan.level ≤ n && 0 < n : Bool)) = true :=
      (Prod.mk.inj (Except.ok.inj (hp.symm.trans hpass))).2
    have hkeep : ∀ r' : Registry, r'.After (front ++ m :: back) →
        ∃ r₂, (r'.attach p.config).1.passes g n = .ok (r₂, true) := by
      intro r' h'
      have htold := (h'.make p).told
      rw [List.append_assoc, List.cons_append] at htold
      have hall : ∀ q ∈ m :: (back ++ [⟨p, (r'.attach p.config).2⟩]), q.plan.enabled = true →
          q.plan.channel = m.plan.channel → q.plan.level ≠ 0 := by
        intro q hq
        rw [← List.cons_append, List.mem_append, List.mem_singleton] at hq
        rcases hq with hq | rfl
        · exact hmade q hq
        · exact hzero p (List.mem_append_right _ (List.mem_singleton.2 rfl))
      obtain ⟨r₂, hp⟩ := htold.passes_eq hg hall n
      exact ⟨r₂, by rw [hp, hyes]⟩
    exact ⟨hkeep r h, hkeep r₁ (h.ask hm hg hpass)⟩
  · have ha := attached h.told.sound p
    have hhas : r.Has name := by rw [Has, hc]; rfl
    obtain rfl := eq_get_of_channel? hc
    refine ⟨_, channel?_eq_get ((ha.has name).2 (.inl hhas)), ?_⟩
    rw [ha.level]
    split
    · next hp =>
      obtain ⟨henabled, rfl⟩ := hp
      refine ⟨Level.value_lowered_le hne, ?_⟩
      rw [Level.value_lowered_eq_zero_iff hne]
      exact ⟨fun h => ⟨henabled, rfl, h⟩, fun h => h.2.2⟩
    · next hp =>
      exact ⟨Int.le_refl _, fun h => absurd h hne, fun h => absurd ⟨h.1, h.2.1.symm⟩ hp⟩

/-- A child goes on logging whatever its parent and its siblings are set to. -/
theorem attach_keeps_passing_child :
    let child : Plan := { name := "a.b", level := 10 }
    let parent : Plan := { name := "a", level := 50 }
    let strict : Plan := { name := "a.b", level := 40 }
    let r := ((({} : Registry).attach child.config).1.attach parent.config).1
    ∃ r₁ r₂, r.passes child.gate 10 = .ok (r₁, true) ∧
      (r₁.attach strict.config).1.passes child.gate 10 = .ok (r₂, true) := by
  intro child parent strict r
  have h : r.After _ := (Registry.After.fresh.make child).make parent
  have hpass : r.passes child.gate 10 = .ok ((r.ask "a.b" 10).1, true) := by decide +kernel
  have hchild : (({} : Registry).attach child.config).2 = .ok child.gate := by decide +kernel
  obtain ⟨-, r₂, h₂⟩ := (attach_keeps_passing h strict).1 [] _ _ child.gate 10 _ rfl hchild
    (by simp [child, parent, strict]) hpass
  exact ⟨_, r₂, hpass, h₂⟩

/-- A second gate of level zero takes the level of the channel away, and the first gate falls silent. -/
theorem attach_zero_quiets :
    let first : Plan := { name := "a", level := 10 }
    let zero : Plan := { name := "a", level := 0 }
    let r := (({} : Registry).attach first.config).1
    let r' := (r.attach zero.config).1
    (({} : Registry).attach first.config).2 = .ok first.gate ∧ (r.attach zero.config).2 = .ok zero.gate ∧
      (r.passes first.gate 10).map (·.2) = .ok true ∧ (r'.passes first.gate 10).map (·.2) = .ok false ∧
      (r.channel? "a").map (·.level) = some (.whole 10) ∧ (r'.channel? "a").map (·.level) = some .unset := by
  decide +kernel

end DefTree.Log
