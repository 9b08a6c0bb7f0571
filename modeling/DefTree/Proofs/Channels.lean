/-
What the operations of a registry do, channel by channel.

`Registry.get` is the channel of a name, as it would be made if there is
none yet, so making a channel changes nothing (`get_ensure`), and every
other operation changes one channel or takes answers away. A registry is
sound if the root is the root and if whatever a channel with a level of its
own remembers to have answered is what it would answer now. Asking keeps
that because it answers from the level, attaching a gate because a level is
never set without forgetting.

`Registry.attached` says all that attaching a gate does, for configurations
of their kinds (`Plan`): the level of its channel is lowered, with zero for
none, and its format is taken if there is none yet.
-/
import DefTree.Log

namespace DefTree.Log

/-! ## Configurations of their kinds -/

/-- What a gate is made from, each value of its kind. -/
structure Plan where
  name : String := "kantara"
  enabled : Bool := true
  level : Int := 20
  format : String := "%(asctime)s - %(name)s - %(levelname)s - %(message)s"

namespace Plan

def config (p : Plan) : Config := ⟨.ofText p.name, .ofBool p.enabled, .ofInt p.level, .ofText p.format⟩

/-- The name of the channel that a gate is attached to. -/
def channel (p : Plan) : String := if p.name.isEmpty then rootName else p.name

/-- The gate that is asked for. -/
def gate (p : Plan) : Gate := ⟨p.channel, .ofBool p.enabled, .ofInt p.level⟩

/-- The format as records are shown in it. -/
def shownFormat (p : Plan) : String := if p.format.isEmpty then Format.messageOnly else p.format

theorem admits_gate (p : Plan) (level : Int) :
    p.gate.admits level = .ok (p.enabled && (p.level ≤ level : Bool)) := by
  rw [Gate.admits]
  change (if p.enabled then Except.ok (decide (p.level ≤ level)) else .ok false) = _
  cases p.enabled <;> rfl

theorem formatOf_eq_ok {p : Plan} {format : String} (h : formatOf p.config.format = .ok format) :
    format = p.shownFormat := by
  change (if Format.hasField p.shownFormat.toList then Except.ok p.shownFormat
    else .error (LogFault.emptyFormat p.shownFormat)) = .ok format at h
  split at h
  · exact (Except.ok.inj h).symm
  · cases h

end Plan

/-- The own level of a channel once it is lowered to another one. -/
def Level.lowered (own : Level) (level : Int) : Level :=
  if own.value = 0 ∨ level < own.value then .whole level else own

namespace Registry

variable {r : Registry} {name : String}

/-! ## The channel of a name -/

/-- The channel of a name, as it would be made if there is none yet. -/
def get (r : Registry) (name : String) : Channel := (r.channel? name).getD { name }

/-- Whether the channel of a name was made. -/
def Has (r : Registry) (name : String) : Prop := (r.channel? name).isSome = true

theorem channel?_eq_get (h : r.Has name) : r.channel? name = some (r.get name) :=
  (Option.some_get h).symm.trans (congrArg some (Option.get_eq_getD _))

theorem eq_get_of_channel? {c : Channel} (h : r.channel? name = some c) : c = r.get name := by
  rw [get, h, Option.getD_some]

@[simp] theorem channel?_root (r : Registry) : r.channel? rootName = some r.root := if_pos rfl

theorem channel?_of_ne (r : Registry) (h : name ≠ rootName) :
    r.channel? name = r.channels.find? (·.name == name) := if_neg h

theorem get_root (r : Registry) : r.get rootName = r.root := by
  rw [get, channel?_root, Option.getD_some]

theorem has_root (r : Registry) : r.Has rootName := by
  rw [Has, channel?_root, Option.isSome_some]

/-! ## Single operations -/

@[simp] theorem get_ensure (r : Registry) (name x : String) : (r.ensure name).get x = r.get x := by
  unfold ensure
  split
  · rfl
  by_cases hx : x = rootName
  · subst hx
    rw [get_root, get_root]
  rw [get, get, channel?_of_ne _ hx, channel?_of_ne _ hx, List.find?_append]
  cases r.channels.find? (·.name == x) with
  | some c => rfl
  | none =>
    -- the channel that is made has nothing but its name
    by_cases hn : name = x
    · subst hn; simp
    · have hne : (name == x) = false := by simpa using hn
      simp [hne]

theorem has_ensure {x : String} : (r.ensure name).Has x ↔ r.Has x ∨ x = name := by
  unfold ensure
  split
  · next h =>
    refine ⟨.inl, fun hx => hx.elim id ?_⟩
    rintro rfl
    exact h
  by_cases hx : x = rootName
  · subst hx
    simp [has_root]
  rw [Has, Has, channel?_of_ne _ hx, channel?_of_ne _ hx, List.find?_append, Option.isSome_or, Bool.or_eq_true]
  have hmade : ([{ name }] : List Channel).find? (·.name == x) = if name = x then some { name } else none := by
    by_cases hn : name = x <;> simp [hn]
  refine or_congr .rfl ?_
  rw [hmade]
  by_cases hn : name = x
  · simp [hn]
  · simp [hn, Ne.symm hn]

theorem channel?_update {f : Channel → Channel} (hf : ∀ c, (f c).name = c.name) (r : Registry) (name x : String) :
    (r.update name f).channel? x = if x = name then (r.channel? x).map f else r.channel? x := by
  unfold update
  by_cases hroot : name = rootName
  · subst hroot
    rw [if_pos rfl]
    by_cases hx : x = rootName
    · subst hx
      simp
    · rw [if_neg hx, channel?_of_ne _ hx, channel?_of_ne _ hx]
  rw [if_neg hroot]
  by_cases hx : x = rootName
  · subst hx
    rw [if_neg (Ne.symm hroot), channel?_root, channel?_root]
  rw [channel?_of_ne _ hx, channel?_of_ne _ hx, List.find?_map]
  have hsame : ((·.name == x) ∘ fun c : Channel => if c.name = name then f c else c) = (·.name == x) := by
    funext c
    simp only [Function.comp]
    split
    · rw [hf]
    · rfl
  rw [hsame]
  cases hfind : r.channels.find? (·.name == x) with
  | none => simp
  | some c =>
    have hc : c.name = x := by simpa using List.find?_some hfind
    simp only [Option.map_some, hc]
    split <;> rfl

theorem channel?_forget (r : Registry) (x : String) :
    r.forget.channel? x = (r.channel? x).map fun c => { c with answers := [] } := by
  by_cases hx : x = rootName
  · subst hx
    simp [forget]
  · rw [channel?_of_ne _ hx, channel?_of_ne _ hx, forget, List.find?_map]
    rfl

theorem get_update {f : Channel → Channel} (hf : ∀ c, (f c).name = c.name) (h : r.Has name) (x : String) :
    (r.update name f).get x = if x = name then f (r.get x) else r.get x := by
  rw [get, channel?_update hf]
  split
  · next hx =>
    subst hx
    rw [channel?_eq_get h, Option.map_some, Option.getD_some]
  · rfl

theorem has_update {f : Channel → Channel} (hf : ∀ c, (f c).name = c.name) {x : String} :
    (r.update name f).Has x ↔ r.Has x := by
  rw [Has, channel?_update hf]
  split
  · rw [Option.isSome_map]; rfl
  · rfl

theorem get_forget (r : Registry) (x : String) : r.forget.get x = { r.get x with answers := [] } := by
  rw [get, channel?_forget]
  cases h : r.channel? x with
  | none => simp [get, h]
  | some c => simp [get, h]

theorem get_setLevel (h : r.Has name) (level : Level) (x : String) :
    (r.setLevel name level).get x =
      { r.get x with level := if x = name then level else (r.get x).level, answers := [] } := by
  have hname : ∀ c : Channel, ({ c with level } : Channel).name = c.name := fun _ => rfl
  rw [setLevel, get_forget, get_update hname h]
  split <;> rfl

theorem has_setLevel {level : Level} {x : String} : (r.setLevel name level).Has x ↔ r.Has x := by
  have hname : ∀ c : Channel, ({ c with level } : Channel).name = c.name := fun _ => rfl
  rw [setLevel, Has, channel?_forget, Option.isSome_map]
  exact has_update hname

/-! ## Levels that count -/

theorem lineage_eq_cons (h : r.Has name) : ∃ above, r.lineage name = r.get name :: above := by
  rw [lineage]
  split
  · next hn =>
    subst hn
    rw [get_root]
    exact ⟨[], rfl⟩
  · rw [channel?_eq_get h]
    exact ⟨_, rfl⟩

theorem effectiveLevel_eq (h : r.Has name) (hl : (r.get name).level.value ≠ 0) :
    r.effectiveLevel name = (r.get name).level.value := by
  obtain ⟨above, ha⟩ := lineage_eq_cons h
  rw [effectiveLevel, ha, List.map_cons, List.find?_cons_of_pos (by simpa using hl), Option.getD_some]

/-! ## Sound registries -/

/-- The root is the root, and what a channel with a level of its own remembers to have answered is
what it would answer now. -/
structure Sound (r : Registry) : Prop where
  root_name : r.root.name = rootName
  answers : ∀ name level answer, (r.get name).level.value ≠ 0 →
    (r.get name).answers.lookup level = some answer →
      answer = (0 < level && (r.get name).level.value ≤ level : Bool)

theorem get_fresh (name : String) : (({} : Registry).get name) =
    { name, level := if name = rootName then .whole 30 else .unset } := by
  by_cases hn : name = rootName
  · subst hn
    rw [get_root, if_pos rfl]
  · rw [get, channel?_of_ne _ hn, if_neg hn]
    rfl

theorem Sound.fresh : ({} : Registry).Sound where
  root_name := rfl
  answers name level answer _ h := by
    rw [get_fresh] at h
    cases h

theorem Sound.get_name (hs : r.Sound) (name : String) : (r.get name).name = name := by
  by_cases hn : name = rootName
  · subst hn
    rw [get_root, hs.root_name]
  rw [get, channel?_of_ne _ hn]
  cases hfind : r.channels.find? (·.name == name) with
  | none => rfl
  | some c => simpa using List.find?_some hfind

theorem root_update_name {f : Channel → Channel} (hf : ∀ c, (f c).name = c.name) (r : Registry) (name : String) :
    (r.update name f).root.name = r.root.name := by
  unfold update
  split
  · exact hf r.root
  · rfl

theorem Sound.ensure (hs : r.Sound) (name : String) : (r.ensure name).Sound where
  root_name := by
    rw [Registry.ensure]
    split
    · exact hs.root_name
    · exact hs.root_name
  answers x level answer hl h := by
    rw [get_ensure] at hl h ⊢
    exact hs.answers x level answer hl h

/-- Whatever level is set, nothing is remembered after it. -/
theorem Sound.setLevel (hs : r.Sound) (h : r.Has name) (level : Level) : (r.setLevel name level).Sound where
  root_name := by
    have hname : ∀ c : Channel, ({ c with level } : Channel).name = c.name := fun _ => rfl
    exact (root_update_name hname r name).trans hs.root_name
  answers x n answer _ ha := by
    rw [get_setLevel h] at ha
    cases ha

/-! ## Asking -/

/-- One registry is another one but for what its channels have answered. -/
structure Same (r r' : Registry) : Prop where
  has : ∀ x, r'.Has x ↔ r.Has x
  level : ∀ x, (r'.get x).level = (r.get x).level
  formats : ∀ x, (r'.get x).formats = (r.get x).formats

theorem Same.refl (r : Registry) : r.Same r := ⟨fun _ => .rfl, fun _ => rfl, fun _ => rfl⟩

theorem ask_eq (h : r.Has name) (level : Int) : r.ask name level =
    match (r.get name).answers.lookup level with
    | some answer => (r, answer)
    | none => (r.update name fun c => { c with answers := (level, r.lets name level) :: c.answers },
        r.lets name level) := by
  cases hl : (r.get name).answers.lookup level <;> simp only [ask, channel?_eq_get h, Option.bind_some, hl]

theorem get_remember (h : r.Has name) (answer : Int × Bool) (x : String) :
    (r.update name fun c => { c with answers := answer :: c.answers }).get x =
      { r.get x with answers := if x = name then answer :: (r.get x).answers else (r.get x).answers } := by
  have hname : ∀ c : Channel, ({ c with answers := answer :: c.answers } : Channel).name = c.name := fun _ => rfl
  rw [get_update hname h]
  split <;> rfl

theorem same_ask (h : r.Has name) (level : Int) : r.Same (r.ask name level).1 := by
  rw [ask_eq h]
  split
  · exact .refl r
  have hname : ∀ c : Channel,
    ({ c with answers := (level, r.lets name level) :: c.answers } : Channel).name = c.name := fun _ => rfl
  refine ⟨fun x => has_update hname, fun x => ?_, fun x => ?_⟩
  · rw [get_remember h]
  · rw [get_remember h]

theorem lets_eq (h : r.Has name) (hl : (r.get name).level.value ≠ 0) (level : Int) :
    r.lets name level = (0 < level && (r.get name).level.value ≤ level : Bool) := by
  rw [lets, effectiveLevel_eq h hl]

/-- In a sound registry a channel says what it lets through, asked before or not. -/
theorem Sound.ask_snd (hs : r.Sound) (h : r.Has name) (hl : (r.get name).level.value ≠ 0) (level : Int) :
    (r.ask name level).2 = (0 < level && (r.get name).level.value ≤ level : Bool) := by
  rw [ask_eq h]
  split
  · next answer ha => exact hs.answers name level answer hl ha
  · exact lets_eq h hl level

theorem Sound.ask (hs : r.Sound) (h : r.Has name) (level : Int) : (r.ask name level).1.Sound := by
  rw [ask_eq h]
  split
  · exact hs
  have hname : ∀ c : Channel,
    ({ c with answers := (level, r.lets name level) :: c.answers } : Channel).name = c.name := fun _ => rfl
  refine ⟨(root_update_name hname r name).trans hs.root_name, fun x n answer hl ha => ?_⟩
  rw [get_remember h] at hl ha ⊢
  dsimp only at hl ha ⊢
  split at ha
  · next hx =>
    subst hx
    rw [List.lookup_cons] at ha
    split at ha
    · next hn =>
      obtain rfl := eq_of_beq hn
      rw [← Option.some.inj ha]
      exact lets_eq h hl n
    · exact hs.answers x n answer hl ha
  · exact hs.answers x n answer hl ha

/-- What a gate lets through where its channel has a level of its own. -/
theorem Sound.passes_gate (hs : r.Sound) {p : Plan} (h : r.Has p.channel)
    (hl : (r.get p.channel).level.value ≠ 0) (level : Int) :
    ∃ r', r.passes p.gate level = .ok (r', p.enabled &&
      (p.level ≤ level && (0 < level && (r.get p.channel).level.value ≤ level) : Bool)) := by
  rw [passes, p.admits_gate]
  cases henabled : p.enabled with
  | false => exact ⟨r, rfl⟩
  | true =>
    cases hlevel : decide (p.level ≤ level) with
    | false => exact ⟨r, rfl⟩
    | true => exact ⟨(r.ask p.channel level).1, congrArg Except.ok (Prod.ext rfl (hs.ask_snd h hl level))⟩

theorem passes_of_disabled (r : Registry) {p : Plan} (h : p.enabled = false) (level : Int) :
    r.passes p.gate level = .ok (r, false) := by
  rw [passes, p.admits_gate, h]
  rfl

/-- Asking a gate changes nothing but what channels have answered. -/
theorem Sound.of_passes (hs : r.Sound) {g : Gate} (h : r.Has g.channel) {level : Int} {r' : Registry}
    {passed : Bool} (hp : r.passes g level = .ok (r', passed)) : r'.Sound ∧ r.Same r' := by
  unfold passes at hp
  split at hp
  · cases hp
  · cases hp
    exact ⟨hs, .refl r⟩
  · rw [← (Prod.mk.inj (Except.ok.inj hp)).1]
    exact ⟨hs.ask h level, same_ask h level⟩

/-! ## Attaching a gate -/

theorem lower_eq (r : Registry) (c : Channel) (level : Int) : r.lower c (.ofInt level) =
    .ok (if c.level.value = 0 ∨ level < c.level.value then r.setLevel c.name (.whole level) else r) := by
  rw [lower, Setting.number?_ofInt]
  have hbelow : (Number.integer level).isBelow c.level.value = decide (level < c.level.value) := rfl
  dsimp only
  rw [hbelow]
  by_cases h : c.level.value = 0
  · rw [if_pos h, if_pos (.inl h)]
    rfl
  by_cases hlt : level < c.level.value
  · rw [if_neg h, if_pos (decide_eq_true hlt), if_pos (.inr hlt)]
    rfl
  · rw [if_neg h, if_neg (by simpa using hlt), if_neg (by simp [h, hlt])]

/-- All that attaching a gate does: its channel is made, lowered to the level and dressed in the
format. Only the format can be at fault, and then the level is lowered already. -/
structure Attached (r : Registry) (p : Plan) (r' : Registry) (result : Except LogFault Gate) : Prop where
  sound : r'.Sound
  has : ∀ x, r'.Has x ↔ r.Has x ∨ x = p.channel
  level : ∀ x, (r'.get x).level =
    if p.enabled = true ∧ x = p.channel then (r.get x).level.lowered p.level else (r.get x).level
  formats : ∀ x, (r'.get x).formats =
    if p.enabled = true ∧ x = p.channel ∧ (r.get x).formats = [] then
      (formatOf p.config.format).toOption.toList
    else (r.get x).formats
  gate : result = if p.enabled = true ∧ (r.get p.channel).formats = [] then
      (formatOf p.config.format).map fun _ => p.gate
    else .ok p.gate

theorem Sound.lowered (hs : r.Sound) (h : r.Has name) (level : Int) :
    ∃ r', r.lower (r.get name) (.ofInt level) = .ok r' ∧ r'.Sound ∧ (∀ x, r'.Has x ↔ r.Has x) ∧
      (∀ x, (r'.get x).level = if x = name then (r.get x).level.lowered level else (r.get x).level) ∧
      ∀ x, (r'.get x).formats = (r.get x).formats := by
  refine ⟨_, lower_eq r _ level, ?_⟩
  rw [hs.get_name]
  split
  · next hlow =>
    refine ⟨hs.setLevel h _, fun x => has_setLevel, fun x => ?_, fun x => ?_⟩
    · rw [get_setLevel h]
      split
      · next hx =>
        subst hx
        rw [Level.lowered, if_pos hlow]
      · rfl
    · rw [get_setLevel h]
  · next hlow =>
    refine ⟨hs, fun x => .rfl, fun x => ?_, fun x => rfl⟩
    split
    · next hx =>
      subst hx
      rw [Level.lowered, if_neg hlow]
    · rfl

theorem get_dress (h : r.Has name) (format : String) (x : String) :
    (r.update name fun c => { c with formats := [format] }).get x =
      { r.get x with formats := if x = name then [format] else (r.get x).formats } := by
  have hname : ∀ c : Channel, ({ c with formats := [format] } : Channel).name = c.name := fun _ => rfl
  rw [get_update hname h]
  split <;> rfl

theorem Sound.dress (hs : r.Sound) (h : r.Has name) (format : String) :
    (r.update name fun c => { c with formats := [format] }).Sound := by
  have hname : ∀ c : Channel, ({ c with formats := [format] } : Channel).name = c.name := fun _ => rfl
  refine ⟨(root_update_name hname r name).trans hs.root_name, fun x n answer hl ha => ?_⟩
  rw [get_dress h] at hl ha ⊢
  exact hs.answers x n answer hl ha

theorem dress_cases (r : Registry) (c : Channel) (format : Setting) :
    (c.formats ≠ [] ∧ r.dress c format = .ok r) ∨
    (∃ fault, c.formats = [] ∧ formatOf format = .error fault ∧ r.dress c format = .error fault) ∨
    ∃ shown, c.formats = [] ∧ formatOf format = .ok shown ∧
      r.dress c format = .ok (r.update c.name fun c => { c with formats := [shown] }) := by
  unfold dress
  cases hc : c.formats with
  | cons f fs => exact .inl ⟨List.cons_ne_nil f fs, rfl⟩
  | nil =>
    cases hf : formatOf format with
    | error fault => exact .inr (.inl ⟨fault, rfl, rfl, rfl⟩)
    | ok shown => exact .inr (.inr ⟨shown, rfl, rfl, rfl⟩)

theorem attach_of_disabled {p : Plan} (h : p.enabled = false) (r : Registry) :
    r.attach p.config = (r.ensure p.channel, .ok p.gate) := by
  change (if p.enabled then _ else (r.ensure p.channel, Except.ok p.gate)) = _
  rw [h]
  rfl

theorem attach_of_enabled {p : Plan} (h : p.enabled = true) {low : Registry}
    (hlow : (r.ensure p.channel).lower ((r.ensure p.channel).get p.channel) (.ofInt p.level) = .ok low) :
    r.attach p.config = match low.dress ((r.ensure p.channel).get p.channel) p.config.format with
      | .error fault => (low, .error fault)
      | .ok dressed => (dressed, .ok p.gate) := by
  have hprepare : (r.ensure p.channel).prepare ((r.ensure p.channel).get p.channel) p.config =
      match low.dress ((r.ensure p.channel).get p.channel) p.config.format with
      | .error fault => (low, .error fault)
      | .ok dressed => (dressed, .ok ()) := by
    have hlow' : (r.ensure p.channel).lower ((r.ensure p.channel).get p.channel) p.config.level = .ok low := hlow
    cases hd : low.dress ((r.ensure p.channel).get p.channel) p.config.format <;> simp only [prepare, hlow', hd]
  change (if p.enabled then
      (((r.ensure p.channel).prepare ((r.ensure p.channel).get p.channel) p.config).1,
        ((r.ensure p.channel).prepare ((r.ensure p.channel).get p.channel) p.config).2.map fun _ => p.gate)
    else _) = _
  rw [if_pos h, hprepare]
  cases low.dress ((r.ensure p.channel).get p.channel) p.config.format <;> rfl

theorem attached (hs : r.Sound) (p : Plan) : Attached r p (r.attach p.config).1 (r.attach p.config).2 := by
  cases henabled : p.enabled with
  | false =>
    rw [attach_of_disabled henabled]
    exact ⟨hs.ensure _, fun x => has_ensure, by simp [henabled], by simp [henabled], by simp [henabled]⟩
  | true =>
    have hmade : (r.ensure p.channel).Has p.channel := has_ensure.2 (.inr rfl)
    obtain ⟨low, hlow, hsound, hhas, hlevel, hformats⟩ := (hs.ensure p.channel).lowered hmade p.level
    replace hhas : ∀ x, low.Has x ↔ r.Has x ∨ x = p.channel := fun x => (hhas x).trans has_ensure
    simp only [get_ensure] at hlevel hformats
    rw [attach_of_enabled henabled hlow]
    have hname : ((r.ensure p.channel).get p.channel).name = p.channel := (hs.ensure _).get_name _
    rw [get_ensure] at hname ⊢
    rcases dress_cases low (r.get p.channel) p.config.format with
      ⟨hdressed, hd⟩ | ⟨fault, hbare, hf, hd⟩ | ⟨shown, hbare, hf, hd⟩
    · rw [hd]
      refine ⟨hsound, hhas, by simpa [henabled] using hlevel, fun x => ?_, by simp [hdressed]⟩
      rw [hformats, if_neg]
      rintro ⟨-, rfl, hbare⟩
      exact hdressed hbare
    · rw [hd]
      refine ⟨hsound, hhas, by simpa [henabled] using hlevel, fun x => ?_, ?_⟩
      · rw [hformats, hf]
        split
        · next hx => exact hx.2.2
        · rfl
      · rw [if_pos ⟨henabled, hbare⟩, hf]
        rfl
    · rw [hd, hname]
      have hlow' : low.Has p.channel := (hhas _).2 (.inr rfl)
      have hkeep : ∀ c : Channel, ({ c with formats := [shown] } : Channel).name = c.name := fun _ => rfl
      refine ⟨hsound.dress hlow' shown, fun x => (has_update hkeep).trans (hhas x), fun x => ?_, fun x => ?_, ?_⟩
      · rw [get_dress hlow']
        simpa [henabled] using hlevel x
      · rw [get_dress hlow']
        dsimp only
        by_cases hx : x = p.channel
        · subst hx
          rw [if_pos rfl, if_pos ⟨henabled, rfl, hbare⟩, hf]
          rfl
        · rw [if_neg hx, if_neg (fun h => hx h.2.1), hformats]
      · rw [if_pos ⟨henabled, hbare⟩, hf]
        rfl

end Registry

end DefTree.Log
