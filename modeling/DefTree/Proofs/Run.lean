/-
Facts about runs: they obey the monad laws, a sequence succeeds exactly
when its parts do, and what a successful sequence loads is what its parts
load, one after the other.

`Run.success?` is a run as its caller sees it when all goes well: the
result and the paths that were loaded for it. It turns sequences of runs
into sequences of options, which is how runs are compared below.
-/
import DefTree.Run

namespace DefTree.Run

variable {α β γ : Type}

theorem ext' {r s : Run α} (he : r.events = s.events) (hr : r.result = s.result) : r = s := by
  cases r; cases s; simp_all

@[simp] theorem result_pure (a : α) : (pure a : Run α).result = .ok a := rfl

theorem bind_eq (r : Run α) (f : α → Run β) : r >>= f = r.andThen f := rfl

theorem bind_of_ok {r : Run α} {f : α → Run β} {a : α} (h : r.result = .ok a) :
    r >>= f = ⟨r.events ++ (f a).events, (f a).result⟩ := by
  rw [bind_eq, andThen, h]

theorem bind_of_error {r : Run α} {f : α → Run β} {fault : Fault} (h : r.result = .error fault) :
    r >>= f = ⟨r.events, .error fault⟩ := by
  rw [bind_eq, andThen, h]

@[simp] theorem fail_bind (fault : Fault) (f : α → Run β) : (fail fault : Run α) >>= f = fail fault := rfl

theorem id_map' (r : Run α) : id <$> r = r := by
  show r >>= (fun a => pure a) = r
  cases hr : r.result with
  | error fault => rw [bind_of_error hr, ← hr]
  | ok a => exact (bind_of_ok hr).trans (ext' (List.append_nil _) hr.symm)

theorem pure_bind' (a : α) (f : α → Run β) : pure a >>= f = f a := by
  rw [bind_of_ok (result_pure a)]
  exact ext' (List.nil_append _) rfl

theorem bind_assoc' (r : Run α) (f : α → Run β) (g : β → Run γ) :
    r >>= f >>= g = r >>= fun a => f a >>= g := by
  cases hr : r.result with
  | error fault => rw [bind_of_error hr, bind_of_error hr, bind_of_error rfl]
  | ok a =>
    rw [bind_of_ok hr, bind_of_ok hr]
    cases hf : (f a).result with
    | error fault => rw [bind_of_error rfl, bind_of_error hf]
    | ok b => rw [bind_of_ok rfl, bind_of_ok hf, List.append_assoc]

instance : LawfulMonad Run := LawfulMonad.mk' Run id_map' pure_bind' bind_assoc'

/-! ## Results -/

@[simp] theorem result_fail (fault : Fault) : (fail fault : Run α).result = .error fault := rfl

theorem result_bind_of_ok {r : Run α} {f : α → Run β} {a : α} (h : r.result = .ok a) :
    (r >>= f).result = (f a).result := by
  rw [bind_of_ok h]

theorem result_bind_of_error {r : Run α} {f : α → Run β} {fault : Fault}
    (h : r.result = .error fault) : (r >>= f).result = .error fault := by
  rw [bind_of_error h]

theorem bind_ok_iff {r : Run α} {f : α → Run β} {b : β} :
    (r >>= f).result = .ok b ↔ ∃ a, r.result = .ok a ∧ (f a).result = .ok b := by
  cases hr : r.result with
  | error fault => simp [result_bind_of_error hr]
  | ok a => simp [result_bind_of_ok hr]

theorem bind_error_iff {r : Run α} {f : α → Run β} {fault : Fault} :
    (r >>= f).result = .error fault ↔
      r.result = .error fault ∨ ∃ a, r.result = .ok a ∧ (f a).result = .error fault := by
  cases hr : r.result with
  | error fault' => simp [result_bind_of_error hr]
  | ok a => simp [result_bind_of_ok hr]

/-- The fault of a run, found without looking at what it would return. -/
theorem result_eq_error_of_map {r : Run α} {f : α → β} {fault : Fault} (h : r.result.map f = .error fault) :
    r.result = .error fault := by
  cases hr : r.result with
  | error fault' => rw [hr] at h; cases h; rfl
  | ok a => rw [hr] at h; cases h

theorem exists_ok_of_isOk {r : Run α} (h : r.result.isOk = true) : ∃ a, r.result = .ok a := by
  cases hr : r.result with
  | error fault => rw [hr] at h; cases h
  | ok a => exact ⟨a, rfl⟩

theorem pure_ok_iff {a b : α} : (pure a : Run α).result = .ok b ↔ a = b := by
  simp

/-! ## Loads -/

@[simp] theorem loads_pure (a : α) : (pure a : Run α).loads = [] := rfl

theorem loads_bind_of_ok {r : Run α} {f : α → Run β} {a : α} (h : r.result = .ok a) :
    (r >>= f).loads = r.loads ++ (f a).loads := by
  rw [bind_of_ok h]
  simp [loads]

theorem loads_bind_of_error {r : Run α} {f : α → Run β} {fault : Fault}
    (h : r.result = .error fault) : (r >>= f).loads = r.loads := by
  rw [bind_of_error h]
  rfl

theorem loads_bind_eq_nil {r : Run α} {f : α → Run β} (hr : r.loads = [])
    (hf : ∀ a, (f a).loads = []) : (r >>= f).loads = [] := by
  cases h : r.result with
  | error fault => rw [loads_bind_of_error h, hr]
  | ok a => rw [loads_bind_of_ok h, hr, hf, List.append_nil]

theorem mem_loads_bind {r : Run α} {f : α → Run β} {path : String} :
    path ∈ (r >>= f).loads ↔ path ∈ r.loads ∨ ∃ a, r.result = .ok a ∧ path ∈ (f a).loads := by
  cases hr : r.result with
  | error fault => simp [loads_bind_of_error hr]
  | ok a => simp [loads_bind_of_ok hr]

/-- Two sequences are the same if their parts are wherever they load nothing but what `P` allows, and
the sequence loads nothing else. -/
theorem bind_congr_of_loads {P : String → Prop} {r r' : Run α} {f f' : α → Run β}
    (h : ∀ path ∈ (r >>= f).loads, P path) (hr : (∀ path ∈ r.loads, P path) → r' = r)
    (hf : ∀ a, (∀ path ∈ (f a).loads, P path) → f' a = f a) : r' >>= f' = r >>= f := by
  cases hres : r.result with
  | error fault =>
    rw [loads_bind_of_error hres] at h
    rw [hr h, bind_of_error hres, bind_of_error hres]
  | ok a =>
    rw [loads_bind_of_ok hres] at h
    rw [hr fun path hp => h path (List.mem_append_left _ hp), bind_of_ok hres, bind_of_ok hres,
      hf a fun path hp => h path (List.mem_append_right _ hp)]

/-! ## Successful runs -/

/-- The result of a run, if it succeeds. -/
def value? (r : Run α) : Option α := r.result.toOption

theorem value?_eq_some_iff {r : Run α} {a : α} : r.value? = some a ↔ r.result = .ok a := by
  cases h : r.result <;> simp [value?, h, Except.toOption]

@[simp] theorem value?_pure (a : α) : (pure a : Run α).value? = some a := rfl

@[simp] theorem value?_emit (e : Event) : (emit e).value? = some () := rfl

theorem value?_of_error {r : Run α} {fault : Fault} (h : r.result = .error fault) : r.value? = none := by
  rw [value?, h]
  rfl

theorem value?_bind (r : Run α) (f : α → Run β) : (r >>= f).value? = r.value?.bind fun a => (f a).value? := by
  cases h : r.result with
  | error fault => rw [value?_of_error h, value?_of_error (result_bind_of_error h)]; rfl
  | ok a => rw [value?_eq_some_iff.2 h, value?, result_bind_of_ok h]; rfl

/-- The result of a run with the paths it loaded, if it succeeds. -/
def success? (r : Run α) : Option (α × List String) :=
  match r.result with
  | .error _ => none
  | .ok a => some (a, r.loads)

theorem success?_of_ok {r : Run α} {a : α} (h : r.result = .ok a) : r.success? = some (a, r.loads) := by
  rw [success?, h]

theorem success?_of_error {r : Run α} {fault : Fault} (h : r.result = .error fault) :
    r.success? = none := by
  rw [success?, h]

theorem success?_eq_some_iff {r : Run α} {a : α} {paths : List String} :
    r.success? = some (a, paths) ↔ r.result = .ok a ∧ r.loads = paths := by
  cases h : r.result with
  | error fault => simp [success?_of_error h]
  | ok b => simp [success?_of_ok h]

@[simp] theorem success?_pure (a : α) : (pure a : Run α).success? = some (a, []) := rfl

@[simp] theorem success?_mapFault (f : Fault → Fault) (r : Run α) :
    (r.mapFault f).success? = r.success? := by
  cases h : r.result with
  | error fault =>
    rw [success?_of_error h]
    exact success?_of_error (by rw [mapFault, h]; rfl)
  | ok a =>
    rw [success?_of_ok h]
    exact success?_of_ok (by rw [mapFault, h]; rfl)

theorem success?_bind (r : Run α) (f : α → Run β) :
    (r >>= f).success? = r.success?.bind fun (a, paths) =>
      (f a).success?.map fun (b, more) => (b, paths ++ more) := by
  cases h : r.result with
  | error fault => rw [success?_of_error h, success?_of_error (result_bind_of_error h)]; rfl
  | ok a =>
    rw [success?_of_ok h]
    cases hf : (f a).result with
    | error fault =>
      rw [success?_of_error ((result_bind_of_ok h).trans hf)]
      simp [success?_of_error hf]
    | ok b =>
      rw [success?_of_ok ((result_bind_of_ok h).trans hf), loads_bind_of_ok h]
      simp [success?_of_ok hf]

end DefTree.Run
