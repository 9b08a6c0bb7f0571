/-
The attributes of a section: an ordered map from keys to scalars.

A key keeps the place where it first stood, whatever is written to it
later. `Attributes.items` cuts an attribute list such as
`wide "max width": 10 mode:fast` into keys with their raw values;
`Attributes.read` enters them one by one, a key without a value as true.
-/
import DefTree.Scalar

namespace DefTree

/-- Keys with their values, in the order in which the keys first came. -/
structure Attributes where
  entries : List (String × Scalar)
  distinct : (entries.map (·.1)).Nodup

namespace Attributes

instance : Inhabited Attributes := ⟨⟨[], List.nodup_nil⟩⟩

def empty : Attributes := ⟨[], List.nodup_nil⟩

/-- Enters a value: in the place of its key if that is known, else at the end. -/
def put (key : String) (value : Scalar) : List (String × Scalar) → List (String × Scalar)
  | [] => [(key, value)]
  | (k, v) :: es => if k = key then (k, value) :: es else (k, v) :: put key value es

theorem keys_put (key : String) (value : Scalar) (es : List (String × Scalar)) :
    (put key value es).map (·.1) =
      if key ∈ es.map (·.1) then es.map (·.1) else es.map (·.1) ++ [key] := by
  induction es with
  | nil => simp [put]
  | cons e es ih =>
    obtain ⟨k, v⟩ := e
    simp only [put]
    split
    · next h => simp [h]
    · next h =>
      have h' : ¬key = k := fun e => h e.symm
      simp only [List.map_cons, List.mem_cons, h', false_or]
      rw [ih]
      split <;> simp

theorem nodup_put (key : String) (value : Scalar) {es : List (String × Scalar)}
    (h : (es.map (·.1)).Nodup) : ((put key value es).map (·.1)).Nodup := by
  rw [keys_put]
  split
  · exact h
  · next hk =>
    rw [List.nodup_append]
    refine ⟨h, by simp, ?_⟩
    intro k hm k' hm' e
    rw [List.mem_singleton] at hm'
    exact hk (hm' ▸ e ▸ hm)

def insert (a : Attributes) (key : String) (value : Scalar) : Attributes :=
  ⟨put key value a.entries, nodup_put key value a.distinct⟩

def get? (a : Attributes) (key : String) : Option Scalar :=
  (a.entries.find? (·.1 == key)).map (·.2)

/-! ## Attribute lists -/

/-- A key, and the raw text of its value if a colon follows it. -/
structure Item where
  key : List Char
  value : Option (List Char)
  deriving DecidableEq, Repr

/-- A run after its opening quote: up to the closing quote, or to the end if there is none. -/
def takeQuoted (cs : List Char) : List Char × List Char :=
  (cs.takeWhile (· != '"'), (cs.dropWhile (· != '"')).drop 1)

def isKeyChar (c : Char) : Bool := !Text.isBlank c && c != ':'

def takeKey : List Char → List Char × List Char
  | '"' :: cs => takeQuoted cs
  | cs => (cs.takeWhile isKeyChar, cs.dropWhile isKeyChar)

def takeValue : List Char → List Char × List Char
  | '"' :: cs => takeQuoted cs
  | cs => (cs.takeWhile (!Text.isBlank ·), cs.dropWhile (!Text.isBlank ·))

def takeItem (cs : List Char) : Item × List Char :=
  let key := takeKey cs
  match Text.trimStart key.2 with
  | ':' :: rest =>
    let value := takeValue (Text.trimStart rest)
    (⟨key.1, some value.1⟩, value.2)
  | rest => (⟨key.1, none⟩, rest)

theorem length_takeQuoted_le (cs : List Char) : (takeQuoted cs).2.length ≤ cs.length := by
  have := (List.dropWhile_sublist (· != '"') (l := cs)).length_le
  simp only [takeQuoted, List.length_drop]; omega

theorem length_trimStart_le (cs : List Char) : (Text.trimStart cs).length ≤ cs.length :=
  (List.dropWhile_sublist Text.isBlank).length_le

theorem length_takeValue_le (cs : List Char) : (takeValue cs).2.length ≤ cs.length := by
  unfold takeValue
  split
  · next cs => have := length_takeQuoted_le cs; simp only [List.length_cons]; omega
  · exact (List.dropWhile_sublist _).length_le

theorem length_takeKey_lt {c : Char} {cs : List Char} (h : isKeyChar c = true) :
    (takeKey (c :: cs)).2.length ≤ cs.length := by
  unfold takeKey
  split
  · next e => cases e; exact length_takeQuoted_le cs
  · rw [List.dropWhile_cons]
    simp only [h, if_true]
    exact (List.dropWhile_sublist _).length_le

/-- Every item takes at least one character, also when its key is empty. -/
theorem length_takeItem_lt {c : Char} {cs : List Char} (h : Text.isBlank c = false) :
    (takeItem (c :: cs)).2.length ≤ cs.length := by
  by_cases hk : isKeyChar c = true
  · have h1 : (takeKey (c :: cs)).2.length ≤ cs.length := length_takeKey_lt hk
    have h2 := length_trimStart_le (takeKey (c :: cs)).2
    unfold takeItem
    simp only
    split
    · next rest e =>
      have h3 := length_trimStart_le rest
      have h4 := length_takeValue_le (Text.trimStart rest)
      have : (Text.trimStart (takeKey (c :: cs)).2).length = rest.length + 1 := by rw [e]; simp
      simp only; omega
    · simp only; omega
  · have hc : c = ':' := by simpa [isKeyChar, h] using hk
    subst hc
    have hkey : takeKey (':' :: cs) = ([], ':' :: cs) := by
      simp [takeKey, isKeyChar]
    have htrim : Text.trimStart (':' :: cs) = ':' :: cs := by
      rw [Text.trimStart, List.dropWhile_cons, h]; simp
    simp only [takeItem, hkey, htrim]
    have h3 := length_trimStart_le cs
    have h4 := length_takeValue_le (Text.trimStart cs)
    omega

theorem isBlank_of_trimStart {c : Char} {cs rest : List Char}
    (h : Text.trimStart cs = c :: rest) : Text.isBlank c = false := by
  induction cs with
  | nil => simp [Text.trimStart] at h
  | cons a as ih =>
    rw [Text.trimStart, List.dropWhile_cons] at h
    split at h
    · exact ih h
    · next ha => cases h; simpa using ha

def items (cs : List Char) : List Item :=
  match _h : Text.trimStart cs with
  | [] => []
  | c :: rest =>
    (takeItem (c :: rest)).1 :: items (takeItem (c :: rest)).2
termination_by cs.length
decreasing_by
  have h1 : (takeItem (c :: rest)).2.length ≤ rest.length :=
    length_takeItem_lt (isBlank_of_trimStart _h)
  have h2 := length_trimStart_le cs
  rw [_h] at h2
  simp only [List.length_cons] at h2
  omega

/-- Enters an item: a value is read as a bare token, quoted or not; a key alone is true. -/
def enter (a : Attributes) (item : Item) : Except Numeral.Overlong Attributes :=
  match item.value with
  | none => .ok (a.insert (String.ofList item.key) (.boolean true))
  | some raw => (Scalar.ofToken raw).map (a.insert (String.ofList item.key))

def ofItems (is : List Item) : Except Numeral.Overlong Attributes := is.foldlM enter empty

def read (cs : List Char) : Except Numeral.Overlong Attributes := ofItems (items cs)

end Attributes

end DefTree
