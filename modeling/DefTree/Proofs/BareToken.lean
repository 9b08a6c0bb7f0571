/-
Bare tokens, as values of attributes and as values of properties.

A section's attributes and a property are read by functions of their own:
the one finds where a value ends, the other trims it and looks for quotes
around it. On a token without blanks that does not begin with a quote both
come to the same, whatever else it has in it: colons, quotes further on,
signs, or what is nearly a number. An attribute list with nothing but a word
and the token gives one entry, and its value is that of the property
(`read_bare_token`).
-/
import DefTree.Proofs.Reading

namespace DefTree

namespace Scalar

/-- A scalar under the name of its kind. -/
inductive Named : String → Scalar → Prop where
  | text (s : String) : Named "string" (.text s)
  | number (n : Number) : Named "number" (.number n)
  | boolean (b : Bool) : Named "boolean" (.boolean b)

theorem named_label (v : Scalar) : Named v.kind.label v := by
  cases v with
  | text s => exact .text s
  | number n => exact .number n
  | boolean b => exact .boolean b

/-- A property's value that is bare is read as a token. -/
theorem ofValue_bare {token : List Char} (hblank : ∀ c ∈ token, Text.isBlank c = false)
    (hquote : token.head? ≠ some '"') : ofValue token = ofToken token := by
  have htrim : Text.trim token = token := (Text.Tight.of_forall hblank).trim_eq
  rw [ofValue, htrim, unquote?_of_head? hquote]

end Scalar

namespace Attributes

variable {key token : List Char}

theorem items_bare (hkey : key ≠ []) (hword : ∀ c ∈ key, Line.isWordChar c = true) (htoken : token ≠ [])
    (hblank : ∀ c ∈ token, Text.isBlank c = false) (hquote : token.head? ≠ some '"') :
    items (key ++ ':' :: ' ' :: token) = [⟨key, some token⟩] := by
  have hne {d : Char} (hd : Line.isWordChar d = false) : d ∉ key := fun h =>
    Line.ne_of_isWordChar (hword d h) hd rfl
  have hkeyBlank : key.any Text.isBlank = false :=
    List.any_eq_false.2 fun c hc => by simp [Text.isBlank_of_isWordChar (hword c hc)]
  have htokenBlank : token.any Text.isBlank = false := List.any_eq_false.2 fun c hc => by simp [hblank c hc]
  have hkeyWrites : WritesKey key key :=
    .bare hkey (fun h => hne (by decide) (List.mem_of_mem_head? h)) hkeyBlank (hne (by decide))
  have hwrites := @WritesItem.pair key token key token [] [' '] hkeyWrites (.bare htoken hquote htokenBlank) rfl rfl
  exact items_of_writes (.single hwrites)

theorem read_eq_enter {cs : List Char} {item : Item} (h : items cs = [item]) : read cs = enter empty item := by
  rw [read, h, ofItems, List.foldlM_cons]
  simp only [List.foldlM_nil, bind_pure]

end Attributes

/-- **A bare token means the same to an attribute and to a property**: either it is a run of too many digits, and
both readings are refused for it, or an attribute list of a word and the token has one entry, and the property's
value is that of the entry: the number that the token is read as, else the truth value, else the token itself. -/
theorem read_bare_token {key token : List Char} (hkey : key ≠ []) (hword : ∀ c ∈ key, Line.isWordChar c = true)
    (htoken : token ≠ []) (hblank : ∀ c ∈ token, Text.isBlank c = false) (hquote : token.head? ≠ some '"') :
    (∃ e, Attributes.Item.Fails ⟨key, some token⟩ e ∧ Attributes.read (key ++ ':' :: ' ' :: token) = .error e ∧
        Scalar.ofValue token = .error e) ∨
      ∃ a v, Attributes.Item.Gives ⟨key, some token⟩ v ∧ Attributes.read (key ++ ':' :: ' ' :: token) = .ok a ∧
        a.entries = [(String.ofList key, v)] ∧ Scalar.ofValue token = .ok v ∧ v.Named v.kind.label := by
  have hread : Attributes.read (key ++ ':' :: ' ' :: token) = Attributes.enter Attributes.empty ⟨key, some token⟩ :=
    Attributes.read_eq_enter (Attributes.items_bare hkey hword htoken hblank hquote)
  rw [hread, Scalar.ofValue_bare hblank hquote]
  obtain ⟨v, hv⟩ | ⟨e, he⟩ := Attributes.Item.gives_or_fails ⟨key, some token⟩
  · exact .inr ⟨_, v, hv, hv.enter_eq Attributes.empty, rfl, hv.ofToken_eq, v.named_label⟩
  · exact .inl ⟨e, he, he.enter_eq Attributes.empty, Attributes.Item.Fails.ofToken_eq he⟩

/-- A sign before a literal of another base, with a colon and quotes behind it. -/
theorem read_bare_token_signed :
    ∃ key token : List Char, key = "mode_1".toList ∧ token = "+0x1:\"e5\"".toList ∧ key ≠ [] ∧
      (∀ c ∈ key, Line.isWordChar c = true) ∧ token ≠ [] ∧ (∀ c ∈ token, Text.isBlank c = false) ∧
      token.head? ≠ some '"' ∧ ∃ a, Attributes.read (key ++ ':' :: ' ' :: token) = .ok a ∧
        a.entries = [("mode_1", .text "+0x1:\"e5\"")] ∧ Scalar.ofValue token = .ok (.text "+0x1:\"e5\"") := by
  have hkey : "mode_1".toList ≠ [] := by decide
  have hword : ∀ c ∈ "mode_1".toList, Line.isWordChar c = true := List.all_eq_true.1 (by decide)
  have htoken : "+0x1:\"e5\"".toList ≠ [] := by decide
  have hblank : ∀ c ∈ "+0x1:\"e5\"".toList, Text.isBlank c = false := Text.isBlank_of_all (by decide)
  have hquote : "+0x1:\"e5\"".toList.head? ≠ some '"' := by decide
  have hvalue : Scalar.ofValue "+0x1:\"e5\"".toList = .ok (.text "+0x1:\"e5\"") := by decide +kernel
  refine ⟨_, _, rfl, rfl, hkey, hword, htoken, hblank, hquote, ?_⟩
  obtain ⟨e, -, -, he⟩ | ⟨a, v, -, ha, hentries, hv, -⟩ := read_bare_token hkey hword htoken hblank hquote
  · rw [hvalue] at he
    cases he
  · rw [hvalue] at hv
    cases hv
    exact ⟨a, ha, hentries, hvalue⟩

end DefTree
