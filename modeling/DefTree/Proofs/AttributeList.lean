/-
Attribute lists read back, however they are written.

A key or a value may stand in quotes or bare, any blanks may stand on both
sides of a colon, and one blank at least between two items (`Writes`).
Reading finds the same items again (`items_of_writes`): a bare run ends at a
blank, or at a colon if it is a key, and no item begins with a colon. The
items are then entered one after another, so each key keeps the place where
it came first and has the value that came last (`Tells`); the first value
that is no number because it is too long ends the reading.
-/
import DefTree.Proofs.Attributes
import Mathlib.Data.List.Nodup

namespace DefTree.Attributes

/-! ## Written forms -/

/-- How a key is written: in double quotes, or bare. -/
inductive WritesKey (key : List Char) : List Char → Prop where
  | quoted (h : '"' ∉ key) : WritesKey key ('"' :: (key ++ ['"']))
  | bare (hne : key ≠ []) (hquote : key.head? ≠ some '"') (hblank : key.any Text.isBlank = false)
      (hcolon : ':' ∉ key) : WritesKey key key

/-- How a value is written; a bare one may have colons. -/
inductive WritesValue (value : List Char) : List Char → Prop where
  | quoted (h : '"' ∉ value) : WritesValue value ('"' :: (value ++ ['"']))
  | bare (hne : value ≠ []) (hquote : value.head? ≠ some '"') (hblank : value.any Text.isBlank = false) :
      WritesValue value value

/-- How an item is written: a key alone, or a key and a value with a colon between them. -/
inductive WritesItem : Item → List Char → Prop where
  | flag {key cs : List Char} (h : WritesKey key cs) : WritesItem ⟨key, none⟩ cs
  | pair {key value cs ds before after : List Char} (hkey : WritesKey key cs) (hvalue : WritesValue value ds)
      (hbefore : Text.allBlank before = true) (hafter : Text.allBlank after = true) :
      WritesItem ⟨key, some value⟩ (cs ++ (before ++ ':' :: (after ++ ds)))

/-- How a list of items is written. What follows an item begins with a blank, and blanks may stand around all of
them. -/
inductive Writes : List Item → List Char → Prop where
  | nil {cs : List Char} (h : Text.allBlank cs = true) : Writes [] cs
  | cons {item : Item} {items : List Item} {front cs rest : List Char} (hfront : Text.allBlank front = true)
      (hitem : WritesItem item cs) (hrest : rest.head?.all Text.isBlank = true)
      (h : Writes items rest) : Writes (item :: items) (front ++ (cs ++ rest))

variable {key value cs ds rest : List Char} {item : Item} {is : List Item}

theorem Writes.single (h : WritesItem item cs) : Writes [item] cs := by
  have hcons := @Writes.cons item [] [] cs [] rfl h rfl (.nil rfl)
  rwa [List.nil_append, List.append_nil] at hcons

theorem not_isBlank (h : cs.any Text.isBlank = false) : ∀ c ∈ cs, Text.isBlank c = false := fun c hc => by
  simpa using List.any_eq_false.1 h c hc

theorem WritesKey.exists_cons (h : WritesKey key cs) : ∃ c cs', cs = c :: cs' ∧ Text.isBlank c = false ∧ c ≠ ':' := by
  cases h with
  | quoted _ => exact ⟨'"', _, rfl, by decide, by decide⟩
  | bare hne _ hblank hcolon =>
    obtain ⟨c, cs', rfl⟩ := List.exists_cons_of_ne_nil hne
    exact ⟨c, cs', rfl, not_isBlank hblank c List.mem_cons_self, fun h => hcolon (h ▸ List.mem_cons_self)⟩

theorem WritesItem.exists_cons (h : WritesItem item cs) :
    ∃ c cs', cs = c :: cs' ∧ Text.isBlank c = false ∧ c ≠ ':' := by
  cases h with
  | flag hkey => exact hkey.exists_cons
  | pair hkey _ _ _ =>
    obtain ⟨c, cs', rfl, hc⟩ := hkey.exists_cons
    exact ⟨c, _, rfl, hc⟩

theorem WritesValue.exists_cons (h : WritesValue value cs) : ∃ c cs', cs = c :: cs' ∧ Text.isBlank c = false := by
  cases h with
  | quoted _ => exact ⟨'"', _, rfl, by decide⟩
  | bare hne _ hblank =>
    obtain ⟨c, cs', rfl⟩ := List.exists_cons_of_ne_nil hne
    exact ⟨c, cs', rfl, not_isBlank hblank c List.mem_cons_self⟩

theorem Writes.head?_ne_colon (h : Writes is cs) : (Text.trimStart cs).head? ≠ some ':' := by
  cases h with
  | nil h =>
    have hnil : Text.trimStart cs = [] := List.dropWhile_eq_nil_iff.2 (List.all_eq_true.1 h)
    simp [hnil]
  | cons hfront hitem _ _ =>
    obtain ⟨c, cs', rfl, hblank, hcolon⟩ := hitem.exists_cons
    rw [Text.trimStart_append hfront, Text.trimStart_of_first (by rintro d ⟨⟩; exact hblank)]
    simpa using hcolon

/-! ## Items found again -/

theorem takeKey_of_writes (h : WritesKey key cs)
    (hrest : ∀ c, rest.head? = some c → Text.isBlank c = true ∨ c = ':') : takeKey (cs ++ rest) = (key, rest) := by
  cases h with
  | quoted h =>
    have heq : '"' :: (key ++ ['"']) ++ rest = '"' :: (key ++ '"' :: rest) := by simp
    rw [heq]
    exact takeQuoted_append h rest
  | bare hne hquote hblank hcolon =>
    have hkey : ∀ c ∈ key, isKeyChar c = true := fun c hc => by
      have hne : c ≠ ':' := fun h => hcolon (h ▸ hc)
      simp [isKeyChar, not_isBlank hblank c hc, hne]
    have hend : ∀ c, rest.head? = some c → isKeyChar c = false := fun c hc => by
      rcases hrest c hc with hblank | rfl
      · simp [isKeyChar, hblank]
      · decide
    have hhead : (key ++ rest).head? ≠ some '"' := by rwa [List.head?_append_of_ne_nil _ hne]
    rw [takeKey_of_head? hhead, Text.takeWhile_run hkey hend, Text.dropWhile_run hkey hend]

theorem takeValue_of_writes (h : WritesValue value cs) (hrest : ∀ c, rest.head? = some c → Text.isBlank c = true) :
    takeValue (cs ++ rest) = (value, rest) := by
  cases h with
  | quoted h =>
    have heq : '"' :: (value ++ ['"']) ++ rest = '"' :: (value ++ '"' :: rest) := by simp
    rw [heq]
    exact takeQuoted_append h rest
  | bare hne hquote hblank => exact takeValue_append hne hquote (not_isBlank hblank) hrest

/-- A written item is found before what follows it. -/
theorem items_of_writesItem (h : WritesItem item cs) (hrest : ∀ c, rest.head? = some c → Text.isBlank c = true)
    (hcolon : (Text.trimStart rest).head? ≠ some ':') : items (cs ++ rest) = item :: items rest := by
  have hfirst : ∀ c, (cs ++ rest).head? = some c → Text.isBlank c = false := by
    obtain ⟨c, cs', rfl, hblank, -⟩ := h.exists_cons
    rintro d ⟨⟩
    exact hblank
  have hne : cs ++ rest ≠ [] := by
    obtain ⟨c, cs', rfl, -⟩ := h.exists_cons
    exact List.cons_ne_nil _ _
  rw [items_of_first hne hfirst]
  cases h with
  | @flag key _ hkey =>
    have htake := takeKey_of_writes hkey fun c hc => .inl (hrest c hc)
    have hitem : takeItem (cs ++ rest) = (⟨key, none⟩, Text.trimStart rest) := by
      have hhead : (Text.trimStart (takeKey (cs ++ rest)).2).head? ≠ some ':' := by rwa [htake]
      rw [takeItem_of_head? hhead, htake]
    rw [hitem, items_trimStart]
  | @pair key value cs ds before after hkey hvalue hbefore hafter =>
    have hkeyEnd : ∀ c, (before ++ ':' :: (after ++ ds ++ rest)).head? = some c → Text.isBlank c = true ∨ c = ':' := by
      intro c hc
      cases before with
      | nil => exact .inr (Option.some.inj hc).symm
      | cons b before =>
        cases hc
        exact .inl (List.all_eq_true.1 hbefore c List.mem_cons_self)
    have htakeKey := takeKey_of_writes hkey hkeyEnd
    have htakeValue := takeValue_of_writes hvalue hrest
    have hgap : Text.trimStart (before ++ ':' :: (after ++ ds ++ rest)) = ':' :: (after ++ ds ++ rest) := by
      rw [Text.trimStart_append hbefore, Text.trimStart_of_first (by rintro c ⟨⟩; decide)]
    have hgap' : Text.trimStart (after ++ ds ++ rest) = ds ++ rest := by
      obtain ⟨c, ds', rfl, hblank⟩ := hvalue.exists_cons
      rw [List.append_assoc, Text.trimStart_append hafter, Text.trimStart_of_first (by rintro d ⟨⟩; exact hblank)]
    have htext : cs ++ (before ++ ':' :: (after ++ ds)) ++ rest = cs ++ (before ++ ':' :: (after ++ ds ++ rest)) := by
      simp
    have hitem : takeItem (cs ++ (before ++ ':' :: (after ++ ds ++ rest))) = (⟨key, some value⟩, rest) := by
      simp only [takeItem, htakeKey, hgap, hgap', htakeValue]
    rw [htext, hitem]

/-- **The items of a list are found again in each of its writings.** -/
theorem items_of_writes (h : Writes is cs) : items cs = is := by
  induction h with
  | nil h =>
    have hnil : Text.trimStart _ = [] := List.dropWhile_eq_nil_iff.2 (List.all_eq_true.1 h)
    rw [items_eq, hnil]
  | cons hfront hitem hrest h ih =>
    rw [← items_trimStart, Text.trimStart_append hfront, items_trimStart,
      items_of_writesItem hitem ((Option.all_eq_true _ _).1 hrest) h.head?_ne_colon, ih]

/-! ## Items entered -/

/-- What an item says: a key alone is true, and a value is the number that it is, else the truth value, else its own
text. -/
inductive Item.Gives : Item → Scalar → Prop where
  | flag {key : List Char} : Gives ⟨key, none⟩ (.boolean true)
  | number {key value : List Char} {n : Number} (h : Number.read? value = .ok (some n)) :
      Gives ⟨key, some value⟩ (.number n)
  | yes {key : List Char} : Gives ⟨key, some "true".toList⟩ (.boolean true)
  | no {key : List Char} : Gives ⟨key, some "false".toList⟩ (.boolean false)
  | text {key value : List Char} (h : Number.read? value = .ok none) (hyes : value ≠ "true".toList)
      (hno : value ≠ "false".toList) : Gives ⟨key, some value⟩ (.text (String.ofList value))

/-- An item has a value that is too long to be read. -/
def Item.Fails (item : Item) (e : Numeral.Overlong) : Prop :=
  ∃ value, item.value = some value ∧ Number.read? value = .error e

/-- The last item of a key says a value. -/
def LastGives (is : List Item) (k : String) (s : Scalar) : Prop :=
  ∃ front item back, is = front ++ item :: back ∧ String.ofList item.key = k ∧
    (∀ i ∈ back, String.ofList i.key ≠ k) ∧ item.Gives s

/-- The attributes are those that some items give: the keys in the order in which they came first, each with what
the last item of that key says. -/
structure Tells (is : List Item) (a : Attributes) : Prop where
  keys : a.entries.map (·.1) = (is.map fun item => String.ofList item.key).eraseDups
  entry : ∀ k s, (k, s) ∈ a.entries ↔ LastGives is k s

variable {a b : Attributes} {s : Scalar} {k : String}

theorem Item.Gives.ofToken_eq (h : Item.Gives ⟨key, some value⟩ s) : Scalar.ofToken value = .ok s := by
  cases h with
  | number h => simp only [Scalar.ofToken, h]
  | yes => rfl
  | no => rfl
  | text h hyes hno => simp only [Scalar.ofToken, h, Scalar.boolean?, if_neg hyes, if_neg hno]

theorem Item.Fails.ofToken_eq {e : Numeral.Overlong} (h : Item.Fails ⟨key, some value⟩ e) :
    Scalar.ofToken value = .error e := by
  obtain ⟨_, ⟨⟩, herror⟩ := h
  simp only [Scalar.ofToken, herror]

theorem Item.Gives.enter_eq (h : item.Gives s) (a : Attributes) :
    enter a item = .ok (a.insert (String.ofList item.key) s) := by
  obtain ⟨key, value⟩ := item
  cases value with
  | none =>
    cases h
    rfl
  | some value => simp only [enter, h.ofToken_eq, Except.map]

theorem Item.Fails.enter_eq {e : Numeral.Overlong} (h : item.Fails e) (a : Attributes) : enter a item = .error e := by
  obtain ⟨key, value⟩ := item
  cases value with
  | none =>
    obtain ⟨_, ⟨⟩, -⟩ := h
  | some value => simp only [enter, h.ofToken_eq, Except.map]

theorem Item.gives_or_fails (item : Item) : (∃ s, item.Gives s) ∨ ∃ e, item.Fails e := by
  obtain ⟨key, value⟩ := item
  cases value with
  | none => exact .inl ⟨_, .flag⟩
  | some value =>
    cases h : Number.read? value with
    | error e => exact .inr ⟨e, value, rfl, h⟩
    | ok n? =>
      refine .inl ?_
      cases n? with
      | some n => exact ⟨_, .number h⟩
      | none =>
        by_cases hyes : value = "true".toList
        · exact hyes ▸ ⟨_, .yes⟩
        by_cases hno : value = "false".toList
        · exact hno ▸ ⟨_, .no⟩
        exact ⟨_, .text h hyes hno⟩

theorem Item.Gives.not_fails (h : item.Gives s) (e : Numeral.Overlong) : ¬item.Fails e := fun herror => by
  have hok := h.enter_eq empty
  rw [herror.enter_eq] at hok
  cases hok

theorem Item.Gives.unique {s' : Scalar} (h : item.Gives s) (h' : item.Gives s') : s = s' := by
  have heq : empty.insert (String.ofList item.key) s = empty.insert (String.ofList item.key) s' :=
    Except.ok.inj ((h.enter_eq empty).symm.trans (h'.enter_eq empty))
  have hentries : [(String.ofList item.key, s)] = [(String.ofList item.key, s')] := congrArg entries heq
  simpa using hentries

/-- What an entered key has is the new value; the other keys keep theirs. -/
theorem mem_put_iff {es : List (String × Scalar)} {k' : String} {s' : Scalar} (h : (es.map (·.1)).Nodup) :
    (k', s') ∈ put k s es ↔ (k' = k ∧ s' = s) ∨ (k' ≠ k ∧ (k', s') ∈ es) := by
  induction es with
  | nil => simp [put]
  | cons e es ih =>
    obtain ⟨key, value⟩ := e
    obtain ⟨hnew, hnodup⟩ := List.nodup_cons.1 h
    rw [put]
    split
    · next hkey =>
      have hother : (k', s') ∈ es → k' ≠ k := fun hmem e =>
        hnew (List.mem_map.2 ⟨(k', s'), hmem, e.trans hkey.symm⟩)
      simp only [List.mem_cons, Prod.mk.injEq]
      grind
    · next hkey =>
      rw [List.mem_cons, ih hnodup, List.mem_cons, Prod.mk.injEq]
      grind

theorem lastGives_append_singleton :
    LastGives (is ++ [item]) k s ↔
      (String.ofList item.key = k ∧ item.Gives s) ∨ (String.ofList item.key ≠ k ∧ LastGives is k s) := by
  constructor
  · rintro ⟨front, last, back, heq, hkey, hback, hgives⟩
    rcases List.eq_nil_or_concat back with rfl | ⟨back, i, rfl⟩
    · obtain ⟨rfl, hlast⟩ := List.append_inj' heq rfl
      cases hlast
      exact .inl ⟨hkey, hgives⟩
    · have heq' : is ++ [item] = (front ++ last :: back) ++ [i] := by simpa using heq
      obtain ⟨rfl, hlast⟩ := List.append_inj' heq' rfl
      cases hlast
      exact .inr ⟨hback item (by simp), front, last, back, rfl, hkey, fun j hj => hback j (by simp [hj]), hgives⟩
  · rintro (⟨hkey, hgives⟩ | ⟨hkey, front, last, back, rfl, hlast, hback, hgives⟩)
    · exact ⟨is, item, [], rfl, hkey, by simp, hgives⟩
    · refine ⟨front, last, back ++ [item], by simp, hlast, fun i hi => ?_, hgives⟩
      rcases List.mem_append.1 hi with hi | hi
      · exact hback i hi
      · exact (List.mem_singleton.1 hi) ▸ hkey

theorem Tells.empty : Tells [] empty where
  keys := rfl
  entry k s := by simp [LastGives, Attributes.empty]

/-- Another item keeps the places of the keys that came before, and its key has what it says. -/
theorem Tells.insert (h : Tells is a) (hgives : item.Gives s) :
    Tells (is ++ [item]) (a.insert (String.ofList item.key) s) where
  keys := by
    have hmem : String.ofList item.key ∈ a.entries.map (·.1) ↔
        String.ofList item.key ∈ is.map fun item => String.ofList item.key := by
      rw [h.keys, List.mem_eraseDups]
    rw [List.map_append, List.eraseDups_append, ← h.keys, Attributes.insert, keys_put, List.map_singleton]
    by_cases hk : String.ofList item.key ∈ a.entries.map (·.1)
    · have hold : [String.ofList item.key].removeAll (is.map fun item => String.ofList item.key) = [] := by
        simpa [List.removeAll] using hmem.1 hk
      rw [if_pos hk, hold, List.eraseDups_nil, List.append_nil]
    · have hnew : [String.ofList item.key].removeAll (is.map fun item => String.ofList item.key) =
          [String.ofList item.key] := by
        simpa [List.removeAll] using mt hmem.2 hk
      rw [if_neg hk, hnew]
      rfl
  entry k s' := by
    rw [lastGives_append_singleton, ← h.entry, Attributes.insert, mem_put_iff a.distinct]
    constructor
    · rintro (⟨rfl, rfl⟩ | ⟨hne, hmem⟩)
      · exact .inl ⟨rfl, hgives⟩
      · exact .inr ⟨Ne.symm hne, hmem⟩
    · rintro (⟨rfl, hgives'⟩ | ⟨hne, hmem⟩)
      · exact .inl ⟨rfl, hgives'.unique hgives⟩
      · exact .inr ⟨Ne.symm hne, hmem⟩

theorem Tells.unique (ha : a.Tells is) (hb : b.Tells is) : a = b := by
  have hkeys : a.entries.map (·.1) = b.entries.map (·.1) := ha.keys.trans hb.keys.symm
  have hlength : a.entries.length = b.entries.length := by simpa using congrArg List.length hkeys
  refine ext_entries (List.ext_getElem hlength fun i hi hi' => ?_)
  have hkey : a.entries[i].1 = b.entries[i].1 := by
    simpa [hi, hi'] using congrArg (·[i]?) hkeys
  have hmem : b.entries[i] ∈ a.entries := (ha.entry _ _).2 ((hb.entry _ _).1 (List.getElem_mem hi'))
  exact List.inj_on_of_nodup_map a.distinct (List.getElem_mem hi) hmem hkey

theorem Tells.foldlM_enter {front : List Item} (h : Tells front a) (hgives : ∀ item ∈ is, ∃ s, item.Gives s) :
    ∃ b, is.foldlM enter a = .ok b ∧ Tells (front ++ is) b := by
  induction is generalizing front a with
  | nil => exact ⟨a, rfl, by rwa [List.append_nil]⟩
  | cons item is ih =>
    obtain ⟨s, hs⟩ := hgives item List.mem_cons_self
    obtain ⟨b, hb, htells⟩ := ih (h.insert hs) fun i hi => hgives i (List.mem_cons_of_mem _ hi)
    refine ⟨b, ?_, by simpa using htells⟩
    rw [List.foldlM_cons, hs.enter_eq]
    exact hb

theorem foldlM_enter_eq_error {front back : List Item} {e : Numeral.Overlong}
    (hfront : ∀ i ∈ front, ∃ s, i.Gives s) (h : item.Fails e) (a : Attributes) :
    (front ++ item :: back).foldlM enter a = .error e := by
  induction front generalizing a with
  | nil =>
    rw [List.nil_append, List.foldlM_cons, h.enter_eq]
    rfl
  | cons i front ih =>
    obtain ⟨s, hs⟩ := hfront i List.mem_cons_self
    rw [List.cons_append, List.foldlM_cons, hs.enter_eq]
    exact ih (fun j hj => hfront j (List.mem_cons_of_mem _ hj)) _

theorem not_fails_of_gives (h : ∀ item ∈ is, ∃ s, item.Gives s) : ¬∃ item ∈ is, ∃ e, item.Fails e := by
  rintro ⟨item, hmem, e, hfails⟩
  obtain ⟨s, hs⟩ := h item hmem
  exact hs.not_fails e hfails

theorem gives_or_fails (is : List Item) : (∀ item ∈ is, ∃ s, item.Gives s) ∨
    ∃ front item back e, is = front ++ item :: back ∧ (∀ i ∈ front, ∃ s, i.Gives s) ∧ item.Fails e := by
  induction is with
  | nil => simp
  | cons item is ih =>
    obtain hgives | ⟨e, hfails⟩ := item.gives_or_fails
    · obtain hall | ⟨front, last, back, e, rfl, hfront, hfails⟩ := ih
      · exact .inl (List.forall_mem_cons.2 ⟨hgives, hall⟩)
      · exact .inr ⟨item :: front, last, back, e, rfl, List.forall_mem_cons.2 ⟨hgives, hfront⟩, hfails⟩
    · exact .inr ⟨[], item, is, e, rfl, by simp, hfails⟩

/-- **An attribute list is read back from each of its writings**: it is refused exactly if one of its values is too
long to be read, and it gives what its items say otherwise. -/
theorem read_of_writes (h : Writes is cs) :
    ((∃ e, read cs = .error e) ↔ ∃ item ∈ is, ∃ e, item.Fails e) ∧
      ((¬∃ item ∈ is, ∃ e, item.Fails e) → ∃ a, read cs = .ok a ∧ a.Tells is) := by
  rw [read, items_of_writes h, ofItems]
  obtain hgives | ⟨front, item, back, e, rfl, hfront, hfails⟩ := gives_or_fails is
  · obtain ⟨a, ha, htells⟩ := Tells.empty.foldlM_enter hgives
    have hnone : ¬∃ item ∈ is, ∃ e, item.Fails e := not_fails_of_gives hgives
    exact ⟨⟨by simp [ha], fun h => absurd h hnone⟩, fun _ => ⟨a, ha, htells⟩⟩
  · have herror : (front ++ item :: back).foldlM enter empty = .error e :=
      foldlM_enter_eq_error hfront hfails empty
    have hsome : ∃ i ∈ front ++ item :: back, ∃ e, i.Fails e := ⟨item, by simp, e, hfails⟩
    exact ⟨⟨fun _ => hsome, fun _ => ⟨e, herror⟩⟩, fun hnone => absurd hsome hnone⟩

/-- A quoted key with a colon and a blank in it, a bare value with a colon and a quote, and a key that comes twice. -/
theorem read_of_writes_repeated :
    ∃ is, Writes is "wide \"max: w\" : 0x10  wide:\"false\"\turl:a:\"b\"".toList ∧
      (¬∃ item ∈ is, ∃ e, item.Fails e) ∧
      ∃ a, read "wide \"max: w\" : 0x10  wide:\"false\"\turl:a:\"b\"".toList = .ok a ∧ a.Tells is ∧
        a.entries.map (·.1) = ["wide", "max: w", "url"] ∧ ("wide", .boolean false) ∈ a.entries := by
  have hwide : WritesItem ⟨"wide".toList, none⟩ "wide".toList :=
    .flag (.bare (by decide) (by decide) (by decide) (by decide))
  have hmaxKey : WritesKey "max: w".toList "\"max: w\"".toList := .quoted (by decide)
  have hmaxValue : WritesValue "0x10".toList "0x10".toList := .bare (by decide) (by decide) (by decide)
  have hmax := @WritesItem.pair _ _ _ _ " ".toList " ".toList hmaxKey hmaxValue (by decide) (by decide)
  have hagainKey : WritesKey "wide".toList "wide".toList := .bare (by decide) (by decide) (by decide) (by decide)
  have hagainValue : WritesValue "false".toList "\"false\"".toList := .quoted (by decide)
  have hagain := @WritesItem.pair _ _ _ _ [] [] hagainKey hagainValue rfl rfl
  have hurlKey : WritesKey "url".toList "url".toList := .bare (by decide) (by decide) (by decide) (by decide)
  have hurlValue : WritesValue "a:\"b\"".toList "a:\"b\"".toList := .bare (by decide) (by decide) (by decide)
  have hurl := @WritesItem.pair _ _ _ _ [] [] hurlKey hurlValue rfl rfl
  have hwrites := @Writes.cons _ _ [] _ _ rfl hwide (by decide) <|
    @Writes.cons _ _ " ".toList _ _ (by decide) hmax (by decide) <|
    @Writes.cons _ _ "  ".toList _ _ (by decide) hagain (by decide) <|
    @Writes.cons _ _ "\t".toList _ _ (by decide) hurl (by decide) <| @Writes.nil [] rfl
  have hgives : ∀ item ∈ [⟨"wide".toList, none⟩, ⟨"max: w".toList, some "0x10".toList⟩,
      ⟨"wide".toList, some "false".toList⟩, ⟨"url".toList, some "a:\"b\"".toList⟩], ∃ s, Item.Gives item s := by
    simp only [List.forall_mem_cons]
    exact ⟨⟨_, .flag⟩, ⟨.number (.integer 16), .number (by decide)⟩, ⟨_, .no⟩,
      ⟨_, .text (by decide) (by decide) (by decide)⟩, by simp⟩
  have hfails : ¬∃ item ∈ _, ∃ e, Item.Fails item e := not_fails_of_gives hgives
  obtain ⟨a, ha, htells⟩ := (read_of_writes hwrites).2 hfails
  refine ⟨_, hwrites, hfails, a, ha, htells, ?_, ?_⟩
  · rw [htells.keys]
    decide
  · refine (htells.entry _ _).2 ⟨[⟨"wide".toList, none⟩, ⟨"max: w".toList, some "0x10".toList⟩],
      ⟨"wide".toList, some "false".toList⟩, [⟨"url".toList, some "a:\"b\"".toList⟩], rfl, rfl, ?_, .no⟩
    simp

end DefTree.Attributes
