/-
Facts about attribute lists.

Items are read one after the other from whatever stands after blanks, and
items with keys of their own are entered in the order in which they stand.
-/
import DefTree.Attributes
import DefTree.Proofs.Text

namespace DefTree.Attributes

theorem items_eq (cs : List Char) : items cs = match Text.trimStart cs with
    | [] => []
    | c :: rest => (takeItem (c :: rest)).1 :: items (takeItem (c :: rest)).2 := by
  rw [items]
  split
  · next h => rw [h]
  · next h => rw [h]

theorem items_trimStart (cs : List Char) : items (Text.trimStart cs) = items cs := by
  have htwice : Text.trimStart (Text.trimStart cs) = Text.trimStart cs :=
    Text.trimStart_of_first fun c hc => Text.of_head?_dropWhile hc
  rw [items_eq, htwice, ← items_eq]

theorem items_of_first {cs : List Char} (hne : cs ≠ []) (h : ∀ c, cs.head? = some c → Text.isBlank c = false) :
    items cs = (takeItem cs).1 :: items (takeItem cs).2 := by
  obtain ⟨c, cs, rfl⟩ := List.exists_cons_of_ne_nil hne
  rw [items_eq, Text.trimStart_of_first h]

theorem takeQuoted_append {cs : List Char} (h : '"' ∉ cs) (rest : List Char) :
    takeQuoted (cs ++ '"' :: rest) = (cs, rest) := by
  have hall : ∀ c ∈ cs, (c != '"') = true := fun c hc => bne_iff_ne.2 fun e => h (e ▸ hc)
  rw [takeQuoted, List.takeWhile_append_of_pos hall, List.dropWhile_append_of_pos hall,
    List.takeWhile_cons_of_neg (by simp), List.dropWhile_cons_of_neg (by simp)]
  simp

theorem takeKey_of_head? {cs : List Char} (h : cs.head? ≠ some '"') :
    takeKey cs = (cs.takeWhile isKeyChar, cs.dropWhile isKeyChar) := by
  unfold takeKey
  split
  · exact absurd rfl h
  · rfl

theorem takeValue_of_head? {cs : List Char} (h : cs.head? ≠ some '"') :
    takeValue cs = (cs.takeWhile (!Text.isBlank ·), cs.dropWhile (!Text.isBlank ·)) := by
  unfold takeValue
  split
  · exact absurd rfl h
  · rfl

theorem takeItem_of_head? {cs : List Char} (h : (Text.trimStart (takeKey cs).2).head? ≠ some ':') :
    takeItem cs = (⟨(takeKey cs).1, none⟩, Text.trimStart (takeKey cs).2) := by
  unfold takeItem
  dsimp only
  split
  · next hrest => exact absurd (congrArg List.head? hrest) h
  · rfl

/-- A value without blanks that begins with no quote goes up to the first blank. -/
theorem takeValue_append {cs : List Char} (hne : cs ≠ []) (hq : cs.head? ≠ some '"')
    (hb : ∀ c ∈ cs, Text.isBlank c = false) {rest : List Char}
    (hr : ∀ c, rest.head? = some c → Text.isBlank c = true) : takeValue (cs ++ rest) = (cs, rest) := by
  have hall : ∀ c ∈ cs, (!Text.isBlank c) = true := fun c hc => by simp [hb c hc]
  have hrest : ∀ c, rest.head? = some c → (!Text.isBlank c) = false := fun c hc => by simp [hr c hc]
  have hhead : (cs ++ rest).head? ≠ some '"' := by rwa [List.head?_append_of_ne_nil _ hne]
  rw [takeValue_of_head? hhead, Text.takeWhile_run hall hrest, Text.dropWhile_run hall hrest]

/-! ## Entering -/

theorem put_of_not_mem {key : String} {value : Scalar} {es : List (String × Scalar)}
    (h : key ∉ es.map (·.1)) : put key value es = es ++ [(key, value)] := by
  induction es with
  | nil => rfl
  | cons e es ih =>
    obtain ⟨k, v⟩ := e
    simp only [List.map_cons, List.mem_cons, not_or] at h
    rw [put, if_neg (Ne.symm h.1), ih h.2, List.cons_append]

theorem foldl_insert {es : List (String × Scalar)} : ∀ {a : Attributes}, ((a.entries ++ es).map (·.1)).Nodup →
    (es.foldl (fun a (k, v) => a.insert k v) a).entries = a.entries ++ es := by
  induction es with
  | nil => exact fun {a} _ => (List.append_nil _).symm
  | cons e es ih =>
    intro a hnodup
    have hnew : e.1 ∉ a.entries.map (·.1) := by
      rw [List.map_append, List.map_cons, List.nodup_append] at hnodup
      exact fun hm => hnodup.2.2 _ hm _ List.mem_cons_self rfl
    have hinsert : (a.insert e.1 e.2).entries = a.entries ++ [e] := put_of_not_mem hnew
    have hentries := ih (a := a.insert e.1 e.2) (by rw [hinsert, List.append_assoc]; exact hnodup)
    rw [List.foldl_cons, hentries, hinsert, List.append_assoc]
    rfl

theorem ext_entries {a b : Attributes} (h : a.entries = b.entries) : a = b := by
  cases a
  cases b
  cases h
  rfl

theorem foldl_insert_entries (a : Attributes) : a.entries.foldl (fun a (k, v) => a.insert k v) empty = a :=
  ext_entries (foldl_insert (a := empty) a.distinct)

theorem foldlM_enter {item : String × Scalar → Item} {es : List (String × Scalar)}
    (hitem : ∀ e ∈ es, ∀ a, enter a (item e) = .ok (a.insert e.1 e.2)) (a : Attributes) :
    (es.map item).foldlM enter a = .ok (es.foldl (fun a (k, v) => a.insert k v) a) := by
  induction es generalizing a with
  | nil => rfl
  | cons e es ih =>
    rw [List.map_cons, List.foldlM_cons, hitem e List.mem_cons_self]
    exact ih (fun e' he' => hitem e' (List.mem_cons_of_mem _ he')) _

/-- **Attributes are what their entries give as items.** -/
theorem ofItems_map {a : Attributes} {item : String × Scalar → Item}
    (hitem : ∀ e ∈ a.entries, ∀ b, enter b (item e) = .ok (b.insert e.1 e.2)) :
    ofItems (a.entries.map item) = .ok a := by
  rw [ofItems, foldlM_enter hitem, foldl_insert_entries]

/-! ## Parts

What the items of a list say stands in the list. -/

/-- The key of an item and its raw value. -/
def Item.texts (item : Item) : List Char := item.key ++ item.value.getD []

theorem takeQuoted_sublist (cs : List Char) : ((takeQuoted cs).1 ++ (takeQuoted cs).2).Sublist cs :=
  ((List.Sublist.refl _).append (List.drop_sublist 1 _)).trans (Text.takeWhile_dropWhile_sublist _ cs)

theorem takeKey_sublist (cs : List Char) : ((takeKey cs).1 ++ (takeKey cs).2).Sublist cs := by
  unfold takeKey
  split
  · next cs => exact (takeQuoted_sublist cs).cons _
  · exact Text.takeWhile_dropWhile_sublist _ _

theorem takeValue_sublist (cs : List Char) : ((takeValue cs).1 ++ (takeValue cs).2).Sublist cs := by
  unfold takeValue
  split
  · next cs => exact (takeQuoted_sublist cs).cons _
  · exact Text.takeWhile_dropWhile_sublist _ _

theorem takeItem_sublist (cs : List Char) : ((takeItem cs).1.texts ++ (takeItem cs).2).Sublist cs := by
  have hkey := takeKey_sublist cs
  have hblank := Text.trimStart_sublist (takeKey cs).2
  unfold takeItem
  simp only
  split
  · next rest h =>
    have hvalue := (takeValue_sublist (Text.trimStart rest)).trans (Text.trimStart_sublist rest)
    rw [h] at hblank
    have := ((List.Sublist.refl (takeKey cs).1).append ((hvalue.cons ':').trans hblank)).trans hkey
    simpa [Item.texts] using this
  · have := ((List.Sublist.refl (takeKey cs).1).append hblank).trans hkey
    simpa [Item.texts] using this

theorem items_sublist (cs : List Char) : ((items cs).flatMap Item.texts).Sublist cs := by
  fun_induction items cs with
  | case1 => exact List.nil_sublist _
  | case2 cs c rest h ih =>
    have hitem := ((List.Sublist.refl (takeItem (c :: rest)).1.texts).append ih).trans (takeItem_sublist (c :: rest))
    rw [List.flatMap_cons]
    exact hitem.trans (h ▸ Text.trimStart_sublist cs)

/-! What follows a part of a list is an end of it. -/

theorem takeQuoted_suffix (cs : List Char) : (takeQuoted cs).2 <:+ cs :=
  (List.drop_suffix 1 _).trans (List.dropWhile_suffix _)

theorem takeKey_suffix (cs : List Char) : (takeKey cs).2 <:+ cs := by
  unfold takeKey
  split
  · next cs => exact (takeQuoted_suffix cs).trans (List.suffix_cons _ cs)
  · exact List.dropWhile_suffix _

theorem takeValue_suffix (cs : List Char) : (takeValue cs).2 <:+ cs := by
  unfold takeValue
  split
  · next cs => exact (takeQuoted_suffix cs).trans (List.suffix_cons _ cs)
  · exact List.dropWhile_suffix _

theorem takeItem_suffix (cs : List Char) : (takeItem cs).2 <:+ cs := by
  have hkey := (Text.trimStart_suffix (takeKey cs).2).trans (takeKey_suffix cs)
  unfold takeItem
  dsimp only
  split
  · next rest h =>
    rw [h] at hkey
    exact (takeValue_suffix _).trans ((Text.trimStart_suffix rest).trans ((List.suffix_cons _ rest).trans hkey))
  · exact hkey

end DefTree.Attributes
