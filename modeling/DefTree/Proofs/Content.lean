/-
Reading makes nothing up.

The texts of a tree are its names, arguments, bodies, keys, textual values
and paths. What the builder puts into them it has cut out of the lines: a
character other than a line feed stands in the texts at most as often as in
the lines.
-/
import DefTree.Proofs.Attributes
import DefTree.Proofs.Front
import Mathlib.Data.List.Flatten

namespace DefTree

/-- The text of a scalar, if it is one. -/
def Scalar.texts : Scalar → List Char
  | .text s => s.toList
  | _ => []

/-- The keys of entries and their textual values. -/
def Attributes.texts (es : List (String × Scalar)) : List Char := es.flatMap fun e => e.1.toList ++ e.2.texts

mutual

/-- All texts of a node. -/
def Node.texts : Node → List Char
  | .root _ _ children => Node.textsOf children
  | .sect name _ attributes children => name.toList ++ Attributes.texts attributes.entries ++ Node.textsOf children
  | .func name _ arguments body => name.toList ++ arguments.flatMap String.toList ++ body.toList
  | .prop name _ value => name.toList ++ value.texts
  | .ref _ _ path => path.toList

def Node.textsOf : List Node → List Char
  | [] => []
  | n :: ns => n.texts ++ Node.textsOf ns

end

theorem Node.textsOf_append (ms ns : List Node) : textsOf (ms ++ ns) = textsOf ms ++ textsOf ns := by
  induction ms with
  | nil => rfl
  | cons m ms ih => rw [List.cons_append, textsOf, textsOf, ih, List.append_assoc]

theorem Node.textsOf_singleton (n : Node) : textsOf [n] = n.texts := by
  rw [textsOf, textsOf, List.append_nil]

/-! ## Scalars and attributes -/

theorem Scalar.texts_ofToken {cs : List Char} {v : Scalar} (h : ofToken cs = .ok v) : v.texts.Sublist cs := by
  unfold ofToken at h
  split at h
  · cases h
  · cases h; exact List.nil_sublist _
  · split at h
    · cases h; exact List.nil_sublist _
    · cases h; rw [texts, String.toList_ofList]

theorem Scalar.texts_ofValue {raw : List Char} {v : Scalar} (h : ofValue raw = .ok v) : v.texts.Sublist raw := by
  unfold ofValue at h
  refine .trans ?_ (Text.trim_sublist raw)
  generalize Text.trim raw = cs at h
  simp only at h
  split at h
  · next inner hu =>
    cases h
    rw [texts, String.toList_ofList]
    unfold unquote? at hu
    split at hu
    · split at hu
      · cases hu; exact (List.dropLast_sublist _).cons _
      · cases hu
    · cases hu
  · exact texts_ofToken h

namespace Attributes

theorem count_put_le (c : Char) (key : String) (value : Scalar) (es : List (String × Scalar)) :
    (texts (put key value es)).count c ≤ (texts es).count c + (key.toList ++ value.texts).count c := by
  induction es with
  | nil => simp [put, texts]
  | cons e es ih =>
    obtain ⟨k, v⟩ := e
    simp only [put]
    split
    · next hk =>
      -- the key is known: its old value goes, and it is not entered again
      subst hk
      simp only [texts, List.flatMap_cons, List.count_append]
      omega
    · simp only [texts, List.flatMap_cons, List.count_append] at ih ⊢
      omega

theorem count_enter_le (c : Char) {a b : Attributes} {item : Item} (h : enter a item = .ok b) :
    (texts b.entries).count c ≤ (texts a.entries).count c + item.texts.count c := by
  unfold enter at h
  have hkey : (String.ofList item.key).toList = item.key := String.toList_ofList
  split at h
  · next hv =>
    cases h
    refine (count_put_le c _ _ a.entries).trans (Nat.add_le_add_left ?_ _)
    rw [hkey, Item.texts, hv]
    exact Nat.le_refl _
  · next raw hv =>
    cases ho : Scalar.ofToken raw with
    | error e => rw [ho] at h; cases h
    | ok v =>
      rw [ho] at h
      cases h
      refine (count_put_le c _ _ a.entries).trans (Nat.add_le_add_left ?_ _)
      rw [hkey, Item.texts, hv]
      exact ((List.Sublist.refl _).append (Scalar.texts_ofToken ho)).count_le c

theorem count_foldlM_le (c : Char) {is : List Item} : ∀ {a b : Attributes}, is.foldlM enter a = .ok b →
    (texts b.entries).count c ≤ (texts a.entries).count c + (is.flatMap Item.texts).count c := by
  induction is with
  | nil =>
    intro a b h
    cases h
    simp
  | cons i is ih =>
    intro a b h
    rw [List.foldlM_cons] at h
    cases he : enter a i with
    | error e => rw [he] at h; cases h
    | ok a' =>
      rw [he] at h
      have h₁ := count_enter_le c he
      have h₂ := ih h
      rw [List.flatMap_cons, List.count_append]
      omega

theorem count_read_le (c : Char) {cs : List Char} {a : Attributes} (h : read cs = .ok a) :
    (texts a.entries).count c ≤ cs.count c := by
  have h₁ := count_foldlM_le c h
  have h₂ := (items_sublist cs).count_le c
  have h₃ : (texts empty.entries).count c = 0 := rfl
  omega

end Attributes

/-! ## Lines -/

namespace Line

/-- All texts of a line. -/
def texts : Line → List Char
  | .ref path _ => path
  | .func name arguments _ => name ++ arguments.flatten
  | .sect name attributes => name ++ attributes
  | .prop key value => key ++ value
  | .unknown text => text

theorem arguments_sublist (cs : List Char) : (arguments cs).flatten.Sublist cs := by
  have htrim : ((Text.pieces ',' cs).map Text.trim).flatten.Sublist (Text.pieces ',' cs).flatten := by
    rw [← List.flatMap_def]
    simpa using List.Sublist.flatMap_right (Text.pieces ',' cs) (g := id) fun p _ => Text.trim_sublist p
  have hfilter : (arguments cs).Sublist ((Text.pieces ',' cs).map Text.trim) := List.filter_sublist
  exact (hfilter.flatten.trans htrim).trans (Text.flatten_pieces_sublist ',' cs)

theorem afterKeyword_sublist (cs : List Char) : (afterKeyword cs).Sublist cs := by
  unfold afterKeyword
  split
  · next c rest h =>
    split
    · exact (Text.trimStart_sublist rest).trans (((List.Sublist.refl rest).cons c).trans (Text.after?_sublist h))
    · exact Text.trimStart_sublist cs
  · exact Text.trimStart_sublist cs

theorem texts_ref? {cs : List Char} {l : Line} (h : ref? cs = some l) : l.texts.Sublist cs := by
  obtain ⟨rest, hrest, rfl⟩ := Option.map_eq_some_iff.1 h
  exact ((Text.trim_sublist _).trans (Text.without_sublist _ _)).trans
    ((afterKeyword_sublist rest).trans (Text.after?_sublist hrest))

theorem texts_func? {cs : List Char} {l : Line} (h : func? cs = some l) : l.texts.Sublist cs := by
  have hsplit := Text.takeWhile_dropWhile_sublist isWordChar cs
  unfold func? at h
  simp only at h
  split at h
  · next rest hrest =>
    split at h
    · cases h
      have harguments := (arguments_sublist (rest.takeWhile (· != ')'))).trans (List.takeWhile_sublist _)
      rw [hrest] at hsplit
      exact ((List.Sublist.refl _).append (harguments.cons '(')).trans hsplit
    · cases h
  · cases h

theorem texts_sect? {cs : List Char} {l : Line} (h : sect? cs = some l) : l.texts.Sublist cs := by
  unfold sect? at h
  split at h
  · cases h
    exact ((List.Sublist.refl _).append ((Text.trim_sublist _).trans (Text.without_sublist _ _))).trans
      (Text.takeWhile_dropWhile_sublist _ cs)
  · cases h

theorem texts_prop? {cs : List Char} {l : Line} (h : prop? cs = some l) : l.texts.Sublist cs := by
  obtain ⟨⟨key, value⟩, hcut, rfl⟩ := Option.map_eq_some_iff.1 h
  exact ((Text.trim_sublist key).append (.refl value)).trans (Text.cut?_sublist hcut)

theorem texts_read (cs : List Char) : (read cs).texts.Sublist cs := by
  unfold read
  cases hr : ref? cs with
  | some l => exact texts_ref? hr
  | none =>
    cases hf : func? cs with
    | some l => exact texts_func? hf
    | none =>
      cases hs : sect? cs with
      | some l => exact texts_sect? hs
      | none =>
        cases hp : prop? cs with
        | some l => exact texts_prop? hp
        | none => exact .refl cs

end Line

/-! ## Bodies -/

namespace Block

theorem trimLines_sublist (ls : List (List Char)) : (trimLines ls).Sublist ls := by
  have := (List.dropWhile_sublist Text.allBlank (l := (ls.dropWhile Text.allBlank).reverse)).reverse
  rw [List.reverse_reverse] at this
  exact this.trans (List.dropWhile_sublist _)

theorem cutMargin_sublist (width : Nat) (l : List Char) : (cutMargin width l).Sublist l := by
  unfold cutMargin
  cases h : Text.after? (List.replicate width ' ') l with
  | none => exact .refl l
  | some rest => exact Text.after?_sublist h

theorem count_unindent_le {c : Char} (hc : c ≠ '\n') (ls : List (List Char)) :
    (Text.unlines (unindent ls)).count c ≤ ls.flatten.count c := by
  have hcut : (unindent ls).flatten.Sublist (trimLines ls).flatten := by
    rw [unindent, ← List.flatMap_def]
    simpa using List.Sublist.flatMap_right (trimLines ls) (g := id) fun l _ => cutMargin_sublist _ l
  rw [Text.unlines, Text.count_joined hc]
  exact (hcut.trans (trimLines_sublist ls).flatten).count_le c

end Block

/-! ## Building -/

theorem texts_of_buildProp {key value : List Char} {n : Node} (h : (buildProp key value).result = .ok n) :
    n.texts.Sublist (key ++ value) := by
  unfold buildProp at h
  split at h
  · cases h
  · next v hv =>
    split at h
    · cases h
    · cases h
      rw [Node.propOf, Node.texts, String.toList_ofList]
      exact (List.Sublist.refl key).append (Scalar.texts_ofValue hv)

theorem count_texts_of_buildFunc {c : Char} (hc : c ≠ '\n') {name : List Char} {arguments : List (List Char)}
    {block : List (List Char)} {n : Node} (h : (buildFunc name arguments block).result = .ok n) :
    n.texts.count c ≤ (name ++ arguments.flatten).count c + block.flatten.count c := by
  cases h
  have harguments : (arguments.map String.ofList).flatMap String.toList = arguments.flatten := by
    rw [List.flatMap_def, List.map_map]
    congr 1
    exact (List.map_congr_left fun a _ => String.toList_ofList).trans (List.map_id _)
  rw [Node.funcOf, Node.texts, harguments, String.toList_ofList, String.toList_ofList, List.count_append]
  exact Nat.add_le_add_left (Block.count_unindent_le hc block) _

section Kept

variable {rule : ImportRule} (hrule : ∀ path deferred, rule path deferred = keepImport path)
include hrule

/-- The nodes of a construct and the lines after it share out the lines. -/
theorem count_texts_of_buildConstruct {c : Char} (hc : c ≠ '\n') {before : Nat} {l : List Char}
    {ls : List (List Char)} {xs : List Node}
    (h : (buildConstruct rule before (Front.read l ls).construct).result = .ok xs)
    (hblock : ∀ name attributes block, (Front.read l ls).construct = .sect name attributes block →
      ∀ before ns, (buildLines rule before block).result = .ok ns →
        (Node.textsOf ns).count c ≤ block.flatten.count c) :
    (Node.textsOf xs).count c + (Front.read l ls).rest.flatten.count c ≤ (l :: ls).flatten.count c := by
  have hline : (Line.read (Text.trim l)).texts.count c ≤ l.count c :=
    ((Line.texts_read _).trans (Text.trim_sublist l)).count_le c
  have hreads := Front.reads l ls
  rw [List.flatten_cons, List.count_append]
  generalize Front.read l ls = f at h hblock hreads
  cases hreads with
  | blank _ =>
    cases h
    rw [Node.textsOf]
    simp
  | unknown _ => cases h
  | openFunc _ _ => cases h
  | openSect _ _ =>
    obtain ⟨_, -, h⟩ := Run.bind_ok_iff.1 h
    cases h
  | @prop key value hr =>
    obtain ⟨n, hn, h⟩ := Run.bind_ok_iff.1 h
    cases h
    have := (texts_of_buildProp hn).count_le c
    rw [hr, Line.texts] at hline
    rw [Node.textsOf_singleton]
    simp only
    omega
  | @ref path deferred hr =>
    rw [buildConstruct, hrule] at h
    cases h
    rw [hr, Line.texts] at hline
    rw [Node.textsOf_singleton, Node.refOf, Node.texts, String.toList_ofList]
    simp only
    omega
  | @func name arguments opened block rest hr hs =>
    obtain ⟨n, hn, h⟩ := Run.bind_ok_iff.1 h
    cases h
    have hbody := count_texts_of_buildFunc hc hn
    obtain ⟨close, hsplit⟩ := Block.eq_of_split? hs
    -- a line between the header and its block is skipped
    have hdrop := ((List.drop_sublist (Front.gap opened) ls).flatten).count_le c
    rw [hsplit, List.flatten_append, List.flatten_cons, List.count_append, List.count_append] at hdrop
    rw [hr, Line.texts] at hline
    rw [Node.textsOf_singleton]
    simp only
    omega
  | @sect name attributes block rest hr hs =>
    obtain ⟨a, ha, h⟩ := Run.bind_ok_iff.1 h
    obtain ⟨_, -, h⟩ := Run.bind_ok_iff.1 h
    obtain ⟨children, hchildren, h⟩ := Run.bind_ok_iff.1 h
    cases h
    have hattributes : (Attributes.texts a.entries).count c ≤ attributes.count c := by
      unfold buildAttributes at ha
      split at ha
      · cases ha
      · next a' hread =>
        cases ha
        exact Attributes.count_read_le c hread
    have hinner := hblock name attributes block rfl _ _ hchildren
    obtain ⟨close, rfl⟩ := Block.eq_of_split? hs
    rw [hr, Line.texts, List.count_append] at hline
    rw [Node.textsOf_singleton, Node.sectOf, Node.texts, String.toList_ofList, List.flatten_append,
      List.flatten_cons]
    simp only [List.count_append]
    omega

/-- **Reading makes nothing up**: each character other than a line feed stands in the texts of the
nodes at most as often as in the lines that they were built from, if imports are kept. -/
theorem count_texts_of_buildLines {c : Char} (hc : c ≠ '\n') {ls : List (List Char)} :
    ∀ {before : Nat} {ns : List Node}, (buildLines rule before ls).result = .ok ns →
      (Node.textsOf ns).count c ≤ ls.flatten.count c := by
  induction ls using Front.induction with
  | nil =>
    intro before ns h
    rw [buildLines_nil] at h
    cases h
    exact Nat.le_refl 0
  | cons l ls ih ihblock =>
    intro before ns h
    rw [buildLines_cons] at h
    obtain ⟨xs, hx, h⟩ := Run.bind_ok_iff.1 h
    obtain ⟨ys, hy, h⟩ := Run.bind_ok_iff.1 h
    cases h
    have hfront := count_texts_of_buildConstruct hrule hc hx
      fun name attributes block hconstruct before ns hns => ihblock name attributes block hconstruct hns
    have hrest := ih hy
    rw [Node.textsOf_append, List.count_append]
    omega

end Kept

end DefTree
