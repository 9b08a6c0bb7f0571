/-
Keys of paths.

A path may be spelled in many ways: with a dot between two slashes, with
more slashes than it needs, or with a name that two dots take back. The key
is the same for all of them (`key_respelled`), wherever in the path this
stands and whatever stands before it: a walk that goes into a directory and
back is where it was, also above the root, where two dots change nothing.

The key itself needs none of this. It begins with one slash or with two, and
what follows are names only (`IsKey`), so reading the key as a path gives
these names and they lead to the place that the key is the text of.
-/
import DefTree.Disk
import DefTree.Proofs.Text

namespace DefTree

/-! ## Names and spellings -/

namespace Path

/-- A name that a directory or file can have: there is no slash in it, and it is neither empty nor
one of the two that stand for another directory. -/
structure IsName (name : String) : Prop where
  ne_empty : name ≠ ""
  ne_dot : name ≠ "."
  ne_dots : name ≠ ".."
  slash : '/' ∉ name.toList

/-- The text before a part of a path: none, or one with a slash at its end. -/
def BeforePart (front : List Char) : Prop := front = [] ∨ front.getLast? = some '/'

/-- Two spellings of a path, the second with something more at a boundary of its parts: a dot, a
slash, or a name that is taken back at once. -/
inductive Respelled : List Char → List Char → Prop where
  | dot {front back : List Char} (h : BeforePart front) :
      Respelled (front ++ back) (front ++ '.' :: '/' :: back)
  | slash {front back : List Char} (hne : front ≠ [])
      (h : BeforePart front ∨ back = [] ∨ back.head? = some '/') : Respelled (front ++ back) (front ++ '/' :: back)
  | back {front back : List Char} {name : String} (h : BeforePart front) (hname : IsName name) :
      Respelled (front ++ back) (front ++ (name.toList ++ '/' :: '.' :: '.' :: '/' :: back))

/-- A text with one slash or two and then nothing, or names with a slash between them. -/
inductive IsKey : List Char → Prop where
  | intro {slashes rest : List Char} (hslashes : slashes = ['/'] ∨ slashes = ['/', '/'])
      (hrest : rest = [] ∨ ∀ part ∈ Text.pieces '/' rest, IsName (String.ofList part)) : IsKey (slashes ++ rest)

/-! ## The parts of a text -/

/-- The parts that a text is read as. -/
def partsOf (cs : List Char) : List String :=
  ((Text.pieces '/' cs).map String.ofList).filter fun p => p ≠ "" ∧ p ≠ "."

theorem partsOf_nil : partsOf [] = [] := rfl

theorem partsOf_slash (cs ds : List Char) : partsOf (cs ++ '/' :: ds) = partsOf cs ++ partsOf ds := by
  rw [partsOf, Text.pieces_append, List.map_append, List.filter_append, ← partsOf, ← partsOf]

/-- A text without a slash is one part, if it is one at all. -/
theorem partsOf_of_not_mem {s : String} (h : '/' ∉ s.toList) :
    partsOf s.toList = if s ≠ "" ∧ s ≠ "." then [s] else [] := by
  rw [partsOf, Text.pieces_of_not_mem h, List.map_singleton, String.ofList_toList, List.filter_singleton]
  simp

theorem IsName.partsOf_eq {name : String} (h : IsName name) : partsOf name.toList = [name] := by
  rw [partsOf_of_not_mem h.slash, if_pos ⟨h.ne_empty, h.ne_dot⟩]

theorem IsName.exists_cons {name : String} (h : IsName name) : ∃ c cs, name.toList = c :: cs ∧ c ≠ '/' := by
  obtain ⟨c, cs, hcs⟩ := List.exists_cons_of_ne_nil fun hnil => h.ne_empty (String.toList_eq_nil_iff.1 hnil)
  exact ⟨c, cs, hcs, fun hc => h.slash (by rw [hcs, hc]; exact List.mem_cons_self)⟩

theorem BeforePart.partsOf_append {front : List Char} (h : BeforePart front) (back : List Char) :
    partsOf (front ++ back) = partsOf front ++ partsOf back := by
  rcases h with rfl | h
  · rfl
  · obtain ⟨front, rfl⟩ := List.getLast?_eq_some_iff.1 h
    rw [List.append_assoc, List.singleton_append, partsOf_slash, partsOf_slash, partsOf_nil, List.append_nil]

/-- What a text is read as are names and steps back. -/
theorem isName_or_of_mem_partsOf {cs : List Char} {part : String} (h : part ∈ partsOf cs) :
    IsName part ∨ part = ".." := by
  obtain ⟨hmem, hkept⟩ := List.mem_filter.1 h
  obtain ⟨piece, hpiece, rfl⟩ := List.mem_map.1 hmem
  obtain ⟨hempty, hdot⟩ := of_decide_eq_true hkept
  by_cases hdots : String.ofList piece = ".."
  · exact .inr hdots
  · exact .inl ⟨hempty, hdot, hdots, by rw [String.toList_ofList]; exact Text.not_mem_of_mem_pieces hpiece⟩

theorem partsOf_joined {names : List String} (h : ∀ name ∈ names, IsName name) :
    partsOf (Text.joined '/' (names.map String.toList)) = names := by
  induction names with
  | nil => rfl
  | cons name names ih =>
    obtain ⟨hname, hnames⟩ := List.forall_mem_cons.1 h
    cases names with
    | nil => exact hname.partsOf_eq
    | cons name' names =>
      rw [List.map_cons, List.map_cons, Text.joined, partsOf_slash, hname.partsOf_eq]
      exact congrArg _ (ih hnames)

end Path

/-! ## Walks -/

namespace Place

theorem follow_append (here : Place) (parts more : List String) :
    here.follow (parts ++ more) = (here.follow parts).follow more := by
  induction parts generalizing here with
  | nil => rfl
  | cons part parts ih =>
    rw [List.cons_append, follow, follow]
    split
    · exact ih here.tail
    · exact ih (part :: here)

theorem follow_back {name : String} (h : name ≠ "..") (here : Place) (parts : List String) :
    here.follow (name :: ".." :: parts) = here.follow parts := by
  rw [follow, if_neg h, follow, if_pos rfl, List.tail_cons]

theorem follow_names {names : List String} (h : ∀ name ∈ names, Path.IsName name) (here : Place) :
    here.follow names = names.reverse ++ here := by
  induction names generalizing here with
  | nil => rfl
  | cons name names ih =>
    obtain ⟨hname, hnames⟩ := List.forall_mem_cons.1 h
    rw [follow, if_neg hname.ne_dots, ih hnames, List.reverse_cons, List.append_assoc, List.singleton_append]

/-- A walk from a place of names along names and steps back ends at a place of names. -/
theorem isName_of_mem_follow {here : Place} {parts : List String} (hhere : ∀ name ∈ here, Path.IsName name)
    (hparts : ∀ part ∈ parts, Path.IsName part ∨ part = "..") :
    ∀ name ∈ here.follow parts, Path.IsName name := by
  induction parts generalizing here with
  | nil => exact hhere
  | cons part parts ih =>
    obtain ⟨hpart, hparts⟩ := List.forall_mem_cons.1 hparts
    rw [follow]
    split
    · exact ih (fun name hname => hhere name (List.mem_of_mem_tail hname)) hparts
    · next hne => exact ih (List.forall_mem_cons.2 ⟨hpart.resolve_right hne, hhere⟩) hparts

theorem toList_text (anchor : Anchor) (p : Place) :
    (p.text anchor).toList = anchor.text.toList ++ Text.joined '/' (p.reverse.map String.toList) := by
  rw [text, String.toList_append, String.toList_intercalate, Text.joined_eq_intercalate]
  rfl

end Place

/-! ## Paths that lead to the same places -/

namespace Path

theorem anchorOf_eq_working_iff {n : Nat} : anchorOf n = .working ↔ n = 0 := by
  unfold anchorOf
  split
  · next h => simp [h]
  · next h => split <;> simp [h]

theorem isAbsolute_ofText_iff {s : String} : (ofText s).isAbsolute = true ↔ s.toList.head? = some '/' := by
  have hanchor : (ofText s).isAbsolute = true ↔ (s.toList.takeWhile (· == '/')).length ≠ 0 := by
    rw [isAbsolute, decide_eq_true_iff, ne_eq, ofText, anchorOf_eq_working_iff]
  rw [hanchor]
  cases s.toList with
  | nil => simp
  | cons c cs => by_cases hc : c = '/' <;> simp [hc]

/-- From everywhere two paths lead to the same place, and both are absolute or none is. -/
structure Alike (p q : Path) : Prop where
  anchor : p.anchor = q.anchor
  follow : ∀ here : Place, here.follow p.parts = here.follow q.parts

namespace Alike

variable {p q : Path}

theorem key_eq (h : Alike p q) (cwd : Place) : p.key cwd = q.key cwd := by
  have habsolute : p.isAbsolute = q.isAbsolute := by rw [isAbsolute, isAbsolute, h.anchor]
  have hstart : p.start cwd = q.start cwd := by rw [start, start, habsolute]
  have hplace : p.place cwd = q.place cwd := by rw [place, place, hstart, h.follow]
  rw [key, key, hplace, keyAnchor, keyAnchor, habsolute, h.anchor]

/-- Seen from a directory they lead to the same places too. -/
theorem under (h : Alike p q) (base : Path) : Alike (base.under p) (base.under q) := by
  have habsolute : p.isAbsolute = q.isAbsolute := by rw [isAbsolute, isAbsolute, h.anchor]
  rw [Path.under, Path.under, habsolute]
  split
  · exact h
  · refine ⟨rfl, fun here => ?_⟩
    rw [Place.follow_append, Place.follow_append, h.follow]

end Alike

/-- What is put into a path leads nowhere. -/
theorem Respelled.follow_eq {cs ds : List Char} (h : Respelled cs ds) (here : Place) :
    here.follow (partsOf ds) = here.follow (partsOf cs) := by
  cases h with
  | dot h =>
    next front back =>
    have hdot : partsOf ('.' :: '/' :: back) = partsOf back := partsOf_slash ['.'] back
    rw [h.partsOf_append, h.partsOf_append, hdot]
  | slash _ h =>
    next front back =>
    rw [partsOf_slash]
    rcases h with h | rfl | h
    · rw [h.partsOf_append]
    · rw [partsOf_nil, List.append_nil, List.append_nil]
    · obtain ⟨back, rfl⟩ := List.head?_eq_some_iff.1 h
      have hslash : partsOf ('/' :: back) = partsOf back := partsOf_slash [] back
      rw [hslash, partsOf_slash]
  | back h hname =>
    next front back name =>
    have hback : partsOf (name.toList ++ '/' :: '.' :: '.' :: '/' :: back) = name :: ".." :: partsOf back := by
      rw [partsOf_slash, hname.partsOf_eq]
      exact congrArg _ (partsOf_slash ['.', '.'] back)
    rw [h.partsOf_append, h.partsOf_append, hback, Place.follow_append, Place.follow_append,
      Place.follow_back hname.ne_dots]

theorem Respelled.head? {cs ds : List Char} (h : Respelled cs ds) (hcs : cs.head? ≠ some '/') :
    ds.head? ≠ some '/' := by
  have happend {front back back' : List Char} (hne : front ≠ []) (hcs : (front ++ back).head? ≠ some '/') :
      (front ++ back').head? ≠ some '/' := by
    rwa [List.head?_append_of_ne_nil _ hne] at hcs ⊢
  cases h with
  | dot h =>
    next front back =>
    by_cases hne : front = []
    · subst hne
      simp
    · exact happend hne hcs
  | slash hne _ => exact happend hne hcs
  | back h hname =>
    next front back name =>
    by_cases hne : front = []
    · subst hne
      obtain ⟨c, cs, hname, hc⟩ := hname.exists_cons
      simpa [hname] using hc
    · exact happend hne hcs

theorem anchor_ofText_of_head? {s : String} (h : s.toList.head? ≠ some '/') : (ofText s).anchor = .working := by
  have hrelative : ¬(ofText s).isAbsolute = true := mt isAbsolute_ofText_iff.1 h
  simpa [isAbsolute] using hrelative

theorem Respelled.alike {s t : String} (h : Respelled s.toList t.toList) (hs : s.toList.head? ≠ some '/') :
    Alike (ofText t) (ofText s) where
  anchor := (anchor_ofText_of_head? (h.head? hs)).trans (anchor_ofText_of_head? hs).symm
  follow := h.follow_eq

/-! ## Keys -/

theorem head?_joined {names : List String} (h : ∀ name ∈ names, IsName name) :
    (Text.joined '/' (names.map String.toList)).head? ≠ some '/' := by
  cases names with
  | nil => simp [Text.joined]
  | cons name names =>
    obtain ⟨c, cs, hname, hc⟩ := (h name List.mem_cons_self).exists_cons
    cases names with
    | nil => simpa [Text.joined, hname] using hc
    | cons name' names => simpa [Text.joined, hname] using hc

theorem ofText_text {anchor : Anchor} (hanchor : anchor ≠ .working) {p : Place} (h : ∀ name ∈ p, IsName name) :
    ofText (p.text anchor) = ⟨anchor, p.reverse⟩ := by
  have hnames : ∀ name ∈ p.reverse, IsName name := fun name hname => h name (List.mem_reverse.1 hname)
  have hhead : ∀ c, (Text.joined '/' (p.reverse.map String.toList)).head? = some c → (c == '/') = false := fun c hc =>
    beq_false_of_ne fun he => head?_joined hnames (he ▸ hc)
  have hslashes : ∀ c ∈ anchor.text.toList, (c == '/') = true := by cases anchor <;> simp [Anchor.text]
  have hanchor' : anchorOf anchor.text.toList.length = anchor := by
    cases anchor with
    | working => exact absurd rfl hanchor
    | slash | doubleSlash => rfl
  have hparts (cs : List Char) : partsOf (anchor.text.toList ++ cs) = partsOf cs := by
    cases anchor with
    | working => exact absurd rfl hanchor
    | slash => exact partsOf_slash [] cs
    | doubleSlash => exact (partsOf_slash [] ('/' :: cs)).trans (partsOf_slash [] cs)
  have htext := Place.toList_text anchor p
  rw [ofText, ← partsOf, htext, Text.takeWhile_run hslashes hhead, hanchor', hparts, partsOf_joined hnames]

theorem key_reverse {anchor : Anchor} (hanchor : anchor ≠ .working) {p : Place} (h : ∀ name ∈ p, IsName name)
    (cwd : Place) : key cwd ⟨anchor, p.reverse⟩ = p.text anchor := by
  have hnames : ∀ name ∈ p.reverse, IsName name := fun name hname => h name (List.mem_reverse.1 hname)
  have habsolute : isAbsolute ⟨anchor, p.reverse⟩ = true := decide_eq_true hanchor
  rw [key, keyAnchor, place, start, if_pos habsolute, if_pos habsolute, Place.follow_names hnames, List.append_nil,
    List.reverse_reverse]

theorem keyAnchor_ne_working (p : Path) : p.keyAnchor ≠ .working := by
  rcases p.keyAnchor_eq with h | h <;> simp [h]

/-- A key is read as an absolute path, and is its own key. -/
theorem key_ofText_key {p : Path} {cwd : Place} (h : ∀ name ∈ p.place cwd, IsName name) (cwd' : Place) :
    (ofText (p.key cwd)).isAbsolute = true ∧ (ofText (p.key cwd)).key cwd' = p.key cwd := by
  have hread : ofText (p.key cwd) = ⟨p.keyAnchor, (p.place cwd).reverse⟩ := ofText_text p.keyAnchor_ne_working h
  rw [hread]
  exact ⟨decide_eq_true p.keyAnchor_ne_working, key_reverse p.keyAnchor_ne_working h cwd'⟩

theorem isKey_text {anchor : Anchor} (hanchor : anchor ≠ .working) {p : Place} (h : ∀ name ∈ p, IsName name) :
    IsKey (p.text anchor).toList := by
  have hslashes : anchor.text.toList = ['/'] ∨ anchor.text.toList = ['/', '/'] := by
    cases anchor with
    | working => exact absurd rfl hanchor
    | slash => exact .inl rfl
    | doubleSlash => exact .inr rfl
  rw [Place.toList_text]
  refine .intro hslashes ?_
  by_cases hp : p = []
  · exact .inl (hp ▸ rfl)
  have hne : p.reverse.map String.toList ≠ [] := by simpa using hp
  have hslash : ∀ part ∈ p.reverse.map String.toList, '/' ∉ part := by
    simpa using fun name hname => (h name hname).slash
  rw [Text.pieces_joined hne hslash]
  simpa using .inr h

/-- The parts of a path are names and steps back. -/
def IsRead (p : Path) : Prop := ∀ part ∈ p.parts, IsName part ∨ part = ".."

theorem isRead_ofText (s : String) : IsRead (ofText s) := fun _ h => isName_or_of_mem_partsOf h

theorem IsRead.under {base p : Path} (hbase : IsRead base) (hp : IsRead p) : IsRead (base.under p) := by
  rw [Path.under]
  split
  · exact hp
  · exact fun part hpart => (List.mem_append.1 hpart).elim (hbase part) (hp part)

/-- The place that such a path leads to has a name at each step. -/
theorem IsRead.isName_of_mem_place {p : Path} (h : IsRead p) {cwd : Place} (hcwd : ∀ name ∈ cwd, IsName name) :
    ∀ name ∈ p.place cwd, IsName name := by
  refine Place.isName_of_mem_follow ?_ h
  rw [start]
  split
  · simp
  · exact hcwd

end Path

namespace Disk

variable {base : Option String}

theorem isRead_importPath (base : Option String) (path : String) : (importPath (base.map .ofText) path).IsRead := by
  cases base with
  | none => exact Path.isRead_ofText path
  | some base => exact (Path.isRead_ofText base).under (Path.isRead_ofText path)

theorem alike_importPath {path path' : String} (h : Path.Respelled path.toList path'.toList)
    (hrelative : path.toList.head? ≠ some '/') (base : Option Path) :
    Path.Alike (importPath base path') (importPath base path) := by
  cases base with
  | none => exact h.alike hrelative
  | some base => exact (h.alike hrelative).under base

theorem importPath_of_isAbsolute {path : String} (h : (Path.ofText path).isAbsolute = true) (base : Option Path) :
    importPath base path = .ofText path := by
  cases base with
  | none => rfl
  | some base => exact if_pos h

end Disk

/-- **The key of an import is the same for every spelling of its path.** In whatever directory the program runs and
from whatever directory paths are seen, more dots, more slashes and names that are taken back do not change the key
of a relative path; the key is an absolute path without any of these, and it is its own key. -/
theorem key_respelled (d : Disk) (hcwd : ∀ name ∈ d.cwd, Path.IsName name) (base : Option String) (e : Encoding)
    (path : String) (hrelative : path.toList.head? ≠ some '/') :
    (∀ path' : String, Path.Respelled path.toList path'.toList →
        (d.loader (base.map .ofText) e).key path' = (d.loader (base.map .ofText) e).key path) ∧
      Path.IsKey ((d.loader (base.map .ofText) e).key path).toList ∧
      (d.loader (base.map .ofText) e).key ((d.loader (base.map .ofText) e).key path) =
        (d.loader (base.map .ofText) e).key path := by
  have hnames := (Disk.isRead_importPath base path).isName_of_mem_place hcwd
  obtain ⟨habsolute, hkey⟩ := Path.key_ofText_key hnames d.cwd
  refine ⟨fun path' h => (Disk.alike_importPath h hrelative _).key_eq d.cwd,
    Path.isKey_text (Path.keyAnchor_ne_working _) hnames, ?_⟩
  exact (congrArg (Path.key d.cwd) (Disk.importPath_of_isAbsolute habsolute _)).trans hkey

/-- A name taken back behind steps that lead above the root, seen from a directory with a step back of its own. -/
theorem key_respelled_above_root :
    ∃ d : Disk, d.cwd = ["w"] ∧ (∀ name ∈ d.cwd, Path.IsName name) ∧ "../../../a/b".toList.head? ≠ some '/' ∧
      Path.Respelled "../../../a/b".toList "../../../t/../a/b".toList ∧
      (d.loader ((some "lib//x/..").map .ofText) .utf8).key "../../../t/../a/b" = "/a/b" ∧
      Path.IsKey "/a/b".toList ∧ (d.loader ((some "lib//x/..").map .ofText) .utf8).key "/a/b" = "/a/b" := by
  let d : Disk := ⟨["w"], []⟩
  have hcwd : ∀ name ∈ d.cwd, Path.IsName name := by
    simpa [d] using (⟨by decide, by decide, by decide, by decide⟩ : Path.IsName "w")
  have hrelative : "../../../a/b".toList.head? ≠ some '/' := by decide
  have hname : Path.IsName "t" := ⟨by decide, by decide, by decide, by decide⟩
  have hrespelled : Path.Respelled "../../../a/b".toList "../../../t/../a/b".toList :=
    @Path.Respelled.back "../../../".toList "a/b".toList "t" (.inr (by decide)) hname
  have hkey : (d.loader ((some "lib//x/..").map .ofText) .utf8).key "../../../a/b" = "/a/b" := by decide +kernel
  obtain ⟨hsame, hwritten, hown⟩ := key_respelled d hcwd (some "lib//x/..") .utf8 "../../../a/b" hrelative
  rw [hkey] at hwritten hown hsame
  exact ⟨d, rfl, hcwd, hrelative, hrespelled, hsame _ hrespelled, hwritten, hown⟩

end DefTree
