/-
Paths of names.

All names of a path but the last lead into first children (`Descends`); the
last one is an attribute of the node that is reached, or else its first
child, of which a property gives its value. If the path ends at a child
after all, then it is one more first child, and a longer path goes on from
there (`navigate?_append`).
-/
import DefTree.Cursor
import DefTree.Proofs.Text

namespace DefTree.Cursor

/-! ## First children -/

/-- A cursor at the first child of a name. -/
def IsFirstChild (c : Cursor) (name : String) (d : Cursor) : Prop :=
  ∃ i, d.place = c.place ++ [i] ∧ c.node.children[i]? = some d.node ∧ d.node.name = name ∧
    ∀ j < i, ∀ n, c.node.children[j]? = some n → n.name ≠ name

theorem getElem?_enumerate (place : List Nat) (ns : List Node) (index i : Nat) :
    (enumerate place index ns)[i]? = ns[i]?.map fun n => ⟨place ++ [index + i], n⟩ := by
  induction ns generalizing index i with
  | nil => rfl
  | cons n ns ih =>
    cases i with
    | zero => rfl
    | succ i =>
      have hsucc : index + (i + 1) = index + 1 + i := by omega
      rw [enumerate, List.getElem?_cons_succ, List.getElem?_cons_succ, ih, hsucc]

theorem getElem?_children (c : Cursor) (i : Nat) :
    c.children[i]? = c.node.children[i]?.map fun n => ⟨c.place ++ [i], n⟩ := by
  rw [children, getElem?_enumerate, Nat.zero_add]

theorem find?_eq_some_iff {c d : Cursor} {name : String} : c.find? name = some d ↔ c.IsFirstChild name d := by
  rw [find?, List.find?_eq_some_iff_getElem]
  constructor
  · rintro ⟨hname, i, hi, hget, hbefore⟩
    have hd : c.children[i]? = some d := List.getElem?_eq_some_iff.2 ⟨hi, hget⟩
    rw [getElem?_children] at hd
    obtain ⟨n, hn, rfl⟩ := Option.map_eq_some_iff.1 hd
    refine ⟨i, rfl, hn, by simpa using hname, fun j hj m hm => ?_⟩
    have hm' : c.children[j]? = some ⟨c.place ++ [j], m⟩ := by rw [getElem?_children, hm, Option.map_some]
    obtain ⟨hj', hget⟩ := List.getElem?_eq_some_iff.1 hm'
    have hne := hbefore j hj
    rw [hget] at hne
    simpa using hne
  · rintro ⟨i, hplace, hnode, hname, hbefore⟩
    have hd : c.children[i]? = some d := by
      rw [getElem?_children, hnode, Option.map_some, ← hplace]
    obtain ⟨hi, hget⟩ := List.getElem?_eq_some_iff.1 hd
    refine ⟨by simpa using hname, i, hi, hget, fun j hj => ?_⟩
    have hm : c.children[j]? = some c.children[j] := List.getElem?_eq_getElem (Nat.lt_trans hj hi)
    rw [getElem?_children] at hm
    obtain ⟨n, hn, heq⟩ := Option.map_eq_some_iff.1 hm
    rw [← heq]
    simpa using hbefore j hj n hn

/-- Names lead from a cursor to another one, each into the first child of that name. -/
inductive Descends : Cursor → List String → Cursor → Prop where
  | here (c : Cursor) : Descends c [] c
  | into {c d e : Cursor} {name : String} {names : List String} (h : c.IsFirstChild name d) :
      Descends d names e → Descends c (name :: names) e

theorem foldlM_find?_eq_some_iff {c e : Cursor} {names : List String} :
    names.foldlM find? c = some e ↔ c.Descends names e := by
  induction names generalizing c with
  | nil =>
    constructor
    · rintro ⟨⟩
      exact .here _
    · rintro ⟨⟩
      rfl
  | cons name names ih =>
    rw [List.foldlM_cons]
    constructor
    · intro h
      obtain ⟨d, hd, he⟩ := Option.bind_eq_some_iff.1 h
      exact .into (find?_eq_some_iff.1 hd) (ih.1 he)
    · rintro (_ | ⟨hd, he⟩)
      exact Option.bind_eq_some_iff.2 ⟨_, find?_eq_some_iff.2 hd, ih.2 he⟩

/-! ## The last name -/

theorem resolve?_of_attribute {c : Cursor} {name : String} {v : Scalar} (h : c.node.attribute? name = some v) :
    c.resolve? name = some (.scalar v) := by
  rw [resolve?, h]

/-- Where there is no attribute, a property gives its value and any other child itself. -/
theorem resolve?_of_child {c d : Cursor} {name : String} (h : c.node.attribute? name = none)
    (hd : c.IsFirstChild name d) :
    (∀ n type v, d.node = .prop n type v → c.resolve? name = some (.scalar v)) ∧
      (d.node.kind ≠ .prop → c.resolve? name = some (.node d)) := by
  obtain ⟨place, node⟩ := d
  rw [resolve?, h]
  dsimp only
  rw [find?_eq_some_iff.2 hd]
  constructor
  · rintro n type v rfl
    rfl
  · intro hkind
    cases node with
    | prop => exact absurd rfl hkind
    | _ => rfl

theorem exists_resolve?_iff {c : Cursor} {name : String} : (∃ t, c.resolve? name = some t) ↔
    (∃ v, c.node.attribute? name = some v) ∨ ∃ d, c.IsFirstChild name d := by
  simp only [← find?_eq_some_iff]
  rw [resolve?]
  cases c.node.attribute? name with
  | some v => simp
  | none => simp

theorem isFirstChild_of_resolve? {c d : Cursor} {name : String} (h : c.resolve? name = some (.node d)) :
    c.IsFirstChild name d := by
  rw [resolve?] at h
  split at h
  · cases h
  · obtain ⟨⟨place, node⟩, hfind, htarget⟩ := Option.map_eq_some_iff.1 h
    cases node with
    | prop => cases htarget
    | _ =>
      cases htarget
      exact find?_eq_some_iff.1 hfind

/-! ## Paths -/

/-- The names of a path. -/
def segments (path : String) : List String := (Text.pieces '.' path.toList).map String.ofList

theorem exists_segments (path : String) : ∃ names last, segments path = names ++ [last] := by
  have hne : segments path ≠ [] := by simp [segments, Text.pieces_ne_nil]
  exact ⟨_, _, (List.dropLast_append_getLast hne).symm⟩

theorem segments_dot (p q : String) : segments (p ++ "." ++ q) = segments p ++ segments q := by
  rw [segments, String.toList_append, String.toList_append, List.append_assoc, segments, segments, ← List.map_append]
  exact congrArg _ (Text.pieces_append '.' p.toList q.toList)

theorem follow?_concat (c : Cursor) (names : List String) (last : String) :
    c.follow? (names ++ [last]) = (names.foldlM find? c).bind (·.resolve? last) := by
  induction names generalizing c with
  | nil => rfl
  | cons name names ih =>
    have hrest : names ++ [last] ≠ [] := by simp
    have hfollow : c.follow? (name :: (names ++ [last])) = (c.find? name).bind (·.follow? (names ++ [last])) := by
      obtain ⟨second, rest, h⟩ := List.exists_cons_of_ne_nil hrest
      rw [h]
      rfl
    rw [List.cons_append, hfollow, List.foldlM_cons]
    cases c.find? name with
    | none => rfl
    | some d => exact ih d

theorem navigate?_eq {path : String} (hpath : path ≠ "") {names : List String} {last : String}
    (h : segments path = names ++ [last]) (c : Cursor) :
    c.navigate? path = (names.foldlM find? c).bind (·.resolve? last) := by
  have hempty : path.isEmpty = false := by simpa [String.isEmpty_iff] using hpath
  rw [navigate?, hempty, if_neg Bool.false_ne_true, ← segments, h, follow?_concat]

theorem navigate?_of_descends {path : String} (hpath : path ≠ "") {names : List String} {last : String}
    (h : segments path = names ++ [last]) {c d : Cursor} (hd : c.Descends names d) :
    c.navigate? path = d.resolve? last := by
  rw [navigate?_eq hpath h, foldlM_find?_eq_some_iff.2 hd, Option.bind_some]

theorem exists_descends {path : String} (hpath : path ≠ "") {names : List String} {last : String}
    (h : segments path = names ++ [last]) {c : Cursor} {t : Target} (ht : c.navigate? path = some t) :
    ∃ d, c.Descends names d ∧ d.resolve? last = some t := by
  rw [navigate?_eq hpath h] at ht
  obtain ⟨d, hd, ht⟩ := Option.bind_eq_some_iff.1 ht
  exact ⟨d, foldlM_find?_eq_some_iff.1 hd, ht⟩

/-- **A longer path goes on where the shorter one ends.** -/
theorem navigate?_append {p q : String} (hp : p ≠ "") (hq : q ≠ "") {c d : Cursor}
    (h : c.navigate? p = some (.node d)) : c.navigate? (p ++ "." ++ q) = d.navigate? q := by
  obtain ⟨names, last, hnames⟩ := exists_segments p
  obtain ⟨names', last', hnames'⟩ := exists_segments q
  obtain ⟨e, he, htarget⟩ := exists_descends hp hnames h
  have hd : (names ++ [last]).foldlM find? c = some d := by
    rw [List.foldlM_append, foldlM_find?_eq_some_iff.2 he]
    show e.find? last >>= pure = some d
    rw [bind_pure, find?_eq_some_iff.2 (isFirstChild_of_resolve? htarget)]
  have hne : p ++ "." ++ q ≠ "" := by
    intro hempty
    have := congrArg String.toList hempty
    simp at this
  have hsegments : segments (p ++ "." ++ q) = (names ++ [last] ++ names') ++ [last'] := by
    rw [segments_dot, hnames, hnames', List.append_assoc (names ++ [last])]
  rw [navigate?_eq hne hsegments, List.foldlM_append, hd, navigate?_eq hq hnames']
  rfl

end DefTree.Cursor

namespace DefTree

/-- **Paths compose, and a path leads somewhere exactly if its names do.** If a path leads to a node, then a path that
goes on with a dot leads where the rest of it leads from there. A path leads somewhere exactly if its names but the
last lead into first children, and the node reached has an attribute or a child of the last name; the attribute
comes first, and a property gives its value, whatever that is. -/
theorem navigate?_path (c : Cursor) :
    (∀ p q d, p ≠ "" → q ≠ "" → c.navigate? p = some (.node d) → c.navigate? (p ++ "." ++ q) = d.navigate? q) ∧
    ∀ path names last, path ≠ "" → Cursor.segments path = names ++ [last] →
      ((∃ t, c.navigate? path = some t) ↔ ∃ d, c.Descends names d ∧
        ((∃ v, d.node.attribute? last = some v) ∨ ∃ e, d.IsFirstChild last e)) ∧
      ∀ d, c.Descends names d →
        (∀ v, d.node.attribute? last = some v → c.navigate? path = some (.scalar v)) ∧
        ∀ e, d.node.attribute? last = none → d.IsFirstChild last e →
          (∀ n type v, e.node = .prop n type v → c.navigate? path = some (.scalar v)) ∧
          (e.node.kind ≠ .prop → c.navigate? path = some (.node e)) := by
  refine ⟨fun p q d hp hq h => Cursor.navigate?_append hp hq h, fun path names last hpath h => ⟨⟨?_, ?_⟩, ?_⟩⟩
  · rintro ⟨t, ht⟩
    obtain ⟨d, hd, ht⟩ := Cursor.exists_descends hpath h ht
    exact ⟨d, hd, Cursor.exists_resolve?_iff.1 ⟨t, ht⟩⟩
  · rintro ⟨d, hd, hlast⟩
    rw [Cursor.navigate?_of_descends hpath h hd]
    exact Cursor.exists_resolve?_iff.2 hlast
  · intro d hd
    rw [Cursor.navigate?_of_descends hpath h hd]
    exact ⟨fun v hv => Cursor.resolve?_of_attribute hv, fun e hnone he => Cursor.resolve?_of_child hnone he⟩

/-- An attribute that is zero, before a child of its name, and a property that is false. -/
theorem navigate?_path_shadowed :
    let zero : Scalar := .number (.integer 0)
    let sect := Node.sectOf "a" (Attributes.empty.insert "n" zero) [.propOf "n" (.boolean true), .propOf "m" (.boolean false)]
    let c := Cursor.top (.rootOf [sect, .sectOf "a" .empty []])
    let d : Cursor := ⟨[0], sect⟩
    c.navigate? "a" = some (.node d) ∧ c.navigate? ("a" ++ "." ++ "n") = d.navigate? "n" ∧
      d.navigate? "n" = some (.scalar zero) ∧ c.navigate? "a.m" = some (.scalar (.boolean false)) := by
  intro zero sect c d
  have hd : c.Descends ["a"] d := .into ⟨0, rfl, rfl, rfl, by simp⟩ (.here d)
  obtain ⟨happend, hpath⟩ := navigate?_path c
  have hfirst : c.navigate? "a" = some (.node d) :=
    (((hpath "a" [] "a" (by decide) (by decide)).2 c (.here c)).2 d rfl ⟨0, rfl, rfl, rfl, by simp⟩).2 (by decide)
  have hfalse : c.navigate? "a.m" = some (.scalar (.boolean false)) :=
    (((hpath "a.m" ["a"] "m" (by decide) (by decide)).2 d hd).2 ⟨[0, 1], .propOf "m" (.boolean false)⟩ rfl
      ⟨1, rfl, rfl, rfl, by decide⟩).1 _ _ _ rfl
  have hzero : d.navigate? "n" = some (.scalar zero) :=
    (((navigate?_path d).2 "n" [] "n" (by decide) (by decide)).2 d (.here d)).1 zero rfl
  exact ⟨hfirst, happend "a" "n" d (by decide) (by decide) hfirst, hzero, hfalse⟩

end DefTree
