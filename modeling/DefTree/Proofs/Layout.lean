/-
Setting a tree into lines.

A section is a header, the lines of its children and a closing brace; a
function is a header, the lines of its body as they are and a closing
brace; properties and imports are one line each. Texts stand in double
quotes, everything else as it is.

A node is printable if its lines can say what it is: its names are words,
its texts have no quotes, backslashes, braces or line feeds, and what it
holds beside its lines, such as its type, is what the builder gives it.
-/
import DefTree.Build
import DefTree.Proofs.Block
import DefTree.Proofs.Number

namespace DefTree

/-- How a tree is set: how many spaces a section indents its lines by, and whether imports are
written as deferred. -/
structure Layout where
  width : Nat
  deferred : Bool

namespace Layout

def quote (s : String) : List Char := '"' :: s.toList ++ ['"']

def scalar : Scalar → List Char
  | .text s => quote s
  | .number (.integer n) => Numeral.signed n
  | .number (.float x) => Scalar.floatLayout.write x
  | .boolean b => (if b then "true" else "false").toList

/-- An attribute, after the name of its section or after another one. -/
def entry (e : String × Scalar) : List Char := ' ' :: quote e.1 ++ ':' :: ' ' :: scalar e.2

/-- The arguments of a function as they stand between its commas. -/
def argumentPieces : List String → List (List Char)
  | [] => []
  | a :: as => a.toList :: as.map (' ' :: ·.toList)

def sectHeader (name : String) (attributes : Attributes) : List Char :=
  name.toList ++ attributes.entries.flatMap entry ++ [' ', '{']

def funcHeader (name : String) (arguments : List String) : List Char :=
  name.toList ++ '(' :: Text.joined ',' (argumentPieces arguments) ++ [')', ' ', '{']

def propLine (name : String) (value : Scalar) : List Char := name.toList ++ ':' :: ' ' :: scalar value

def refLine (y : Layout) (path : String) : List Char :=
  (if y.deferred then Line.deferredMark else Line.importMark) ++ quote path

/-- A line with the margin of a level. -/
def indent (y : Layout) (level : Nat) (l : List Char) : List Char := List.replicate (level * y.width) ' ' ++ l

mutual

/-- The lines of a node at a level. The body of a function has its own margin. -/
def node (y : Layout) (level : Nat) : Node → List (List Char)
  | .root _ _ children => nodes y level children
  | .sect name _ attributes children =>
    y.indent level (sectHeader name attributes) :: (nodes y (level + 1) children ++ [y.indent level ['}']])
  | .func name _ arguments body =>
    y.indent level (funcHeader name arguments) :: (Text.lines body.toList ++ [y.indent level ['}']])
  | .prop name _ value => [y.indent level (propLine name value)]
  | .ref _ _ path => [y.indent level (y.refLine path)]

/-- The lines of nodes one after the other. -/
def nodes (y : Layout) (level : Nat) : List Node → List (List Char)
  | [] => []
  | n :: ns => node y level n ++ nodes y level ns

end

/-- The text of a tree. -/
def print (y : Layout) (tree : Node) : String := String.ofList (Text.unlines (y.node 0 tree))

end Layout

/-! ## Printable trees -/

/-- A word: what a name or an argument is. -/
def IsWord (s : String) : Prop := s.toList ≠ [] ∧ ∀ c ∈ s.toList, Line.isWordChar c = true

instance (s : String) : Decidable (IsWord s) :=
  @instDecidableAnd _ _ inferInstance (List.decidableBAll (Line.isWordChar · = true) s.toList)

/-- None of some characters stands in a text. -/
def Lacks (s : String) (cs : List Char) : Prop := ∀ c ∈ s.toList, c ∉ cs

instance (s : String) (cs : List Char) : Decidable (Lacks s cs) := List.decidableBAll (· ∉ cs) s.toList

/-- A scalar that can be written: a text without some characters, an integer that is not too long,
or a truth value. -/
def Scalar.Printable (cs : List Char) : Scalar → Prop
  | .text s => Lacks s cs
  | .number (.integer n) => (Numeral.decimal n.natAbs).length ≤ Numeral.digitLimit
  | .number (.float _) => False
  | .boolean _ => True

/-- An attribute that can be written. A text is one that would not be read as anything else: the
quotes of an attribute do not tell. -/
structure PrintableAttribute (e : String × Scalar) : Prop where
  key : Lacks e.1 ['"', '\\', '{', '}', '\n']
  value : e.2.Printable ['"', '\\', '{', '}', '\n']
  bare : ∀ s, e.2 = .text s → Number.read? s.toList = .ok none ∧ Scalar.boolean? s.toList = none

/-- A function's body that stays what it is: it has no margin to lose, and its braces are matched
in the eyes of the scan. -/
structure PrintableBody (body : String) : Prop where
  unindent : Text.unlines (Block.unindent (Text.lines body.toList)) = body.toList
  neutral : Scan.Neutral (body.toList.filter (· != '\n'))

/-- The nodes below a root that can be written. -/
inductive Node.Printable : Node → Prop where
  | sect {name : String} {attributes : Attributes} {children : List Node} : IsWord name →
      (∀ e ∈ attributes.entries, PrintableAttribute e) → (∀ n ∈ children, Printable n) →
      Printable (.sectOf name attributes children)
  | func {name : String} {arguments : List String} {body : String} : IsWord name →
      (∀ a ∈ arguments, IsWord a) → PrintableBody body → Printable (.funcOf name arguments body)
  | prop {name : String} {value : Scalar} : IsWord name → value.Printable ['"', '\\', '{', '\n'] →
      Printable (.propOf name value)
  | ref {path : String} : Lacks path ['"', '\x27', '\\', '\n'] → Text.trim path.toList = path.toList →
      Printable (.refOf path)

/-- A tree that can be written: a root of printable nodes. -/
inductive PrintableTree : Node → Prop where
  | root {children : List Node} : (∀ n ∈ children, n.Printable) → PrintableTree (.rootOf children)

/-! ## What printable things are made of -/

theorem Lacks.not_mem {s : String} {cs : List Char} (h : Lacks s cs) {c : Char} (hc : c ∈ cs) :
    c ∉ s.toList := fun hm => h c hm hc

/-- A character of a word is neither a blank nor of any use to a scan, a header or a list. -/
theorem Line.ne_of_isWordChar {c d : Char} (h : isWordChar c = true) (hd : isWordChar d = false) : c ≠ d := by
  rintro rfl
  rw [h] at hd
  cases hd

theorem Line.toNat_of_isWordChar {c : Char} (h : isWordChar c = true) : 0x30 ≤ c.toNat ∧ c.toNat ≤ 0x7A := by
  rcases Bool.or_eq_true_iff.1 h with h | h
  · rcases Bool.or_eq_true_iff.1 h with h | h
    · rcases Bool.or_eq_true_iff.1 h with h | h
      · obtain ⟨h₁, h₂⟩ : 'A'.val ≤ c.val ∧ c.val ≤ 'Z'.val := of_decide_eq_true h
        have h₁' : 'A'.toNat ≤ c.toNat := UInt32.le_iff_toNat_le.1 h₁
        have h₂' : c.toNat ≤ 'Z'.toNat := UInt32.le_iff_toNat_le.1 h₂
        exact ⟨Nat.le_trans (by decide) h₁', Nat.le_trans h₂' (by decide)⟩
      · obtain ⟨h₁, h₂⟩ := Bool.and_eq_true_iff.1 h
        have h₁' : 'a'.toNat ≤ c.toNat := UInt32.le_iff_toNat_le.1 (of_decide_eq_true h₁)
        have h₂' : c.toNat ≤ 'z'.toNat := UInt32.le_iff_toNat_le.1 (of_decide_eq_true h₂)
        exact ⟨Nat.le_trans (by decide) h₁', Nat.le_trans h₂' (by decide)⟩
    · obtain ⟨h₁, h₂⟩ := Char.isDigit_iff_toNat.1 h
      exact ⟨h₁, Nat.le_trans h₂ (by decide)⟩
  · rw [eq_of_beq h]
    decide

theorem Text.isBlank_of_isWordChar {c : Char} (h : Line.isWordChar c = true) : isBlank c = false := by
  obtain ⟨h₁, h₂⟩ := Line.toNat_of_isWordChar h
  simp only [isBlank, Bool.or_eq_false_iff, Bool.and_eq_false_iff, decide_eq_false_iff_not,
    beq_eq_false_iff_ne]
  omega

theorem Scan.isInert_of_isWordChar {c : Char} (h : Line.isWordChar c = true) : isInert c = true := by
  simp only [isInert, Bool.and_eq_true, bne_iff_ne]
  exact ⟨⟨⟨Line.ne_of_isWordChar h (by decide), Line.ne_of_isWordChar h (by decide)⟩,
    Line.ne_of_isWordChar h (by decide)⟩, Line.ne_of_isWordChar h (by decide)⟩

theorem Scan.isInert_of_mem_signed {n : Int} {c : Char} (h : c ∈ Numeral.signed n) : isInert c = true := by
  rcases Numeral.isDigit_of_mem_signed h with h | rfl
  · exact isInert_of_isWordChar (by simp [Line.isWordChar, Char.isAlphanum, h])
  · decide

namespace Layout

open Scan (Neutral)

theorem mem_arguments {arguments : List String} (ha : ∀ a ∈ arguments, IsWord a) {c : Char}
    (hc : c ∈ Text.joined ',' (argumentPieces arguments)) : Line.isWordChar c = true ∨ c = ',' ∨ c = ' ' := by
  rcases Text.mem_joined hc with rfl | ⟨p, hp, hc⟩
  · exact .inr (.inl rfl)
  cases arguments with
  | nil => cases hp
  | cons a as =>
    rcases List.mem_cons.1 hp with rfl | hp
    · exact .inl ((ha a List.mem_cons_self).2 c hc)
    · obtain ⟨b, hb, rfl⟩ := List.mem_map.1 hp
      rcases List.mem_cons.1 hc with rfl | hc
      · exact .inr (.inr rfl)
      · exact .inl ((ha b (List.mem_cons_of_mem _ hb)).2 c hc)

/-! ## Neutrality -/

theorem neutral_word {s : String} (h : IsWord s) : Neutral s.toList :=
  .inert fun c hc => Scan.isInert_of_isWordChar (h.2 c hc)

theorem neutral_quote {s : String} {cs : List Char} (h : Lacks s cs) (hq : '"' ∈ cs) (hb : '\\' ∈ cs) :
    Neutral (quote s) :=
  .quoted fun _ hc => ⟨fun e => h.not_mem hq (e ▸ hc), fun e => h.not_mem hb (e ▸ hc)⟩

theorem neutral_scalar {v : Scalar} {cs : List Char} (h : v.Printable cs) (hq : '"' ∈ cs) (hb : '\\' ∈ cs) :
    Neutral (scalar v) := by
  match v, h with
  | .text s, h => exact neutral_quote h hq hb
  | .number (.integer n), _ => exact .inert fun _ => Scan.isInert_of_mem_signed
  | .boolean true, _ => exact .of_all (by decide)
  | .boolean false, _ => exact .of_all (by decide)

theorem neutral_entry {e : String × Scalar} (h : PrintableAttribute e) : Neutral (entry e) := by
  have hkey : Neutral (quote e.1) := neutral_quote h.key (by decide) (by decide)
  have hvalue : Neutral (scalar e.2) := neutral_scalar h.value (by decide) (by decide)
  have : entry e = [' '] ++ quote e.1 ++ [':', ' '] ++ scalar e.2 := by simp [entry]
  rw [this]
  exact (((Neutral.of_all (by decide)).append hkey).append (.of_all (by decide))).append hvalue

theorem neutral_flatMap {α : Type} {f : α → List Char} {as : List α} (h : ∀ a ∈ as, Neutral (f a)) :
    Neutral (as.flatMap f) := by
  induction as with
  | nil => exact .nil
  | cons a as ih =>
    exact (h a List.mem_cons_self).append (ih fun b hb => h b (List.mem_cons_of_mem _ hb))

theorem neutral_margin (k : Nat) : Neutral (List.replicate k ' ') :=
  .inert fun _ hc => List.eq_of_mem_replicate hc ▸ by decide

theorem neutral_sectHeader {name : String} {attributes : Attributes} (h : IsWord name)
    (ha : ∀ e ∈ attributes.entries, PrintableAttribute e) :
    Neutral (name.toList ++ attributes.entries.flatMap entry ++ [' ']) :=
  ((neutral_word h).append (neutral_flatMap fun e he => neutral_entry (ha e he))).append (.of_all (by decide))

theorem neutral_funcHeader {name : String} {arguments : List String} (h : IsWord name)
    (ha : ∀ a ∈ arguments, IsWord a) :
    Neutral (name.toList ++ ['('] ++ Text.joined ',' (argumentPieces arguments) ++ [')', ' ']) := by
  have harguments : Neutral (Text.joined ',' (argumentPieces arguments)) := by
    refine .inert fun c hc => ?_
    rcases mem_arguments ha hc with hc | rfl | rfl
    · exact Scan.isInert_of_isWordChar hc
    · decide
    · decide
  exact (((neutral_word h).append (.of_all (by decide))).append harguments).append (.of_all (by decide))

theorem neutral_nodes {y : Layout} {ns : List Node} (h : ∀ n ∈ ns, ∀ level, Neutral (y.node level n).flatten)
    (level : Nat) : Neutral (y.nodes level ns).flatten := by
  induction ns with
  | nil => exact .nil
  | cons n ns ih =>
    rw [nodes, List.flatten_append]
    exact (h n List.mem_cons_self level).append (ih fun m hm => h m (List.mem_cons_of_mem _ hm))

/-- **The lines of a printable node are neutral**: no scan around them sees a brace of theirs that
is not matched. -/
theorem neutral_node (y : Layout) {n : Node} (h : n.Printable) :
    ∀ level, Neutral (y.node level n).flatten := by
  induction h with
  | @sect name attributes children hname ha _ ih =>
    intro level
    -- the brace of the header and that of the last line belong together
    have hinner : Neutral ((y.nodes (level + 1) children).flatten ++ List.replicate (level * y.width) ' ') :=
      (neutral_nodes ih (level + 1)).append (neutral_margin _)
    have : (y.node level (.sectOf name attributes children)).flatten =
        List.replicate (level * y.width) ' ' ++ (name.toList ++ attributes.entries.flatMap entry ++ [' ']) ++
          ('{' :: ((y.nodes (level + 1) children).flatten ++ List.replicate (level * y.width) ' ') ++ ['}']) := by
      simp [Node.sectOf, node, indent, sectHeader]
    rw [this]
    exact ((neutral_margin _).append (neutral_sectHeader hname ha)).append hinner.braces
  | @func name arguments body hname ha hbody =>
    intro level
    have hinner : Neutral ((Text.lines body.toList).flatten ++ List.replicate (level * y.width) ' ') := by
      rw [Text.flatten_lines]
      exact hbody.neutral.append (neutral_margin _)
    have : (y.node level (.funcOf name arguments body)).flatten =
        List.replicate (level * y.width) ' ' ++
          (name.toList ++ ['('] ++ Text.joined ',' (argumentPieces arguments) ++ [')', ' ']) ++
          ('{' :: ((Text.lines body.toList).flatten ++ List.replicate (level * y.width) ' ') ++ ['}']) := by
      simp [Node.funcOf, node, indent, funcHeader]
    rw [this]
    exact ((neutral_margin _).append (neutral_funcHeader hname ha)).append hinner.braces
  | @prop name value hname hv =>
    intro level
    have : (y.node level (.propOf name value)).flatten =
        List.replicate (level * y.width) ' ' ++ name.toList ++ [':', ' '] ++ scalar value := by
      simp [Node.propOf, node, indent, propLine]
    rw [this]
    exact (((neutral_margin _).append (neutral_word hname)).append (.of_all (by decide))).append
      (neutral_scalar hv (by decide) (by decide))
  | @ref path hp _ =>
    intro level
    have hmark : Neutral (if y.deferred then Line.deferredMark else Line.importMark) := by
      cases y.deferred
      · exact .of_all (by decide)
      · exact .of_all (by decide)
    have : (y.node level (.refOf path)).flatten =
        List.replicate (level * y.width) ' ' ++ (if y.deferred then Line.deferredMark else Line.importMark) ++
          quote path := by
      simp [Node.refOf, node, indent, refLine]
    rw [this]
    exact ((neutral_margin _).append hmark).append (neutral_quote hp (by decide) (by decide))

/-! ## Line feeds -/

theorem newline_not_mem_word {s : String} (h : IsWord s) : '\n' ∉ s.toList :=
  fun hm => Line.ne_of_isWordChar (h.2 _ hm) (by decide) rfl

theorem newline_not_mem_quote {s : String} {cs : List Char} (h : Lacks s cs) (hn : '\n' ∈ cs) :
    '\n' ∉ quote s := by
  simpa [quote] using h.not_mem hn

theorem newline_not_mem_scalar {v : Scalar} {cs : List Char} (h : v.Printable cs) (hn : '\n' ∈ cs) :
    '\n' ∉ scalar v := by
  match v, h with
  | .text s, h => exact newline_not_mem_quote h hn
  | .number (.integer n), _ => exact fun hm => absurd (Numeral.isBlank_of_mem_signed hm) (by decide)
  | .boolean true, _ => simp [scalar]
  | .boolean false, _ => simp [scalar]

theorem newline_not_mem_entry {e : String × Scalar} (h : PrintableAttribute e) : '\n' ∉ entry e := by
  have hkey := newline_not_mem_quote h.key (by decide)
  have hvalue := newline_not_mem_scalar h.value (by decide)
  simp [entry, hkey, hvalue]

theorem newline_not_mem_indent {y : Layout} {level : Nat} {l : List Char} (h : '\n' ∉ l) :
    '\n' ∉ y.indent level l := by
  simp [indent, h, List.mem_replicate]

theorem newline_not_mem_nodes {y : Layout} {ns : List Node}
    (h : ∀ n ∈ ns, ∀ level, ∀ l ∈ y.node level n, '\n' ∉ l) (level : Nat) :
    ∀ l ∈ y.nodes level ns, '\n' ∉ l := by
  induction ns with
  | nil => exact fun l hl => absurd hl List.not_mem_nil
  | cons n ns ih =>
    intro l hl
    rw [nodes, List.mem_append] at hl
    rcases hl with hl | hl
    · exact h n List.mem_cons_self level l hl
    · exact ih (fun m hm => h m (List.mem_cons_of_mem _ hm)) l hl

theorem newline_not_mem_funcHeader {name : String} {arguments : List String} (h : IsWord name)
    (ha : ∀ a ∈ arguments, IsWord a) : '\n' ∉ funcHeader name arguments := by
  have harguments : '\n' ∉ Text.joined ',' (argumentPieces arguments) :=
    fun hm => absurd (mem_arguments ha hm) (by decide)
  simp [funcHeader, newline_not_mem_word h, harguments]

/-- The lines of a printable node are lines: they have no line feed in them. -/
theorem newline_not_mem_node (y : Layout) {n : Node} (h : n.Printable) :
    ∀ level, ∀ l ∈ y.node level n, '\n' ∉ l := by
  have hclose level : '\n' ∉ y.indent level ['}'] := newline_not_mem_indent (by decide)
  induction h with
  | @sect name attributes children hname ha _ ih =>
    intro level
    have hentries : '\n' ∉ attributes.entries.flatMap entry := by
      rw [List.mem_flatMap]
      rintro ⟨e, he, hn⟩
      exact newline_not_mem_entry (ha e he) hn
    have hheader : '\n' ∉ sectHeader name attributes := by
      simpa [sectHeader, newline_not_mem_word hname] using hentries
    exact List.forall_mem_cons.2 ⟨newline_not_mem_indent hheader, List.forall_mem_append.2
      ⟨newline_not_mem_nodes ih (level + 1), List.forall_mem_singleton.2 (hclose level)⟩⟩
  | @func name arguments body hname ha hbody =>
    intro level
    exact List.forall_mem_cons.2 ⟨newline_not_mem_indent (newline_not_mem_funcHeader hname ha),
      List.forall_mem_append.2 ⟨fun l hl => Text.newline_not_mem_of_mem_lines hl,
        List.forall_mem_singleton.2 (hclose level)⟩⟩
  | @prop name value hname hv =>
    intro level
    refine List.forall_mem_singleton.2 (newline_not_mem_indent ?_)
    simp [propLine, newline_not_mem_word hname, newline_not_mem_scalar hv (by decide)]
  | @ref path hp _ =>
    intro level
    refine List.forall_mem_singleton.2 (newline_not_mem_indent ?_)
    have hmark : '\n' ∉ (if y.deferred then Line.deferredMark else Line.importMark) := by
      cases y.deferred
      · decide
      · decide
    rw [refLine, List.mem_append, not_or]
    exact ⟨hmark, newline_not_mem_quote hp (by decide)⟩

end Layout

end DefTree
