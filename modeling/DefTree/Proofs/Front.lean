/-
What stands at the front of some lines, and what the builder makes of it.

The builder takes one construct at a time: a blank line, a property, an
import, a whole function or section with its block. `Front.read` says which
construct the first line begins, how many lines it takes and which lines
follow it, without building anything. `buildLines_cons` is the builder in
these words: the nodes of the first construct, then those of the lines
after it. Everything proved about the builder goes through it, by induction
on the number of lines.
-/
import DefTree.Build
import DefTree.Proofs.Block
import DefTree.Proofs.Run
import DefTree.Proofs.Text

namespace DefTree

/-- What the first lines of a text are. -/
inductive Construct where
  | blank
  | unknown (text : List Char)
  | prop (key value : List Char)
  | func (name : List Char) (arguments : List (List Char)) (block : List (List Char))
  /-- A function whose block is never closed, with its opening line and how many lines on it is. -/
  | openFunc (line : Nat) (opener : List Char)
  | sect (name attributes : List Char) (block : List (List Char))
  /-- A section whose block is never closed, with its opening line. -/
  | openSect (attributes opener : List Char)
  | ref (path : List Char) (deferred : Bool)
  deriving DecidableEq, Repr

/-- The first construct of some lines, the number of lines it takes, and the lines after it. -/
structure Front where
  construct : Construct
  height : Nat
  rest : List (List Char)
  deriving DecidableEq, Repr

/-- Whether the block that a construct begins with is never closed. -/
def Construct.isOpen : Construct → Bool
  | .openFunc .. | .openSect .. => true
  | _ => false

namespace Front

/-- How many lines stand between the header of a function and its block. -/
def gap (opened : Bool) : Nat := if opened then 0 else 1

/-- The front of some lines whose first one, `text`, has the given shape; `ls` are the others. -/
def ofShape (text : List Char) (ls : List (List Char)) : Line → Front
  | .unknown text => ⟨.unknown text, 1, ls⟩
  | .prop key value => ⟨.prop key value, 1, ls⟩
  | .func name arguments opened => match Block.split? {} (ls.drop (gap opened)) with
    | none => ⟨.openFunc (gap opened + 1) (if opened then text else Text.trim (ls.headD [])), 1, ls⟩
    | some (block, rest) => ⟨.func name arguments block, gap opened + block.length + 2, rest⟩
  | .sect name attributes => match Block.split? {} ls with
    | none => ⟨.openSect attributes text, 1, ls⟩
    | some (block, rest) => ⟨.sect name attributes block, block.length + 2, rest⟩
  | .ref path deferred => ⟨.ref path deferred, 1, ls⟩

/-- The front of some lines, from the first of them and the others. -/
def read (l : List Char) (ls : List (List Char)) : Front :=
  if (Text.trim l).isEmpty then ⟨.blank, 1, ls⟩
  else ofShape (Text.trim l) ls (Line.read (Text.trim l))

theorem read_blank {l : List Char} (h : Text.trim l = []) (ls : List (List Char)) :
    read l ls = ⟨.blank, 1, ls⟩ := by
  simp [read, h]

theorem read_shape {l : List Char} (h : Text.trim l ≠ []) (ls : List (List Char)) :
    read l ls = ofShape (Text.trim l) ls (Line.read (Text.trim l)) := by
  simp [read, h]

/-- The ways in which a front comes about. -/
inductive Reads (l : List Char) (ls : List (List Char)) : Front → Prop where
  | blank : Text.trim l = [] → Reads l ls ⟨.blank, 1, ls⟩
  | unknown {text} : Line.read (Text.trim l) = .unknown text → Reads l ls ⟨.unknown text, 1, ls⟩
  | prop {key value} : Line.read (Text.trim l) = .prop key value → Reads l ls ⟨.prop key value, 1, ls⟩
  | func {name arguments opened block rest} : Line.read (Text.trim l) = .func name arguments opened →
      Block.split? {} (ls.drop (gap opened)) = some (block, rest) →
      Reads l ls ⟨.func name arguments block, gap opened + block.length + 2, rest⟩
  | openFunc {name arguments opened} : Line.read (Text.trim l) = .func name arguments opened →
      Block.split? {} (ls.drop (gap opened)) = none →
      Reads l ls ⟨.openFunc (gap opened + 1) (if opened then Text.trim l else Text.trim (ls.headD [])), 1, ls⟩
  | sect {name attributes block rest} : Line.read (Text.trim l) = .sect name attributes →
      Block.split? {} ls = some (block, rest) →
      Reads l ls ⟨.sect name attributes block, block.length + 2, rest⟩
  | openSect {name attributes} : Line.read (Text.trim l) = .sect name attributes →
      Block.split? {} ls = none → Reads l ls ⟨.openSect attributes (Text.trim l), 1, ls⟩
  | ref {path deferred} : Line.read (Text.trim l) = .ref path deferred →
      Reads l ls ⟨.ref path deferred, 1, ls⟩

theorem reads (l : List Char) (ls : List (List Char)) : Reads l ls (read l ls) := by
  by_cases hb : Text.trim l = []
  · rw [read_blank hb]
    exact .blank hb
  rw [read_shape hb]
  cases hl : Line.read (Text.trim l) with
  | unknown text => exact .unknown hl
  | prop key value => exact .prop hl
  | ref path deferred => exact .ref hl
  | func name arguments opened =>
    cases hs : Block.split? {} (ls.drop (gap opened)) with
    | none => simp only [ofShape, hs]; exact .openFunc hl hs
    | some p => simp only [ofShape, hs]; exact .func hl hs
  | sect name attributes =>
    cases hs : Block.split? {} ls with
    | none => simp only [ofShape, hs]; exact .openSect hl hs
    | some p => simp only [ofShape, hs]; exact .sect hl hs

theorem height_add_length_rest (l : List Char) (ls : List (List Char)) :
    1 ≤ (read l ls).height ∧ (read l ls).height + (read l ls).rest.length = ls.length + 1 := by
  have h := reads l ls
  generalize read l ls = f at h
  cases h with
  | sect _ hs => have := Block.length_of_split? hs; simp only; omega
  | func _ hs =>
    have hlen := Block.length_of_split? hs
    rw [List.length_drop] at hlen
    simp only; omega
  | _ => simp only; omega

theorem length_rest_le (l : List Char) (ls : List (List Char)) : (read l ls).rest.length ≤ ls.length := by
  have := height_add_length_rest l ls
  omega

theorem mem_of_mem_rest {l x : List Char} {ls : List (List Char)} (hx : x ∈ (read l ls).rest) : x ∈ ls := by
  have h := reads l ls
  generalize read l ls = f at h hx
  cases h with
  | sect _ hs => exact Block.mem_of_mem_rest hs hx
  | func _ hs => exact List.mem_of_mem_drop (Block.mem_of_mem_rest hs hx)
  | _ => exact hx

theorem split?_of_read_sect {l : List Char} {ls block : List (List Char)} {name attributes : List Char}
    (hc : (read l ls).construct = .sect name attributes block) :
    Block.split? {} ls = some (block, (read l ls).rest) := by
  have h := reads l ls
  generalize read l ls = f at h hc
  cases h <;> cases hc
  assumption

theorem line_of_read_ref {l : List Char} {ls : List (List Char)} {path : List Char} {deferred : Bool}
    (hc : (read l ls).construct = .ref path deferred) : Line.read (Text.trim l) = .ref path deferred := by
  have h := reads l ls
  generalize read l ls = f at h hc
  cases h <;> cases hc
  assumption

/-- Induction on lines as the builder takes them: construct by construct, and into sections. -/
theorem induction {motive : List (List Char) → Prop} (nil : motive [])
    (cons : ∀ l ls, motive (read l ls).rest →
      (∀ name attributes block, (read l ls).construct = .sect name attributes block → motive block) →
      motive (l :: ls)) : ∀ ls, motive ls
  | [] => nil
  | l :: ls => cons l ls (induction nil cons (read l ls).rest) fun _ _ block _ =>
      induction nil cons block
termination_by ls => ls.length
decreasing_by
  · exact Nat.lt_succ_of_le (length_rest_le l ls)
  · next h => exact Nat.lt_succ_of_lt (Block.length_body_lt (split?_of_read_sect h))

theorem read_append {l : List Char} {ls : List (List Char)} (hc : (read l ls).construct.isOpen = false)
    (more : List (List Char)) :
    read l (ls ++ more) = { read l ls with rest := (read l ls).rest ++ more } := by
  by_cases hb : Text.trim l = []
  · rw [read_blank hb, read_blank hb]
  rw [read_shape hb] at hc ⊢
  rw [read_shape hb]
  cases hl : Line.read (Text.trim l) with
  | unknown _ | prop _ _ | ref _ _ => rfl
  | sect name attributes =>
    rw [hl] at hc
    cases hs : Block.split? {} ls with
    | none => simp [ofShape, hs, Construct.isOpen] at hc
    | some p => simp only [ofShape, hs, Block.split?_append hs more]
  | func name arguments opened =>
    rw [hl] at hc
    cases hs : Block.split? {} (ls.drop (gap opened)) with
    | none => simp [ofShape, hs, Construct.isOpen] at hc
    | some p =>
      have hlen : gap opened ≤ ls.length := by
        have := Block.length_of_split? hs
        rw [List.length_drop] at this
        omega
      simp only [ofShape, List.drop_append_of_le_length hlen, hs, Block.split?_append hs more]

end Front

/-- The nodes of a construct that begins after `before` lines. -/
def buildConstruct (rule : ImportRule) (before : Nat) : Construct → Run (List Node)
  | .blank => pure []
  | .unknown text => .fail (.unknownLine (before + 1) text)
  | .prop key value => do return [← buildProp key value]
  | .func name arguments block => do return [← buildFunc name arguments block]
  | .openFunc line opener => .fail (.unclosedBlock (before + line) opener)
  | .sect name attributes block => do
    let attributes ← buildAttributes attributes
    .emit (.sect (String.ofList name) (before + 1) (before + block.length + 2))
    let children ← buildLines rule (before + 1) block
    return [.sectOf (String.ofList name) attributes children]
  | .openSect attributes opener => do
    let _ ← buildAttributes attributes
    .fail (.unclosedBlock (before + 1) opener)
  | .ref path deferred => rule (String.ofList path) deferred

@[simp] theorem buildLines_nil (rule : ImportRule) (before : Nat) : buildLines rule before [] = pure [] := by
  rw [buildLines]

/-- The nodes of some lines: those of the first construct, then those of the lines after it. -/
theorem buildLines_cons (rule : ImportRule) (before : Nat) (l : List Char) (ls : List (List Char)) :
    buildLines rule before (l :: ls) = (do
      let nodes ← buildConstruct rule before (Front.read l ls).construct
      let more ← buildLines rule (before + (Front.read l ls).height) (Front.read l ls).rest
      return nodes ++ more) := by
  rw [buildLines]
  unfold Front.read
  by_cases hb : (Text.trim l).isEmpty = true
  · simp only [hb, if_true, buildConstruct, pure_bind, List.nil_append, bind_pure]
  simp only [hb, Bool.false_eq_true, if_false]
  cases Line.read (Text.trim l) with
  | unknown text => rfl
  | prop key value => simp [Front.ofShape, buildConstruct]
  | ref path deferred => rfl
  | func name arguments opened =>
    cases opened with
    | true =>
      cases h : Block.split? {} ls with
      | none =>
        have h' : Block.split? {} (ls.drop (Front.gap true)) = none := h
        simp only [Front.ofShape, buildConstruct, h']
        simp [Front.gap]
      | some p =>
        have h' : Block.split? {} (ls.drop (Front.gap true)) = some p := h
        simp only [Front.ofShape, buildConstruct, h']
        simp [Front.gap, Nat.add_assoc]
    | false =>
      cases h : Block.split? {} (ls.drop 1) with
      | none =>
        have h' : Block.split? {} (ls.drop (Front.gap false)) = none := h
        simp only [Front.ofShape, buildConstruct, h']
        simp [Front.gap]
      | some p =>
        have h' : Block.split? {} (ls.drop (Front.gap false)) = some p := h
        have hheight : before + (Front.gap false + p.1.length + 2) = before + p.1.length + 3 := by
          show before + (1 + p.1.length + 2) = before + p.1.length + 3
          omega
        simp only [Front.ofShape, buildConstruct, h', hheight]
        simp
  | sect name attributes =>
    cases h : Block.split? {} ls <;> simp [Front.ofShape, buildConstruct, h, Nat.add_assoc]

/-! ## Lines one after the other -/

theorem isOpen_eq_false_of_ok {rule : ImportRule} {before : Nat} {c : Construct} {nodes : List Node}
    (h : (buildConstruct rule before c).result = .ok nodes) : c.isOpen = false := by
  cases c with
  | openFunc line opener => cases h
  | openSect attributes opener =>
    obtain ⟨_, -, h⟩ := Run.bind_ok_iff.1 h
    cases h
  | _ => rfl

theorem buildLines_append {rule : ImportRule} {ls : List (List Char)} : ∀ {before : Nat} {nodes : List Node},
    (buildLines rule before ls).result = .ok nodes → ∀ more : List (List Char),
      buildLines rule before (ls ++ more) = (do
        let xs ← buildLines rule before ls
        let ys ← buildLines rule (before + ls.length) more
        return xs ++ ys) := by
  induction ls using Front.induction with
  | nil => intro before nodes _ more; simp
  | cons l ls ih _ =>
    intro before nodes h more
    rw [buildLines_cons] at h
    obtain ⟨xs, hx, h⟩ := Run.bind_ok_iff.1 h
    obtain ⟨ys, hy, -⟩ := Run.bind_ok_iff.1 h
    have hlen := (Front.height_add_length_rest l ls).2
    have hb : before + (Front.read l ls).height + (Front.read l ls).rest.length =
        before + (l :: ls).length := by
      rw [Nat.add_assoc, hlen, List.length_cons]
    rw [List.cons_append, buildLines_cons, buildLines_cons, Front.read_append (isOpen_eq_false_of_ok hx)]
    simp only [ih hy more, hb, bind_assoc, pure_bind, List.append_assoc]

/-- The lines of a block put together and cut again are read like the block itself; no lines become
one blank line. -/
theorem buildLines_recut {rule : ImportRule} {before : Nat} {block : List (List Char)}
    (h : ∀ l ∈ block, '\n' ∉ l) :
    buildLines rule before (Text.lines (Text.unlines block)) = buildLines rule before block := by
  cases block with
  | nil =>
    show buildLines rule before [[]] = _
    rw [buildLines_cons, Front.read_blank rfl []]
    simp [buildConstruct]
  | cons l ls => rw [Text.lines_unlines (List.cons_ne_nil l ls) h]

end DefTree
