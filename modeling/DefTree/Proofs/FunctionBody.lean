/-
What stands in a function is not read.

The lines of a function go into its node as they are, and the scans of the
sections around it run over them. Other lines in their place change neither
where these sections end nor anything else, if both are neutral and every
section's scan comes to them outside of quotes and escapes: it then goes
through them as the scan of the function does, with more braces open
(`Scan.Neutral.at_clear`). So one context holds the function for all such lines
(`Site.Builds`); it is followed from the header outwards, along the way on
which building comes to it (`Visits.exists_builds`).
-/
import DefTree.Proofs.BlockStructure
import DefTree.Proofs.Concatenation
import DefTree.Proofs.Erasure

namespace DefTree

/-! ## A place in a tree -/

/-- Nodes with a place for one more among them, or in a section among them at any depth. -/
inductive Node.Context where
  | here (front back : List Node)
  | inside (front : List Node) (name : String) (attributes : Attributes) (context : Node.Context) (back : List Node)

namespace Node.Context

/-- The nodes with one in the place. -/
def fill (n : Node) : Node.Context → List Node
  | here front back => front ++ n :: back
  | inside front name attributes context back => front ++ .sectOf name attributes (context.fill n) :: back

/-- The same place with more nodes in front of all. -/
def behind (nodes : List Node) : Node.Context → Node.Context
  | here front back => here (nodes ++ front) back
  | inside front name attributes context back => inside (nodes ++ front) name attributes context back

theorem fill_behind (n : Node) (nodes : List Node) (context : Node.Context) :
    (context.behind nodes).fill n = nodes ++ context.fill n := by
  cases context <;> exact List.append_assoc ..

end Node.Context

/-! ## A place in the lines -/

/-- The node of a function with the given lines as its block. -/
def Node.funcOfBlock (name : List Char) (arguments block : List (List Char)) : Node :=
  .funcOf (String.ofList name) (arguments.map String.ofList) (String.ofList (Text.unlines (Block.unindent block)))

/-- The lines around the block of a function: those above its header, the header, and those below the line
with the brace that closes it. -/
structure Site where
  above : List (List Char)
  header : List Char
  below : List (List Char)

namespace Site

/-- The lines with some block in their place. -/
def lines (site : Site) (block : List (List Char)) : List (List Char) :=
  site.above ++ site.header :: (block ++ ['}'] :: site.below)

def text (site : Site) (block : List (List Char)) : String := String.ofList (Text.unlines (site.lines block))

/-- The same place with more lines around. -/
def between (site : Site) (front back : List (List Char)) : Site :=
  ⟨front ++ site.above, site.header, site.below ++ back⟩

theorem lines_between (site : Site) (front back block : List (List Char)) :
    (site.between front back).lines block = front ++ (site.lines block ++ back) := by
  simp [lines, between]

theorem forall_mem_lines {P : List Char → Prop} {site : Site} {block : List (List Char)} :
    (∀ l ∈ site.lines block, P l) ↔ (∀ l ∈ site.above, P l) ∧ P site.header ∧ (∀ l ∈ block, P l) ∧ P ['}'] ∧
      ∀ l ∈ site.below, P l := by
  simp only [lines, List.mem_append, List.mem_cons, or_imp, forall_and, forall_eq]

/-- Whatever neutral lines the function has, and however many lines stand before, the nodes are the same around
its node, and so are the loads. -/
def Builds (site : Site) (rule : ImportRule) (name : List Char) (arguments : List (List Char))
    (context : Node.Context) (paths : List String) : Prop :=
  ∀ block, Scan.Neutral block.flatten → ∀ before, (buildLines rule before (site.lines block)).success? =
    some (context.fill (.funcOfBlock name arguments block), paths)

end Site

/-! ## Scans around a line -/

/-- A section stands around a line, and its scan is `s` when it comes to the end of that line. The lines are numbered
from zero, `before` being the number of the first one. -/
def ScansBehind (before : Nat) (ls : List (List Char)) (k : Nat) (s : Scan) : Prop :=
  ∃ b l rest name attributes block, Visits markImport before ls b (l :: rest) ∧
    (Front.read l rest).construct = .sect name attributes block ∧ b < k ∧ k ≤ b + block.length ∧
    s = ({} : Scan).after (block.take (k - b)).flatten

namespace ScansBehind

variable {before k : Nat} {l : List Char} {ls : List (List Char)} {s : Scan}

theorem next {nodes : List Node}
    (hc : (buildConstruct markImport before (Front.read l ls).construct).result = .ok nodes)
    (h : ScansBehind (before + (Front.read l ls).height) (Front.read l ls).rest k s) :
    ScansBehind before (l :: ls) k s := by
  obtain ⟨b, l', rest, name, attributes, block, hv, h⟩ := h
  exact ⟨b, l', rest, name, attributes, block, .next hc hv, h⟩

theorem into {name attributes : List Char} {block : List (List Char)} {a : Attributes}
    (hc : (Front.read l ls).construct = .sect name attributes block)
    (ha : (buildAttributes attributes).result = .ok a) (h : ScansBehind (before + 1) block k s) :
    ScansBehind before (l :: ls) k s := by
  obtain ⟨b, l', rest, name, attributes, block, hv, h⟩ := h
  exact ⟨b, l', rest, name, attributes, block, .into hc ha hv, h⟩

theorem of_sect {name attributes header : List Char} {front back : List (List Char)}
    (hc : (Front.read l ls).construct = .sect name attributes (front ++ header :: back)) :
    ScansBehind before (l :: ls) (before + 1 + front.length) (({} : Scan).after (front ++ [header]).flatten) := by
  refine ⟨before, l, ls, name, attributes, _, .here, hc, by omega, ?_, ?_⟩
  · rw [List.length_append, List.length_cons]
    omega
  · rw [show before + 1 + front.length - before = front.length + 1 by omega, List.take_length_add_append,
      List.take_succ_cons, List.take_zero]

theorem depth_pos (h : ScansBehind before ls k s) : 0 < s.depth := by
  obtain ⟨b, l, rest, name, attributes, block, -, hc, -, -, rfl⟩ := h
  have hpasses := Block.passes_of_split? (Front.split?_of_read_sect hc)
  rw [← List.take_append_drop (k - b) block, List.flatten_append, Scan.passes_append] at hpasses
  exact hpasses.1.depth_after_pos (by decide)

end ScansBehind

/-- The scan of every section around a line, when it comes to the end of that line, is outside of quotes and not
behind a backslash. The lines are numbered from zero, `before` being the number of the first one. -/
def ClearBehind (before : Nat) (ls : List (List Char)) (k : Nat) : Prop :=
  ∀ b l rest name attributes block, Visits markImport before ls b (l :: rest) →
    (Front.read l rest).construct = .sect name attributes block → b < k → k ≤ b + block.length →
    let s := ({} : Scan).after (block.take (k - b)).flatten
    s.quoted = false ∧ s.escaped = false

theorem clearBehind_iff {before k : Nat} {ls : List (List Char)} :
    ClearBehind before ls k ↔ ∀ s, ScansBehind before ls k s → s.quoted = false ∧ s.escaped = false := by
  constructor
  · rintro h s ⟨b, l, rest, name, attributes, block, hv, hc, hb, hk, rfl⟩
    exact h b l rest name attributes block hv hc hb hk
  · exact fun h b l rest name attributes block hv hc hb hk =>
      h _ ⟨b, l, rest, name, attributes, block, hv, hc, hb, hk, rfl⟩

theorem Scan.after_clear {cs : List Char} (h : ∀ c ∈ cs, c ≠ '"' ∧ c ≠ '\\') : ∀ {s : Scan}, s.quoted = false →
    s.escaped = false → (s.after cs).quoted = false ∧ (s.after cs).escaped = false := by
  induction cs with
  | nil => exact fun hq he => ⟨hq, he⟩
  | cons c cs ih =>
    intro s hq he
    obtain ⟨hquote, hslash⟩ := h c List.mem_cons_self
    have hfeed : (s.feed c).quoted = false ∧ (s.feed c).escaped = false := by
      unfold feed
      simp only [he, hq, hquote, hslash, Bool.false_eq_true, if_false]
      split
      · exact ⟨rfl, rfl⟩
      split
      · exact ⟨rfl, rfl⟩
      · exact ⟨hq, he⟩
    exact ih (fun d hd => h d (List.mem_cons_of_mem _ hd)) hfeed.1 hfeed.2

/-- The scans are clear behind a line if no double quote and no backslash comes up to its end. -/
theorem clearBehind_of_lacks {ls : List (List Char)} {k : Nat}
    (h : ∀ l ∈ ls.take (k + 1), ∀ c ∈ l, c ≠ '"' ∧ c ≠ '\\') : ClearBehind 0 ls k := by
  intro b l rest name attributes block hv hc hb hk
  obtain ⟨front, back, rfl, rfl⟩ := hv.infix
  obtain ⟨close, hrest⟩ := Block.eq_of_split? (Front.split?_of_read_sect hc)
  have htake : ∀ x ∈ block.take (k - (0 + front.length)),
      x ∈ (front ++ l :: rest ++ back).take (k + 1) := by
    intro x hx
    have hk' : k + 1 = front.length + ((k - (0 + front.length)) + 1) := by omega
    rw [hk', List.append_assoc, List.take_length_add_append, List.cons_append, List.take_succ_cons, hrest,
      List.append_assoc, List.take_append_of_le_length (by omega)]
    exact List.mem_append_right _ (List.mem_cons_of_mem _ hx)
  refine Scan.after_clear (fun c hc => ?_) rfl rfl
  obtain ⟨x, hx, hc⟩ := List.mem_flatten.1 hc
  exact h x (htake x hx) c hc

/-! ## Blocks and fronts with other lines -/

/-- At a clear point, a scan goes through a neutral text and is then where it was. -/
theorem Scan.Neutral.at_clear {s : Scan} {cs : List Char} (h : Neutral cs) (hq : s.quoted = false)
    (he : s.escaped = false) (hd : 1 ≤ s.depth) : s.Passes cs ∧ s.after cs = s := by
  rw [eq_raise hq he hd]
  exact ⟨h.passes.raise (by decide) _, h.raise_after _⟩

/-- A section has the same end with other lines in it that its scan comes through alike. -/
theorem Block.split?_exchange {front inner inner' back rest : List (List Char)} {close : List Char}
    (h : split? {} (front ++ (inner ++ back) ++ close :: rest) = some (front ++ (inner ++ back), rest))
    (hpasses' : 1 ≤ (({} : Scan).after front.flatten).depth →
      (({} : Scan).after front.flatten).Passes inner.flatten → (({} : Scan).after front.flatten).Passes inner'.flatten)
    (hafter : 1 ≤ (({} : Scan).after front.flatten).depth →
      (({} : Scan).after front.flatten).after inner'.flatten = (({} : Scan).after front.flatten).after inner.flatten) :
    split? {} (front ++ (inner' ++ back) ++ close :: rest) = some (front ++ (inner' ++ back), rest) := by
  obtain ⟨hpasses, close', hclose', hclose⟩ := (split?_eq_some_iff (by decide)).1 h
  obtain ⟨rfl, -⟩ := List.cons.inj (List.append_cancel_left hclose')
  simp only [List.flatten_append, Scan.passes_append, Scan.after_append] at hpasses hclose
  obtain ⟨hfront, hinner, hback⟩ := hpasses
  have hd := hfront.depth_after_pos (by decide)
  refine (split?_eq_some_iff (by decide)).2 ⟨?_, close, rfl, ?_⟩
  · simp only [List.flatten_append, Scan.passes_append, hafter hd]
    exact ⟨hfront, hpasses' hd hinner, hback⟩
  · simp only [List.flatten_append, Scan.after_append, hafter hd]
    exact hclose

theorem Block.exists_split? {s : Scan} (hs : s.depth ≠ 0) {ls block rest : List (List Char)}
    (h : split? s ls = some (block, rest)) :
    ∃ close, ls = block ++ close :: rest ∧ ∀ more, split? s (block ++ close :: more) = some (block, more) := by
  obtain ⟨hpasses, close, rfl, hclose⟩ := (split?_eq_some_iff hs).1 h
  exact ⟨close, rfl, fun more => (split?_eq_some_iff hs).2 ⟨hpasses, close, rfl, hclose⟩⟩

/-- A brace by itself closes the block of neutral lines. -/
theorem Block.split?_of_brace {block : List (List Char)} (h : Scan.Neutral block.flatten) (rest : List (List Char)) :
    split? {} (block ++ ['}'] :: rest) = some (block, rest) :=
  split?_of_neutral h (by decide) rest

theorem Line.ne_nil_of_read {cs : List Char} {line : Line} (h : read cs = line) (hl : line ≠ .unknown []) :
    cs ≠ [] := by
  rintro rfl
  exact hl h.symm

namespace Front

theorem read_of_func {l name : List Char} {arguments : List (List Char)} {ls block rest : List (List Char)}
    (hl : Line.read (Text.trim l) = .func name arguments true) (hs : Block.split? {} ls = some (block, rest)) :
    read l ls = ⟨.func name arguments block, block.length + 2, rest⟩ := by
  rw [read_shape (Line.ne_nil_of_read hl (by simp)), hl]
  have hs' : Block.split? {} (ls.drop (gap true)) = some (block, rest) := hs
  simp only [ofShape, hs']
  simp [gap]

theorem read_of_sect {l name attributes : List Char} {ls block rest : List (List Char)}
    (hl : Line.read (Text.trim l) = .sect name attributes) (hs : Block.split? {} ls = some (block, rest)) :
    read l ls = ⟨.sect name attributes block, block.length + 2, rest⟩ := by
  rw [read_shape (Line.ne_nil_of_read hl (by simp)), hl]
  simp [ofShape, hs]

/-- A function that is closed before some lines end, and by a brace once more lines follow, is closed by that
brace. -/
theorem exists_of_func_closed {header name : List Char} {arguments tail back block below : List (List Char)}
    (hheader : Line.read (Text.trim header) = .func name arguments true) (hneutral : Scan.Neutral block.flatten)
    (hback : tail ++ back = block ++ ['}'] :: below) (hclosed : (read header tail).construct.isOpen = false) :
    ∃ rest, tail = block ++ ['}'] :: rest := by
  rw [read_shape (Line.ne_nil_of_read hheader (by simp)), hheader] at hclosed
  cases hs : Block.split? {} (tail.drop (gap true)) with
  | none => simp [ofShape, hs, Construct.isOpen] at hclosed
  | some p =>
    obtain ⟨body, rest⟩ := p
    have hs' : Block.split? {} tail = some (body, rest) := hs
    have hwhole := Block.split?_append hs' back
    rw [hback, Block.split?_of_brace hneutral] at hwhole
    obtain ⟨rfl, -⟩ := Prod.mk.inj (Option.some.inj hwhole)
    obtain ⟨close, rfl⟩ := Block.eq_of_split? hs'
    rw [List.append_assoc, List.append_cancel_left_eq, List.cons_append, List.cons.injEq] at hback
    exact ⟨rest, by rw [hback.1]⟩

theorem line_of_read_sect {l name attributes : List Char} {ls block : List (List Char)}
    (hc : (read l ls).construct = .sect name attributes block) : Line.read (Text.trim l) = .sect name attributes := by
  have h := reads l ls
  generalize read l ls = f at h hc
  cases h <;> cases hc
  assumption

theorem exists_read {l : List Char} {ls : List (List Char)} (hc : (read l ls).construct.isOpen = false) :
    ∃ top, ls = top ++ (read l ls).rest ∧ ∀ more, read l (top ++ more) = { read l ls with rest := more } := by
  by_cases hb : Text.trim l = []
  · exact ⟨[], by rw [read_blank hb]; rfl, fun more => by rw [read_blank hb, read_blank hb]; rfl⟩
  simp only [read_shape hb] at hc ⊢
  cases hl : Line.read (Text.trim l) with
  | unknown _ | prop _ _ | ref _ _ => exact ⟨[], rfl, fun _ => rfl⟩
  | sect name attributes =>
    rw [hl] at hc
    cases hs : Block.split? {} ls with
    | none => simp [ofShape, hs, Construct.isOpen] at hc
    | some p =>
      obtain ⟨close, hls, hmore⟩ := Block.exists_split? (by decide) hs
      refine ⟨p.1 ++ [close], ?_, fun more => ?_⟩
      · simpa [ofShape, hs] using hls
      · rw [List.append_assoc, List.singleton_append]
        simp only [ofShape, hs, hmore more]
  | func name arguments opened =>
    rw [hl] at hc
    cases hs : Block.split? {} (ls.drop (gap opened)) with
    | none => simp [ofShape, hs, Construct.isOpen] at hc
    | some p =>
      obtain ⟨close, hls, hmore⟩ := Block.exists_split? (by decide) hs
      have hlen : gap opened ≤ ls.length := by
        have := Block.length_of_split? hs
        rw [List.length_drop] at this
        omega
      refine ⟨ls.take (gap opened) ++ (p.1 ++ [close]), ?_, fun more => ?_⟩
      · rw [List.append_assoc, List.append_assoc, List.singleton_append]
        conv_lhs => rw [← List.take_append_drop (gap opened) ls, hls]
        simp [ofShape, hs]
      · have hdrop : (ls.take (gap opened) ++ (p.1 ++ [close]) ++ more).drop (gap opened) =
            p.1 ++ close :: more := by
          rw [List.append_assoc, List.drop_left' (List.length_take_of_le hlen), List.append_assoc,
            List.singleton_append]
        simp only [ofShape, hs, hdrop, hmore more]

theorem length_of_eq_append {l : List Char} {ls top : List (List Char)} (h : ls = top ++ (read l ls).rest) :
    (l :: top).length = (read l ls).height := by
  have hheight := (height_add_length_rest l ls).2
  have hlen := congrArg List.length h
  rw [List.length_append] at hlen
  rw [List.length_cons]
  omega

end Front

/-! ## Building with other lines -/

/-- Lines that can be built load what their first construct loads, then what the others do. -/
theorem success?_buildLines_of_read {rule : ImportRule} {before height : Nat} {l : List Char}
    {ls rest : List (List Char)} {c : Construct} {nodes more : List Node} {paths paths' : List String}
    (hread : Front.read l ls = ⟨c, height, rest⟩)
    (hc : (buildConstruct rule before c).success? = some (nodes, paths))
    (h : (buildLines rule (before + height) rest).success? = some (more, paths')) :
    (buildLines rule before (l :: ls)).success? = some (nodes ++ more, paths ++ paths') := by
  simp only [buildLines_cons, hread, Run.success?_bind, hc, h, Option.bind_some, Option.map_some, Run.success?_pure,
    List.append_nil]

theorem success?_buildSect {rule : ImportRule} {before : Nat} {attributes : List Char} {block : List (List Char)}
    {a : Attributes} {children : List Node} {paths : List String}
    (ha : (buildAttributes attributes).success? = some (a, []))
    (h : (buildLines rule (before + 1) block).success? = some (children, paths)) (name : List Char) :
    (buildConstruct rule before (.sect name attributes block)).success? =
      some ([.sectOf (String.ofList name) a children], paths) := by
  have hemit (first last : Nat) : (Run.emit (.sect (String.ofList name) first last)).success? = some ((), []) := rfl
  simp only [buildConstruct, Run.success?_bind, ha, hemit, h, Option.bind_some, Option.map_some, Run.success?_pure,
    List.append_nil, List.nil_append]

theorem Run.Below.success?_eq {k : Nat} {r s : Run α} (h : Below k r s) : s.success? = r.success? := by
  cases hr : r.result with
  | error fault => rw [success?_of_error hr, success?_of_error (by rw [h.result, hr]; rfl)]
  | ok a => rw [success?_of_ok hr, success?_of_ok (by rw [h.result, hr]; rfl), h.loads]

section

variable {rule : ImportRule} (hrule : ∀ k path deferred, (rule path deferred).Below k (rule path deferred))

include hrule

/-- How many lines stand before does not matter to lines that can be built. -/
theorem success?_buildLines_eq (ls : List (List Char)) (before before' : Nat) :
    (buildLines rule before' ls).success? = (buildLines rule before ls).success? := by
  have h (k : Nat) : (buildLines rule k ls).success? = (buildLines rule 0 ls).success? := by
    have := (buildLines_below (hrule k) ls 0).success?_eq
    rwa [Nat.zero_add] at this
  rw [h before', h before]

theorem success?_buildConstruct_eq (c : Construct) (before before' : Nat) :
    (buildConstruct rule before' c).success? = (buildConstruct rule before c).success? := by
  have h (k : Nat) : (buildConstruct rule k c).success? = (buildConstruct rule 0 c).success? := by
    have := (buildConstruct_below (hrule k) 0 c fun _ _ block _ => buildLines_below (hrule k) block).success?_eq
    rwa [Nat.zero_add] at this
  rw [h before', h before]

namespace Site.Builds

variable {site : Site} {name : List Char} {arguments : List (List Char)} {context : Node.Context}
  {paths paths' : List String} {nodes : List Node} {l : List Char} {ls : List (List Char)} {before : Nat}

theorem here {header : List Char} {below : List (List Char)}
    (hheader : Line.read (Text.trim header) = .func name arguments true)
    (h : (buildLines rule before below).success? = some (nodes, paths)) :
    (Site.mk [] header below).Builds rule name arguments (.here [] nodes) paths := by
  intro block hneutral before'
  have hread := Front.read_of_func hheader (Block.split?_of_brace hneutral below)
  have hfunc : (buildConstruct rule before' (.func name arguments block)).success? =
      some ([.funcOfBlock name arguments block], []) := rfl
  rw [← success?_buildLines_eq hrule below before (before' + (block.length + 2))] at h
  exact success?_buildLines_of_read hread hfunc h

theorem next (h : site.Builds rule name arguments context paths')
    (hc : (buildConstruct rule before (Front.read l ls).construct).success? = some (nodes, paths))
    {top : List (List Char)} (hread : ∀ more, Front.read l (top ++ more) = { Front.read l ls with rest := more }) :
    (site.between (l :: top) []).Builds rule name arguments (context.behind nodes) (paths ++ paths') := by
  intro block hneutral before'
  rw [lines_between, List.append_nil, List.cons_append, Node.Context.fill_behind]
  rw [← success?_buildConstruct_eq hrule _ before before'] at hc
  exact success?_buildLines_of_read (hread _) hc (h block hneutral _)

/-- A section stands around it, and its scan is clear behind the header. -/
theorem into (h : site.Builds rule name arguments context paths) {block rest : List (List Char)}
    (hneutral : Scan.Neutral block.flatten) {sectName attributes : List Char} {a : Attributes}
    (hl : Line.read (Text.trim l) = .sect sectName attributes)
    (ha : (buildAttributes attributes).success? = some (a, []))
    (hs : Block.split? {} ls = some (site.lines block, rest))
    (hq : (({} : Scan).after (site.above ++ [site.header]).flatten).quoted = false)
    (he : (({} : Scan).after (site.above ++ [site.header]).flatten).escaped = false)
    (hrest : (buildLines rule before rest).success? = some (nodes, paths')) :
    ∃ close, ls = site.lines block ++ close :: rest ∧ (site.between [l] (close :: rest)).Builds rule name arguments
      (.inside [] (String.ofList sectName) a context nodes) (paths ++ paths') := by
  obtain ⟨close, rfl⟩ := Block.eq_of_split? hs
  refine ⟨close, rfl, fun block' hneutral' before' => ?_⟩
  have hlines (b : List (List Char)) : site.lines b = (site.above ++ [site.header]) ++ (b ++ ['}'] :: site.below) := by
    simp [lines]
  have hs' : Block.split? {} (site.lines block' ++ close :: rest) = some (site.lines block', rest) := by
    rw [hlines] at hs ⊢
    refine Block.split?_exchange hs (fun hd _ => (hneutral'.at_clear hq he hd).1) fun hd => ?_
    rw [(hneutral'.at_clear hq he hd).2, (hneutral.at_clear hq he hd).2]
  have hread := Front.read_of_sect hl hs'
  have hsect := success?_buildSect ha (h block' hneutral' (before' + 1)) sectName
  rw [← success?_buildLines_eq hrule rest before (before' + ((site.lines block').length + 2))] at hrest
  rw [lines_between, List.singleton_append]
  have hall := success?_buildLines_of_read hread hsect hrest
  exact hall

end Site.Builds

/-! ## The way to the function -/

/-- **Where building comes to a function** with neutral lines, its node has one context for all neutral lines. -/
theorem Visits.exists_builds {before k : Nat} {ls : List (List Char)} {header : List Char}
    {tail back block below : List (List Char)} {name : List Char} {arguments : List (List Char)}
    (hv : Visits markImport before ls k (header :: tail)) (hclear : ClearBehind before ls k)
    (hheader : Line.read (Text.trim header) = .func name arguments true) (hneutral : Scan.Neutral block.flatten)
    (hback : tail ++ back = block ++ ['}'] :: below) {nodes : List Node}
    (h : (buildLines rule before ls).result = .ok nodes) :
    ∃ site : Site, site.header = header ∧ ls = site.lines block ∧ k = before + site.above.length ∧
      ∃ context paths, site.Builds rule name arguments context paths := by
  generalize hls : header :: tail = here at hv
  induction hv generalizing nodes with
  | @here before ls =>
    subst hls
    rw [buildLines_cons] at h
    obtain ⟨xs, hx, h⟩ := Run.bind_ok_iff.1 h
    obtain ⟨more, hmore, -⟩ := Run.bind_ok_iff.1 h
    obtain ⟨rest, rfl⟩ := Front.exists_of_func_closed hheader hneutral hback (isOpen_eq_false_of_ok hx)
    rw [Front.read_of_func hheader (Block.split?_of_brace hneutral rest)] at hmore
    exact ⟨⟨[], header, rest⟩, rfl, rfl, rfl, _, _, .here hrule hheader (Run.success?_of_ok hmore)⟩
  | @next before l ls nodes₁ k here hc hv ih =>
    rw [buildLines_cons] at h
    obtain ⟨xs, hx, h⟩ := Run.bind_ok_iff.1 h
    obtain ⟨more, hmore, -⟩ := Run.bind_ok_iff.1 h
    obtain ⟨site, rfl, hrest, hk, context, paths, hbuilds⟩ :=
      ih (clearBehind_iff.2 fun s hs => clearBehind_iff.1 hclear s (.next hc hs)) hmore hls
    obtain ⟨top, htop, hread⟩ := Front.exists_read (isOpen_eq_false_of_ok hx)
    have hlen := Front.length_of_eq_append htop
    refine ⟨site.between (l :: top) [], rfl, ?_, ?_, _, _, hbuilds.next hrule (Run.success?_of_ok hx) hread⟩
    · rw [Site.lines_between, List.append_nil, ← hrest, List.cons_append, ← htop]
    · rw [hk, Site.between, List.length_append, hlen, Nat.add_assoc]
  | @into before l ls sectName attributes inner a k here hc ha hv ih =>
    rw [buildLines_cons, hc] at h
    obtain ⟨xs, hx, h⟩ := Run.bind_ok_iff.1 h
    obtain ⟨more, hmore, -⟩ := Run.bind_ok_iff.1 h
    obtain ⟨a', ha', hx⟩ := Run.bind_ok_iff.1 hx
    rw [Run.result_bind_of_ok rfl] at hx
    obtain ⟨children, hchildren, -⟩ := Run.bind_ok_iff.1 hx
    obtain ⟨site, rfl, rfl, rfl, context, paths, hbuilds⟩ :=
      ih (clearBehind_iff.2 fun s hs => clearBehind_iff.1 hclear s (.into hc ha hs)) hchildren hls
    obtain ⟨hq, he⟩ := clearBehind_iff.1 hclear _ (.of_sect hc)
    have hloads : (buildAttributes attributes).success? = some (a', []) := by
      rw [Run.success?_of_ok ha', loads_buildAttributes]
    obtain ⟨close, hlines, hbuilds⟩ := hbuilds.into hrule hneutral (Front.line_of_read_sect hc) hloads
      (Front.split?_of_read_sect hc) hq he (Run.success?_of_ok hmore)
    refine ⟨site.between [l] (close :: (Front.read l ls).rest), rfl, ?_, ?_, _, _, hbuilds⟩
    · rw [Site.lines_between, List.singleton_append, ← hlines]
    · rw [Site.between, List.length_append, List.length_singleton]
      omega

/-- The place that building comes to is the one that it is said to come to. -/
theorem Site.exists_builds {site : Site} {block tail : List (List Char)} {name : List Char}
    {arguments : List (List Char)}
    (hreach : Visits markImport 0 (site.lines block) site.above.length (site.header :: tail))
    (hclear : ClearBehind 0 (site.lines block) site.above.length)
    (hheader : Line.read (Text.trim site.header) = .func name arguments true) (hneutral : Scan.Neutral block.flatten)
    {nodes : List Node} (h : (buildLines rule 0 (site.lines block)).result = .ok nodes) :
    ∃ context paths, site.Builds rule name arguments context paths := by
  obtain ⟨front, back, hlines, hlen⟩ := hreach.infix
  rw [Nat.zero_add] at hlen
  rw [List.append_assoc] at hlines
  obtain ⟨rfl, htail⟩ := List.append_inj hlines hlen
  rw [List.cons_append, List.cons.injEq] at htail
  obtain ⟨site', hheader', hlines', hlen', context, paths, hbuilds⟩ :=
    hreach.exists_builds hrule hclear hheader hneutral htail.2.symm h
  rw [Nat.zero_add] at hlen'
  obtain ⟨habove, hrest⟩ := List.append_inj hlines' hlen'
  rw [List.cons.injEq, List.append_cancel_left_eq, List.cons.injEq] at hrest
  have hsite : site' = site := by
    cases site'
    cases site
    simp only [Site.mk.injEq]
    exact ⟨habove.symm, hheader', hrest.2.2.symm⟩
  exact ⟨context, paths, hsite ▸ hbuilds⟩

end

/-! ## Reading -/

theorem Site.sourceLines_text {site : Site} {block : List (List Char)} (hline : ∀ l ∈ site.lines block, '\n' ∉ l)
    (hbare : Comment.Bare (Text.unlines (site.lines block))) : sourceLines (site.text block) = site.lines block := by
  rw [sourceLines, text, String.toList_ofList, hbare.erase_eq, Text.lines_unlines (by simp [lines]) hline]

/-- **What stands in a function is not read.** Let a text without comments be read, let building come to a
function, its brace on the line of its header, at the top or in any sections, and let the lines of that function
be neutral and the scans of all sections around it clear behind the header. Then one place in the tree holds its
node, and with any other neutral lines the text is read as well, as long as they make no comment: to the same
tree but for that node, whose body these lines become, and with the same loads. -/
theorem reads_swap_block {library : Library} {expand : Bool} {source : Option String} {site : Site}
    {name : List Char} {arguments block tail : List (List Char)} {run : Run Node} {tree : Node}
    (hline : ∀ l ∈ site.lines block, '\n' ∉ l) (hbare : Comment.Bare (Text.unlines (site.lines block)))
    (hneutral : Scan.Neutral block.flatten)
    (hheader : Line.read (Text.trim site.header) = .func name arguments true)
    (hreach : Visits markImport 0 (site.lines block) site.above.length (site.header :: tail))
    (hclear : ClearBehind 0 (site.lines block) site.above.length)
    (hrun : library.Reads expand (site.text block) source run) (hok : run.result = .ok tree) :
    ∃ context : Node.Context, tree = .rootOf (context.fill (.funcOfBlock name arguments block)) ∧
      ∀ block' : List (List Char), (∀ l ∈ block', '\n' ∉ l) → Comment.Bare (Text.unlines (site.lines block')) →
        Scan.Neutral block'.flatten → ∃ run', library.Reads expand (site.text block') source run' ∧
          run'.result = .ok (.rootOf (context.fill (.funcOfBlock name arguments block'))) ∧
          run'.loads = run.loads := by
  obtain ⟨loader, hkey, hload, rfl⟩ := hrun
  obtain ⟨nodes, hnodes, rfl⟩ := parse_ok_iff.1 hok
  rw [buildText, Site.sourceLines_text hline hbare] at hnodes
  obtain ⟨context, paths, hbuilds⟩ :=
    Site.exists_builds (importRule_below expand loader (loader.origin source)) hreach hclear hheader hneutral hnodes
  have hsame := hbuilds block hneutral 0
  rw [Run.success?_eq_some_iff] at hsame
  have hloads : (parse expand loader (site.text block) source).loads = paths := by
    rw [parse_loads, buildText, Site.sourceLines_text hline hbare]
    exact hsame.2
  refine ⟨context, ?_, fun block' hline' hbare' hneutral' => ?_⟩
  · rw [hsame.1] at hnodes
    cases hnodes
    rfl
  · obtain ⟨hresult, hpaths⟩ := Run.success?_eq_some_iff.1 (hbuilds block' hneutral' 0)
    have hsource : sourceLines (site.text block') = site.lines block' := by
      obtain ⟨habove, hhead, -, hbelow⟩ := Site.forall_mem_lines.1 hline
      exact Site.sourceLines_text (Site.forall_mem_lines.2 ⟨habove, hhead, hline', hbelow⟩) hbare'
    have hloads' : (parse expand loader (site.text block') source).loads = paths := by
      rw [parse_loads, buildText, hsource, hpaths]
    refine ⟨parse expand loader (site.text block') source, ⟨loader, hkey, ?_, rfl⟩, ?_, ?_⟩
    · rw [hloads', ← hloads]
      exact hload
    · rw [parse_ok_iff, buildText, hsource]
      exact ⟨_, hresult, rfl⟩
    · rw [hloads', hloads]

/-- A function in a section, below an import, and lines that look like much else in its place. -/
theorem reads_swap_block_nested :
    let site : Site := ⟨["@import a".toList, "s \x7b".toList], "f(x) \x7b".toList, ["\x7d".toList, "k: 1".toList]⟩
    let block := ["  return x".toList]
    let block' := ["@import b".toList, "g() \x7b".toList, "??".toList, "\x7d".toList]
    let loader := Loader.ofMemory [("a", some "v: 2")] []
    ∃ context : Node.Context,
      (parse true loader (site.text block) none).result =
        .ok (.rootOf (context.fill (.funcOfBlock ['f'] [['x']] block))) ∧
      (parse true loader (site.text block') none).result =
        .ok (.rootOf (context.fill (.funcOfBlock ['f'] [['x']] block'))) ∧
      (parse true loader (site.text block') none).loads = ["a"] := by
  intro site block block' loader
  have hfree (b : List (List Char)) (h : Comment.Free (Text.unlines (site.lines b))) :
      Comment.Bare (Text.unlines (site.lines b)) := h.bare
  obtain ⟨tree, hok⟩ := Run.exists_ok_of_isOk (r := parse true loader (site.text block) none) (by decide +kernel)
  have himport : Front.read "@import a".toList (site.lines block).tail =
      ⟨.ref ['a'] false, 1, (site.lines block).tail⟩ := by decide +kernel
  have hsect : (Front.read "s \x7b".toList ((site.lines block).drop 2)).construct =
      .sect ['s'] [] [site.header, "  return x".toList, "\x7d".toList] := by decide +kernel
  obtain ⟨a, ha⟩ := Run.exists_ok_of_isOk (r := buildAttributes []) (by decide +kernel)
  have hreach : Visits markImport 0 (site.lines block) 2 (site.header :: ["  return x".toList, "\x7d".toList]) := by
    have hmark : (buildConstruct markImport 0
        (Front.read "@import a".toList (site.lines block).tail).construct).result =
          .ok [.ref "a" Node.pendingType "a"] := by
      rw [himport]
      rfl
    have hrest : Visits markImport (0 + (Front.read "@import a".toList (site.lines block).tail).height)
        (Front.read "@import a".toList (site.lines block).tail).rest 2
          [site.header, "  return x".toList, "\x7d".toList] := by
      rw [himport]
      exact .into hsect ha .here
    exact .next hmark hrest
  have hclear : ClearBehind 0 (site.lines block) 2 := clearBehind_of_lacks fun l hl => by
    have hall : ((site.lines block).take 3).all (fun l => l.all fun c => c != '"' && c != '\\') = true := by
      decide
    simpa using List.all_eq_true.1 (List.all_eq_true.1 hall l hl)
  have hheader : Line.read (Text.trim site.header) = .func ['f'] [['x']] true := by decide +kernel
  have hrun : loader.library.Reads true (site.text block) none _ := Library.reads_library_iff.2 rfl
  obtain ⟨context, htree, hswap⟩ := reads_swap_block (by decide) (hfree block ⟨by decide +kernel, by decide +kernel⟩)
    ⟨by decide, by decide⟩ hheader hreach hclear hrun hok
  obtain ⟨run', hrun', hresult, hloads⟩ :=
    hswap block' (by decide) (hfree block' ⟨by decide +kernel, by decide +kernel⟩) ⟨by decide, by decide⟩
  rw [Library.reads_library_iff.1 hrun'] at hresult hloads
  refine ⟨context, hok.trans (congrArg _ htree), hresult, ?_⟩
  rw [hloads]
  decide +kernel

end DefTree
