/-
Reading undoes printing.

The lines of a printable node are one construct to the builder, and its
nodes are that node. The induction is on the node: the lines of the
children of a section are neutral, so that the section's block is exactly
these lines.
-/
import DefTree.Proofs.Comment
import DefTree.Proofs.Content
import DefTree.Proofs.Parse
import DefTree.Proofs.Reading

namespace DefTree

namespace Layout

variable {y : Layout}

/-! ## Fronts -/

theorem read_indent {l : List Char} (h : Text.Tight l) (hne : l ≠ []) (level : Nat) (ls : List (List Char)) :
    Front.read (y.indent level l) ls = Front.ofShape l ls (Line.read l) := by
  have hmargin : Text.allBlank (List.replicate (level * y.width) ' ') = true :=
    List.all_eq_true.2 fun c hc => List.eq_of_mem_replicate hc ▸ by decide
  have htrim : Text.trim (y.indent level l) = l := h.trim_append hmargin
  rw [Front.read_shape (by rw [htrim]; exact hne), htrim]

theorem depth_close (y : Layout) (level : Nat) : (({} : Scan).feedLine (y.indent level ['}'])).depth = 0 := by
  have h := neutral_margin (level * y.width)
  rw [indent, Scan.feedLine_append h.passes, h.returns]
  decide

theorem tight_sectHeader {name : String} (h : IsWord name) (attributes : Attributes) :
    Text.Tight (sectHeader name attributes) := by
  have : sectHeader name attributes = name.toList ++ (attributes.entries.flatMap entry ++ [' ']) ++ ['{'] := by
    simp [sectHeader]
  rw [this]
  exact (Line.tight_word h).append h.1 (.of_forall (Text.isBlank_of_all (by decide))) (by simp) _

theorem tight_funcHeader {name : String} (h : IsWord name) (arguments : List String) :
    Text.Tight (funcHeader name arguments) := by
  have : funcHeader name arguments =
      name.toList ++ ('(' :: Text.joined ',' (argumentPieces arguments) ++ [')', ' ']) ++ ['{'] := by
    simp [funcHeader]
  rw [this]
  exact (Line.tight_word h).append h.1 (.of_forall (Text.isBlank_of_all (by decide))) (by simp) _

theorem tight_propLine {name : String} (h : IsWord name) {value : Scalar} {cs : List Char}
    (hv : value.Printable cs) : Text.Tight (propLine name value) := by
  have : propLine name value = name.toList ++ [':', ' '] ++ scalar value := by simp [propLine]
  rw [this]
  exact (Line.tight_word h).append h.1 (Scalar.tight_scalar hv) (Scalar.scalar_ne_nil hv) _

theorem tight_refLine (y : Layout) (path : String) : Text.Tight (y.refLine path) := by
  have hquote : Text.Tight (quote path) := .quoted path.toList
  obtain ⟨mid, hmid⟩ : ∃ mid, y.refLine path = ['@'] ++ mid ++ quote path := by
    rw [refLine]
    cases y.deferred
    · exact ⟨Line.importMark.tail, rfl⟩
    · exact ⟨Line.deferredMark.tail, rfl⟩
  rw [hmid]
  exact Text.Tight.append (.of_forall (Text.isBlank_of_all (by decide))) (by simp) hquote (List.cons_ne_nil _ _) mid

/-! ## Building -/

theorem buildLines_single {rule : ImportRule} {before height : Nat} {l : List Char} {ls : List (List Char)}
    {c : Construct} {nodes : List Node} (hread : Front.read l ls = ⟨c, height, []⟩)
    (hc : (buildConstruct rule before c).result = .ok nodes) :
    (buildLines rule before (l :: ls)).result = .ok nodes := by
  rw [buildLines_cons, hread, Run.result_bind_of_ok hc, buildLines_nil, pure_bind, List.append_nil]
  rfl

theorem buildProp_scalar {name : String} {value : Scalar} {cs : List Char} (h : value.Printable cs) :
    (buildProp name.toList (' ' :: scalar value)).result = .ok (.propOf name value) := by
  obtain ⟨shown, hs⟩ := Option.isSome_iff_exists.1 (Scalar.isSome_shown? h)
  simp only [buildProp, Scalar.ofValue_scalar h, hs, String.ofList_toList]
  rfl

theorem buildFunc_body {name : String} {arguments : List String} {body : String} (h : PrintableBody body) :
    (buildFunc name.toList (arguments.map String.toList) (Text.lines body.toList)).result =
      .ok (.funcOf name arguments body) := by
  have harguments : (arguments.map String.toList).map String.ofList = arguments := by simp
  simp only [buildFunc, harguments, h.unindent, String.ofList_toList]
  rfl

/-- Nodes whose lines are built to them one by one are built from their lines together. -/
theorem buildLines_nodes {rule : ImportRule} {ns : List Node}
    (h : ∀ n ∈ ns, ∀ before level, (buildLines rule before (y.node level n)).result = .ok [n]) :
    ∀ before level, (buildLines rule before (y.nodes level ns)).result = .ok ns := by
  induction ns with
  | nil =>
    intro before level
    rw [nodes, buildLines_nil]
    rfl
  | cons n ns ih =>
    intro before level
    have hn := h n List.mem_cons_self before level
    have hns := ih (fun m hm => h m (List.mem_cons_of_mem _ hm)) (before + (y.node level n).length) level
    rw [nodes, buildLines_append hn, Run.result_bind_of_ok hn, Run.result_bind_of_ok hns]
    rfl

/-- **The lines of a printable node are built to it**, wherever they stand, if imports are kept as
the layout writes them. -/
theorem buildLines_node {rule : ImportRule} (hrule : ∀ path, rule path y.deferred = keepImport path) {n : Node}
    (h : n.Printable) : ∀ before level, (buildLines rule before (y.node level n)).result = .ok [n] := by
  induction h with
  | @sect name attributes children hname ha hchildren ih =>
    intro before level
    -- the scan goes through the children, whatever braces they have, up to the closing line
    have hsplit : Block.split? {} (y.nodes (level + 1) children ++ [y.indent level ['}']]) =
        some (y.nodes (level + 1) children, []) :=
      Block.split?_of_neutral (neutral_nodes (fun n hn => neutral_node y (hchildren n hn)) (level + 1))
        (depth_close y level) []
    have hread : Front.read (y.indent level (sectHeader name attributes))
        (y.nodes (level + 1) children ++ [y.indent level ['}']]) =
          ⟨.sect name.toList (Text.trim (attributes.entries.flatMap entry ++ [' '])) (y.nodes (level + 1) children),
            (y.nodes (level + 1) children).length + 2, []⟩ := by
      rw [read_indent (tight_sectHeader hname attributes) (by simp [sectHeader]),
        Line.read_sectHeader hname ha, Front.ofShape, hsplit]
    have hattributes : (buildAttributes (Text.trim (attributes.entries.flatMap entry ++ [' ']))).result =
        .ok attributes := by
      rw [buildAttributes, Attributes.read_entries ha]
      rfl
    refine buildLines_single hread ?_
    rw [buildConstruct, Run.result_bind_of_ok hattributes, Run.result_bind_of_ok rfl,
      Run.result_bind_of_ok (buildLines_nodes ih (before + 1) (level + 1)), String.ofList_toList]
    rfl
  | @func name arguments body hname ha hbody =>
    intro before level
    have hneutral : Scan.Neutral (Text.lines body.toList).flatten := by
      rw [Text.flatten_lines]
      exact hbody.neutral
    have hsplit := Block.split?_of_neutral hneutral (depth_close y level) []
    have hread : Front.read (y.indent level (funcHeader name arguments))
        (Text.lines body.toList ++ [y.indent level ['}']]) =
          ⟨.func name.toList (arguments.map String.toList) (Text.lines body.toList),
            0 + (Text.lines body.toList).length + 2, []⟩ := by
      rw [read_indent (tight_funcHeader hname arguments) (by simp [funcHeader]),
        Line.read_funcHeader hname ha, Front.ofShape]
      simp only [Front.gap, if_true, List.drop_zero, hsplit]
    refine buildLines_single hread ?_
    rw [buildConstruct, Run.result_bind_of_ok (buildFunc_body hbody)]
    rfl
  | @prop name value hname hv =>
    intro before level
    have hread : Front.read (y.indent level (propLine name value)) [] =
        ⟨.prop name.toList (' ' :: scalar value), 1, []⟩ := by
      rw [read_indent (tight_propLine hname hv) (by simp [propLine]), Line.read_propLine hname hv (by decide),
        Front.ofShape]
    refine buildLines_single hread ?_
    rw [buildConstruct, Run.result_bind_of_ok (buildProp_scalar hv)]
    rfl
  | @ref path hpath htrim =>
    intro before level
    have hread : Front.read (y.indent level (y.refLine path)) [] = ⟨.ref path.toList y.deferred, 1, []⟩ := by
      rw [read_indent (tight_refLine y path) (by simp [refLine, quote]), Line.read_refLine y hpath htrim,
        Front.ofShape]
    refine buildLines_single hread ?_
    rw [buildConstruct, String.ofList_toList, hrule]
    rfl

/-- **The text of a printable tree is read back** if it holds no comment. -/
theorem parse_print_of_erase {expand : Bool} (hy : y.deferred = true ∨ expand = false) (loader : Loader)
    (source : Option String) {tree : Node} (h : PrintableTree tree)
    (herase : Comment.erase (y.print tree).toList = (y.print tree).toList) :
    (parse expand loader (y.print tree) source).result = .ok tree := by
  obtain ⟨hchildren⟩ := h
  next children =>
  have hrule : ∀ path, importRule expand loader (loader.origin source) path y.deferred = keepImport path := by
    intro path
    rcases hy with hy | hy
    · simp [importRule, hy]
    · simp [importRule, hy]
  have hnodes := buildLines_nodes (fun n hn => buildLines_node hrule (hchildren n hn)) 0 0
  have hlines := newline_not_mem_nodes (fun n hn => newline_not_mem_node y (hchildren n hn)) 0
  refine parse_ok_iff.2 ⟨children, ?_, rfl⟩
  rw [buildText, sourceLines, herase, print, String.toList_ofList, Node.rootOf, node, buildLines_recut hlines]
  exact hnodes

/-! ## What printing adds -/

theorem count_scalar {v : Scalar} {cs : List Char} (h : v.Printable cs) :
    (scalar v).count '/' = v.texts.count '/' := by
  match v, h with
  | .text s, _ => simp [scalar, quote, Scalar.texts]
  | .number (.integer n), _ =>
    refine List.count_eq_zero.2 fun hm => ?_
    exact absurd (Numeral.isDigit_of_mem_signed hm) (by decide)
  | .boolean true, _ => decide
  | .boolean false, _ => decide

theorem count_flatMap_entry {es : List (String × Scalar)} (h : ∀ e ∈ es, PrintableAttribute e) :
    (es.flatMap entry).count '/' = (Attributes.texts es).count '/' := by
  induction es with
  | nil => rfl
  | cons e es ih =>
    have hvalue := count_scalar (h e List.mem_cons_self).value
    have hrest := ih fun e' he' => h e' (List.mem_cons_of_mem _ he')
    rw [Attributes.texts] at hrest
    simp [Attributes.texts, entry, quote, hvalue, hrest]

theorem count_argumentPieces (arguments : List String) :
    (Text.joined ',' (argumentPieces arguments)).count '/' = (arguments.flatMap String.toList).count '/' := by
  have hspace : ∀ as : List String, (as.map (' ' :: ·.toList)).flatten.count '/' =
      (as.flatMap String.toList).count '/' := by
    intro as
    induction as with
    | nil => rfl
    | cons a as ih => simp [ih]
  rw [Text.count_joined (by decide)]
  cases arguments with
  | nil => rfl
  | cons a as => rw [argumentPieces, List.flatten_cons, List.count_append, hspace, List.flatMap_cons, List.count_append]

theorem count_indent (y : Layout) (level : Nat) (l : List Char) : (y.indent level l).count '/' = l.count '/' := by
  simp [indent, List.count_replicate]

theorem count_nodes {y : Layout} {ns : List Node}
    (h : ∀ n ∈ ns, ∀ level, (y.node level n).flatten.count '/' = n.texts.count '/') (level : Nat) :
    (y.nodes level ns).flatten.count '/' = (Node.textsOf ns).count '/' := by
  induction ns with
  | nil => rfl
  | cons n ns ih =>
    rw [nodes, List.flatten_append, List.count_append, h n List.mem_cons_self level,
      ih fun m hm => h m (List.mem_cons_of_mem _ hm), Node.textsOf, List.count_append]

/-- Printing adds no slash to the texts of a node. -/
theorem count_node (y : Layout) {n : Node} (h : n.Printable) :
    ∀ level, (y.node level n).flatten.count '/' = n.texts.count '/' := by
  induction h with
  | @sect name attributes children _ ha _ ih =>
    intro level
    rw [Node.sectOf, node, Node.texts]
    simp [count_indent, sectHeader, count_flatMap_entry ha, count_nodes ih (level + 1), Nat.add_assoc]
  | @func name arguments body _ _ _ =>
    intro level
    have hlines : (Text.lines body.toList).flatten.count '/' = body.toList.count '/' := by
      rw [Text.flatten_lines, List.count_filter (by decide)]
    rw [Node.funcOf, node, Node.texts]
    simp [count_indent, funcHeader, count_argumentPieces, hlines, Nat.add_assoc]
  | @prop name value _ hv =>
    intro level
    rw [Node.propOf, node, Node.texts]
    simp [count_indent, propLine, count_scalar hv]
  | @ref path _ _ =>
    intro level
    have hmark : (if y.deferred then Line.deferredMark else Line.importMark).count '/' = 0 := by
      cases y.deferred
      · decide
      · decide
    rw [Node.refOf, node, Node.texts, List.flatten_singleton, count_indent, refLine, List.count_append, hmark]
    simp [quote]

/-- A text that is read back to its tree holds no comment: removing one would have taken a slash away
from the texts of the tree, and reading does not make one up. -/
theorem erase_of_parse_print {loader : Loader} {source : Option String} {tree : Node} (h : PrintableTree tree)
    (hparse : (parse false loader (y.print tree) source).result = .ok tree) :
    Comment.erase (y.print tree).toList = (y.print tree).toList := by
  obtain ⟨hchildren⟩ := h
  next children =>
  refine (Comment.erase_eq_or_lt _).resolve_right (Nat.not_lt.2 ?_)
  obtain ⟨nodes, hnodes, htree⟩ := parse_ok_iff.1 hparse
  obtain rfl : children = nodes := by
    cases htree
    rfl
  have hrule : ∀ path deferred, importRule false loader (loader.origin source) path deferred = keepImport path := by
    intro path deferred
    simp [importRule]
  have hprint : (y.print (.rootOf children)).toList.count '/' = (Node.textsOf children).count '/' := by
    rw [print, String.toList_ofList, Text.unlines, Text.count_joined (by decide)]
    exact count_nodes (fun n hn => count_node y (hchildren n hn)) 0
  -- what was read is the tree itself, so its slashes are all in the text without comments
  have hread := count_texts_of_buildLines hrule (show '/' ≠ '\n' by decide) hnodes
  rw [sourceLines, Text.flatten_lines, List.count_filter (by decide)] at hread
  rw [hprint]
  exact hread

end Layout

/-- **Reading undoes printing**: with imports kept, the text of a printable tree is read back to the
tree exactly when no comment is found in it. With imports expanded the same is true of texts whose
imports are deferred. -/
theorem parse_print (y : Layout) (loader : Loader) (source : Option String) {tree : Node}
    (h : PrintableTree tree) :
    ((parse false loader (y.print tree) source).result = .ok tree ↔
      Comment.erase (y.print tree).toList = (y.print tree).toList) ∧
    (y.deferred = true → Comment.erase (y.print tree).toList = (y.print tree).toList →
      (parse true loader (y.print tree) source).result = .ok tree) := by
  constructor
  · exact ⟨Layout.erase_of_parse_print h, Layout.parse_print_of_erase (.inr rfl) loader source h⟩
  · intro hy herase
    exact Layout.parse_print_of_erase (.inl hy) loader source h herase

/-- A tree with a bit of everything. -/
theorem parse_print_section :
    ∃ tree, PrintableTree tree ∧ (⟨2, true⟩ : Layout).print tree =
        "s \"a b\": -12 \x7b\n  f(x, y) \x7b\nif \x7b\n  \"\x7d\"\n\x7d\n  \x7d\n  k: \"v / w\"\n\x7d\n@import nonfinal \"p/q\"" ∧
      (parse false (Loader.ofMemory [] []) ((⟨2, true⟩ : Layout).print tree) none).result = .ok tree := by
  have hentry : PrintableAttribute ("a b", .number (.integer (-12))) :=
    ⟨by decide, (by decide : (Numeral.decimal 12).length ≤ Numeral.digitLimit), fun _ h => by cases h⟩
  have hbody : PrintableBody "if \x7b\n  \"\x7d\"\n\x7d" :=
    ⟨by decide +kernel, ⟨by decide, by decide⟩⟩
  have htree : PrintableTree (.rootOf [.sectOf "s" ⟨[("a b", .number (.integer (-12)))], by decide⟩
      [.funcOf "f" ["x", "y"] "if \x7b\n  \"\x7d\"\n\x7d", .propOf "k" (.text "v / w")], .refOf "p/q"]) := by
    refine .root (List.forall_mem_cons.2 ⟨.sect (by decide) ?_ ?_,
      List.forall_mem_singleton.2 (.ref (by decide) (by decide))⟩)
    · exact List.forall_mem_singleton.2 hentry
    · refine List.forall_mem_cons.2 ⟨.func (by decide) ?_ hbody, List.forall_mem_singleton.2 (.prop (by decide) ?_)⟩
      · exact List.forall_mem_cons.2 ⟨by decide, List.forall_mem_singleton.2 (by decide)⟩
      · exact (by decide : Lacks "v / w" ['"', '\\', '{', '\n'])
  refine ⟨_, htree, by decide +kernel, ?_⟩
  exact (parse_print ⟨2, true⟩ (Loader.ofMemory [] []) none htree).1.2 (by decide +kernel)

/-- A line comment is found in a text between quotes. -/
theorem parse_print_slashes :
    PrintableTree (.rootOf [.propOf "k" (.text "a//b")]) ∧
    (parse false (Loader.ofMemory [] []) ((⟨0, false⟩ : Layout).print (.rootOf [.propOf "k" (.text "a//b")]))
      none).result ≠ .ok (.rootOf [.propOf "k" (.text "a//b")]) := by
  constructor
  · exact .root (List.forall_mem_singleton.2 (.prop (by decide) (by decide : Lacks "a//b" ['"', '\\', '{', '\n'])))
  · intro h
    have hread : (parse false (Loader.ofMemory [] []) ((⟨0, false⟩ : Layout).print
        (.rootOf [.propOf "k" (.text "a//b")])) none).result.map (fun n => n.children.map Node.value?) =
          .ok [some (.text "\"a")] := by decide +kernel
    rw [h] at hread
    exact absurd hread (by decide)

end DefTree
