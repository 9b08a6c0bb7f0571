/-
What every tree that is read looks like below its root.

A node is well formed if its parts are what its line can say: names are
words, or trimmed and without the marks that end them, arguments are never
empty, keys of attributes come once, and a body has no blank line at either
end. Each clause is one of the line readers at work, or `Block.unindent`; the
source lines hold no line feed, so nothing cut out of them does.

Reading makes well-formed nodes only, in the text and in all texts that it
imports (`wellFormed_of_reads`).
-/
import DefTree.Proofs.Content
import DefTree.Proofs.Layout
import DefTree.Proofs.Provenance

namespace DefTree

/-- A text without blanks at its ends. -/
def IsTrimmed (s : String) : Prop := Text.trim s.toList = s.toList

/-- A text whose first line and whose last line are not blank. -/
structure IsFramed (s : String) : Prop where
  first : ∀ l, (Text.lines s.toList).head? = some l → Text.allBlank l = false
  last : ∀ l, (Text.lines s.toList).getLast? = some l → Text.allBlank l = false

/-- The nodes that can stand below the root of a tree that was read. The root is none of them, and the type of a
property is that of its value. -/
inductive Node.WellFormed : Node → Prop where
  | sect {name type : String} {attributes : Attributes} {children : List Node} (nonempty : name ≠ "")
      (ended : Lacks name [' ', '\n']) (distinct : (attributes.entries.map (·.1)).Nodup) :
      WellFormed (.sect name type attributes children)
  | func {name type : String} {arguments : List String} {body : String} (word : IsWord name)
      (each : ∀ a ∈ arguments, a ≠ "" ∧ IsTrimmed a ∧ Lacks a [',', ')', '\n'])
      (framed : body = "" ∨ IsFramed body) : WellFormed (.func name type arguments body)
  | prop {name : String} {value : Scalar} (trimmed : IsTrimmed name) (ended : Lacks name [':', '{', '\n']) :
      WellFormed (.prop name value.kind value)
  | ref {path type : String} (trimmed : IsTrimmed path) (unquoted : Lacks path ['"', '\x27']) :
      WellFormed (.ref path type path)

/-- A text has a deferred directive for a path: reading it with its imports kept comes to that directive. -/
def Defers (text path : String) : Prop :=
  ∃ before l ls, Visits markImport 0 (sourceLines text) before (l :: ls) ∧
    (Front.read l ls).construct = .ref path.toList true

theorem isTrimmed_ofList {cs : List Char} (h : Text.Tight cs) : IsTrimmed (String.ofList cs) := by
  rw [IsTrimmed, String.toList_ofList, h.trim_eq]

theorem lacks_ofList {cs ds : List Char} (h : ∀ d ∈ ds, d ∉ cs) : Lacks (String.ofList cs) ds := by
  intro c hc hd
  rw [String.toList_ofList] at hc
  exact h c hd hc

theorem ofList_ne_empty {cs : List Char} (h : cs ≠ []) : String.ofList cs ≠ "" := by
  intro he
  exact h (by rw [← String.toList_ofList (l := cs), he]; rfl)

/-! ## Lines -/

namespace Line

variable {cs : List Char}

theorem tight_cleanPath (cs : List Char) : Text.Tight (cleanPath cs) := Text.tight_trim _

theorem quote_not_mem_cleanPath (cs : List Char) {q : Char} (hq : q ∈ ['"', '\x27']) : q ∉ cleanPath cs := by
  intro hm
  have hm := List.mem_filter.1 ((Text.trim_sublist _).subset hm)
  simp only [List.mem_cons, List.not_mem_nil, or_false] at hq
  rcases hq with rfl | rfl <;> simp at hm

theorem of_mem_arguments {a : List Char} (h : a ∈ arguments cs) :
    a ≠ [] ∧ Text.Tight a ∧ ',' ∉ a ∧ a.Sublist cs := by
  obtain ⟨hm, hne⟩ := List.mem_filter.1 h
  obtain ⟨p, hp, rfl⟩ := List.mem_map.1 hm
  have hpart : p.Sublist cs := (List.sublist_flatten_of_mem hp).trans (Text.flatten_pieces_sublist ',' cs)
  exact ⟨by simpa using hne, Text.tight_trim p,
    fun hc => Text.not_mem_of_mem_pieces hp ((Text.trim_sublist p).subset hc), (Text.trim_sublist p).trans hpart⟩

theorem of_func? {name : List Char} {arguments : List (List Char)} {opened : Bool}
    (h : func? cs = some (.func name arguments opened)) :
    name ≠ [] ∧ (∀ c ∈ name, isWordChar c = true) ∧
      ∃ list, list.Sublist cs ∧ ')' ∉ list ∧ arguments = Line.arguments list := by
  unfold func? at h
  simp only at h
  split at h
  · next rest hrest =>
    split at h
    · next hname =>
      cases h
      have hlist : (rest.takeWhile (· != ')')).Sublist cs :=
        (List.takeWhile_sublist _).trans ((List.sublist_cons_self '(' rest).trans
          (hrest ▸ List.dropWhile_sublist isWordChar))
      refine ⟨by simpa using (Bool.and_eq_true_iff.1 hname).1, fun c hc => ?_, _, hlist, fun hc => ?_, rfl⟩
      · exact List.all_eq_true.1 (List.all_takeWhile) c hc
      · simpa using List.mem_takeWhile_imp hc
    · cases h
  · cases h

/-- The name of a section is not empty, since a line does not begin with a blank. -/
theorem of_sect? {name attributes : List Char} (htight : Text.Tight cs)
    (h : sect? cs = some (.sect name attributes)) : name ≠ [] ∧ ' ' ∉ name ∧ name.Sublist cs := by
  unfold sect? at h
  split at h
  · next hbrace =>
    cases h
    refine ⟨?_, fun hc => by simpa using List.mem_takeWhile_imp hc, List.takeWhile_sublist _⟩
    cases cs with
    | nil => simp at hbrace
    | cons c cs =>
      have hc : c ≠ ' ' := by
        rintro rfl
        exact absurd (htight.first ' ' rfl) (by decide)
      rw [List.takeWhile_cons_of_pos (by simpa using hc)]
      exact List.cons_ne_nil c _
  · cases h

theorem brace_not_mem_of_sect?_eq_none (h : sect? cs = none) : '{' ∉ cs := by
  intro hm
  rw [sect?, if_pos (by simpa using hm)] at h
  cases h

/-- The name of a property is trimmed and ends before the first colon. -/
theorem of_prop? {key value : List Char} (h : prop? cs = some (.prop key value)) :
    Text.Tight key ∧ ':' ∉ key ∧ key.Sublist cs := by
  obtain ⟨⟨before, rest⟩, hcut, heq⟩ := Option.map_eq_some_iff.1 h
  cases heq
  have hsub := Text.trim_sublist before
  exact ⟨Text.tight_trim before, fun hc => Text.not_mem_of_cut? hcut (hsub.subset hc),
    hsub.trans ((List.sublist_append_left _ _).trans (Text.cut?_sublist hcut))⟩

end Line

/-! ## Bodies -/

namespace Block

variable {ls : List (List Char)} {l : List Char}

theorem allBlank_of_head?_trimLines (h : (trimLines ls).head? = some l) : Text.allBlank l = false :=
  Text.of_head?_dropWhile_both h

theorem allBlank_of_getLast?_trimLines (h : (trimLines ls).getLast? = some l) : Text.allBlank l = false :=
  Text.of_getLast?_dropWhile_both h

/-- A line that loses its margin does not become blank: a margin is blank itself. -/
theorem allBlank_cutMargin {width : Nat} (h : Text.allBlank l = false) : Text.allBlank (cutMargin width l) = false := by
  unfold cutMargin
  cases hl : Text.after? (List.replicate width ' ') l with
  | none => exact h
  | some rest =>
    have hmargin : Text.allBlank (List.replicate width ' ') = true :=
      List.all_eq_true.2 fun c hc => by rw [List.eq_of_mem_replicate hc]; decide
    rw [Text.eq_of_after? hl, Text.allBlank, List.all_append, ← Text.allBlank, hmargin, Bool.true_and] at h
    exact h

/-- The body of a function is empty, or neither its first nor its last line is blank. -/
theorem framed_unindent (hlines : ∀ l ∈ ls, '\n' ∉ l) :
    String.ofList (Text.unlines (unindent ls)) = "" ∨ IsFramed (String.ofList (Text.unlines (unindent ls))) := by
  by_cases hnil : unindent ls = []
  · exact .inl (by rw [hnil]; rfl)
  have hbody : Text.lines (Text.unlines (unindent ls)) = unindent ls := by
    refine Text.lines_unlines hnil fun l hl hm => ?_
    obtain ⟨l', hl', rfl⟩ := List.mem_map.1 hl
    exact hlines l' ((trimLines_sublist ls).subset hl') ((cutMargin_sublist _ l').subset hm)
  refine .inr ⟨fun l hl => ?_, fun l hl => ?_⟩
  · rw [String.toList_ofList, hbody, unindent, List.head?_map] at hl
    obtain ⟨l', hl', rfl⟩ := Option.map_eq_some_iff.1 hl
    exact allBlank_cutMargin (allBlank_of_head?_trimLines hl')
  · rw [String.toList_ofList, hbody, unindent, List.getLast?_map] at hl
    obtain ⟨l', hl', rfl⟩ := Option.map_eq_some_iff.1 hl
    exact allBlank_cutMargin (allBlank_of_getLast?_trimLines hl')

end Block

/-! ## Nodes -/

/-- **A construct makes well-formed nodes**, whatever the nodes in its block are. -/
theorem Construct.Makes.wellFormed {l : List Char} {ls : List (List Char)} {n : Node}
    (hlines : ∀ x ∈ l :: ls, '\n' ∉ x) (h : (Front.read l ls).construct.Makes n) : n.WellFormed := by
  have hline {cs : List Char} (hcs : cs.Sublist (Text.trim l)) : '\n' ∉ cs := fun hm =>
    hlines l List.mem_cons_self ((hcs.trans (Text.trim_sublist l)).subset hm)
  have hreads := Front.reads l ls
  generalize Front.read l ls = f at h hreads
  cases hreads with
  | blank | unknown | openFunc | openSect => cases h
  | prop hl =>
    cases Line.shape_of_read hl with
    | prop _ _ hs hp =>
      obtain ⟨htight, hcolon, hsub⟩ := Line.of_prop? hp
      cases h
      refine .prop (isTrimmed_ofList htight) (lacks_ofList ?_)
      simpa [hcolon, hline hsub] using fun hm => Line.brace_not_mem_of_sect?_eq_none hs (hsub.subset hm)
  | ref hl =>
    cases Line.shape_of_read hl with
    | ref hr =>
      obtain ⟨rest, -, heq⟩ := Option.map_eq_some_iff.1 hr
      cases heq
      cases h
      exact .ref (isTrimmed_ofList (Line.tight_cleanPath _))
        (lacks_ofList fun q hq => Line.quote_not_mem_cleanPath _ hq)
  | @func _ _ _ block _ hl hs =>
    have hblock : ∀ x ∈ block, '\n' ∉ x := fun x hx =>
      hlines x (List.mem_cons_of_mem l (List.mem_of_mem_drop (Block.mem_of_mem_body hs hx)))
    cases Line.shape_of_read hl with
    | func _ hf =>
      obtain ⟨hne, hword, list, hsub, hparen, rfl⟩ := Line.of_func? hf
      cases h
      refine .func ⟨by rwa [String.toList_ofList], by rwa [String.toList_ofList]⟩ (fun s hs => ?_)
        (Block.framed_unindent hblock)
      obtain ⟨a, ha, rfl⟩ := List.mem_map.1 hs
      obtain ⟨hane, htight, hcomma, hasub⟩ := Line.of_mem_arguments ha
      refine ⟨ofList_ne_empty hane, isTrimmed_ofList htight, lacks_ofList ?_⟩
      simpa [hcomma, hline (hasub.trans hsub)] using fun hm => hparen (hasub.subset hm)
  | sect hl hs =>
    cases Line.shape_of_read hl with
    | sect _ _ hsect =>
      obtain ⟨hne, hspace, hsub⟩ := Line.of_sect? (Text.tight_trim l) hsect
      cases h
      refine .sect (ofList_ne_empty hne) (lacks_ofList ?_) (Attributes.distinct _)
      simpa [hspace] using hline hsub

theorem Node.ComesFrom.wellFormed {library : Library} {expand : Bool} {text file : String} {n : Node}
    {paths : List String} (h : n.ComesFrom library expand text paths file) : n.WellFormed := by
  obtain ⟨before, l, ls, hv, hmakes, -⟩ := h.made
  obtain ⟨front, back, hfile, -⟩ := hv.infix
  refine hmakes.wellFormed fun x hx => ?_
  have hmem : x ∈ sourceLines file := by
    rw [hfile]
    exact List.mem_append_left _ (List.mem_append_right _ hx)
  exact Text.newline_not_mem_of_mem_lines hmem

theorem Node.ComesFrom.defers {library : Library} {text file path type value : String} {paths : List String}
    (h : (Node.ref path type value).ComesFrom library true text paths file) : Defers file path := by
  obtain ⟨before, l, ls, hv, hmakes, hkept⟩ := h.made
  refine ⟨before, l, ls, hv, ?_⟩
  generalize (Front.read l ls).construct = c at hmakes hkept
  cases hmakes with
  | ref path deferred =>
    rw [hkept path deferred rfl rfl, String.toList_ofList]

/-- **Every tree that is read is well formed** below its root, at every depth and in all that was imported; and
with imports expanded, an import in it is one that is deferred in a file that imports lead to. -/
theorem wellFormed_of_reads {library : Library} {expand : Bool} {text : String} {source : Option String}
    {run : Run Node} (h : library.Reads expand text source run) {tree : Node} (htree : run.result = .ok tree) :
    ∀ n ∈ tree.descendants, n.WellFormed ∧
      (expand = true → ∀ path type value, n = .ref path type value →
        ∃ paths file, Leads library text paths file ∧ Defers file path) := by
  intro n hn
  rw [← h.eq_restrict fun _ hp => hp, parse_ok_iff] at htree
  obtain ⟨nodes, hnodes, rfl⟩ := htree
  obtain ⟨paths, file, hfrom⟩ := exists_nodeComesFrom (fun _ _ => Library.load_of_restrict) _ hnodes hn
  refine ⟨hfrom.wellFormed, ?_⟩
  rintro rfl path type value rfl
  exact ⟨paths, file, hfrom.leads, hfrom.defers⟩

/-- An import that stays a node, in a section of a text that is imported. -/
theorem wellFormed_of_reads_deferred :
    let loader := Loader.ofMemory [("a", some "s k \x7b\n  @import nonfinal \"c\"\n\x7d")] []
    ∃ tree n, (parse true loader "@import \"a\"" none).result = .ok tree ∧ n ∈ tree.descendants ∧
      n.kind = .ref ∧ n.WellFormed ∧ (true = true → ∀ path type value, n = .ref path type value →
        ∃ paths file, Leads loader.library "@import \"a\"" paths file ∧ Defers file path) := by
  intro loader
  have hkinds : (parse true loader "@import \"a\"" none).result.map (·.descendants.map Node.kind) =
      .ok [.sect, .ref] := by decide +kernel
  cases hr : (parse true loader "@import \"a\"" none).result with
  | error fault =>
    rw [hr] at hkinds
    cases hkinds
  | ok tree =>
    rw [hr] at hkinds
    have hkinds : tree.descendants.map Node.kind = [.sect, .ref] := Except.ok.inj hkinds
    obtain ⟨n, hn, hk⟩ := List.mem_map.1 (hkinds ▸ List.mem_cons_of_mem _ List.mem_cons_self)
    obtain ⟨hwf, hdefers⟩ := wellFormed_of_reads (Library.reads_library_iff.2 rfl) hr n hn
    exact ⟨tree, n, rfl, hn, hk, hwf, hdefers⟩

end DefTree
