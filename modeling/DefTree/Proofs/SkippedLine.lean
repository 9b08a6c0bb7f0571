/-
The line after a header of a function that has no brace.

The builder takes it for the line of the opening brace and skips it. It is
not looked at: with another line in its place the run is the very same, as
long as the scans of the sections around come through both lines alike
(`Visits.exists_exchange`). At the top there is no such scan, and the line
may be any; in sections it may say anything around its brace
(`ScansBehind.alike_brace`). What a section demands is a brace that is open
behind the line besides its own, if its scan is outside of quotes there
(`Visits.two_le_depth`): the scan of the function goes through the same
characters and closes one.
-/
import DefTree.Proofs.BlockOpener
import DefTree.Proofs.BracePlacement

namespace DefTree

/-! ## Sections around a line -/

theorem Front.height_of_sect {l name attributes : List Char} {ls block : List (List Char)}
    (hc : (read l ls).construct = .sect name attributes block) : (read l ls).height = block.length + 2 := by
  have h := reads l ls
  generalize read l ls = f at h hc
  cases h <;> cases hc
  rfl

theorem Visits.bounds {rule : ImportRule} {before before' : Nat} {ls ls' : List (List Char)}
    (h : Visits rule before ls before' ls') : before ≤ before' ∧ before' + ls'.length ≤ before + ls.length := by
  obtain ⟨front, back, rfl, rfl⟩ := h.infix
  simp only [List.length_append]
  omega

namespace ScansBehind

variable {before k : Nat} {l : List Char} {ls : List (List Char)} {s : Scan}

theorem lt (h : ScansBehind before ls k s) : before < k := by
  obtain ⟨b, l, rest, name, attributes, block, hv, -, hb, -⟩ := h
  have := hv.bounds
  omega

/-- A section around a line begins some lines, stands below their first construct, or stands in it. -/
theorem of_cons (h : ScansBehind before (l :: ls) k s) :
    ScansBehind (before + (Front.read l ls).height) (Front.read l ls).rest k s ∨
      ∃ name attributes block, (Front.read l ls).construct = .sect name attributes block ∧
        k ≤ before + block.length ∧
        (s = ({} : Scan).after (block.take (k - before)).flatten ∨ ScansBehind (before + 1) block k s) := by
  obtain ⟨b, l', rest, name, attributes, block, hv, hc, hb, hk, hs⟩ := h
  cases hv with
  | here => exact .inr ⟨name, attributes, block, hc, hk, .inl hs⟩
  | next _ hv => exact .inl ⟨b, l', rest, name, attributes, block, hv, hc, hb, hk, hs⟩
  | @into _ _ _ name' attributes' block' _ _ _ hc' _ hv =>
    have hbounds := hv.bounds
    have hlt := Block.length_body_lt (Front.split?_of_read_sect hc)
    rw [List.length_cons] at hbounds
    exact .inr ⟨name', attributes', block', hc', by omega,
      .inr ⟨b, l', rest, name, attributes, block, hv, hc, hb, hk, hs⟩⟩

end ScansBehind

/-- No section stands around a line at the top. -/
theorem Follows.not_scansBehind {before k : Nat} {ls here : List (List Char)} (h : Follows before ls k here)
    (s : Scan) : ¬ScansBehind before ls k s := by
  induction h with
  | here => exact fun hs => (Nat.lt_irrefl _) hs.lt
  | next hf ih =>
    intro hs
    rcases hs.of_cons with hs | ⟨name, attributes, block, hc, hk, -⟩
    · exact ih hs
    · have hheight := Front.height_of_sect hc
      obtain ⟨front, -, rfl⟩ := hf.suffix
      omega

/-! ## Another line -/

theorem Front.exists_skipped {header name : List Char} {arguments ls : List (List Char)}
    (hheader : Line.read (Text.trim header) = .func name arguments false)
    (hclosed : (read header ls).construct.isOpen = false) : ∃ l tail, ls = l :: tail := by
  cases ls with
  | cons l tail => exact ⟨l, tail, rfl⟩
  | nil =>
    rw [read_shape (Line.ne_nil_of_read hheader (by simp)), hheader] at hclosed
    cases hclosed

/-- The line after the header does not matter to the function. -/
theorem Front.read_skipped {header name l : List Char} {arguments ls : List (List Char)}
    (hheader : Line.read (Text.trim header) = .func name arguments false)
    (hclosed : (read header (l :: ls)).construct.isOpen = false) (l' : List Char) :
    read header (l' :: ls) = read header (l :: ls) := by
  have hne := Line.ne_nil_of_read hheader (by simp)
  have hdrop (x : List Char) : (x :: ls).drop (gap false) = ls := rfl
  simp only [read_shape hne, hheader, ofShape, hdrop] at hclosed ⊢
  cases hs : Block.split? {} ls with
  | none =>
    rw [hs] at hclosed
    cases hclosed
  | some p => rfl

/-- **Where building comes to a header without a brace** whose function is closed, the next line may be any other that
the scans of all sections around come through alike. -/
theorem Visits.exists_exchange {before k : Nat} {ls tail : List (List Char)} {header l name : List Char}
    {arguments : List (List Char)} (hheader : Line.read (Text.trim header) = .func name arguments false)
    (hclosed : (Front.read header (l :: tail)).construct.isOpen = false)
    (hv : Visits markImport before ls k (header :: l :: tail)) {l' : List Char}
    (halike : ∀ s, ScansBehind before ls k s → s.Passes l' ∧ s.after l' = s.after l) :
    ∃ front back, ls = front ++ header :: l :: back ∧ k = before + front.length ∧
      ∀ rule before', buildLines rule before' (front ++ header :: l' :: back) = buildLines rule before' ls := by
  generalize hhere : header :: l :: tail = here at hv
  induction hv with
  | here =>
    refine ⟨[], tail, hhere.symm, rfl, fun rule before' => ?_⟩
    rw [← hhere, List.nil_append, buildLines_cons, buildLines_cons, Front.read_skipped hheader hclosed]
  | @next before top ls nodes k here hc hv ih =>
    obtain ⟨front, back, hrest, hk, hsame⟩ := ih (fun s hs => halike s (.next hc hs)) hhere
    obtain ⟨inner, hinner, hread⟩ := Front.exists_read (isOpen_eq_false_of_ok hc)
    have hlen := Front.length_of_eq_append hinner
    refine ⟨top :: inner ++ front, back, ?_, ?_, fun rule before' => ?_⟩
    · rw [List.append_assoc, ← hrest, List.cons_append, ← hinner]
    · rw [hk, List.length_append, hlen, Nat.add_assoc]
    · rw [List.append_assoc, List.cons_append, buildLines_cons, buildLines_cons, hread, hsame]
  | @into before top ls sectName attributes block a k here hc ha hv ih =>
    obtain ⟨front, back, rfl, rfl, hsame⟩ := ih (fun s hs => halike s (.into hc ha hs)) hhere
    obtain ⟨hpasses', hafter⟩ := halike _ (.of_sect hc)
    have hl := Front.line_of_read_sect hc
    have hs := Front.split?_of_read_sect hc
    generalize (Front.read top ls).rest = rest at hs
    obtain ⟨close, rfl⟩ := Block.eq_of_split? hs
    have hinner (x : List Char) : front ++ header :: x :: back = (front ++ [header]) ++ ([x] ++ back) := by simp
    have hs' : Block.split? {} (front ++ header :: l' :: back ++ close :: rest) =
        some (front ++ header :: l' :: back, rest) := by
      rw [hinner] at hs ⊢
      exact Block.split?_exchange hs (fun _ _ => by simpa using hpasses') fun _ => by simpa using hafter
    refine ⟨top :: front, back ++ close :: rest, by simp, ?_, fun rule before' => ?_⟩
    · rw [List.length_cons]
      omega
    · have hlines : top :: front ++ header :: l' :: (back ++ close :: rest) =
          top :: (front ++ header :: l' :: back ++ close :: rest) := by simp
      rw [hlines, buildLines_cons, buildLines_cons, Front.read_of_sect hl hs, Front.read_of_sect hl hs']
      simp [buildConstruct, hsame]

/-! ## A brace that is open -/

theorem Block.split?_eq_none_of_passes {s : Scan} {ls : List (List Char)} (hs : s.depth ≠ 0)
    (h : s.Passes ls.flatten) : split? s ls = none := by
  have hsplit := split?_of_passes hs h []
  rwa [List.append_nil] at hsplit

/-- A scan that goes through lines in which a block is closed has a brace open for that block. -/
theorem Scan.two_le_depth {s : Scan} (hq : s.quoted = false) (he : s.escaped = false) (hd : 0 < s.depth)
    {ls : List (List Char)} (h : s.Passes ls.flatten) (hclosed : Block.split? {} ls ≠ none) : 2 ≤ s.depth := by
  by_contra hdepth
  have hfirst : s = {} := by
    rw [eq_raise hq he hd, show (s.depth - 1).toNat = 0 by omega]
    rfl
  exact hclosed (Block.split?_eq_none_of_passes (by decide) (hfirst ▸ h))

theorem Front.split?_ne_none_of_closed {header name l : List Char} {arguments ls : List (List Char)}
    (hheader : Line.read (Text.trim header) = .func name arguments false)
    (hclosed : (read header (l :: ls)).construct.isOpen = false) : Block.split? {} ls ≠ none := by
  intro hs
  have hdrop : (l :: ls).drop (gap false) = ls := rfl
  rw [read_shape (Line.ne_nil_of_read hheader (by simp)), hheader, ofShape, hdrop, hs] at hclosed
  cases hclosed

/-- **A section around a skipped line** whose scan is outside of quotes behind it has a brace open there besides its
own, if the function is closed. -/
theorem Visits.two_le_depth {before k : Nat} {ls tail : List (List Char)} {header l name : List Char}
    {arguments : List (List Char)} (hheader : Line.read (Text.trim header) = .func name arguments false)
    (hclosed : (Front.read header (l :: tail)).construct.isOpen = false)
    (hv : Visits markImport before ls k (header :: l :: tail)) {s : Scan} (hs : ScansBehind before ls (k + 1) s)
    (hq : s.quoted = false) (he : s.escaped = false) : 2 ≤ s.depth := by
  have hd := hs.depth_pos
  generalize hhere : header :: l :: tail = here at hv
  induction hv with
  | here =>
    rw [← hhere] at hs
    rcases hs.of_cons with h | ⟨sectName, attributes, block, hc, -⟩
    · have hlt := h.lt
      have hheight := (Front.height_add_length_rest header (l :: tail)).1
      omega
    · have hsect := Front.line_of_read_sect hc
      rw [hheader] at hsect
      cases hsect
  | next hc hv ih =>
    rcases hs.of_cons with h | ⟨sectName, attributes, block, hc, hk, -⟩
    · exact ih h hhere
    · have hheight := Front.height_of_sect hc
      have hbounds := hv.bounds
      omega
  | @into before top ls sectName attributes block a k here hc ha hv ih =>
    obtain ⟨front, back, hblock, hk⟩ := hv.infix
    rcases hs.of_cons with h | ⟨_, _, _, hc', -, hs⟩
    · have hlt := h.lt
      have hheight := Front.height_of_sect hc
      have hbounds := hv.bounds
      rw [← hhere, List.length_cons, List.length_cons] at hbounds
      omega
    · rw [hc, Construct.sect.injEq] at hc'
      obtain ⟨-, -, rfl⟩ := hc'
      rcases hs with hs | hs
      · have hpasses := Block.passes_of_split? (Front.split?_of_read_sect hc)
        have hsplit : block = (front ++ [header, l]) ++ (tail ++ back) := by simp [hblock, ← hhere]
        have htake : block.take (k + 1 - before) = front ++ [header, l] := by
          rw [hsplit]
          exact List.take_left' (by simp; omega)
        rw [htake] at hs
        rw [hsplit, List.flatten_append, Scan.passes_append, ← hs] at hpasses
        obtain ⟨-, hpasses⟩ := hpasses
        rw [List.flatten_append, Scan.passes_append] at hpasses
        exact Scan.two_le_depth hq he hd hpasses.1 (Front.split?_ne_none_of_closed hheader hclosed)
      · exact ih hs hhere

/-! ## A line around a brace -/

namespace Line

/-- The header of a function without a brace ends in a parenthesis, but for blanks. -/
theorem exists_of_closesHeader {cs : List Char} (h : closesHeader cs = true) (hbrace : '{' ∉ cs) :
    ∃ inner blanks, cs = inner ++ ')' :: blanks ∧ Text.allBlank blanks = true := by
  have hlast : cs.getLast? ≠ some '{' := fun h => hbrace (List.mem_of_getLast? h)
  simp only [closesHeader, hlast, if_false, Bool.and_eq_true, decide_eq_true_eq] at h
  obtain ⟨inner, hinner⟩ := List.getLast?_eq_some_iff.1 h.1
  refine ⟨inner, (cs.reverse.takeWhile Text.isBlank).reverse, ?_, ?_⟩
  · rw [List.append_cons, ← hinner, Text.trimEnd, ← List.reverse_append, List.takeWhile_append_dropWhile,
      List.reverse_reverse]
  · rw [Text.allBlank, List.all_reverse]
    exact List.all_takeWhile

theorem exists_of_read_func {l name : List Char} {arguments : List (List Char)}
    (h : read (Text.trim l) = .func name arguments false) :
    ∃ inner blanks, l = inner ++ ')' :: blanks ∧ Text.allBlank blanks = true := by
  have hbrace : '{' ∉ Text.trim l := by simpa using (opened_of_read h).symm
  cases shape_of_read h with
  | func _ hf =>
    unfold func? at hf
    simp only at hf
    split at hf
    · next rest hrest =>
      split at hf
      · next hcloses =>
        rw [Bool.and_eq_true] at hcloses
        have hname := List.takeWhile_append_dropWhile (p := isWordChar) (l := Text.trim l)
        rw [hrest] at hname
        have hbrace' : '{' ∉ rest := fun h => hbrace (hname ▸ by simp [h])
        obtain ⟨inner, blanks, rfl, hblanks⟩ := exists_of_closesHeader hcloses.2 hbrace'
        have hl := Text.margin_trim_tail l
        refine ⟨l.takeWhile Text.isBlank ++ ((Text.trim l).takeWhile isWordChar ++ '(' :: inner),
          blanks ++ Text.tail l, ?_, ?_⟩
        · conv_lhs => rw [← hl, ← hname]
          simp
        · rw [Text.allBlank, List.all_append, Bool.and_eq_true]
          exact ⟨hblanks, Text.allBlank_tail l⟩
      · cases hf
    · cases hf

end Line

namespace Scan

variable {s : Scan}

theorem after_inert {cs : List Char} (h : cs.all isInert = true) (he : s.escaped = false) : s.after cs = s := by
  induction cs with
  | nil => rfl
  | cons c cs ih =>
    rw [List.all_cons, Bool.and_eq_true] at h
    rw [after_cons, feed_inert he h.1, ih h.2]

theorem passes_inert {cs : List Char} (h : cs.all isInert = true) (he : s.escaped = false) (hd : s.depth ≠ 0) :
    s.Passes cs := by
  induction cs with
  | nil => exact passes_nil s
  | cons c cs ih =>
    rw [List.all_cons, Bool.and_eq_true] at h
    rw [passes_cons, feed_inert he h.1]
    exact ⟨hd, ih h.2⟩

/-- What stands around a brace means nothing to a scan, in quotes or outside. -/
theorem alike_brace {front back : List Char} (hfront : front.all isInert = true) (hback : back.all isInert = true)
    (he : s.escaped = false) (hd : 0 < s.depth) :
    s.Passes (front ++ '{' :: back) ∧ s.after (front ++ '{' :: back) = s.after ['{'] := by
  have he' : (s.feed '{').escaped = false := by
    rw [escaped_feed]
    simp
  have hd' : (s.feed '{').depth ≠ 0 := by
    have := s.depth_le_feed_brace
    omega
  constructor
  · rw [passes_append, passes_cons, after_inert hfront he]
    exact ⟨passes_inert hfront he (by omega), hd', passes_inert hback he' hd'⟩
  · rw [after_append, after_cons, after_inert hfront he, after_inert hback he', after_cons, after_nil]

end Scan

namespace ScansBehind

variable {before k : Nat} {header : List Char} {ls rest : List (List Char)} {s : Scan}

theorem exists_after (h : ScansBehind before ls k s) (hl : ls[k - before]? = some header) :
    ∃ t : Scan, s = t.after header := by
  obtain ⟨b, l, rest, name, attributes, block, hv, hc, hb, hk, rfl⟩ := h
  obtain ⟨front, back, rfl, rfl⟩ := hv.infix
  obtain ⟨close, hrest⟩ := Block.eq_of_split? (Front.split?_of_read_sect hc)
  generalize (Front.read l rest).rest = below at hrest
  subst hrest
  obtain ⟨i, rfl⟩ : ∃ i, k = before + front.length + 1 + i := ⟨k - (before + front.length + 1), by omega⟩
  have hindex : before + front.length + 1 + i - before = front.length + (i + 1) := by omega
  have hi : i < block.length := by omega
  rw [hindex, List.append_assoc, List.getElem?_append_right (by omega), Nat.add_sub_cancel_left, List.cons_append,
    List.getElem?_cons_succ, List.append_assoc, List.getElem?_append_left hi] at hl
  refine ⟨({} : Scan).after (block.take i).flatten, ?_⟩
  rw [show before + front.length + 1 + i - (before + front.length) = i + 1 by omega, List.take_add_one, hl]
  simp

/-- **Behind a header without a brace** the scans of all sections around come through a brace and through any text
around it alike. -/
theorem alike_brace {name : List Char} {arguments : List (List Char)}
    (hheader : Line.read (Text.trim header) = .func name arguments false)
    (hv : Visits markImport 0 ls k (header :: rest)) {front back : List Char}
    (hfront : front.all Scan.isInert = true) (hback : back.all Scan.isInert = true) (h : ScansBehind 0 ls k s) :
    s.Passes (front ++ '{' :: back) ∧ s.after (front ++ '{' :: back) = s.after ['{'] := by
  obtain ⟨inner, blanks, rfl, hblanks⟩ := Line.exists_of_read_func hheader
  have hd := h.depth_pos
  obtain ⟨t, rfl⟩ := h.exists_after hv.getElem?
  exact Scan.alike_brace hfront hback (Scan.escaped_after_parenthesis inner hblanks) hd

end ScansBehind

/-! ## Reading -/

/-- What building comes to can be built if all lines can. -/
theorem Visits.exists_ok {rule : ImportRule} {before k : Nat} {ls rest : List (List Char)} {l : List Char}
    (hv : Visits markImport before ls k (l :: rest)) {nodes : List Node}
    (h : (buildLines rule before ls).result = .ok nodes) :
    ∃ nodes', (buildConstruct rule k (Front.read l rest).construct).result = .ok nodes' := by
  generalize hhere : l :: rest = here at hv
  induction hv generalizing nodes with
  | here =>
    rw [← hhere, buildLines_cons] at h
    obtain ⟨nodes', hc, -⟩ := Run.bind_ok_iff.1 h
    exact ⟨nodes', hc⟩
  | next _ _ ih =>
    rw [buildLines_cons] at h
    obtain ⟨_, -, h⟩ := Run.bind_ok_iff.1 h
    obtain ⟨_, hrest, -⟩ := Run.bind_ok_iff.1 h
    exact ih hrest hhere
  | into hc _ _ ih =>
    rw [buildLines_cons, hc] at h
    obtain ⟨_, hsect, -⟩ := Run.bind_ok_iff.1 h
    obtain ⟨_, -, hsect⟩ := Run.bind_ok_iff.1 hsect
    rw [Run.result_bind_of_ok rfl] at hsect
    obtain ⟨_, hblock, -⟩ := Run.bind_ok_iff.1 hsect
    exact ih hblock hhere

theorem parse_congr_lines {expand : Bool} {loader : Loader} {source : Option String} {a b : String}
    (h : ∀ rule, buildLines rule 0 (sourceLines a) = buildLines rule 0 (sourceLines b)) :
    parse expand loader a source = parse expand loader b source := by
  simp only [parse, buildText, h]

/-- A text with another line after such a header is read alike, if the scans of the sections around are. -/
theorem Library.Reads.exchange_line {library : Library} {expand : Bool} {text : String} {source : Option String}
    {header l name : List Char} {arguments tail : List (List Char)} {k : Nat} {run : Run Node}
    (hrun : library.Reads expand text source run) (hbare : Comment.Bare text.toList)
    (hreach : Visits markImport 0 (Text.lines text.toList) k (header :: l :: tail))
    (hheader : Line.read (Text.trim header) = .func name arguments false)
    (hclosed : (Front.read header (l :: tail)).construct.isOpen = false) {l' : List Char} (hline : '\n' ∉ l')
    (halike : ∀ s, ScansBehind 0 (Text.lines text.toList) k s → s.Passes l' ∧ s.after l' = s.after l)
    (hbare' : Comment.Bare (Text.unlines ((Text.lines text.toList).set (k + 1) l'))) :
    library.Reads expand (String.ofList (Text.unlines ((Text.lines text.toList).set (k + 1) l'))) source run := by
  obtain ⟨loader, hkey, hload, rfl⟩ := hrun
  have hsource : sourceLines text = Text.lines text.toList := by rw [sourceLines, hbare.erase_eq]
  obtain ⟨front, back, hlines, hk, hsame⟩ := hreach.exists_exchange hheader hclosed halike
  have hset : (Text.lines text.toList).set (k + 1) l' = front ++ header :: l' :: back := by
    rw [hlines, hk]
    simp
  have hline' : ∀ x ∈ (Text.lines text.toList).set (k + 1) l', '\n' ∉ x := fun x hx => by
    rcases List.mem_or_eq_of_mem_set hx with hx | rfl
    · exact Text.newline_not_mem_of_mem_lines hx
    · exact hline
  have hsource' : sourceLines (String.ofList (Text.unlines ((Text.lines text.toList).set (k + 1) l'))) =
      front ++ header :: l' :: back := by
    rw [sourceLines, String.toList_ofList, hbare'.erase_eq, Text.lines_unlines (by simp [hset]) hline', hset]
  have hparse : parse expand loader (String.ofList (Text.unlines ((Text.lines text.toList).set (k + 1) l'))) source =
      parse expand loader text source := parse_congr_lines fun rule => by rw [hsource', hsource, hsame]
  exact ⟨loader, hkey, hload, hparse⟩

/-- **The line after a header without a brace is not read.** Let a text without comments be read, and let building
come to the header of a function that has no brace, at the top or in any sections. Then a line follows it, and with
any other line in its place that the scans of all sections around come through alike, and that makes no comment, the
run is the very same. At the top this is any line; in a section whose scan is outside of quotes behind the line, the
line leaves a brace open besides that of the section. -/
theorem reads_skipped_line {library : Library} {expand : Bool} {text : String} {source : Option String}
    {header name : List Char} {arguments rest : List (List Char)} {k : Nat} {run : Run Node} {tree : Node}
    (hbare : Comment.Bare text.toList) (hreach : Visits markImport 0 (Text.lines text.toList) k (header :: rest))
    (hheader : Line.read (Text.trim header) = .func name arguments false)
    (hrun : library.Reads expand text source run) (hok : run.result = .ok tree) :
    ∃ l tail, rest = l :: tail ∧
      (∀ l' : List Char, '\n' ∉ l' →
        (∀ s, ScansBehind 0 (Text.lines text.toList) k s → s.Passes l' ∧ s.after l' = s.after l) →
        Comment.Bare (Text.unlines ((Text.lines text.toList).set (k + 1) l')) →
        library.Reads expand (String.ofList (Text.unlines ((Text.lines text.toList).set (k + 1) l'))) source run) ∧
      (Follows 0 (Text.lines text.toList) k (header :: rest) → ∀ l' : List Char, '\n' ∉ l' →
        Comment.Bare (Text.unlines ((Text.lines text.toList).set (k + 1) l')) →
        library.Reads expand (String.ofList (Text.unlines ((Text.lines text.toList).set (k + 1) l'))) source run) ∧
      ∀ s, ScansBehind 0 (Text.lines text.toList) (k + 1) s → s.quoted = false → s.escaped = false → 2 ≤ s.depth := by
  have hclosed : (Front.read header rest).construct.isOpen = false := by
    obtain ⟨loader, -, -, rfl⟩ := hrun
    obtain ⟨nodes, hnodes, -⟩ := parse_ok_iff.1 hok
    rw [buildText, sourceLines, hbare.erase_eq] at hnodes
    obtain ⟨nodes', hc⟩ := hreach.exists_ok hnodes
    exact isOpen_eq_false_of_ok hc
  obtain ⟨l, tail, rfl⟩ := Front.exists_skipped hheader hclosed
  refine ⟨l, tail, rfl, fun l' hline halike => ?_, fun htop l' hline => ?_, fun s => hreach.two_le_depth hheader hclosed⟩
  · exact hrun.exchange_line hbare hreach hheader hclosed hline halike
  · exact hrun.exchange_line hbare hreach hheader hclosed hline fun s hs => absurd hs (htop.not_scansBehind s)

/-- In a section, below an import: a property takes the place of the brace, and is lost. -/
theorem reads_skipped_line_nested :
    let text := "@import a\ns \x7b\nf(x)\n\x7b\n  return x\n\x7d\n\x7d"
    let loader := Loader.ofMemory [("a", some "v: 2")] []
    (∃ tree, (parse true loader text none).result = .ok tree) ∧
      parse true loader "@import a\ns \x7b\nf(x)\nk: 1 \x7b\n  return x\n\x7d\n\x7d" none =
        parse true loader text none := by
  intro text loader
  obtain ⟨tree, hok⟩ := Run.exists_ok_of_isOk (r := parse true loader text none) (by decide +kernel)
  refine ⟨⟨tree, hok⟩, ?_⟩
  have hfree : Comment.Free text.toList := ⟨by decide +kernel, by decide +kernel⟩
  let inner := ["f(x)".toList, "\x7b".toList, "  return x".toList, "\x7d".toList]
  let below := "s \x7b".toList :: (inner ++ ["\x7d".toList])
  have hlines : Text.lines text.toList = "@import a".toList :: below := by decide +kernel
  have himport : Front.read "@import a".toList below = ⟨.ref ['a'] false, 1, below⟩ := by decide +kernel
  have hsect : (Front.read "s \x7b".toList (inner ++ ["\x7d".toList])).construct = .sect ['s'] [] inner := by
    decide +kernel
  obtain ⟨a, ha⟩ := Run.exists_ok_of_isOk (r := buildAttributes []) (by decide +kernel)
  have hmark : (buildConstruct markImport 0 (Front.read "@import a".toList below).construct).result =
      .ok [.ref "a" Node.pendingType "a"] := by
    rw [himport]
    rfl
  have hbelow : Visits markImport (0 + (Front.read "@import a".toList below).height)
      (Front.read "@import a".toList below).rest 2 inner := by
    rw [himport]
    exact .into hsect ha .here
  have hreach : Visits markImport 0 (Text.lines text.toList) 2 inner := by
    rw [hlines]
    exact .next hmark hbelow
  have hheader : Line.read (Text.trim "f(x)".toList) = .func ['f'] [['x']] false := by decide +kernel
  have hrun : loader.library.Reads true text none _ := Library.reads_library_iff.2 rfl
  obtain ⟨l, tail, hrest, hsame, -⟩ := reads_skipped_line hfree.bare hreach hheader hrun hok
  obtain ⟨rfl, -⟩ := List.cons.inj hrest
  have hfree' : Comment.Free (Text.unlines ((Text.lines text.toList).set 3 "k: 1 \x7b".toList)) :=
    ⟨by decide +kernel, by decide +kernel⟩
  have halike (s : Scan) (hs : ScansBehind 0 (Text.lines text.toList) 2 s) :
      s.Passes ("k: 1 ".toList ++ '{' :: []) ∧ s.after ("k: 1 ".toList ++ '{' :: []) = s.after ['{'] :=
    hs.alike_brace hheader hreach (by decide) (by decide)
  have htext : "@import a\ns \x7b\nf(x)\nk: 1 \x7b\n  return x\n\x7d\n\x7d" =
      String.ofList (Text.unlines ((Text.lines text.toList).set 3 "k: 1 \x7b".toList)) := by decide +kernel
  have hrun' := hsame "k: 1 \x7b".toList (by decide) halike hfree'.bare
  rw [htext]
  exact (Library.reads_library_iff.1 hrun').symm

/-- At the top any line is lost. -/
theorem skipped_line_lost :
    let text := "f()\noops\n\x7d"
    let ls := ["f()".toList, "oops".toList, "\x7d".toList]
    Comment.Free text.toList ∧ Text.lines text.toList = ls ∧
      (∃ tree, (parse false (Loader.ofMemory [] []) text none).result = .ok tree) ∧ Visits markImport 0 ls 0 ls ∧
      Line.read (Text.trim "f()".toList) = .func ['f'] [] false ∧ Text.trim "oops".toList ≠ ['{'] :=
  ⟨⟨by decide +kernel, by decide +kernel⟩, by decide +kernel, Run.exists_ok_of_isOk (by decide +kernel), .here,
    by decide +kernel, by decide +kernel⟩

end DefTree
