/-
Text between double quotes.

A property whose text stands in double quotes is read as that text wherever
its line stands, in a section or in none: what is between the quotes means
nothing to the scans of the sections around it, braces included. It is the
shape of the line that is told without regard to quotes: with an opening
brace in the text the line is the header of a section instead. In a section
header, an attribute whose value stands in double quotes has that text
without its braces.
-/
import DefTree.Proofs.RoundTrip

namespace DefTree

namespace Comment

theorem free_of_not_mem {cs : List Char} (h : '/' ∉ cs) : Free cs :=
  ⟨fun hp => h (hp.subset List.mem_cons_self), fun hp => h (hp.subset List.mem_cons_self)⟩

theorem Free.append_cons {cs ds : List Char} {c : Char} (hc : Free cs) (hd : Free ds) (hslash : c ≠ '/')
    (hstar : c ≠ '*') : Free (cs ++ c :: ds) := by
  have hpair : ∀ y, c ≠ y → ¬HasPair '/' y cs → ¬HasPair '/' y ds → ¬HasPair '/' y (cs ++ c :: ds) := by
    intro y hy hcs hds h
    rcases h.of_append with h | h | ⟨-, h⟩
    · exact hcs h
    · rcases hasPair_cons_iff.1 h with ⟨h, -⟩ | h
      · exact hslash h
      · exact hds h
    · exact hy (by simpa using h)
  exact ⟨hpair '/' hslash hc.line hd.line, hpair '*' hstar hc.block hd.block⟩

theorem free_unlines : ∀ {ls : List (List Char)}, (∀ l ∈ ls, Free l) → Free (Text.unlines ls)
  | [], _ => free_of_not_mem List.not_mem_nil
  | [l], h => h l List.mem_cons_self
  | l :: m :: ls, h => (h l List.mem_cons_self).append_cons
      (@free_unlines (m :: ls) fun x hx => h x (List.mem_cons_of_mem _ hx)) (by decide) (by decide)

end Comment

theorem sourceLines_unlines {ls : List (List Char)} (hne : ls ≠ []) (hline : ∀ l ∈ ls, '\n' ∉ l)
    (hfree : ∀ l ∈ ls, Comment.Free l) : sourceLines (String.ofList (Text.unlines ls)) = ls := by
  rw [sourceLines, String.toList_ofList, Comment.erase_of_free (Comment.free_unlines hfree),
    Text.lines_unlines hne hline]

/-! ## Sections around lines -/

/-- A line that is read as the header of a section with certain attributes. -/
structure SectHeader where
  line : String
  name : List Char
  raw : List Char
  attributes : Attributes
  read_line : Line.read (Text.trim line.toList) = .sect name raw
  read_raw : Attributes.read raw = .ok attributes
  newline_not_mem : '\n' ∉ line.toList
  free : Comment.Free line.toList

namespace SectHeader

/-- The scans of the sections around a header see one more brace open behind it, and nothing else. -/
structure Balanced (h : SectHeader) : Prop where
  passes : ({} : Scan).Passes h.line.toList
  opens : ({} : Scan).after h.line.toList = ({} : Scan).raise 1

/-- Lines inside sections, one in the other: the headers, the lines and a closing line for each header. -/
def around (hs : List SectHeader) (ls : List (List Char)) : List (List Char) :=
  hs.map (·.line.toList) ++ ls ++ List.replicate hs.length ['}']

/-- The sections that headers open, one in the other, around some nodes. -/
def nest : List SectHeader → List Node → List Node
  | [], ns => ns
  | h :: hs, ns => [.sectOf (String.ofList h.name) h.attributes (nest hs ns)]

variable {h : SectHeader} {hs : List SectHeader} {ls : List (List Char)}

theorem around_cons (h : SectHeader) (hs : List SectHeader) (ls : List (List Char)) :
    around (h :: hs) ls = h.line.toList :: (around hs ls ++ [['}']]) := by
  simp [around, List.replicate_succ']

theorem trim_ne_nil (h : SectHeader) : Text.trim h.line.toList ≠ [] := by
  intro he
  have hread := h.read_line
  rw [he] at hread
  cases hread

theorem neutral_around (hh : ∀ h ∈ hs, h.Balanced) (hls : Scan.Neutral ls.flatten) :
    Scan.Neutral (around hs ls).flatten := by
  induction hs with
  | nil => simpa [around] using hls
  | cons h hs ih =>
    have hb : h.Balanced := hh h List.mem_cons_self
    have hin : Scan.Neutral (around hs ls).flatten := ih fun x hx => hh x (List.mem_cons_of_mem _ hx)
    have hflat : (around (h :: hs) ls).flatten = h.line.toList ++ ((around hs ls).flatten ++ ['}']) := by
      rw [around_cons]
      simp
    rw [hflat]
    -- inside the header's brace the scan is the one of the lines themselves, one brace deeper
    refine ⟨?_, ?_⟩
    · rw [Scan.passes_append, Scan.passes_append, hb.opens, hin.raise_after]
      exact ⟨hb.passes, hin.passes.raise (by decide) 1, by decide⟩
    · rw [Scan.after_append, Scan.after_append, hb.opens, hin.raise_after]
      decide

/-- **Lines inside sections** are built as they are by themselves, further down, and stand in the innermost
section. -/
theorem buildLines_around {rule : ImportRule} (hb : ∀ h ∈ hs.tail, h.Balanced) (hneutral : Scan.Neutral ls.flatten)
    (before : Nat) : (buildLines rule before (around hs ls)).result =
      (buildLines rule (before + hs.length) ls).result.map (nest hs) := by
  induction hs generalizing before with
  | nil => cases h : (buildLines rule before ls).result <;> simp [around, nest, h, Except.map]
  | cons h hs ih =>
    have hsplit : Block.split? {} (around hs ls ++ [['}']]) = some (around hs ls, []) :=
      Block.split?_of_neutral (neutral_around hb hneutral) (by decide) []
    have hread : Front.read h.line.toList (around hs ls ++ [['}']]) =
        ⟨.sect h.name h.raw (around hs ls), (around hs ls).length + 2, []⟩ := by
      rw [Front.read_shape h.trim_ne_nil, h.read_line, Front.ofShape, hsplit]
    have hattributes : (buildAttributes h.raw).result = .ok h.attributes := by
      rw [buildAttributes, h.read_raw]
      rfl
    have hin := ih (fun x hx => hb x (List.mem_of_mem_tail hx)) (before + 1)
    rw [around_cons, buildLines_cons, hread, buildConstruct]
    rw [show before + 1 + hs.length = before + (h :: hs).length by rw [List.length_cons]; omega] at hin
    cases hls : (buildLines rule (before + (h :: hs).length) ls).result with
    | error fault =>
      refine Run.result_bind_of_error ?_
      rw [Run.result_bind_of_ok hattributes, Run.result_bind_of_ok rfl]
      exact Run.result_bind_of_error (hin.trans (by rw [hls]; rfl))
    | ok nodes =>
      have hchildren : (buildLines rule (before + 1) (around hs ls)).result = .ok (nest hs nodes) :=
        hin.trans (by rw [hls]; rfl)
      rw [Run.result_bind_of_ok (a := [.sectOf (String.ofList h.name) h.attributes (nest hs nodes)])]
      · simp [Except.map, nest]
      · rw [Run.result_bind_of_ok hattributes, Run.result_bind_of_ok rfl, Run.result_bind_of_ok hchildren]
        rfl

theorem forall_mem_around {P : List Char → Prop} (hh : ∀ h ∈ hs, P h.line.toList) (hls : ∀ l ∈ ls, P l)
    (hclose : P ['}']) : ∀ l ∈ around hs ls, P l := by
  intro l hl
  rw [around, List.append_assoc, List.mem_append, List.mem_append, List.mem_map] at hl
  rcases hl with ⟨h, hm, rfl⟩ | hl | hl
  · exact hh h hm
  · exact hls l hl
  · exact List.eq_of_mem_replicate hl ▸ hclose

end SectHeader

/-! ## Lines with a quoted text -/

namespace Line

variable {k : String} {v : List Char}

/-- A line that begins with a word and a colon, or with the colon itself, is no import. -/
theorem ref?_colon (hk : ∀ c ∈ k.toList, isWordChar c = true) (rest : List Char) :
    ref? (k.toList ++ ':' :: rest) = none := by
  by_cases he : k.toList = []
  · rw [he]
    rfl
  · exact ref?_word ⟨he, hk⟩ _

theorem func?_colon (hk : ∀ c ∈ k.toList, isWordChar c = true) (rest : List Char) :
    func? (k.toList ++ ':' :: rest) = none := by
  by_cases he : k.toList = []
  · rw [he]
    rfl
  · exact func?_word ⟨he, hk⟩ (by decide) (by decide) rest

theorem not_mem_word (hk : ∀ c ∈ k.toList, isWordChar c = true) {c : Char} (hc : isWordChar c = false) :
    c ∉ k.toList := fun hm => ne_of_isWordChar (hk c hm) hc rfl

/-- A quoted text without braces. -/
def unbraced (v : String) : String := String.ofList (Text.without isBrace v.toList)

theorem tight_quoted (hk : ∀ c ∈ k.toList, isWordChar c = true) (v : String) :
    Text.Tight (Layout.propLine k (.text v)) := by
  have hquote : Text.Tight (Layout.quote v) := .quoted v.toList
  by_cases he : k.toList = []
  · rw [Layout.propLine, he]
    have hcolon : Text.Tight [':'] := .of_forall (Text.isBlank_of_all (by decide))
    exact hcolon.append (by simp) hquote (List.cons_ne_nil _ _) [' ']
  · have := (tight_word ⟨he, hk⟩).append he hquote (List.cons_ne_nil _ _) [':', ' ']
    simpa [Layout.propLine, Layout.scalar] using this

theorem not_mem_unbraced {v : String} {c : Char} (hc : c ∉ v.toList) : c ∉ (unbraced v).toList := by
  rw [unbraced, String.toList_ofList]
  exact fun hm => hc ((Text.without_sublist isBrace v.toList).subset hm)

/-- A line with a word, a colon and no opening brace is a property. -/
theorem read_colon (hk : ∀ c ∈ k.toList, isWordChar c = true) {value : List Char} (hv : '{' ∉ value) :
    read (k.toList ++ ':' :: value) = .prop k.toList value := by
  have hbrace : (k.toList ++ ':' :: value).contains '{' = false := by
    simp [not_mem_word hk (c := '{') (by decide), hv]
  have htight : Text.trim k.toList = k.toList :=
    (Text.Tight.of_forall fun c hc => Text.isBlank_of_isWordChar (hk c hc)).trim_eq
  rw [read, ref?_colon hk, func?_colon hk, sect?, hbrace, prop?, cut?_append (not_mem_word hk (by decide))]
  simp [htight]

/-- With an opening brace in the text, it is the header of a section: the key and the colon are the name. -/
theorem read_quoted_brace (hk : ∀ c ∈ k.toList, isWordChar c = true) {v : String} (hv : '{' ∈ v.toList) :
    read (Layout.propLine k (.text v)) = .sect (k.toList ++ [':']) (Layout.quote (unbraced v)) := by
  have hline : k.toList ++ ':' :: ' ' :: Layout.quote v = (k.toList ++ [':']) ++ ' ' :: Layout.quote v := by simp
  have hbrace : (k.toList ++ ':' :: ' ' :: Layout.quote v).contains '{' = true := by simp [Layout.quote, hv]
  have hname : ∀ c ∈ k.toList ++ [':'], (c != ' ') = true := by
    intro c hc
    rw [List.mem_append, List.mem_singleton] at hc
    rcases hc with hc | rfl
    · exact bne_iff_ne.2 (ne_of_isWordChar (hk c hc) (by decide))
    · decide
  have htake : (k.toList ++ ':' :: ' ' :: Layout.quote v).takeWhile (· != ' ') = k.toList ++ [':'] := by
    rw [hline, List.takeWhile_append_of_pos hname]
    simp
  have hdrop : (k.toList ++ ':' :: ' ' :: Layout.quote v).dropWhile (· != ' ') = ' ' :: Layout.quote v := by
    rw [hline, List.dropWhile_append_of_pos hname]
    simp
  have hwithout : Text.without isBrace (' ' :: Layout.quote v) = [' '] ++ Layout.quote (unbraced v) := by
    simp [Text.without, Layout.quote, unbraced, isBrace]
  have htrim : Text.trim ([' '] ++ Layout.quote (unbraced v)) = Layout.quote (unbraced v) :=
    (Text.Tight.quoted _).trim_append (by decide)
  rw [read, Layout.propLine, ref?_colon hk, func?_colon hk, Layout.scalar, sect?, if_pos hbrace, htake, hdrop,
    hwithout, htrim]
  rfl

/-- The header of a section with one attribute, whose value stands in quotes. -/
def quotedHeader (s k v : String) : List Char :=
  s.toList ++ ' ' :: (Layout.propLine k (.text v) ++ [' ', '{'])

theorem tight_quotedHeader {s : String} (hs : IsWord s) (k v : String) : Text.Tight (quotedHeader s k v) := by
  have hbrace : Text.Tight ['{'] := .of_forall (Text.isBlank_of_all (by decide))
  have := (tight_word hs).append hs.1 hbrace (by simp) (' ' :: (Layout.propLine k (.text v) ++ [' ']))
  simpa [quotedHeader] using this

theorem read_quotedHeader {s : String} (hs : IsWord s) (hk : ∀ c ∈ k.toList, isWordChar c = true) (v : String) :
    read (quotedHeader s k v) = .sect s.toList (Layout.propLine k (.text (unbraced v))) := by
  have hbrace : (quotedHeader s k v).contains '{' = true := by simp [quotedHeader]
  have hname : ∀ c ∈ s.toList, (c != ' ') = true :=
    fun c hc => bne_iff_ne.2 (ne_of_isWordChar (hs.2 c hc) (by decide))
  have htake : (quotedHeader s k v).takeWhile (· != ' ') = s.toList := by
    rw [quotedHeader, List.takeWhile_append_of_pos hname]
    simp
  have hdrop : (quotedHeader s k v).dropWhile (· != ' ') = ' ' :: (Layout.propLine k (.text v) ++ [' ', '{']) := by
    rw [quotedHeader, List.dropWhile_append_of_pos hname]
    simp
  have hwithout : Text.without isBrace (' ' :: (Layout.propLine k (.text v) ++ [' ', '{'])) =
      [' '] ++ Layout.propLine k (.text (unbraced v)) ++ [' '] := by
    have hkey : ∀ c ∈ k.toList, ¬c = '{' ∧ ¬c = '}' := fun c hc =>
      ⟨ne_of_isWordChar (hk c hc) (by decide), ne_of_isWordChar (hk c hc) (by decide)⟩
    simpa [Text.without, Layout.propLine, Layout.scalar, Layout.quote, unbraced, isBrace] using hkey
  have htrim := (tight_quoted hk (unbraced v)).trim_around (show Text.allBlank [' '] = true by decide)
    (show Text.allBlank [' '] = true by decide)
  rw [read, sect?, if_pos hbrace, htake, hdrop, hwithout, htrim, quotedHeader, ref?_word hs,
    func?_word hs (by decide) (by decide)]
  rfl

end Line

namespace Attributes

theorem takeKey_colon {k : String} (hk : ∀ c ∈ k.toList, Line.isWordChar c = true) (rest : List Char) :
    takeKey (k.toList ++ ':' :: rest) = (k.toList, ':' :: rest) := by
  have hkey : ∀ c ∈ k.toList, isKeyChar c = true := by
    intro c hc
    have hcolon : c ≠ ':' := Line.ne_of_isWordChar (hk c hc) (by decide)
    simp [isKeyChar, Text.isBlank_of_isWordChar (hk c hc), hcolon]
  unfold takeKey
  split
  · next cs h =>
    cases he : k.toList with
    | nil =>
      rw [he] at h
      cases h
    | cons c cs' =>
      rw [he, List.cons_append, List.cons.injEq] at h
      exact absurd h.1 (Line.ne_of_isWordChar (hk c (he ▸ List.mem_cons_self)) (by decide))
  · rw [List.takeWhile_append_of_pos hkey, List.dropWhile_append_of_pos hkey]
    simp [isKeyChar]

theorem read_quote {v : String} (hv : '"' ∉ v.toList) :
    read (Layout.quote v) = .ok (empty.insert v (.boolean true)) := by
  have hitems : items (Layout.quote v) = [⟨v.toList, none⟩] := items_of_writes (.single (.flag (.quoted hv)))
  rw [read, hitems]
  simp only [ofItems, List.foldlM_cons, List.foldlM_nil, enter, String.ofList_toList]
  rfl

/-- **A word, a colon and a quoted text** are one attribute, read from the text as from a bare token. -/
theorem read_quoted {k v : String} (hk : ∀ c ∈ k.toList, Line.isWordChar c = true) (hv : '"' ∉ v.toList)
    (hn : Number.read? v.toList = .ok none) (hb : Scalar.boolean? v.toList = none) :
    read (Layout.propLine k (.text v)) = .ok (empty.insert k (.text v)) := by
  have hquote : Layout.quote v = '"' :: (v.toList ++ ['"']) := rfl
  have hvalue : takeValue (Layout.quote v) = (v.toList, []) := takeQuoted_append hv []
  have hcolon : Text.trimStart (':' :: ' ' :: Layout.quote v) = ':' :: ' ' :: Layout.quote v :=
    List.dropWhile_cons_of_neg (by decide)
  have hspace : Text.trimStart (' ' :: Layout.quote v) = Layout.quote v := by
    rw [hquote]
    rfl
  have hitem : takeItem (Layout.propLine k (.text v)) = (⟨k.toList, some v.toList⟩, []) := by
    simp only [takeItem, Layout.propLine, Layout.scalar, takeKey_colon hk, hcolon, hspace, hvalue]
  have hnil : items [] = [] := by rw [items_eq]; rfl
  rw [read, items_of_first (by simp [Layout.propLine]) (Line.tight_quoted hk v).first, hitem, hnil]
  simp only [ofItems, List.foldlM_cons, List.foldlM_nil, enter, Scalar.ofToken_text hn hb, String.ofList_toList]
  rfl

end Attributes

/-! ## Reading -/

namespace Layout

variable {k v : String}

theorem free_quoted (hk : ∀ c ∈ k.toList, Line.isWordChar c = true) (hv : Comment.Free v.toList) :
    Comment.Free (propLine k (.text v)) := by
  have hkey : Comment.Free (k.toList ++ [':', ' ']) :=
    Comment.free_of_not_mem (by simp [Line.not_mem_word hk (c := '/') (by decide)])
  have := (hkey.append_cons (c := '"') hv (by decide) (by decide)).append_cons (c := '"')
    (Comment.free_of_not_mem List.not_mem_nil) (by decide) (by decide)
  simpa [propLine, scalar, quote] using this

theorem newline_not_mem_quoted (hk : ∀ c ∈ k.toList, Line.isWordChar c = true) (hv : '\n' ∉ v.toList) :
    '\n' ∉ propLine k (.text v) := by
  simp [propLine, scalar, quote, hv, Line.not_mem_word hk (c := '\n') (by decide)]

theorem neutral_quoted (hk : ∀ c ∈ k.toList, Line.isWordChar c = true) (hv : Lacks v ['"', '\\', '\n']) :
    Scan.Neutral (propLine k (.text v)) := by
  have hkey : Scan.Neutral k.toList := .inert fun c hc => Scan.isInert_of_isWordChar (hk c hc)
  have := (hkey.append (.of_all (show [':', ' '].all Scan.isInert = true by decide))).append
    (neutral_quote hv (by decide) (by decide))
  simpa [propLine, scalar] using this

theorem propLine_ne_nil (k : String) (value : Scalar) : propLine k value ≠ [] := by simp [propLine]

/-- A quoted text without an opening brace is built to its property, wherever it stands. -/
theorem buildLines_quoted {rule : ImportRule} (hk : ∀ c ∈ k.toList, Line.isWordChar c = true)
    (hv : '{' ∉ v.toList) (before : Nat) :
    (buildLines rule before [propLine k (.text v)]).result = .ok [.propOf k (.text v)] := by
  have hread : Front.read (propLine k (.text v)) [] = ⟨.prop k.toList (' ' :: scalar (.text v)), 1, []⟩ := by
    have htrim := (Line.tight_quoted hk v).trim_eq
    have hline : Line.read (propLine k (.text v)) = .prop k.toList (' ' :: scalar (.text v)) :=
      Line.read_colon hk (by simpa [scalar, quote] using hv)
    rw [Front.read_shape (by rw [htrim]; exact propLine_ne_nil k _), htrim, hline, Front.ofShape]
  have hprintable : (Scalar.text v).Printable [] := (fun _ _ => List.not_mem_nil : Lacks v [])
  have hprop : (buildProp k.toList (' ' :: scalar (.text v))).result = .ok (.propOf k (.text v)) :=
    buildProp_scalar hprintable
  refine buildLines_single hread ?_
  rw [buildConstruct, Run.result_bind_of_ok hprop]
  rfl

/-- With an opening brace, it opens a section that nothing closes. -/
theorem buildLines_quoted_brace {rule : ImportRule} (hk : ∀ c ∈ k.toList, Line.isWordChar c = true)
    (hq : '"' ∉ v.toList) (hv : '{' ∈ v.toList) (before : Nat) :
    (buildLines rule before [propLine k (.text v)]).result =
      .error (.unclosedBlock (before + 1) (propLine k (.text v))) := by
  have hread : Front.read (propLine k (.text v)) [] =
      ⟨.openSect (quote (Line.unbraced v)) (propLine k (.text v)), 1, []⟩ := by
    have htrim := (Line.tight_quoted hk v).trim_eq
    rw [Front.read_shape (by rw [htrim]; exact propLine_ne_nil k _), htrim, Line.read_quoted_brace hk hv,
      Front.ofShape]
    rfl
  have hattributes : (buildAttributes (quote (Line.unbraced v))).result =
      .ok (Attributes.empty.insert (Line.unbraced v) (.boolean true)) := by
    rw [buildAttributes, Attributes.read_quote (Line.not_mem_unbraced hq)]
    rfl
  rw [buildLines_cons, hread, buildConstruct]
  refine Run.result_bind_of_error ?_
  rw [Run.result_bind_of_ok hattributes, Run.result_fail]

end Layout

namespace SectHeader

/-- The text of a line inside sections. -/
def text (hs : List SectHeader) (l : List Char) : String := String.ofList (Text.unlines (around hs [l]))

/-- The header of a section with one attribute, whose value stands in quotes. -/
def ofQuoted {s k v : String} (hs : IsWord s) (hk : ∀ c ∈ k.toList, Line.isWordChar c = true)
    (hv : Lacks v ['"', '\\', '\n']) (hfree : Comment.Free v.toList)
    (hn : Number.read? (Line.unbraced v).toList = .ok none)
    (hb : Scalar.boolean? (Line.unbraced v).toList = none) : SectHeader where
  line := String.ofList (Line.quotedHeader s k v)
  name := s.toList
  raw := Layout.propLine k (.text (Line.unbraced v))
  attributes := Attributes.empty.insert k (.text (Line.unbraced v))
  read_line := by
    rw [String.toList_ofList, (Line.tight_quotedHeader hs k v).trim_eq]
    exact Line.read_quotedHeader hs hk v
  read_raw := Attributes.read_quoted hk (Line.not_mem_unbraced (hv.not_mem (by decide))) hn hb
  newline_not_mem := by
    rw [String.toList_ofList]
    simp [Line.quotedHeader, Layout.newline_not_mem_word hs,
      Layout.newline_not_mem_quoted hk (hv.not_mem (show '\n' ∈ _ by decide))]
  free := by
    rw [String.toList_ofList]
    have hbrace : Comment.Free ['{'] := Comment.free_of_not_mem (by decide)
    have hline := (Layout.free_quoted hk hfree).append_cons (c := ' ') hbrace (by decide) (by decide)
    exact (Comment.free_of_not_mem (Line.not_mem_word hs.2 (by decide))).append_cons hline (by decide) (by decide)

/-- Braces between quotes do not count for the sections around the header. -/
theorem balanced_ofQuoted {s k v : String} (hs : IsWord s) (hk : ∀ c ∈ k.toList, Line.isWordChar c = true)
    (hv : Lacks v ['"', '\\', '\n']) (hfree : Comment.Free v.toList)
    (hn : Number.read? (Line.unbraced v).toList = .ok none)
    (hb : Scalar.boolean? (Line.unbraced v).toList = none) : (ofQuoted hs hk hv hfree hn hb).Balanced := by
  have hname : Scan.Neutral s.toList := .inert fun c hc => Scan.isInert_of_isWordChar (hs.2 c hc)
  have hin : Scan.Neutral (s.toList ++ [' '] ++ Layout.propLine k (.text v) ++ [' ']) :=
    ((hname.append (.of_all (by decide))).append (Layout.neutral_quoted hk hv)).append (.of_all (by decide))
  have hline : (ofQuoted hs hk hv hfree hn hb).line.toList =
      (s.toList ++ [' '] ++ Layout.propLine k (.text v) ++ [' ']) ++ ['{'] := by
    simp [ofQuoted, Line.quotedHeader]
  refine ⟨?_, ?_⟩
  · rw [hline, Scan.passes_append, hin.returns]
    exact ⟨hin.passes, by decide⟩
  · rw [hline, Scan.after_append, hin.returns]
    decide

theorem sourceLines_around {hs : List SectHeader} {ls : List (List Char)} (hne : hs ≠ [] ∨ ls ≠ [])
    (hline : ∀ l ∈ ls, '\n' ∉ l) (hfree : ∀ l ∈ ls, Comment.Free l) :
    sourceLines (String.ofList (Text.unlines (around hs ls))) = around hs ls := by
  refine sourceLines_unlines ?_ (forall_mem_around (fun h _ => h.newline_not_mem) hline (by decide))
    (forall_mem_around (fun h _ => h.free) hfree (Comment.free_of_not_mem (by decide)))
  rcases hne with hne | hne
  · simp [around, hne]
  · simp [around, hne]

theorem parse_around {expand : Bool} {loader : Loader} {source : Option String} {hs : List SectHeader}
    {ls : List (List Char)} (hne : hs ≠ [] ∨ ls ≠ []) (hb : ∀ h ∈ hs.tail, h.Balanced)
    (hneutral : Scan.Neutral ls.flatten) (hline : ∀ l ∈ ls, '\n' ∉ l) (hfree : ∀ l ∈ ls, Comment.Free l) :
    (parse expand loader (String.ofList (Text.unlines (around hs ls))) source).result =
      (buildLines (importRule expand loader (loader.origin source)) hs.length ls).result.map fun nodes =>
        .rootOf (nest hs nodes) := by
  rw [parse_result, buildText, sourceLines_around hne hline hfree, buildLines_around hb hneutral, Nat.zero_add]
  cases (buildLines (importRule expand loader (loader.origin source)) hs.length ls).result <;> rfl

end SectHeader

/-- **What stands between quotes is one text.** A line with a word, a colon and a text in double quotes is
read as the property with exactly that text, by itself or inside any sections, if the text has no opening
brace. With one, the line opens a section that nothing closes, by itself and inside any sections too. As an
attribute in a section header, the text counts without its braces. -/
theorem parse_quoted {expand : Bool} {loader : Loader} {source : Option String} {k v : String}
    (hk : ∀ c ∈ k.toList, Line.isWordChar c = true) (hv : Lacks v ['"', '\\', '\n'])
    (hfree : Comment.Free v.toList) :
    (∀ hs : List SectHeader, (∀ h ∈ hs.tail, h.Balanced) →
      (parse expand loader (SectHeader.text hs (Layout.propLine k (.text v))) source).result =
        if '{' ∈ v.toList then .error (.unclosedBlock (hs.length + 1) (Layout.propLine k (.text v)))
        else .ok (.rootOf (SectHeader.nest hs [.propOf k (.text v)]))) ∧
    ∀ s : String, IsWord s → Number.read? (Line.unbraced v).toList = .ok none →
      Scalar.boolean? (Line.unbraced v).toList = none →
      (parse expand loader (String.ofList (Text.unlines [Line.quotedHeader s k v, ['}']])) source).result =
        .ok (.rootOf [.sectOf s (Attributes.empty.insert k (.text (Line.unbraced v))) []]) := by
  refine ⟨fun hs hb => ?_, fun s hs hn hb => ?_⟩
  · have hline := Layout.newline_not_mem_quoted hk (hv.not_mem (show '\n' ∈ _ by decide))
    rw [SectHeader.text, SectHeader.parse_around (.inr (List.cons_ne_nil _ _)) hb
      (by simpa using Layout.neutral_quoted hk hv) (List.forall_mem_singleton.2 hline)
      (List.forall_mem_singleton.2 (Layout.free_quoted hk hfree))]
    split
    · next hbrace =>
      rw [Layout.buildLines_quoted_brace hk (hv.not_mem (by decide)) hbrace]
      rfl
    · next hbrace =>
      rw [Layout.buildLines_quoted hk hbrace]
      rfl
  · have hparse := @SectHeader.parse_around expand loader source [.ofQuoted hs hk hv hfree hn hb] [] (.inl (by simp))
      (by simp) .nil (by simp) (by simp)
    rw [buildLines_nil] at hparse
    simpa [SectHeader.around, SectHeader.nest, SectHeader.ofQuoted, Except.map] using hparse

/-- Two sections down, both with a closing brace between quotes in their headers. -/
theorem parse_quoted_nested :
    let header : SectHeader := .ofQuoted (s := "s") (k := "a") (v := "x\x7d") (by decide)
      (by decide : IsWord "a").2 (by decide) ⟨by decide, by decide⟩ (by decide +kernel) (by decide +kernel)
    (parse false (Loader.ofMemory [] []) (SectHeader.text [header, header] "k: \"a \x7d : b\"".toList) none).result =
      .ok (.rootOf (SectHeader.nest [header, header] [.propOf "k" (.text "a \x7d : b")])) := by
  intro header
  exact (parse_quoted (k := "k") (v := "a \x7d : b") (by decide : IsWord "k").2 (by decide) ⟨by decide, by decide⟩).1
    [header, header] (List.forall_mem_singleton.2 (SectHeader.balanced_ofQuoted ..))

/-- The shape of a line is told without regard to quotes. -/
theorem quoted_brace_header :
    ((∀ c ∈ "k".toList, Line.isWordChar c = true) ∧ Lacks "\x7b" ['"', '\\', '\n'] ∧ Comment.Free "\x7b".toList) ∧
    (parse false (Loader.ofMemory [] []) "k: \"\x7b\"" none).result ≠
      .ok (.rootOf [.propOf "k" (.text "\x7b")]) := by
  refine ⟨⟨(by decide : IsWord "k").2, by decide, by decide, by decide⟩, fun h => ?_⟩
  have hread : (parse false (Loader.ofMemory [] []) "k: \"\x7b\"" none).result.isOk = false := by decide +kernel
  rw [h] at hread
  cases hread

end DefTree
