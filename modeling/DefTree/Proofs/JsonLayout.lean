/-
JSON texts in different layouts.

The text of a value in any layout is its text on one line with spaces and
line feeds put between the tokens: `Spread` says so without looking at the
value. Outside of its strings the text on one line has neither, so leaving
them out of the other text gives it back (`squeeze_render`), and both texts
are read alike (`read?_render_eq`), even where an integer is too long to be
read at all.
-/
import DefTree.Proofs.Dump

namespace DefTree.Json

/-! ## Spaces outside of strings -/

/-- Where a character of a text stands: outside of all strings, in a string, or behind a backslash
in a string. -/
inductive Spot where
  | outside | quoted | escaped
  deriving DecidableEq, Repr

/-- Where the character after a given one stands. -/
def Spot.next : Spot → Char → Spot
  | .outside, c => if c = '"' then .quoted else .outside
  | .quoted, c => if c = '"' then .outside else if c = '\\' then .escaped else .quoted
  | .escaped, _ => .quoted

/-- A space or a line feed. -/
def isGap (c : Char) : Bool := c == ' ' || c == '\n'

/-- A text whose first character stands at a spot, without the spaces and line feeds that stand
outside of strings. -/
def squeezeFrom (s : Spot) : List Char → List Char
  | [] => []
  | c :: cs => if s = .outside ∧ isGap c = true then squeezeFrom s cs else c :: squeezeFrom (s.next c) cs

/-- A text without the spaces and line feeds that stand outside of strings. -/
def squeeze (s : String) : String := String.ofList (squeezeFrom .outside s.toList)

theorem squeezeFrom_gap {c : Char} (h : isGap c = true) (cs : List Char) :
    squeezeFrom .outside (c :: cs) = squeezeFrom .outside cs := by
  rw [squeezeFrom, if_pos ⟨rfl, h⟩]

theorem squeezeFrom_append {w : List Char} (h : ∀ c ∈ w, isGap c = false ∧ c ≠ '"') (cs : List Char) :
    squeezeFrom .outside (w ++ cs) = w ++ squeezeFrom .outside cs := by
  induction w with
  | nil => rfl
  | cons c w ih =>
    obtain ⟨⟨hgap, hquote⟩, hw⟩ := List.forall_mem_cons.1 h
    rw [List.cons_append, squeezeFrom, if_neg (by simp [hgap]), Spot.next, if_neg hquote, ih hw, List.cons_append]

/-- In a string, what is neither a quote nor a backslash stays, and so does the string. -/
theorem squeezeFrom_quoted {w : List Char} (h : ∀ c ∈ w, c ≠ '"' ∧ c ≠ '\\') (cs : List Char) :
    squeezeFrom .quoted (w ++ cs) = w ++ squeezeFrom .quoted cs := by
  induction w with
  | nil => rfl
  | cons c w ih =>
    obtain ⟨⟨hquote, hslash⟩, hw⟩ := List.forall_mem_cons.1 h
    rw [List.cons_append, squeezeFrom, if_neg (by simp), Spot.next, if_neg hquote, if_neg hslash, ih hw,
      List.cons_append]

/-- An escape is a backslash with what belongs to it, in which no quote ends the string. -/
theorem escape_cases (c : Char) : (escape c = [c] ∧ c ≠ '"' ∧ c ≠ '\\') ∨
    ∃ d w, escape c = '\\' :: d :: w ∧ ∀ e ∈ w, e ≠ '"' ∧ e ≠ '\\' := by
  have hhex : ∀ n < 0x20, (Numeral.hex 4 n).all (fun e => e != '"' && e != '\\') = true := by decide
  unfold escape
  split
  · exact .inr ⟨_, [], rfl, by simp⟩
  next hquote =>
  split
  · exact .inr ⟨_, [], rfl, by simp⟩
  next hslash =>
  iterate 5
    split
    · exact .inr ⟨_, [], rfl, by simp⟩
  split
  · next hc =>
    refine .inr ⟨'u', _, rfl, fun e he => ?_⟩
    simpa using List.all_eq_true.1 (hhex _ hc) e he
  · exact .inl ⟨rfl, hquote, hslash⟩

theorem squeezeFrom_string (s : String) (cs : List Char) :
    squeezeFrom .outside (renderString s ++ cs) = renderString s ++ squeezeFrom .outside cs := by
  have hinner (w : List Char) : squeezeFrom .quoted (w.flatMap escape ++ '"' :: cs) =
      w.flatMap escape ++ '"' :: squeezeFrom .outside cs := by
    induction w with
    | nil => rfl
    | cons c w ih =>
      rw [List.flatMap_cons, List.append_assoc, List.append_assoc, ← ih]
      rcases escape_cases c with ⟨h, hquote, hslash⟩ | ⟨d, v, h, hv⟩
      · rw [h]
        exact squeezeFrom_quoted (List.forall_mem_singleton.2 ⟨hquote, hslash⟩) _
      · rw [h, List.cons_append, List.cons_append, List.cons_append, List.cons_append, ← squeezeFrom_quoted hv]
        rfl
  simpa [renderString, squeezeFrom, Spot.next, isGap] using hinner s.toList

/-! ## Tokens with spaces between them -/

/-- The first text is the second with spaces and line feeds between its tokens. -/
inductive Spread : List Char → List Char → Prop where
  | nil : Spread [] []
  | gap {c : Char} {cs ds : List Char} (h : isGap c = true) : Spread cs ds → Spread (c :: cs) ds
  | mark {c : Char} {t : Token} {cs ds : List Char} (h : Token.mark? c = some t) :
      Spread cs ds → Spread (c :: cs) (c :: ds)
  | string (s : String) {cs ds : List Char} : Spread cs ds → Spread (renderString s ++ cs) (renderString s ++ ds)
  | word {w cs ds : List Char} (hne : w ≠ []) (h : w.all Token.isWordChar = true) (hcs : Token.Ends cs)
      (hds : Token.Ends ds) : Spread cs ds → Spread (w ++ cs) (w ++ ds)

theorem of_mark? {c : Char} {t : Token} (h : Token.mark? c = some t) :
    Token.isSpace c = false ∧ isGap c = false ∧ c ≠ '"' := by
  have hne {d : Char} (hd : Token.mark? d = none) : c ≠ d := by
    rintro rfl
    rw [hd] at h
    cases h
  have hspace := hne (show Token.mark? ' ' = none by decide)
  have htab := hne (show Token.mark? '\t' = none by decide)
  have hfeed := hne (show Token.mark? '\n' = none by decide)
  have hreturn := hne (show Token.mark? '\r' = none by decide)
  exact ⟨by simp [Token.isSpace, hspace, htab, hfeed, hreturn], by simp [isGap, hspace, hfeed],
    hne (by decide)⟩

theorem isSpace_of_isGap {c : Char} (h : isGap c = true) : Token.isSpace c = true := by
  rcases Bool.or_eq_true_iff.1 h with h | h
  · rw [eq_of_beq h]
    decide
  · rw [eq_of_beq h]
    decide

namespace Spread

variable {cs ds : List Char}

/-- Leaving the spaces out again gives the text without them. -/
theorem squeezeFrom_eq (h : Spread cs ds) : squeezeFrom .outside cs = ds := by
  induction h with
  | nil => rfl
  | gap h _ ih => rw [squeezeFrom_gap h, ih]
  | @mark c t cs ds h _ ih =>
    obtain ⟨-, hgap, hquote⟩ := of_mark? h
    exact (squeezeFrom_append (w := [c]) (List.forall_mem_singleton.2 ⟨hgap, hquote⟩) cs).trans (by rw [ih]; rfl)
  | string s _ ih => rw [squeezeFrom_string, ih]
  | @word w cs ds _ h _ _ _ ih =>
    rw [squeezeFrom_append (fun c hc => ?_), ih]
    obtain ⟨hspace, -, hquote⟩ := Token.of_isWordChar (List.all_eq_true.1 h c hc)
    exact ⟨Bool.eq_false_iff.2 fun hgap => by simp [isSpace_of_isGap hgap] at hspace, hquote⟩

theorem scan?_eq (h : Spread cs ds) : Token.scan? cs = Token.scan? ds := by
  induction h with
  | nil => rfl
  | gap h _ ih => rw [Token.scan?_space (isSpace_of_isGap h), ih]
  | mark h _ ih =>
    obtain ⟨hspace, -⟩ := of_mark? h
    rw [Token.scan?_mark hspace h, Token.scan?_mark hspace h, ih]
  | string s _ ih => rw [Token.scan?_string, Token.scan?_string, ih]
  | word hne h hcs hds _ ih => rw [Token.scan?_word hne h hcs, Token.scan?_word hne h hds, ih]

theorem gaps {bs : List Char} (hbs : ∀ c ∈ bs, isGap c = true) (h : Spread cs ds) : Spread (bs ++ cs) ds := by
  induction bs with
  | nil => exact h
  | cons b bs ih =>
    obtain ⟨hb, hbs⟩ := List.forall_mem_cons.1 hbs
    exact .gap hb (ih hbs)

theorem lineBreak (l : Layout) (depth : Nat) (h : Spread cs ds) : Spread (l.lineBreak depth ++ cs) ds := by
  refine h.gaps fun c hc => ?_
  cases l with
  | compact => cases hc
  | indented width =>
    rcases List.mem_cons.1 hc with rfl | hc
    · decide
    · rw [List.eq_of_mem_replicate hc]
      decide

theorem colon (l : Layout) (h : Spread cs ds) : Spread (l.colon ++ cs) (':' :: ds) := by
  have hmark : Token.mark? ':' = some .colon := rfl
  cases l with
  | compact => exact .mark hmark h
  | indented width => exact .mark hmark (.gap (by decide) h)

end Spread

/-! ## Values -/

theorem word_renderNumber (n : Number) : renderNumber n ≠ [] ∧ (renderNumber n).all Token.isWordChar = true := by
  cases n with
  | integer n =>
    have htext := Token.text_integerLiteral n
    obtain ⟨c, cs, hcs, -⟩ := (Token.integerLiteral n).exists_text (Token.plain_integerLiteral n)
    show Numeral.signed n ≠ [] ∧ (Numeral.signed n).all Token.isWordChar = true
    rw [← htext]
    refine ⟨?_, List.all_eq_true.2 fun c => Token.isWordChar_of_mem_text (Token.plain_integerLiteral n)⟩
    rw [hcs]
    exact List.cons_ne_nil c cs
  | float x =>
    cases x with
    | finite negative m p valid =>
      obtain ⟨hne, hall, -⟩ := Token.word?_renderNumber (n := .float (.finite negative m p valid)) trivial rfl
      exact ⟨hne, hall⟩
    | infinite negative =>
      show "null".toList ≠ [] ∧ "null".toList.all Token.isWordChar = true
      decide

section

variable (l : Layout)

mutual

/-- **The text of a value in any layout is its text on one line, spread out.** -/
theorem spread_value : ∀ (j : Json) (depth depth' : Nat) {cs ds : List Char}, Token.Ends cs → Token.Ends ds →
    Spread cs ds → Spread (renderAt l depth j ++ cs) (renderAt .compact depth' j ++ ds)
  | .null, _, _, _, _, hcs, hds, h => .word (w := "null".toList) (by decide) (by decide) hcs hds h
  | .bool true, _, _, _, _, hcs, hds, h => .word (w := "true".toList) (by decide) (by decide) hcs hds h
  | .bool false, _, _, _, _, hcs, hds, h => .word (w := "false".toList) (by decide) (by decide) hcs hds h
  | .num n, _, _, _, _, hcs, hds, h => .word (word_renderNumber n).1 (word_renderNumber n).2 hcs hds h
  | .str s, _, _, _, _, _, _, h => .string s h
  | .arr [], _, _, _, _, _, _, h => .mark (c := '[') rfl (.mark (c := ']') rfl h)
  | .arr (x :: xs), depth, depth', cs, ds, _, _, h => by
    have hclose : Spread (l.lineBreak depth ++ ']' :: cs) (']' :: ds) := .lineBreak l depth (.mark rfl h)
    have hends := Reader.ends_lineBreak l depth (Token.ends_cons (c := ']') (by decide) cs)
    have hends' := Token.ends_cons (c := ']') (by decide) ds
    have hitems := spread_items xs (depth + 1) (depth' + 1) hends hends' hclose
    have hx := spread_value x (depth + 1) (depth' + 1) (Reader.ends_items l _ xs hends)
      (Reader.ends_items .compact _ xs hends') hitems
    rw [renderAt_arr_append, renderAt_arr_append]
    exact .mark rfl (.lineBreak l (depth + 1) hx)
  | .obj [], _, _, _, _, _, _, h => .mark (c := '{') rfl (.mark (c := '}') rfl h)
  | .obj ((k, v) :: fs), depth, depth', cs, ds, _, _, h => by
    have hclose : Spread (l.lineBreak depth ++ '}' :: cs) ('}' :: ds) := .lineBreak l depth (.mark rfl h)
    have hends := Reader.ends_lineBreak l depth (Token.ends_cons (c := '}') (by decide) cs)
    have hends' := Token.ends_cons (c := '}') (by decide) ds
    have hfields := spread_fields fs (depth + 1) (depth' + 1) hends hends' hclose
    have hv := spread_value v (depth + 1) (depth' + 1) (Reader.ends_fields l _ fs hends)
      (Reader.ends_fields .compact _ fs hends') hfields
    rw [renderAt_obj_append, renderAt_obj_append]
    exact .mark rfl (.lineBreak l (depth + 1) (.string k (.colon l hv)))

theorem spread_items : ∀ (xs : List Json) (depth depth' : Nat) {cs ds : List Char}, Token.Ends cs → Token.Ends ds →
    Spread cs ds → Spread (renderItems l depth xs ++ cs) (renderItems .compact depth' xs ++ ds)
  | [], _, _, _, _, _, _, h => h
  | x :: xs, depth, depth', cs, ds, hcs, hds, h => by
    have hx := spread_value x depth depth' (Reader.ends_items l _ xs hcs) (Reader.ends_items .compact _ xs hds)
      (spread_items xs depth depth' hcs hds h)
    rw [renderItems_cons_append, renderItems_cons_append]
    exact .mark rfl (.lineBreak l depth hx)

theorem spread_fields : ∀ (fs : List (String × Json)) (depth depth' : Nat) {cs ds : List Char}, Token.Ends cs →
    Token.Ends ds → Spread cs ds → Spread (renderFields l depth fs ++ cs) (renderFields .compact depth' fs ++ ds)
  | [], _, _, _, _, _, _, h => h
  | (k, v) :: fs, depth, depth', cs, ds, hcs, hds, h => by
    have hv := spread_value v depth depth' (Reader.ends_fields l _ fs hcs) (Reader.ends_fields .compact _ fs hds)
      (spread_fields fs depth depth' hcs hds h)
    rw [renderFields_cons_append, renderFields_cons_append]
    exact .mark rfl (.lineBreak l depth (.string k (.colon l hv)))

end

end

theorem spread_render (l : Layout) (j : Json) : Spread (j.render l).toList (j.render .compact).toList := by
  have h := spread_value l j 0 0 Token.ends_nil Token.ends_nil .nil
  simpa [render] using h

/-- **Layout is spaces and line feeds outside of strings.** -/
theorem squeeze_render (l : Layout) (j : Json) : squeeze (j.render l) = j.render .compact := by
  rw [squeeze, (spread_render l j).squeezeFrom_eq, String.ofList_toList]

/-- **A text is read alike in every layout.** -/
theorem read?_render_eq (l : Layout) (j : Json) : read? (j.render l) = read? (j.render .compact) := by
  rw [read?, read?, (spread_render l j).scan?_eq]

/-! ## Integers that are too long -/

theorem word?_eq_none {n : Number} (h : ¬n.Short) : Token.word? (renderNumber n) = none := by
  cases n with
  | integer n =>
    have hlimit : Numeral.digitLimit < (Numeral.decimal n.natAbs).length := Nat.lt_of_not_le h
    show Token.word? (Numeral.signed n) = none
    rw [← Token.text_integerLiteral, Token.word?_text (Token.plain_integerLiteral n) (Token.wellWritten_integerLiteral n)]
    simp [Token.integerLiteral, DecimalLiteral.isInteger, hlimit]
  | float x => exact absurd trivial h

section

variable {rest : List Char}

theorem scan?_word_eq_none {w : List Char} (hne : w ≠ []) (hw : w.all Token.isWordChar = true)
    (hrest : Token.Ends rest) (h : Token.word? w = none ∨ Token.scan? rest = none) :
    Token.scan? (w ++ rest) = none := by
  rw [Token.scan?_word hne hw hrest]
  rcases h with h | h
  · rw [h]
    rfl
  · rw [h]
    cases Token.word? w <;> rfl

theorem scan?_mark_eq_none {c : Char} {t : Token} (hc : Token.mark? c = some t) (h : Token.scan? rest = none) :
    Token.scan? (c :: rest) = none := by
  rw [Token.scan?_mark (of_mark? hc).1 hc, h]
  rfl

theorem scan?_string_eq_none (s : String) (h : Token.scan? rest = none) :
    Token.scan? (renderString s ++ rest) = none := by
  rw [Token.scan?_string, h]
  rfl

end

mutual

theorem scan?_value_eq_none : ∀ (j : Json) (depth : Nat) {rest : List Char}, Token.Ends rest →
    ¬j.Readable ∨ Token.scan? rest = none → Token.scan? (renderAt .compact depth j ++ rest) = none
  | .null, _, _, hrest, h =>
    scan?_word_eq_none (w := "null".toList) (by decide) (by decide) hrest (.inr (h.resolve_left (· trivial)))
  | .bool true, _, _, hrest, h =>
    scan?_word_eq_none (w := "true".toList) (by decide) (by decide) hrest (.inr (h.resolve_left (· trivial)))
  | .bool false, _, _, hrest, h =>
    scan?_word_eq_none (w := "false".toList) (by decide) (by decide) hrest (.inr (h.resolve_left (· trivial)))
  | .num n, _, _, hrest, h =>
    scan?_word_eq_none (word_renderNumber n).1 (word_renderNumber n).2 hrest (h.imp_left word?_eq_none)
  | .str s, _, _, _, h => scan?_string_eq_none s (h.resolve_left (· trivial))
  | .arr [], _, _, _, h =>
    scan?_mark_eq_none (c := '[') rfl (scan?_mark_eq_none (c := ']') rfl (h.resolve_left (· trivial)))
  | .arr (x :: xs), depth, rest, _, h => by
    have hclose : Token.Ends (']' :: rest) := Token.ends_cons (by decide) rest
    rw [renderAt_arr_append]
    refine scan?_mark_eq_none rfl (scan?_value_eq_none x (depth + 1) (Reader.ends_items .compact _ xs hclose) ?_)
    by_cases hx : x.Readable
    · refine .inr (scan?_items_eq_none xs (depth + 1) hclose ?_)
      exact h.imp (fun h hxs => h ⟨hx, hxs⟩) (scan?_mark_eq_none rfl)
    · exact .inl hx
  | .obj [], _, _, _, h =>
    scan?_mark_eq_none (c := '{') rfl (scan?_mark_eq_none (c := '}') rfl (h.resolve_left (· trivial)))
  | .obj ((k, v) :: fs), depth, rest, _, h => by
    have hclose : Token.Ends ('}' :: rest) := Token.ends_cons (by decide) rest
    rw [renderAt_obj_append]
    refine scan?_mark_eq_none rfl (scan?_string_eq_none k (scan?_mark_eq_none (c := ':') rfl
      (scan?_value_eq_none v (depth + 1) (Reader.ends_fields .compact _ fs hclose) ?_)))
    by_cases hv : v.Readable
    · refine .inr (scan?_fields_eq_none fs (depth + 1) hclose ?_)
      exact h.imp (fun h hfs => h ⟨hv, hfs⟩) (scan?_mark_eq_none rfl)
    · exact .inl hv

theorem scan?_items_eq_none : ∀ (xs : List Json) (depth : Nat) {rest : List Char}, Token.Ends rest →
    ¬ReadableItems xs ∨ Token.scan? rest = none → Token.scan? (renderItems .compact depth xs ++ rest) = none
  | [], _, _, _, h => h.resolve_left (· trivial)
  | x :: xs, depth, rest, hrest, h => by
    rw [renderItems_cons_append]
    refine scan?_mark_eq_none rfl (scan?_value_eq_none x depth (Reader.ends_items .compact _ xs hrest) ?_)
    by_cases hx : x.Readable
    · exact .inr (scan?_items_eq_none xs depth hrest (h.imp_left fun h hxs => h ⟨hx, hxs⟩))
    · exact .inl hx

theorem scan?_fields_eq_none : ∀ (fs : List (String × Json)) (depth : Nat) {rest : List Char}, Token.Ends rest →
    ¬ReadableFields fs ∨ Token.scan? rest = none → Token.scan? (renderFields .compact depth fs ++ rest) = none
  | [], _, _, _, h => h.resolve_left (· trivial)
  | (k, v) :: fs, depth, rest, hrest, h => by
    rw [renderFields_cons_append]
    refine scan?_mark_eq_none rfl (scan?_string_eq_none k (scan?_mark_eq_none (c := ':') rfl
      (scan?_value_eq_none v depth (Reader.ends_fields .compact _ fs hrest) ?_)))
    by_cases hv : v.Readable
    · exact .inr (scan?_fields_eq_none fs depth hrest (h.imp_left fun h hfs => h ⟨hv, hfs⟩))
    · exact .inl hv

end

/-- A text is read in no layout if an integer is too long, and as its value otherwise. -/
theorem read?_render_eq_some_iff (l : Layout) (j v : Json) :
    read? (j.render l) = some v ↔ j.Readable ∧ v = j.written := by
  by_cases h : j.Readable
  · rw [read?_render l h, Option.some_inj]
    exact ⟨fun e => ⟨h, e.symm⟩, fun e => e.2.symm⟩
  · have hnone : Token.scan? (renderAt .compact 0 j ++ []) = none := scan?_value_eq_none j 0 Token.ends_nil (.inl h)
    rw [List.append_nil] at hnone
    rw [read?_render_eq, read?, render, String.toList_ofList, hnone]
    exact ⟨(absurd · (by rintro ⟨⟩)), fun e => absurd e.1 h⟩

end DefTree.Json

namespace DefTree

theorem Node.dump_some_ok_iff {tree : Node} {n : Int} (hn : 0 ≤ n) {text : String} :
    tree.dump (some n) = .ok text ↔ n < widthLimit ∧ tree.toJson.render (.indented n.toNat) = text := by
  rw [dump, layout, if_neg (Int.not_lt.2 hn)]
  split
  · next hle =>
    exact ⟨(absurd · (by rintro ⟨⟩)), fun h => absurd hle (Int.not_le.2 h.1)⟩
  · next hlt =>
    exact ⟨fun h => ⟨Int.not_le.1 hlt, Except.ok.inj h⟩, fun h => congrArg Except.ok h.2⟩

/-- **The indentation of a dump is only layout.** A tree is dumped on one line, and with any indentation that fits
into a machine word. Without its spaces and line feeds outside of strings the indented text is the one on one line,
and both are read as the same value: the tree with null for infinite numbers, if no integer in it is too long
to be read. -/
theorem dump_indented (tree : Node) {n : Int} (hn : 0 ≤ n) :
    ∃ compact, tree.dump none = .ok compact ∧
      ((∃ text, tree.dump (some n) = .ok text) ↔ n < Node.widthLimit) ∧
      ∀ text, tree.dump (some n) = .ok text →
        Json.squeeze text = compact ∧ Json.read? text = Json.read? compact ∧
        ∀ v, Json.read? text = some v ↔ tree.toJson.Readable ∧ v = tree.toJson.written := by
  refine ⟨tree.toJson.render .compact, rfl, ⟨?_, fun hlt => ⟨_, (Node.dump_some_ok_iff hn).2 ⟨hlt, rfl⟩⟩⟩,
    fun text h => ?_⟩
  · rintro ⟨text, h⟩
    exact ((Node.dump_some_ok_iff hn).1 h).1
  · obtain ⟨-, rfl⟩ := (Node.dump_some_ok_iff hn).1 h
    exact ⟨Json.squeeze_render _ _, Json.read?_render_eq _ _, Json.read?_render_eq_some_iff _ _⟩

/-- A tree with quotes, backslashes, braces, spaces and line feeds in its texts. -/
theorem dump_indented_escaped :
    let tree := Node.rootOf [.sectOf "a \"b" .empty [.propOf "k" (.text "\\ \x7b\n\x7d")], .refOf "c : [, ]"]
    (0 : Int) ≤ 1 ∧ ∃ text compact, tree.dump (some 1) = .ok text ∧ tree.dump none = .ok compact ∧ text ≠ compact ∧
      Json.squeeze text = compact ∧ Json.read? text = some tree.toJson.written ∧
      Json.read? compact = some tree.toJson.written := by
  intro tree
  have hn : (0 : Int) ≤ 1 := by decide
  obtain ⟨compact, hcompact, htext, h⟩ := dump_indented tree hn
  obtain ⟨text, htext⟩ := htext.2 (by decide)
  obtain ⟨hsqueeze, hread, hvalue⟩ := h text htext
  have hreadable : tree.toJson.Readable := Node.readable_toJson fun s hs => by
    obtain rfl : s = .text "\\ \x7b\n\x7d" := by simpa [tree, Node.scalars, Node.scalarsOf, Node.rootOf, Node.sectOf,
      Node.propOf, Node.refOf, Attributes.empty] using hs
    trivial
  have hsome := (hvalue tree.toJson.written).2 ⟨hreadable, rfl⟩
  refine ⟨hn, text, compact, htext, hcompact, ?_, hsqueeze, hsome, hread ▸ hsome⟩
  obtain rfl := Except.ok.inj htext
  obtain rfl := Except.ok.inj hcompact
  decide +kernel

end DefTree
