/-
JSON texts, read back.

The text of a value takes the reader, token by token, from a place where a
value may stand to the place behind it, whatever the layout and whatever
follows. What the reader then has is the value as it was written: null in
the place of an infinite number, and all else unchanged.
-/
import DefTree.Json.Reader
import DefTree.Proofs.FloatText
import Mathlib.Tactic.IntervalCases

namespace DefTree

/-- An integer is short if its digits may be read again; floating-point numbers always may. -/
def Number.Short : Number → Prop
  | .integer n => (Numeral.decimal n.natAbs).length ≤ Numeral.digitLimit
  | .float _ => True

namespace Json

/-! ## Values as they are written -/

def writtenNumber : Number → Json
  | .integer n => .num (.integer n)
  | .float (.finite negative m p valid) => .num (.float (.finite negative m p valid))
  | .float (.infinite _) => .null

mutual

/-- A value as its text has it: null stands for an infinite number. -/
def written : Json → Json
  | .null => .null
  | .bool b => .bool b
  | .num n => writtenNumber n
  | .str s => .str s
  | .arr items => .arr (writtenItems items)
  | .obj fields => .obj (writtenFields fields)

def writtenItems : List Json → List Json
  | [] => []
  | x :: xs => x.written :: writtenItems xs

def writtenFields : List (String × Json) → List (String × Json)
  | [] => []
  | (k, v) :: fs => (k, v.written) :: writtenFields fs

end

mutual

/-- All integers of a value are short. -/
def Readable : Json → Prop
  | .null | .bool _ | .str _ => True
  | .num n => n.Short
  | .arr items => ReadableItems items
  | .obj fields => ReadableFields fields

def ReadableItems : List Json → Prop
  | [] => True
  | x :: xs => x.Readable ∧ ReadableItems xs

def ReadableFields : List (String × Json) → Prop
  | [] => True
  | (_, v) :: fs => v.Readable ∧ ReadableFields fs

end

/-! ## Texts of containers, with what follows them -/

section

variable (l : Layout) (depth : Nat) (rest : List Char)

theorem renderAt_arr_append (x : Json) (xs : List Json) : renderAt l depth (.arr (x :: xs)) ++ rest =
    '[' :: (l.lineBreak (depth + 1) ++ (renderAt l (depth + 1) x ++ (renderItems l (depth + 1) xs ++
      (l.lineBreak depth ++ ']' :: rest)))) := by
  simp only [renderAt, List.cons_append, List.append_assoc, List.nil_append]

theorem renderAt_obj_append (k : String) (v : Json) (fs : List (String × Json)) :
    renderAt l depth (.obj ((k, v) :: fs)) ++ rest =
      '{' :: (l.lineBreak (depth + 1) ++ (renderString k ++ (l.colon ++ (renderAt l (depth + 1) v ++
        (renderFields l (depth + 1) fs ++ (l.lineBreak depth ++ '}' :: rest)))))) := by
  simp only [renderAt, List.cons_append, List.append_assoc, List.nil_append]

theorem renderItems_cons_append (x : Json) (xs : List Json) : renderItems l depth (x :: xs) ++ rest =
    ',' :: (l.lineBreak depth ++ (renderAt l depth x ++ (renderItems l depth xs ++ rest))) := by
  simp only [renderItems, List.cons_append, List.append_assoc]

theorem renderFields_cons_append (k : String) (v : Json) (fs : List (String × Json)) :
    renderFields l depth ((k, v) :: fs) ++ rest = ',' :: (l.lineBreak depth ++ (renderString k ++ (l.colon ++
      (renderAt l depth v ++ (renderFields l depth fs ++ rest))))) := by
  simp only [renderFields, List.cons_append, List.append_assoc]

end

namespace Token

/-! ## Words -/

/-- A text that does not go on a word. -/
def Ends (cs : List Char) : Prop := ∀ c, cs.head? = some c → isWordChar c = false

theorem ends_nil : Ends [] := by rintro c ⟨⟩

theorem ends_cons {c : Char} (h : isWordChar c = false) (cs : List Char) : Ends (c :: cs) := by
  rintro d ⟨⟩
  exact h

theorem isWordChar_of_isDigit {c : Char} (h : c.isDigit = true) : isWordChar c = true := by
  simp [isWordChar, Char.isAlphanum, h]

theorem of_isWordChar {c : Char} (h : isWordChar c = true) : isSpace c = false ∧ mark? c = none ∧ c ≠ '"' := by
  have hne {d : Char} (hd : isWordChar d = false) : c ≠ d := by
    rintro rfl
    rw [h] at hd
    cases hd
  refine ⟨?_, ?_, hne (by decide)⟩
  · simp [isSpace, hne (show isWordChar ' ' = false by decide), hne (show isWordChar '\t' = false by decide),
      hne (show isWordChar '\n' = false by decide), hne (show isWordChar '\r' = false by decide)]
  · simp [mark?, hne (show isWordChar '[' = false by decide), hne (show isWordChar ']' = false by decide),
      hne (show isWordChar '{' = false by decide), hne (show isWordChar '}' = false by decide),
      hne (show isWordChar ',' = false by decide), hne (show isWordChar ':' = false by decide)]

/-! ## Numbers -/

theorem isWordChar_of_mem_text {l : DecimalLiteral} (h : l.Plain) {c : Char} (hc : c ∈ l.text) :
    isWordChar c = true := by
  rcases l.mem_text h hc with hc | rfl | rfl | rfl | rfl
  · exact isWordChar_of_isDigit hc
  all_goals decide

/-- The text of a well-written literal is a word that denotes its number. -/
theorem word?_text {l : DecimalLiteral} (h : l.Plain) (hl : wellWritten l = true) : word? l.text =
    if !l.isInteger then some (.num (.float l.toFloat))
    else if Numeral.digitLimit < l.whole.length then none
    else some (.num (.integer (Numeral.withSign l.negative (Numeral.value 10 l.whole)))) := by
  obtain ⟨c, cs, hcs, hc⟩ := l.exists_text h
  have hne (w : List Char) (hw : (w.head?.all fun d => !d.isDigit && d != '-') = true) : l.text ≠ w := by
    rintro rfl
    rw [hcs, List.head?_cons, Option.all_some] at hw
    rcases hc with hc | rfl
    · simp [hc] at hw
    · cases hw
  have hplus : l.text.head? ≠ some '+' := fun hhead => hne l.text (by rw [hhead]; decide) rfl
  rw [word?, if_neg (hne _ (by decide)), if_neg (hne _ (by decide)), if_neg (hne _ (by decide)), number?,
    if_neg hplus, l.read?_text h]
  dsimp only
  rw [hl, Bool.not_true, if_neg Bool.false_ne_true]
  split
  · rfl
  split
  · rfl
  · rfl

/-- The literal of an integer's text. -/
def integerLiteral (n : Int) : DecimalLiteral := ⟨decide (n < 0), Numeral.decimal n.natAbs, none, none⟩

theorem text_integerLiteral (n : Int) : (integerLiteral n).text = Numeral.signed n := by
  cases n with
  | ofNat n => simp [integerLiteral, DecimalLiteral.text, DecimalLiteral.unsigned, DecimalLiteral.fractionText,
      DecimalLiteral.exponentText, Numeral.signed]
  | negSucc n => simp [integerLiteral, DecimalLiteral.text, DecimalLiteral.unsigned, DecimalLiteral.fractionText,
      DecimalLiteral.exponentText, Numeral.signed]

theorem plain_integerLiteral (n : Int) : (integerLiteral n).Plain where
  whole_ne_nil := Numeral.decimal_ne_nil _
  whole := fun _ => Numeral.isDigit_of_mem_decimal
  fraction := by rintro _ ⟨⟩
  exponent_ne_nil := by rintro _ _ ⟨⟩
  exponent := by rintro _ _ ⟨⟩

theorem wellWritten_integerLiteral (n : Int) : wellWritten (integerLiteral n) = true := by
  refine DecimalLiteral.wellWritten_iff.2 ⟨Numeral.decimal_ne_nil _, ?_, by simp [integerLiteral]⟩
  by_cases hn : n = 0
  · rw [hn]
    exact .inl rfl
  · exact .inr (Numeral.head_decimal_ne (Int.natAbs_ne_zero.2 hn))

/-- The text of a short finite number is that of a literal which denotes the number. -/
theorem exists_literal {n : Number} (hshort : n.Short) (hfinite : writtenNumber n = .num n) :
    ∃ l : DecimalLiteral, l.Plain ∧ l.text = renderNumber n ∧ word? l.text = some (.num n) := by
  cases n with
  | integer n =>
    refine ⟨integerLiteral n, plain_integerLiteral n, text_integerLiteral n, ?_⟩
    have hlimit : ¬Numeral.digitLimit < (Numeral.decimal n.natAbs).length := Nat.not_lt.2 hshort
    rw [word?_text (plain_integerLiteral n) (wellWritten_integerLiteral n)]
    simp [integerLiteral, DecimalLiteral.isInteger, hlimit, Numeral.value_decimal, Numeral.withSign_natAbs]
  | float x =>
    cases x with
    | infinite negative => cases hfinite
    | finite negative m p valid =>
      obtain ⟨l, htext, hplain, hwritten, hinteger, hfloat⟩ := floatLayout.exists_write negative valid
      refine ⟨l, hplain, htext, ?_⟩
      rw [word?_text hplain hwritten, hinteger, hfloat]
      rfl

theorem word?_renderNumber {n : Number} (hshort : n.Short) (hfinite : writtenNumber n = .num n) :
    renderNumber n ≠ [] ∧ (renderNumber n).all isWordChar = true ∧ word? (renderNumber n) = some (.num n) := by
  obtain ⟨l, hplain, htext, hword⟩ := exists_literal hshort hfinite
  obtain ⟨c, cs, hcs, -⟩ := l.exists_text hplain
  rw [← htext]
  refine ⟨?_, List.all_eq_true.2 fun c => isWordChar_of_mem_text hplain, hword⟩
  rw [hcs]
  exact List.cons_ne_nil c cs

/-! ## Strings -/

theorem exists_hex {n : Nat} (hn : n < 0x20) :
    ∃ a b c d, Numeral.hex 4 n = [a, b, c, d] ∧ Numeral.natural? 16 [a, b, c, d] = some n := by
  interval_cases n <;> exact ⟨_, _, _, _, rfl, rfl⟩

/-- One more unit in front of those that were taken. -/
def pushUnit (n : Nat) (taken : Option (List Nat × List Char)) : Option (List Nat × List Char) :=
  taken.map fun (us, rest) => (n :: us, rest)

theorem takeUnits_named {c d : Char} (hu : c ≠ 'u') (h : named? c = some d) (cs : List Char) :
    takeUnits ('\\' :: c :: cs) = pushUnit d.toNat (takeUnits cs) := by
  rw [takeUnits, h]
  · cases takeUnits cs <;> rfl
  · rintro _ _ _ _ _ rfl
    exact absurd rfl hu

theorem takeUnits_coded {n : Nat} (hn : n < 0x20) (cs : List Char) :
    takeUnits ('\\' :: 'u' :: (Numeral.hex 4 n ++ cs)) = pushUnit n (takeUnits cs) := by
  obtain ⟨a, b, c, d, hhex, hvalue⟩ := exists_hex hn
  rw [hhex]
  show takeUnits ('\\' :: 'u' :: a :: b :: c :: d :: cs) = _
  rw [takeUnits, hvalue]
  cases takeUnits cs <;> rfl

theorem takeUnits_plain {c : Char} (hquote : c ≠ '"') (hslash : c ≠ '\\') (hc : ¬c.toNat < 0x20) (cs : List Char) :
    takeUnits (c :: cs) = pushUnit c.toNat (takeUnits cs) := by
  rw [takeUnits]
  · simp only [hc, hslash, decide_false, Bool.or_self, Bool.false_eq_true, if_false]
    cases takeUnits cs <;> rfl
  · exact hquote
  · rintro _ _ _ _ _ rfl
    exact absurd rfl hslash
  · rintro _ _ rfl
    exact absurd rfl hslash

theorem takeUnits_escape (c : Char) (cs : List Char) :
    takeUnits (escape c ++ cs) = pushUnit c.toNat (takeUnits cs) := by
  unfold escape
  split
  · next h => subst h; exact takeUnits_named (by decide) rfl cs
  next hquote =>
  split
  · next h => subst h; exact takeUnits_named (by decide) rfl cs
  next hslash =>
  split
  · next h => subst h; exact takeUnits_named (by decide) rfl cs
  split
  · next h => subst h; exact takeUnits_named (by decide) rfl cs
  split
  · next h => subst h; exact takeUnits_named (by decide) rfl cs
  split
  · next h => subst h; exact takeUnits_named (by decide) rfl cs
  split
  · next h => subst h; exact takeUnits_named (by decide) rfl cs
  split
  · next hc => exact takeUnits_coded hc cs
  · next hc => exact takeUnits_plain hquote hslash hc cs

theorem takeUnits_flatMap (s rest : List Char) :
    takeUnits (s.flatMap escape ++ '"' :: rest) = some (s.map Char.toNat, rest) := by
  induction s with
  | nil => rfl
  | cons c s ih =>
    rw [List.flatMap_cons, List.append_assoc, takeUnits_escape, ih]
    rfl

theorem ofUnits?_toNat (s : List Char) : ofUnits? (s.map Char.toNat) = some s := by
  induction s with
  | nil => rfl
  | cons c s ih =>
    have hvalid : c.toNat < 0xD800 ∨ 0xDFFF < c.toNat ∧ c.toNat < 0x110000 := c.valid
    have hhigh : isHighUnit c.toNat = false := by
      simp only [isHighUnit, Bool.and_eq_false_iff, decide_eq_false_iff_not]
      omega
    have hlow : isLowUnit c.toNat = false := by
      simp only [isLowUnit, Bool.and_eq_false_iff, decide_eq_false_iff_not]
      omega
    -- the equations of `ofUnits?` look at the unit after this one, so it is opened as a whole
    rw [List.map_cons]
    conv_lhs => rw [ofUnits?.eq_def]
    simp only [hhigh, hlow, ih, Bool.false_eq_true, if_false, Option.map_some, Char.ofNat_toNat]

/-! ## The first token of a text -/

theorem scan?_space {c : Char} (h : isSpace c = true) (cs : List Char) : scan? (c :: cs) = scan? cs := by
  rw [scan?, if_pos h]

theorem scan?_mark {c : Char} {t : Token} (hspace : isSpace c = false) (h : mark? c = some t) (cs : List Char) :
    scan? (c :: cs) = (scan? cs).map (t :: ·) := by
  rw [scan?, if_neg (by simp [hspace]), h]

theorem scan?_string (s : String) (rest : List Char) :
    scan? (renderString s ++ rest) = (scan? rest).map (.str s :: ·) := by
  have hunits : takeUnits (s.toList.flatMap escape ++ (['"'] ++ rest)) = some (s.toList.map Char.toNat, rest) :=
    takeUnits_flatMap s.toList rest
  rw [renderString, List.cons_append, List.append_assoc, scan?, if_neg (by decide)]
  split
  · next t hmark => cases hmark
  rw [if_pos rfl]
  split
  · next us rest' h =>
    rw [hunits] at h
    cases h
    rw [ofUnits?_toNat]
    cases scan? rest with
    | none => rfl
    | some ts =>
      dsimp only
      rw [String.ofList_toList]
      rfl
  · next h =>
    rw [hunits] at h
    cases h

theorem scan?_word {w : List Char} (hne : w ≠ []) (hw : w.all isWordChar = true) {rest : List Char}
    (hrest : Ends rest) : scan? (w ++ rest) = (word? w).bind fun t => (scan? rest).map (t :: ·) := by
  obtain ⟨c, cs, rfl⟩ := List.exists_cons_of_ne_nil hne
  obtain ⟨hc, hcs⟩ := List.forall_mem_cons.1 (List.all_eq_true.1 hw)
  obtain ⟨hspace, hmark, hquote⟩ := of_isWordChar hc
  rw [List.cons_append, scan?, if_neg (by simp [hspace]), hmark]
  dsimp only
  rw [if_neg hquote, if_pos hc, Text.takeWhile_run hcs hrest, Text.dropWhile_run hcs hrest]
  cases word? (c :: cs) with
  | none => rfl
  | some t => cases scan? rest <;> rfl

end Token

/-! ## Reading on -/

namespace Reader

/-- What the reader makes of a text from where it stands. -/
def readFrom (r : Reader) (cs : List Char) : Option Json :=
  (Token.scan? cs).bind fun ts => (ts.foldlM step r).bind result?

variable {r : Reader} {cs rest : List Char}

theorem readFrom_token {t : Token} (h : Token.scan? cs = (Token.scan? rest).map (t :: ·)) :
    r.readFrom cs = (r.step t).bind fun r' => r'.readFrom rest := by
  unfold readFrom
  rw [h]
  cases Token.scan? rest with
  | none => cases r.step t <;> rfl
  | some ts =>
    simp only [Option.map_some, Option.bind_some, List.foldlM_cons]
    cases r.step t <;> rfl

theorem readFrom_spaces {bs : List Char} (h : ∀ c ∈ bs, Token.isSpace c = true) (cs : List Char) :
    r.readFrom (bs ++ cs) = r.readFrom cs := by
  induction bs with
  | nil => rfl
  | cons b bs ih =>
    obtain ⟨hb, hbs⟩ := List.forall_mem_cons.1 h
    rw [List.cons_append, readFrom, Token.scan?_space hb, ← readFrom, ih hbs]

theorem isSpace_of_mem_lineBreak {l : Layout} {depth : Nat} {c : Char} (h : c ∈ l.lineBreak depth) :
    Token.isSpace c = true := by
  cases l with
  | compact => cases h
  | indented width =>
    rcases List.mem_cons.1 h with rfl | h
    · decide
    · rw [(List.mem_replicate.1 h).2]
      decide

theorem readFrom_lineBreak (l : Layout) (depth : Nat) (cs : List Char) :
    r.readFrom (l.lineBreak depth ++ cs) = r.readFrom cs := readFrom_spaces (fun _ => isSpace_of_mem_lineBreak) cs

theorem readFrom_mark {c : Char} {t : Token} (hspace : Token.isSpace c = false) (h : Token.mark? c = some t)
    (cs : List Char) : r.readFrom (c :: cs) = (r.step t).bind fun r' => r'.readFrom cs :=
  readFrom_token (Token.scan?_mark hspace h cs)

theorem readFrom_string (s : String) (rest : List Char) :
    r.readFrom (renderString s ++ rest) = (r.step (.str s)).bind fun r' => r'.readFrom rest :=
  readFrom_token (Token.scan?_string s rest)

theorem readFrom_colon (l : Layout) (cs : List Char) :
    r.readFrom (l.colon ++ cs) = (r.step .colon).bind fun r' => r'.readFrom cs := by
  cases l with
  | compact => exact readFrom_mark (by decide) rfl cs
  | indented width =>
    rw [Layout.colon, List.cons_append, readFrom_mark (by decide) rfl]
    have hspace (r' : Reader) : r'.readFrom ([' '] ++ cs) = r'.readFrom cs :=
      readFrom_spaces (List.forall_mem_singleton.2 (by decide)) cs
    simp only [hspace]

theorem readFrom_key {st : List Frame} {done : List (String × Json)} {k : String}
    (h : r.step (.str k) = some ⟨st, .colon done k⟩) (l : Layout) (cs : List Char) :
    r.readFrom (renderString k ++ (l.colon ++ cs)) = Reader.readFrom ⟨.field done k :: st, .value⟩ cs := by
  rw [readFrom_string, h, Option.bind_some, readFrom_colon]
  rfl

/-- A place where a value may stand in a container. -/
def AtValue (r : Reader) (st : List Frame) : Prop := ∀ t, t ≠ .closeArray → r.step t = beginValue st t

theorem atValue (st : List Frame) : AtValue ⟨st, .value⟩ st := fun _ _ => rfl

theorem atFirstItem (st : List Frame) : AtValue ⟨st, .firstItem⟩ (.item [] :: st) := by
  intro t ht
  cases t with
  | closeArray => exact absurd rfl ht
  | _ => rfl

theorem ends_lineBreak (l : Layout) (depth : Nat) {cs : List Char} (h : Token.Ends cs) :
    Token.Ends (l.lineBreak depth ++ cs) := by
  cases l with
  | compact => exact h
  | indented width => exact Token.ends_cons (by decide) _

theorem ends_items (l : Layout) (depth : Nat) (xs : List Json) {cs : List Char} (h : Token.Ends cs) :
    Token.Ends (renderItems l depth xs ++ cs) := by
  cases xs with
  | nil => exact h
  | cons x xs => exact Token.ends_cons (by decide) _

theorem ends_fields (l : Layout) (depth : Nat) (fs : List (String × Json)) {cs : List Char} (h : Token.Ends cs) :
    Token.Ends (renderFields l depth fs ++ cs) := by
  cases fs with
  | nil => exact h
  | cons f fs => exact Token.ends_cons (by decide) _

theorem readFrom_word {st : List Frame} {w : List Char} {t : Token} (hr : r.AtValue st) (hne : w ≠ [])
    (hw : w.all Token.isWordChar = true) (h : Token.word? w = some t) (ht : t ≠ .closeArray)
    (hrest : Token.Ends rest) : r.readFrom (w ++ rest) = (beginValue st t).bind fun r' => r'.readFrom rest := by
  have hscan : Token.scan? (w ++ rest) = (Token.scan? rest).map (t :: ·) := by
    rw [Token.scan?_word hne hw hrest, h, Option.bind_some]
  rw [readFrom_token hscan, hr t ht]

theorem readFrom_null {st : List Frame} (hr : r.AtValue st) (hrest : Token.Ends rest) :
    r.readFrom ("null".toList ++ rest) = (deliver .null st).readFrom rest :=
  readFrom_word (t := .null) hr (by decide) (by decide) rfl (by decide) hrest

theorem readFrom_bool {st : List Frame} (b : Bool) (hr : r.AtValue st) (hrest : Token.Ends rest) :
    r.readFrom ((if b then "true" else "false").toList ++ rest) = (deliver (.bool b) st).readFrom rest := by
  cases b with
  | true => exact readFrom_word (t := .bool true) hr (by decide) (by decide) rfl (by decide) hrest
  | false => exact readFrom_word (t := .bool false) hr (by decide) (by decide) rfl (by decide) hrest

theorem readFrom_number {st : List Frame} {n : Number} (hn : n.Short) (hr : r.AtValue st) (hrest : Token.Ends rest) :
    r.readFrom (renderNumber n ++ rest) = (deliver (writtenNumber n) st).readFrom rest := by
  have hfinite (h : writtenNumber n = .num n) :
      r.readFrom (renderNumber n ++ rest) = (deliver (writtenNumber n) st).readFrom rest := by
    obtain ⟨hne, hword, hread⟩ := Token.word?_renderNumber hn h
    rw [readFrom_word hr hne hword hread (by rintro ⟨⟩) hrest, h]
    rfl
  cases n with
  | integer n => exact hfinite rfl
  | float x =>
    cases x with
    | finite negative m p valid => exact hfinite rfl
    | infinite negative => exact readFrom_null hr hrest

mutual

/-- **The text of a value takes the reader behind it**, with the value as it was written. -/
theorem readFrom_value (l : Layout) : ∀ (j : Json) (depth : Nat) {r : Reader} {st : List Frame} {rest : List Char},
    j.Readable → r.AtValue st → Token.Ends rest →
    r.readFrom (renderAt l depth j ++ rest) = (deliver j.written st).readFrom rest
  | .null, depth, r, st, rest, _, hr, hrest => readFrom_null hr hrest
  | .bool b, depth, r, st, rest, _, hr, hrest => readFrom_bool b hr hrest
  | .num n, depth, r, st, rest, hj, hr, hrest => readFrom_number hj hr hrest
  | .str s, depth, r, st, rest, _, hr, _ => by
    rw [renderAt, readFrom_string, hr _ (by rintro ⟨⟩)]
    rfl
  | .arr [], depth, r, st, rest, _, hr, _ => by
    have hclose : Reader.readFrom ⟨st, .firstItem⟩ (']' :: rest) = (deliver (.arr []) st).readFrom rest :=
      readFrom_mark (c := ']') (t := .closeArray) (by decide) rfl rest
    show r.readFrom ('[' :: ']' :: rest) = _
    rw [readFrom_mark (by decide) rfl, hr _ (by decide)]
    exact hclose
  | .arr (x :: xs), depth, r, st, rest, hj, hr, hrest => by
    have hclose : Token.Ends (l.lineBreak depth ++ ']' :: rest) :=
      ends_lineBreak l depth (Token.ends_cons (by decide) rest)
    rw [renderAt_arr_append, readFrom_mark (by decide) rfl, hr _ (by decide)]
    -- no frame for the array is on the stack before its first item
    show Reader.readFrom ⟨st, .firstItem⟩ _ = _
    rw [readFrom_lineBreak, readFrom_value l x _ hj.1 (atFirstItem st) (ends_items l _ xs hclose)]
    show Reader.readFrom ⟨st, .afterItem [x.written]⟩ _ = _
    rw [readFrom_items l xs _ hj.2 hclose, readFrom_lineBreak, readFrom_mark (by decide) rfl]
    simp only [step, Option.bind_some, List.reverse_append, List.reverse_reverse, List.reverse_singleton]
    rfl
  | .obj [], depth, r, st, rest, _, hr, _ => by
    have hclose : Reader.readFrom ⟨st, .firstKey⟩ ('}' :: rest) = (deliver (.obj []) st).readFrom rest :=
      readFrom_mark (c := '}') (t := .closeObject) (by decide) rfl rest
    show r.readFrom ('{' :: '}' :: rest) = _
    rw [readFrom_mark (by decide) rfl, hr _ (by decide)]
    exact hclose
  | .obj ((k, v) :: fs), depth, r, st, rest, hj, hr, hrest => by
    have hclose : Token.Ends (l.lineBreak depth ++ '}' :: rest) :=
      ends_lineBreak l depth (Token.ends_cons (by decide) rest)
    rw [renderAt_obj_append, readFrom_mark (by decide) rfl, hr _ (by decide)]
    show Reader.readFrom ⟨st, .firstKey⟩ _ = _
    rw [readFrom_lineBreak, readFrom_key rfl, readFrom_value l v _ hj.1 (atValue _) (ends_fields l _ fs hclose)]
    show Reader.readFrom ⟨st, .afterField [(k, v.written)]⟩ _ = _
    rw [readFrom_fields l fs _ hj.2 hclose, readFrom_lineBreak, readFrom_mark (by decide) rfl]
    simp only [step, Option.bind_some, List.reverse_append, List.reverse_reverse, List.reverse_singleton]
    rfl

theorem readFrom_items (l : Layout) : ∀ (xs : List Json) (depth : Nat) {st : List Frame} {done : List Json}
    {rest : List Char}, ReadableItems xs → Token.Ends rest →
    Reader.readFrom ⟨st, .afterItem done⟩ (renderItems l depth xs ++ rest) =
      Reader.readFrom ⟨st, .afterItem ((writtenItems xs).reverse ++ done)⟩ rest
  | [], depth, st, done, rest, _, _ => rfl
  | x :: xs, depth, st, done, rest, hj, hrest => by
    rw [renderItems_cons_append, readFrom_mark (by decide) rfl]
    show Reader.readFrom ⟨.item done :: st, .value⟩ _ = _
    rw [readFrom_lineBreak, readFrom_value l x _ hj.1 (atValue _) (ends_items l _ xs hrest)]
    show Reader.readFrom ⟨st, .afterItem (x.written :: done)⟩ _ = _
    rw [readFrom_items l xs _ hj.2 hrest, writtenItems, List.reverse_cons, List.append_assoc]
    rfl

theorem readFrom_fields (l : Layout) : ∀ (fs : List (String × Json)) (depth : Nat) {st : List Frame}
    {done : List (String × Json)} {rest : List Char}, ReadableFields fs → Token.Ends rest →
    Reader.readFrom ⟨st, .afterField done⟩ (renderFields l depth fs ++ rest) =
      Reader.readFrom ⟨st, .afterField ((writtenFields fs).reverse ++ done)⟩ rest
  | [], depth, st, done, rest, _, _ => rfl
  | (k, v) :: fs, depth, st, done, rest, hj, hrest => by
    rw [renderFields_cons_append, readFrom_mark (by decide) rfl]
    show Reader.readFrom ⟨st, .key done⟩ _ = _
    rw [readFrom_lineBreak, readFrom_key rfl, readFrom_value l v _ hj.1 (atValue _) (ends_fields l _ fs hrest)]
    show Reader.readFrom ⟨st, .afterField ((k, v.written) :: done)⟩ _ = _
    rw [readFrom_fields l fs _ hj.2 hrest, writtenFields, List.reverse_cons, List.append_assoc]
    rfl

end

end Reader

/-- **A value is read back from its text as it was written**, if its integers are short. -/
theorem read?_render (l : Layout) {j : Json} (h : j.Readable) : read? (j.render l) = some j.written := by
  have hread := Reader.readFrom_value l j 0 h (Reader.atValue []) Token.ends_nil
  rw [List.append_nil] at hread
  rw [read?, render, String.toList_ofList]
  exact hread.trans (by rw [Reader.readFrom, Token.scan?]; rfl)

end Json

end DefTree
