/-
Printed lines read back.

Each line that a layout writes for a printable node has the shape of that
node, with the name, the arguments, the attributes or the value that were
written.
-/
import DefTree.Proofs.AttributeList
import DefTree.Proofs.Front
import DefTree.Proofs.Layout

namespace DefTree

/-! ## Scalars -/

namespace Scalar

theorem tight_scalar {v : Scalar} {cs : List Char} (h : v.Printable cs) : Text.Tight (Layout.scalar v) := by
  match v, h with
  | .text s, _ => exact .quoted s.toList
  | .number (.integer n), _ => exact .of_forall fun _ => Numeral.isBlank_of_mem_signed
  | .boolean true, _ => exact .of_forall (Text.isBlank_of_all (by decide))
  | .boolean false, _ => exact .of_forall (Text.isBlank_of_all (by decide))

theorem scalar_ne_nil {v : Scalar} {cs : List Char} (h : v.Printable cs) : Layout.scalar v ≠ [] := by
  match v, h with
  | .text s, _ => exact List.cons_ne_nil _ _
  | .number (.integer n), _ => exact Numeral.signed_ne_nil n
  | .boolean true, _ => exact List.cons_ne_nil _ _
  | .boolean false, _ => exact List.cons_ne_nil _ _

theorem unquote?_quote (s : String) : unquote? (Layout.quote s) = some s.toList := by
  show (if (s.toList ++ ['"']).getLast? = some '"' then some (s.toList ++ ['"']).dropLast else none) = _
  rw [if_pos List.getLast?_concat, List.dropLast_concat]

theorem unquote?_of_head? {cs : List Char} (h : cs.head? ≠ some '"') : unquote? cs = none := by
  unfold unquote?
  split
  · exact absurd rfl h
  · rfl

theorem unquote?_of_not_mem {cs : List Char} (h : '"' ∉ cs) : unquote? cs = none :=
  unquote?_of_head? fun hhead => h (List.mem_of_mem_head? hhead)

theorem ofToken_signed {n : Int} (h : (Numeral.decimal n.natAbs).length ≤ Numeral.digitLimit) :
    ofToken (Numeral.signed n) = .ok (.number (.integer n)) := by
  simp only [ofToken, Number.read?_signed h]

theorem ofToken_boolean (b : Bool) : ofToken (if b then "true" else "false").toList = .ok (.boolean b) := by
  cases b
  · decide +kernel
  · decide +kernel

theorem ofToken_text {s : String} (hn : Number.read? s.toList = .ok none) (hb : boolean? s.toList = none) :
    ofToken s.toList = .ok (.text s) := by
  simp only [ofToken, hn, hb, String.ofList_toList]

theorem quote_not_mem_signed (n : Int) : '"' ∉ Numeral.signed n := by
  intro h
  exact absurd (Numeral.isDigit_of_mem_signed h) (by decide)

theorem ofValue_scalar {v : Scalar} {cs : List Char} (h : v.Printable cs) :
    ofValue (' ' :: Layout.scalar v) = .ok v := by
  have htrim : Text.trim (' ' :: Layout.scalar v) = Layout.scalar v :=
    (tight_scalar h).trim_append (show Text.allBlank [' '] = true by decide)
  rw [ofValue, htrim]
  match v, h with
  | .text s, _ => simp only [Layout.scalar, unquote?_quote, String.ofList_toList]
  | .number (.integer n), h => simp only [Layout.scalar, unquote?_of_not_mem (quote_not_mem_signed n), ofToken_signed h]
  | .boolean true, _ => exact ofToken_boolean true
  | .boolean false, _ => exact ofToken_boolean false

theorem isSome_shown? {v : Scalar} {cs : List Char} (h : v.Printable cs) : v.shown?.isSome = true := by
  match v, h with
  | .text s, _ => rfl
  | .number (.integer n), h => exact congrArg Option.isSome (if_pos h)
  | .boolean b, _ => rfl

/-! ## Attributes -/

/-- The raw text of a printed attribute's value. -/
def token : Scalar → List Char
  | .text s => s.toList
  | v => Layout.scalar v

theorem ofToken_token {e : String × Scalar} (h : PrintableAttribute e) : ofToken (token e.2) = .ok e.2 := by
  obtain ⟨k, v⟩ := e
  match v, h with
  | .text s, h => exact ofToken_text (h.bare s rfl).1 (h.bare s rfl).2
  | .number (.integer n), h => exact ofToken_signed h.value
  | .number (.float x), h => exact h.value.elim
  | .boolean b, _ => exact ofToken_boolean b

/-- The value of a printed attribute is written in quotes or bare. -/
theorem writesValue_scalar {v : Scalar} {cs : List Char} (h : v.Printable cs) (hq : '"' ∈ cs) :
    Attributes.WritesValue (token v) (Layout.scalar v) := by
  match v, h with
  | .text s, h => exact .quoted (h.not_mem hq)
  | .number (.integer n), _ =>
    have hblank : (Numeral.signed n).any Text.isBlank = false :=
      List.any_eq_false.2 fun c hc => by simp [Numeral.isBlank_of_mem_signed hc]
    exact .bare (Numeral.signed_ne_nil n) (fun h => quote_not_mem_signed n (List.mem_of_mem_head? h)) hblank
  | .boolean true, _ => exact .bare (by decide) (by decide) (by decide)
  | .boolean false, _ => exact .bare (by decide) (by decide) (by decide)

end Scalar

namespace Attributes

theorem writes_entries {es : List (String × Scalar)} (h : ∀ e ∈ es, PrintableAttribute e) :
    Writes (es.map fun e => ⟨e.1.toList, some (Scalar.token e.2)⟩) (es.flatMap Layout.entry) := by
  induction es with
  | nil => exact .nil rfl
  | cons e es ih =>
    have he : PrintableAttribute e := h e List.mem_cons_self
    have hitem := @WritesItem.pair _ _ _ _ [] [' '] (.quoted (he.key.not_mem (by decide)))
      (Scalar.writesValue_scalar he.value (by decide)) rfl rfl
    have hrest : (es.flatMap Layout.entry).head?.all Text.isBlank = true := by cases es <;> rfl
    have hwrites := @Writes.cons _ _ [' '] _ _ rfl hitem hrest (ih fun e' he' => h e' (List.mem_cons_of_mem _ he'))
    simpa [Layout.entry, Layout.quote] using hwrites

/-- Printed attributes end as they should: with a value. -/
theorem getLast?_flatMap_entry {es : List (String × Scalar)} (h : ∀ e ∈ es, PrintableAttribute e) :
    ∀ c, (es.flatMap Layout.entry).getLast? = some c → Text.isBlank c = false := by
  induction es with
  | nil => exact fun c h => by cases h
  | cons e es ih =>
    intro c hc
    have he : PrintableAttribute e := h e List.mem_cons_self
    rw [List.flatMap_cons] at hc
    cases es with
    | nil =>
      have : Layout.entry e = ' ' :: Layout.quote e.1 ++ [':', ' '] ++ Layout.scalar e.2 := by
        simp [Layout.entry]
      rw [List.flatMap_nil, List.append_nil, this,
        List.getLast?_append_of_ne_nil _ (Scalar.scalar_ne_nil he.value)] at hc
      exact (Scalar.tight_scalar he.value).last c hc
    | cons e' es =>
      have hne : (e' :: es).flatMap Layout.entry ≠ [] := List.cons_ne_nil ' ' _
      rw [List.getLast?_append_of_ne_nil _ hne] at hc
      exact ih (fun x hx => h x (List.mem_cons_of_mem _ hx)) c hc

theorem enter_token {e : String × Scalar} (h : PrintableAttribute e) (a : Attributes) :
    enter a ⟨e.1.toList, some (Scalar.token e.2)⟩ = .ok (a.insert e.1 e.2) := by
  simp only [enter, Scalar.ofToken_token h, String.ofList_toList]
  rfl

/-- **Printed attributes are read back**, after the blanks around them are off. -/
theorem read_entries {a : Attributes} (h : ∀ e ∈ a.entries, PrintableAttribute e) :
    read (Text.trim (a.entries.flatMap Layout.entry ++ [' '])) = .ok a := by
  have hitems : items (Text.trim (a.entries.flatMap Layout.entry ++ [' '])) =
      a.entries.map fun e => ⟨e.1.toList, some (Scalar.token e.2)⟩ := by
    rw [← items_of_writes (writes_entries h)]
    have hlast := getLast?_flatMap_entry h
    generalize a.entries = es at hlast
    cases es with
    | nil => rfl
    | cons e es =>
      obtain ⟨cs, hcs⟩ : ∃ cs, (e :: es).flatMap Layout.entry = ' ' :: '"' :: cs := ⟨_, rfl⟩
      have htight : Text.Tight ('"' :: cs) := by
        refine ⟨fun c hc => by cases hc; decide, fun c hc => hlast c ?_⟩
        rw [hcs, List.getLast?_cons_cons]
        exact hc
      have htrim := @Text.Tight.trim_around _ htight [' '] [' '] (by decide) (by decide)
      rw [hcs, ← items_trimStart (' ' :: '"' :: cs)]
      exact congrArg items htrim
  rw [read, hitems]
  exact ofItems_map fun e he => enter_token (h e he)

end Attributes

/-! ## Lines -/

namespace Line

theorem takeWhile_word {s : String} (h : IsWord s) {c : Char} (hc : isWordChar c = false) (rest : List Char) :
    (s.toList ++ c :: rest).takeWhile isWordChar = s.toList ∧
      (s.toList ++ c :: rest).dropWhile isWordChar = c :: rest := by
  rw [List.takeWhile_append_of_pos h.2, List.dropWhile_append_of_pos h.2,
    List.takeWhile_cons_of_neg (by simp [hc]), List.dropWhile_cons_of_neg (by simp [hc]), List.append_nil]
  exact ⟨rfl, rfl⟩

theorem ref?_word {s : String} (h : IsWord s) (rest : List Char) : ref? (s.toList ++ rest) = none := by
  obtain ⟨hne, hall⟩ := h
  obtain ⟨c, cs, hcs⟩ := List.exists_cons_of_ne_nil hne
  have hc : '@' ≠ c := (ne_of_isWordChar (hall c (hcs ▸ List.mem_cons_self)) (by decide)).symm
  have : Text.after? importMark (c :: (cs ++ rest)) = none := if_neg hc
  rw [ref?, hcs, List.cons_append, this]
  rfl

theorem func?_word {s : String} (h : IsWord s) {c : Char} (hc : isWordChar c = false) (hp : c ≠ '(')
    (rest : List Char) : func? (s.toList ++ c :: rest) = none := by
  rw [func?, (takeWhile_word h hc rest).2]
  split
  · next h => cases h; exact absurd rfl hp
  · rfl

theorem isEmpty_word {s : String} (h : IsWord s) : s.toList.isEmpty = false := by
  simpa using h.1

theorem tight_word {s : String} (h : IsWord s) : Text.Tight s.toList :=
  .of_forall fun c hc => Text.isBlank_of_isWordChar (h.2 c hc)

/-! ### Properties -/

theorem cut?_append {sep : Char} {cs : List Char} (h : sep ∉ cs) (rest : List Char) :
    Text.cut? sep (cs ++ sep :: rest) = some (cs, rest) := by
  induction cs with
  | nil => exact if_pos rfl
  | cons c cs ih =>
    simp only [List.mem_cons, not_or] at h
    rw [List.cons_append, Text.cut?, if_neg (Ne.symm h.1), ih h.2]
    rfl

theorem isBrace_not_mem_scalar {v : Scalar} {cs : List Char} (h : v.Printable cs) {b : Char}
    (hbrace : isBrace b = true) (hb : b ∈ cs) : b ∉ Layout.scalar v := by
  have hb' : b = '{' ∨ b = '}' := by simpa [isBrace] using hbrace
  match v, h with
  | .text s, h =>
    have hquote : b ≠ '"' := by rcases hb' with rfl | rfl <;> decide
    simpa [Layout.scalar, Layout.quote, hquote] using h.not_mem hb
  | .number (.integer n), _ =>
    intro hm
    have := Numeral.isDigit_of_mem_signed hm
    rcases hb' with rfl | rfl <;> exact absurd this (by decide)
  | .boolean true, _ => rcases hb' with rfl | rfl <;> decide
  | .boolean false, _ => rcases hb' with rfl | rfl <;> decide

/-- **A printed property** is read as one. -/
theorem read_propLine {name : String} {value : Scalar} {cs : List Char} (h : IsWord name)
    (hv : value.Printable cs) (hb : '{' ∈ cs) :
    read (Layout.propLine name value) = .prop name.toList (' ' :: Layout.scalar value) := by
  have hbrace : (name.toList ++ ':' :: ' ' :: Layout.scalar value).contains '{' = false := by
    have hname : '{' ∉ name.toList := fun hm => ne_of_isWordChar (h.2 _ hm) (by decide) rfl
    simp [hname, isBrace_not_mem_scalar hv (by decide) hb]
  have hcolon : ':' ∉ name.toList := fun hm => ne_of_isWordChar (h.2 _ hm) (by decide) rfl
  rw [read, Layout.propLine, ref?_word h, func?_word h (by decide) (by decide), sect?, hbrace, prop?,
    cut?_append hcolon]
  simp [(tight_word h).trim_eq]

/-! ### Imports -/

/-- **A printed import** is read as one, deferred or not. -/
theorem read_refLine (y : Layout) {path : String} (h : Lacks path ['"', '\x27', '\\', '\n'])
    (htrim : Text.trim path.toList = path.toList) :
    read (y.refLine path) = .ref path.toList y.deferred := by
  have hclean : cleanPath (Layout.quote path) = path.toList := by
    have hquote : '"' ∉ path.toList := h.not_mem (by decide)
    have hsingle : '\x27' ∉ path.toList := h.not_mem (by decide)
    have hall : ∀ c ∈ path.toList, (!(c == '"' || c == '\x27')) = true := by
      intro c hc
      have h₁ : c ≠ '"' := fun e => hquote (e ▸ hc)
      have h₂ : c ≠ '\x27' := fun e => hsingle (e ▸ hc)
      simp [h₁, h₂]
    have : Text.without (fun c => c == '"' || c == '\x27') (Layout.quote path) = path.toList := by
      rw [Text.without, Layout.quote, List.filter_append, List.filter_cons_of_neg (by decide),
        List.filter_eq_self.2 hall]
      simp
    rw [cleanPath, this, htrim]
  cases hy : y.deferred with
  | false =>
    have hmark : Text.after? importMark (importMark ++ Layout.quote path) = some (Layout.quote path) := rfl
    have hword : afterKeyword (Layout.quote path) = Layout.quote path := rfl
    have hdeferred : (Text.after? deferredMark (importMark ++ Layout.quote path)).isSome = false := rfl
    simp only [Layout.refLine, hy, Bool.false_eq_true, if_false, read, ref?, hmark, Option.map_some, hword, hclean,
      hdeferred]
    rfl
  | true =>
    have hmark : Text.after? importMark (deferredMark ++ Layout.quote path) =
        some ("nonfinal ".toList ++ Layout.quote path) := rfl
    have hword : afterKeyword ("nonfinal ".toList ++ Layout.quote path) = Layout.quote path := rfl
    have hdeferred : (Text.after? deferredMark (deferredMark ++ Layout.quote path)).isSome = true := rfl
    simp only [Layout.refLine, hy, if_true, read, ref?, hmark, Option.map_some, hword, hclean, hdeferred]
    rfl

/-! ### Functions -/

theorem closesHeader_printed {cs : List Char} (h : '\n' ∉ cs) : closesHeader (cs ++ [')', ' ', '{']) = true := by
  have hlast : (cs ++ [')', ' ', '{']).getLast? = some '{' := by simp
  have hdrop : (cs ++ [')', ' ', '{']).dropLast = cs ++ [')'] ++ [' '] := by simp
  have htrim : Text.trimEnd (cs ++ [')'] ++ [' ']) = cs ++ [')'] := by
    rw [Text.trimEnd_append (by decide)]
    refine Text.trimEnd_of_last fun c hc => ?_
    rw [List.getLast?_concat] at hc
    cases hc
    decide
  simp only [closesHeader, hlast, if_true, hdrop, htrim]
  simpa using h

theorem arguments_joined {arguments : List String} (h : ∀ a ∈ arguments, IsWord a) :
    Line.arguments (Text.joined ',' (Layout.argumentPieces arguments)) = arguments.map String.toList := by
  cases arguments with
  | nil => rfl
  | cons a as =>
    have hcomma : ∀ s : String, IsWord s → ',' ∉ s.toList :=
      fun s hs hm => ne_of_isWordChar (hs.2 _ hm) (by decide) rfl
    have hpieces : Text.pieces ',' (Text.joined ',' (Layout.argumentPieces (a :: as))) =
        Layout.argumentPieces (a :: as) := by
      refine Text.pieces_joined (List.cons_ne_nil _ _) (List.forall_mem_cons.2 ⟨?_, fun p hp => ?_⟩)
      · exact hcomma a (h a List.mem_cons_self)
      · obtain ⟨b, hb, rfl⟩ := List.mem_map.1 hp
        simpa using hcomma b (h b (List.mem_cons_of_mem _ hb))
    have htrim : (Layout.argumentPieces (a :: as)).map Text.trim = (a :: as).map String.toList := by
      rw [Layout.argumentPieces, List.map_cons, List.map_map, (tight_word (h a List.mem_cons_self)).trim_eq,
        List.map_cons]
      exact congrArg _ (List.map_congr_left fun b hb =>
        (tight_word (h b (List.mem_cons_of_mem _ hb))).trim_append (show Text.allBlank [' '] = true by decide))
    rw [Line.arguments, hpieces, htrim, List.filter_eq_self]
    intro p hp
    obtain ⟨b, hb, rfl⟩ := List.mem_map.1 hp
    rw [isEmpty_word (h b hb)]
    rfl

/-- **A printed function header** is read as one that opens its body. -/
theorem read_funcHeader {name : String} {arguments : List String} (h : IsWord name)
    (ha : ∀ a ∈ arguments, IsWord a) :
    read (Layout.funcHeader name arguments) = .func name.toList (arguments.map String.toList) true := by
  have hline : '\n' ∉ Text.joined ',' (Layout.argumentPieces arguments) :=
    fun hm => absurd (Layout.mem_arguments ha hm) (by decide)
  have hparen : ∀ c ∈ Text.joined ',' (Layout.argumentPieces arguments), (c != ')') = true := by
    refine fun c hc => bne_iff_ne.2 ?_
    rintro rfl
    exact absurd (Layout.mem_arguments ha hc) (by decide)
  have hheader : Layout.funcHeader name arguments =
      name.toList ++ '(' :: (Text.joined ',' (Layout.argumentPieces arguments) ++ [')', ' ', '{']) := by
    simp [Layout.funcHeader]
  have hopened : (Layout.funcHeader name arguments).contains '{' = true := by simp [Layout.funcHeader]
  have htake : (Text.joined ',' (Layout.argumentPieces arguments) ++ [')', ' ', '{']).takeWhile (· != ')') =
      Text.joined ',' (Layout.argumentPieces arguments) := by
    rw [List.takeWhile_append_of_pos hparen]
    simp
  have hfunc : func? (Layout.funcHeader name arguments) =
      some (.func name.toList (arguments.map String.toList) true) := by
    rw [func?, hopened, hheader, (takeWhile_word h (by decide) _).1, (takeWhile_word h (by decide) _).2]
    simp only [isEmpty_word h, closesHeader_printed hline, Bool.not_false, Bool.and_self, if_true, htake,
      arguments_joined ha]
  rw [read, hfunc, hheader, ref?_word h]
  rfl

/-! ### Sections -/

theorem isBrace_not_mem_entry {e : String × Scalar} (h : PrintableAttribute e) :
    ∀ c ∈ Layout.entry e, (!isBrace c) = true := by
  have hkey : ∀ c ∈ e.1.toList, (!isBrace c) = true := by
    intro c hc
    have h₁ : c ≠ '{' := fun e' => h.key.not_mem (show '{' ∈ _ by decide) (e' ▸ hc)
    have h₂ : c ≠ '}' := fun e' => h.key.not_mem (show '}' ∈ _ by decide) (e' ▸ hc)
    simp [isBrace, h₁, h₂]
  have hvalue : ∀ c ∈ Layout.scalar e.2, (!isBrace c) = true := by
    intro c hc
    have h₁ : c ≠ '{' := fun e' => isBrace_not_mem_scalar h.value (by decide) (by decide) (e' ▸ hc)
    have h₂ : c ≠ '}' := fun e' => isBrace_not_mem_scalar h.value (by decide) (by decide) (e' ▸ hc)
    simp [isBrace, h₁, h₂]
  intro c hc
  simp only [Layout.entry, Layout.quote, List.cons_append, List.mem_cons, List.mem_append, List.append_assoc,
    List.not_mem_nil, false_or] at hc
  rcases hc with rfl | rfl | hc | rfl | rfl | rfl | hc
  · decide
  · decide
  · exact hkey c hc
  · decide
  · decide
  · decide
  · exact hvalue c hc

/-- **A printed section header** is read as one, with its attributes as they were printed. -/
theorem read_sectHeader {name : String} {attributes : Attributes} (h : IsWord name)
    (ha : ∀ e ∈ attributes.entries, PrintableAttribute e) :
    read (Layout.sectHeader name attributes) =
      .sect name.toList (Text.trim (attributes.entries.flatMap Layout.entry ++ [' '])) := by
  -- what follows the name begins with a space, be it that of an attribute or the last one
  obtain ⟨tail, htail⟩ : ∃ tail, attributes.entries.flatMap Layout.entry ++ [' ', '{'] = ' ' :: tail := by
    cases attributes.entries with
    | nil => exact ⟨_, rfl⟩
    | cons e es => exact ⟨_, rfl⟩
  have hheader : Layout.sectHeader name attributes = name.toList ++ ' ' :: tail := by
    rw [Layout.sectHeader, List.append_assoc, htail]
  have hbrace : (Layout.sectHeader name attributes).contains '{' = true := by simp [Layout.sectHeader]
  have hname : ∀ c ∈ name.toList, (c != ' ') = true :=
    fun c hc => bne_iff_ne.2 (ne_of_isWordChar (h.2 c hc) (by decide))
  have htake : (name.toList ++ ' ' :: tail).takeWhile (· != ' ') = name.toList := by
    rw [List.takeWhile_append_of_pos hname]
    simp
  have hdrop : (name.toList ++ ' ' :: tail).dropWhile (· != ' ') = ' ' :: tail := by
    rw [List.dropWhile_append_of_pos hname]
    simp
  have hwithout : Text.without isBrace (' ' :: tail) = attributes.entries.flatMap Layout.entry ++ [' '] := by
    have hall : ∀ c ∈ attributes.entries.flatMap Layout.entry, (!isBrace c) = true := by
      intro c hc
      obtain ⟨e, he, hc⟩ := List.mem_flatMap.1 hc
      exact isBrace_not_mem_entry (ha e he) c hc
    rw [← htail, Text.without, List.filter_append, List.filter_eq_self.2 hall]
    rfl
  have hsect : sect? (Layout.sectHeader name attributes) =
      some (.sect name.toList (Text.trim (attributes.entries.flatMap Layout.entry ++ [' ']))) := by
    rw [sect?, if_pos hbrace, hheader, htake, hdrop, hwithout]
  rw [read, hsect, hheader, ref?_word h, func?_word h (by decide) (by decide)]
  rfl

end Line

end DefTree
