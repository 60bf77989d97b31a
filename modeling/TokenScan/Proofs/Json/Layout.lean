import TokenScan.Proofs.Json.RoundTrip

/-!
# The characters of serialized text

Serialized text consists of three kinds of pieces: *marks*, which are single printable characters
that are neither quotes nor spaces; string literals; and blanks of its layout. `Laid` says so, and
it says at the same time what is left of a text when the blanks are taken out. The grammar knows
nothing of values, so whatever holds of every text of this form is proved by induction over its
pieces: which characters occur in it (`Laid.shown`), that a line breaks only between literals
(`Laid.after_of_newline`), and that it is the bare text behind it once it is stripped
(`Laid.strip_eq`).

What has to be proved about values is only that they are written in such pieces, and that the bare
text depends neither on the layout nor on the level (`exists_bare`). Two layouts of one value then
strip to the same text, and they never have to be compared with each other.

Stripping a text takes more than looking at single characters, since a space in a literal is no
blank. `Place` follows a text from the left and knows whether a character stands in a literal, and
whether a backslash before it takes away its meaning.
-/

namespace TokenScan.Json

/-! ### Inside and outside of literals -/

/-- Where in a serialized text a character stands. -/
inductive Place where
  /-- Between string literals. -/
  | outside
  /-- In a string literal. -/
  | inside
  /-- In a string literal, behind the backslash that starts an escape. -/
  | escaped
  deriving DecidableEq, Repr

namespace Place

/-- The place behind a character. -/
def next : Place → Char → Place
  | outside, c => if c = '"' then inside else outside
  | inside, c => if c = '"' then outside else if c = '\\' then escaped else inside
  | escaped, _ => inside

/-- The place behind a text. -/
def after (p : Place) (text : List Char) : Place := text.foldl next p

theorem after_cons (p : Place) (c : Char) (text : List Char) :
    p.after (c :: text) = (p.next c).after text := rfl

theorem after_append (p : Place) (text behind : List Char) :
    p.after (text ++ behind) = (p.after text).after behind := List.foldl_append

end Place

/-- A text from a place on, without the blanks outside its string literals. -/
def stripFrom : Place → List Char → List Char
  | _, [] => []
  | p, c :: cs =>
    if p = .outside ∧ isSpace c then stripFrom (p.next c) cs else c :: stripFrom (p.next c) cs

/-- **A text without the blanks outside its string literals.** -/
def strip (text : List Char) : List Char := stripFrom .outside text

section Strip

variable {p : Place} {c : Char} {cs : List Char}

theorem stripFrom_of_ne (hp : p ≠ .outside) :
    stripFrom p (c :: cs) = c :: stripFrom (p.next c) cs := by
  rw [stripFrom, if_neg fun h ↦ hp h.1]

theorem stripFrom_of_not_space (hc : isSpace c = false) :
    stripFrom p (c :: cs) = c :: stripFrom (p.next c) cs := by
  rw [stripFrom, if_neg (by simp [hc])]

/-- A blank opens no literal. -/
theorem next_outside_of_isSpace (hc : isSpace c = true) : Place.outside.next c = .outside := by
  refine if_neg ?_
  rintro rfl
  exact absurd hc (by decide)

theorem strip_of_space (hc : isSpace c = true) : strip (c :: cs) = strip cs := by
  rw [strip, stripFrom, if_pos ⟨rfl, hc⟩, next_outside_of_isSpace hc, strip]

end Strip

/-- A piece without a line feed lies as a whole before every line feed behind it. -/
theorem exists_before_of_not_mem {piece rest before behind : List Char} (hpiece : '\n' ∉ piece)
    (h : piece ++ rest = before ++ '\n' :: behind) :
    ∃ more, before = piece ++ more ∧ rest = more ++ '\n' :: behind := by
  rcases List.append_eq_append_iff.1 h with hmore | ⟨more, hbefore, hbehind⟩
  · exact hmore
  · rcases more with _ | ⟨c, more⟩
    · exact ⟨[], by rw [hbefore, List.append_nil, List.append_nil], hbehind.symm⟩
    · obtain ⟨rfl, -⟩ := List.cons.inj hbehind
      exact absurd (hbefore ▸ List.mem_append_right before List.mem_cons_self) hpiece

/-! ### Literals -/

/-- **What stands between the quotes of a literal**: printable characters, and pairs of a backslash
and a printable character. A quote or a backslash stands only in a pair. -/
inductive LiteralBody : List Char → Prop
  | nil : LiteralBody []
  | plain {c : Char} {body : List Char} (hc : isPrintable c = true) (hquote : c ≠ '"')
    (hbackslash : c ≠ '\\') (h : LiteralBody body) : LiteralBody (c :: body)
  | escape {c : Char} {body : List Char} (hc : isPrintable c = true) (h : LiteralBody body) :
    LiteralBody ('\\' :: c :: body)

namespace LiteralBody

variable {body : List Char}

theorem append {more : List Char} (h : LiteralBody body) (hmore : LiteralBody more) :
    LiteralBody (body ++ more) := by
  induction h with
  | nil => exact hmore
  | plain hc hquote hbackslash _ ih => exact .plain hc hquote hbackslash ih
  | escape hc _ ih => exact .escape hc ih

theorem isPrintable (h : LiteralBody body) : ∀ c ∈ body, isPrintable c = true := by
  induction h with
  | nil => simp
  | plain hc _ _ _ ih => exact List.forall_mem_cons.2 ⟨hc, ih⟩
  | escape hc _ ih => exact List.forall_mem_cons.2 ⟨rfl, List.forall_mem_cons.2 ⟨hc, ih⟩⟩

/-- A body does not end its literal. -/
theorem after_inside (h : LiteralBody body) : Place.inside.after body = .inside := by
  induction h with
  | nil => rfl
  | plain hc hquote hbackslash _ ih =>
    rw [Place.after_cons, Place.next, if_neg hquote, if_neg hbackslash, ih]
  | escape hc _ ih => exact ih

/-- Behind the closing quote of a literal it is as if the literal were not there. -/
theorem after_outside (h : LiteralBody body) (behind : List Char) :
    Place.outside.after ('"' :: (body ++ '"' :: behind)) = Place.outside.after behind := by
  show Place.inside.after (body ++ '"' :: behind) = _
  rw [Place.after_append, h.after_inside]
  rfl

/-- Nothing is stripped from a body, and the closing quote is found behind it. -/
theorem stripFrom_append (h : LiteralBody body) (text : List Char) :
    stripFrom .inside (body ++ '"' :: text) = body ++ '"' :: strip text := by
  induction h with
  | nil => exact stripFrom_of_ne (by decide)
  | plain hc hquote hbackslash _ ih =>
    rw [List.cons_append, stripFrom_of_ne (by decide), Place.next, if_neg hquote,
      if_neg hbackslash, ih, List.cons_append]
  | escape hc _ ih =>
    rw [List.cons_append, List.cons_append, stripFrom_of_ne (by decide)]
    show '\\' :: stripFrom .escaped _ = _
    rw [stripFrom_of_ne (by decide), Place.next, ih]
    rfl

end LiteralBody

/-- Hexadecimal digits are plain characters. -/
theorem literalBody_hexDigits_append (w n : ℕ) {body : List Char} (h : LiteralBody body) :
    LiteralBody (hexDigits w n ++ body) := by
  have hall : ∀ d < 16, isPrintable (Nat.digitChar d) = true ∧ Nat.digitChar d ≠ '"' ∧
      Nat.digitChar d ≠ '\\' := by decide
  induction w generalizing n body with
  | zero => exact h
  | succ w ih =>
    obtain ⟨hc, hquote, hbackslash⟩ := hall (n % 16) (Nat.mod_lt n (by decide))
    rw [hexDigits, List.append_assoc]
    exact ih (n / 16) (.plain hc hquote hbackslash h)

theorem literalBody_unitEscape (u : ℕ) : LiteralBody (unitEscape u) := by
  have hdigits := literalBody_hexDigits_append 4 u .nil
  rw [List.append_nil] at hdigits
  exact .escape (by decide) hdigits

/-- **Every character is written as part of a body.** -/
theorem literalBody_escapeChar (c : Char) : LiteralBody (escapeChar c) := by
  by_cases hshort : c ∈ shortEscapes.map Prod.fst
  · obtain ⟨e, he, rfl⟩ := List.mem_map.1 hshort
    have hletter : ∀ e ∈ shortEscapes, isPrintable e.2 = true := by decide
    rw [(escapeChar_of_mem_shortEscapes e he).1]
    exact .escape (hletter e he) .nil
  · rw [escapeChar_of_not_mem hshort]
    split_ifs with hprintable hsmall
    · refine .plain hprintable ?_ ?_ .nil
      · rintro rfl
        exact hshort (by decide)
      · rintro rfl
        exact hshort (by decide)
    · exact literalBody_unitEscape _
    · exact (literalBody_unitEscape _).append (literalBody_unitEscape _)

theorem literalBody_flatMap_escapeChar (cs : List Char) :
    LiteralBody (cs.flatMap escapeChar) := by
  induction cs with
  | nil => exact .nil
  | cons c cs ih =>
    rw [List.flatMap_cons]
    exact (literalBody_escapeChar c).append ih

/-! ### Texts in pieces -/

/-- A character that stands for itself outside the literals. -/
def isMark (c : Char) : Bool := isPrintable c && c != ' ' && c != '"'

theorem isMark_iff {c : Char} :
    isMark c = true ↔ isPrintable c = true ∧ c ≠ ' ' ∧ c ≠ '"' := by
  simp [isMark, and_assoc]

theorem next_outside_of_isMark {c : Char} (hc : isMark c = true) :
    Place.outside.next c = .outside := by
  rw [Place.next, if_neg (isMark_iff.1 hc).2.2]

theorem isSpace_eq_false_of_isMark {c : Char} (hc : isMark c = true) : isSpace c = false := by
  obtain ⟨hprintable, hspace, -⟩ := isMark_iff.1 hc
  have hother : ∀ x ∈ ['\t', '\n', '\r'], c ≠ x := by
    rintro x hx rfl
    have hall : ∀ x ∈ ['\t', '\n', '\r'], isPrintable x = false := by decide
    rw [hall c hx] at hprintable
    exact Bool.false_ne_true hprintable
  simp [isSpace, hspace, hother]

/-- The blanks that a layout uses. -/
def Layout.blanks : Layout → List Char
  | .compact => [' ']
  | .indented _ => [' ', '\n']

theorem Layout.isSpace_of_mem_blanks {layout : Layout} {c : Char} (hc : c ∈ layout.blanks) :
    isSpace c = true := by
  have hall : ∀ c ∈ [' ', '\n'], isSpace c = true := by decide
  rcases layout with _ | _
  · exact hall c (List.mem_cons.2 (.inl (List.mem_singleton.1 hc)))
  · exact hall c hc

/-- **A bare text and the same text in a layout**, piece by piece. Blanks stand between the pieces
only. -/
inductive Laid (layout : Layout) : List Char → List Char → Prop
  | nil : Laid layout [] []
  | mark {c : Char} {bare text : List Char} (hc : isMark c = true) (h : Laid layout bare text) :
    Laid layout (c :: bare) (c :: text)
  | blank {c : Char} {bare text : List Char} (hc : c ∈ layout.blanks) (h : Laid layout bare text) :
    Laid layout bare (c :: text)
  | literal {body bare text : List Char} (hbody : LiteralBody body) (h : Laid layout bare text) :
    Laid layout ('"' :: (body ++ '"' :: bare)) ('"' :: (body ++ '"' :: text))

namespace Laid

variable {layout : Layout} {bare text : List Char}

theorem append {bare' text' : List Char} (h : Laid layout bare text)
    (h' : Laid layout bare' text') : Laid layout (bare ++ bare') (text ++ text') := by
  induction h with
  | nil => exact h'
  | mark hc _ ih => exact .mark hc ih
  | blank hc _ ih => exact .blank hc ih
  | literal hbody _ ih =>
    simp only [List.cons_append, List.append_assoc]
    exact .literal hbody ih

theorem of_marks {marks : List Char} (h : ∀ c ∈ marks, isMark c = true) :
    Laid layout marks marks := by
  induction marks with
  | nil => exact .nil
  | cons c marks ih =>
    rw [List.forall_mem_cons] at h
    exact .mark h.1 (ih h.2)

theorem of_blanks {blanks : List Char} (h : ∀ c ∈ blanks, c ∈ layout.blanks) :
    Laid layout [] blanks := by
  induction blanks with
  | nil => exact .nil
  | cons c blanks ih =>
    rw [List.forall_mem_cons] at h
    exact .blank h.1 (ih h.2)

theorem of_string (s : String) : Laid layout (stringText s) (stringText s) :=
  .literal (literalBody_flatMap_escapeChar s.toList) .nil

/-! ### What holds of every text in pieces -/

/-- **Which characters occur.** -/
theorem shown (h : Laid layout bare text) :
    ∀ c ∈ text, isPrintable c = true ∨ c ∈ layout.blanks := by
  induction h with
  | nil => simp
  | mark hc _ ih => exact List.forall_mem_cons.2 ⟨.inl (isMark_iff.1 hc).1, ih⟩
  | blank hc _ ih => exact List.forall_mem_cons.2 ⟨.inr hc, ih⟩
  | literal hbody _ ih =>
    refine List.forall_mem_cons.2 ⟨.inl rfl, List.forall_mem_append.2 ⟨fun c hc ↦ ?_, ?_⟩⟩
    · exact .inl (hbody.isPrintable c hc)
    · exact List.forall_mem_cons.2 ⟨.inl rfl, ih⟩

/-- **Stripping gives the bare text.** -/
theorem strip_eq (h : Laid layout bare text) : strip text = bare := by
  induction h with
  | nil => rfl
  | mark hc _ ih =>
    rw [strip, stripFrom_of_not_space (isSpace_eq_false_of_isMark hc), next_outside_of_isMark hc]
    exact congrArg (List.cons _) ih
  | blank hc _ ih =>
    rw [strip_of_space (Layout.isSpace_of_mem_blanks hc), ih]
  | literal hbody _ ih =>
    rw [strip, stripFrom_of_not_space (by decide)]
    show '"' :: stripFrom .inside _ = _
    rw [hbody.stripFrom_append, ih]

/-- **A line breaks only between literals.** -/
theorem after_of_newline (h : Laid layout bare text) {before behind : List Char}
    (htext : text = before ++ '\n' :: behind) : Place.outside.after before = .outside := by
  induction h generalizing before with
  | nil => exact absurd htext.symm (by simp)
  | mark hc _ ih =>
    rcases before with _ | ⟨d, before⟩
    · rfl
    · obtain ⟨rfl, hbehind⟩ := List.cons.inj htext
      rw [Place.after_cons, next_outside_of_isMark hc]
      exact ih hbehind
  | blank hc _ ih =>
    rcases before with _ | ⟨d, before⟩
    · rfl
    · obtain ⟨rfl, hbehind⟩ := List.cons.inj htext
      rw [Place.after_cons, next_outside_of_isSpace (Layout.isSpace_of_mem_blanks hc)]
      exact ih hbehind
  | @literal body bare text hbody _ ih =>
    -- no line feed is printable, so the literal lies before it as a whole
    have hpiece : '\n' ∉ '"' :: (body ++ ['"']) := by
      intro hmem
      exact absurd (hbody.isPrintable '\n' (by simpa using hmem)) (by decide)
    have hsplit : '"' :: (body ++ ['"']) ++ text = before ++ '\n' :: behind := by
      simpa using htext
    obtain ⟨more, rfl, hmore⟩ := exists_before_of_not_mem hpiece hsplit
    rw [List.cons_append, List.append_assoc, List.singleton_append, hbody.after_outside]
    exact ih hmore

end Laid

/-! ### What is written -/

section Written

variable (layout : Layout) (depth : ℕ)

theorem laid_lineBreak : Laid layout [] (layout.lineBreak depth) := by
  refine .of_blanks fun c hc ↦ ?_
  rcases layout with _ | width
  · exact absurd hc List.not_mem_nil
  · rcases List.mem_cons.1 hc with rfl | hc
    · exact List.mem_cons_of_mem _ List.mem_cons_self
    · rw [List.eq_of_mem_replicate hc]
      exact List.mem_cons_self

theorem laid_separator : Laid layout [','] (layout.separator depth) := by
  rcases layout with _ | width
  · exact .mark rfl (.blank (by decide) .nil)
  · exact .mark rfl (laid_lineBreak (.indented width) depth)

end Written

/-! ### Numbers -/

theorem isMark_of_isDigit {c : Char} (h : c.isDigit = true) : isMark c = true := by
  have hcode := Grammar.isDigit_iff_toNat.1 h
  refine isMark_iff.2 ⟨?_, ?_, ?_⟩
  · simp only [isPrintable, Bool.and_eq_true, decide_eq_true_eq]
    omega
  · rintro rfl
    exact absurd hcode (by decide)
  · rintro rfl
    exact absurd hcode (by decide)

theorem isMark_of_mem_natText (n : ℕ) : ∀ c ∈ natText n, isMark c = true :=
  fun _ hc ↦ isMark_of_isDigit (isDigit_of_mem_natText hc)

theorem isMark_of_mem_intText (n : ℤ) : ∀ c ∈ intText n, isMark c = true := by
  rcases intText_cases n with ⟨htext, -⟩ | ⟨htext, -⟩
  · rw [htext]
    exact isMark_of_mem_natText n.natAbs
  · rw [htext, List.forall_mem_cons]
    exact ⟨rfl, isMark_of_mem_natText n.natAbs⟩

theorem isMark_of_mem_zeros (n : ℕ) : ∀ c ∈ List.replicate n '0', isMark c = true :=
  fun _ hc ↦ List.eq_of_mem_replicate hc ▸ rfl

section Digits

variable {ds : List Char} (hds : ∀ c ∈ ds, isMark c = true) (e : ℤ)
include hds

theorem isMark_of_mem_positionalText : ∀ c ∈ positionalText ds e, isMark c = true := by
  rw [positionalText]
  split_ifs
  · simp only [List.forall_mem_cons, List.forall_mem_append]
    exact ⟨rfl, rfl, isMark_of_mem_zeros _, hds⟩
  · simp only [List.forall_mem_cons, List.forall_mem_append]
    refine ⟨⟨fun c hc ↦ hds c (List.mem_of_mem_take hc), isMark_of_mem_zeros _⟩, rfl, ?_⟩
    split_ifs
    · exact isMark_of_mem_zeros 1
    · exact fun c hc ↦ hds c (List.mem_of_mem_drop hc)

theorem isMark_of_mem_scientificText (width : ℕ) :
    ∀ c ∈ scientificText width ds e, isMark c = true := by
  rw [scientificText]
  simp only [List.forall_mem_cons, List.forall_mem_append]
  refine ⟨⟨fun c hc ↦ hds c (List.mem_of_mem_take hc), ?_⟩, rfl, ?_, isMark_of_mem_zeros _,
    isMark_of_mem_natText _⟩
  · split_ifs
    · simp
    · exact List.forall_mem_cons.2 ⟨rfl, fun c hc ↦ hds c (List.mem_of_mem_drop hc)⟩
  · split_ifs
    · rfl
    · rfl

end Digits

theorem isMark_of_mem_layOut (format : DecimalFormat) (d : Decimal) :
    ∀ c ∈ format.layOut d, isMark c = true := by
  have hds : ∀ c ∈ ((natText d.significand).reverse.dropWhile (· == '0')).reverse,
      isMark c = true := by
    intro c hc
    have hmem := (List.dropWhile_sublist _).subset (List.mem_reverse.1 hc)
    exact isMark_of_mem_natText _ c (List.mem_reverse.1 hmem)
  simp only [DecimalFormat.layOut]
  split_ifs
  · exact isMark_of_mem_positionalText hds _
  · exact isMark_of_mem_scientificText hds _ _

/-- Floats are written in marks, also those that are no numbers. -/
theorem isMark_of_mem_floatText (x : Float) :
    ∀ c ∈ floatText .serialized x, isMark c = true := by
  have hsign (negative : Bool) : ∀ c ∈ if negative then ['-'] else [], isMark c = true := by
    cases negative <;> decide
  rw [floatText]
  rcases FloatValue.ofFloat x with _ | negative | ⟨negative, m, q⟩
  · decide
  · exact List.forall_mem_append.2 ⟨hsign negative, by decide⟩
  · refine List.forall_mem_append.2 ⟨hsign negative, ?_⟩
    split_ifs
    · decide
    · exact isMark_of_mem_layOut _ _

/-! ### Values -/

/-- **Induction over a value**, through its items and fields. -/
theorem induction_on {motive : Json → Prop} (v : Json) (null : motive .null)
    (bool : ∀ b, motive (.bool b)) (int : ∀ n, motive (.int n)) (float : ∀ x, motive (.float x))
    (str : ∀ s, motive (.str s)) (arr : ∀ items, (∀ v ∈ items, motive v) → motive (.arr items))
    (obj : ∀ fields : Fields, (∀ f ∈ fields, motive f.2) → motive (.obj fields)) : motive v :=
  @Json.rec motive (fun items ↦ ∀ v ∈ items, motive v) (fun fields ↦ ∀ f ∈ fields, motive f.2)
    (fun f ↦ motive f.2) null bool int float str arr obj (by simp)
    (fun _ _ h hs ↦ List.forall_mem_cons.2 ⟨h, hs⟩) (by simp)
    (fun _ _ h hs ↦ List.forall_mem_cons.2 ⟨h, hs⟩) (fun _ _ h ↦ h) v

/-- Items that are written in pieces are so one behind the other. -/
theorem exists_bare_items {items : List Json}
    (h : ∀ v ∈ items, ∃ bare, ∀ layout depth, Laid layout bare (print layout depth v)) :
    ∃ bare, ∀ layout depth, Laid layout bare (printItems layout depth items) := by
  induction items with
  | nil => exact ⟨[], fun _ _ ↦ .nil⟩
  | cons v vs ih =>
    rw [List.forall_mem_cons] at h
    obtain ⟨bare, hv⟩ := h.1
    obtain ⟨bares, hvs⟩ := ih h.2
    refine ⟨[','] ++ bare ++ bares, fun layout depth ↦ ?_⟩
    exact ((laid_separator layout depth).append (hv layout depth)).append (hvs layout depth)

/-- A field is written in pieces if its value is. -/
theorem laid_field {layout : Layout} {bare text : List Char} (name : String)
    (h : Laid layout bare text) :
    Laid layout (stringText name ++ ':' :: bare) (stringText name ++ ':' :: ' ' :: text) := by
  have hblank : ' ' ∈ layout.blanks := by
    rcases layout with _ | _ <;> exact List.mem_cons_self
  exact (Laid.of_string name).append (.mark rfl (.blank hblank h))

theorem exists_bare_fields {fields : Fields}
    (h : ∀ f ∈ fields, ∃ bare, ∀ layout depth, Laid layout bare (print layout depth f.2)) :
    ∃ bare, ∀ layout depth, Laid layout bare (printFields layout depth fields) := by
  induction fields with
  | nil => exact ⟨[], fun _ _ ↦ .nil⟩
  | cons f fields ih =>
    obtain ⟨name, v⟩ := f
    rw [List.forall_mem_cons] at h
    obtain ⟨bare, hv⟩ := h.1
    obtain ⟨bares, hfields⟩ := ih h.2
    refine ⟨[','] ++ (stringText name ++ ':' :: bare) ++ bares, fun layout depth ↦ ?_⟩
    have hfield := laid_field name (hv layout depth)
    have hlaid := ((laid_separator layout depth).append hfield).append (hfields layout depth)
    simpa [printFields] using hlaid

/-- What is written in pieces is so between brackets, each on a line of its own. -/
theorem laid_brackets {o c : Char} (ho : isMark o = true) (hc : isMark c = true) {layout : Layout}
    (depth : ℕ) {bare text : List Char} (h : Laid layout bare text) :
    Laid layout (o :: (bare ++ [c]))
      (o :: (layout.lineBreak (depth + 1) ++ (text ++ (layout.lineBreak depth ++ [c])))) := by
  have hend := (laid_lineBreak layout depth).append (.mark hc .nil)
  exact .mark ho ((laid_lineBreak layout (depth + 1)).append (h.append hend))

/-- **Every value is written in pieces**, and without the blanks its text does not depend on the
layout or the level. -/
theorem exists_bare (v : Json) :
    ∃ bare, ∀ layout depth, Laid layout bare (print layout depth v) := by
  induction v using induction_on with
  | null =>
    refine ⟨['n', 'u', 'l', 'l'], fun layout depth ↦ ?_⟩
    rw [print]
    exact .of_marks (by decide)
  | bool b =>
    rcases b with _ | _
    · refine ⟨['f', 'a', 'l', 's', 'e'], fun layout depth ↦ ?_⟩
      rw [print]
      exact .of_marks (by decide)
    · refine ⟨['t', 'r', 'u', 'e'], fun layout depth ↦ ?_⟩
      rw [print]
      exact .of_marks (by decide)
  | int n =>
    refine ⟨intText n, fun layout depth ↦ ?_⟩
    rw [print]
    exact .of_marks (isMark_of_mem_intText n)
  | float x =>
    refine ⟨floatText .serialized x, fun layout depth ↦ ?_⟩
    rw [print]
    exact .of_marks (isMark_of_mem_floatText x)
  | str s =>
    refine ⟨stringText s, fun layout depth ↦ ?_⟩
    rw [print]
    exact .of_string s
  | arr items ih =>
    rcases items with _ | ⟨v, vs⟩
    · refine ⟨['[', ']'], fun layout depth ↦ ?_⟩
      rw [print]
      exact .of_marks (by decide)
    · rw [List.forall_mem_cons] at ih
      obtain ⟨bare, hv⟩ := ih.1
      obtain ⟨bares, hvs⟩ := exists_bare_items ih.2
      refine ⟨'[' :: (bare ++ bares ++ [']']), fun layout depth ↦ ?_⟩
      have hitems := (hv layout (depth + 1)).append (hvs layout (depth + 1))
      have hlaid := laid_brackets (o := '[') (c := ']') rfl rfl depth hitems
      simpa [print] using hlaid
  | obj fields ih =>
    rcases fields with _ | ⟨⟨name, v⟩, fields⟩
    · refine ⟨['\x7b', '\x7d'], fun layout depth ↦ ?_⟩
      rw [print]
      exact .of_marks (by decide)
    · rw [List.forall_mem_cons] at ih
      obtain ⟨bare, hv⟩ := ih.1
      obtain ⟨bares, hfields⟩ := exists_bare_fields ih.2
      refine ⟨'\x7b' :: (stringText name ++ ':' :: bare ++ bares ++ ['\x7d']),
        fun layout depth ↦ ?_⟩
      have hall := (laid_field name (hv layout (depth + 1))).append (hfields layout (depth + 1))
      have hlaid := laid_brackets (o := '\x7b') (c := '\x7d') rfl rfl depth hall
      simpa [print] using hlaid

end TokenScan.Json
