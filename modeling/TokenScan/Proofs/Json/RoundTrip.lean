import TokenScan.Json.Writer
import TokenScan.Proofs.Json.Scalar

/-!
# Written values read back

`Storable` names the values that survive being written: no floats, whole numbers within the reader's
limit, and objects whose names are distinct. Written in any layout, at any level, such a value reads
back as itself and leaves the text behind it unread (`Storable.readsBack`).

## The induction

It is on the value, and all that the items of an array or the fields of an object have to contribute
is that they read back themselves; `ReadsBack` packs this up, with the level, the following text and
the bound of the recursion left open. A bound of twice the length of the written text is enough, as
the reader promises: an item costs two steps at most, and its text and the comma behind it are two
characters at least.

Between two values stands a separator, and before a closing bracket a line break. Neither is part of
a number, and skipping blanks passes over everything in them but the comma. These are the only two
facts about layouts that are used.
-/

namespace TokenScan.Json

/-- **Values that can be stored**: without floats, with whole numbers of at most `limit` digits, and
with distinct names in every object. -/
inductive Storable (limit : ℕ) : Json → Prop
  /-- The null value. -/
  | null : Storable limit .null
  /-- A truth value. -/
  | bool (b : Bool) : Storable limit (.bool b)
  /-- A whole number that is not too large. -/
  | int (n : ℤ) (hn : (natText n.natAbs).length ≤ limit) : Storable limit (.int n)
  /-- A string. -/
  | str (s : String) : Storable limit (.str s)
  /-- An array of such values. -/
  | arr (items : List Json) (h : ∀ v ∈ items, Storable limit v) : Storable limit (.arr items)
  /-- An object of such values under distinct names. -/
  | obj (fields : Fields) (hnames : (fields.map Prod.fst).Nodup)
    (h : ∀ f ∈ fields, Storable limit f.2) : Storable limit (.obj fields)

/-! ### Layouts -/

section Layouts

variable (layout : Layout) (depth : ℕ) (text : List Char)

theorem skipSpaces_cons {c : Char} (hc : isSpace c = false) : skipSpaces (c :: text) = c :: text :=
  List.dropWhile_cons_of_neg (by simp [hc])

theorem skipSpaces_append {blanks : List Char} (h : ∀ c ∈ blanks, isSpace c = true) :
    skipSpaces (blanks ++ text) = skipSpaces text :=
  List.dropWhile_append_of_pos h

/-- A line break is blank. -/
theorem isSpace_of_mem_lineBreak : ∀ c ∈ layout.lineBreak depth, isSpace c = true := by
  intro c hc
  cases layout with
  | compact => exact absurd hc List.not_mem_nil
  | indented width =>
    rcases List.mem_cons.1 hc with rfl | hc
    · rfl
    · obtain rfl := List.eq_of_mem_replicate hc
      rfl

/-- A separator is a comma and blanks. -/
theorem separator_eq_cons :
    ∃ blanks, layout.separator depth = ',' :: blanks ∧ ∀ c ∈ blanks, isSpace c = true := by
  cases layout with
  | compact => exact ⟨[' '], rfl, by decide⟩
  | indented width => exact ⟨_, rfl, isSpace_of_mem_lineBreak (.indented width) depth⟩

theorem skipSpaces_lineBreak {c : Char} (hc : isSpace c = false) :
    skipSpaces (layout.lineBreak depth ++ c :: text) = c :: text := by
  rw [skipSpaces_append _ (isSpace_of_mem_lineBreak layout depth), skipSpaces_cons _ hc]

theorem endsNumber_cons {c : Char} (hc : c ∈ [',', ']', '\x7d', '\n']) :
    EndsNumber (c :: text) := by
  intro d hd
  obtain rfl : c = d := Option.some.inj hd
  have hall : ∀ c ∈ [',', ']', '\x7d', '\n'],
      c.isDigit = false ∧ c ≠ '.' ∧ c ≠ 'e' ∧ c ≠ 'E' := by
    decide
  exact hall c hc

/-- A number ends at a line break before a closing bracket. -/
theorem endsNumber_lineBreak {c : Char} (hc : c ∈ [']', '\x7d']) :
    EndsNumber (layout.lineBreak depth ++ c :: text) := by
  have hall : ∀ c ∈ [']', '\x7d'], c ∈ [',', ']', '\x7d', '\n'] := by decide
  cases layout with
  | compact => exact endsNumber_cons text (hall c hc)
  | indented width => exact endsNumber_cons _ (by simp)

theorem endsNumber_separator : EndsNumber (layout.separator depth ++ text) := by
  obtain ⟨blanks, hseparator, -⟩ := separator_eq_cons layout depth
  rw [hseparator]
  exact endsNumber_cons _ (by simp)

theorem length_separator_pos : 0 < (layout.separator depth).length := by
  obtain ⟨blanks, hseparator, -⟩ := separator_eq_cons layout depth
  simp [hseparator]

/-- A separator is passed by reading its comma and skipping what follows. -/
theorem skipSpaces_separator :
    ∃ next, skipSpaces (layout.separator depth ++ text) = ',' :: next ∧
      skipSpaces next = skipSpaces text := by
  obtain ⟨blanks, hseparator, hblanks⟩ := separator_eq_cons layout depth
  rw [hseparator]
  exact ⟨blanks ++ text, skipSpaces_cons _ (by decide), skipSpaces_append text hblanks⟩

end Layouts

/-! ### Values -/

/-- **A value that reads back from its text** in a layout, at every level. The text can be told from
a blank, from the end of an array and from a byte order mark by its first character; and it is read
to its end wherever a number would end there, under every bound that is twice its length. -/
structure ReadsBack (limit : ℕ) (layout : Layout) (v : Json) : Prop where
  /-- How the text starts. -/
  starts : ∀ depth, ∃ c cs, print layout depth v = c :: cs ∧ isSpace c = false ∧ c ≠ ']' ∧
    c ≠ '\uFEFF'
  /-- What is read from the text. -/
  reads : ∀ (depth : ℕ) (rest : List Char) (bound : ℕ), EndsNumber rest →
    2 * (print layout depth v).length ≤ bound →
      readValue limit (bound + 1) (print layout depth v ++ rest) = .ok (v, rest)

theorem ReadsBack.skipSpaces_print {limit : ℕ} {layout : Layout} {v : Json}
    (h : ReadsBack limit layout v) (depth : ℕ) (rest : List Char) :
    skipSpaces (print layout depth v ++ rest) = print layout depth v ++ rest := by
  obtain ⟨c, cs, htext, hc, -⟩ := h.starts depth
  rw [htext]
  exact skipSpaces_cons _ hc

theorem skipSpaces_stringText (s : String) (rest : List Char) :
    skipSpaces (stringText s ++ rest) = stringText s ++ rest :=
  skipSpaces_cons _ (by decide)

/-! ### One step of the reader -/

section Steps

variable {limit bound : ℕ} {text behind next rest : List Char} {v : Json} {name : String}

theorem readItems_of_bracket (hv : readValue limit bound text = .ok (v, behind))
    (hbehind : skipSpaces behind = ']' :: rest) :
    readItems limit (bound + 1) text = .ok ([v], rest) := by
  rw [readItems, hv, Read.andThen_ok, hbehind]
  rfl

theorem readItems_of_comma (hv : readValue limit bound text = .ok (v, behind))
    (hbehind : skipSpaces behind = ',' :: next) :
    readItems limit (bound + 1) text =
      (readItems limit bound (skipSpaces next)).andThen fun vs rest ↦ .ok (v :: vs, rest) := by
  rw [readItems, hv, Read.andThen_ok, hbehind]
  rfl

/-- The name of a field and the colon behind it are passed to reach its value. -/
theorem readFields_stringText (hname : (stringText name).length ≤ bound)
    (htext : skipSpaces text = text) :
    readFields limit (bound + 1) (stringText name ++ ':' :: ' ' :: text) =
      (readValue limit bound text).andThen fun v rest ↦
        match skipSpaces rest with
        | '\x7d' :: rest => .ok ([(name, v)], rest)
        | ',' :: rest =>
          (readFields limit bound (skipSpaces rest)).andThen fun fields rest ↦
            .ok ((name, v) :: fields, rest)
        | rest => .error ⟨.noComma, rest⟩ := by
  have hcolon : skipSpaces (' ' :: text) = text := htext
  show readFields limit (bound + 1) ('"' :: ((stringText name).tail ++ ':' :: ' ' :: text)) = _
  rw [readFields, readString_append _ _ hname, Read.andThen_ok, skipSpaces_cons _ (by decide)]
  nth_rewrite 2 [← hcolon]
  rfl

theorem readFields_of_brace (hname : (stringText name).length ≤ bound)
    (htext : skipSpaces text = text) (hv : readValue limit bound text = .ok (v, behind))
    (hbehind : skipSpaces behind = '\x7d' :: rest) :
    readFields limit (bound + 1) (stringText name ++ ':' :: ' ' :: text) =
      .ok ([(name, v)], rest) := by
  rw [readFields_stringText hname htext, hv, Read.andThen_ok, hbehind]
  rfl

theorem readFields_of_comma (hname : (stringText name).length ≤ bound)
    (htext : skipSpaces text = text) (hv : readValue limit bound text = .ok (v, behind))
    (hbehind : skipSpaces behind = ',' :: next) :
    readFields limit (bound + 1) (stringText name ++ ':' :: ' ' :: text) =
      (readFields limit bound (skipSpaces next)).andThen fun fields rest ↦
        .ok ((name, v) :: fields, rest) := by
  rw [readFields_stringText hname htext, hv, Read.andThen_ok, hbehind]
  rfl

/-- A text that opens neither a string nor an array nor an object is read as a scalar. -/
theorem readValue_of_scalar {c : Char} (hc : c ∉ ['"', '[', '\x7b']) :
    readValue limit (bound + 1) (c :: text) = readScalar limit (c :: text) := by
  simp only [List.mem_cons, List.not_mem_nil, or_false, not_or] at hc
  obtain ⟨hquote, hbracket, hbrace⟩ := hc
  rw [readValue]
  · simpa using hquote
  · simpa using hbracket
  · simpa using hbrace

theorem readValue_of_bracket (htext : skipSpaces text = behind)
    (hbehind : ∀ rest, behind ≠ ']' :: rest) :
    readValue limit (bound + 1) ('[' :: text) =
      (readItems limit bound behind).andThen fun items rest ↦ .ok (.arr items, rest) := by
  rw [readValue, htext]
  split
  · exact absurd rfl (hbehind _)
  · rfl

theorem readValue_of_brace (htext : skipSpaces text = behind)
    (hbehind : ∀ rest, behind ≠ '\x7d' :: rest) :
    readValue limit (bound + 1) ('\x7b' :: text) =
      (readFields limit bound behind).andThen fun fields rest ↦
        .ok (.obj (collectFields fields), rest) := by
  rw [readValue, htext]
  split
  · exact absurd rfl (hbehind _)
  · rfl

end Steps

/-! ### Items and fields -/

section Lists

variable {limit : ℕ} {layout : Layout} {depth level bound : ℕ} {rest : List Char}

/-- **The items of an array read back**, from any of them to the closing bracket. -/
theorem readItems_printItems {v : Json} {vs : List Json}
    (h : ∀ w ∈ v :: vs, ReadsBack limit layout w)
    (hbound : 2 * (print layout depth v ++ printItems layout depth vs).length ≤ bound) :
    readItems limit (bound + 2) (print layout depth v ++ (printItems layout depth vs ++
      (layout.lineBreak level ++ ']' :: rest))) = .ok (v :: vs, rest) := by
  induction vs generalizing v bound with
  | nil =>
    have hv := h v List.mem_cons_self
    rw [List.length_append] at hbound
    rw [printItems, List.nil_append]
    exact readItems_of_bracket
      (hv.reads depth _ bound (endsNumber_lineBreak layout level rest (by simp)) (by omega))
      (skipSpaces_lineBreak layout level rest (by decide))
  | cons w vs ih =>
    obtain ⟨hv, hvs⟩ := List.forall_mem_cons.1 h
    have hw := hvs w List.mem_cons_self
    have hpos := length_separator_pos layout depth
    simp only [printItems, List.length_append] at hbound
    obtain ⟨bound, rfl⟩ : ∃ n, bound = n + 1 := Nat.exists_eq_succ_of_ne_zero (by omega)
    -- behind the separator stands the text of the other items, which the bound has room for
    set behind := print layout depth w ++ (printItems layout depth vs ++
      (layout.lineBreak level ++ ']' :: rest)) with hbehind
    have hitems : printItems layout depth (w :: vs) ++ (layout.lineBreak level ++ ']' :: rest) =
        layout.separator depth ++ behind := by
      simp [printItems, hbehind]
    obtain ⟨next, hcomma, hnext⟩ := skipSpaces_separator layout depth behind
    have hread := hv.reads depth _ (bound + 1) (endsNumber_separator layout depth behind) (by omega)
    rw [hitems, readItems_of_comma hread hcomma, hnext, hbehind, hw.skipSpaces_print, ih hvs,
      Read.andThen_ok]
    rw [List.length_append]
    omega

/-- **The fields of an object read back**, from any of them to the closing brace. -/
theorem readFields_printFields {name : String} {v : Json} {fields : Fields}
    (h : ∀ f ∈ (name, v) :: fields, ReadsBack limit layout f.2)
    (hbound : 2 * (stringText name ++ (print layout depth v ++
      printFields layout depth fields)).length ≤ bound) :
    readFields limit (bound + 2) (stringText name ++ ':' :: ' ' :: (print layout depth v ++
      (printFields layout depth fields ++ (layout.lineBreak level ++ '\x7d' :: rest)))) =
        .ok ((name, v) :: fields, rest) := by
  induction fields generalizing name v bound with
  | nil =>
    have hv : ReadsBack limit layout v := h (name, v) List.mem_cons_self
    simp only [List.length_append] at hbound
    rw [printFields, List.nil_append]
    exact readFields_of_brace (by omega) (hv.skipSpaces_print depth _)
      (hv.reads depth _ bound (endsNumber_lineBreak layout level rest (by simp)) (by omega))
      (skipSpaces_lineBreak layout level rest (by decide))
  | cons f fields ih =>
    obtain ⟨other, w⟩ := f
    obtain ⟨hv, hothers⟩ : ReadsBack limit layout v ∧
        ∀ f ∈ (other, w) :: fields, ReadsBack limit layout f.2 := List.forall_mem_cons.1 h
    have hpos := length_separator_pos layout depth
    simp only [printFields, List.length_append, List.length_cons] at hbound
    obtain ⟨bound, rfl⟩ : ∃ n, bound = n + 1 := Nat.exists_eq_succ_of_ne_zero (by omega)
    set behind := stringText other ++ ':' :: ' ' :: (print layout depth w ++
      (printFields layout depth fields ++ (layout.lineBreak level ++ '\x7d' :: rest))) with hbehind
    have hfields : printFields layout depth ((other, w) :: fields) ++
        (layout.lineBreak level ++ '\x7d' :: rest) = layout.separator depth ++ behind := by
      simp [printFields, hbehind]
    obtain ⟨next, hcomma, hnext⟩ := skipSpaces_separator layout depth behind
    have hread := hv.reads depth _ (bound + 1) (endsNumber_separator layout depth behind) (by omega)
    rw [hfields, readFields_of_comma (by omega) (hv.skipSpaces_print depth _) hread hcomma, hnext,
      hbehind, skipSpaces_stringText, ih hothers, Read.andThen_ok]
    simp only [List.length_append]
    omega

end Lists

/-! ### The fields that were read -/

/-- A name that is not there is added at the end. -/
theorem putField_of_not_mem {name : String} {value : Json} {fields : Fields}
    (h : name ∉ fields.map Prod.fst) :
    putField name value fields = fields ++ [(name, value)] := by
  induction fields with
  | nil => rfl
  | cons f fields ih =>
    rw [List.map_cons, List.mem_cons, not_or] at h
    rw [putField, if_neg (Ne.symm h.1), ih h.2, List.cons_append]

/-- **Distinct names are collected as they come.** -/
theorem collectFields_of_nodup {fields : Fields} (h : (fields.map Prod.fst).Nodup) :
    collectFields fields = fields := by
  have hfold : ∀ (before given : Fields), ((before ++ given).map Prod.fst).Nodup →
      given.foldl (fun fields f ↦ putField f.1 f.2 fields) before = before ++ given := by
    intro before given hnodup
    induction given generalizing before with
    | nil => rw [List.foldl_nil, List.append_nil]
    | cons f given ih =>
      -- each name is new to those collected before it
      have hfresh : f.1 ∉ before.map Prod.fst := by
        rw [List.map_append, List.map_cons] at hnodup
        exact fun hf ↦ (List.disjoint_of_nodup_append hnodup) hf List.mem_cons_self
      have happend : before ++ [f] ++ given = before ++ f :: given := by simp
      rw [List.foldl_cons, putField_of_not_mem hfresh, ih _ (by rwa [happend]), happend]
  exact hfold [] fields h

/-! ### The round trip -/

section Constructors

variable {limit : ℕ} {layout : Layout}

theorem readsBack_null : ReadsBack limit layout .null where
  starts _ := ⟨'n', _, by rw [print], by decide⟩
  reads depth rest bound _ _ := by
    rw [print]
    exact readValue_of_scalar (by decide)

theorem readsBack_bool (b : Bool) : ReadsBack limit layout (.bool b) := by
  cases b with
  | false =>
    refine ⟨fun _ ↦ ⟨'f', _, by rw [print], by decide⟩, fun depth rest bound _ _ ↦ ?_⟩
    rw [print]
    exact readValue_of_scalar (by decide)
  | true =>
    refine ⟨fun _ ↦ ⟨'t', _, by rw [print], by decide⟩, fun depth rest bound _ _ ↦ ?_⟩
    rw [print]
    exact readValue_of_scalar (by decide)

theorem readsBack_int {n : ℤ} (hn : (natText n.natAbs).length ≤ limit) :
    ReadsBack limit layout (.int n) := by
  obtain ⟨c, cs, htext, -⟩ := intText_eq_cons n
  have hc := not_mem_of_intText_eq_cons htext
  refine ⟨fun _ ↦ ⟨c, cs, by rw [print, htext], ?_⟩, fun depth rest bound hrest _ ↦ ?_⟩
  · simp only [markers, List.mem_cons, List.not_mem_nil, or_false, not_or] at hc
    simp [isSpace, hc]
  · have hall : ∀ x ∈ ['"', '[', '\x7b'], x ∈ markers := by decide
    have hscalar := readScalar_intText hn hrest
    rw [print]
    rw [htext] at hscalar ⊢
    exact (readValue_of_scalar fun hmem ↦ hc (hall c hmem)).trans hscalar

theorem readsBack_str (s : String) : ReadsBack limit layout (.str s) := by
  refine ⟨fun _ ↦ ⟨'"', (stringText s).tail, by rw [print]; rfl, by decide⟩,
    fun depth rest bound _ hbound ↦ ?_⟩
  rw [print] at hbound ⊢
  show readValue limit (bound + 1) ('"' :: ((stringText s).tail ++ rest)) = _
  rw [readValue, readString_append s rest (by omega), Read.andThen_ok]

theorem readsBack_arr {items : List Json} (h : ∀ v ∈ items, ReadsBack limit layout v) :
    ReadsBack limit layout (.arr items) := by
  cases items with
  | nil => exact ⟨fun _ ↦ ⟨'[', _, by rw [print], by decide⟩, fun _ _ _ _ _ ↦ by rw [print]; rfl⟩
  | cons v vs =>
    have hv := h v List.mem_cons_self
    refine ⟨fun _ ↦ ⟨'[', _, by rw [print], by decide⟩, fun depth rest bound _ hbound ↦ ?_⟩
    have hprint : print layout depth (.arr (v :: vs)) ++ rest =
        '[' :: (layout.lineBreak (depth + 1) ++ (print layout (depth + 1) v ++
          (printItems layout (depth + 1) vs ++ (layout.lineBreak depth ++ ']' :: rest)))) := by
      simp [print]
    simp only [print, List.length_cons, List.length_append] at hbound
    obtain ⟨bound, rfl⟩ : ∃ n, bound = n + 2 := Nat.exists_eq_add_of_le' (by omega)
    have hskip (text : List Char) : skipSpaces (layout.lineBreak (depth + 1) ++
        (print layout (depth + 1) v ++ text)) = print layout (depth + 1) v ++ text := by
      rw [skipSpaces_append _ (isSpace_of_mem_lineBreak layout _), hv.skipSpaces_print]
    rw [hprint, readValue_of_bracket (hskip _), readItems_printItems h, Read.andThen_ok]
    · rw [List.length_append]
      omega
    · obtain ⟨c, cs, htext, -, hc, -⟩ := hv.starts (depth + 1)
      intro rest hrest
      rw [htext] at hrest
      exact hc (List.cons.inj hrest).1

theorem readsBack_obj {fields : Fields} (hnames : (fields.map Prod.fst).Nodup)
    (h : ∀ f ∈ fields, ReadsBack limit layout f.2) : ReadsBack limit layout (.obj fields) := by
  cases fields with
  | nil =>
    exact ⟨fun _ ↦ ⟨'\x7b', _, by rw [print], by decide⟩, fun _ _ _ _ _ ↦ by rw [print]; rfl⟩
  | cons f fields =>
    obtain ⟨name, v⟩ := f
    refine ⟨fun _ ↦ ⟨'\x7b', _, by rw [print], by decide⟩, fun depth rest bound _ hbound ↦ ?_⟩
    have hprint : print layout depth (.obj ((name, v) :: fields)) ++ rest =
        '\x7b' :: (layout.lineBreak (depth + 1) ++ (stringText name ++ ':' :: ' ' ::
          (print layout (depth + 1) v ++ (printFields layout (depth + 1) fields ++
            (layout.lineBreak depth ++ '\x7d' :: rest))))) := by
      simp [print]
    simp only [print, List.length_cons, List.length_append] at hbound
    obtain ⟨bound, rfl⟩ : ∃ n, bound = n + 2 := Nat.exists_eq_add_of_le' (by omega)
    have hskip (text : List Char) : skipSpaces (layout.lineBreak (depth + 1) ++
        (stringText name ++ text)) = stringText name ++ text := by
      rw [skipSpaces_append _ (isSpace_of_mem_lineBreak layout _), skipSpaces_stringText]
    rw [hprint, readValue_of_brace (hskip _), readFields_printFields h, Read.andThen_ok,
      collectFields_of_nodup hnames]
    · simp only [List.length_append]
      omega
    · intro rest hrest
      exact absurd (List.cons.inj hrest).1 (by decide)

end Constructors

/-- **Every value that can be stored reads back** from its text, whatever the layout. -/
theorem Storable.readsBack {limit : ℕ} {v : Json} (h : Storable limit v) (layout : Layout) :
    ReadsBack limit layout v := by
  induction h with
  | null => exact readsBack_null
  | bool b => exact readsBack_bool b
  | int n hn => exact readsBack_int hn
  | str s => exact readsBack_str s
  | arr items _ ih => exact readsBack_arr ih
  | obj fields hnames _ ih => exact readsBack_obj hnames ih

/-- **A written text is read as the value it was written from.** -/
theorem Storable.read_print {limit : ℕ} {v : Json} (h : Storable limit v) (layout : Layout) :
    read limit (String.ofList (print layout 0 v)) = .ok v := by
  have hback := h.readsBack layout
  obtain ⟨c, cs, htext, hspace, -, hmark⟩ := hback.starts 0
  have hvalue := hback.reads 0 [] (2 * (print layout 0 v).length) (by simp [EndsNumber])
    (Nat.le_refl _)
  rw [List.append_nil, htext] at hvalue
  have hall : readAll limit (c :: cs) = .ok v := by
    rw [readAll, skipSpaces_cons cs hspace, hvalue]
    · rfl
    · simpa using hmark
  rw [read, String.toList_ofList, htext, hall]
  rfl

end TokenScan.Json
