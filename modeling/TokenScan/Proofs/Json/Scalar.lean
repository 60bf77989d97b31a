import TokenScan.Json.Reader
import TokenScan.Proofs.Grammar

/-!
# Written strings and whole numbers read back

The two scalars whose text depends on their value. A string is read character by character, and each
character was written as itself or as one escape; `escapeChar_cases` says so, together with what the
escape reads back as, so the induction over a string never sees a surrogate
(`readString_append`). A whole number takes every digit there is, and it ends only because what
follows neither continues it nor makes it a float: `EndsNumber` says this of a text, and
`readScalar_intText` needs it.
-/

namespace TokenScan.Json

/-! ### Code units -/

section Units

variable {u : ℕ} {rest : List Char}

/-- Four written digits are a code unit again, if the text goes on behind them. -/
theorem readUnit_hexDigits (hu : u < 0x10000) (hrest : rest ≠ []) :
    readUnit (hexDigits 4 u ++ rest) = .ok (u, rest) := by
  obtain ⟨e, rest, rfl⟩ := List.exists_cons_of_ne_nil hrest
  obtain ⟨a, b, c, d, hdigits⟩ : ∃ a b c d, hexDigits 4 u = [a, b, c, d] := ⟨_, _, _, _, rfl⟩
  have hvalue : hexValue? [a, b, c, d] = some u := by
    rw [← hdigits, hexValue?_hexDigits]
    exact congrArg some (Nat.mod_eq_of_lt hu)
  rw [hdigits]
  simp [readUnit, hvalue]

theorem isHighSurrogate_iff : isHighSurrogate u = true ↔ 0xD800 ≤ u ∧ u ≤ 0xDBFF := by
  simp [isHighSurrogate]

theorem isLowSurrogate_iff : isLowSurrogate u = true ↔ 0xDC00 ≤ u ∧ u ≤ 0xDFFF := by
  simp [isLowSurrogate]

/-- The codes of characters leave out the surrogates. -/
theorem toNat_valid (c : Char) : c.toNat < 0xD800 ∨ 0xDFFF < c.toNat ∧ c.toNat < 0x110000 :=
  c.valid

/-- The code of a character is no surrogate. -/
theorem not_surrogate (c : Char) :
    isHighSurrogate c.toNat = false ∧ isLowSurrogate c.toNat = false := by
  have hvalid := toNat_valid c
  rw [← Bool.not_eq_true, ← Bool.not_eq_true, isHighSurrogate_iff, isLowSurrogate_iff]
  omega

theorem unitChar_toNat (c : Char) : unitChar c.toNat = c := by
  obtain ⟨hhigh, hlow⟩ := not_surrogate c
  rw [unitChar, hhigh, hlow, Bool.or_false, if_neg Bool.false_ne_true, Char.ofNat_toNat]

/-- A code point beyond `0xFFFF` has a high and a low surrogate. -/
theorem surrogates_spec {n : ℕ} (hn : 0x10000 ≤ n) (hlt : n < 0x110000) :
    isHighSurrogate (highSurrogate n) = true ∧ isLowSurrogate (lowSurrogate n) = true ∧
      highSurrogate n < 0x10000 ∧ lowSurrogate n < 0x10000 := by
  rw [isHighSurrogate_iff, isLowSurrogate_iff, highSurrogate, lowSurrogate]
  omega

/-- The low surrogate of a pair is read behind the high one. -/
theorem readPair_unitEscape {n : ℕ} (hn : 0x10000 ≤ n) (hlt : n < 0x110000) (hrest : rest ≠ []) :
    readPair (highSurrogate n) (unitEscape (lowSurrogate n) ++ rest) =
      .ok (Char.ofNat n, rest) := by
  obtain ⟨-, hlow, -, hunit⟩ := surrogates_spec hn hlt
  have hlength : ((hexDigits 4 (lowSurrogate n) ++ rest).drop 4).isEmpty = false := by
    rw [List.drop_left' (length_hexDigits 4 _)]
    simpa using hrest
  rw [unitEscape, List.cons_append, List.cons_append, readPair, hlength,
    if_neg Bool.false_ne_true, readUnit_hexDigits hunit hrest, Read.andThen_ok, if_pos hlow,
    joinSurrogates_surrogates hn]

end Units

/-! ### Strings -/

/-- The characters that are written by a short escape, with its letter. -/
def shortEscapes : List (Char × Char) :=
  [('"', '"'), ('\\', '\\'), ('\n', 'n'), ('\r', 'r'), ('\t', 't'), ('\x0c', 'f'), ('\x08', 'b')]

/-- Short escapes are found again by their letters. -/
theorem escapeChar_of_mem_shortEscapes :
    ∀ e ∈ shortEscapes, escapeChar e.1 = ['\\', e.2] ∧ shortEscape? e.2 = some e.1 := by
  decide

/-- All other characters are written as they are, or by their code units. -/
theorem escapeChar_of_not_mem {c : Char} (hc : c ∉ shortEscapes.map Prod.fst) :
    escapeChar c = if isPrintable c then [c]
      else if c.toNat < 0x10000 then unitEscape c.toNat
      else unitEscape (highSurrogate c.toNat) ++ unitEscape (lowSurrogate c.toNat) := by
  simp only [shortEscapes, List.map_cons, List.map_nil, List.mem_cons, List.not_mem_nil, or_false,
    not_or] at hc
  obtain ⟨hquote, hbackslash, hn, hr, ht, hf, hb⟩ := hc
  rw [escapeChar, if_neg hquote, if_neg hbackslash, if_neg hn, if_neg hr, if_neg ht, if_neg hf,
    if_neg hb]

section Escapes

variable {c : Char} {opened rest : List Char}

/-- A code unit that is a character of its own reads back. -/
theorem readEscape_unit (hsmall : c.toNat < 0x10000) (hrest : rest ≠ []) :
    readEscape opened ('u' :: hexDigits 4 c.toNat ++ rest) = .ok (c, rest) := by
  show (readUnit (hexDigits 4 c.toNat ++ rest)).andThen _ = _
  rw [readUnit_hexDigits hsmall hrest, Read.andThen_ok, (not_surrogate c).1,
    if_neg Bool.false_ne_true, unitChar_toNat]

/-- Two code units that are a character together read back. -/
theorem readEscape_pair (hlarge : 0x10000 ≤ c.toNat) (hrest : rest ≠ []) :
    readEscape opened ('u' :: hexDigits 4 (highSurrogate c.toNat) ++
      (unitEscape (lowSurrogate c.toNat) ++ rest)) = .ok (c, rest) := by
  have hlt : c.toNat < 0x110000 := by
    have hvalid := toNat_valid c
    omega
  obtain ⟨hhigh, -, hsmall, -⟩ := surrogates_spec hlarge hlt
  show (readUnit (hexDigits 4 (highSurrogate c.toNat) ++
    (unitEscape (lowSurrogate c.toNat) ++ rest))).andThen _ = _
  rw [readUnit_hexDigits hsmall (by simp [unitEscape]), Read.andThen_ok, if_pos hhigh,
    readPair_unitEscape hlarge hlt hrest, Char.ofNat_toNat]

end Escapes

/-- **A character is written as itself, or as an escape that reads back as it.** -/
theorem escapeChar_cases (c : Char) :
    (escapeChar c = [c] ∧ 0x20 ≤ c.toNat ∧ c ≠ '"' ∧ c ≠ '\\') ∨
      ∃ body, escapeChar c = '\\' :: body ∧
        ∀ opened rest, rest ≠ [] → readEscape opened (body ++ rest) = .ok (c, rest) := by
  by_cases hshort : c ∈ shortEscapes.map Prod.fst
  · obtain ⟨⟨c, letter⟩, he, rfl⟩ := List.mem_map.1 hshort
    obtain ⟨htext, hletter⟩ := escapeChar_of_mem_shortEscapes _ he
    refine Or.inr ⟨[letter], htext, fun opened rest _ ↦ ?_⟩
    rw [List.singleton_append, readEscape, hletter]
  · rw [escapeChar_of_not_mem hshort]
    by_cases hprintable : isPrintable c = true
    · rw [if_pos hprintable]
      rw [isPrintable, Bool.and_eq_true, decide_eq_true_eq] at hprintable
      refine Or.inl ⟨rfl, hprintable.1, ?_, ?_⟩
      · rintro rfl
        exact hshort (by decide)
      · rintro rfl
        exact hshort (by decide)
    · rw [if_neg hprintable]
      by_cases hsmall : c.toNat < 0x10000
      · rw [if_pos hsmall]
        exact Or.inr ⟨_, rfl, fun opened rest hrest ↦ readEscape_unit hsmall hrest⟩
      · rw [if_neg hsmall]
        refine Or.inr ⟨'u' :: hexDigits 4 (highSurrogate c.toNat) ++
          unitEscape (lowSurrogate c.toNat), rfl, fun opened rest hrest ↦ ?_⟩
        rw [List.append_assoc]
        exact readEscape_pair (Nat.le_of_not_lt hsmall) hrest

/-- Reading takes one written character at a time. -/
theorem readChars_escapeChar (opened : List Char) (bound : ℕ) (c : Char) {rest : List Char}
    (hrest : rest ≠ []) :
    readChars opened (bound + 1) (escapeChar c ++ rest) =
      (readChars opened bound rest).andThen fun xs rest ↦ .ok (c :: xs, rest) := by
  rcases escapeChar_cases c with ⟨hself, hcode, hquote, hbackslash⟩ | ⟨body, hbody, hread⟩
  · rw [hself, List.singleton_append, readChars, if_neg hquote, if_neg hcode.not_gt,
      if_neg hbackslash]
  · rw [hbody, List.cons_append, readChars, if_neg (by decide), if_neg (by decide), if_pos rfl,
      hread opened rest hrest, Read.andThen_ok]

/-- **Strings read back**, up to their closing quote. -/
theorem readChars_flatMap_escapeChar (opened cs rest : List Char) {bound : ℕ}
    (hbound : cs.length < bound) :
    readChars opened bound (cs.flatMap escapeChar ++ '"' :: rest) = .ok (cs, rest) := by
  induction cs generalizing bound with
  | nil =>
    obtain ⟨n, rfl⟩ := Nat.exists_eq_add_of_lt hbound
    simp [readChars]
  | cons c cs ih =>
    obtain ⟨n, rfl⟩ := Nat.exists_eq_add_of_lt hbound
    rw [List.flatMap_cons, List.append_assoc, readChars_escapeChar _ _ _ (by simp),
      ih (by simp only [List.length_cons]; omega), Read.andThen_ok]

theorem length_le_flatMap_escapeChar (cs : List Char) :
    cs.length ≤ (cs.flatMap escapeChar).length := by
  induction cs with
  | nil => exact Nat.le_refl 0
  | cons c cs ih =>
    have hpos : 0 < (escapeChar c).length := by
      rcases escapeChar_cases c with ⟨hself, -⟩ | ⟨body, hbody, -⟩
      · simp [hself]
      · simp [hbody]
    simp only [List.flatMap_cons, List.length_append, List.length_cons]
    omega

/-- **A written string reads back**, behind its opening quote and with whatever follows it. -/
theorem readString_append (s : String) (rest : List Char) {bound : ℕ}
    (hbound : (stringText s).length ≤ bound) :
    readString bound ((stringText s).tail ++ rest) = .ok (s, rest) := by
  have hlength := length_le_flatMap_escapeChar s.toList
  have htext : (stringText s).tail ++ rest = s.toList.flatMap escapeChar ++ '"' :: rest := by
    simp [stringText]
  simp only [stringText, List.length_append, List.length_cons] at hbound
  rw [readString, htext, readChars_flatMap_escapeChar _ _ _ (by omega), Read.andThen_ok,
    String.ofList_toList]

/-! ### Whole numbers -/

/-- **A text at which a number ends**: it goes on neither with a digit nor with what makes a
float. -/
def EndsNumber (rest : List Char) : Prop :=
  ∀ c ∈ rest.head?, c.isDigit = false ∧ c ≠ '.' ∧ c ≠ 'e' ∧ c ≠ 'E'

theorem isDigit_of_mem_natText {n : ℕ} {c : Char} (h : c ∈ natText n) : c.isDigit = true :=
  Nat.isDigit_of_mem_toDigits (by decide) (by decide) h

theorem digitsValue_natText (n : ℕ) : digitsValue (natText n) = n := Nat.ofDigitChars_ten_toDigits

/-- Only zero is written with a zero in front. -/
theorem natText_eq_cons {n : ℕ} (hn : n ≠ 0) : ∃ d ds, natText n = d :: ds ∧ d ≠ '0' := by
  induction n using Nat.strong_induction_on with
  | _ n ih =>
    rw [natText, Nat.toDigits_eq_if (by decide)]
    split
    · rename_i hten
      have hall : ∀ d < 10, d ≠ 0 → Nat.digitChar d ≠ '0' := by decide
      exact ⟨_, [], rfl, hall n hten hn⟩
    · rename_i hten
      obtain ⟨d, ds, hdigits, hd⟩ := ih (n / 10) (by omega) (by omega)
      exact ⟨d, ds ++ [Nat.digitChar (n % 10)], congrArg (· ++ _) hdigits, hd⟩

section Numbers

variable {rest : List Char}

theorem spanDigits_append {ds : List Char} (hds : ∀ c ∈ ds, c.isDigit = true)
    (hrest : EndsNumber rest) : spanDigits (ds ++ rest) = (ds, rest) := by
  have hnone : rest.takeWhile Char.isDigit = [] ∧ rest.dropWhile Char.isDigit = rest := by
    cases rest with
    | nil => exact ⟨rfl, rfl⟩
    | cons c rest => simp [(hrest c rfl).1]
  rw [spanDigits, List.takeWhile_append_of_pos hds, List.dropWhile_append_of_pos hds, hnone.1,
    hnone.2, List.append_nil]

/-- **All digits of a number are taken**, and nothing behind them. -/
theorem spanWhole_natText (n : ℕ) (hrest : EndsNumber rest) :
    spanWhole (natText n ++ rest) = (natText n, rest) := by
  by_cases hn : n = 0
  · subst hn
    rfl
  · obtain ⟨d, ds, hdigits, hd⟩ := natText_eq_cons hn
    have hspan : spanDigits (natText n ++ rest) = (natText n, rest) :=
      spanDigits_append (fun c ↦ isDigit_of_mem_natText) hrest
    rw [hdigits] at hspan ⊢
    rw [← hspan, List.cons_append, spanWhole]
    simpa using hd

theorem spanFraction_of_endsNumber (hrest : EndsNumber rest) : spanFraction rest = ([], rest) := by
  cases rest with
  | nil => rfl
  | cons c rest =>
    rw [spanFraction]
    simpa using (hrest c rfl).2.1

theorem spanExponent_of_endsNumber (hrest : EndsNumber rest) :
    spanExponent rest = (none, rest) := by
  cases rest with
  | nil => rfl
  | cons c rest =>
    obtain ⟨-, -, he, hE⟩ := hrest c rfl
    rw [spanExponent, if_neg (by simp [he, hE])]

/-- A sign, if there is one, and the digits of a number: what is written of an integer. -/
theorem intText_cases (n : ℤ) :
    (intText n = natText n.natAbs ∧ n = n.natAbs) ∨
      (intText n = '-' :: natText n.natAbs ∧ n = -n.natAbs) := by
  cases n with
  | ofNat m => exact Or.inl ⟨rfl, rfl⟩
  | negSucc m => exact Or.inr ⟨rfl, rfl⟩

/-- A written number starts with a digit. -/
theorem exists_digit_cons (n : ℕ) : ∃ d ds, natText n = d :: ds ∧ d.isDigit = true := by
  obtain ⟨d, ds, hdigits⟩ := List.exists_cons_of_ne_nil (Nat.toDigits_ne_nil (n := n) (b := 10))
  refine ⟨d, ds, hdigits, isDigit_of_mem_natText (n := n) ?_⟩
  rw [natText, hdigits]
  exact List.mem_cons_self

/-- **A written whole number reads back**, before a text at which it ends. -/
theorem readNumber_intText {limit : ℕ} {n : ℤ} (hn : (natText n.natAbs).length ≤ limit)
    (hrest : EndsNumber rest) : readNumber limit (intText n ++ rest) = .ok (.int n, rest) := by
  obtain ⟨d, ds, hdigits, hd⟩ := exists_digit_cons n.natAbs
  have hempty : (natText n.natAbs).isEmpty = false := by simp [hdigits]
  have hminus : ∀ text, natText n.natAbs ++ rest = '-' :: text → False := by
    intro text htext
    rw [hdigits] at htext
    obtain ⟨rfl, -⟩ := List.cons.inj htext
    exact absurd hd (by decide)
  rcases intText_cases n with ⟨htext, hvalue⟩ | ⟨htext, hvalue⟩
  · rw [htext, readNumber]
    · simp only [spanWhole_natText _ hrest, hempty, spanFraction_of_endsNumber hrest,
        spanExponent_of_endsNumber hrest, digitsValue_natText, List.isEmpty_nil, Option.isNone_none,
        Bool.and_self, Bool.false_eq_true, if_true, if_false, hn.not_gt]
      rw [← hvalue]
    · exact hminus
  · rw [htext, List.cons_append, readNumber]
    simp only [spanWhole_natText _ hrest, hempty, spanFraction_of_endsNumber hrest,
      spanExponent_of_endsNumber hrest, digitsValue_natText, List.isEmpty_nil, Option.isNone_none,
      Bool.and_self, Bool.false_eq_true, if_true, if_false, hn.not_gt]
    rw [← hvalue]

/-- What is written of an integer starts with a digit, or with a minus and a digit. -/
theorem intText_eq_cons (n : ℤ) :
    ∃ c cs, intText n = c :: cs ∧
      (c.isDigit = true ∨ c = '-' ∧ ∃ d ∈ cs.head?, d.isDigit = true) := by
  obtain ⟨d, ds, hdigits, hd⟩ := exists_digit_cons n.natAbs
  rcases intText_cases n with ⟨htext, -⟩ | ⟨htext, -⟩
  · exact ⟨d, ds, htext.trans hdigits, Or.inl hd⟩
  · exact ⟨'-', d :: ds, by rw [htext, hdigits], Or.inr ⟨rfl, d, rfl, hd⟩⟩

/-- The blanks, the characters that mean something to the reader, and the byte order mark. -/
def markers : List Char := [' ', '\t', '\n', '\r', ']', '"', '[', '\x7b', '\uFEFF']

/-- What starts an integer is none of the markers. -/
theorem not_mem_of_intText_eq_cons {n : ℤ} {c : Char} {cs : List Char} (h : intText n = c :: cs) :
    c ∉ markers := by
  intro hmem
  have hall : ∀ x ∈ markers, x.isDigit = false ∧ x ≠ '-' := by decide
  obtain ⟨hdigit, hminus⟩ := hall c hmem
  obtain ⟨_, _, htext, hc⟩ := intText_eq_cons n
  obtain ⟨rfl, rfl⟩ := List.cons.inj (h.symm.trans htext)
  rcases hc with hc | ⟨rfl, -⟩
  · rw [hdigit] at hc
    exact Bool.false_ne_true hc
  · exact hminus rfl

/-- **A written whole number is read as one**: no value that has a name starts as an integer
does. -/
theorem readScalar_intText {limit : ℕ} {n : ℤ} (hn : (natText n.natAbs).length ≤ limit)
    (hrest : EndsNumber rest) : readScalar limit (intText n ++ rest) = .ok (.int n, rest) := by
  have hnames : named.findSome? (fun entry ↦ (entry.1.isPrefixOf? (intText n ++ rest)).map
      fun rest ↦ (entry.2, rest)) = none := by
    have hletters : ∀ d : Char, d.isDigit = true →
        ∀ x ∈ ['n', 't', 'f', 'N', 'I', '-'], (x == d) = false := by
      intro d hd x hx
      have hnot : ∀ x ∈ ['n', 't', 'f', 'N', 'I', '-'], x.isDigit = false := by decide
      rw [beq_eq_false_iff_ne]
      rintro rfl
      rw [hnot x hx] at hd
      exact Bool.false_ne_true hd
    obtain ⟨c, cs, htext, hc | ⟨rfl, d, hhead, hd⟩⟩ := intText_eq_cons n
    · rw [htext]
      simp [named, List.isPrefixOf?, hletters c hc]
    · -- the negative infinity starts with a minus, too, but a letter follows it
      obtain ⟨cs, rfl⟩ : ∃ ds, cs = d :: ds := List.head?_eq_some_iff.1 hhead
      rw [htext]
      simp [named, List.isPrefixOf?, hletters d hd]
  rw [readScalar, hnames]
  exact readNumber_intText hn hrest

end Numbers

end TokenScan.Json
