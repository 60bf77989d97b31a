import TokenScan.Proofs.Json.Layout
import TokenScan.Proofs.Token.Record

/-!
# Stored tokens are plain text

The text of a list of tokens can be shipped wherever a line of printable ASCII can. Without
indentation it is such a line, whatever the lexemes hold. With indentation line feeds come in, but
none of them stands in a string literal, and an indented text differs from the unindented one in
nothing but the blanks between literals (`encode_plain`).

All of this holds of serialized text in general, so nothing about tokens is used. What is particular
to them is when there is a text at all: every whole number in the list has to be within the limit
(`Fits`), and then there is one for every indentation.
-/

namespace TokenScan.Token

/-- **A token that fits**: no whole number in its record has more digits than may be written. -/
structure Fits (t : Token) : Prop where
  /-- The coordinates are not too large. -/
  coordinates : ∀ n ∈ [t.line, t.column, t.offset, t.endOffset],
    (natText n.natAbs).length ≤ maxDigits
  /-- Neither is a number in the name of the text. -/
  origin : t.origin.withinDigits maxDigits = true

theorem withinDigits_record {t : Token} :
    (Json.obj t.fields).withinDigits maxDigits = true ↔ t.Fits := by
  rw [Json.withinDigits, Json.withinDigitsFields_iff]
  simp only [fields, offset_location, endOffset_location, origin_location, List.forall_mem_cons,
    Json.withinDigits, decide_eq_true_eq]
  constructor
  · rintro ⟨-, -, hline, hcolumn, hoffset, hend, horigin, -⟩
    exact ⟨by simp [hline, hcolumn, hoffset, hend], horigin⟩
  · rintro ⟨hcoordinates, horigin⟩
    simp only [List.forall_mem_cons] at hcoordinates
    obtain ⟨hline, hcolumn, hoffset, hend, -⟩ := hcoordinates
    exact ⟨trivial, trivial, hline, hcolumn, hoffset, hend, horigin, by simp⟩

section Lists

variable {ts : List Token} (layout : Json.Layout)

theorem withinDigits_listToJson :
    (listToJson ts).withinDigits maxDigits = true ↔ ∀ t ∈ ts, t.Fits := by
  rw [listToJson, Json.withinDigits, Json.withinDigitsItems_iff, List.forall_mem_map]
  exact forall₂_congr fun _ _ ↦ withinDigits_record

theorem encode_of_fits (h : ∀ t ∈ ts, t.Fits) :
    encode layout ts = .ok ((listToJson ts).serialize layout) :=
  if_pos (withinDigits_listToJson.2 h)

theorem encode_of_not_fits (h : ¬ ∀ t ∈ ts, t.Fits) : encode layout ts = .error ⟨maxDigits⟩ :=
  if_neg (mt withinDigits_listToJson.1 h)

end Lists

/-- **Stored tokens are plain text.** A list of tokens that fit has a text without indentation that
is a single line of printable ASCII. It has a text for every indentation, too: in that, the only
other character is the line feed, no line feed stands in a string literal, and without the blanks
outside its literals it is the unindented one without them. A list with a token that does not fit
has no text for any indentation. -/
theorem encode_plain (ts : List Token) :
    ((∀ t ∈ ts, t.Fits) →
      ∃ line, encode (.ofIndent none) ts = .ok line ∧
        (∀ c ∈ line.toList, isPrintable c = true) ∧ '\n' ∉ line.toList ∧
        ∀ indent : ℤ, ∃ text, encode (.ofIndent (some indent)) ts = .ok text ∧
          (∀ c ∈ text.toList, isPrintable c = true ∨ c = '\n') ∧
          (∀ before behind, text.toList = before ++ '\n' :: behind →
            Json.Place.outside.after before = .outside) ∧
          Json.strip text.toList = Json.strip line.toList) ∧
      ((¬ ∀ t ∈ ts, t.Fits) →
        ∀ indent, encode (.ofIndent indent) ts = .error ⟨maxDigits⟩) := by
  obtain ⟨bare, hbare⟩ := Json.exists_bare (listToJson ts).sortKeys
  have hlaid (layout : Json.Layout) :
      Json.Laid layout bare ((listToJson ts).serialize layout).toList := by
    rw [Json.serialize, String.toList_ofList]
    exact hbare layout 0
  have hline : ∀ c ∈ ((listToJson ts).serialize .compact).toList, isPrintable c = true := by
    intro c hc
    rcases (hlaid .compact).shown c hc with hprintable | hblank
    · exact hprintable
    · rw [List.mem_singleton.1 hblank]
      rfl
  refine ⟨fun hfits ↦ ⟨_, encode_of_fits .compact hfits, hline, fun hmem ↦ ?_, fun indent ↦ ?_⟩,
    fun hnot indent ↦ encode_of_not_fits _ hnot⟩
  · exact absurd (hline '\n' hmem) (by decide)
  · set layout := Json.Layout.indented indent.toNat
    refine ⟨_, encode_of_fits layout hfits, fun c hc ↦ ?_,
      fun _ _ ↦ (hlaid layout).after_of_newline, ?_⟩
    · rcases (hlaid layout).shown c hc with hprintable | hblank
      · exact .inl hprintable
      · rcases List.mem_cons.1 hblank with rfl | hnewline
        · exact .inl rfl
        · exact .inr (List.mem_singleton.1 hnewline)
    · rw [(hlaid layout).strip_eq, (hlaid .compact).strip_eq]

/-- A token whose lexeme holds all that literals have to escape, and whose origin has blanks and
quotes in its names and values. -/
def prickly : Token :=
  ⟨"\" \\\n\x7f\u2028😀", .malformed, 1, -2, 0, 7,
    .obj [("a \"b\"", .arr [.str " ", .int 3]), ("", .obj [])]⟩

/-- It is shipped with an indentation of two. -/
theorem encode_plain_prickly :
    prickly.Fits ∧ ∃ line text, encode (.ofIndent none) [prickly] = .ok line ∧
      (∀ c ∈ line.toList, isPrintable c = true) ∧
        encode (.ofIndent (some 2)) [prickly] = .ok text ∧
          Json.strip text.toList = Json.strip line.toList := by
  have hfits : prickly.Fits := ⟨by decide, by decide⟩
  obtain ⟨line, hline, hprintable, -, hindent⟩ := (encode_plain [prickly]).1 (by simpa using hfits)
  obtain ⟨text, htext, -, -, hstrip⟩ := hindent 2
  exact ⟨hfits, line, text, hline, hprintable, htext, hstrip⟩

end TokenScan.Token
