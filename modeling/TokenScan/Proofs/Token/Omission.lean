import TokenScan.Proofs.Session.Scan
import TokenScan.Proofs.Token.Completion

/-!
# What the record of a scanned token can leave out

The defaults of a record are those of a token at the beginning of a text, and the default end is the
one that the scanner gives. So the record of a scanned token can always do without its end, and
without any other field that happens to hold its default (`tokenize_omits`).

Three ways lead to the end of a token. The scanner takes the offset of its cursor, the record adds
the length of the lexeme to the offset, and the location adds it to the column. They agree since a
lexeme is exactly the text that the cursor has passed (`endOffset_of_mem_tokenize`). What is left
out does not matter beyond that: a record in which only defaults are missing is completed to the
same record (`ofFields_filter_notMem`).
-/

namespace TokenScan

namespace Token

/-- Fields are looked up among those that are kept. -/
theorem lookup_filter_notMem (fields : Json.Fields) (dropped : List String) (name : String) :
    (fields.filter fun f ↦ f.1 ∉ dropped).lookup name =
      if name ∈ dropped then none else fields.lookup name := by
  induction fields with
  | nil => simp
  | cons f fields ih =>
    obtain ⟨other, v⟩ := f
    by_cases hother : other ∈ dropped
    · rw [List.filter_cons_of_neg (by simpa using hother), ih]
      by_cases hname : name = other
      · rw [if_pos (hname ▸ hother), if_pos (hname ▸ hother)]
      · rw [List.lookup_cons, beq_eq_false_iff_ne.2 hname]
    · rw [List.filter_cons_of_pos (by simpa using hother)]
      by_cases hname : name = other
      · subst hname
        rw [List.lookup_cons_self, List.lookup_cons_self, if_neg hother]
      · rw [List.lookup_cons, List.lookup_cons, beq_eq_false_iff_ne.2 hname]
        exact ih

/-- **Fields that hold their defaults can be left out**, any number of them. -/
theorem ofFields_filter_notMem {t : Token} {dropped : List String}
    (h : ∀ name ∈ dropped, t.fields.lookup name = (defaults t.lexeme t.offset).lookup name) :
    ofFields (t.fields.filter fun f ↦ f.1 ∉ dropped) = .ok t := by
  have hkept := ofFields_eq_ok_iff.1 t.ofFields_fields
  rw [ofFields_eq_ok_iff]
  intro name hname
  rw [lookup_filter_notMem]
  split_ifs with hdropped
  · rw [h name hdropped, Option.none_or]
  · exact hkept name hname

/-- **A field besides the end that holds its default**: a line or a column of one, an offset of
zero, or no name of the text. -/
def Spare (t : Token) (name : String) : Prop :=
  name = "lineno" ∧ t.line = 1 ∨ name = "col" ∧ t.column = 1 ∨
    name = "offset" ∧ t.offset = 0 ∨ name = "source_file" ∧ t.origin = .null

theorem Spare.lookup_eq {t : Token} {name : String} (h : t.Spare name) :
    t.fields.lookup name = (defaults t.lexeme t.offset).lookup name := by
  rcases h with ⟨rfl, hline⟩ | ⟨rfl, hcolumn⟩ | ⟨rfl, hoffset⟩ | ⟨rfl, horigin⟩
  · exact congrArg (some ∘ Json.int) hline
  · exact congrArg (some ∘ Json.int) hcolumn
  · exact congrArg (some ∘ Json.int) hoffset
  · exact congrArg some horigin

end Token

section Tokens

variable {source : String} {origin : Option String} {config : Config} {t : Token}

/-- **A token ends behind its lexeme.** -/
theorem endOffset_of_mem_tokenize (ht : t ∈ tokenize source origin config) :
    t.endOffset = t.offset + t.lexeme.length := by
  obtain ⟨opened, h⟩ := scan_tokenize source origin config
  obtain ⟨before, w, rest, k, -, -, rfl⟩ := h.exists_of_mem ht
  show ((Position.start.advanceOver before).offset + w.length : ℤ) =
    (Position.start.advanceOver before).offset + (String.ofList w).length
  rw [String.length_ofList]

/-- **The defaults of a record agree with the scanner.** The record of a scanned token without its
end, and without any others of its fields that hold their defaults, is read as the token. The token
spans as many characters as its lexeme has, and as many columns. -/
theorem tokenize_omits (ht : t ∈ tokenize source origin config) :
    (∀ dropped : List String, (∀ name ∈ dropped, t.Spare name) →
      Token.ofFields (t.fields.filter fun f ↦ f.1 ∉ "end_offset" :: dropped) = .ok t) ∧
      t.location.length = t.lexeme.length ∧
      ∃ endColumn, t.location.endColumn = some endColumn ∧
        endColumn - t.location.column = t.lexeme.length := by
  have hend := endOffset_of_mem_tokenize ht
  refine ⟨fun dropped hdropped ↦ Token.ofFields_filter_notMem ?_, ?_, _, rfl, ?_⟩
  · rw [List.forall_mem_cons]
    exact ⟨congrArg (some ∘ Json.int) hend, fun name hname ↦ (hdropped name hname).lookup_eq⟩
  · show t.endOffset - t.offset = t.lexeme.length
    omega
  · show t.column + t.lexeme.length - t.column = t.lexeme.length
    omega

end Tokens

/-- A single character beyond `0xFFFF`, at the start of the second line: its record needs neither
column nor end nor name, but it needs line and offset. -/
theorem tokenize_omits_second_line :
    (⟨"😀", .malformed, 2, 1, 1, 2, .null⟩ : Token) ∈ tokenize "\n😀" none .default ∧
      Token.ofFields [("lexeme", .str "😀"), ("category", .str "Malformed"), ("lineno", .int 2),
        ("offset", .int 1)] = .ok ⟨"😀", .malformed, 2, 1, 1, 2, .null⟩ ∧
      (⟨"😀", .malformed, 2, 1, 1, 2, .null⟩ : Token).location.length = "😀".length := by
  have hmem : (⟨"😀", .malformed, 2, 1, 1, 2, .null⟩ : Token) ∈ tokenize "\n😀" none .default :=
    List.mem_singleton.2 rfl
  obtain ⟨hread, hlength, -⟩ := tokenize_omits hmem
  refine ⟨hmem, hread ["col", "source_file"] ?_, hlength⟩
  rw [List.forall_mem_cons, List.forall_mem_singleton]
  exact ⟨.inr (.inl ⟨rfl, rfl⟩), .inr (.inr (.inr ⟨rfl, rfl⟩))⟩

end TokenScan
