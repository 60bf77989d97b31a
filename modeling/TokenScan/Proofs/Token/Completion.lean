import TokenScan.Proofs.Token.Checks
import TokenScan.Proofs.Token.Record

/-!
# Records in full

Reading a record and writing the token again completes the record (`complete`): what was there is
kept as it was, and what was absent has its default. So the records that are written are the
canonical ones, and a token is the same thing as a record in full (`ofFields_canonical`).

One equivalence carries this (`ofFields_eq_ok_iff`): a record is read as a token exactly if each
field of the token is the one of the record, or the default where the record has none. There is one
table of defaults, and only the end in it depends on anything. It lies behind the lexeme, from the
offset on that the token has in the end, whether that was given or is a default itself.

The equivalence says nothing about a record that is refused. Errors depend on the seven fields only
for another reason, which is that the reader looks up no other names (`ofFields_congr`).
-/

namespace TokenScan.Token

/-- **What absent fields stand for**, in the record of a lexeme at an offset. The lexeme and the
category have to be there, so they have no default. -/
def defaults (lexeme : String) (offset : ℤ) : Json.Fields :=
  [("lineno", .int 1), ("col", .int 1), ("offset", .int 0),
    ("end_offset", .int (offset + lexeme.length)), ("source_file", .null)]

/-! ### What the readers accept -/

section Readers

variable {fields : Json.Fields} {name : String} {v : Json}

theorem bind_eq_ok_iff {α β : Type} {r : Except RecordError α} {f : α → Except RecordError β}
    {b : β} : (r >>= f) = .ok b ↔ ∃ a, r = .ok a ∧ f a = .ok b := by
  cases r with
  | error e => exact ⟨nofun, nofun⟩
  | ok a => simp [bind, Except.bind]

theorem requiredField_eq_ok_iff : requiredField fields name = .ok v ↔ fields.lookup name = some v :=
  ⟨lookup_of_requiredField, fun h ↦ by rw [requiredField, h]⟩

theorem readCategory_eq_ok_iff {k : Category} : readCategory v = .ok k ↔ v = .str k.name := by
  rw [readCategory]
  cases v with
  | str s =>
    rw [Category.ofJson?, Json.str.injEq, ← Category.ofName?_eq_some_iff]
    cases Category.ofName? s <;> simp
  | _ => simp [Category.ofJson?]

theorem readLexeme_eq_ok_iff {s : String} : readLexeme v = .ok s ↔ v = .str s := by
  cases v <;> simp [readLexeme]

/-- **A coordinate and its default**: what is found is the number that is given, or the default if
none is. -/
theorem exists_coordinate?_iff {n default : ℤ} :
    (∃ n?, coordinate? fields name = .ok n? ∧ n?.getD default = n) ↔
      some (.int n) = (fields.lookup name).or (some (.int default)) := by
  rw [coordinate?]
  rcases fields.lookup name with _ | v
  · simp [eq_comm]
  · cases v <;> simp [eq_comm]

end Readers

/-- **A record is read as a token exactly if completing it gives the token's record**: each field of
the token is the one that is there, or else the default. -/
theorem ofFields_eq_ok_iff {fields : Json.Fields} {t : Token} :
    ofFields fields = .ok t ↔
      ∀ name ∈ fieldNames, t.fields.lookup name =
        (fields.lookup name).or ((defaults t.lexeme t.offset).lookup name) := by
  simp only [ofFields, bind_eq_ok_iff, requiredField_eq_ok_iff, readCategory_eq_ok_iff,
    readLexeme_eq_ok_iff, fieldNames, List.forall_mem_cons]
  constructor
  · rintro ⟨_, hlexeme, _, hcategory, k, rfl, s, rfl, line?, hline, column?, hcolumn, offset?,
      hoffset, end?, hend, ht⟩
    obtain rfl := Except.ok.inj ht
    refine ⟨?_, ?_, exists_coordinate?_iff.1 ⟨line?, hline, rfl⟩,
      exists_coordinate?_iff.1 ⟨column?, hcolumn, rfl⟩,
      exists_coordinate?_iff.1 ⟨offset?, hoffset, rfl⟩,
      exists_coordinate?_iff.1 ⟨end?, hend, rfl⟩, Option.or_some.symm, by simp⟩
    · rw [hlexeme]
      rfl
    · rw [hcategory]
      rfl
  · rintro ⟨hlexeme, hcategory, hline, hcolumn, hoffset, hend, horigin, -⟩
    obtain ⟨line?, hline, hlineD⟩ := exists_coordinate?_iff.2 hline
    obtain ⟨column?, hcolumn, hcolumnD⟩ := exists_coordinate?_iff.2 hcolumn
    obtain ⟨offset?, hoffset, hoffsetD⟩ := exists_coordinate?_iff.2 hoffset
    obtain ⟨end?, hend, hendD⟩ := exists_coordinate?_iff.2 hend
    have horiginD := Option.some.inj (horigin.trans Option.or_some)
    refine ⟨_, Option.or_none.symm.trans hlexeme.symm, _, Option.or_none.symm.trans hcategory.symm,
      t.category, rfl, t.lexeme, rfl, line?, hline, column?, hcolumn, offset?, hoffset, end?, hend,
      ?_⟩
    rw [hlineD, hcolumnD, hoffsetD, offset_location, hendD, ← horiginD]
    rfl

/-- The record in full: what is written of the token that is read. -/
def complete (fields : Json.Fields) : Except RecordError Json.Fields :=
  (ofFields fields).map Token.fields

/-- A record in full is as complete as it gets. -/
theorem complete_complete (fields : Json.Fields) :
    complete fields >>= complete = complete fields := by
  rw [complete]
  rcases ofFields fields with e | t
  · rfl
  · show complete t.fields = .ok t.fields
    rw [complete, ofFields_fields]
    rfl

/-- **Records in full are canonical.** The record of a token has the seven names, and it is read as
the token. A record is read as a token exactly if the fields of the token are those of the record,
with defaults for the absent ones. Records that agree on the seven names are read alike or refused
alike, whatever else they hold and in whatever order. Completing a record twice is completing it
once. -/
theorem ofFields_canonical :
    (∀ t : Token, t.fields.map Prod.fst = fieldNames ∧ ofFields t.fields = .ok t) ∧
      (∀ (fields : Json.Fields) (t : Token), ofFields fields = .ok t ↔
        ∀ name ∈ fieldNames, t.fields.lookup name =
          (fields.lookup name).or ((defaults t.lexeme t.offset).lookup name)) ∧
      (∀ fields others : Json.Fields,
        (∀ name ∈ fieldNames, fields.lookup name = others.lookup name) →
          ofFields fields = ofFields others) ∧
      ∀ fields : Json.Fields, complete fields >>= complete = complete fields :=
  ⟨fun t ↦ ⟨rfl, ofFields_fields t⟩, fun _ _ ↦ ofFields_eq_ok_iff, fun _ _ ↦ ofFields_congr,
    complete_complete⟩

/-- A record with a field of another name, out of order and without four of the seven. -/
def sparse : Json.Fields :=
  [("rank", .arr []), ("offset", .int (-7)), ("category", .str "Malformed"), ("lexeme", .str "é😀")]

/-- Its end lies two characters behind the offset that it gives. Without the other field and in the
order of writing it reads the same, and so it does with a category that is refused. -/
theorem ofFields_canonical_sparse :
    ofFields sparse = .ok ⟨"é😀", .malformed, 1, 1, -7, -5, .null⟩ ∧
      ofFields [("lexeme", .str "é😀"), ("category", .str "Malformed"), ("offset", .int (-7))] =
        ofFields sparse ∧
      ofFields (("category", .null) :: sparse) =
        ofFields [("lexeme", .str "é😀"), ("category", .null), ("offset", .int (-7))] := by
  obtain ⟨-, hread, hcongr, -⟩ := ofFields_canonical
  have hlength : "é😀".length = 2 := by decide
  refine ⟨(hread _ _).2 ?_, hcongr _ _ ?_, hcongr _ _ ?_⟩
  · simp [fieldNames, sparse, fields, defaults, List.lookup_cons, Category.name, hlength]
  · simp [fieldNames, sparse, List.lookup_cons]
  · simp [fieldNames, sparse, List.lookup_cons]

end TokenScan.Token
