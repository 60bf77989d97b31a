import TokenScan.Proofs.Json.SortKeys
import TokenScan.Token.Record

/-!
# Token lists survive being stored

A list of tokens is written as a JSON array of records and read back from it. What is read is the
list that was written, except that the names in the origin of a token come sorted (`Token.sorted`);
tokens are compared by meaning, so the two lists are equal, and the text of the second list is the
text of the first (`decode_encode`).

A record is read by looking its fields up, and nothing else of it counts (`ofFields_congr`). So it
is enough that a record in the order of writing reads back (`ofFields_fields`): sorting its names
changes no look-up.
-/

namespace TokenScan.Token

/-- **Tokens that can be stored**: the coordinates are not too large, and the origin can be
stored. -/
structure Storable (t : Token) : Prop where
  /-- Every coordinate has at most as many digits as may be written. -/
  coordinates : ∀ n ∈ [t.line, t.column, t.offset, t.endOffset],
    (natText n.natAbs).length ≤ maxDigits
  /-- The name of the text is a value that can be stored. -/
  origin : t.origin.Storable maxDigits

/-! ### Single records -/

/-- The names of the fields of a record, in the order of writing. -/
def fieldNames : List String :=
  ["lexeme", "category", "lineno", "col", "offset", "end_offset", "source_file"]

/-- The seven names of a record are distinct. -/
theorem nodup_fields (t : Token) : (t.fields.map Prod.fst).Nodup := by
  show fieldNames.Nodup
  decide

/-- The record of a token that can be stored is a value that can be. -/
theorem Storable.record {t : Token} (h : t.Storable) :
    (Json.obj t.fields).Storable maxDigits := by
  have hcoordinates := h.coordinates
  simp only [List.forall_mem_cons, List.not_mem_nil, false_implies, implies_true, and_true]
    at hcoordinates
  obtain ⟨hline, hcolumn, hoffset, hend⟩ := hcoordinates
  refine .obj _ t.nodup_fields ?_
  simp only [fields, List.forall_mem_cons]
  exact ⟨.str _, .str _, .int _ hline, .int _ hcolumn, .int _ hoffset, .int _ hend, h.origin,
    by simp⟩

/-- **Reading a record only looks its seven fields up**, also where it fails. -/
theorem ofFields_congr {fields others : Json.Fields}
    (h : ∀ name ∈ fieldNames, fields.lookup name = others.lookup name) :
    ofFields fields = ofFields others := by
  simp only [fieldNames, List.forall_mem_cons] at h
  obtain ⟨hlexeme, hcategory, hline, hcolumn, hoffset, hend, horigin, -⟩ := h
  simp only [ofFields, requiredField, coordinate?, hlexeme, hcategory, hline, hcolumn, hoffset,
    hend, horigin]

/-- **The record of a token reads back as the token.** -/
theorem ofFields_fields (t : Token) : ofFields t.fields = .ok t := by
  have hcategory : readCategory (.str t.category.name) = .ok t.category := by
    rw [readCategory, Category.ofJson?, Category.ofName?_name]
  show (readCategory (.str t.category.name)).bind _ = _
  rw [hcategory]
  rfl

/-- The token with the names in its origin sorted. -/
def sorted (t : Token) : Token := { t with origin := t.origin.sortKeys }

/-- Only the origin of a token has names to sort. -/
theorem sortValues_fields (t : Token) : Json.sortValues t.fields = t.sorted.fields := rfl

/-- A sorted record reads back as the sorted token. -/
theorem ofElement_sortKeys (t : Token) :
    ofElement (Json.obj t.fields).sortKeys = .ok t.sorted := by
  have hperm := Json.sorted_perm t.fields
  have hnames := Json.nodup_sorted t.fields t.nodup_fields
  rw [Json.sortKeys_obj, ofElement, ofFields_congr fun _ _ ↦ Json.lookup_eq_of_perm hperm hnames,
    sortValues_fields, ofFields_fields]

theorem Storable.sorted {t : Token} (h : t.Storable) : t.sorted.Storable :=
  ⟨h.coordinates, h.origin.sortKeys⟩

/-- **A sorted token equals the given one.** -/
theorem Storable.same_sorted {t : Token} (h : t.Storable) : t.sorted.same t = true := by
  simp [same, Token.sorted, h.origin.same_sortKeys]

/-- A sorted token is stored as the given one is. -/
theorem Storable.sortKeys_record_sorted {t : Token} (h : t.Storable) :
    (Json.obj t.sorted.fields).sortKeys = (Json.obj t.fields).sortKeys := by
  have hsorted : t.sorted.sorted = t.sorted := by
    simp [Token.sorted, h.origin.sortKeys_sortKeys]
  rw [Json.sortKeys_obj, Json.sortKeys_obj, sortValues_fields, sortValues_fields, hsorted]

/-! ### Lists of records -/

section Lists

variable {ts : List Token}

theorem storable_listToJson (h : ∀ t ∈ ts, t.Storable) : (listToJson ts).Storable maxDigits := by
  refine .arr _ fun v hv ↦ ?_
  obtain ⟨t, ht, rfl⟩ := List.mem_map.1 hv
  exact (h t ht).record

theorem sortKeys_listToJson (ts : List Token) :
    (listToJson ts).sortKeys = .arr (ts.map fun t ↦ (Json.obj t.fields).sortKeys) := by
  rw [listToJson, Json.sortKeys_arr, List.map_map]
  rfl

/-- The sorted records of a list read back as the sorted tokens. -/
theorem listOfJson_sortKeys (ts : List Token) :
    listOfJson (listToJson ts).sortKeys = .ok (ts.map sorted) := by
  rw [sortKeys_listToJson, listOfJson]
  induction ts with
  | nil => rfl
  | cons t ts ih =>
    rw [List.map_cons, List.mapM_cons, ofElement_sortKeys, ih]
    rfl

/-- A list of sorted tokens equals the given one. -/
theorem sameAll_map_sorted (h : ∀ t ∈ ts, t.Storable) : sameAll (ts.map sorted) ts = true := by
  rw [sameAll, List.length_map, beq_self_eq_true, Bool.true_and, List.all_eq_true,
    ← List.map_prod_right_eq_zip]
  intro p hp
  obtain ⟨t, ht, rfl⟩ := List.mem_map.1 hp
  exact (h t ht).same_sorted

/-- A list of sorted tokens is stored as the given one is. -/
theorem sortKeys_listToJson_map_sorted (h : ∀ t ∈ ts, t.Storable) :
    (listToJson (ts.map sorted)).sortKeys = (listToJson ts).sortKeys := by
  rw [sortKeys_listToJson, sortKeys_listToJson, List.map_map]
  exact congrArg Json.arr (List.map_congr_left fun t ht ↦ (h t ht).sortKeys_record_sorted)

end Lists

/-- **Storing and reading.** Every list of tokens that can be stored is written, with any
indentation; the text reads back as a list of equal tokens; and writing that list gives the same
text. -/
theorem decode_encode (ts : List Token) (indent : Option ℤ) (h : ∀ t ∈ ts, t.Storable) :
    ∃ text us, encode (.ofIndent indent) ts = .ok text ∧ decode text = .ok us ∧
      sameAll us ts = true ∧ encode (.ofIndent indent) us = .ok text := by
  obtain ⟨hwrite, hread⟩ := (storable_listToJson h).read_write (.ofIndent indent)
  have hsorted : ∀ u ∈ ts.map sorted, u.Storable := by
    intro u hu
    obtain ⟨t, ht, rfl⟩ := List.mem_map.1 hu
    exact (h t ht).sorted
  obtain ⟨hagain, -⟩ := (storable_listToJson hsorted).read_write (.ofIndent indent)
  -- what is read is the sorted list, and in writing it again there is nothing left to sort
  refine ⟨_, ts.map sorted, hwrite, ?_, sameAll_map_sorted h, ?_⟩
  · rw [decode, hread]
    show (listOfJson (listToJson ts).sortKeys).mapError DecodeError.record = .ok (ts.map sorted)
    rw [listOfJson_sortKeys]
    rfl
  · rw [encode, hagain, Json.serialize, Json.serialize, sortKeys_listToJson_map_sorted h]

/-- A token whose lexeme needs every kind of escape, and whose origin has names out of order. -/
def awkward : Token :=
  ⟨"\"\\\n\u2028😀", .malformed, -3, 12, 0, 5,
    .obj [("b", .arr [.int (-70), .bool true, .null]), ("a", .obj []), ("", .str "é")]⟩

/-- It survives a negative indentation, which breaks lines and indents none of them. -/
theorem decode_encode_awkward :
    awkward.Storable ∧ ∃ text us, encode (.ofIndent (some (-1))) [awkward] = .ok text ∧
      decode text = .ok us ∧ sameAll us [awkward] = true ∧
        encode (.ofIndent (some (-1))) us = .ok text := by
  have hitems : (Json.arr [.int (-70), .bool true, .null]).Storable maxDigits := by
    refine .arr _ ?_
    simp only [List.forall_mem_cons]
    exact ⟨.int _ (by decide), .bool true, .null, by simp⟩
  have horigin : awkward.origin.Storable maxDigits := by
    refine .obj _ (by decide) ?_
    simp only [List.forall_mem_cons]
    exact ⟨hitems, .obj [] (by simp) (by simp), .str "é", by simp⟩
  have hstorable : awkward.Storable := ⟨by decide, horigin⟩
  exact ⟨hstorable, decode_encode [awkward] (some (-1)) (by simpa using hstorable)⟩

end TokenScan.Token
