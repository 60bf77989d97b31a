import TokenScan.Json.Equality
import TokenScan.Proofs.Json.RoundTrip

/-!
# Sorting the names changes nothing that is compared

Values are written with the names of every object sorted, so what reads back is the sorted value and
not the one that was given. For values that can be stored the difference cannot be seen: the sorted
value can be stored as well (`Storable.sortKeys`), it equals the given one
(`Storable.same_sortKeys`), and sorting it again does nothing (`Storable.sortKeys_sortKeys`), so its
text is the same text.

An object is looked up by name. Where names are distinct, a field is found exactly if it is there
(`lookup_eq_some_iff_mem`), and this does not depend on the order of the fields
(`lookup_eq_of_perm`). That is all that equality of objects and the records of tokens rely on.
-/

namespace TokenScan.Json

/-! ### Looking fields up -/

section Lookup

variable {fields others : Fields} {name : String} {v : Json}

/-- Among distinct names, a field is found exactly if it is there. -/
theorem lookup_eq_some_iff_mem (hnames : (fields.map Prod.fst).Nodup) :
    fields.lookup name = some v ↔ (name, v) ∈ fields := by
  induction fields with
  | nil => simp
  | cons f fields ih =>
    obtain ⟨other, w⟩ := f
    rw [List.map_cons, List.nodup_cons] at hnames
    by_cases hname : name = other
    · subst hname
      have habsent : (name, v) ∉ fields := fun h ↦ hnames.1 (List.mem_map.2 ⟨(name, v), h, rfl⟩)
      simp [habsent, eq_comm]
    · have hbeq : (name == other) = false := beq_eq_false_iff_ne.2 hname
      rw [List.lookup_cons, hbeq, List.mem_cons, ih hnames.2]
      simp [hname]

/-- **The order of distinct names does not matter.** -/
theorem lookup_eq_of_perm (h : fields.Perm others) (hnames : (fields.map Prod.fst).Nodup) :
    fields.lookup name = others.lookup name := by
  have hothers : (others.map Prod.fst).Nodup := (h.map Prod.fst).nodup_iff.1 hnames
  refine Option.ext fun v ↦ ?_
  rw [lookup_eq_some_iff_mem hnames, lookup_eq_some_iff_mem hothers]
  exact h.mem_iff

end Lookup

/-! ### Sorting -/

section Sorting

variable (fields : Fields)

/-- Fields with sorted values, in the order they were given. -/
def sortValues : Fields := fields.map fun f ↦ (f.1, f.2.sortKeys)

theorem sortKeysItems_eq_map (items : List Json) : sortKeysItems items = items.map sortKeys := by
  induction items with
  | nil => rfl
  | cons v vs ih => rw [sortKeysItems, ih, List.map_cons]

theorem sortKeysFields_eq : sortKeysFields fields = sortValues fields := by
  induction fields with
  | nil => rfl
  | cons f fields ih =>
    obtain ⟨name, v⟩ := f
    rw [sortKeysFields, ih]
    rfl

theorem sortKeys_arr (items : List Json) : sortKeys (.arr items) = .arr (items.map sortKeys) := by
  rw [sortKeys, sortKeysItems_eq_map]

theorem sortKeys_obj : sortKeys (.obj fields) = .obj ((sortValues fields).mergeSort fieldLe) := by
  rw [sortKeys, sortKeysFields_eq]

theorem sorted_perm : ((sortValues fields).mergeSort fieldLe).Perm (sortValues fields) :=
  List.mergeSort_perm (sortValues fields) fieldLe

theorem map_fst_sortValues : (sortValues fields).map Prod.fst = fields.map Prod.fst := by
  rw [sortValues, List.map_map]
  rfl

/-- Sorting keeps the names distinct. -/
theorem nodup_sorted (hnames : (fields.map Prod.fst).Nodup) :
    (((sortValues fields).mergeSort fieldLe).map Prod.fst).Nodup := by
  rw [((sorted_perm fields).map Prod.fst).nodup_iff, map_fst_sortValues]
  exact hnames

/-- The sorted fields are the given ones with sorted values. -/
theorem mem_sorted {f : String × Json} :
    f ∈ (sortValues fields).mergeSort fieldLe ↔ ∃ g ∈ fields, (g.1, g.2.sortKeys) = f := by
  rw [(sorted_perm fields).mem_iff, sortValues, List.mem_map]

/-- Sorting again does nothing. -/
theorem mergeSort_mergeSort :
    (fields.mergeSort fieldLe).mergeSort fieldLe = fields.mergeSort fieldLe := by
  refine List.mergeSort_of_pairwise (List.pairwise_mergeSort ?_ ?_ fields)
  · intro f g h hfg hgh
    simp only [fieldLe, decide_eq_true_eq] at hfg hgh ⊢
    exact String.le_trans hfg hgh
  · intro f g
    simp only [fieldLe, Bool.or_eq_true, decide_eq_true_eq]
    exact String.le_total f.1 g.1

end Sorting

/-! ### Sorting a value that can be stored -/

/-- **A sorted value can be stored**, if the given one can. -/
theorem Storable.sortKeys {limit : ℕ} {v : Json} (h : Storable limit v) :
    Storable limit v.sortKeys := by
  induction h with
  | null => exact .null
  | bool b => exact .bool b
  | int n hn => exact .int n hn
  | str s => exact .str s
  | arr items _ ih =>
    rw [sortKeys_arr]
    refine .arr _ fun w hw ↦ ?_
    obtain ⟨v, hv, rfl⟩ := List.mem_map.1 hw
    exact ih v hv
  | obj fields hnames _ ih =>
    rw [sortKeys_obj]
    refine .obj _ (nodup_sorted fields hnames) fun f hf ↦ ?_
    obtain ⟨g, hg, rfl⟩ := (mem_sorted fields).1 hf
    exact ih g hg

/-- **Sorting is done once.** -/
theorem Storable.sortKeys_sortKeys {limit : ℕ} {v : Json} (h : Storable limit v) :
    v.sortKeys.sortKeys = v.sortKeys := by
  induction h with
  | null => rfl
  | bool b => rfl
  | int n hn => rfl
  | str s => rfl
  | arr items _ ih =>
    rw [sortKeys_arr, sortKeys_arr, List.map_map]
    exact congrArg Json.arr (List.map_congr_left fun v hv ↦ ih v hv)
  | obj fields _ _ ih =>
    -- the values are sorted already, so only the names are left to sort, and they are as well
    have hvalues : sortValues ((sortValues fields).mergeSort fieldLe) =
        (sortValues fields).mergeSort fieldLe := by
      refine (List.map_congr_left fun f hf ↦ ?_).trans (List.map_id _)
      obtain ⟨g, hg, rfl⟩ := (mem_sorted fields).1 hf
      exact Prod.ext rfl (ih g hg)
    rw [sortKeys_obj, sortKeys_obj, hvalues, mergeSort_mergeSort]

/-! ### Equality -/

theorem denotes_int (n : ℤ) : (Json.int n).denotes (.ofInt n) = true := by
  simp [denotes, number?, FloatValue.ofInt, FloatValue.same, FloatValue.powerRatio]

theorem sameItems_map {f : Json → Json} {items : List Json}
    (h : ∀ v ∈ items, (f v).same v = true) : sameItems (items.map f) items = true := by
  induction items with
  | nil => rfl
  | cons v vs ih =>
    rw [List.map_cons, sameItems, h v List.mem_cons_self,
      ih fun w hw ↦ h w (List.mem_cons_of_mem v hw)]
    rfl

/-- Objects are compared field by field, by name. -/
theorem sameFields_iff {fields others : Fields} :
    sameFields fields others = true ↔
      ∀ f ∈ fields, ∃ w, others.lookup f.1 = some w ∧ f.2.same w = true := by
  induction fields with
  | nil => simp [sameFields]
  | cons f fields ih =>
    obtain ⟨name, v⟩ := f
    rw [sameFields, Bool.and_eq_true, ih, List.forall_mem_cons]
    refine and_congr_left fun _ ↦ ?_
    cases others.lookup name with
    | none => simp
    | some w => simp

/-- **A sorted value equals the given one.** -/
theorem Storable.same_sortKeys {limit : ℕ} {v : Json} (h : Storable limit v) :
    v.sortKeys.same v = true := by
  induction h with
  | null => rfl
  | bool b => cases b <;> decide
  | int n hn => exact denotes_int n
  | str s => simp [Json.sortKeys, same]
  | arr items _ ih =>
    rw [sortKeys_arr]
    exact sameItems_map ih
  | obj fields hnames _ ih =>
    have hlength : ((sortValues fields).mergeSort fieldLe).length = fields.length := by
      rw [List.length_mergeSort, sortValues, List.length_map]
    rw [sortKeys_obj, same, hlength, beq_self_eq_true, Bool.true_and, sameFields_iff]
    intro f hf
    obtain ⟨g, hg, rfl⟩ := (mem_sorted fields).1 hf
    exact ⟨g.2, (lookup_eq_some_iff_mem hnames).2 hg, ih g hg⟩

/-! ### Storing and reading -/

theorem withinDigitsItems_iff {limit : ℕ} {items : List Json} :
    withinDigitsItems limit items = true ↔ ∀ v ∈ items, v.withinDigits limit = true := by
  induction items with
  | nil => simp [withinDigitsItems]
  | cons v vs ih => rw [withinDigitsItems, Bool.and_eq_true, ih, List.forall_mem_cons]

theorem withinDigitsFields_iff {limit : ℕ} {fields : Fields} :
    withinDigitsFields limit fields = true ↔ ∀ f ∈ fields, f.2.withinDigits limit = true := by
  induction fields with
  | nil => simp [withinDigitsFields]
  | cons f fields ih => rw [withinDigitsFields, Bool.and_eq_true, ih, List.forall_mem_cons]

theorem Storable.withinDigits {limit : ℕ} {v : Json} (h : Storable limit v) :
    v.withinDigits limit = true := by
  induction h with
  | null => rfl
  | bool b => rfl
  | int n hn => exact decide_eq_true hn
  | str s => rfl
  | arr items _ ih => exact withinDigitsItems_iff.2 ih
  | obj fields _ _ ih => exact withinDigitsFields_iff.2 ih

/-- **What can be stored is written, and reads back** with its names sorted. -/
theorem Storable.read_write {limit : ℕ} {v : Json} (h : Storable limit v) (layout : Layout) :
    v.write limit layout = .ok (v.serialize layout) ∧
      read limit (v.serialize layout) = .ok v.sortKeys :=
  ⟨write_eq_ok_iff.2 ⟨h.withinDigits, rfl⟩, h.sortKeys.read_print layout⟩

end TokenScan.Json
