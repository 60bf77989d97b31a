import Mathlib.Data.Set.List
import TokenScan.Proofs.Json.RoundTrip
import TokenScan.Token.Record

/-!
# The first violation decides

A text that holds a JSON value is a list of tokens, or it breaks some rule. `decode_first_violation`
says which texts are lists of tokens, and which error the others give. An element of a list has nine
checks to pass, in a fixed order (`Check.order`), and is acceptable if it passes them all. The list
is read if all its elements are acceptable; otherwise the error is that of the first check that the
first other element fails, whatever else is wrong behind it.

What an error depends on is said twice. It is a function of the check and the element
(`Check.error`), and of the element only what the check looks at counts (`Check.Alike`). So two lists
whose first violations look alike give one error, and nothing is asked of what follows in either.

The reader has no list of checks: it is a chain of functions, each of which needs what the one before
it found. `Performs` ties the two together. Every function of the chain performs one check, and a
chain performs the checks of its parts in turn.
-/

namespace TokenScan

namespace Json

/-- The value of a field, if there is one. Only objects have fields. -/
def field? : Json → String → Option Json
  | .obj fields, name => fields.lookup name
  | _, _ => none

/-- The kind of the value of a field, if there is one. -/
def fieldKind? (v : Json) (name : String) : Option Kind := (v.field? name).map kind

end Json

namespace Token

/-! ### The checks -/

/-- What an element has to pass to be the record of a token. -/
inductive Check where
  /-- The element is an object. -/
  | object
  /-- A field is there. -/
  | has (name : String)
  /-- The category is one of the display names. -/
  | knownCategory
  /-- The lexeme is a string. -/
  | stringLexeme
  /-- A coordinate is a whole number, if it is there. -/
  | wholeNumber (name : String)

/-- The names by which records know the categories. -/
def categoryNames : List String :=
  ["Keyword", "Identifier", "NumericLiteral", "Operator", "Punctuation", "Malformed"]

namespace Check

/-- The checks in the order in which they are made. -/
def order : List Check :=
  [object, has "lexeme", has "category", knownCategory, stringLexeme, wholeNumber "lineno",
    wholeNumber "col", wholeNumber "offset", wholeNumber "end_offset"]

/-- What it means to pass. Truth values, floats and null are no whole numbers. -/
def Holds (e : Json) : Check → Prop
  | object => e.kind = .obj
  | has name => (e.field? name).isSome
  | knownCategory => ∃ name ∈ categoryNames, e.field? "category" = some (.str name)
  | stringLexeme => e.fieldKind? "lexeme" = some .str
  | wholeNumber name => e.fieldKind? name = none ∨ e.fieldKind? name = some .int

/-- The error of an element that fails. A check of a field that has to be there comes behind the one
that it is there, so the null value never stands in for it. -/
def error (e : Json) : Check → RecordError
  | object => .elementKind e.kind
  | has name => .missing name
  | knownCategory => .unknownCategory ((e.field? "category").getD .null)
  | stringLexeme => .lexemeKind ((e.fieldKind? "lexeme").getD .null)
  | wholeNumber name => .coordinateKind name ((e.fieldKind? name).getD .null)

/-- **Elements that a check cannot tell apart.** All that it looks at is the kind of a value or
whether a field is there, except that a category is looked at as it is. -/
def Alike (e e' : Json) : Check → Prop
  | object => e.kind = e'.kind
  | has name => (e.field? name).isSome = (e'.field? name).isSome
  | knownCategory => e.field? "category" = e'.field? "category"
  | stringLexeme => e.fieldKind? "lexeme" = e'.fieldKind? "lexeme"
  | wholeNumber name => e.fieldKind? name = e'.fieldKind? name

variable {e e' : Json} {c : Check}

theorem Alike.holds_iff (h : c.Alike e e') : c.Holds e ↔ c.Holds e' := by
  cases c <;> simp only [Alike] at h <;> simp only [Holds, h]

theorem Alike.error_eq (h : c.Alike e e') : c.error e = c.error e' := by
  cases c <;> simp only [Alike] at h <;> simp only [error, h]

end Check

/-- **Elements that can be read**: they pass every check. -/
def Acceptable (e : Json) : Prop := ∀ c ∈ Check.order, c.Holds e

/-! ### Making checks in turn -/

/-- A result that comes from making checks in turn: it is the error of the first check that fails. -/
inductive Performs (e : Json) {α : Type} : List Check → Except RecordError α → Prop
  | done (a : α) : Performs e [] (.ok a)
  | fails {c : Check} {cs : List Check} : ¬ c.Holds e → Performs e (c :: cs) (.error (c.error e))
  | holds {c : Check} {cs : List Check} {r : Except RecordError α} :
      c.Holds e → Performs e cs r → Performs e (c :: cs) r

namespace Performs

variable {e : Json} {α β : Type} {cs ds : List Check} {r : Except RecordError α}

/-- **One reader behind another** makes its checks behind the other's. -/
theorem bind {f : α → Except RecordError β} (h : Performs e cs r)
    (hf : ∀ a, r = .ok a → Performs e ds (f a)) : Performs e (cs ++ ds) (r >>= f) := by
  induction h with
  | done a => exact hf a rfl
  | fails hc => exact .fails hc
  | holds hc _ ih => exact .holds hc (ih hf)

theorem fails_with {c : Check} {err : RecordError} (hc : ¬ c.Holds e) (herror : c.error e = err) :
    Performs e (c :: cs) (.error err : Except RecordError α) := herror ▸ .fails hc

theorem exists_ok_iff (h : Performs e cs r) : (∃ a, r = .ok a) ↔ ∀ c ∈ cs, c.Holds e := by
  induction h with
  | done a => simp
  | fails hc => simp [hc]
  | holds hc _ ih => simp [hc, ih]

theorem eq_error {earlier later : List Check} {c : Check}
    (h : Performs e (earlier ++ c :: later) r) (hearlier : ∀ d ∈ earlier, d.Holds e)
    (hc : ¬ c.Holds e) : r = .error (c.error e) := by
  induction earlier with
  | nil =>
    cases h with
    | fails => rfl
    | holds hholds => exact absurd hholds hc
  | cons d earlier ih =>
    rw [List.forall_mem_cons] at hearlier
    cases h with
    | fails hfails => exact absurd hearlier.1 hfails
    | holds _ hrest => exact ih hrest hearlier.2

end Performs

/-! ### Reading makes the checks -/

/-- A value names a category exactly if it is one of the display names. -/
theorem ofJson?_isSome_iff {v : Json} :
    (Category.ofJson? v).isSome ↔ ∃ name ∈ categoryNames, v = .str name := by
  have hnames : categoryNames = Category.all.map Category.name := rfl
  cases v with
  | str s => simp [Category.ofJson?, Category.ofName?, hnames]
  | _ => simp [Category.ofJson?]

section Records

variable {fields : Json.Fields} {name : String} {v : Json}

theorem performs_requiredField (fields : Json.Fields) (name : String) :
    Performs (.obj fields) [.has name] (requiredField fields name) := by
  rw [requiredField]
  split
  · next v h => exact .holds (Option.isSome_of_eq_some h) (.done v)
  · next h => exact .fails (by simp [Check.Holds, Json.field?, h])

theorem lookup_of_requiredField (h : requiredField fields name = .ok v) :
    fields.lookup name = some v := by
  rw [requiredField] at h
  split at h
  · next h' => rw [h', Except.ok.inj h]
  · cases h

theorem performs_readCategory (h : fields.lookup "category" = some v) :
    Performs (.obj fields) [.knownCategory] (readCategory v) := by
  have hholds : Check.knownCategory.Holds (.obj fields) ↔ (Category.ofJson? v).isSome := by
    simp [Check.Holds, Json.field?, h, ofJson?_isSome_iff]
  rw [readCategory]
  split
  · next category hv => exact .holds (hholds.2 (Option.isSome_of_eq_some hv)) (.done category)
  · next hv => exact .fails_with (by simp [hholds, hv]) (by simp [Check.error, Json.field?, h])

theorem fieldKind?_obj (h : fields.lookup name = some v) :
    (Json.obj fields).fieldKind? name = some v.kind := congrArg (Option.map Json.kind) h

theorem performs_readLexeme (h : fields.lookup "lexeme" = some v) :
    Performs (.obj fields) [.stringLexeme] (readLexeme v) := by
  have hkind := fieldKind?_obj h
  cases v with
  | str s => exact .holds hkind (.done s)
  | _ => exact .fails_with (by simp [Check.Holds, hkind, Json.kind]) (by simp [Check.error, hkind])

theorem performs_coordinate? (fields : Json.Fields) (name : String) :
    Performs (.obj fields) [.wholeNumber name] (coordinate? fields name) := by
  rw [coordinate?]
  cases h : fields.lookup name with
  | none => exact .holds (.inl (congrArg (Option.map Json.kind) h)) (.done none)
  | some v =>
    have hkind := fieldKind?_obj h
    cases v with
    | int n => exact .holds (.inr hkind) (.done (some n))
    | _ => exact .fails_with (by simp [Check.Holds, hkind, Json.kind]) (by simp [Check.error, hkind])

/-- **Reading a record makes all checks but the first.** -/
theorem performs_ofFields (fields : Json.Fields) :
    Performs (.obj fields) Check.order.tail (ofFields fields) := by
  refine (performs_requiredField fields "lexeme").bind fun lexeme hlexeme ↦ ?_
  refine (performs_requiredField fields "category").bind fun category hcategory ↦ ?_
  refine (performs_readCategory (lookup_of_requiredField hcategory)).bind fun _ _ ↦ ?_
  refine (performs_readLexeme (lookup_of_requiredField hlexeme)).bind fun _ _ ↦ ?_
  refine (performs_coordinate? fields "lineno").bind fun _ _ ↦ ?_
  refine (performs_coordinate? fields "col").bind fun _ _ ↦ ?_
  refine (performs_coordinate? fields "offset").bind fun _ _ ↦ ?_
  refine (performs_coordinate? fields "end_offset").bind fun _ _ ↦ ?_
  exact .done _

/-- **Reading an element makes all checks, in order.** -/
theorem performs_ofElement (e : Json) : Performs e Check.order (ofElement e) := by
  cases e with
  | obj fields => exact .holds rfl (performs_ofFields fields)
  | _ => exact .fails (by simp [Check.Holds, Json.kind])

end Records

/-- An element is read exactly if it is acceptable. -/
theorem exists_ofElement_iff {e : Json} : (∃ t, ofElement e = .ok t) ↔ Acceptable e :=
  (performs_ofElement e).exists_ok_iff

/-! ### Lists -/

section Traversal

variable {α β ε : Type} {f : α → Except ε β} {xs : List α}

/-- Items that can be read one by one can be read in a row. -/
theorem mapM_of_map_eq {ys : List β} (h : xs.map f = ys.map .ok) : xs.mapM f = .ok ys := by
  induction xs generalizing ys with
  | nil =>
    cases ys with
    | nil => rfl
    | cons y ys => cases h
  | cons x xs ih =>
    cases ys with
    | nil => cases h
    | cons y ys =>
      obtain ⟨hx, hxs⟩ := List.cons.inj h
      rw [List.mapM_cons, hx, ih hxs]
      rfl

theorem exists_map_eq (h : ∀ x ∈ xs, ∃ y, f x = .ok y) : ∃ ys : List β, xs.map f = ys.map .ok := by
  have hrange : xs.map f ∈ Set.range (List.map Except.ok) := by
    rw [Set.range_list_map]
    intro r hr
    obtain ⟨x, hx, rfl⟩ := List.mem_map.1 hr
    obtain ⟨y, hy⟩ := h x hx
    exact ⟨y, hy.symm⟩
  obtain ⟨ys, hys⟩ := hrange
  exact ⟨ys, hys.symm⟩

/-- The first item that cannot be read decides. -/
theorem mapM_eq_error {before behind : List α} {x : α} {err : ε}
    (hbefore : ∀ y ∈ before, ∃ b, f y = .ok b) (hx : f x = .error err) :
    (before ++ x :: behind).mapM f = .error err := by
  obtain ⟨ys, hys⟩ := exists_map_eq hbefore
  rw [List.mapM_append, mapM_of_map_eq hys, List.mapM_cons, hx]
  rfl

/-- A list not all of whose items have a property has a first item without it. -/
theorem exists_first_not {P : α → Prop} (h : ¬ ∀ x ∈ xs, P x) :
    ∃ before x behind, xs = before ++ x :: behind ∧ (∀ y ∈ before, P y) ∧ ¬ P x := by
  classical
  have hsome : (xs.find? fun x ↦ !decide (P x)).isSome := by simpa using h
  obtain ⟨x, hx⟩ := Option.isSome_iff_exists.1 hsome
  obtain ⟨hnot, before, behind, heq, hbefore⟩ := List.find?_eq_some_iff_append.1 hx
  exact ⟨before, x, behind, heq, by simpa using hbefore, by simpa using hnot⟩

end Traversal

/-- **A first violation**: an element behind acceptable ones, and a check that it fails behind checks
that it passes. -/
structure FirstViolation where
  /-- The acceptable elements. -/
  before : List Json
  /-- The element that is not acceptable. -/
  element : Json
  /-- The elements behind it, of any form. -/
  behind : List Json
  /-- The checks that the element passes. -/
  earlier : List Check
  /-- The check that it fails. -/
  check : Check
  /-- The checks that are not made. -/
  later : List Check
  order_eq : Check.order = earlier ++ check :: later
  acceptable : ∀ e ∈ before, Acceptable e
  holds : ∀ c ∈ earlier, c.Holds element
  fails : ¬ check.Holds element

namespace FirstViolation

/-- The list that the violation is in. -/
def items (x : FirstViolation) : List Json := x.before ++ x.element :: x.behind

/-- The error that a first violation gives. -/
def error (x : FirstViolation) : RecordError := x.check.error x.element

/-- A list with an element that is not acceptable has a first violation. -/
theorem exists_of_not_acceptable {items : List Json} (h : ¬ ∀ e ∈ items, Acceptable e) :
    ∃ x : FirstViolation, x.items = items := by
  obtain ⟨before, e, behind, rfl, hbefore, he⟩ := exists_first_not h
  obtain ⟨earlier, c, later, horder, hearlier, hc⟩ := exists_first_not he
  exact ⟨⟨before, e, behind, earlier, c, later, horder, hbefore, hearlier, hc⟩, rfl⟩

/-- **The first violation decides.** -/
theorem listOfJson_items (x : FirstViolation) : listOfJson (.arr x.items) = .error x.error := by
  have helement : ofElement x.element = .error x.error :=
    (x.order_eq ▸ performs_ofElement x.element).eq_error x.holds x.fails
  exact mapM_eq_error (fun e he ↦ exists_ofElement_iff.2 (x.acceptable e he)) helement

/-- The same check fails on a like element, behind any acceptable elements. -/
def transfer (x : FirstViolation) {before : List Json} {e : Json} (behind : List Json)
    (hbefore : ∀ e ∈ before, Acceptable e) (hholds : ∀ c ∈ x.earlier, c.Holds e)
    (halike : x.check.Alike x.element e) : FirstViolation where
  before
  element := e
  behind
  earlier := x.earlier
  check := x.check
  later := x.later
  order_eq := x.order_eq
  acceptable := hbefore
  holds := hholds
  fails := mt halike.holds_iff.2 x.fails

end FirstViolation

theorem exists_tokens {items : List Json} (h : ∀ e ∈ items, Acceptable e) :
    ∃ ts : List Token, items.map ofElement = ts.map .ok :=
  exists_map_eq fun e he ↦ exists_ofElement_iff.2 (h e he)

/-- **A list is read exactly if its elements are acceptable.** -/
theorem exists_listOfJson_iff {v : Json} :
    (∃ ts, listOfJson v = .ok ts) ↔ ∃ items, v = .arr items ∧ ∀ e ∈ items, Acceptable e := by
  constructor
  · rintro ⟨ts, h⟩
    cases v with
    | arr items =>
      refine ⟨items, rfl, ?_⟩
      by_contra hnot
      obtain ⟨x, rfl⟩ := FirstViolation.exists_of_not_acceptable hnot
      rw [x.listOfJson_items] at h
      cases h
    | _ => cases h
  · rintro ⟨items, rfl, hitems⟩
    obtain ⟨ts, hts⟩ := exists_tokens hitems
    exact ⟨ts, mapM_of_map_eq hts⟩

/-- Acceptable elements are the objects of some records. -/
theorem exists_rows {items : List Json} (h : ∀ e ∈ items, Acceptable e) :
    ∃ rows : List Json.Fields, rows.map .obj = items := by
  show items ∈ Set.range (List.map Json.obj)
  rw [Set.range_list_map]
  intro e he
  have hkind : e.kind = .obj := h e he .object (by simp [Check.order])
  cases e with
  | obj fields => exact ⟨fields, rfl⟩
  | _ => cases hkind

/-- The tokens of a list are those of its records, in order. -/
theorem listOfJson_eq_ok_iff {v : Json} {ts : List Token} :
    listOfJson v = .ok ts ↔
      ∃ rows : List Json.Fields, v = .arr (rows.map .obj) ∧ rows.map ofFields = ts.map .ok := by
  have hrecords (rows : List Json.Fields) : (rows.map Json.obj).map ofElement = rows.map ofFields :=
    List.map_map
  constructor
  · intro h
    obtain ⟨items, rfl, hitems⟩ := exists_listOfJson_iff.1 ⟨ts, h⟩
    obtain ⟨rows, rfl⟩ := exists_rows hitems
    obtain ⟨us, hus⟩ := exists_tokens hitems
    obtain rfl : us = ts := Except.ok.inj ((mapM_of_map_eq hus).symm.trans h)
    exact ⟨rows, rfl, hrecords rows ▸ hus⟩
  · rintro ⟨rows, rfl, hrows⟩
    exact mapM_of_map_eq ((hrecords rows).trans hrows)

/-! ### Texts -/

theorem decode_of_read {text : String} {v : Json} (hread : Json.read maxDigits text = .ok v) :
    decode text = (listOfJson v).mapError .record := by
  rw [decode, hread]

theorem decode_eq_ok_iff {text : String} {v : Json} {ts : List Token}
    (hread : Json.read maxDigits text = .ok v) : decode text = .ok ts ↔ listOfJson v = .ok ts := by
  rw [decode_of_read hread]
  cases listOfJson v <;> simp [Except.mapError]

theorem FirstViolation.decode_eq {text : String} (x : FirstViolation)
    (hread : Json.read maxDigits text = .ok (.arr x.items)) :
    decode text = .error (.record x.error) := by
  rw [decode_of_read hread, x.listOfJson_items]
  rfl

/-- **A text is read as a whole, or its first violation is reported.** A text with a JSON value is a
list of tokens exactly if the value is an array of acceptable elements, and then the tokens are those
of its records, in order. A value that is no array gives an error that names its kind. Every other
array has a first violation, and that alone gives the error: a text in which the same check fails on
a like element, behind acceptable elements and checks that hold, gives the same one, whatever
follows. -/
theorem decode_first_violation {text : String} {v : Json}
    (hread : Json.read maxDigits text = .ok v) :
    ((∃ ts, decode text = .ok ts) ↔ ∃ items, v = .arr items ∧ ∀ e ∈ items, Acceptable e) ∧
      (∀ ts, decode text = .ok ts ↔
        ∃ rows : List Json.Fields, v = .arr (rows.map .obj) ∧ rows.map ofFields = ts.map .ok) ∧
      (v.kind ≠ .arr → decode text = .error (.record (.listKind v.kind))) ∧
      (∀ items, v = .arr items → (¬ ∀ e ∈ items, Acceptable e) →
        ∃ x : FirstViolation, x.items = items) ∧
      ∀ x : FirstViolation, v = .arr x.items →
        decode text = .error (.record x.error) ∧
          ∀ text' before e behind,
            Json.read maxDigits text' = .ok (.arr (before ++ e :: behind)) →
            (∀ e ∈ before, Acceptable e) → (∀ c ∈ x.earlier, c.Holds e) →
            x.check.Alike x.element e → decode text' = decode text := by
  refine ⟨?_, fun ts ↦ ?_, fun hkind ↦ ?_, fun items _ ↦ FirstViolation.exists_of_not_acceptable,
    ?_⟩
  · simp only [decode_eq_ok_iff hread, exists_listOfJson_iff]
  · rw [decode_eq_ok_iff hread, listOfJson_eq_ok_iff]
  · rw [decode_of_read hread]
    cases v with
    | arr items => exact absurd rfl hkind
    | _ => rfl
  · rintro x rfl
    have herror := x.decode_eq hread
    refine ⟨herror, fun text' before e behind hread' hbefore hholds halike ↦ ?_⟩
    rw [herror, (x.transfer behind hbefore hholds halike).decode_eq hread']
    exact congrArg (Except.error ∘ DecodeError.record) halike.error_eq.symm

/-- A list whose second element fails three checks, and whose third is no object. -/
def mixed : FirstViolation where
  before := [.obj [("lexeme", .str "x"), ("category", .str "Keyword"), ("rank", .null)]]
  element := .obj [("category", .arr [.bool true]), ("lexeme", .int 3), ("col", .bool true)]
  behind := [.int 5]
  earlier := [.object, .has "lexeme", .has "category"]
  check := .knownCategory
  later := [.stringLexeme, .wholeNumber "lineno", .wholeNumber "col", .wholeNumber "offset",
    .wholeNumber "end_offset"]
  order_eq := rfl
  acceptable := by
    simp [Acceptable, Check.order, Check.Holds, Json.fieldKind?, Json.field?, Json.kind,
      List.lookup_cons, categoryNames]
  holds := by simp [Check.Holds, Json.field?, Json.kind, List.lookup_cons]
  fails := by simp [Check.Holds, Json.field?]

/-- The text of that list. -/
def mixedText : String :=
  "[\x7b\"lexeme\": \"x\", \"category\": \"Keyword\", \"rank\": null\x7d, " ++
    "\x7b\"category\": [true], \"lexeme\": 3, \"col\": true\x7d, 5]"

/-- The category of the second element is what counts: behind no element and before none, and with
its two other faults mended, the error is the same. -/
theorem decode_first_violation_mixed :
    Json.read maxDigits mixedText = .ok (.arr mixed.items) ∧
      decode mixedText = .error (.record (.unknownCategory (.arr [.bool true]))) ∧
      decode "[\x7b\"category\": [true], \"lexeme\": \"y\"\x7d]" =
        .error (.record (.unknownCategory (.arr [.bool true]))) := by
  have hcategory : (Json.arr [.bool true]).Storable maxDigits :=
    .arr _ (by simp [Json.Storable.bool])
  have hthree : (Json.int 3).Storable maxDigits := .int 3 (by decide)
  have hmixed : (Json.arr mixed.items).Storable maxDigits := by
    refine .arr _ ?_
    simp only [mixed, FirstViolation.items, List.singleton_append, List.forall_mem_cons]
    refine ⟨.obj _ (by decide) ?_, .obj _ (by decide) ?_, .int 5 (by decide), by simp⟩
    · simp [Json.Storable.str, Json.Storable.null]
    · simp [hcategory, hthree, Json.Storable.bool]
  have hmended : (Json.arr [.obj [("category", .arr [.bool true]), ("lexeme", .str "y")]]).Storable
      maxDigits := by
    refine .arr _ ?_
    simp only [List.forall_mem_singleton]
    exact .obj _ (by decide) (by simp [hcategory, Json.Storable.str])
  have htext : String.ofList (Json.print .compact 0 (.arr mixed.items)) = mixedText := by
    decide +kernel
  have hread := htext ▸ hmixed.read_print .compact
  obtain ⟨-, -, -, -, hviolation⟩ := decode_first_violation hread
  obtain ⟨herror, hother⟩ := hviolation mixed rfl
  have hsame := hother _ [] _ [] (hmended.read_print .compact) (by simp)
    (by simp [mixed, Check.Holds, Json.field?, Json.kind, List.lookup_cons]) rfl
  refine ⟨hread, herror, ?_⟩
  rw [← show String.ofList (Json.print .compact 0
        (.arr [.obj [("category", .arr [.bool true]), ("lexeme", .str "y")]])) =
      "[\x7b\"category\": [true], \"lexeme\": \"y\"\x7d]" by decide +kernel]
  exact hsame.trans herror

end Token

end TokenScan
