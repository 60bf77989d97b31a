import TokenScan.Json.Printer

/-!
# Writing JSON text within a limit

Text that is read back under a limit on the digits of whole numbers has to be written under the same
limit. `write` serializes a value if every whole number in it, at any depth, has at most the given
number of digits, and refuses it otherwise; a sign is no digit. It is the counterpart of a reader
with that limit.
-/

namespace TokenScan.Json

/-- Some whole number has more digits than may be written. -/
structure WriteError where
  /-- The most digits that may be written. -/
  limit : Nat
  deriving DecidableEq, Repr

/-- The message for an error. -/
def WriteError.message (e : WriteError) : String :=
  s!"Exceeds the limit ({e.limit} digits) for integer string conversion; "
    ++ "use sys.set_int_max_str_digits() to increase the limit"

mutual

/-- Whether every whole number in a value has at most `limit` digits. -/
def withinDigits (limit : Nat) : Json → Bool
  | .int n => (natText n.natAbs).length ≤ limit
  | .arr items => withinDigitsItems limit items
  | .obj fields => withinDigitsFields limit fields
  | _ => true

/-- Whether every whole number in every item has at most `limit` digits. -/
def withinDigitsItems (limit : Nat) : List Json → Bool
  | [] => true
  | v :: vs => withinDigits limit v && withinDigitsItems limit vs

/-- Whether every whole number in every field has at most `limit` digits. -/
def withinDigitsFields (limit : Nat) : Fields → Bool
  | [] => true
  | (_, v) :: fields => withinDigits limit v && withinDigitsFields limit fields

end

/-- The serialized text of a value whose whole numbers have at most `maxDigits` digits. -/
def write (maxDigits : Nat) (layout : Layout) (v : Json) : Except WriteError String :=
  if v.withinDigits maxDigits then .ok (v.serialize layout) else .error ⟨maxDigits⟩

/-- **Writing succeeds exactly within the limit**, and then gives the serialized text. -/
theorem write_eq_ok_iff {maxDigits : Nat} {layout : Layout} {v : Json} {s : String} :
    v.write maxDigits layout = .ok s ↔
      v.withinDigits maxDigits = true ∧ v.serialize layout = s := by
  by_cases h : v.withinDigits maxDigits = true <;> simp [write, h]

end TokenScan.Json
