import TokenScan.Json.Basic

/-!
# Equality of JSON values

`Json.same` compares by meaning. Numbers are equal if they denote the same number, whatever their
kind: `1`, `1.0` and `true` are one number, compared exactly, never after rounding. Strings equal
strings only, and null only null. Arrays are compared item by item in order, objects by name without
regard to order.
-/

namespace TokenScan.Json

/-- The number that a value denotes, if it denotes one. A truth value is zero or one. -/
def number? : Json → Option FloatValue
  | .bool b => some (.ofInt (if b then 1 else 0))
  | .int n => some (.ofInt n)
  | .float x => some (.ofFloat x)
  | _ => none

/-- Whether a value denotes the given number. -/
def denotes (v : Json) (x : FloatValue) : Bool :=
  match v.number? with
  | some y => x.same y
  | none => false

mutual

/-- Equality by meaning. -/
def same : Json → Json → Bool
  | .null, w => w.kind == .null
  | .bool b, w => w.denotes (.ofInt (if b then 1 else 0))
  | .int n, w => w.denotes (.ofInt n)
  | .float x, w => w.denotes (.ofFloat x)
  | .str s, w =>
    match w with
    | .str t => s == t
    | _ => false
  | .arr items, w =>
    match w with
    | .arr others => sameItems items others
    | _ => false
  | .obj fields, w =>
    match w with
    | .obj others => fields.length == others.length && sameFields fields others
    | _ => false

/-- Equality of arrays, item by item. -/
def sameItems : List Json → List Json → Bool
  | [], [] => true
  | v :: vs, w :: ws => same v w && sameItems vs ws
  | _, _ => false

/-- Whether every field has an equal one under its name among the others. -/
def sameFields : Fields → Fields → Bool
  | [], _ => true
  | (k, v) :: fields, others =>
    (match others.lookup k with
      | some w => same v w
      | none => false) && sameFields fields others

end

end TokenScan.Json
