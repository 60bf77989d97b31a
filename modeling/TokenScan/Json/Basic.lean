import TokenScan.Decimal.Binary

/-!
# JSON values

The values that token records and configurations carry. Integers are unbounded and distinct from
floats, since a record tells the two apart. An object is a list of fields in the order in which they
were first given; `putField` keeps names distinct, so a repeated name keeps its first place and
takes its last value.

Two readings of a value are needed besides its structure: its *kind*, which error messages name, and
its *truth*, by which configuration switches are used.
-/

namespace TokenScan

/-- A JSON value. -/
inductive Json where
  /-- The null value. -/
  | null
  /-- A truth value. -/
  | bool (b : Bool)
  /-- A whole number of any size. -/
  | int (n : Int)
  /-- A number that was written with a fraction or an exponent. -/
  | float (x : Float)
  /-- A string. -/
  | str (s : String)
  /-- An array. -/
  | arr (items : List Json)
  /-- An object: its fields in order. -/
  | obj (fields : List (String × Json))
  deriving Inhabited

namespace Json

/-- The kinds of JSON values, as type checks tell them apart. -/
inductive Kind where
  /-- The null value. -/
  | null
  /-- Truth values. -/
  | bool
  /-- Whole numbers. -/
  | int
  /-- Floats. -/
  | float
  /-- Strings. -/
  | str
  /-- Arrays. -/
  | arr
  /-- Objects. -/
  | obj
  deriving DecidableEq, Repr

/-- The name of a kind in messages. -/
def Kind.name : Kind → String
  | .null => "NoneType"
  | .bool => "bool"
  | .int => "int"
  | .float => "float"
  | .str => "str"
  | .arr => "list"
  | .obj => "dict"

/-- The kind of a value. -/
def kind : Json → Kind
  | .null => .null
  | .bool _ => .bool
  | .int _ => .int
  | .float _ => .float
  | .str _ => .str
  | .arr _ => .arr
  | .obj _ => .obj

/-- Whether a value counts as true: everything but null, false, zero and what is empty. -/
def truthy : Json → Bool
  | .null => false
  | .bool b => b
  | .int n => n != 0
  | .float x => !(FloatValue.ofFloat x).isZero
  | .str s => s != ""
  | .arr items => !items.isEmpty
  | .obj fields => !fields.isEmpty

/-! ### Fields -/

/-- The fields of an object. -/
abbrev Fields := List (String × Json)

/-- Gives a field a value: in its place if the name is there already, at the end otherwise. -/
def putField (name : String) (value : Json) : Fields → Fields
  | [] => [(name, value)]
  | (k, v) :: fields =>
    if k = name then (k, value) :: fields else (k, v) :: putField name value fields

/-- The fields that result from giving all of them in order. -/
def collectFields (given : Fields) : Fields :=
  given.foldl (fun fields f ↦ putField f.1 f.2 fields) []

end Json

end TokenScan
