import TokenScan.Decimal.Text
import TokenScan.Json.Basic
import TokenScan.Json.Escape

/-!
# Serialized JSON text

A value is serialized with the fields of every object in increasing order of their names, so equal
values have one text. Sorting is a step of its own (`sortKeys`), and `print` then writes fields in
the order they have.

A `Layout` says where the text breaks. The compact one keeps everything on one line, with a space
after each comma; an indented one puts every item and every field on a line of its own, indented by
a fixed width for each level, and never leaves a space at the end of a line. An empty array or
object is written without a break in either.
-/

namespace TokenScan.Json

/-- Where serialized text breaks into lines. -/
inductive Layout where
  /-- Everything on one line. -/
  | compact
  /-- Every item on its own line, indented by `width` for each level. -/
  | indented (width : Nat)
  deriving DecidableEq, Repr

namespace Layout

/-- The layout that an optional indentation asks for; a negative one indents by nothing. -/
def ofIndent : Option Int → Layout
  | none => .compact
  | some n => .indented n.toNat

/-- A line break with the indentation of a level; nothing in compact text. -/
def lineBreak : Layout → Nat → List Char
  | .compact, _ => []
  | .indented width, depth => '\n' :: List.replicate (width * depth) ' '

/-- What stands between two items of a level. -/
def separator : Layout → Nat → List Char
  | .compact, _ => [',', ' ']
  | .indented width, depth => ',' :: (indented width).lineBreak depth

end Layout

/-! ### Sorting the fields -/

/-- The order of fields by name. -/
def fieldLe (f g : String × Json) : Bool := decide (f.1 ≤ g.1)

mutual

/-- The same value with the fields of every object sorted by name. -/
def sortKeys : Json → Json
  | .arr items => .arr (sortKeysItems items)
  | .obj fields => .obj ((sortKeysFields fields).mergeSort fieldLe)
  | v => v

/-- Sorts within every item. -/
def sortKeysItems : List Json → List Json
  | [] => []
  | v :: vs => sortKeys v :: sortKeysItems vs

/-- Sorts within the value of every field. -/
def sortKeysFields : Fields → Fields
  | [] => []
  | (k, v) :: fields => (k, sortKeys v) :: sortKeysFields fields

end

/-! ### Writing -/

mutual

/-- Writes a value that stands at a level of nesting. -/
def print (layout : Layout) (depth : Nat) : Json → List Char
  | .null => ['n', 'u', 'l', 'l']
  | .bool true => ['t', 'r', 'u', 'e']
  | .bool false => ['f', 'a', 'l', 's', 'e']
  | .int n => intText n
  | .float x => floatText .serialized x
  | .str s => stringText s
  | .arr [] => ['[', ']']
  | .arr (v :: vs) =>
    '[' :: (layout.lineBreak (depth + 1) ++ print layout (depth + 1) v ++
      printItems layout (depth + 1) vs ++ layout.lineBreak depth ++ [']'])
  | .obj [] => ['\x7b', '\x7d']
  | .obj ((k, v) :: fields) =>
    '\x7b' :: (layout.lineBreak (depth + 1) ++ stringText k ++ ':' :: ' ' ::
      print layout (depth + 1) v ++ printFields layout (depth + 1) fields ++
        layout.lineBreak depth ++ ['\x7d'])

/-- Writes the items behind the first one. -/
def printItems (layout : Layout) (depth : Nat) : List Json → List Char
  | [] => []
  | v :: vs => layout.separator depth ++ print layout depth v ++ printItems layout depth vs

/-- Writes the fields behind the first one. -/
def printFields (layout : Layout) (depth : Nat) : Fields → List Char
  | [] => []
  | (k, v) :: fields =>
    layout.separator depth ++ stringText k ++ ':' :: ' ' :: print layout depth v ++
      printFields layout depth fields

end

/-- The serialized text of a value. -/
def serialize (layout : Layout) (v : Json) : String :=
  String.ofList (print layout 0 v.sortKeys)

end TokenScan.Json
