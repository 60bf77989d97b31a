import TokenScan.Json.Reader
import TokenScan.Json.Writer
import TokenScan.Token.Basic

/-!
# Tokens as records

A token is stored as a JSON object of seven fields and a list of tokens as the text of a JSON array.
Writing always gives all seven fields. Reading needs the lexeme and the category; the coordinates
are optional and default to the start of a text, where a missing end lies behind the lexeme. Fields
of other names are ignored, and the name of the text may be any value.

The checks come in a fixed order, and the first that fails is the error: the lexeme is there, the
category is there, the category is known, the lexeme is a string, and each coordinate that is there
is a whole number. A list is read element by element, so the first bad element decides.

Stored text holds whole numbers of a limited size. The limit is the same both ways: writing refuses
a list of tokens whose text reading would refuse.
-/

namespace TokenScan

/-- Why a value is no token record, or no list of them. -/
inductive RecordError where
  /-- A required field is missing. -/
  | missing (field : String)
  /-- The category is not one of the known names. -/
  | unknownCategory (value : Json)
  /-- The lexeme is not a string. -/
  | lexemeKind (kind : Json.Kind)
  /-- A coordinate is not a whole number. -/
  | coordinateKind (field : String) (kind : Json.Kind)
  /-- The whole is not an array. -/
  | listKind (kind : Json.Kind)
  /-- An element is not an object. -/
  | elementKind (kind : Json.Kind)

/-- The message for an error. -/
def RecordError.message : RecordError → String
  | .missing field => s!"Missing {quoted field} field in serialized token"
  | .unknownCategory value => s!"Unknown token category: {value.describe}"
  | .lexemeKind kind => s!"Expected string lexeme, got {kind.name}"
  | .coordinateKind field kind => s!"Expected integer {quoted field}, got {kind.name}"
  | .listKind kind => s!"Expected a JSON array of tokens, got {kind.name}"
  | .elementKind kind => s!"Expected a token object, got {kind.name}"

namespace Token

/-! ### Single records -/

/-- The fields of a token's record. The offsets and the name of the text are read off its location.
A location cache would be a memo of what the other fields of a token say and is left out, so the
location is computed each time it is asked for. -/
def fields (t : Token) : Json.Fields :=
  [("lexeme", .str t.lexeme), ("category", .str t.category.name), ("lineno", .int t.line),
    ("col", .int t.column), ("offset", .int t.location.offset),
    ("end_offset", .int t.location.endOffset), ("source_file", t.location.origin)]

/-- A field that has to be there. -/
def requiredField (fields : Json.Fields) (name : String) : Except RecordError Json :=
  match fields.lookup name with
  | some v => .ok v
  | none => .error (.missing name)

/-- A category by its display name. -/
def readCategory (v : Json) : Except RecordError Category :=
  match Category.ofJson? v with
  | some c => .ok c
  | none => .error (.unknownCategory v)

/-- A lexeme: any string. -/
def readLexeme : Json → Except RecordError String
  | .str s => .ok s
  | v => .error (.lexemeKind v.kind)

/-- A coordinate, if it is there: then it is a whole number. -/
def coordinate? (fields : Json.Fields) (name : String) : Except RecordError (Option Int) :=
  match fields.lookup name with
  | none => .ok none
  | some (.int n) => .ok (some n)
  | some v => .error (.coordinateKind name v.kind)

/-- The token that a record describes. -/
def ofFields (fields : Json.Fields) : Except RecordError Token := do
  let lexemeValue ← requiredField fields "lexeme"
  let categoryValue ← requiredField fields "category"
  let category ← readCategory categoryValue
  let lexeme ← readLexeme lexemeValue
  let line? ← coordinate? fields "lineno"
  let column? ← coordinate? fields "col"
  let offset? ← coordinate? fields "offset"
  let endOffset? ← coordinate? fields "end_offset"
  let offset := offset?.getD 0
  return {
    lexeme
    category
    line := line?.getD 1
    column := column?.getD 1
    offset
    endOffset := endOffset?.getD (offset + lexeme.length)
    origin := (fields.lookup "source_file").getD .null }

/-! ### Lists of records -/

/-- The token that an element of a list describes. -/
def ofElement : Json → Except RecordError Token
  | .obj fields => ofFields fields
  | v => .error (.elementKind v.kind)

/-- The tokens that an array describes, in order. -/
def listOfJson : Json → Except RecordError (List Token)
  | .arr items => items.mapM ofElement
  | v => .error (.listKind v.kind)

/-- A list of tokens as an array of records. -/
def listToJson (ts : List Token) : Json := .arr (ts.map fun t ↦ .obj t.fields)

/-- The most digits that a whole number in a stored text may have. -/
def maxDigits : Nat := 4300

/-- The text of a list of tokens, unless a coordinate or the name of a text has too large a number
in it. -/
def encode (layout : Json.Layout) (ts : List Token) : Except Json.WriteError String :=
  (listToJson ts).write maxDigits layout

/-- Why a text is no list of tokens. -/
inductive DecodeError where
  /-- The text is no JSON value. -/
  | text (error : Json.ReadError)
  /-- The value is no list of token records. -/
  | record (error : RecordError)

/-- The message for an error. -/
def DecodeError.message : DecodeError → String
  | .text error => error.message
  | .record error => error.message

/-- The tokens that a text describes. -/
def decode (s : String) : Except DecodeError (List Token) :=
  match Json.read maxDigits s with
  | .error e => .error (.text e)
  | .ok v => (listOfJson v).mapError .record

end Token

end TokenScan
