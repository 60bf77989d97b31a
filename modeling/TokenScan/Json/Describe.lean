import TokenScan.Decimal.Text
import TokenScan.Json.Basic
import TokenScan.Text.Quoted

/-!
# JSON values in messages

How a value is shown in a message. `describe` writes it so that its kind can be seen, strings in
quotes; `text` writes a bare string as it is and everything else as `describe` does. Objects show
their fields in the order they have.
-/

namespace TokenScan.Json

mutual

/-- A value as it is shown in a message. -/
def describe : Json → String
  | .null => "None"
  | .bool true => "True"
  | .bool false => "False"
  | .int n => String.ofList (intText n)
  | .float x => String.ofList (floatText .message x)
  | .str s => quoted s
  | .arr items => "[" ++ describeItems items ++ "]"
  | .obj fields => "\x7b" ++ describeFields fields ++ "\x7d"

/-- The items of an array, with commas between them. -/
def describeItems : List Json → String
  | [] => ""
  | [v] => describe v
  | v :: vs => describe v ++ ", " ++ describeItems vs

/-- The fields of an object, with commas between them. -/
def describeFields : Fields → String
  | [] => ""
  | [(k, v)] => quoted k ++ ": " ++ describe v
  | (k, v) :: fields => quoted k ++ ": " ++ describe v ++ ", " ++ describeFields fields

end

/-- A value as text: a string stands for itself. -/
def text : Json → String
  | .str s => s
  | v => describe v

end TokenScan.Json
