/-
# Writing JSON

The text of a JSON value, without any space between its tokens. A string escapes the quote, the
backslash and the control characters below 32, the usual ones by letter and the others by number; every
other character stands for itself.
-/
import OrderDesk.Json.Value
import OrderDesk.Double.Shortest
import OrderDesk.Text.Digits

namespace OrderDesk.Json

/-! ## Strings -/

/-- How a character stands inside a string. -/
def escape (c : Char) : List Char :=
  if c = '"' then ['\\', '"']
  else if c = '\\' then ['\\', '\\']
  else if 32 ≤ c.toNat then [c]
  else if c.toNat = 8 then ['\\', 'b']
  else if c.toNat = 9 then ['\\', 't']
  else if c.toNat = 10 then ['\\', 'n']
  else if c.toNat = 12 then ['\\', 'f']
  else if c.toNat = 13 then ['\\', 'r']
  else '\\' :: 'u' :: Digits.padded 16 4 c.toNat

/-- A text as a JSON string. -/
def quoted (s : String) : List Char :=
  '"' :: (s.toList.flatMap escape ++ ['"'])

/-! ## Values -/

/-- A value without parts as text. -/
def scalarChars : Scalar → List Char
  | .null => "null".toList
  | .bool true => "true".toList
  | .bool false => "false".toList
  | .number (.int i) => Digits.integer i
  | .number (.double x) => x.text
  | .string s => quoted s

mutual

/-- A value as text. -/
def chars : Json → List Char
  | scalar s => scalarChars s
  | array items => '[' :: (itemChars items ++ [']'])
  | object members => '{' :: (memberChars members ++ ['}'])

/-- The items of an array, separated by commas. -/
def itemChars : List Json → List Char
  | [] => []
  | [v] => chars v
  | v :: rest => chars v ++ ',' :: itemChars rest

/-- The members of an object, separated by commas. -/
def memberChars : List (String × Json) → List Char
  | [] => []
  | [(name, v)] => quoted name ++ ':' :: chars v
  | (name, v) :: rest => quoted name ++ ':' :: chars v ++ ',' :: memberChars rest

end

/-- The text of a value. -/
def text (v : Json) : String :=
  String.ofList v.chars

end OrderDesk.Json
