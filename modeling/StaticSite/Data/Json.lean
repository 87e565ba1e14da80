import StaticSite.Data.Basic

/-!
# The JSON text of data

`Data.json` writes a value without spaces. What is written here the literal reader reads back as the
same value, as long as the integers in it have no more than 63 bits without their sign.
-/

namespace StaticSite

open Text

mutual

/-- The compact JSON text of a value. -/
def Data.json : Data → List Char
  | .null => "null".toList
  | .bool true => "true".toList
  | .bool false => "false".toList
  | .number n => n.text
  | .text s => jsonQuote s.toList
  | .list items => '[' :: Data.jsonItems items ++ [']']
  | .object fields => '\x7b' :: Data.jsonFields fields ++ ['\x7d']

/-- The items of a list, with commas between them. -/
def Data.jsonItems : List Data → List Char
  | [] => []
  | [d] => d.json
  | d :: e :: rest => d.json ++ ',' :: Data.jsonItems (e :: rest)

/-- The fields of an object, with commas between them. -/
def Data.jsonFields : List (String × Data) → List Char
  | [] => []
  | [(name, d)] => jsonQuote name.toList ++ ':' :: d.json
  | (name, d) :: field :: rest =>
    jsonQuote name.toList ++ ':' :: d.json ++ ',' :: Data.jsonFields (field :: rest)

end

end StaticSite
