import Readiness.Json.Value
import Readiness.Text.Quoted

/-! The compact text of a JSON value. -/

namespace Readiness

namespace Json

/-- How one character stands in a string. -/
def escapedChar (c : Char) : List Char :=
  -- Only the delimiters and the control characters are escaped, all else stands for itself.
  if c = '"' then ['\\', '"']
  else if c = '\\' then ['\\', '\\']
  else if c.toNat = 0x08 then ['\\', 'b']
  else if c.toNat = 0x0c then ['\\', 'f']
  else if c = '\n' then ['\\', 'n']
  else if c = '\r' then ['\\', 'r']
  else if c = '\t' then ['\\', 't']
  else if c.toNat < 0x20 then
    ['\\', 'u', '0', '0', Nat.digitChar (c.toNat / 16), Nat.digitChar (c.toNat % 16)]
  else [c]

/-- A string between its quotes. -/
def writeString (text : String) : List Char :=
  '"' :: text.toList.flatMap escapedChar ++ ['"']

mutual

/-- The characters of a value, without blanks. -/
def write : Json → List Char
  | .null => "null".toList
  | .bool true => "true".toList
  | .bool false => "false".toList
  | .number literal => literal.toList
  | .string text => writeString text
  -- The shortest text that has no value is the first half of a pair on its own.
  | .unreadable => "\"\\ud800\"".toList
  | .array items => '[' :: writeItems items
  | .object members => '\x7b' :: writeMembers members

/-- The items of an array up to its closing bracket. -/
def writeItems : List Json → List Char
  | [] => [']']
  | [item] => write item ++ [']']
  | item :: next :: rest => write item ++ ',' :: writeItems (next :: rest)

/-- The members of an object up to its closing brace. -/
def writeMembers : List (String × Json) → List Char
  | [] => ['\x7d']
  | [(name, value)] => writeString name ++ ':' :: write value ++ ['\x7d']
  | (name, value) :: next :: rest =>
    writeString name ++ ':' :: write value ++ ',' :: writeMembers (next :: rest)

end

/-- The compact text of a value. -/
def render (value : Json) : String :=
  String.ofList value.write

end Json

end Readiness
