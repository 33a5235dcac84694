/-! JSON values, and how their parts are reached. -/

namespace Readiness

/-- A JSON value. -/
inductive Json where
  /-- The literal `null`. -/
  | null
  /-- One of the literals `true` and `false`. -/
  | bool (value : Bool)
  /-- A number, kept as it is written. -/
  | number (literal : String)
  /-- A string, with its escapes resolved. -/
  | string (text : String)
  /-- A string, or an object with a key, in which an escape is half of a surrogate pair: it is
  well formed as text, but it has no value. -/
  | unreadable
  /-- Values in order. -/
  | array (items : List Json)
  /-- Named values in order, where a name may be repeated. -/
  | object (members : List (String × Json))
  deriving Inhabited

namespace Json

/-- A natural number as a value. -/
def nat (value : Nat) : Json :=
  .number value.repr

/-- The member of that name in an object; of several the last one counts. -/
def get? (name : String) : Json → Option Json
  | .object members => members.reverse.lookup name
  | _ => none

/-- The text of a string. -/
def text? : Json → Option String
  | .string text => some text
  | _ => none

/-- The value of a boolean. -/
def bool? : Json → Option Bool
  | .bool value => some value
  | _ => none

/-- The items of an array. -/
def items? : Json → Option (List Json)
  | .array items => some items
  | _ => none

/-- The value of a number written as digits only. -/
def nat? : Json → Option Nat
  -- Every character is a digit, so the literal is the number in base ten.
  | .number literal =>
    if literal.toList.all Char.isDigit then
      some (literal.toList.foldl (fun total digit => total * 10 + (digit.toNat - '0'.toNat)) 0)
    else none
  | _ => none

/-- Whether a value is given at all, which `null` is not. -/
def isGiven : Option Json → Bool
  | none | some .null => false
  | some _ => true

/-- What is given for each of the named fields: by name in an object, by position in an array.

A repeated field, an item too many and any other kind of value are refused. -/
def fields? (names : List String) : Json → Option (List (Option Json))
  | .object members =>
    -- Members of other names are not looked at.
    names.mapM fun name =>
      match members.filter (fun field => field.1 == name) with
      | [] => some none
      | [field] => some (some field.2)
      | _ => none
  | .array items =>
    if items.length ≤ names.length then
      some ((List.range names.length).map fun position => items[position]?)
    else none
  | _ => none

end Json

end Readiness
