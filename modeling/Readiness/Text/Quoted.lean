import Readiness.Text.DefaultIgnorable
import Readiness.Text.ExtendingMark
import Readiness.Text.Unprintable

/-! Inspection text: quoted strings, and records with named fields. -/

namespace Readiness

/-- A number in lower-case hexadecimal, without padding. -/
def hexText (value : Nat) : String :=
  String.ofList (Nat.toDigits 16 value)

/-- Whether a character would be hard to see between quotes, or would merge with the one before. -/
def isObscure (c : Char) : Bool :=
  extendingMark.covers c || defaultIgnorable.covers c || unprintable.covers c

/-- What can be seen of ASCII is not obscure. -/
theorem isObscure_of_ascii {c : Char} (visible : 0x20 ≤ c.toNat) (ascii : c.toNat ≤ 0x7e) :
    isObscure c = false := by
  -- None of the tables has a range that reaches between the space and the tilde.
  unfold isObscure
  rw [CodeRanges.covers_eq_false_of_apart (by decide +kernel) visible ascii,
    CodeRanges.covers_eq_false_of_apart (by decide +kernel) visible ascii,
    CodeRanges.covers_eq_false_of_apart (by decide +kernel) visible ascii]
  rfl

/-- How one character stands between quotes. -/
def quotedChar (c : Char) : String :=
  -- A single quote needs no escape, since the text is delimited by double ones.
  if c = '"' then "\\\""
  else if c = '\\' then "\\\\"
  else if c = '\n' then "\\n"
  else if c = '\r' then "\\r"
  else if c = '\t' then "\\t"
  else if c.toNat = 0 then "\\0"
  else if isObscure c then "\\u\x7b" ++ hexText c.toNat ++ "\x7d"
  else c.toString

/-- A text between double quotes, with every obscure character escaped. -/
def quotedText (text : String) : String :=
  "\"" ++ String.join (text.toList.map quotedChar) ++ "\""

/-- A record by its name and its fields in order. -/
def recordText (name : String) (fields : List (String × String)) : String :=
  -- Field texts arrive already rendered, so a nested record needs no special care.
  let inner := ", ".intercalate (fields.map fun field => field.1 ++ ": " ++ field.2)
  name ++ " \x7b " ++ inner ++ " \x7d"

/-- A value wrapped in the name of its type. -/
def wrappedText (name inner : String) : String :=
  name ++ "(" ++ inner ++ ")"

end Readiness
