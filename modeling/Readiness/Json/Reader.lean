import Readiness.Json.Value

/-! Reading a JSON value from text.

Each reader takes the characters that are left and gives what it read together with those after it.
-/

namespace Readiness

namespace Json

/-- The characters that may stand between the parts of a text. -/
def isBlank (c : Char) : Bool :=
  c = ' ' || c = '\n' || c = '\t' || c = '\r'

/-- What is left after any blanks. -/
def skipBlanks (text : List Char) : List Char :=
  text.dropWhile isBlank

/-- The value of a hexadecimal digit of either case. -/
def hexValue? (c : Char) : Option Nat :=
  if '0' ≤ c && c ≤ '9' then some (c.toNat - '0'.toNat)
  else if 'a' ≤ c && c ≤ 'f' then some (c.toNat - 'a'.toNat + 10)
  else if 'A' ≤ c && c ≤ 'F' then some (c.toNat - 'A'.toNat + 10)
  else none

/-- One element of a string as it is written. -/
inductive Piece where
  /-- A character that stands for itself or has an escape of its own. -/
  | char (c : Char)
  /-- A code unit of sixteen bits, given by its number. -/
  | unit (value : Nat)
  deriving DecidableEq

/-- The first half of a surrogate pair. -/
def isHighSurrogate (value : Nat) : Bool :=
  0xd800 ≤ value && value < 0xdc00

/-- The second half of a surrogate pair. -/
def isLowSurrogate (value : Nat) : Bool :=
  0xdc00 ≤ value && value < 0xe000

/-- The characters that the pieces of a string stand for, unless half a surrogate pair is left. -/
def assemble : List Piece → Option (List Char)
  | [] => some []
  | .char c :: rest => (assemble rest).map (c :: ·)
  | .unit high :: .unit low :: rest =>
    -- Two units make one character when they are the two halves of a pair, in this order.
    if isHighSurrogate high && isLowSurrogate low then
      (assemble rest).map
        (Char.ofNat (0x10000 + (high - 0xd800) * 0x400 + (low - 0xdc00)) :: ·)
    else if isHighSurrogate high || isLowSurrogate high then none
    else (assemble (.unit low :: rest)).map (Char.ofNat high :: ·)
  | .unit value :: rest =>
    if isHighSurrogate value || isLowSurrogate value then none
    else (assemble rest).map (Char.ofNat value :: ·)

/-- The character that a one-letter escape stands for. -/
def escape? : Char → Option Char
  | '"' => some '"'
  | '\\' => some '\\'
  | '/' => some '/'
  | 'b' => some '\x08'
  | 'f' => some '\x0c'
  | 'n' => some '\n'
  | 'r' => some '\r'
  | 't' => some '\t'
  | _ => none

/-- The pieces of a string up to its closing quote. -/
def readPieces : List Char → Option (List Piece × List Char)
  | [] => none
  | '"' :: rest => some ([], rest)
  | '\\' :: 'u' :: a :: b :: c :: d :: rest => do
    let value := (← hexValue? a) * 0x1000 + (← hexValue? b) * 0x100 + (← hexValue? c) * 0x10
      + (← hexValue? d)
    let (pieces, after) ← readPieces rest
    return (.unit value :: pieces, after)
  | '\\' :: escaped :: rest => do
    let c ← escape? escaped
    let (pieces, after) ← readPieces rest
    return (.char c :: pieces, after)
  | c :: rest => do
    -- A raw control character is not allowed, and a lone backslash ends the text too early.
    if c.toNat < 0x20 || c = '\\' then none
    let (pieces, after) ← readPieces rest
    return (.char c :: pieces, after)

/-- A string after its opening quote, with no text if half a surrogate pair is left in it. -/
def readString (text : List Char) : Option (Option String × List Char) := do
  let (pieces, after) ← readPieces text
  return ((assemble pieces).map String.ofList, after)

/-- A run of at least one digit. -/
def readDigits (text : List Char) : Option (List Char × List Char) :=
  match text.takeWhile Char.isDigit with
  | [] => none
  | digits => some (digits, text.dropWhile Char.isDigit)

/-- The whole part of a number, which starts with a zero only if it is zero. -/
def readWhole : List Char → Option (List Char × List Char)
  | '0' :: rest => some (['0'], rest)
  | text => readDigits text

/-- The part of a number after its point, if there is one. -/
def readFraction : List Char → Option (List Char × List Char)
  | '.' :: rest => (readDigits rest).map fun (digits, after) => ('.' :: digits, after)
  | text => some ([], text)

/-- The sign of an exponent, if there is one. -/
def readSign : List Char → List Char × List Char
  | '+' :: rest => (['+'], rest)
  | '-' :: rest => (['-'], rest)
  | text => ([], text)

/-- The exponent of a number, if there is one. -/
def readExponent : List Char → Option (List Char × List Char)
  | mark :: rest =>
    if mark = 'e' || mark = 'E' then do
      let (sign, unsigned) := readSign rest
      let (digits, after) ← readDigits unsigned
      return (mark :: sign ++ digits, after)
    else some ([], mark :: rest)
  | [] => some ([], [])

/-- A number without its sign. -/
def readMagnitude (text : List Char) : Option (List Char × List Char) := do
  let (whole, afterWhole) ← readWhole text
  let (fraction, afterFraction) ← readFraction afterWhole
  let (exponent, after) ← readExponent afterFraction
  return (whole ++ fraction ++ exponent, after)

/-- A number, as it is written. -/
def readNumber : List Char → Option (List Char × List Char)
  | '-' :: rest => (readMagnitude rest).map fun (digits, after) => ('-' :: digits, after)
  | text => readMagnitude text

/-- An object of the members read, which has no value if one of the keys has none. -/
def ofMembers (members : List (Option String × Json)) : Json :=
  match members.mapM (fun (key, value) => key.map (·, value)) with
  | some named => .object named
  | none => .unreadable

mutual

/-- A value after any blanks; the fuel bounds how far the reading nests and repeats. -/
def readValue : Nat → List Char → Option (Json × List Char)
  | 0, _ => none
  | fuel + 1, text =>
    match skipBlanks text with
    | 'n' :: 'u' :: 'l' :: 'l' :: rest => some (.null, rest)
    | 't' :: 'r' :: 'u' :: 'e' :: rest => some (.bool true, rest)
    | 'f' :: 'a' :: 'l' :: 's' :: 'e' :: rest => some (.bool false, rest)
    | '"' :: rest => do
      let (value, after) ← readString rest
      return (value.elim .unreadable .string, after)
    | '[' :: rest =>
      match skipBlanks rest with
      | ']' :: after => some (.array [], after)
      | items => do
        let (values, after) ← readItems fuel items
        return (.array values, after)
    | '\x7b' :: rest =>
      match skipBlanks rest with
      | '\x7d' :: after => some (.object [], after)
      | members => do
        let (fields, after) ← readMembers fuel members
        return (ofMembers fields, after)
    | rest => do
      let (literal, after) ← readNumber rest
      return (.number (String.ofList literal), after)

/-- One or more items up to the closing bracket. -/
def readItems : Nat → List Char → Option (List Json × List Char)
  | 0, _ => none
  | fuel + 1, text => do
    let (value, afterValue) ← readValue fuel text
    match skipBlanks afterValue with
    | ']' :: after => return ([value], after)
    | ',' :: rest =>
      let (values, after) ← readItems fuel rest
      return (value :: values, after)
    | _ => none

/-- One or more members up to the closing brace. -/
def readMembers : Nat → List Char → Option (List (Option String × Json) × List Char)
  | 0, _ => none
  | fuel + 1, text =>
    match skipBlanks text with
    | '"' :: rest => do
      let (key, afterKey) ← readString rest
      match skipBlanks afterKey with
      | ':' :: valueText =>
        let (value, afterValue) ← readValue fuel valueText
        match skipBlanks afterValue with
        | '\x7d' :: after => return ([(key, value)], after)
        | ',' :: next =>
          let (members, after) ← readMembers fuel next
          return ((key, value) :: members, after)
        | _ => none
      | _ => none
    | _ => none

end

/-- The value that a whole text is, with nothing but blanks around it. -/
def parse? (text : String) : Option Json :=
  -- No text takes more than two steps of reading for each of its characters.
  let characters := text.toList
  match readValue (2 * characters.length + 1) characters with
  | some (value, after) => if (skipBlanks after).isEmpty then some value else none
  | none => none

/-- Whether every part of a value has a value. -/
def isReadable : Json → Bool
  | .unreadable => false
  | .array items => readableItems items
  | .object members => readableMembers members
  | _ => true
where
  readableItems : List Json → Bool
    | [] => true
    | item :: rest => isReadable item && readableItems rest
  readableMembers : List (String × Json) → Bool
    | [] => true
    | (_, value) :: rest => isReadable value && readableMembers rest

end Json

end Readiness
