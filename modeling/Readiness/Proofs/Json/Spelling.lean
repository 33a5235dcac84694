import Mathlib.Tactic.SplitIfs
import Readiness.Json.Reader
import Readiness.Json.Writer

/-! How JSON values are spelled: which texts stand for a value.

Blanks may stand between the parts of a text, and a character of a string may stand for itself or be
escaped. So a value has many spellings, and its compact text is one of them.
-/

namespace Readiness

namespace Json

/-- Blanks and nothing else. -/
def Blanks (text : List Char) : Prop :=
  ∀ c ∈ text, c ∈ [' ', '\n', '\t', '\r']

/-! ### Numbers -/

/-- One or more digits. -/
structure Digits (text : List Char) : Prop where
  any : text ≠ []
  only : ∀ c ∈ text, c.isDigit = true

/-- The whole part of a number, in which only zero starts with a zero. -/
inductive Whole : List Char → Prop where
  | zero : Whole ['0']
  | digits {first : Char} {more : List Char} (digits : Digits (first :: more))
    (leading : first ≠ '0') : Whole (first :: more)

/-- The part of a number from its point on, if there is one. -/
inductive Fraction : List Char → Prop where
  | absent : Fraction []
  | digits {text : List Char} (digits : Digits text) : Fraction ('.' :: text)

/-- The part of a number that scales it, if there is one. -/
inductive Exponent : List Char → Prop where
  | absent : Exponent []
  | digits {mark : Char} {sign text : List Char} (marked : mark = 'e' ∨ mark = 'E')
    (signed : sign = [] ∨ sign = ['+'] ∨ sign = ['-']) (digits : Digits text) :
    Exponent (mark :: sign ++ text)

/-- A number without its sign. -/
inductive Magnitude : List Char → Prop where
  | parts {whole fraction exponent : List Char} (first : Whole whole) (second : Fraction fraction)
    (third : Exponent exponent) : Magnitude (whole ++ fraction ++ exponent)

/-- A number. -/
inductive Numeral : List Char → Prop where
  | plain {text : List Char} (magnitude : Magnitude text) : Numeral text
  | negative {text : List Char} (magnitude : Magnitude text) : Numeral ('-' :: text)

/-! ### Strings -/

/-- The letters of the short escapes, each with the character that it stands for. -/
def escapes : List (Char × Char) :=
  [('"', '"'), ('\\', '\\'), ('/', '/'), ('b', '\x08'), ('f', '\x0c'), ('n', '\n'), ('r', '\r'),
    ('t', '\t')]

/-- A hexadecimal digit of either case stands at the place of its value. -/
def Hex (c : Char) (value : Nat) : Prop :=
  ∃ digits ∈ ["0123456789abcdef", "0123456789ABCDEF"], digits.toList[value]? = some c

/-- How an element of a string is written. -/
inductive Element : Piece → List Char → Prop where
  | raw {c : Char} (visible : 0x20 ≤ c.toNat) (quote : c ≠ '"') (backslash : c ≠ '\\') :
    Element (.char c) [c]
  | escaped {letter c : Char} (escape : (letter, c) ∈ escapes) : Element (.char c) ['\\', letter]
  | unit {a b c d : Char} {i j k l : Nat} (first : Hex a i) (second : Hex b j) (third : Hex c k)
    (fourth : Hex d l) :
    Element (.unit (i * 0x1000 + j * 0x100 + k * 0x10 + l)) ['\\', 'u', a, b, c, d]

/-- How elements of a string are written one after the other. -/
inductive Elements : List Piece → List Char → Prop where
  | nil : Elements [] []
  | cons {piece : Piece} {pieces : List Piece} {text more : List Char}
    (element : Element piece text) (elements : Elements pieces more) :
    Elements (piece :: pieces) (text ++ more)

/-- What the elements of a string stand for; a surrogate does only as half of a pair. -/
inductive Denotes : List Piece → List Char → Prop where
  | nil : Denotes [] []
  | char {c : Char} {pieces : List Piece} {chars : List Char} (rest : Denotes pieces chars) :
    Denotes (.char c :: pieces) (c :: chars)
  | unit {c : Char} {pieces : List Piece} {chars : List Char} (rest : Denotes pieces chars) :
    Denotes (.unit c.toNat :: pieces) (c :: chars)
  | pair {c : Char} {high low : Nat} {pieces : List Piece} {chars : List Char}
    (first : 0xd800 ≤ high ∧ high < 0xdc00) (second : 0xdc00 ≤ low ∧ low < 0xe000)
    (code : c.toNat = 0x10000 + (high - 0xd800) * 0x400 + (low - 0xdc00))
    (rest : Denotes pieces chars) : Denotes (.unit high :: .unit low :: pieces) (c :: chars)

/-- A string between its quotes, and what it says if its elements stand for a text at all. -/
inductive Quoted : Option String → List Char → Prop where
  | readable {content : String} {pieces : List Piece} {body : List Char}
    (written : Elements pieces body) (denotes : Denotes pieces content.toList) :
    Quoted (some content) ('"' :: body ++ ['"'])
  | unreadable {pieces : List Piece} {body : List Char} (written : Elements pieces body)
    (senseless : ∀ chars, ¬ Denotes pieces chars) : Quoted none ('"' :: body ++ ['"'])

/-! ### Values -/

mutual

/-- A text stands for a value. -/
inductive Spelled : Json → List Char → Prop where
  | null : Spelled .null ['n', 'u', 'l', 'l']
  | yes : Spelled (.bool true) ['t', 'r', 'u', 'e']
  | no : Spelled (.bool false) ['f', 'a', 'l', 's', 'e']
  | number {text : List Char} (numeral : Numeral text) : Spelled (.number (String.ofList text)) text
  | string {content : String} {text : List Char} (quoted : Quoted (some content) text) :
    Spelled (.string content) text
  | unreadable {text : List Char} (quoted : Quoted none text) : Spelled .unreadable text
  | noItems {gap : List Char} (blank : Blanks gap) : Spelled (.array []) ('[' :: gap ++ [']'])
  | items {values : List Json} {text : List Char} (listed : Items values text) :
    Spelled (.array values) ('[' :: text ++ [']'])
  | noMembers {gap : List Char} (blank : Blanks gap) :
    Spelled (.object []) ('\x7b' :: gap ++ ['\x7d'])
  | members {members : List (String × Json)} {text : List Char}
    (listed : Members (members.map (Prod.map some id)) text) :
    Spelled (.object members) ('\x7b' :: text ++ ['\x7d'])
  -- A member whose name says nothing takes the whole object with it.
  | nameless {fields : List (Option String × Json)} {text : List Char}
    (listed : Members fields text) (unnamed : ∃ field ∈ fields, field.1 = none) :
    Spelled .unreadable ('\x7b' :: text ++ ['\x7d'])

/-- A text stands for a value, with blanks around it. -/
inductive Padded : Json → List Char → Prop where
  | blanks {value : Json} {before text after : List Char} (leading : Blanks before)
    (spelled : Spelled value text) (trailing : Blanks after) :
    Padded value (before ++ text ++ after)

/-- One or more items between brackets. -/
inductive Items : List Json → List Char → Prop where
  | last {value : Json} {text : List Char} (padded : Padded value text) : Items [value] text
  | more {value : Json} {values : List Json} {text others : List Char}
    (padded : Padded value text) (rest : Items values others) :
    Items (value :: values) (text ++ ',' :: others)

/-- One or more members between braces. -/
inductive Members : List (Option String × Json) → List Char → Prop where
  | last {key : Option String} {value : Json} {before name after text : List Char}
    (leading : Blanks before) (quoted : Quoted key name) (trailing : Blanks after)
    (padded : Padded value text) :
    Members [(key, value)] (before ++ name ++ after ++ ':' :: text)
  | more {key : Option String} {value : Json} {before name after text others : List Char}
    {fields : List (Option String × Json)} (leading : Blanks before) (quoted : Quoted key name)
    (trailing : Blanks after) (padded : Padded value text) (rest : Members fields others) :
    Members ((key, value) :: fields) (before ++ name ++ after ++ ':' :: text ++ ',' :: others)

end

/-- A whole text stands for a value. -/
def Spells (text : String) (value : Json) : Prop :=
  Padded value text.toList

/-! ### The compact text -/

/-- A digit spells its value. -/
theorem hex_digitChar {value : Nat} (small : value < 16) : Hex (Nat.digitChar value) value := by
  have places : ∀ value < 16,
      "0123456789abcdef".toList[value]? = some (Nat.digitChar value) := by decide
  exact ⟨_, .head _, places value small⟩

/-- A character is written as one element, by itself or by its number. -/
theorem element_escapedChar (c : Char) :
    ∃ piece, Element piece (escapedChar c) ∧ (piece = .char c ∨ piece = .unit c.toNat) := by
  have short {letter : Char} (escape : (letter, c) ∈ escapes) :
      ∃ piece, Element piece ['\\', letter] ∧ (piece = .char c ∨ piece = .unit c.toNat) :=
    ⟨.char c, .escaped escape, .inl rfl⟩
  unfold escapedChar
  split_ifs with quote backslash backspace feed newline carriage tab control
  · exact short (by simp [escapes, quote])
  · exact short (by simp [escapes, backslash])
  · exact short (by simp [escapes, show c = '\x08' from Char.toNat_inj.mp backspace])
  · exact short (by simp [escapes, show c = '\x0c' from Char.toNat_inj.mp feed])
  · exact short (by simp [escapes, newline])
  · exact short (by simp [escapes, carriage])
  · exact short (by simp [escapes, tab])
  · -- The number of a control character has two digits.
    have zero : Hex '0' 0 := hex_digitChar (by decide)
    refine ⟨_, .unit zero zero (hex_digitChar (by omega)) (hex_digitChar (by omega)), .inr ?_⟩
    exact congrArg Piece.unit (by omega)
  · exact ⟨.char c, .raw (by omega) quote backslash, .inl rfl⟩

/-- A written string is quoted. -/
theorem quoted_writeString (text : String) : Quoted (some text) (writeString text) := by
  have elements : ∀ chars : List Char,
      ∃ pieces, Elements pieces (chars.flatMap escapedChar) ∧ Denotes pieces chars := by
    intro chars
    induction chars with
    | nil => exact ⟨[], .nil, .nil⟩
    | cons c rest ih =>
      obtain ⟨pieces, written, denotes⟩ := ih
      obtain ⟨piece, element, rfl | rfl⟩ := element_escapedChar c
      · exact ⟨_, .cons element written, .char denotes⟩
      · exact ⟨_, .cons element written, .unit denotes⟩
  obtain ⟨pieces, written, denotes⟩ := elements text.toList
  exact .readable written denotes

/-- All strings in a value are texts and all numbers in it are numerals. -/
inductive Writable : Json → Prop where
  | null : Writable .null
  | bool (value : Bool) : Writable (.bool value)
  | number {literal : String} (numeral : Numeral literal.toList) : Writable (.number literal)
  | string (content : String) : Writable (.string content)
  | array {items : List Json} (all : ∀ item ∈ items, Writable item) : Writable (.array items)
  | object {members : List (String × Json)} (all : ∀ member ∈ members, Writable member.2) :
    Writable (.object members)

theorem blanks_nil : Blanks [] :=
  fun _ member => (List.not_mem_nil member).elim

/-- No blanks are needed. -/
theorem Spelled.padded {value : Json} {text : List Char} (spelled : Spelled value text) :
    Padded value text := by
  simpa using Padded.blanks blanks_nil spelled blanks_nil

/-- Written items are spelled. -/
theorem items_writeItems {first : Json} {rest : List Json}
    (all : ∀ item ∈ first :: rest, Spelled item item.write) :
    ∃ text, writeItems (first :: rest) = text ++ [']'] ∧ Items (first :: rest) text := by
  have padded := (all first (.head _)).padded
  induction rest generalizing first with
  | nil => exact ⟨_, by rw [writeItems], .last padded⟩
  | cons next rest ih =>
    have later : ∀ item ∈ next :: rest, Spelled item item.write :=
      fun item member => all item (.tail _ member)
    obtain ⟨text, written, listed⟩ := ih later (later next (.head _)).padded
    exact ⟨_, by rw [writeItems, written]; simp, .more padded listed⟩

/-- Written members are spelled. -/
theorem members_writeMembers {first : String × Json} {rest : List (String × Json)}
    (all : ∀ member ∈ first :: rest, Spelled member.2 member.2.write) :
    ∃ text, writeMembers (first :: rest) = text ++ ['\x7d'] ∧
      Members ((first :: rest).map (Prod.map some id)) text := by
  have padded := (all first (.head _)).padded
  have quoted := quoted_writeString first.1
  induction rest generalizing first with
  | nil =>
    exact ⟨_, by rw [writeMembers]; simp, .last blanks_nil quoted blanks_nil padded⟩
  | cons next rest ih =>
    have later : ∀ member ∈ next :: rest, Spelled member.2 member.2.write :=
      fun member later => all member (.tail _ later)
    obtain ⟨text, written, listed⟩ :=
      ih later (later next (.head _)).padded (quoted_writeString next.1)
    exact ⟨_, by rw [writeMembers, written]; simp,
      .more blanks_nil quoted blanks_nil padded listed⟩

/-- The compact text of a value spells it. -/
theorem spelled_write {value : Json} (writable : Writable value) :
    Spelled value value.write := by
  -- Lists are written with their closing bracket, and spelled without it.
  induction writable with
  | null => exact .null
  | bool value =>
    cases value
    · exact .no
    · exact .yes
  | @number literal numeral =>
    change Spelled _ literal.toList
    simpa using Spelled.number numeral
  | string content =>
    change Spelled _ (writeString content)
    exact .string (quoted_writeString content)
  | @array items _ ih =>
    cases items with
    | nil => exact .noItems blanks_nil
    | cons first rest =>
      obtain ⟨text, written, listed⟩ := items_writeItems ih
      change Spelled _ ('[' :: writeItems (first :: rest))
      rw [written]
      exact .items listed
  | @object members _ ih =>
    cases members with
    | nil => exact .noMembers blanks_nil
    | cons first rest =>
      obtain ⟨text, written, listed⟩ := members_writeMembers ih
      change Spelled _ ('\x7b' :: writeMembers (first :: rest))
      rw [written]
      exact .members listed

end Json

end Readiness
