import Mathlib.Data.List.DropRight
import Readiness.Proofs.Json.Spelling

/-! What a text spells is what is read from it.

Each part of the grammar has its reader, which stops where the part ends whatever comes next. Only a
number does not show its end, so what follows must not go on with it. The fuel lasts for any text:
two units for each character.
-/

namespace Readiness

open List

namespace Json

variable {text rest gap : List Char}

/-! ### Blanks and numbers -/

/-- Blanks are skipped up to the first character that is none. -/
theorem skipBlanks_append (blank : Blanks gap) (text : List Char) :
    skipBlanks (gap ++ text) = skipBlanks text := by
  refine dropWhile_append_of_pos fun c member => ?_
  simpa [isBlank, or_assoc] using blank c member

/-- Nothing follows that could be part of a number. -/
def Ends (text : List Char) : Prop :=
  ∀ c ∈ text.head?, c.isDigit = false ∧ c ≠ '.' ∧ c ≠ 'e' ∧ c ≠ 'E'

/-- Blanks end a number, and so does what follows them. -/
theorem Ends.append (blank : Blanks gap) (ends : Ends text) : Ends (gap ++ text) := by
  cases gap with
  | nil => exact ends
  | cons first more =>
    have listed := blank first mem_cons_self
    simp only [mem_cons, not_mem_nil, or_false] at listed
    rcases listed with rfl | rfl | rfl | rfl <;> simp [Ends, Char.isDigit]

/-- All digits in a row are read. -/
theorem readDigits_append (spelled : Digits text) (ends : ∀ c ∈ rest.head?, c.isDigit = false) :
    readDigits (text ++ rest) = some (text, rest) := by
  have stops : rest.takeWhile Char.isDigit = [] ∧ rest.dropWhile Char.isDigit = rest := by
    cases rest with
    | nil => exact ⟨rfl, rfl⟩
    | cons next more =>
      have other : next.isDigit = false := ends next rfl
      simp [other]
  rw [readDigits, takeWhile_append_of_pos spelled.only,
    dropWhile_append_of_pos spelled.only, stops.1, stops.2, append_nil]
  split
  next => exact absurd rfl spelled.any
  next => rfl

theorem readWhole_append (spelled : Whole text) (ends : ∀ c ∈ rest.head?, c.isDigit = false) :
    readWhole (text ++ rest) = some (text, rest) := by
  cases spelled with
  | zero => rfl
  | digits digits leading =>
    rw [cons_append, readWhole, ← cons_append, readDigits_append digits ends]
    intro more starts
    exact leading (List.cons.inj starts).1

theorem readFraction_append (spelled : Fraction text)
    (ends : ∀ c ∈ rest.head?, c.isDigit = false ∧ c ≠ '.') :
    readFraction (text ++ rest) = some (text, rest) := by
  cases spelled with
  | absent =>
    rw [nil_append, readFraction]
    rintro more rfl
    exact (ends '.' rfl).2 rfl
  | digits digits =>
    rw [cons_append, readFraction, readDigits_append digits fun c head => (ends c head).1]
    rfl

theorem readExponent_append (spelled : Exponent text) (ends : Ends rest) :
    readExponent (text ++ rest) = some (text, rest) := by
  cases spelled with
  | absent =>
    cases rest with
    | nil => rfl
    | cons next more =>
      obtain ⟨-, -, small, large⟩ := ends next rfl
      simp [readExponent, small, large]
  | @digits mark sign text marked signed digits =>
    have read : readSign (sign ++ (text ++ rest)) = (sign, text ++ rest) := by
      -- Without a sign the first digit must not be taken for one.
      rcases signed with rfl | rfl | rfl
      · obtain ⟨first, more, rfl⟩ := exists_cons_of_ne_nil digits.any
        have digit := digits.only first mem_cons_self
        rw [nil_append, cons_append, readSign]
        all_goals
          rintro more starts
          rw [(List.cons.inj starts).1] at digit
          exact absurd digit (by decide)
      · rfl
      · rfl
    have followed := readDigits_append digits fun c head => (ends c head).1
    simp [readExponent, marked, read, followed]

/-- What may follow the whole part of a number is no digit. -/
theorem Exponent.ends (spelled : Exponent text) (ends : Ends rest) :
    ∀ c ∈ (text ++ rest).head?, c.isDigit = false ∧ c ≠ '.' := by
  cases spelled with
  | absent => exact fun c head => ⟨(ends c head).1, (ends c head).2.1⟩
  | digits marked =>
    rintro c head
    obtain rfl : _ = c := Option.some.inj head
    rcases marked with rfl | rfl <;> decide

theorem readMagnitude_append (spelled : Magnitude text) (ends : Ends rest) :
    readMagnitude (text ++ rest) = some (text, rest) := by
  obtain @⟨_, fraction, exponent, first, second, third⟩ := spelled
  -- What ends a part is how the next one starts, so the parts are taken from the last.
  have point := third.ends ends
  have digit : ∀ c ∈ (fraction ++ (exponent ++ rest)).head?, c.isDigit = false := by
    cases second with
    | absent => exact fun c head => (point c head).1
    | digits =>
      rintro c head
      obtain rfl : _ = c := Option.some.inj head
      decide
  simp [readMagnitude, readWhole_append first digit, readFraction_append second point,
    readExponent_append third ends]

/-- A number without its sign starts with a digit. -/
theorem Magnitude.head (spelled : Magnitude text) :
    ∃ first more, text = first :: more ∧ first.isDigit = true := by
  obtain ⟨whole, -, -⟩ := spelled
  cases whole with
  | zero => exact ⟨_, _, rfl, by decide⟩
  | digits digits => exact ⟨_, _, rfl, digits.only _ mem_cons_self⟩

/-- A number starts with a digit or a sign. -/
theorem Numeral.head (spelled : Numeral text) :
    ∃ first more, text = first :: more ∧ (first = '-' ∨ first.isDigit = true) := by
  cases spelled with
  | negative => exact ⟨_, _, rfl, .inl rfl⟩
  | plain magnitude =>
    obtain ⟨first, more, rfl, digit⟩ := magnitude.head
    exact ⟨first, more, rfl, .inr digit⟩

theorem readNumber_append (spelled : Numeral text) (ends : Ends rest) :
    readNumber (text ++ rest) = some (text, rest) := by
  cases spelled with
  | negative magnitude => simp [readNumber, readMagnitude_append magnitude ends]
  | plain magnitude =>
    rw [readNumber, readMagnitude_append magnitude ends]
    intro more starts
    obtain ⟨first, others, rfl, digit⟩ := magnitude.head
    rw [(List.cons.inj starts).1] at digit
    exact absurd digit (by decide)

/-! ### Strings -/

variable {pieces : List Piece} {chars : List Char}

/-- A hexadecimal digit has the value of its place, which is less than sixteen. -/
theorem hexValue?_of_hex {c : Char} {value : Nat} (hex : Hex c value) :
    hexValue? c = some value ∧ value < 16 := by
  have values : ∀ digits ∈ ["0123456789abcdef", "0123456789ABCDEF"],
      ∀ value < 16, digits.toList[value]?.bind hexValue? = some value := by decide
  obtain ⟨digits, alphabet, found⟩ := hex
  have small : value < 16 := by
    have bound := (List.getElem?_eq_some_iff.mp found).1
    simp only [mem_cons, not_mem_nil, or_false] at alphabet
    rcases alphabet with rfl | rfl <;> exact bound
  have read := values digits alphabet value small
  rw [found] at read
  exact ⟨read, small⟩

/-- The elements of a string are read up to its closing quote. -/
theorem readPieces_append (written : Elements pieces text) (rest : List Char) :
    readPieces (text ++ '"' :: rest) = some (pieces, rest) := by
  induction written with
  | nil => rfl
  | cons element _ ih =>
    cases element with
    | raw visible quote backslash =>
      simp [readPieces, backslash, visible, ih]
    | escaped escape =>
      simp only [escapes, mem_cons, Prod.mk.injEq, not_mem_nil, or_false] at escape
      rcases escape with ⟨rfl, rfl⟩ | ⟨rfl, rfl⟩ | ⟨rfl, rfl⟩ | ⟨rfl, rfl⟩ | ⟨rfl, rfl⟩ |
        ⟨rfl, rfl⟩ | ⟨rfl, rfl⟩ | ⟨rfl, rfl⟩ <;> simp [readPieces, escape?, ih]
    | unit first second third fourth =>
      simp [readPieces, hexValue?_of_hex first, hexValue?_of_hex second, hexValue?_of_hex third,
        hexValue?_of_hex fourth, ih]

/-- A character is none of the surrogates. -/
theorem not_surrogate (c : Char) :
    isHighSurrogate c.toNat = false ∧ isLowSurrogate c.toNat = false := by
  have valid : c.toNat < 0xd800 ∨ 0xdfff < c.toNat ∧ c.toNat < 0x110000 := c.valid
  simp only [isHighSurrogate, isLowSurrogate, Bool.and_eq_false_iff, decide_eq_false_iff_not]
  omega

/-- A valid code is that of its character. -/
theorem toNat_ofNat_of_isValidChar {code : Nat} (valid : code.isValidChar) :
    (Char.ofNat code).toNat = code := by
  rw [Char.ofNat, dif_pos valid]
  rfl

/-- A code unit that is no surrogate is the number of a character, since it has sixteen bits. -/
theorem Elements.toNat_unit (written : Elements pieces text) {value : Nat}
    (member : .unit value ∈ pieces)
    (neither : ¬ (isHighSurrogate value || isLowSurrogate value) = true) :
    (Char.ofNat value).toNat = value := by
  have small : value < 0x10000 := by
    induction written with
    | nil => cases member
    | cons element _ ih =>
      cases member with
      | tail _ later => exact ih later
      | head =>
        cases element with
        | unit first second third fourth =>
          -- Four digits of base sixteen.
          have := (hexValue?_of_hex first).2
          have := (hexValue?_of_hex second).2
          have := (hexValue?_of_hex third).2
          have := (hexValue?_of_hex fourth).2
          omega
  simp only [isHighSurrogate, isLowSurrogate, Bool.or_eq_true, Bool.and_eq_true,
    decide_eq_true_eq] at neither
  exact toNat_ofNat_of_isValidChar (by unfold Nat.isValidChar; omega)

/-- The pieces of a string are put together to what they stand for. -/
theorem assemble_of_denotes (denotes : Denotes pieces chars) : assemble pieces = some chars := by
  induction denotes with
  | nil => rfl
  | char _ ih => simp [assemble, ih]
  | @unit c pieces _ _ ih =>
    -- Whatever piece comes next, the number of a character is not half of a pair.
    obtain ⟨high, low⟩ := not_surrogate c
    rcases pieces with _ | ⟨_ | _, _⟩ <;> simp_all [assemble, Char.ofNat_toNat]
  | pair first second code _ ih =>
    simp [assemble, isHighSurrogate, isLowSurrogate, first, second, ← code, ih, Char.ofNat_toNat]

/-- Only what stands for a text is put together to one. -/
theorem denotes_of_assemble (found : assemble pieces = some chars)
    (scalar : ∀ value, .unit value ∈ pieces →
      ¬ (isHighSurrogate value || isLowSurrogate value) = true →
      (Char.ofNat value).toNat = value) : Denotes pieces chars := by
  -- The cases are those of putting together; a surrogate that stands alone leaves nothing.
  fun_induction assemble pieces generalizing chars with
  | case1 =>
    cases found
    exact .nil
  | case2 c rest ih =>
    obtain ⟨more, same, rfl⟩ := Option.map_eq_some_iff.mp found
    exact .char (ih same fun value member => scalar value (.tail _ member))
  | case3 high low rest pair ih =>
    obtain ⟨more, same, rfl⟩ := Option.map_eq_some_iff.mp found
    simp only [isHighSurrogate, isLowSurrogate, Bool.and_eq_true, decide_eq_true_eq] at pair
    have valid : (0x10000 + (high - 0xd800) * 0x400 + (low - 0xdc00)).isValidChar := by
      unfold Nat.isValidChar
      omega
    exact .pair pair.1 pair.2 (toNat_ofNat_of_isValidChar valid)
      (ih same fun value member => scalar value (.tail _ (.tail _ member)))
  | case4 | case6 => cases found
  | case5 value _ _ _ neither ih | case7 value _ _ neither ih =>
    obtain ⟨more, same, rfl⟩ := Option.map_eq_some_iff.mp found
    have denotes := ih same fun value member => scalar value (.tail _ member)
    simpa only [scalar value (.head _) neither] using Denotes.unit (c := Char.ofNat value) denotes

/-- A string is read with what it says. -/
theorem readString_append {key : Option String} (quoted : Quoted key text) (rest : List Char) :
    ∃ body, text = '"' :: body ∧ readString (body ++ rest) = some (key, rest) := by
  cases quoted with
  | @readable content pieces body written denotes =>
    refine ⟨body ++ ['"'], rfl, ?_⟩
    simp [readString, readPieces_append written, assemble_of_denotes denotes]
  | @unreadable pieces body written senseless =>
    refine ⟨body ++ ['"'], rfl, ?_⟩
    have none : assemble pieces = none := by
      refine Option.eq_none_iff_forall_ne_some.mpr fun chars found => ?_
      exact senseless chars (denotes_of_assemble found fun _ => written.toNat_unit)
    simp [readString, readPieces_append written, none]

/-! ### Values -/

variable {fuel : Nat} {first : Char} {more after : List Char} {value : Json} {values : List Json}
  {fields : List (Option String × Json)}

theorem readValue_congr (same : skipBlanks text = skipBlanks rest) :
    readValue fuel text = readValue fuel rest := by
  cases fuel with
  | zero => rfl
  | succ fuel => rw [readValue, readValue, same]

theorem skipBlanks_skipBlanks (text : List Char) :
    skipBlanks (skipBlanks text) = skipBlanks text :=
  dropWhile_idempotent _ _

/-- The items of an array are read if there are any. -/
theorem readValue_items (starts : skipBlanks text = first :: more) (item : first ≠ ']')
    (read : readItems fuel text = some (values, after)) :
    readValue (fuel + 1) ('[' :: text) = some (.array values, after) := by
  -- The blanks are skipped to look for the end of the array, and the items are read after them.
  have skipped : readItems fuel (skipBlanks text) = some (values, after) := by
    cases fuel with
    | zero => exact read
    | succ fuel => rwa [readItems, readValue_congr (skipBlanks_skipBlanks text), ← readItems.eq_2]
  rw [starts] at skipped
  have bracket : skipBlanks ('[' :: text) = '[' :: text := rfl
  rw [readValue, bracket]
  simp only [starts]
  split
  next ends => exact absurd (List.cons.inj ends).1 item
  next => simp [skipped]

/-- The members of an object are read if there are any. -/
theorem readValue_members (starts : skipBlanks text = '"' :: more)
    (read : readMembers fuel text = some (fields, after)) :
    readValue (fuel + 1) ('\x7b' :: text) = some (ofMembers fields, after) := by
  have skipped : readMembers fuel (skipBlanks text) = some (fields, after) := by
    cases fuel with
    | zero => exact read
    | succ fuel => rwa [readMembers, skipBlanks_skipBlanks, ← readMembers.eq_2]
  rw [starts] at skipped
  have brace : skipBlanks ('\x7b' :: text) = '\x7b' :: text := rfl
  rw [readValue, brace]
  simp [starts, skipped]

/-- A value starts with a character that is neither blank nor closes an array. -/
theorem Spelled.head (spelled : Spelled value text) :
    ∃ first more, text = first :: more ∧ isBlank first = false ∧ first ≠ ']' := by
  cases spelled with
  | number numeral =>
    obtain ⟨first, more, rfl, starts⟩ := numeral.head
    refine ⟨first, more, rfl, ?_, ?_⟩
    · by_contra blank
      simp only [isBlank, Bool.or_eq_true, decide_eq_true_eq, Bool.not_eq_false] at blank
      rcases blank with ((rfl | rfl) | rfl) | rfl <;> exact absurd starts (by decide)
    · rintro rfl
      exact absurd starts (by decide)
  | string quoted | unreadable quoted =>
    obtain ⟨body, rfl, -⟩ := readString_append quoted []
    exact ⟨_, _, rfl, by decide, by decide⟩
  | _ => exact ⟨_, _, rfl, by decide, by decide⟩

theorem skipBlanks_cons (printed : isBlank first = false) (more : List Char) :
    skipBlanks (first :: more) = first :: more := by
  simp [skipBlanks, printed]

/-- A list of items does not start like the end of an array. -/
theorem Items.head (listed : Items values text) (rest : List Char) :
    ∃ first more, skipBlanks (text ++ rest) = first :: more ∧ first ≠ ']' := by
  have starts : ∀ {value text}, Padded value text → ∀ rest,
      ∃ first more, skipBlanks (text ++ rest) = first :: more ∧ first ≠ ']' := by
    rintro value - ⟨leading, spelled, -⟩ rest
    obtain ⟨first, more, rfl, printed, item⟩ := spelled.head
    rw [append_assoc, append_assoc, skipBlanks_append leading, cons_append,
      skipBlanks_cons printed]
    exact ⟨first, _, rfl, item⟩
  cases listed with
  | last padded => exact starts padded rest
  | more padded =>
    rw [append_assoc]
    exact starts padded _

/-- A list of members starts with a name. -/
theorem Members.head (listed : Members fields text) (rest : List Char) :
    ∃ more, skipBlanks (text ++ rest) = '"' :: more := by
  cases listed with
  | last leading quoted | more leading quoted =>
    obtain ⟨body, rfl, -⟩ := readString_append quoted []
    simp only [append_assoc, cons_append, skipBlanks_append leading]
    exact ⟨_, rfl⟩

/-- Members become an object where every one of them has a name. -/
theorem ofMembers_eq (fields : List (Option String × Json)) :
    ofMembers fields =
      (fields.mapM (fun field : Option String × Json => field.1.map (·, field.2))).elim
        .unreadable .object := by
  rw [ofMembers]
  split
  all_goals
    rename_i found
    exact (congrArg (·.elim Json.unreadable Json.object) found).symm

theorem ofMembers_named (members : List (String × Json)) :
    ofMembers (members.map (Prod.map some id)) = .object members := by
  have named : (members.map (Prod.map some id)).mapM (fun field => field.1.map (·, field.2))
      = some members := by
    induction members with
    | nil => rfl
    | cons member rest ih => simp [ih]
  rw [ofMembers_eq, named, Option.elim_some]

theorem ofMembers_nameless (unnamed : ∃ field ∈ fields, field.1 = none) :
    ofMembers fields = .unreadable := by
  have nothing : fields.mapM (fun field => field.1.map (·, field.2)) = none := by
    induction fields with
    | nil => simp at unnamed
    | cons field rest ih =>
      obtain ⟨_ | name, value⟩ := field
      · rfl
      · have later : ∃ field ∈ rest, field.1 = none := by simpa using unnamed
        simp [ih later]
  rw [ofMembers_eq, nothing, Option.elim_none]

/-- What is spelled in few enough characters is read with this much fuel. A list takes one unit more
than its characters, for the step from the list to its first value. -/
structure Reads (fuel : Nat) : Prop where
  value {value : Json} {text rest : List Char} : Spelled value text → 2 * text.length ≤ fuel →
    Ends rest → readValue fuel (text ++ rest) = some (value, rest)
  items {values : List Json} {text : List Char} : Items values text → 2 * text.length < fuel →
    ∀ rest, readItems fuel (text ++ ']' :: rest) = some (values, rest)
  members {fields : List (Option String × Json)} {text : List Char} : Members fields text →
    2 * text.length < fuel →
    ∀ rest, readMembers fuel (text ++ '\x7d' :: rest) = some (fields, rest)

/-- A value is also read between blanks. -/
theorem Reads.padded (reads : Reads fuel) (padded : Padded value text)
    (bound : 2 * text.length ≤ fuel) (ends : Ends rest) :
    ∃ after, readValue fuel (text ++ rest) = some (value, after) ∧
      skipBlanks after = skipBlanks rest := by
  obtain @⟨_, before, text, after, leading, spelled, trailing⟩ := padded
  refine ⟨after ++ rest, ?_, skipBlanks_append trailing rest⟩
  simp only [length_append] at bound
  -- The blanks before the value are skipped, those after it are left.
  rw [append_assoc, append_assoc, readValue_congr (skipBlanks_append leading _)]
  exact reads.value spelled (by omega) (ends.append trailing)

/-- One more unit of fuel is enough to read a value around what can be read. -/
theorem Reads.value_next (reads : Reads fuel) (spelled : Spelled value text)
    (bound : 2 * text.length ≤ fuel + 1) (ends : Ends rest) :
    readValue (fuel + 1) (text ++ rest) = some (value, rest) := by
  cases spelled with
  | null => rfl
  | yes => rfl
  | no => rfl
  | number numeral =>
    obtain ⟨first, more, rfl, starts⟩ := numeral.head
    obtain ⟨_, _, same, printed, -⟩ := (Spelled.number numeral).head
    obtain ⟨rfl, rfl⟩ := List.cons.inj same
    have read := readNumber_append numeral ends
    rw [cons_append] at read ⊢
    rw [readValue, skipBlanks_cons printed]
    -- No other value starts like a number.
    split
    iterate 6 next same => exact absurd ((List.cons.inj same).1 ▸ starts) (by decide)
    next => simp [read]
  | string quoted | unreadable quoted =>
    obtain ⟨body, rfl, read⟩ := readString_append quoted rest
    rw [cons_append, readValue, skipBlanks_cons (by decide)]
    simp [read]
  | noItems blank =>
    have closes := skipBlanks_append blank (']' :: rest)
    rw [append_assoc, cons_append, readValue, skipBlanks_cons (by decide)]
    simp only [cons_append, nil_append, closes]
    rfl
  | items listed =>
    simp only [length_append, length_cons, length_nil] at bound
    obtain ⟨first, more, starts, item⟩ := listed.head (']' :: rest)
    simpa using readValue_items starts item (reads.items listed (by omega) rest)
  | noMembers blank =>
    have closes := skipBlanks_append blank ('\x7d' :: rest)
    rw [append_assoc, cons_append, readValue, skipBlanks_cons (by decide)]
    simp only [cons_append, nil_append, closes]
    rfl
  | members listed =>
    simp only [length_append, length_cons, length_nil] at bound
    obtain ⟨more, starts⟩ := listed.head ('\x7d' :: rest)
    rw [← ofMembers_named]
    simpa using readValue_members starts (reads.members listed (by omega) rest)
  | nameless listed unnamed =>
    simp only [length_append, length_cons, length_nil] at bound
    obtain ⟨more, starts⟩ := listed.head ('\x7d' :: rest)
    rw [← ofMembers_nameless unnamed]
    simpa using readValue_members starts (reads.members listed (by omega) rest)

/-- What closes a list or goes on with it also ends a number. -/
theorem ends_cons {c : Char} (closes : c ∈ [',', ']', '\x7d']) (rest : List Char) :
    Ends (c :: rest) := by
  intro first head
  obtain rfl : c = first := Option.some.inj head
  simp only [mem_cons, not_mem_nil, or_false] at closes
  rcases closes with rfl | rfl | rfl <;> decide

/-- One more unit of fuel is enough to read items that can each be read. -/
theorem Reads.items_next (reads : Reads fuel) (listed : Items values text)
    (bound : 2 * text.length < fuel + 1) (rest : List Char) :
    readItems (fuel + 1) (text ++ ']' :: rest) = some (values, rest) := by
  cases listed with
  | last padded =>
    obtain ⟨after, read, closes⟩ := reads.padded padded (by omega)
      (ends_cons (c := ']') (by simp) rest)
    -- The blanks that the value has left are skipped before the bracket.
    rw [skipBlanks_cons (by decide)] at closes
    simp [readItems, read, closes]
  | @more _ _ _ others padded listed =>
    simp only [length_append, length_cons] at bound
    obtain ⟨after, read, continues⟩ := reads.padded padded (by omega)
      (ends_cons (c := ',') (by simp) (others ++ ']' :: rest))
    rw [skipBlanks_cons (by decide)] at continues
    simp [readItems, read, continues, reads.items listed (by omega) rest]

/-- One more unit of fuel is enough to read members whose values can each be read. -/
theorem Reads.members_next (reads : Reads fuel) (listed : Members fields text)
    (bound : 2 * text.length < fuel + 1) (rest : List Char) :
    readMembers (fuel + 1) (text ++ '\x7d' :: rest) = some (fields, rest) := by
  cases listed with
  | @last key value before name gap text leading quoted trailing padded =>
    simp only [length_append, length_cons] at bound
    obtain ⟨body, rfl, named⟩ := readString_append quoted (gap ++ ':' :: (text ++ '\x7d' :: rest))
    obtain ⟨after, read, closes⟩ := reads.padded padded (by omega)
      (ends_cons (c := '\x7d') (by simp) rest)
    rw [skipBlanks_cons (by decide)] at closes
    simp [readMembers, skipBlanks_append leading, skipBlanks_append trailing, named,
      skipBlanks_cons, isBlank, read, closes]
  | @more key value before name gap text others fields leading quoted trailing padded listed =>
    simp only [length_append, length_cons] at bound
    obtain ⟨body, rfl, named⟩ := readString_append quoted
      (gap ++ ':' :: (text ++ ',' :: (others ++ '\x7d' :: rest)))
    obtain ⟨after, read, continues⟩ := reads.padded padded (by omega)
      (ends_cons (c := ',') (by simp) (others ++ '\x7d' :: rest))
    rw [skipBlanks_cons (by decide)] at continues
    simp [readMembers, skipBlanks_append leading, skipBlanks_append trailing, named,
      skipBlanks_cons, isBlank, read, continues, reads.members listed (by omega) rest]

/-- Two units of fuel for each character are enough. -/
theorem reads (fuel : Nat) : Reads fuel := by
  induction fuel with
  | zero =>
    -- Every value has a character, so none is short enough.
    refine ⟨fun spelled bound => ?_, fun _ bound => by omega, fun _ bound => by omega⟩
    obtain ⟨first, more, rfl, -⟩ := spelled.head
    simp at bound
  | succ fuel ih => exact ⟨ih.value_next, ih.items_next, ih.members_next⟩

/-- A text is read as the value that it spells. -/
theorem parse?_of_spells {text : String} (spells : Spells text value) :
    parse? text = some value := by
  have ends : Ends [] := by simp [Ends]
  -- Nothing but blanks may be left of the whole text.
  obtain ⟨after, read, blank⟩ :=
    (reads (2 * text.toList.length + 1)).padded spells (by omega) ends
  rw [append_nil] at read
  have nothing : (skipBlanks after).isEmpty = true := by rw [blank]; rfl
  simp [parse?, read, nothing]

end Json

end Readiness
