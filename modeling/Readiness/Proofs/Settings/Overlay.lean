import Readiness.Settings
import Readiness.Proofs.Json.Reading

/-! Settings read from a text: the fields that it gives, laid onto the defaults. -/

namespace Readiness

open List

variable {fields : List (String × Option Json)}

/-- An object has a member for each field that is given and none for the other fields. Its members
stand in any order, among members of any other names. -/
def Json.Holds (value : Json) (fields : List (String × Option Json)) : Prop :=
  ∃ members others, value = .object members ∧
    members.Perm (fields.filterMap (fun field => field.2.map (field.1, ·)) ++ others) ∧
    ∀ other ∈ others, other.1 ∉ fields.map Prod.fst

/-- Among fields of different names, a name has the members of its own field only. -/
theorem filter_given (nodup : (fields.map Prod.fst).Nodup) {field : String × Option Json}
    (member : field ∈ fields) :
    (fields.filterMap (fun field => field.2.map (field.1, ·))).filter (·.1 == field.1)
      = (field.2.map (field.1, ·)).toList := by
  induction fields with
  | nil => cases member
  | cons first rest ih =>
    obtain ⟨apart, nodup⟩ := nodup_cons.mp nodup
    cases member with
    | head =>
      have others : (rest.filterMap fun field => field.2.map (field.1, ·)).filter (·.1 == field.1)
          = [] := by
        refine filter_eq_nil_iff.mpr fun found listed same => apart ?_
        obtain ⟨other, member, given⟩ := mem_filterMap.mp listed
        obtain ⟨value, -, rfl⟩ := Option.map_eq_some_iff.mp given
        exact beq_iff_eq.mp same ▸ mem_map_of_mem member
      cases given : field.2 with
      | none => simp [given, others]
      | some value => simp [given, others]
    | tail _ member =>
      have other : first.1 ≠ field.1 := fun same => apart (same ▸ mem_map_of_mem member)
      cases given : first.2 with
      | none => simpa [given] using ih nodup member
      | some value => simpa [given, other] using ih nodup member

/-- The fields that an object holds are found in it. -/
theorem Json.Holds.fields? {value : Json} (held : value.Holds fields)
    (nodup : (fields.map Prod.fst).Nodup) :
    value.fields? (fields.map Prod.fst) = some (fields.map Prod.snd) := by
  obtain ⟨members, others, rfl, order, unknown⟩ := held
  have found : ∀ field ∈ fields, members.filter (·.1 == field.1)
      = (field.2.map (field.1, ·)).toList := by
    intro field member
    have apart : others.filter (·.1 == field.1) = [] := by
      refine filter_eq_nil_iff.mpr fun other listed => ?_
      rw [beq_iff_eq]
      rintro same
      exact unknown other listed (same ▸ mem_map_of_mem member)
    have same := order.filter (·.1 == field.1)
    rw [filter_append, apart, append_nil, filter_given nodup member] at same
    cases given : field.2 with
    | none =>
      rw [given] at same
      exact same.eq_nil
    | some value =>
      rw [given] at same
      exact perm_singleton.mp same
  -- The names are looked up one by one, each with nothing or with its one value.
  clear nodup order unknown
  induction fields with
  | nil => rfl
  | cons field rest ih =>
    have later := ih fun other member => found other (.tail _ member)
    have first := found field (.head _)
    simp only [Json.fields?] at later
    cases given : field.2 with
    | none => simp [Json.fields?, first, given, later]
    | some value => simp [Json.fields?, first, given, later]

/-- Some of the fields of a policy. -/
structure DeliveryPolicy.Excerpt where
  deferReady : Option Bool := none
  firstLast : Option Bool := none

namespace DeliveryPolicy.Excerpt

variable {given : Excerpt}

/-- A JSON value holds these fields of a policy. -/
def HeldBy (given : Excerpt) (value : Json) : Prop :=
  value.Holds (fieldNames.zip [given.deferReady.map .bool, given.firstLast.map .bool])

/-- A policy with these fields in place of its own. -/
def onto (given : Excerpt) (base : DeliveryPolicy) : DeliveryPolicy where
  deferReady := given.deferReady.getD base.deferReady
  firstLast := given.firstLast.getD base.firstLast

theorem HeldBy.ofJson? {value : Json} (held : given.HeldBy value) :
    DeliveryPolicy.ofJson? value = some (given.onto {}) := by
  have read : value.fields? fieldNames
      = some [given.deferReady.map .bool, given.firstLast.map .bool] :=
    Json.Holds.fields? held (show fieldNames.Nodup by decide)
  rw [DeliveryPolicy.ofJson?, read]
  obtain ⟨deferReady, firstLast⟩ := given
  -- Each of the two fields is given or not.
  cases deferReady <;> cases firstLast <;> rfl

end DeliveryPolicy.Excerpt

/-- Some of the fields of settings, with some of the fields of the policy. -/
structure Settings.Excerpt where
  dispatch : Option DeliveryPolicy.Excerpt := none
  temporaryPrefix : Option String := none
  timed : Option Bool := none

namespace Settings.Excerpt

variable {given : Excerpt} {value : Json}

/-- A JSON value holds these fields of settings. -/
def HeldBy (given : Excerpt) (value : Json) : Prop :=
  ∃ dispatch : Option Json, Option.Rel DeliveryPolicy.Excerpt.HeldBy given.dispatch dispatch ∧
    value.Holds (fieldNames.zip
      [dispatch, given.temporaryPrefix.map .string, given.timed.map .bool])

/-- Settings with these fields in place of their own. -/
def onto (given : Excerpt) (base : Settings) : Settings where
  dispatch := (given.dispatch.getD {}).onto base.dispatch
  temporaryPrefix := given.temporaryPrefix.getD base.temporaryPrefix
  timed := given.timed.getD base.timed

theorem HeldBy.ofJson? (held : given.HeldBy value) :
    Settings.ofJson? value = some (given.onto {}) := by
  obtain ⟨dispatch, nested, held⟩ := held
  have read : value.fields? fieldNames
      = some [dispatch, given.temporaryPrefix.map .string, given.timed.map .bool] :=
    Json.Holds.fields? held (show fieldNames.Nodup by decide)
  obtain ⟨policy, temporaryPrefix, timed⟩ := given
  have policyRead : fieldOr DeliveryPolicy.ofJson? {} dispatch
      = some ((policy.getD {}).onto {}) := by
    cases nested with
    | none => rfl
    | some within => exact DeliveryPolicy.Excerpt.HeldBy.ofJson? within
  have prefixRead : fieldOr Json.text? "__exe_" (temporaryPrefix.map .string)
      = some (temporaryPrefix.getD "__exe_") := by
    cases temporaryPrefix <;> rfl
  have timedRead : fieldOr Json.bool? true (timed.map .bool) = some (timed.getD true) := by
    cases timed <;> rfl
  simp [Settings.ofJson?, read, policyRead, prefixRead, timedRead, onto]

/-- Whatever text spells the object, the fields that it holds are read from it. -/
theorem HeldBy.parse? {text : String} (held : given.HeldBy value)
    (spells : Json.Spells text value) : Settings.parse? text = some (given.onto {}) := by
  rw [Settings.parse?, Json.parse?_of_spells spells]
  exact held.ofJson?

end Settings.Excerpt

/-- All fields of settings. -/
def Settings.excerpt (settings : Settings) : Settings.Excerpt where
  dispatch := some ⟨some settings.dispatch.deferReady, some settings.dispatch.firstLast⟩
  temporaryPrefix := some settings.temporaryPrefix
  timed := some settings.timed

theorem Settings.heldBy_toJson (settings : Settings) :
    settings.excerpt.HeldBy settings.toJson :=
  ⟨some settings.dispatch.toJson, .some ⟨_, [], rfl, .refl _, by simp⟩, _, [], rfl, .refl _,
    by simp⟩

theorem Settings.writable_toJson (settings : Settings) : Json.Writable settings.toJson := by
  have dispatch : Json.Writable settings.dispatch.toJson :=
    .object (forall_mem_cons.mpr ⟨.bool _, forall_mem_singleton.mpr (.bool _)⟩)
  exact .object (forall_mem_cons.mpr ⟨dispatch,
    forall_mem_cons.mpr ⟨.string _, forall_mem_singleton.mpr (.bool _)⟩⟩)

/-- Settings are read back from their compact text. A text of an object that gives some of their
fields is read as the defaults with exactly these fields in place of their own. -/
theorem settings_read_onto_defaults :
    (∀ settings : Settings, Settings.parse? settings.render = some settings) ∧
    ∀ (given : Settings.Excerpt) (value : Json) (text : String), given.HeldBy value →
      Json.Spells text value → Settings.parse? text = some (given.onto {}) := by
  refine ⟨fun settings => ?_, fun given value text held spells => held.parse? spells⟩
  have spells : Json.Spells settings.render settings.toJson := by
    rw [Json.Spells, Settings.render, Json.render, String.toList_ofList]
    exact (Json.spelled_write settings.writable_toJson).padded
  exact settings.heldBy_toJson.parse? spells

/-- Fields in another order are read among unknown ones and blanks, and the others keep their
defaults. -/
theorem settings_read_onto_defaults_reordered :
    let given : Settings.Excerpt :=
      { dispatch := some { firstLast := some false }, timed := some false }
    let dispatch : Json := .object [("first_registered_last", .bool false)]
    let value : Json := .object
      [("\"\x00é", .array [.number "-1.5e3"]), ("record_timing", .bool false),
      ("dispatch", dispatch)]
    let text := " \x7b\"\\\"\\u0000é\":[-1.5e3],\"record_timing\":false," ++
      "\"dispatch\":\x7b\"first_registered_last\":false\x7d\x7d\n"
    given.HeldBy value ∧ Json.Spells text value ∧
      Settings.parse? text = some ⟨⟨true, false⟩, "__exe_", false⟩ := by
  intro given dispatch value text
  have within : ({ firstLast := some false } : DeliveryPolicy.Excerpt).HeldBy dispatch :=
    ⟨_, [], rfl, .refl _, by simp⟩
  have held : given.HeldBy value := by
    refine ⟨some dispatch, .some within, _, [("\"\x00é", .array [.number "-1.5e3"])], rfl, ?_, ?_⟩
    · exact .trans (.swap _ _ _) (.trans (.cons _ (.swap _ _ _)) (.swap _ _ _))
    · simp [Settings.fieldNames]
  have digit (c : Char) (digit : c.isDigit = true) : Json.Digits [c] :=
    ⟨cons_ne_nil _ _, by simpa using digit⟩
  have numeral : Json.Numeral "-1.5e3".toList :=
    .negative (.parts (.digits (digit '1' rfl) (by decide)) (.digits (digit '5' rfl))
      (.digits (.inl rfl) (.inl rfl) (digit '3' rfl)))
  have writable : Json.Writable value :=
    .object (forall_mem_cons.mpr ⟨.array (forall_mem_singleton.mpr (.number numeral)),
      forall_mem_cons.mpr ⟨.bool false, forall_mem_singleton.mpr
        (.object (forall_mem_singleton.mpr (.bool false)))⟩⟩)
  have spells : Json.Spells text value := by
    have same : text.toList = [' '] ++ value.write ++ ['\n'] := by decide
    rw [Json.Spells, same]
    exact .blanks (by simp [Json.Blanks]) (Json.spelled_write writable) (by simp [Json.Blanks])
  exact ⟨held, spells, settings_read_onto_defaults.2 given value text held spells⟩

end Readiness
