import Mathlib.Data.Nat.Count
import Readiness.Proofs.Roster.Entries

/-! Identity: which executables of a host can go by one id.

An id is chosen by the client and registered, or made up by the host from its prefix and a number
that is used once. No two ids of one kind are the same among those in service. Nothing keeps the
kinds apart, so a registered id can be the temporary one of somebody else.
-/

namespace Readiness

open Function

theorem Host.temporaryId_injective (host : Host) : Function.Injective host.temporaryId := by
  -- The prefix is the same on both sides, and a number can be read back from its digits.
  intro left right same
  have digits := congrArg (Nat.ofDigitChars 10 ·.toList 0) ((String.append_right_inj _).mp same)
  simpa only [Nat.toList_repr, Nat.ofDigitChars_ten_toDigits] using digits

theorem count_congr_of_lt {left right : Nat → Prop} [DecidablePred left] [DecidablePred right]
    {bound : Nat} (same : ∀ n < bound, left n ↔ right n) :
    Nat.count left bound = Nat.count right bound := by
  simp only [Nat.count_eq_card_filter_range]
  refine congrArg Finset.card (Finset.filter_congr fun n below => ?_)
  exact same n (Finset.mem_range.mp below)

namespace Annals

/-- The executable is one of the host's that go by a temporary id. -/
def IsTemporary (annals : Annals) (h : HostRef) (e : ExecutableRef) : Prop :=
  (annals.file e).registered = false ∧ (annals.file e).host = h

/-- Whether an executable goes by a temporary id can be checked. -/
instance (annals : Annals) (h : HostRef) : DecidablePred (annals.IsTemporary h) :=
  fun _ => inferInstanceAs (Decidable (_ ∧ _))

/-- How many temporary ids the host has made up for the executables before this one. -/
def temporariesBefore (annals : Annals) (h : HostRef) (e : ExecutableRef) : Nat :=
  Nat.count (annals.IsTemporary h) e

/-- Temporary ids are numbered in the order in which their executables were built. -/
structure Assigned (annals : Annals) : Prop where
  hosted : ∀ e < annals.size, (annals.file e).host < annals.hosts
  next : ∀ h < annals.hosts,
    (annals.office h).nextTemporary = annals.temporariesBefore h annals.size + 1
  numbered : ∀ h, ∀ e < annals.size, annals.IsTemporary h e →
    (annals.file e).id = (annals.office h).temporaryId (annals.temporariesBefore h e + 1)

variable {before after : Annals}

/-- The count depends on the registrations of older executables only. -/
theorem temporariesBefore_congr {h : HostRef} {e : ExecutableRef}
    (same : ∀ older < e, (after.file older).registration = (before.file older).registration) :
    after.temporariesBefore h e = before.temporariesBefore h e := by
  refine count_congr_of_lt fun older below => ?_
  have kept := same older below
  simp only [Executable.registration, Prod.mk.injEq] at kept
  rw [IsTemporary, IsTemporary, kept.1, kept.2.1]

namespace Assigned

variable (assigned : before.Assigned)
include assigned

/-- Ids that were given out stay as they are, whatever else changes about the executables. -/
theorem numbered_of_kept
    (kept : ∀ e < before.size, (after.file e).registration = (before.file e).registration)
    (settings : ∀ h < before.hosts, (after.office h).settings = (before.office h).settings)
    {h : HostRef} {e : ExecutableRef} (built : e < before.size)
    (temporary : after.IsTemporary h e) :
    (after.file e).id = (after.office h).temporaryId (after.temporariesBefore h e + 1) := by
  have own := kept e built
  simp only [Executable.registration, Prod.mk.injEq] at own
  have was : before.IsTemporary h e := ⟨own.1 ▸ temporary.1, own.2.1 ▸ temporary.2⟩
  -- The prefix is part of the settings, which an open host keeps.
  have opened : h < before.hosts := was.2 ▸ assigned.hosted e built
  have same : (after.office h).temporaryId = (before.office h).temporaryId := by
    unfold Host.temporaryId
    rw [settings h opened]
  rw [own.2.2, same,
    temporariesBefore_congr fun older below => kept older (Nat.lt_trans below built)]
  exact assigned.numbered h e built was

theorem of_same (size : after.size = before.size) (hosts : after.hosts = before.hosts)
    (kept : ∀ e < before.size, (after.file e).registration = (before.file e).registration)
    (settings : ∀ h < before.hosts, (after.office h).settings = (before.office h).settings)
    (next : ∀ h, (after.office h).nextTemporary = (before.office h).nextTemporary) :
    after.Assigned where
  hosted := fun e built => by
    have own := kept e (size ▸ built)
    simp only [Executable.registration, Prod.mk.injEq] at own
    rw [own.2.1, hosts]
    exact assigned.hosted e (size ▸ built)
  next := fun h opened => by
    rw [next, size, temporariesBefore_congr kept]
    exact assigned.next h (hosts ▸ opened)
  numbered := fun _ _ built => assigned.numbered_of_kept kept settings (size ▸ built)

/-- Opening a host leaves the numbers of the others alone, and its own start from one. -/
theorem openHost (settings : Settings) :
    Assigned
      { before with
        hosts := before.hosts + 1
        office := Function.update before.office before.hosts { settings } } where
  hosted := fun e built => Nat.lt_succ_of_lt (assigned.hosted e built)
  next := fun h opened => by
    change _ = before.temporariesBefore h before.size + 1
    rcases Nat.lt_succ_iff_lt_or_eq.mp opened with older | rfl
    · simpa only [update_of_ne (Nat.ne_of_lt older)] using assigned.next h older
    · -- No executable has the new host, so there is nothing to count.
      have none_yet : before.temporariesBefore before.hosts before.size = 0 := by
        rw [temporariesBefore, Nat.count_iff_forall_not]
        intro e built temporary
        exact absurd (assigned.hosted e built) (temporary.2 ▸ Nat.lt_irrefl _)
      simp only [update_self, none_yet]
  numbered := fun _ _ built temporary => by
    refine assigned.numbered_of_kept ?_ (fun h opened => ?_) built temporary
    · exact fun _ _ => rfl
    · exact congrArg Host.settings (update_of_ne (Nat.ne_of_lt opened) _ _)

theorem build {h : HostRef} (opened : h < before.hosts) {built : Executable} (home : built.host = h)
    {office : Host} (settings : office.settings = (before.office h).settings)
    (next : office.nextTemporary =
      (before.office h).nextTemporary + if built.registered then 0 else 1)
    (id : built.registered = false →
      built.id = (before.office h).temporaryId (before.office h).nextTemporary)
    (journal : List Occurrence) :
    Assigned
      { before with
        size := before.size + 1
        file := Function.update before.file before.size built
        office := Function.update before.office h office
        journal } := by
  have older (e : ExecutableRef) (below : e < before.size) :
      Function.update before.file before.size built e = before.file e :=
    update_of_ne (Nat.ne_of_lt below) _ _
  have kept (e : ExecutableRef) (below : e < before.size) :
      (Function.update before.file before.size built e).registration =
        (before.file e).registration := congrArg _ (older e below)
  have same (other : HostRef) :
      (Function.update before.office h office other).settings = (before.office other).settings :=
    view_update Host.settings settings other
  refine ⟨fun e below => ?_, fun other open_ => ?_, fun other e below temporary => ?_⟩
  · rcases Nat.lt_succ_iff_lt_or_eq.mp below with below | rfl
    · simpa only [older e below] using assigned.hosted e below
    · simpa only [update_self, home] using opened
  · -- One more executable is to be looked at, which counts for its own host if it is temporary.
    rw [temporariesBefore, Nat.count_succ, ← temporariesBefore, temporariesBefore_congr kept]
    by_cases here : other = h
    · subst here
      simp only [update_self, next, assigned.next other open_, IsTemporary, home]
      cases built.registered <;> simp
    · have elsewhere : ¬ built.host = other := fun there => here (there.symm.trans home)
      simpa only [update_of_ne here, IsTemporary, update_self, elsewhere,
        and_false, if_false, Nat.add_zero] using assigned.next other open_
  · rcases Nat.lt_succ_iff_lt_or_eq.mp below with below | rfl
    · exact assigned.numbered_of_kept kept (fun other _ => same other) below temporary
    · -- The newest one has the number that was next.
      obtain ⟨plain, there⟩ := temporary
      simp only [update_self] at plain there ⊢
      obtain rfl : h = other := home.symm.trans there
      rw [id plain, temporariesBefore_congr kept, ← assigned.next h opened]
      simp only [Host.temporaryId, update_self, settings]

end Assigned

end Annals

namespace Machine

variable {machine : Machine} {h : HostRef} {e f : ExecutableRef}

/-- Everything that a step can enter in the annals keeps temporary ids in order. -/
theorem Enters.assigned {after : Annals} (enters : machine.Enters after)
    (assigned : machine.engine.annals.Assigned) : after.Assigned := by
  -- Only building and opening hosts have to do with numbers.
  have kept := fun e (built : e < machine.engine.annals.size) => enters.registration_eq built
  have settings := fun h (opened : h < machine.engine.annals.hosts) => enters.settings_eq opened
  cases enters with
  | note noted =>
    obtain ⟨news, _, rfl⟩ := noted
    exact assigned.of_same rfl rfl kept settings fun _ => rfl
  | advance elapsed => exact assigned.of_same rfl rfl kept settings fun _ => rfl
  | openHost added => exact assigned.openHost added
  | temporary opened lawful =>
    refine assigned.build opened ?_ ?_ ?_ ?_ _
    · rfl
    · rfl
    · rfl
    · exact fun _ => rfl
  | register opened lawful vacant =>
    refine assigned.build opened ?_ ?_ ?_ ?_ _
    · rfl
    · rfl
    · rfl
    · exact fun plain => Bool.noConfusion plain
  | execute asked runs => exact assigned.of_same rfl rfl kept settings fun _ => rfl
  | move asked moves =>
    exact assigned.of_same rfl rfl kept settings (view_update Host.nextTemporary rfl)
  | destroy asked there noted =>
    obtain ⟨news, _, rfl⟩ := noted
    refine assigned.of_same rfl rfl kept settings (view_update Host.nextTemporary ?_)
    split <;> rfl

/-- In every state of every run temporary ids are numbered in the order of building. -/
theorem Reachable.assigned (reachable : machine.Reachable) : machine.engine.annals.Assigned := by
  induction reachable with
  | refl =>
    -- Nothing is built and no host is open, so there is nothing to check.
    exact ⟨fun e none => absurd none (Nat.not_lt_zero e),
      fun h none => absurd none (Nat.not_lt_zero h),
      fun _ e none => absurd none (Nat.not_lt_zero e)⟩
  | step run step ih =>
    have reachable : Reachable _ := run
    exact (reachable.sound.enters_next step).assigned ih

/-- The executable is one of the host's, something refers to it, and it is not destroyed. -/
structure InService (machine : Machine) (h : HostRef) (e : ExecutableRef) : Prop where
  kept : machine.Kept e
  /-- It was built with the host. -/
  home : (machine.engine.executable e).host = h
  there : (machine.engine.executable e).destroyed = false

/-- The executable is registered under the temporary id that the host made up for the other one:
the prefix, and the number of the other one among all that have got a temporary id. -/
def PosesAs (machine : Machine) (h : HostRef) (e f : ExecutableRef) : Prop :=
  (machine.engine.executable e).registered = true ∧
    (machine.engine.executable f).registered = false ∧
    (machine.engine.executable e).id = (machine.engine.host h).temporaryId
      (machine.engine.annals.temporariesBefore h f + 1)

/-- Whether one executable poses as another can be checked. -/
instance (machine : Machine) (h : HostRef) (e f : ExecutableRef) :
    Decidable (machine.PosesAs h e f) :=
  inferInstanceAs (Decidable (_ ∧ _ ∧ _))

section

variable (reachable : machine.Reachable)
include reachable

/-- A temporary id tells how many were made up before it. -/
theorem Reachable.id_temporary (built : e < machine.engine.executables.length)
    (plain : (machine.engine.executable e).registered = false)
    (home : (machine.engine.executable e).host = h) :
    (machine.engine.executable e).id = (machine.engine.host h).temporaryId
      (machine.engine.annals.temporariesBefore h e + 1) :=
  reachable.assigned.numbered h e built ⟨plain, home⟩

/-- No two executables of a host have one temporary id, whatever has become of them. -/
theorem Reachable.eq_of_temporary (built : e < machine.engine.executables.length)
    (known : f < machine.engine.executables.length)
    (plain : (machine.engine.executable e).registered = false)
    (other : (machine.engine.executable f).registered = false)
    (home : (machine.engine.executable e).host = h) (there : (machine.engine.executable f).host = h)
    (same : (machine.engine.executable e).id = (machine.engine.executable f).id) : e = f := by
  rw [reachable.id_temporary built plain home, reachable.id_temporary known other there] at same
  -- The ids have one number, so as many came before the one as before the other.
  have numbers := Nat.succ.inj (Host.temporaryId_injective _ same)
  exact Nat.count_injective (p := machine.engine.annals.IsTemporary h) ⟨plain, home⟩
    ⟨other, there⟩ numbers

/-- No two executables in service are registered under one id. -/
theorem Reachable.eq_of_registered (left : machine.InService h e) (right : machine.InService h f)
    (named : (machine.engine.executable e).registered = true)
    (other : (machine.engine.executable f).registered = true)
    (same : (machine.engine.executable e).id = (machine.engine.executable f).id) : e = f := by
  have alive {e} (serves : machine.InService h e) :=
    reachable.sound.isAlive_iff_kept.mpr serves.kept
  -- The roster leads from the id to each of them.
  have first := reachable.resolve?_eq_some_iff.mpr
    ⟨alive left, named, left.home, same, left.there⟩
  have second := reachable.resolve?_eq_some_iff.mpr
    ⟨alive right, other, right.home, rfl, right.there⟩
  exact Option.some.inj (first.symm.trans second)

/-- Two executables in service share an id exactly if one of them is registered under the temporary
id of the other. -/
theorem Reachable.id_eq_iff (left : machine.InService h e) (right : machine.InService h f)
    (distinct : e ≠ f) :
    (machine.engine.executable e).id = (machine.engine.executable f).id ↔
      machine.PosesAs h e f ∨ machine.PosesAs h f e := by
  have built {e} (serves : machine.InService h e) :=
    reachable.sound.lt_of_isAlive (reachable.sound.isAlive_iff_kept.mpr serves.kept)
  constructor
  · intro same
    cases named : (machine.engine.executable e).registered with
    | true =>
      cases other : (machine.engine.executable f).registered with
      | true => exact absurd (reachable.eq_of_registered left right named other same) distinct
      | false =>
        rw [reachable.id_temporary (built right) other right.home] at same
        exact .inl ⟨named, other, same⟩
    | false =>
      cases other : (machine.engine.executable f).registered with
      | true =>
        rw [reachable.id_temporary (built left) named left.home] at same
        exact .inr ⟨other, named, same.symm⟩
      | false =>
        exact absurd (reachable.eq_of_temporary (built left) (built right) named other left.home
          right.home same) distinct
  · rintro (⟨-, other, poses⟩ | ⟨-, named, poses⟩)
    · rw [poses, reachable.id_temporary (built right) other right.home]
    · rw [poses, reachable.id_temporary (built left) named left.home]

end

/-- In every state of every run two executables of a host that are in service share an id exactly if
one of them is registered under the temporary id of the other. So ids tell executables apart as long
as none is registered that consists of the prefix and a positive number. -/
theorem ids_tell_apart_unless_posing (reachable : machine.Reachable) (h : HostRef) :
    (∀ e f, machine.InService h e → machine.InService h f → e ≠ f →
      ((machine.engine.executable e).id = (machine.engine.executable f).id ↔
        machine.PosesAs h e f ∨ machine.PosesAs h f e)) ∧
    ((∀ e, machine.InService h e → (machine.engine.executable e).registered = true →
        ∀ number, (machine.engine.executable e).id ≠
          (machine.engine.host h).temporaryId (number + 1)) →
      ∀ e f, machine.InService h e → machine.InService h f →
        (machine.engine.executable e).id = (machine.engine.executable f).id → e = f) := by
  refine ⟨fun e f left right distinct => reachable.id_eq_iff left right distinct,
    fun apart e f left right same => ?_⟩
  by_contra distinct
  rcases (reachable.id_eq_iff left right distinct).mp same with poses | poses
  · exact apart e left poses.1 _ poses.2.2
  · exact apart f right poses.1 _ poses.2.2

/-- The prefix ends with a digit, and the registered id is that of the second temporary one: it is
shared with this one, and not with the first. -/
theorem ids_tell_apart_unless_posing_second : ∃ machine : Machine, machine.Reachable ∧
    machine.InService 0 0 ∧ machine.InService 0 1 ∧ machine.InService 0 2 ∧
    machine.PosesAs 0 0 2 ∧
    (machine.engine.executable 0).id = (machine.engine.executable 2).id ∧
    (machine.engine.executable 0).id ≠ (machine.engine.executable 1).id ∧
    (machine.engine.executable 1).id ≠ (machine.engine.executable 2).id := by
  let machine := ({} : Machine).after [.openHost { temporaryPrefix := "x1" } .silent,
    .register 0 "x12" (.manual false), .build 0 .constant, .build 0 (.manual true)]
  have reachable : machine.Reachable := reaches_after _ _
  have first : machine.InService 0 0 := ⟨.held (by decide), by decide, by decide⟩
  have second : machine.InService 0 1 := ⟨.held (by decide), by decide, by decide⟩
  have third : machine.InService 0 2 := ⟨.held (by decide), by decide, by decide⟩
  have poses : machine.PosesAs 0 0 2 := by decide +kernel
  have apart : ¬ (machine.PosesAs 0 0 1 ∨ machine.PosesAs 0 1 0) := by decide +kernel
  have temporary : ¬ (machine.PosesAs 0 1 2 ∨ machine.PosesAs 0 2 1) := by decide +kernel
  obtain ⟨shared, _⟩ := ids_tell_apart_unless_posing reachable 0
  exact ⟨machine, reachable, first, second, third, poses,
    (shared 0 2 first third (by decide)).mpr (.inl poses),
    fun same => apart ((shared 0 1 first second (by decide)).mp same),
    fun same => temporary ((shared 1 2 second third (by decide)).mp same)⟩

/-- A registered executable and one with a temporary id share it, both alive and not destroyed. When
the second becomes ready, the id does not count as executing any more although the first still
is. -/
theorem temporary_id_already_registered : ∃ machine : Machine, machine.Reachable ∧
    machine.InService 0 0 ∧ machine.InService 0 1 ∧
    (machine.engine.executable 0).id = "__exe_1" ∧
    (machine.engine.executable 1).id = "__exe_1" ∧
    (machine.engine.executable 0).status = .processing ∧
    (machine.engine.host 0).tally.executing = [] := by
  let machine := ({} : Machine).after [.openHost {} .silent,
    .register 0 "__exe_1" (.manual false), .build 0 (.manual false),
    .call (.setStatus 0 .processing), .call (.setStatus 1 .ready)]
  have reachable : machine.Reachable := reaches_after _ _
  have first : machine.InService 0 0 := ⟨.held (by decide), by decide, by decide⟩
  have second : machine.InService 0 1 := ⟨.held (by decide), by decide, by decide⟩
  exact ⟨machine, reachable, first, second, by decide +kernel, by decide +kernel, by decide,
    by decide +kernel⟩

end Machine

end Readiness
