import Readiness.Proofs.Machine.Carried
import Readiness.Proofs.Machine.Enters
import Readiness.Proofs.Machine.Mortality

/-! The roster of a host: who is found under an id.

Entries outlive the executables they are for, and are taken off by id. The roster is exact all the
same: no two entries have one id, every entry is for an executable that carries the id, and every
living executable that carries an id has its entry.
-/

namespace Readiness

open List Function

variable {before : Annals} {id : String} {entries : List (String × ExecutableRef)}

/-- Where no two entries have one key, looking up a key finds its entry. -/
theorem lookup_eq_some_iff_mem (distinct : (entries.map Prod.fst).Nodup) {e : ExecutableRef} :
    entries.lookup id = some e ↔ (id, e) ∈ entries := by
  induction entries with
  | nil => simp
  | cons head rest ih =>
    obtain ⟨key, value⟩ := head
    obtain ⟨absent, apart⟩ := nodup_cons.mp distinct
    by_cases same : id = key
    · -- No later entry has the key of the first one.
      subst same
      have alone : (id, e) ∉ rest := fun later => absent (mem_map.mpr ⟨(id, e), later, rfl⟩)
      simp [alone, eq_comm]
    · have test : (id == key) = false := beq_eq_false_iff_ne.mpr same
      simp [lookup_cons, test, ih apart, same]

theorem eq_of_mem_of_mem (distinct : (entries.map Prod.fst).Nodup) {left right : ExecutableRef}
    (first : (id, left) ∈ entries) (second : (id, right) ∈ entries) : left = right := by
  have found := (lookup_eq_some_iff_mem distinct).mpr first
  rw [(lookup_eq_some_iff_mem distinct).mpr second] at found
  exact (Option.some.inj found).symm

/-- Texts in order are in strict order once no two of them are the same. -/
theorem sortOrdered_textLe_pairwise {texts : List String} (distinct : texts.Nodup) :
    (sortOrdered textLe texts).Pairwise (· < ·) := by
  have ordered : (sortOrdered textLe texts).Pairwise (textLe · · = true) := by
    refine sortOrdered_pairwise (fun a b c first second => ?_) (fun a b above => ?_) texts
    · simp only [textLe, Bool.not_eq_true', decide_eq_false_iff_not,
        String.not_lt] at first second ⊢
      exact String.le_trans first second
    · simp only [textLe, Bool.not_eq_false', Bool.not_eq_true', decide_eq_true_eq,
        decide_eq_false_iff_not, String.not_lt] at above ⊢
      exact (String.le_total a b).resolve_left fun below => absurd above (String.not_lt.mpr below)
  have apart : (sortOrdered textLe texts).Nodup :=
    (sortOrdered_perm textLe texts).nodup_iff.mpr distinct
  refine (ordered.and apart).imp fun both => ?_
  simp only [textLe, Bool.not_eq_true', decide_eq_false_iff_not] at both
  exact Std.lt_of_le_of_ne (String.not_lt.mp both.1) both.2

/-- The executable is registered with a host under an id, and is not destroyed. -/
def Executable.Carries (executable : Executable) (h : HostRef) (id : String) : Prop :=
  executable.registered = true ∧ executable.host = h ∧ executable.id = id ∧
    executable.destroyed = false

/-- Whether an executable carries an id can be checked. -/
instance (executable : Executable) (h : HostRef) (id : String) :
    Decidable (executable.Carries h id) :=
  inferInstanceAs (Decidable (_ ∧ _ ∧ _ ∧ _))

namespace Annals

variable {alive survives : ExecutableRef → Prop}

/-- The rosters are exact for those who are alive. -/
structure Enrolled (annals : Annals) (alive : ExecutableRef → Prop) : Prop where
  distinct : ∀ h, ((annals.office h).roster.map Prod.fst).Nodup
  carried : ∀ {h id e}, (id, e) ∈ (annals.office h).roster → (annals.file e).Carries h id
  listed : ∀ {h id e}, alive e → (annals.file e).Carries h id → (id, e) ∈ (annals.office h).roster

section

variable (enrolled : before.Enrolled alive)
include enrolled

theorem Enrolled.of_same {after : Annals}
    (rosters : ∀ h, (after.office h).roster = (before.office h).roster)
    (carries : ∀ h id e, (after.file e).Carries h id = (before.file e).Carries h id)
    (lived : ∀ e h id, survives e → (before.file e).Carries h id → alive e) :
    after.Enrolled survives where
  distinct := fun h => by
    rw [rosters]
    exact enrolled.distinct h
  carried := fun entry => by
    rw [carries]
    exact enrolled.carried (rosters _ ▸ entry)
  listed := fun survives bears => by
    have bore := carries _ _ _ ▸ bears
    rw [rosters]
    exact enrolled.listed (lived _ _ _ survives bore) bore

/-- Whoever is registered under a vacant id is put on the roster, in place of any dead one. -/
theorem Enrolled.register {h : HostRef} {work : Work}
    (fresh : ∀ h id, ¬ (before.file before.size).Carries h id)
    (vacant : ∀ e, (id, e) ∈ (before.office h).roster → ¬ alive e)
    (lived : ∀ e h id, survives e → (before.file e).Carries h id → alive e)
    (journal : List Occurrence) :
    Enrolled
      { before with
        size := before.size + 1
        file := Function.update before.file before.size { id, registered := true, host := h, work }
        office := Function.update before.office h ((before.office h).enrol id before.size)
        journal } survives where
  distinct := fun other => by
    by_cases here : other = h
    · subst here
      simp only [update_self, Host.enrol, map_cons, nodup_cons]
      refine ⟨?_, (filter_sublist.map _).nodup (enrolled.distinct other)⟩
      -- What is left of the old entries has other ids.
      rintro found
      obtain ⟨entry, left, same⟩ := mem_map.mp found
      simp [same] at left
    · simp only [update_of_ne here]
      exact enrolled.distinct other
  carried := fun {other key e} entry => by
    -- Nobody was on a roster before being built.
    have old (entry : (key, e) ∈ (before.office other).roster) :
        (Function.update before.file before.size
          { id, registered := true, host := h, work } e).Carries other key := by
      have bears := enrolled.carried entry
      rwa [update_of_ne]
      rintro rfl
      exact fresh _ _ bears
    by_cases here : other = h
    · subst here
      simp only [update_self, Host.enrol, mem_cons, Prod.mk.injEq] at entry
      rcases entry with ⟨rfl, rfl⟩ | left
      · simp [Executable.Carries]
      · exact old (mem_of_mem_filter left)
    · simp only [update_of_ne here] at entry
      exact old entry
  listed := fun {other key e} survives bears => by
    by_cases new : e = before.size
    · subst new
      simp only [update_self] at bears
      obtain ⟨-, rfl, rfl, -⟩ := bears
      simp [Host.enrol]
    · simp only [update_of_ne new] at bears
      have living := lived e other key survives bears
      have entry := enrolled.listed living bears
      by_cases here : other = h
      · subst here
        -- The id was vacant, so a living executable has another one.
        have apart : key ≠ id := by
          rintro rfl
          exact vacant e entry living
        simp [Host.enrol, entry, apart]
      · simpa only [update_of_ne here] using entry

theorem Enrolled.destroy {e : ExecutableRef} (living : alive e)
    (there : (before.file e).destroyed = false)
    (lived : ∀ e h id, survives e → (before.file e).Carries h id → alive e)
    (journal : List Occurrence) :
    Enrolled
      { before with
        file := Function.update before.file e { before.file e with destroyed := true }
        office := Function.update before.office (before.file e).host
          (if (before.file e).registered then
            (before.office (before.file e).host).strike (before.file e).id
          else before.office (before.file e).host)
        journal } survives where
  distinct := fun h => by
    by_cases here : h = (before.file e).host
    · subst here
      simp only [update_self]
      split
      · exact (filter_sublist.map _).nodup (enrolled.distinct _)
      · exact enrolled.distinct _
    · simp only [update_of_ne here]
      exact enrolled.distinct h
  carried := fun {h id other} entry => by
    -- Whatever is left on the roster was there before, and the entry of the destroyed one is not.
    have old : (id, other) ∈ (before.office h).roster ∧ other ≠ e := by
      by_cases here : h = (before.file e).host
      · subst here
        simp only [update_self] at entry
        split at entry
        · simp only [Host.strike, mem_filter, bne_iff_ne, ne_eq] at entry
          refine ⟨entry.1, ?_⟩
          rintro rfl
          exact entry.2 (enrolled.carried entry.1).2.2.1.symm
        · rename_i unregistered
          refine ⟨entry, ?_⟩
          rintro rfl
          exact unregistered (enrolled.carried entry).1
      · simp only [update_of_ne here] at entry
        refine ⟨entry, ?_⟩
        rintro rfl
        exact here (enrolled.carried entry).2.1.symm
    simp only [update_of_ne old.2]
    exact enrolled.carried old.1
  listed := fun {h id other} survives bears => by
    have apart : other ≠ e := by
      rintro rfl
      simp [Executable.Carries] at bears
    simp only [update_of_ne apart] at bears
    have entry := enrolled.listed (lived other h id survives bears) bears
    by_cases here : h = (before.file e).host
    · subst here
      simp only [update_self]
      split
      · rename_i registered
        -- Under the id that is struck there is only the destroyed one.
        have different : id ≠ (before.file e).id := by
          rintro rfl
          have own := enrolled.listed living ⟨registered, rfl, rfl, there⟩
          exact apart (eq_of_mem_of_mem (enrolled.distinct _) entry own)
        simp [Host.strike, entry, different]
      · exact entry
    · simpa only [update_of_ne here] using entry

end

end Annals

namespace Machine

variable {machine next final : Machine} {h : HostRef} {e : ExecutableRef}

theorem lt_of_carries (bears : (machine.engine.executable e).Carries h id) :
    e < machine.engine.executables.length := by
  by_contra beyond
  rw [Engine.executable_of_ge (Nat.le_of_not_lt beyond)] at bears
  exact Bool.noConfusion bears.1

/-- Everything that a step can enter in the annals keeps the rosters exact. -/
theorem Enters.enrolled {after : Annals} (enters : machine.Enters after)
    {survives : ExecutableRef → Prop}
    (lived : ∀ e, survives e →
      machine.isAlive e = true ∨ machine.engine.executables.length ≤ e)
    (enrolled : machine.engine.annals.Enrolled (machine.isAlive · = true)) :
    after.Enrolled survives := by
  -- Nobody is there before it is built, and whoever carries an id afterwards was alive before.
  have fresh (h : HostRef) (id : String) :
      ¬ (machine.engine.annals.file machine.engine.annals.size).Carries h id :=
    fun bears => absurd (lt_of_carries bears) (Nat.lt_irrefl _)
  have living (e : ExecutableRef) (h : HostRef) (id : String) (survives : survives e)
      (bears : (machine.engine.annals.file e).Carries h id) : machine.isAlive e = true :=
    (lived e survives).resolve_right (Nat.not_le.mpr (lt_of_carries bears))
  cases enters with
  | note noted =>
    obtain ⟨news, _, rfl⟩ := noted
    exact enrolled.of_same (fun _ => rfl) (fun _ _ _ => rfl) living
  | advance elapsed =>
    exact enrolled.of_same (fun _ => rfl) (fun _ _ _ => rfl) living
  | openHost settings =>
    -- A host that is not open has no roster, and the new one starts out without any either.
    have none : (machine.engine.annals.office machine.engine.annals.hosts).roster = [] :=
      congrArg Host.roster (Engine.office_of_ge (Nat.le_refl _))
    exact enrolled.of_same (view_update Host.roster none.symm) (fun _ _ _ => rfl) living
  | @temporary h work opened lawful =>
    -- The new executable carries no id.
    refine enrolled.of_same (view_update Host.roster rfl)
      (fun other id => view_update (Executable.Carries · other id) (propext ?_)) living
    exact ⟨fun bears => Bool.noConfusion bears.1, fun bears => absurd bears (fresh other id)⟩
  | @register h id work opened lawful vacant =>
    refine enrolled.register fresh (fun e entry alive => ?_) living _
    -- A living executable on the roster would be found under the id.
    have found := (lookup_eq_some_iff_mem (enrolled.distinct h)).mpr entry
    have listed : (machine.engine.host h).roster.lookup id = some e := found
    simp [resolve?, listed, alive] at vacant
  | @execute e refresh asked runs =>
    exact enrolled.of_same (fun _ => rfl)
      (fun h id => view_update (Executable.Carries · h id) rfl) living
  | @move e status asked moves =>
    exact enrolled.of_same (view_update Host.roster rfl)
      (fun h id => view_update (Executable.Carries · h id) rfl) living
  | @destroy e after asked there noted =>
    obtain ⟨news, _, rfl⟩ := noted
    exact enrolled.destroy (isAlive_of_perform asked (mem_singleton.mpr rfl)) there living _

theorem enrolled_empty :
    ({} : Machine).engine.annals.Enrolled (({} : Machine).isAlive · = true) where
  distinct := fun _ => nodup_nil
  carried := fun entry => absurd entry not_mem_nil
  listed := fun _ bears => Bool.noConfusion bears.1

theorem Reachable.enrolled (reachable : machine.Reachable) :
    machine.engine.annals.Enrolled (machine.isAlive · = true) := by
  induction reachable with
  | refl => exact enrolled_empty
  | step run step ih =>
    have reachable : Reachable _ := run
    exact (reachable.sound.enters_next step).enrolled
      (fun _ alive => reachable.isAlive_of_next step alive) ih

/-- Something refers to an executable. -/
inductive Kept (machine : Machine) : ExecutableRef → Prop where
  /-- The client has a handle. -/
  | held {e : ExecutableRef} (handles : 0 < (machine.engine.executable e).handles) : Kept machine e
  /-- It is the source of an event that waits with some host. -/
  | queued {h : HostRef} {batch : Batch}
    (waits : batch ∈ (machine.engine.host h).queue ++ (machine.engine.host h).deferred) :
    Kept machine batch.event.source
  /-- A call that has not returned is about it. -/
  | called {e : ExecutableRef} {frame : Frame} (stands : frame ∈ machine.stack)
    (about : e ∈ frame.executables) : Kept machine e
  /-- The engine has been asked to do something with it. -/
  | asked {e : ExecutableRef} {command : Command} (turn : machine.control = .perform command)
    (about : e ∈ command.executables) : Kept machine e
  /-- A composite that is kept depends on it. -/
  | needed {composite e : ExecutableRef} (kept : Kept machine composite)
    (listed : e ∈ (machine.engine.executable composite).work.dependencies) : Kept machine e

/-- Whoever is referred to from outside the store is kept. -/
theorem kept_of_mem_roots (root : e ∈ machine.roots) : machine.Kept e := by
  simp only [roots, mem_append, mem_filter, mem_range] at root
  rcases root with ((⟨_, held⟩ | source) | called) | control
  · exact .held (of_decide_eq_true held)
  · obtain ⟨batch, waits, rfl⟩ := mem_map.mp source
    obtain ⟨h, member⟩ := mem_waitingBatches waits
    exact .queued member
  · obtain ⟨frame, stands, about⟩ := mem_flatMap.mp called
    exact .called stands about
  · simp only [controlExecutables] at control
    split at control
    · exact .asked ‹_› control
    · cases control

/-- The living executables are those that something refers to. -/
theorem Sound.isAlive_iff_kept (sound : machine.Sound) :
    machine.isAlive e = true ↔ machine.Kept e := by
  constructor
  · -- What is found from the roots is kept, since being kept passes on to dependencies.
    intro alive
    simp only [isAlive, living, contains_eq_mem, decide_eq_true_eq] at alive
    exact mem_reach_of_closed (fun _ kept _ listed => kept.needed listed)
      (fun _ root => kept_of_mem_roots root) alive
  · intro kept
    induction kept with
    | @held e handles =>
      have built : e < machine.engine.executables.length := by
        by_contra beyond
        rw [Engine.executable_of_ge (Nat.le_of_not_lt beyond)] at handles
        exact Nat.lt_irrefl _ handles
      refine isAlive_of_mem_roots ?_
      simp only [roots, mem_append, mem_filter, mem_range]
      exact .inl (.inl (.inl ⟨built, decide_eq_true handles⟩))
    | queued waits =>
      refine isAlive_of_mem_roots ?_
      simp only [roots, mem_append]
      exact .inl (.inl (.inr (mem_map_of_mem (mem_waitingBatches_of_mem waits))))
    | called stands about =>
      refine isAlive_of_mem_roots ?_
      simp only [roots, mem_append]
      exact .inl (.inr (mem_flatMap.mpr ⟨_, stands, about⟩))
    | asked turn about => exact isAlive_of_perform turn about
    | needed _ listed alive =>
      exact isAlive_of_mem_dependencies sound.store (sound.lt_of_isAlive alive) alive listed

section

variable (reachable : machine.Reachable)
include reachable

/-- Whoever is found under an id is alive and carries it, and the other way round. -/
theorem Reachable.resolve?_eq_some_iff :
    machine.resolve? h id = some e ↔
      machine.isAlive e = true ∧ (machine.engine.executable e).Carries h id := by
  have enrolled := reachable.enrolled
  have found : (machine.engine.host h).roster.lookup id = some e ↔
      (id, e) ∈ (machine.engine.host h).roster := lookup_eq_some_iff_mem (enrolled.distinct h)
  simp only [resolve?, Option.filter_eq_some_iff, found]
  exact ⟨fun both => ⟨both.2, enrolled.carried both.1⟩,
    fun both => ⟨enrolled.listed both.1 both.2, both.1⟩⟩

theorem Reachable.rosterIds_pairwise (h : HostRef) : (machine.rosterIds h).Pairwise (· < ·) :=
  sortOrdered_textLe_pairwise
    ((filter_sublist.map Prod.fst).nodup (reachable.enrolled.distinct h))

/-- The ids of a roster are those under which somebody is found. -/
theorem Reachable.mem_rosterIds_iff :
    id ∈ machine.rosterIds h ↔ ∃ e, machine.resolve? h id = some e := by
  have enrolled := reachable.enrolled
  simp only [rosterIds, (sortOrdered_perm textLe _).mem_iff, mem_map, mem_filter,
    reachable.resolve?_eq_some_iff]
  constructor
  · rintro ⟨⟨id, e⟩, ⟨entry, alive⟩, rfl⟩
    exact ⟨e, alive, enrolled.carried entry⟩
  · rintro ⟨e, alive, bears⟩
    exact ⟨(id, e), ⟨enrolled.listed alive bears, alive⟩, rfl⟩

/-- Where an executable is registered, and under what id, is settled for good. -/
theorem Reachable.registration_reaches (built : e < machine.engine.executables.length)
    (run : machine.Reaches final) :
    (final.engine.executable e).registration = (machine.engine.executable e).registration := by
  induction run with
  | refl => rfl
  | step early step ih =>
    have reached : Reachable _ := Reaches.trans reachable early
    have older := Nat.lt_of_lt_of_le built (reachable.sound.later_reaches early).grown.executables
    exact ((reached.sound.enters_next step).registration_eq older).trans ih

/-- Whoever is found under an id is found there for as long as it is alive and not destroyed. -/
theorem Reachable.resolve?_reaches (run : machine.Reaches final)
    (found : machine.resolve? h id = some e) (alive : final.isAlive e = true)
    (there : (final.engine.executable e).destroyed = false) : final.resolve? h id = some e := by
  have bears := (reachable.resolve?_eq_some_iff.mp found).2
  refine (Reachable.resolve?_eq_some_iff (Reaches.trans reachable run)).mpr ⟨alive, ?_⟩
  have settled := reachable.registration_reaches (lt_of_carries bears) run
  simp only [Executable.registration, Prod.mk.injEq] at settled
  exact ⟨settled.1.trans bears.1, settled.2.1.trans bears.2.1, settled.2.2.trans bears.2.2.1, there⟩

end

/-- In every state of every run an id leads to the executable that is alive, registered under it
with the host, and not destroyed. There is at most one, it is found for as long as it is so, and the
ids that lead to somebody are listed in order, each once. -/
theorem registry_exact (reachable : machine.Reachable) (h : HostRef) :
    (∀ id e, machine.resolve? h id = some e ↔
      machine.Kept e ∧ (machine.engine.executable e).Carries h id) ∧
    (∀ id left right, machine.Kept left → (machine.engine.executable left).Carries h id →
      machine.Kept right → (machine.engine.executable right).Carries h id → left = right) ∧
    (∀ final, machine.Reaches final → ∀ id e, machine.resolve? h id = some e → final.Kept e →
      (final.engine.executable e).destroyed = false → final.resolve? h id = some e) ∧
    (machine.rosterIds h).Pairwise (· < ·) ∧
    ∀ id, id ∈ machine.rosterIds h ↔ ∃ e, machine.resolve? h id = some e := by
  have resolves (id : String) (e : ExecutableRef) : machine.resolve? h id = some e ↔
      machine.Kept e ∧ (machine.engine.executable e).Carries h id := by
    rw [reachable.resolve?_eq_some_iff, reachable.sound.isAlive_iff_kept]
  refine ⟨resolves, fun id left right kept bears other carries => ?_,
    fun final run id e found kept there => ?_, reachable.rosterIds_pairwise h,
    fun _ => reachable.mem_rosterIds_iff⟩
  · -- The id leads to both of them.
    have first := (resolves id left).mpr ⟨kept, bears⟩
    have second := (resolves id right).mpr ⟨other, carries⟩
    exact Option.some.inj (first.symm.trans second)
  · have later : final.Reachable := Reaches.trans reachable run
    exact reachable.resolve?_reaches run found (later.sound.isAlive_iff_kept.mpr kept) there

/-- One that was destroyed is destroyed once more, which leaves the newer one under its id alone; a
third one dies without being destroyed, and its id goes to a fourth. -/
theorem registry_exact_again : ∃ machine final : Machine,
    machine.Reachable ∧ machine.control = .perform (.destroy 0) ∧
    (machine.engine.executable 0).destroyed = true ∧ (machine.engine.executable 0).id = "b" ∧
    machine.resolve? 0 "b" = some 1 ∧ machine.Reaches final ∧ final.resolve? 0 "b" = some 1 ∧
    (final.engine.executable 2).id = "a" ∧ (final.engine.executable 2).destroyed = false ∧
    ¬ final.Kept 2 ∧ final.resolve? 0 "a" = some 3 ∧ final.rosterIds 0 = ["a", "b"] := by
  let machine := (({} : Machine).after [.openHost {} .silent, .register 0 "b" (.manual false),
    .call (.destroy 0), .register 0 "b" (.manual true)]).call (.destroy 0)
  let final := (machine.halt (·.clientTurn)).after
    [.register 0 "a" (.manual true), .release 2, .register 0 "a" .constant]
  have reachable : machine.Reachable :=
    .step (reaches_after _ _) (.call (by decide) (by decide))
  have run : machine.Reaches final := (reaches_halt _ _).trans (reaches_after _ _)
  have later : final.Reachable := Reaches.trans reachable run
  have found : machine.resolve? 0 "b" = some 1 := by decide
  have dead : ¬ final.Kept 2 := later.sound.isAlive_iff_kept.not.mp (by decide)
  obtain ⟨_, _, lasting, _, _⟩ := registry_exact reachable 0
  obtain ⟨resolves, _, _, _, _⟩ := registry_exact later 0
  exact ⟨machine, final, reachable, rfl, by decide, by decide, found, run,
    lasting final run "b" 1 found (.held (by decide)) (by decide), by decide, by decide, dead,
    (resolves "a" 3).mpr ⟨.held (by decide), by decide⟩, by decide⟩

end Machine

end Readiness
