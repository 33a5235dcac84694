import Readiness.Proofs.Delivery.Mail
import Readiness.Proofs.Delivery.Order

/-! Listeners for one call: never called twice for one entry, and called once if what they wait for
comes while they are registered.

The entry is removed when its transition is made, and its listener is called later, when the batch
of the transition is delivered. In between the news is somewhere on its way, and it cannot be sent
again.
-/

namespace Readiness

open List

namespace Mail

/-- Everything that the listener has been told or that is on its way to it. -/
def all (mail : Mail) : List Event :=
  mail.told ++ (mail.current ++ (mail.queued ++ (mail.deferred ++ mail.announced)))

variable {given : Postage} {e : ExecutableRef} {n : Nat} {mail next : Mail}

theorem Step.kept (step : Step given e n mail next) : mail.entries.Kept next.entries := by
  cases step with
  | subscribe more => exact .grown more
  | unsubscribe keep => exact .restrict ..
  | clear => exact .clear _
  | move => exact .settle ..
  | _ => exact .refl _

/-- Only a transition adds to the news, and nothing of it gets lost but for the reasons given. -/
theorem Step.all_cases (step : Step given e n mail next) :
    next.moved = mail.moved ∧ next.all.Subperm mail.all ∧
        (¬ given.lost → next.all.Perm mail.all) ∨
      ∃ transition : Transition, transition.new ≠ .null ∧
        next.entries = mail.entries.settle transition.new ∧
        next.moved = mail.moved ++ [transition.event e] ∧
        next.all.Perm
          (transition.newsTo e n (mail.entries.due transition.new) ++ mail.all) := by
  have same (equal : next.all.Perm mail.all) :
      next.all.Subperm mail.all ∧ (¬ given.lost → next.all.Perm mail.all) :=
    ⟨equal.subperm, fun _ => equal⟩
  cases step with
  | keep | subscribe | unsubscribe | clear => exact .inl ⟨rfl, same (.refl _)⟩
  | @move transition real alone =>
    refine .inr ⟨transition, real, rfl, rfl, perm_iff_count.mpr fun event => ?_⟩
    simp only [all, count_append]
    omega
  | post first | putOff first | pump first | invoke first =>
    refine .inl ⟨rfl, same (perm_iff_count.mpr fun event => ?_)⟩
    simp only [all, first, count_append, count_cons, count_nil]
    omega
  | take first idle =>
    refine .inl ⟨rfl, same (perm_iff_count.mpr fun event => ?_)⟩
    simp only [all, first, idle, count_append, count_nil]
    omega
  | hush first lost | finish first lost =>
    refine .inl ⟨rfl, subperm_ext_iff.mpr fun event _ => ?_, fun kept => absurd lost kept⟩
    simp only [all, first, count_append]
    omega

/-- An entry has gone, and its number is not used again. -/
structure Spent (n : Nat) (mail : Mail) : Prop where
  used : n < mail.entries.nextSequence
  absent : ∀ filed ∈ mail.entries.listing, filed.2.sequence ≠ n

/-- Nothing is sent before its time. -/
structure Fresh (n : Nat) (mail : Mail) : Prop where
  unused : mail.entries.nextSequence ≤ n → mail.all = []
  waiting : ∀ filed ∈ mail.entries.listing, filed.2.sequence = n → filed.2.once = true →
    mail.all = []

theorem Spent.step (spent : Spent n mail) (step : Step given e n mail next) : Spent n next where
  used := Nat.lt_of_lt_of_le spent.used step.kept.spent
  absent := by
    intro filed member same
    rcases step.kept.listed filed member with old | new
    · exact spent.absent filed old same
    · exact absurd spent.used (Nat.not_lt.mpr (same ▸ new))

/-- No news is sent to an entry that has gone. -/
theorem Spent.all_step (spent : Spent n mail) (numbered : mail.entries.Numbered)
    (step : Step given e n mail next) :
    next.all.Subperm mail.all ∧ (¬ given.lost → next.all.Perm mail.all) := by
  rcases step.all_cases with ⟨_, same⟩ | ⟨transition, real, _, _, news⟩
  · exact same
  · have nothing : transition.newsTo e n (mail.entries.due transition.new) = [] := by
      rw [Transition.newsTo, numbered.countP_due_eq_zero fun filed listed same =>
        absurd same (spent.absent filed listed)]
      rfl
    rw [nothing, nil_append] at news
    exact ⟨news.subperm, fun _ => news⟩

/-- Every step sends news only to entries that are due, and removes those for one call. -/
theorem Fresh.step (fresh : Fresh n mail) (numbered : mail.entries.Numbered)
    (step : Step given e n mail next) : Fresh n next := by
  have silent (before : mail.all = [])
      (absent : ∀ status, status ≠ .null → next.entries = mail.entries.settle status →
        (mail.entries.due status).countP (·.sequence == n) = 0) : next.all = [] := by
    rcases step.all_cases with ⟨_, fewer, _⟩ | ⟨transition, real, settled, _, news⟩
    · rw [before] at fewer
      exact subperm_nil.mp fewer
    · rw [before, Transition.newsTo, absent transition.new real settled] at news
      exact news.eq_nil
  refine ⟨fun beyond => ?_, fun filed member same once => ?_⟩
  · have unused := Nat.le_trans step.kept.spent beyond
    refine silent (fresh.unused unused) fun status real _ =>
      numbered.countP_due_eq_zero fun filed listed same => ?_
    exact absurd (numbered.below filed listed) (Nat.not_lt.mpr (same ▸ unused))
  · have before : mail.all = [] := by
      rcases step.kept.listed filed member with old | new
      · exact fresh.waiting filed old same once
      · exact fresh.unused (same ▸ new)
    refine silent before fun status real settled =>
      numbered.countP_due_eq_zero fun other listed number due => ?_
    -- The entry would be due itself, but then it would have gone.
    rw [settled] at member
    have old : filed ∈ mail.entries.listing := by
      rw [Subscriptions.settle, Subscriptions.listing_restrict] at member
      exact mem_of_mem_filter member
    rw [numbered.eq_of_sequence listed old (number.trans same.symm)] at due
    exact numbered.not_mem_settle once due member

/-- An entry for one call is registered and has been told nothing, or it has gone and no more than
one piece of news was sent to it. -/
inductive AtMostOnce (filed : Status × Entry) (mail : Mail) : Prop where
  | waits (listed : filed ∈ mail.entries.listing)
  | gone (spent : Spent filed.2.sequence mail) (once : mail.all.length ≤ 1)

/-- The entry stays registered until its news is sent. -/
theorem AtMostOnce.step {filed : Status × Entry} (sent : AtMostOnce filed mail)
    (once : filed.2.once = true) (fresh : Fresh filed.2.sequence mail)
    (numbered : mail.entries.Numbered) (step : Step given e filed.2.sequence mail next) :
    AtMostOnce filed next := by
  cases sent with
  | gone spent bound =>
    exact .gone (spent.step step)
      (Nat.le_trans (spent.all_step numbered step).1.length_le bound)
  | waits listed =>
    by_cases still : filed ∈ next.entries.listing
    · exact .waits still
    · refine .gone ⟨Nat.lt_of_lt_of_le (numbered.below filed listed) step.kept.spent,
        fun other member same => ?_⟩ ?_
      · rcases step.kept.listed other member with old | new
        · exact still (numbered.eq_of_sequence old listed same ▸ member)
        · exact absurd (numbered.below filed listed) (Nat.not_lt.mpr (same ▸ new))
      · have before := fresh.waiting filed listed rfl once
        rcases step.all_cases with ⟨_, fewer, _⟩ | ⟨transition, real, _, _, news⟩
        · rw [before] at fewer
          exact Nat.le_trans fewer.length_le (Nat.zero_le 1)
        · rw [news.length_eq, before, append_nil, Transition.newsTo, length_replicate]
          by_cases due : filed.2 ∈ mail.entries.due transition.new
          · exact Nat.le_of_eq (numbered.countP_due_eq_one due)
          · rw [numbered.countP_due_eq_zero fun other member same =>
              (numbered.eq_of_sequence member listed same) ▸ due]
            exact Nat.zero_le 1

end Mail

namespace Machine

variable {machine final : Machine} {e : ExecutableRef} {store : Engine} {filed : Status × Entry}

/-- The mail of an entry, as far as a later store knows its host. -/
def mail (machine : Machine) (store : Engine) (e : ExecutableRef) (n : Nat) : Mail :=
  machine.traffic.mail (store.executable e).host e n

section

variable (reachable : machine.Reachable)
include reachable

theorem Reachable.numbered (e : ExecutableRef) :
    (machine.engine.executable e).subscriptions.Numbered :=
  reachable.filed.numbered e

/-- Every step of a run takes the mail on its way. -/
theorem Reachable.mail_next {next : Machine} (grown : machine.engine.Extends store)
    (rule : (machine.surroundings store).Step machine.traffic next.traffic) (n : Nat) :
    Mail.Step (Traffic.postage (machine.surroundings store) machine.traffic
      (store.executable e).host e) e n (machine.mail store e n) (next.mail store e n) :=
  Traffic.mail_step (reachable.layered grown) rfl rule

/-- In every state of every run nothing has been sent before its time. -/
theorem Reachable.fresh (grown : machine.engine.Extends store) (e : ExecutableRef) (n : Nat) :
    (machine.mail store e n).Fresh n := by
  refine reachable.reachesWhile.rules_induction sound_empty grown
    (motive := fun state => (state.mail store e n).Fresh n) ⟨fun _ => rfl, ?_⟩
    fun run sound step _ later rule fresh => ?_
  · intro _ listed
    cases listed
  · have before : Reachable _ := run.reaches
    exact fresh.step (before.numbered e)
      (before.mail_next ((sound.later_next step).grown.trans later) rule n)

/-- The listener of an entry for one call is never called twice. -/
theorem Reachable.atMostOnce (listed : filed ∈ (machine.engine.executable e).subscriptions.listing)
    (once : filed.2.once = true) (run : machine.Reaches final) :
    (final.mail final.engine e filed.2.sequence).AtMostOnce filed := by
  refine run.reachesWhile.rules_induction reachable.sound (.refl _)
    (motive := fun state => (state.mail final.engine e filed.2.sequence).AtMostOnce filed)
    (.waits listed) fun early sound step _ later rule sent => ?_
  have before : Reachable _ := Reaches.trans reachable early.reaches
  have grown := (sound.later_next step).grown.trans later
  exact sent.step once (before.fresh grown e _) (before.numbered e)
    (before.mail_next grown rule _)

end

theorem toldTo_mail (machine : Machine) (store : Engine) (e : ExecutableRef) (n : Nat) :
    (machine.mail store e n).told = toldTo e n machine.engine.journal.toList := by
  simp only [mail, Traffic.mail, toldTo, callsIn_traffic]

/-- An entry for one call is never told two things. -/
theorem Reachable.toldTo_le_one (reachable : machine.Reachable)
    (listed : filed ∈ (machine.engine.executable e).subscriptions.listing)
    (once : filed.2.once = true) (run : machine.Reaches final) :
    (toldTo e filed.2.sequence final.engine.journal.toList).length ≤ 1 := by
  have reached : final.Reachable := Reaches.trans reachable run
  have told : (final.mail final.engine e filed.2.sequence).told.Sublist
      (final.mail final.engine e filed.2.sequence).all := sublist_append_left ..
  rw [← toldTo_mail final final.engine]
  refine Nat.le_trans told.length_le ?_
  cases reachable.atMostOnce listed once run with
  | waits still =>
    -- Whoever still waits has been told nothing.
    rw [(reached.fresh (.refl _) e filed.2.sequence).waiting _ still rfl once]
    exact Nat.zero_le 1
  | gone _ bound => exact bound

/-- Where nobody is being told of an executable, nothing of its news is on the stack. -/
theorem mail_of_idle (idle : ∀ frame ∈ machine.stack, frame.source? ≠ some e) (store : Engine)
    (n : Nat) :
    (machine.mail store e n).current = [] ∧ (machine.mail store e n).announced = [] := by
  have stack {look : Frame → List Event}
      (silent : ∀ frame, frame.source? ≠ some e → look frame = []) :
      machine.traffic.calls.flatMap look = [] :=
    flatMap_eq_nil_iff.mpr fun frame member =>
      silent frame (idle frame (mem_of_mem_filter member))
  constructor
  · refine stack fun frame other => ?_
    cases frame with
    | deliver batch => exact Batch.newsTo_of_ne fun same => other (congrArg some same)
    | _ => rfl
  · refine stack fun frame other => ?_
    cases frame with
    | announce source transition entries => exact if_neg fun same => other (congrArg some same)
    | _ => rfl

theorem queued_of_empty (queue : (machine.engine.host (store.executable e).host).queue = [])
    (n : Nat) : (machine.mail store e n).queued = [] := by
  have empty : (machine.traffic.depot (store.executable e).host).queue = [] := queue
  simp only [mail, Traffic.mail, empty, flatMap_nil]

/-- When the host is drained, nothing is on its way any more. -/
theorem all_of_drained (drained : machine.Drained (machine.engine.executable e).host) (n : Nat) :
    (machine.mail machine.engine e n).all = toldTo e n machine.engine.journal.toList := by
  obtain ⟨current, announced⟩ := mail_of_idle (fun frame member about =>
    drained.stack frame member e about rfl) machine.engine n
  have deferred : (machine.mail machine.engine e n).deferred = [] := by
    have empty : (machine.traffic.depot (machine.engine.executable e).host).deferred = [] :=
      drained.deferred
    simp only [mail, Traffic.mail, empty, flatMap_nil]
  rw [Mail.all, toldTo_mail, current, queued_of_empty drained.queue, deferred, announced]
  exact append_nil _

/-- While no observer panics and the executable is there, none of its mail gets lost. -/
theorem TellingKept.not_lost (kept : machine.TellingKept) (there :
    (machine.engine.executable e).destroyed = false) (store : Engine) (h : HostRef) :
    ¬ (Traffic.postage (machine.surroundings store) machine.traffic h e).lost := by
  rintro (gone | ⟨frame, ⟨payload, rest, unwinding, stands⟩, _, telling⟩)
  · exact Bool.noConfusion (there.symm.trans gone)
  · rw [kept payload frame rest unwinding stands] at telling
    cases telling

/-- A transition on which an entry for one call is due sends it one piece of news. -/
theorem Reachable.all_setStatus (reachable : machine.Reachable) {status : Status}
    (turn : machine.control = .perform (.setStatus e status))
    (moves : (machine.engine.executable e).moves status = true)
    (listed : filed ∈ (machine.engine.executable e).subscriptions.listing)
    (once : filed.2.once = true) (due : filed.1 = .null ∨ filed.1 = status)
    (grown : machine.engine.Extends store) :
    (machine.step.mail store e filed.2.sequence).Spent filed.2.sequence ∧
      (machine.step.mail store e filed.2.sequence).all =
        [⟨e, status, (machine.engine.executable e).status⟩] := by
  have numbered := reachable.numbered e
  have sound := reachable.sound
  have built : e < machine.engine.executables.length := by
    have fits := sound.control
    rw [turn] at fits
    exact fits.1.executables e (by simp [Command.executables])
  obtain ⟨told, telling, moved⟩ := machine.traffic_setStatus built moves
  have shown : machine.step.mail store e filed.2.sequence =
      (machine.traffic.move told e ⟨(machine.engine.executable e).status, status⟩).mail
        (store.executable e).host e filed.2.sequence := by
    rw [mail, ← moved, step, turn]
  have called : filed.2 ∈ (machine.engine.executable e).subscriptions.due status :=
    (numbered.mem_due_iff listed).mpr due
  have before : (machine.mail store e filed.2.sequence).all = [] :=
    (reachable.fresh grown e filed.2.sequence).waiting filed listed rfl once
  rw [shown, Traffic.mail_moved telling]
  refine ⟨⟨numbered.below filed listed, fun other member same => ?_⟩, ?_⟩
  · -- The entry itself is gone, and no other has its number.
    have old := (Subscriptions.Kept.settle _ _).listed other member
    have equal : other = filed :=
      numbered.eq_of_sequence (old.resolve_right fun new =>
        absurd (numbered.below filed listed) (Nat.not_lt.mpr (same ▸ new))) listed same
    rw [equal] at member
    exact numbered.not_mem_settle once called member
  · simp only [Mail.all, append_eq_nil_iff, mail] at before
    obtain ⟨told, current, queued, deferred, announced⟩ := before
    simp only [Mail.all, told, current, queued, deferred, announced, nil_append,
      append_nil, Transition.newsTo]
    rw [show machine.traffic.subscriptions e = (machine.engine.executable e).subscriptions from rfl,
      numbered.countP_due_eq_one called]
    rfl

/-- Every entry for one call is called at most once, and exactly once if a transition on which it is
due is made while it is registered, its executable is not destroyed, no observer panics and the host
is drained in the end. -/
theorem one_shot_called_once (reachable : machine.Reachable) {key : Status} {entry : Entry}
    (listed : (key, entry) ∈ (machine.engine.executable e).subscriptions.listing)
    (once : entry.once = true) :
    (∀ final, machine.Reaches final →
      (toldTo e entry.sequence final.engine.journal.toList).length ≤ 1) ∧
    ∀ status, machine.control = .perform (.setStatus e status) →
      (machine.engine.executable e).moves status = true → key = .null ∨ key = status →
      ∀ final, machine.step.ReachesWhile (fun state =>
          state.ObserverSteady ∧ (state.engine.executable e).destroyed = false) final →
        final.Drained (final.engine.executable e).host →
        toldTo e entry.sequence final.engine.journal.toList =
          [⟨e, status, (machine.engine.executable e).status⟩] := by
  refine ⟨fun final run => reachable.toldTo_le_one listed once run,
    fun status turn moves due final run drained => ?_⟩
  have begun : Next machine machine.step := .engine (by rw [clientTurn, turn])
  have later := reachable.sound.later_next begun
  have grown := later.grown.trans (later.sound.later_reaches run.reaches).grown
  obtain ⟨spent, sent⟩ := reachable.all_setStatus turn moves listed once due grown
  have steady : machine.ObserverSteady := fun payload frame rest unwinding => by
    rw [turn] at unwinding
    cases unwinding
  have kept := reachable.sound.tellingKept_step steady
  -- The news stays on its way until the host is drained.
  have arrived : (final.mail final.engine e entry.sequence).Spent entry.sequence ∧
      (final.mail final.engine e entry.sequence).all.Perm
        [⟨e, status, (machine.engine.executable e).status⟩] := by
    refine run.rules_induction later.sound (.refl _) (motive := fun state =>
      (state.mail final.engine e entry.sequence).Spent entry.sequence ∧
        (state.mail final.engine e entry.sequence).all.Perm
          [⟨e, status, (machine.engine.executable e).status⟩])
      ⟨spent, .of_eq sent⟩ ?_
    rintro before after early sound step _ grown rule ⟨spent, sent⟩
    have reached : before.Reachable := .trans (.step reachable begun) early.reaches
    have next := reached.mail_next (e := e) ((sound.later_next step).grown.trans grown) rule
      entry.sequence
    have safe := early.tellingKept later.sound (fun _ holds => holds.1) kept
    exact ⟨spent.step next, ((spent.all_step (reached.numbered e) next).2
      (safe.not_lost early.holds.2 _ _)).trans sent⟩
  rw [all_of_drained drained] at arrived
  exact perm_singleton.mp arrived.2

/-- A listener that is called first moves the executable again before the listener for one call, to
whom the first transition is due, has been called. -/
theorem one_shot_called_once_nested : ∃ machine final : Machine, machine.Reachable ∧
    (.null, ⟨.client 1, true, 0, none⟩) ∈ (machine.engine.executable 0).subscriptions.listing ∧
    machine.control = .perform (.setStatus 0 .processing) ∧
    machine.step.ReachesWhile (fun state =>
      state.ObserverSteady ∧ (state.engine.executable 0).destroyed = false) final ∧
    final.Drained 0 ∧
    callsIn final.engine.journal.toList =
      [⟨0, ⟨0, .processing, .null⟩, ⟨.client 2, some 1⟩⟩,
        ⟨0, ⟨0, .processing, .null⟩, ⟨.client 1, some 0⟩⟩,
        ⟨1, ⟨0, .initialized, .processing⟩, ⟨.client 2, some 1⟩⟩] ∧
    toldTo 0 0 final.engine.journal.toList = [⟨0, .processing, .null⟩] := by
  let safe (state : Machine) : Bool :=
    decide (state.ObserverSteady ∧ (state.engine.executable 0).destroyed = false)
  let start := ({} : Machine).after [.openHost {} .silent, .build 0 (.manual false),
    .subscribe 0 1 none true, .subscribe 0 2 none false]
  let machine := start.call (.setStatus 0 .processing)
  let called := machine.step.halt clientTurn safe
  let final := called.after [.accept, .call (.setStatus 0 .initialized), .finish .done, .accept,
    .finish .done, .accept, .finish .done] safe
  have reachable : machine.Reachable := .step (reaches_after _ _) (.call (by decide) (by decide))
  have first : machine.step.ReachesWhile (fun state => safe state = true) called :=
    reachesWhile_halt (by decide) (by decide)
  have second : called.ReachesWhile (fun state => safe state = true) final :=
    reachesWhile_after (by decide) (by decide)
  have run := (first.trans second).mono fun _ holds => of_decide_eq_true holds
  have listed : (.null, ⟨.client 1, true, 0, none⟩) ∈
      (machine.engine.executable 0).subscriptions.listing := by decide
  have settled : final.stack = [] := by decide
  have drained : final.Drained 0 := ⟨by decide, by decide, by simp [settled]⟩
  have home : (final.engine.executable 0).host = 0 := by decide
  have told := (one_shot_called_once reachable listed rfl).2 .processing rfl (by decide) (.inl rfl)
    final run (by rw [home]; exact drained)
  have before : (machine.engine.executable 0).status = .null := by decide
  rw [before] at told
  exact ⟨machine, final, reachable, listed, rfl, run, drained, by decide, told⟩

end Machine

end Readiness
