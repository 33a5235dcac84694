import Readiness.Proofs.Delivery.Filed
import Readiness.Proofs.Machine.Carried

/-! Every batch is delivered in one piece and in order, and the batches of a host one after another.
-/

namespace Readiness

open List

variable {serial : Nat} {store : Engine} {traffic : Traffic} {before after : List Occurrence}

/-- The calls that a batch asks for, in order. -/
def Batch.calls (batch : Batch) : List Call :=
  batch.deliveries.map (Call.mk batch.serial batch.event)

/-- What has become of a batch that was waiting. -/
inductive Fate (lost : Prop) (h : HostRef) (batch : Batch) (traffic : Traffic) : Prop where
  | waiting (waits : batch ∈ (traffic.depot h).queue ++ (traffic.depot h).deferred)
  | underway (rest : List Delivery)
    (current : .deliver { batch with deliveries := rest } ∈ traffic.calls)
    (made : callsOf batch.serial traffic.journal ++
      Batch.calls { batch with deliveries := rest } = batch.calls)
  /-- It is done with: all its calls have been made, or its source was destroyed before that, or the
  rest got lost. -/
  | finished (opened : batch.serial ∈ (traffic.account h).opened)
    (gone : ∀ other, .deliver other ∈ traffic.calls → other.serial ≠ batch.serial)
    (made : callsOf batch.serial traffic.journal <+: batch.calls)
    (why : callsOf batch.serial traffic.journal = batch.calls ∨
      traffic.destroyed batch.event.source = true ∨ lost)

/-- Two batches of one number that are being delivered are the same. -/
theorem InTurn.eq_of_serial (inTurn : InTurn store traffic) (balanced : traffic.ledger.Balanced)
    (layered : Layered store traffic.depot traffic.calls) {left right : Batch}
    (first : .deliver left ∈ traffic.calls) (second : .deliver right ∈ traffic.calls)
    (same : left.serial = right.serial) : left = right := by
  generalize home : (store.executable left.event.source).host = h
  generalize away : (store.executable right.event.source).host = other
  have here : left ∈ traffic.calls.filterMap (Frame.batch? store h) :=
    mem_filterMap.mpr ⟨_, first, by simp [Frame.batch?, home]⟩
  have there : right ∈ traffic.calls.filterMap (Frame.batch? store other) :=
    mem_filterMap.mpr ⟨_, second, by simp [Frame.batch?, away]⟩
  have opened := mem_of_getLast? (inTurn.current h left here)
  have known := mem_of_getLast? (inTurn.current other right there)
  rw [← same] at known
  have shared : other = h := balanced.alone other h left.serial
    (Account.Balanced.mentions_of_opened (balanced.account other) known)
    (Account.Balanced.mentions_of_opened (balanced.account h) opened)
  subst shared
  refine layered.stacked.batch_unique ?_ here there
  rw [layered.loops]
  exact Bool.toNat_le _

theorem callsOf_of_ne {call : Call} (made : callsIn after = callsIn before ++ [call])
    (other : call.batch ≠ serial) : callsOf serial after = callsOf serial before := by
  simp [callsOf, made, other]

theorem callsOf_congr (same : callsIn after = callsIn before) :
    callsOf serial after = callsOf serial before := by
  rw [callsOf, callsOf, same]

namespace Fate

variable {lost : Prop} {h : HostRef} {batch : Batch} {given : Surroundings} {next : Traffic}

theorem mono {more : Prop} (fate : Fate lost h batch traffic) (weaken : lost → more) :
    Fate more h batch traffic := by
  cases fate with
  | waiting waits => exact .waiting waits
  | underway rest current made => exact .underway rest current made
  | finished opened gone made why =>
    exact .finished opened gone made (why.imp_right (.imp_right weaken))

/-- Nothing has been called for a batch that still waits. -/
theorem callsOf_of_waiting (inTurn : InTurn store traffic) (balanced : traffic.ledger.Balanced)
    (waits : batch ∈ (traffic.depot h).queue ++ (traffic.depot h).deferred) :
    callsOf batch.serial traffic.journal = [] := by
  refine inTurn.callsOf_of_waiting balanced (show batch.serial ∈ (traffic.account h).queue ++
    (traffic.account h).deferred from ?_)
  simp only [Traffic.account, ← map_append]
  exact mem_map_of_mem waits

/-- The calls that have been made are the first ones of the batch. -/
theorem made_in_order (fate : Fate lost h batch traffic) (inTurn : InTurn store traffic)
    (balanced : traffic.ledger.Balanced) :
    callsOf batch.serial traffic.journal <+: batch.calls := by
  cases fate with
  | waiting waits =>
    rw [callsOf_of_waiting inTurn balanced waits]
    exact nil_prefix
  | underway rest current made => exact ⟨_, made⟩
  | finished opened gone made why => exact made

/-- A batch that is being delivered goes on. -/
theorem step_underway (inTurn : InTurn given.store traffic) (balanced : traffic.ledger.Balanced)
    (layered : Layered given.store traffic.depot traffic.calls)
    (home : (given.store.executable batch.event.source).host = h) (step : given.Step traffic next)
    {rest : List Delivery} (current : .deliver { batch with deliveries := rest } ∈ traffic.calls)
    (made : callsOf batch.serial traffic.journal ++
      Batch.calls { batch with deliveries := rest } = batch.calls) :
    Fate (∃ rest, given.loses (.deliver { batch with deliveries := rest })) h batch next := by
  rcases step.deliver_cases current with ⟨kept, same | ⟨other, delivery, distinct, among, called⟩⟩ |
    ⟨delivery, others, rfl, kept, called⟩ | ⟨top, journal, why⟩
  · exact .underway rest kept (by rw [callsOf_congr same]; exact made)
  · have foreign : other.serial ≠ batch.serial := fun same =>
      distinct (inTurn.eq_of_serial balanced layered among current same)
    exact .underway rest kept (by rw [callsOf_of_ne called foreign]; exact made)
  · -- The call that is made goes from the rest to those made.
    refine .underway others kept ?_
    rw [← made, callsOf, called, filter_append]
    simp [Batch.calls, callsOf]
  · have opened : batch.serial ∈ (next.account h).opened := by
      simp only [Traffic.account, journal]
      exact mem_of_getLast? (inTurn.current h { batch with deliveries := rest }
        (mem_filterMap.mpr ⟨_, current, by simp [Frame.batch?, home]⟩))
    have order : callsOf batch.serial next.journal <+: batch.calls := by
      rw [journal]
      exact ⟨_, made⟩
    refine .finished opened (fun other member same => ?_) order ?_
    · -- No other batch of the host is being delivered under this one.
      have among : .deliver other ∈ traffic.calls := by
        rw [top]
        exact mem_cons_of_mem _ member
      have equal := inTurn.eq_of_serial balanced layered among current same
      subst equal
      rw [top] at layered
      have below := filterMap_eq_nil_iff.mp (layered.batches_below home) _ member
      simp [Frame.batch?, home] at below
    · rcases why with done | destroyed | loses
      · have none_left : rest = [] := done
        subst none_left
        exact .inl (by rw [journal]; simpa [Batch.calls] using made)
      · exact .inr (.inl destroyed)
      · exact .inr (.inr ⟨rest, loses⟩)

/-- A batch that is done with stays so. -/
theorem step_finished (balanced : traffic.ledger.Balanced)
    (step : given.Step traffic next) (opened : batch.serial ∈ (traffic.account h).opened)
    (gone : ∀ other, .deliver other ∈ traffic.calls → other.serial ≠ batch.serial)
    (made : callsOf batch.serial traffic.journal <+: batch.calls)
    (why : callsOf batch.serial traffic.journal = batch.calls ∨
      traffic.destroyed batch.event.source = true ∨ lost) : Fate lost h batch next := by
  have same : callsOf batch.serial next.journal = callsOf batch.serial traffic.journal := by
    rcases step.callsIn_cases with same | ⟨other, delivery, _, calls, top, _, _, called⟩
    · exact callsOf_congr same
    · exact callsOf_of_ne called (gone other (by rw [top]; exact mem_cons_self ..))
  have opened_next : batch.serial ∈ (next.account h).opened := by
    obtain ⟨news, journal⟩ := step.journal_grows
    simp only [Traffic.account, journal, filterMap_append]
    exact mem_append_left _ opened
  refine .finished opened_next (fun other member => ?_) (same ▸ made) ?_
  · rcases step.mem_deliver member with ⟨before, under, equal⟩ | ⟨host, others, first⟩
    · exact equal ▸ gone before under
    · -- What has been opened does not wait any more, with this host or any other.
      intro equal
      have waiting : other.serial ∈ (traffic.account host).queue ++
          (traffic.account host).deferred := by
        simp [Traffic.account, first]
      obtain ⟨known, closed⟩ := Account.Balanced.of_waiting (balanced.account host) waiting
      rw [equal] at known closed
      rw [balanced.alone host h batch.serial known
        (Account.Balanced.mentions_of_opened (balanced.account h) opened)] at closed
      exact closed opened
  · rw [same]
    exact why.imp_right (Or.imp_left step.destroyed_mono)

/-- Every step takes a batch on its way. -/
theorem step (fate : Fate lost h batch traffic) (inTurn : InTurn given.store traffic)
    (balanced : traffic.ledger.Balanced)
    (layered : Layered given.store traffic.depot traffic.calls)
    (home : (given.store.executable batch.event.source).host = h)
    (step : given.Step traffic next) :
    Fate (lost ∨ ∃ rest, given.loses (.deliver { batch with deliveries := rest })) h batch
      next := by
  cases fate with
  | waiting waits =>
    rcases step.waiting_cases waits with still | ⟨current, journal⟩
    · exact .waiting still
    · refine .underway batch.deliveries current ?_
      have same : callsIn next.journal = callsIn traffic.journal := by
        rw [journal]
        exact callsIn_note rfl
      rw [callsOf_congr same, callsOf_of_waiting inTurn balanced waits]
      rfl
  | underway rest current made =>
    exact (step_underway inTurn balanced layered home step current made).mono .inr
  | finished opened gone made why =>
    exact (step_finished balanced step opened gone made why).mono .inl

end Fate

/-- A batch that was put off enters the dispatch queue when the deferred batches are asked for, and
no batch that was put off before it is left. -/
theorem Surroundings.Step.pumps_of_entered {given : Surroundings} {next : Traffic}
    (step : given.Step traffic next) (balanced : traffic.ledger.Balanced) {h : HostRef}
    (new : serial ∈ (next.account h).entered) (old : serial ∉ (traffic.account h).entered)
    (postponed : serial ∈ (traffic.account h).postponed) :
    given.pumps h ∧ ∃ batch others, (traffic.depot h).deferred = batch :: others ∧
      batch.serial = serial := by
  -- Only two rules enter a batch, and one of them a batch that nobody knew before.
  have entered {host : HostRef} {number : Nat} (found : serial ∈
      (traffic.journal ++ [Occurrence.queued host number]).filterMap (Occurrence.entered? h)) :
      host = h ∧ number = serial := by
    rw [filterMap_append, mem_append] at found
    rcases found with early | late
    · exact absurd early old
    · simpa [Occurrence.entered?] using late
  cases step with
  | post =>
    obtain ⟨rfl, rfl⟩ := entered new
    exact absurd (balanced.below _ _ (.inr postponed)) (Nat.lt_irrefl _)
  | @pump host batch others asked opened first calm free =>
    obtain ⟨rfl, same⟩ := entered new
    exact ⟨asked, batch, others, first, same⟩
  | move | putOff | listen | take | invoke | settle =>
    refine absurd ?_ old
    simp only [Traffic.account, Traffic.move, Traffic.defer, filterMap_append,
      filterMap_cons, filterMap_nil, Occurrence.entered?, append_nil] at new
    exact new
  | _ => exact absurd new old

/-- Elements in which nothing is found may be left out before. -/
theorem filterMap_filter_of_none {α β : Type} {shown : α → Bool} {look : α → Option β}
    (minor : ∀ value, shown value = false → look value = none) (values : List α) :
    (values.filter shown).filterMap look = values.filterMap look := by
  rw [filterMap_filter]
  refine filterMap_congr fun value _ => ?_
  cases kept : shown value with
  | true => rfl
  | false => exact (minor value kept).symm

/-- The books of one host, as the store shows them. -/
def Engine.account (engine : Engine) (h : HostRef) : Account where
  queue := (engine.host h).queue.map Batch.serial
  deferred := (engine.host h).deferred.map Batch.serial
  entered := engine.journal.toList.filterMap (Occurrence.entered? h)
  postponed := engine.journal.toList.filterMap (Occurrence.postponed? h)
  opened := engine.journal.toList.filterMap (Occurrence.opened? h)

namespace Machine

variable {machine final : Machine} {h : HostRef} {batch : Batch}

theorem filterMap_journal {α : Type} {look : Occurrence → Option α}
    (minor : ∀ occurrence, occurrence.isTraffic = false → look occurrence = none)
    (machine : Machine) : machine.traffic.journal.filterMap look =
      machine.engine.journal.toList.filterMap look :=
  filterMap_filter_of_none minor _

theorem callsIn_traffic (machine : Machine) :
    callsIn machine.traffic.journal = callsIn machine.engine.journal.toList :=
  machine.filterMap_journal fun occurrence hidden => by
    cases occurrence <;> first | rfl | cases hidden

theorem account_traffic (machine : Machine) (h : HostRef) :
    machine.traffic.account h = machine.engine.account h := by
  refine Account.ext rfl rfl ?_ ?_ ?_
  all_goals
    exact machine.filterMap_journal fun occurrence hidden => by
      cases occurrence <;> first | rfl | cases hidden

/-- A panic is about to end the delivery of what is left of a batch. -/
def LosesBatch (machine : Machine) (batch : Batch) : Prop :=
  ∃ payload rest frames, machine.control = .unwind payload ∧
    machine.stack = .deliver { batch with deliveries := rest } :: frames

/-- The calls of a batch that waits are made in order, and none is left out unless its source is
destroyed or a panic gets out of the delivery. -/
structure Delivered (machine : Machine) (h : HostRef) (batch : Batch) (final : Machine) : Prop where
  /-- The calls that have been made are the first ones of the batch. -/
  order : callsOf batch.serial final.engine.journal.toList <+: batch.calls
  /-- All calls have been made, unless the batch is still waiting or being delivered, or has been
  cut short. -/
  whole : callsOf batch.serial final.engine.journal.toList = batch.calls ∨
    batch ∈ (final.engine.host h).queue ++ (final.engine.host h).deferred ∨
    (∃ rest, .deliver { batch with deliveries := rest } ∈ final.stack) ∨
    (final.engine.executable batch.event.source).destroyed = true ∨
    ∃ state, machine.Reaches state ∧ state.Reaches final ∧ state.LosesBatch batch

/-- What has become of a batch that waited when a run began; only a state of that run can have cut
it short. -/
theorem ReachesWhile.fate {condition : Machine → Prop} (run : machine.ReachesWhile condition final)
    (reachable : machine.Reachable)
    (waits : batch ∈ (machine.engine.host h).queue ++ (machine.engine.host h).deferred) :
    Fate (∃ state, condition state ∧ machine.Reaches state ∧ state.Reaches final ∧
      state.LosesBatch batch) h batch final.traffic := by
  have home := ((reachable.sound.later_reaches run.reaches).grown.home _
    (reachable.sound.store.batches h batch waits).built).trans
      (reachable.sound.store.batches h batch waits).home
  refine run.rules_induction reachable.sound (.refl _) (motive := fun state =>
    Fate (∃ past, condition past ∧ machine.Reaches past ∧ past.Reaches state ∧
      past.LosesBatch batch) h batch state.traffic)
    (.waiting waits) fun {before after} early sound step _ grown rule fate => ?_
  have known : before.Reachable := Reaches.trans reachable early.reaches
  have later := (sound.later_next step).grown.trans grown
  refine (fate.step (known.inTurn later) known.balanced (known.layered later) home rule).mono ?_
  rintro (⟨past, holds, first, then_, loses⟩ | ⟨rest, payload, frames, unwinding, stands⟩)
  · exact ⟨past, holds, first, .step then_ step, loses⟩
  · exact ⟨before, early.holds, early.reaches, .step .refl step, payload, rest, frames, unwinding,
      stands⟩

/-- Whatever becomes of a machine, its batches are delivered. -/
theorem Reachable.delivered (reachable : machine.Reachable)
    (waits : batch ∈ (machine.engine.host h).queue ++ (machine.engine.host h).deferred)
    (run : machine.Reaches final) : machine.Delivered h batch final := by
  have fate := run.reachesWhile.fate reachable waits
  have known : final.Reachable := Reaches.trans reachable run
  have calls : callsOf batch.serial final.traffic.journal =
      callsOf batch.serial final.engine.journal.toList := by
    rw [callsOf, callsOf, callsIn_traffic]
  have order := fate.made_in_order (known.inTurn (.refl _)) known.balanced
  refine ⟨calls ▸ order, ?_⟩
  cases fate with
  | waiting waits => exact .inr (.inl waits)
  | underway rest current made =>
    exact .inr (.inr (.inl ⟨rest, mem_of_mem_filter current⟩))
  | finished opened gone made why =>
    rcases why with done | destroyed | lost
    · exact .inl (calls ▸ done)
    · exact .inr (.inr (.inr (.inl destroyed)))
    · obtain ⟨state, _, lost⟩ := lost
      exact .inr (.inr (.inr (.inr ⟨state, lost⟩)))

/-- The calls that a host makes are those of the batches that left the queue, in that order. -/
theorem Reachable.callsAt_eq (reachable : machine.Reachable) (h : HostRef) :
    callsAt machine.engine h machine.engine.journal.toList =
      (machine.engine.account h).opened.flatMap fun serial =>
        callsOf serial machine.engine.journal.toList := by
  have grouped := (reachable.inTurn (.refl _)).grouped h
  simpa only [callsAt, callsOf, callsIn_traffic, account_traffic] using grouped

/-- How a host delivers its batches. -/
structure DeliversInTurn (machine : Machine) (h : HostRef) : Prop where
  /-- No listener is called before the call of another one of the host has ended, and the call that
  is going on is the one on the stack. -/
  alone : ∃ running, machine.stack.filterMap (Frame.call? machine.engine h) = running.toList ∧
    OneAtATime (machine.engine.journal.toList.filterMap (Occurrence.turn? machine.engine h)) running
  /-- The calls for one batch follow one another without a call for another batch in between, and
  the batches come in the order in which they left the dispatch queue. -/
  grouped : callsAt machine.engine h machine.engine.journal.toList =
    (machine.engine.account h).opened.flatMap fun serial =>
      callsOf serial machine.engine.journal.toList
  /-- Batches leave the dispatch queue in the order in which they entered it, and those that were
  put off enter it in the order in which they were put off. -/
  balanced : (machine.engine.account h).Balanced
  /-- A batch that was put off enters the dispatch queue when the deferred batches are delivered, as
  the first one of them. -/
  pumped : ∀ next, Next machine next → ∀ serial ∈ (next.engine.account h).entered,
    serial ∉ (machine.engine.account h).entered → serial ∈ (machine.engine.account h).postponed →
      ∃ taken frames batch others, machine.stack = .pump h taken :: frames ∧
        (machine.engine.host h).deferred = batch :: others ∧ batch.serial = serial
  /-- The calls of a batch are in the order of registration, or that order with the first call
  last. -/
  registered : ∀ batch ∈ (machine.engine.host h).queue ++ (machine.engine.host h).deferred,
    batch.InOrder (machine.engine.host h).settings
  /-- They are made in that order, and cut short by destruction or panic only. -/
  delivered : ∀ batch ∈ (machine.engine.host h).queue ++ (machine.engine.host h).deferred,
    ∀ final, machine.Reaches final → machine.Delivered h batch final

/-- In every state of every run every host delivers its batches one after another, each in one piece
and in order, and calls one listener at a time. -/
theorem hosts_deliver_in_turn (reachable : machine.Reachable) (h : HostRef) :
    machine.DeliversInTurn h where
  alone := by
    obtain ⟨running, stack, one⟩ := (reachable.inTurn (.refl _)).alone h
    refine ⟨running, ?_, ?_⟩
    · rw [← stack]
      exact (filterMap_filter_of_none (fun frame hidden => by
        cases frame <;> first | rfl | cases hidden) machine.stack).symm
    · rw [← machine.filterMap_journal fun occurrence hidden => by
        cases occurrence <;> first | rfl | cases hidden]
      exact one
  grouped := reachable.callsAt_eq h
  balanced := machine.account_traffic h ▸ reachable.balanced.account h
  pumped := by
    intro next step serial new old postponed
    have sound := reachable.sound
    have rule := sound.rules_next step (.refl _)
    rw [← account_traffic] at new old postponed
    obtain ⟨⟨answer, taken, frames, _, stands⟩, batch, others, first, same⟩ :=
      rule.pumps_of_entered reachable.balanced new old postponed
    exact ⟨taken, frames, batch, others, stands, first, same⟩
  registered := reachable.filed.ordered h
  delivered := fun _ waits _ run => reachable.delivered waits run

/-- A listener is being called, a batch that it caused has been put off, and another one that it
caused later waits behind its own. -/
theorem hosts_deliver_in_turn_nested : ∃ machine : Machine, machine.Reachable ∧
    machine.stack.filterMap (Frame.call? machine.engine 0) =
      [⟨0, ⟨0, .processing, .null⟩, ⟨.client 2, some 1⟩⟩] ∧
    (machine.engine.host 0).queue =
      [⟨2, ⟨0, .failed, .ready⟩, [⟨.client 2, some 1⟩, ⟨.client 1, some 0⟩]⟩] ∧
    (machine.engine.host 0).deferred =
      [⟨1, ⟨0, .ready, .processing⟩, [⟨.client 2, some 1⟩, ⟨.client 1, some 0⟩]⟩] ∧
    machine.DeliversInTurn 0 := by
  let machine := ({} : Machine).after [.openHost {} .silent, .build 0 (.manual false),
    .subscribe 0 1 none false, .subscribe 0 2 none false, .call (.setStatus 0 .processing),
    .accept, .call (.setStatus 0 .ready), .call (.setStatus 0 .failed)]
  have reachable : machine.Reachable := reaches_after _ _
  exact ⟨machine, reachable, by decide, by decide, by decide, hosts_deliver_in_turn reachable 0⟩

end Machine

end Readiness
