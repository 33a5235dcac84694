import Readiness.Proofs.Policy.Settling

/-! Policies only reorder deliveries.

The client does the same under any policies, and the hosts are run until no batch is put off. Main
statement: whatever the policies are, this can be done, and the executables, what the hosts have
counted and what listeners have been told are the same in the end. Only how many calls of listeners
ended badly may differ, if that depends on who was called before.
-/

namespace Readiness

open List

namespace Machine

variable {machine left right : Machine} {moves others : List Move}
  {owed : Multiset (Event × Delivery)} {verdict : Event × Delivery → Bool}

/-- The client has done all it was to do, and the hosts have been run until no batch was put off. -/
structure Completed (moves : List Move) (owed : Multiset (Event × Delivery)) (machine : Machine) :
    Prop where
  /-- Nothing was given up, and so on. -/
  performed : Performed moves owed machine
  /-- No call is under way, and no batch is put off. -/
  idle : machine.Idle

/-- Two machines agree but for the policies of their hosts, the order in which listeners were called
and how many of these calls ended badly. -/
structure SameOutcome (left right : Machine) : Prop where
  /-- The executables are the same, with their statuses, histories and entries. -/
  executables : right.engine.executables = left.engine.executables
  /-- Every host has counted the same, apart from the calls that ended badly. -/
  tally : ∀ h, { (right.engine.host h).tally with failures := 0 } =
    { (left.engine.host h).tally with failures := 0 }
  /-- Every host has the same executables registered. -/
  roster : ∀ h, (right.engine.host h).roster = (left.engine.host h).roster
  /-- Apart from the calls of listeners the same has happened in the same order. -/
  deeds : right.engine.journal.toList.filter Occurrence.isDeed =
    left.engine.journal.toList.filter Occurrence.isDeed
  /-- Listeners have been told the same. -/
  told : right.engine.told = left.engine.told

/-- Once no batch is put off, listeners have been told all that they were to be told. -/
theorem Performed.told_eq (performed : Performed moves owed machine) (idle : machine.Idle) :
    machine.engine.told = machine.gist.news := by
  have none : (machine.engine.hosts.map Host.news).sum = 0 := by
    refine sum_eq_zero fun news member => ?_
    obtain ⟨host, among, rfl⟩ := mem_map.mp member
    obtain ⟨h, opened, rfl⟩ := mem_iff_getElem.mp among
    have found : machine.engine.host h = machine.engine.hosts[h] := by
      simp [Engine.host, opened]
    rw [← found, Host.news, performed.queue_eq_nil idle.1.2 h, idle.2 h]
    rfl
  simp only [gist, Engine.gist, Engine.news, none, idle.1.2, map_nil, sum_nil, add_zero]

/-- At rest a host has counted the calls of listeners that concern its executables. -/
theorem Reachable.invocations_of_rests (reachable : machine.Reachable)
    (rests : machine.stack = []) (h : HostRef) : (machine.engine.host h).tally.invocations =
      machine.engine.told.countP fun call =>
        (machine.engine.executable call.1.source).host = h := by
  rw [reachable.told_eq, rests, filterMap_nil, append_nil, Multiset.coe_countP,
    countP_map]
  exact congrArg Prod.fst (reachable.counted_eq h)

/-- If calls end as a verdict on them is, a host at rest has counted those on which it is bad. -/
theorem Reachable.failures_of_abides (reachable : machine.Reachable) (rests : machine.stack = [])
    (abides : machine.engine.Abides verdict) (h : HostRef) :
    (machine.engine.host h).tally.failures = machine.engine.told.countP fun call =>
      (machine.engine.executable call.1.source).host = h ∧
        (call.2.listener.isClient && verdict call) = true := by
  rw [reachable.told_eq, rests, filterMap_nil, append_nil, Multiset.coe_countP,
    countP_map]
  refine (congrArg Prod.snd (reachable.counted_eq h)).trans (countP_congr fun call ended => ?_)
  simp [abides call ended]

theorem gist_eq_of_same {some more : Multiset (Event × Delivery)} (one : Performed moves some left)
    (rests : left.AtRest) (other : Performed others more right) (ends : right.AtRest)
    (same : others.map (Move.under default) = moves.map (Move.under default)) :
    right.gist = left.gist :=
  (same ▸ other.story).unique ends.isIdle one.story rests.isIdle

/-- An executable that is the same in both machines has the same host there. -/
theorem SameOutcome.host (same : left.SameOutcome right) (e : ExecutableRef) :
    (right.engine.executable e).host = (left.engine.executable e).host := by
  rw [Engine.executable, same.executables]
  rfl

/-- Such runs have the same outcome if they have been completed. -/
theorem Completed.sameOutcome {some more : Multiset (Event × Delivery)}
    (one : Completed moves some left) (other : Completed others more right)
    (same : others.map (Move.under default) = moves.map (Move.under default)) :
    left.SameOutcome right := by
  have gists := gist_eq_of_same one.performed one.idle.1 other.performed other.idle.1 same
  have stores : right.engine.still = left.engine.still := congrArg Gist.store gists
  have executables : right.engine.still.executables = left.engine.still.executables :=
    congrArg Engine.executables stores
  have hosts (h : HostRef) : (right.engine.host h).still = (left.engine.host h).still := by
    rw [← Engine.host_still, ← Engine.host_still, stores]
  have told : right.engine.told = left.engine.told := by
    rw [one.performed.told_eq one.idle, other.performed.told_eq other.idle, gists]
  refine ⟨executables, fun h => ?_, fun h => ?_, ?_, told⟩
  · -- The calls of listeners are the same, and are counted by the same hosts.
    have ours := one.performed.ungated.reachable.invocations_of_rests one.idle.1.2 h
    have theirs := other.performed.ungated.reachable.invocations_of_rests other.idle.1.2 h
    have look (e : ExecutableRef) : right.engine.executable e = left.engine.executable e := by
      simp only [Engine.executable, show right.engine.executables = _ from executables]
      rfl
    simp only [told, look, ← ours] at theirs
    have whole (host : Host) : { host.tally with failures := 0 } =
      { host.still.tally with invocations := host.tally.invocations } := rfl
    rw [whole, whole, hosts h, theirs]
  · have rosters : (right.engine.host h).still.roster = (left.engine.host h).still.roster :=
      congrArg Host.roster (hosts h)
    exact rosters
  · have journals : (right.engine.journal.filter Occurrence.isDeed).toList =
        (left.engine.journal.filter Occurrence.isDeed).toList :=
      congrArg (fun engine => engine.journal.toList) stores
    simpa using journals

/-- Hosts that were to judge calls alike have counted as many that ended badly. -/
theorem Completed.failures_eq {some more : Multiset (Event × Delivery)}
    (one : Completed moves some left) (other : Completed others more right)
    (same : left.SameOutcome right) (ours : left.engine.Abides verdict)
    (theirs : right.engine.Abides verdict) (h : HostRef) :
    (right.engine.host h).tally.failures = (left.engine.host h).tally.failures := by
  rw [one.performed.ungated.reachable.failures_of_abides one.idle.1.2 ours,
    other.performed.ungated.reachable.failures_of_abides other.idle.1.2 theirs, same.told]
  simp only [same.host]

/-- What the client has done can be completed under any other policies. -/
theorem Performed.exists_completed (performed : Performed moves owed machine)
    (rests : machine.AtRest)
    (same : others.map (Move.under default) = moves.map (Move.under default))
    (verdict : Event × Delivery → Bool) :
    ∃ final, Completed others owed final ∧ final.engine.Abides verdict := by
  obtain ⟨due, other, abiding, gists, ready⟩ := exists_abiding performed.story verdict same
  have turn : other.clientTurn = true := by
    refine ready.resolve_left fun acts => ?_
    have busy := isIdle_of_acts acts
    rw [gists, rests.isIdle] at busy
    cases busy
  obtain ⟨final, done, idle⟩ := abiding.exists_idle (abiding.atRest turn (gists ▸ rests.duties))
  obtain rfl : due = owed := by
    rw [← abiding.performed.dues_eq, gists, performed.dues_eq]
  exact ⟨final, ⟨done.performed, idle⟩, done.abides⟩

/-- Of transitions listeners have been told what these owed. -/
theorem Completed.told_eq (completed : Completed moves owed machine) :
    (machine.engine.told.filter fun call => call.2.entry.isSome) = owed := by
  rw [completed.performed.told_eq completed.idle]
  exact completed.performed.dues_eq

/-- Policies only reorder deliveries. Take what a client can do that gives nothing up and
synchronises nobody, with observers that are not client code and listeners that do not call the
engine. It can do so under any other policies as well, and run the hosts until no batch is put off,
however the calls of listeners are to end. Whenever it has done so, the outcome is the same, and
listeners have been told of transitions exactly what these owed to those that were registered for
them. As many calls have ended badly, too, if how a call ends depends on nothing but the event and
the entry. -/
theorem delivery_policies_only_reorder (performed : Performed moves owed machine)
    (rests : machine.AtRest)
    (same : others.map (Move.under default) = moves.map (Move.under default)) :
    (∀ verdict : Event × Delivery → Bool,
      (∃ left, Completed moves owed left ∧ left.engine.Abides verdict) ∧
        ∃ right, Completed others owed right ∧ right.engine.Abides verdict) ∧
    ∀ (left right : Machine) (some more : Multiset (Event × Delivery)),
      Completed moves some left → Completed others more right →
        left.SameOutcome right ∧ some = owed ∧ more = owed ∧
          (left.engine.told.filter fun call => call.2.entry.isSome) = owed ∧
          (right.engine.told.filter fun call => call.2.entry.isSome) = owed ∧
          ∀ verdict : Event × Delivery → Bool,
            left.engine.Abides verdict → right.engine.Abides verdict → ∀ h,
              (right.engine.host h).tally.failures = (left.engine.host h).tally.failures := by
  refine ⟨fun verdict => ⟨performed.exists_completed rests rfl verdict,
    performed.exists_completed rests same verdict⟩, fun left right some more one other => ?_⟩
  -- What is owed is known from what the client did.
  have ours : some = owed := by
    rw [← one.performed.dues_eq, gist_eq_of_same performed rests one.performed one.idle.1 rfl,
      performed.dues_eq]
  have theirs : more = owed := by
    rw [← other.performed.dues_eq,
      gist_eq_of_same performed rests other.performed other.idle.1 same,
      performed.dues_eq]
  have outcome := one.sameOutcome other same
  exact ⟨outcome, ours, theirs, ours ▸ one.told_eq, theirs ▸ other.told_eq,
    fun _ => one.failures_eq other outcome⟩

/-- A listener that is told of everything fails whenever it is called. The batch for the ready
status is put off, and while it waits the listener is removed and the executable moves on. A host
that puts nothing off and calls listeners in order comes to the same. -/
theorem delivery_policies_only_reorder_put_off :
    ∃ (moves : List Move) (owed : Multiset (Event × Delivery)) (machine : Machine),
      Performed moves owed machine ∧ machine.AtRest ∧
      (machine.engine.host 0).deferred.length = 1 ∧ moves.length = 8 ∧ owed.card = 3 ∧
      ∃ left right, Completed moves owed left ∧
        Completed (moves.map (Move.under { deferReady := false, firstLast := false })) owed right ∧
        left.SameOutcome right ∧
        (left.engine.told.filter fun call => call.2.entry.isSome) = owed ∧
        (right.engine.told.filter fun call => call.2.entry.isSome) = owed ∧
        (right.engine.host 0).tally.failures = (left.engine.host 0).tally.failures := by
  obtain ⟨run, is⟩ : ∃ run, run = carried [.openHost {} .silent, .build 0 (.manual false),
    .subscribe 0 1 (some .ready) true, .subscribe 0 2 none false, .call (.setStatus 0 .processing),
    .finish (.failed "bad"), .call (.setStatus 0 .ready), .unsubscribe 0 2 none,
    .call (.setStatus 0 .failed)] := ⟨_, rfl⟩
  have performed : Performed run.1 run.2.1 run.2.2 := by
    rw [is]
    exact performed_carried _
  have rests : run.2.2.AtRest := by
    rw [is]
    exact ⟨by decide +kernel, isEmpty_iff.mp (by decide +kernel)⟩
  have facts : (run.2.2.engine.host 0).deferred.length = 1 ∧ run.1.length = 8 ∧
      run.2.1.card = 3 := by
    rw [is]
    decide +kernel
  have same : (run.1.map (Move.under { deferReady := false, firstLast := false })).map
      (Move.under default) = run.1.map (Move.under default) := by
    rw [map_map]
    exact map_congr_left fun move _ => move.under_under _ _
  obtain ⟨able, agree⟩ := delivery_policies_only_reorder performed rests same
  obtain ⟨⟨left, one, bad⟩, right, other, alike⟩ := able fun call => call.2.listener = .client 2
  obtain ⟨outcome, _, _, ours, theirs, failures⟩ := agree left right _ _ one other
  exact ⟨run.1, run.2.1, run.2.2, performed, rests, facts.1, facts.2.1, facts.2.2, left, right, one,
    other, outcome, ours, theirs, failures _ bad alike 0⟩

theorem deferred_eq_nil {engine : Engine}
    (none : engine.hosts.all (·.deferred.isEmpty) = true) (h : HostRef) :
    (engine.host h).deferred = [] := by
  rcases Nat.lt_or_ge h engine.hosts.length with opened | beyond
  · have empty := all_eq_true.mp none _ (getElem_mem opened)
    simpa [Engine.host, opened] using empty
  · rw [Engine.host, getD_eq_getElem?_getD, getElem?_eq_none beyond]
    rfl

/-- One listener fails exactly if the other one has not been called before it. Called last it does
not fail, and called first it does, so that the policy shows in how many calls ended badly. -/
theorem policies_change_failure_counts : ∃ (moves : List Move)
    (owed : Multiset (Event × Delivery)) (left right : Machine) (event : Event),
    Completed moves owed left ∧
    Completed (moves.map (Move.under { deferReady := true, firstLast := false })) owed right ∧
    left.engine.receipts.ended =
      [((event, ⟨.client 2, some 1⟩), false), ((event, ⟨.client 1, some 0⟩), false)] ∧
    right.engine.receipts.ended =
      [((event, ⟨.client 1, some 0⟩), true), ((event, ⟨.client 2, some 1⟩), false)] ∧
    (left.engine.host 0).tally.failures = 0 ∧ (right.engine.host 0).tally.failures = 1 := by
  -- The first two replies are the listeners' own, the moves before them are the same.
  let moves (policy : DeliveryPolicy) (first : Reply) : List Move :=
    [.openHost { dispatch := policy } .silent, .build 0 (.manual false),
      .subscribe 0 1 (some .processing) false, .subscribe 0 2 (some .processing) false,
      .call (.setStatus 0 .processing), .finish first, .finish .done]
  let left := carried (moves { deferReady := true, firstLast := true } .done)
  let right := carried (moves { deferReady := true, firstLast := false } (.failed "alone"))
  have one : Completed left.1 left.2.1 left.2.2 := ⟨performed_carried _,
    ⟨by decide +kernel, isEmpty_iff.mp (by decide +kernel)⟩,
    deferred_eq_nil (by decide +kernel)⟩
  have other : Completed right.1 right.2.1 right.2.2 := ⟨performed_carried _,
    ⟨by decide +kernel, isEmpty_iff.mp (by decide +kernel)⟩,
    deferred_eq_nil (by decide +kernel)⟩
  have moved : right.1 = left.1.map (Move.under { deferReady := true, firstLast := false }) := rfl
  have owed : right.2.1 = left.2.1 := by decide +kernel
  rw [moved, owed] at other
  exact ⟨left.1, left.2.1, left.2.2, right.2.2, ⟨0, .processing, .null⟩, one, other,
    by decide +kernel, by decide +kernel, by decide +kernel, by decide +kernel⟩

end Machine

end Readiness
