import Readiness.Proofs.Delivery.Reserved

/-! The listeners of one request for readiness settle together: they are called for one event at
most, once for each time that its status is on the list of those they wait for.
-/

namespace Readiness

open List

/-- The listeners of a request for readiness. -/
def ReadyRequest.listeners (request : ReadyRequest) : List Listener :=
  request.success :: request.failure.toList

namespace Executable

variable (executable : Executable) (request : ReadyRequest)

/-- The entries that a request for one call registers. -/
def requestEntries : List (Status × Entry) :=
  Subscriptions.filings (executable.links request) true executable.subscriptions.nextSequence
    (some executable.subscriptions.nextGroup)

/-- The links for a failed status are as many as the times that it is named, at most. -/
theorem countP_failure_links_le (status : Status) :
    (request.failure.toList.flatMap fun listener =>
      executable.failedStatuses.map fun status => (listener, status)).countP
        (fun link => decide (link.2 = status)) ≤ executable.failedStatuses.count status := by
  cases request.failure with
  | none => exact Nat.zero_le _
  | some listener =>
    simp only [Option.toList_some, flatMap_cons, flatMap_nil, append_nil,
      countP_map, List.count]
    exact Nat.le_of_eq (countP_congr fun other _ => by simp)

variable {executable request}

/-- A link is the success listener's for the ready status or the failure listener's for a failed
one. -/
theorem mem_links {link : Listener × Status} (listed : link ∈ executable.links request) :
    link.2 = executable.readyStatus ∧ link.1 = request.success ∨
      link.2 ∈ executable.failedStatuses ∧ request.failure = some link.1 := by
  rcases mem_cons.mp listed with rfl | failure
  · exact .inl ⟨rfl, rfl⟩
  · obtain ⟨listener, some_failure, linked⟩ := mem_flatMap.mp failure
    obtain ⟨status, failed, rfl⟩ := mem_map.mp linked
    exact .inr ⟨failed, Option.mem_toList.mp some_failure⟩

/-- There is one link for the ready status, which is not among the failed ones. -/
theorem countP_links_readyStatus (sensible : executable.work.fault? = none) :
    ((executable.links request).countP fun link => decide (link.2 = executable.readyStatus)) ≤
      1 := by
  have unnamed : executable.failedStatuses.count executable.readyStatus = 0 :=
    count_eq_zero_of_not_mem (Work.readyStatus_not_mem_failedStatuses sensible)
  have failures := countP_failure_links_le executable request executable.readyStatus
  -- The first link is the one for the ready status.
  rw [links, countP_cons, decide_eq_true rfl, if_pos rfl]
  omega

theorem countP_links_of_ne {status : Status} (other : status ≠ executable.readyStatus) :
    ((executable.links request).countP fun link => decide (link.2 = status)) ≤
      executable.failedStatuses.count status := by
  rw [links, countP_cons, decide_eq_false (Ne.symm other), if_neg Bool.false_ne_true]
  exact countP_failure_links_le executable request status

/-- The entries of a request are of one group, for one call each, and none is for the sentinel. -/
theorem mem_requestEntries (sensible : executable.work.fault? = none)
    {filed : Status × Entry} (listed : filed ∈ executable.requestEntries request) :
    (filed.2.listener, filed.1) ∈ executable.links request ∧ filed.2.once = true ∧
      filed.2.group = some executable.subscriptions.nextGroup ∧ filed.1 ≠ .null := by
  obtain ⟨linked, once, group, _⟩ := Subscriptions.mem_filings listed
  refine ⟨linked, once, group, ?_⟩
  rcases mem_links linked with ⟨ready, _⟩ | ⟨failed, _⟩
  · exact fun blank => Work.readyStatus_ne_null sensible (ready.symm.trans blank)
  · exact Work.ne_null_of_mem_failedStatuses sensible failed

end Executable

namespace Machine

variable {machine later : Machine} {e : ExecutableRef} {request : ReadyRequest}

theorem engine_onReady (turn : machine.control = .perform (.onReady e request)) :
    machine.step.engine = machine.engine.listenReady e request := by
  rw [step, turn]
  simp only [start]
  split <;> rfl

section

variable (reachable : machine.Reachable) (turn : machine.control = .perform (.onReady e request))
include reachable turn

theorem Reachable.built_of_onReady : e < machine.engine.executables.length := by
  have fits := reachable.sound.control
  rw [turn] at fits
  exact fits.1.executables e (mem_singleton_self e)

/-- The listeners of a request for readiness are the client's. -/
theorem Reachable.isClient_of_onReady :
    ∀ listener ∈ request.listeners, listener.isClient = true := by
  -- The engine registers watchers and the listeners of waits by other ways than such a request.
  intro listener listed
  have fits := reachable.sound.control
  rw [turn] at fits
  have foreign := fits.1.foreign e request rfl listener listed
  have plain := fits.1.plain listener listed fun _ same => by cases same
  cases listener with
  | client => rfl
  | countdown | dependencyFailed => cases foreign
  | waitReady | waitFailed => cases plain

/-- The entries after a request for readiness. -/
theorem Reachable.subscriptions_onReady :
    (machine.step.engine.executable e).subscriptions =
      (machine.engine.executable e).requested request := by
  show machine.step.engine.record.subscriptions e = _
  rw [engine_onReady turn, Engine.record_listenReady _ (reachable.built_of_onReady turn)]
  exact Function.update_self ..

/-- A request that is not granted at once registers its listeners as one group. -/
theorem Reachable.listing_onReady (once : request.once = true)
    (waits : ((machine.engine.executable e).isReady && !request.onlyFuture) = false) :
    (machine.step.engine.executable e).subscriptions.listing.Perm
        ((machine.engine.executable e).requestEntries request ++
          (machine.engine.executable e).subscriptions.listing) ∧
      (machine.step.engine.executable e).subscriptions.nextGroup =
        (machine.engine.executable e).subscriptions.nextGroup + 1 := by
  have registered : (machine.engine.executable e).requested request =
      (machine.engine.executable e).subscriptions.addGroup
        ((machine.engine.executable e).links request) := by
    simp [Executable.requested, once, waits]
  rw [reachable.subscriptions_onReady turn, registered]
  exact ⟨Subscriptions.listing_addGroup_perm .., Subscriptions.nextGroup_addGroup ..⟩

/-- A request that is not granted at once sends nothing, so its listeners start out pending. -/
theorem Reachable.settling_onReady
    (waits : ((machine.engine.executable e).isReady && !request.onlyFuture) = false)
    {among : List Listener} (entries : List (Status × Entry))
    (unsent : ∀ event delivery, machine.Sends event delivery → delivery.listener ∉ among) :
    Settling among e entries (callsTo among machine.engine.journal.toList) machine.step := by
  -- The step that makes the request is no transition and no turn of the client.
  have busy : machine.clientTurn = false := by rw [clientTurn, turn]
  refine .pending (fun event delivery sent own => ?_) ?_
  · rcases reachable.sends_of_next (.engine busy) sent with old | issued
    · exact unsent event delivery old own
    · cases issued with
      | due asked =>
        rw [turn] at asked
        cases asked
      | request asked immediate =>
        rw [turn] at asked
        cases asked
        rw [waits] at immediate
        cases immediate
      | wait free =>
        rw [busy] at free
        cases free
  · rcases reachable.sound.callsTo_next (.engine busy) among with same | ⟨call, sent, own, _⟩
    · exact same
    · exact absurd own (unsent _ _ sent)

end

/-- Calls settle a request: all of them are for one event, which is readiness, with one call of the
success listener at most, or a failure, with a call of the failure listener for each time that the
status is named, at most. -/
inductive Settles (executable : Executable) (e : ExecutableRef) (request : ReadyRequest)
    (news : List Call) : Prop where
  /-- The success listener is called. -/
  | ready (event : Event) (source : event.source = e)
    (status : event.status = executable.readyStatus)
    (calls : ∀ call ∈ news, call.event = event ∧ call.delivery.listener = request.success)
    (bound : news.length ≤ 1)
  /-- The failure listener is called. -/
  | failed (event : Event) (source : event.source = e)
    (calls : ∀ call ∈ news, call.event = event ∧ request.failure = some call.delivery.listener)
    (bound : news.length ≤ executable.failedStatuses.count event.status)

namespace Settles

variable {executable : Executable} {news : List Call}

theorem nil : Settles executable e request [] :=
  .ready ⟨e, executable.readyStatus, executable.readyStatus⟩ rfl rfl
    (fun _ member => by cases member) (Nat.zero_le 1)

theorem length_le_one (settles : Settles executable e request news)
    (nodup : executable.failedStatuses.Nodup) : news.length ≤ 1 := by
  cases settles with
  | ready _ _ _ _ bound => exact bound
  | failed event _ _ bound => exact bound.trans (nodup_iff_count_le_one.mp nodup event.status)

/-- Calls for one event that the entries of a request ask for settle it. -/
theorem of_asksFor (sensible : executable.work.fault? = none) {event : Event}
    (source : event.source = e)
    (fits : ∀ call ∈ news, call.event = event ∧
      AsksFor (executable.requestEntries request) event.status call.delivery)
    (bound : news.length ≤ (executable.requestEntries request).countP
      fun filed => decide (filed.1 = event.status)) :
    Settles executable e request news := by
  rw [Executable.requestEntries, Subscriptions.countP_filings] at bound
  have linked : ∀ call ∈ news, call.event = event ∧
      (call.delivery.listener, event.status) ∈ executable.links request := by
    intro call member
    obtain ⟨same, filed, listed, key, delivery⟩ := fits call member
    refine ⟨same, ?_⟩
    rw [delivery, ← key]
    exact (Executable.mem_requestEntries sensible listed).1
  -- The status tells which of the listeners has the links.
  by_cases ready : event.status = executable.readyStatus
  · refine .ready event source ready (fun call member => ⟨(linked call member).1, ?_⟩)
      (bound.trans (ready ▸ Executable.countP_links_readyStatus sensible))
    rcases Executable.mem_links (linked call member).2 with ⟨_, success⟩ | ⟨failed, _⟩
    · exact success
    · rw [ready] at failed
      exact absurd failed (Work.readyStatus_not_mem_failedStatuses sensible)
  · refine .failed event source (fun call member => ⟨(linked call member).1, ?_⟩)
      (bound.trans (Executable.countP_links_of_ne ready))
    rcases Executable.mem_links (linked call member).2 with ⟨same, _⟩ | ⟨_, failure⟩
    · exact absurd same ready
    · exact failure

end Settles

section

variable (reachable : machine.Reachable) (turn : machine.control = .perform (.onReady e request))
  (once : request.once = true)
  (unsent : ∀ event delivery, machine.Sends event delivery → delivery.listener ∉ request.listeners)
  (run : machine.step.ReachesWhile (·.Reserves request.listeners e
    (machine.step.engine.executable e).subscriptions.listing) later)

include reachable turn once unsent run in
/-- The listeners of a request that is not granted at once are called as their entries ask. -/
theorem Reachable.settles_of_waits
    (waits : ((machine.engine.executable e).isReady && !request.onlyFuture) = false)
    (unlisted : ∀ filed ∈ (machine.engine.executable e).subscriptions.listing,
      filed.2.listener ∉ request.listeners) :
    ∃ news, callsTo request.listeners later.engine.journal.toList =
        callsTo request.listeners machine.engine.journal.toList ++ news ∧
      Settles (machine.engine.executable e) e request news := by
  have sensible := reachable.sound.store.lawful e (reachable.built_of_onReady turn)
  have reached : machine.step.Reachable := .step reachable (.engine (by rw [clientTurn, turn]))
  obtain ⟨listing, counted⟩ := reachable.listing_onReady turn once waits
  -- Of the entries after the request only its own are about its listeners.
  have narrow : ∀ filed ∈ (machine.step.engine.executable e).subscriptions.listing,
      filed.2.listener ∈ request.listeners →
        filed ∈ (machine.engine.executable e).requestEntries request := by
    intro filed member own
    rcases mem_append.mp (listing.mem_iff.mp member) with new | old
    · exact new
    · exact absurd own (unlisted filed old)
  have settling := ((run.mono fun _ reserves => reserves.narrow narrow).settling reached
    (reachable.isClient_of_onReady turn) (by rw [counted]; exact Nat.lt_succ_self _)
    (fun filed listed => (Executable.mem_requestEntries sensible listed).2.2)
    (reachable.settling_onReady turn waits _ unsent)).2
  cases settling with
  | pending _ same =>
    exact ⟨[], by rw [same, append_nil], .nil⟩
  | told event source news _ _ made fits =>
    refine ⟨news, made, .of_asksFor sensible source fits
      (length_le_of_asksFor (sublist_of_callsTo made) fits fun filed listed => ?_)⟩
    rw [source]
    exact reached.toldTo_le_one (listing.mem_iff.mpr (mem_append_left _ listed))
      (Executable.mem_requestEntries sensible listed).2.1 run.reaches

/-- The batch with the call by which a request is granted at once. -/
def grant (machine : Machine) (e : ExecutableRef) (request : ReadyRequest) : Batch :=
  machine.engine.batch ⟨e, (machine.engine.executable e).readyStatus,
    (machine.engine.executable e).readyStatus⟩ [⟨request.success, none⟩]

include reachable turn in
/-- A request that is granted at once puts off a batch with one call. -/
theorem Reachable.mem_deferred_onReady
    (granted : ((machine.engine.executable e).isReady && !request.onlyFuture) = true) :
    machine.grant e request ∈
      (machine.step.engine.host (machine.engine.executable e).host).deferred := by
  have opened := reachable.sound.store.hosted e (reachable.built_of_onReady turn)
  have deferred := machine.engine.spendBatch.traffic_defer (by exact opened)
    (machine.grant e request)
  -- Registering changes no host, so the batch is still there afterwards.
  have kept : (machine.step.engine.traffic.depot (machine.engine.executable e).host).deferred =
      ((machine.engine.spendBatch.defer (machine.engine.executable e).host
        (machine.grant e request)).traffic.depot (machine.engine.executable e).host).deferred := by
    rw [engine_onReady turn, Engine.listenReady]
    simp only [granted, if_true]
    rfl
  show _ ∈ (machine.step.engine.traffic.depot (machine.engine.executable e).host).deferred
  rw [kept, deferred]
  simp only [Traffic.defer, Function.update_self]
  exact mem_append_right _ (mem_singleton_self _)

include reachable turn once unsent run in
/-- The success listener of a request that is granted at once is called for that, and no listener of
the request for anything else. -/
theorem Reachable.settles_of_granted
    (granted : ((machine.engine.executable e).isReady && !request.onlyFuture) = true)
    (unlisted : ∀ x, ∀ filed ∈ (machine.engine.executable x).subscriptions.listing,
      filed.2.listener ∉ request.listeners) :
    ∃ news, callsTo request.listeners later.engine.journal.toList =
        callsTo request.listeners machine.engine.journal.toList ++ news ∧
      Settles (machine.engine.executable e) e request news := by
  have begun : Next machine machine.step := .engine (by rw [clientTurn, turn])
  have reached : machine.step.Reachable := .step reachable begun
  have clients := reachable.isClient_of_onReady turn
  -- Nothing is registered, so the listeners have no entries while theirs are reserved.
  have same : (machine.step.engine.executable e).subscriptions =
      (machine.engine.executable e).subscriptions := by
    rw [reachable.subscriptions_onReady turn]
    simp [Executable.requested, once, granted]
  have bare {state : Machine} (reserves : state.Reserves request.listeners e
      (machine.step.engine.executable e).subscriptions.listing) (x : ExecutableRef) :
      ∀ filed ∈ (state.engine.executable x).subscriptions.listing,
        filed.2.listener ∉ request.listeners := by
    intro filed member own
    have listed := (reserves.only x filed member own).2
    rw [same] at listed
    exact unlisted e filed listed own
  have one : later.FromBatch request.listeners machine.engine.nextBatch
      (callsTo request.listeners machine.engine.journal.toList) := by
    induction run with
    | refl =>
      exact (fromBatch_of_unsent unsent _).next reachable begun clients unlisted fun _ _ _ => rfl
    | step run step _ ih =>
      exact ih.next (Reaches.trans reached run.reaches) step clients (bare run.holds)
        fun request asked own => absurd own (run.holds.foreign request asked)
  -- The batch asks for one call, and whatever was made of it is the beginning of that.
  obtain ⟨news, made, numbers⟩ := one.made
  have part : news.Sublist (callsOf machine.engine.nextBatch later.engine.journal.toList) := by
    rw [← filter_eq_self.mpr fun call member => decide_eq_true (numbers call member)]
    exact (sublist_of_callsTo made).filter _
  have order := (reached.delivered (mem_append_right _
    (reachable.mem_deferred_onReady turn granted)) run.reaches).order
  refine ⟨news, made, .ready (machine.grant e request).event rfl rfl (fun call member => ?_)
    (part.trans order.sublist).length_le⟩
  obtain rfl := mem_singleton.mp (order.subset (part.subset member))
  exact ⟨rfl, rfl⟩

end

/-- The listeners of a request for one call are called for one event at most: the success listener
once for readiness, or the failure listener for a failed status, once for each time that the status
is named. So there is one call at most if no failed status is named twice. -/
theorem ready_request_settled_by_one_event (reachable : machine.Reachable)
    (turn : machine.control = .perform (.onReady e request)) (once : request.once = true)
    (unlisted : ∀ x, ∀ filed ∈ (machine.engine.executable x).subscriptions.listing,
      filed.2.listener ∉ request.listeners)
    (unsent : ∀ event delivery, machine.Sends event delivery →
      delivery.listener ∉ request.listeners)
    (run : machine.step.ReachesWhile (·.Reserves request.listeners e
      (machine.step.engine.executable e).subscriptions.listing) later) :
    ∃ news, callsTo request.listeners later.engine.journal.toList =
        callsTo request.listeners machine.engine.journal.toList ++ news ∧
      Settles (machine.engine.executable e) e request news ∧
      ((machine.engine.executable e).failedStatuses.Nodup → news.length ≤ 1) := by
  have settled : ∃ news, callsTo request.listeners later.engine.journal.toList =
        callsTo request.listeners machine.engine.journal.toList ++ news ∧
      Settles (machine.engine.executable e) e request news := by
    cases granted : (machine.engine.executable e).isReady && !request.onlyFuture with
    | true => exact reachable.settles_of_granted turn once unsent run granted unlisted
    | false => exact reachable.settles_of_waits turn once unsent run granted (unlisted e)
  obtain ⟨news, made, settles⟩ := settled
  exact ⟨news, made, settles, settles.length_le_one⟩

/-- The executable fails, becomes ready and fails otherwise, with another listener in place that is
told of everything: the failure listener is called for the first of these, and then none. -/
theorem ready_request_settled_by_one_event_failed : ∃ machine final : Machine,
    machine.Reachable ∧
    machine.control = .perform (.onReady 0
      { success := .client 1, failure := some (.client 2), once := true }) ∧
    (∀ x, ∀ filed ∈ (machine.engine.executable x).subscriptions.listing,
      filed.2.listener ∉ [.client 1, .client 2]) ∧
    (∀ event delivery, machine.Sends event delivery →
      delivery.listener ∉ [.client 1, .client 2]) ∧
    machine.step.ReachesWhile (·.Reserves [.client 1, .client 2] 0
      (machine.step.engine.executable 0).subscriptions.listing) final ∧
    (machine.engine.executable 0).failedStatuses = [.failed, .waiting] ∧
    (movesOf 0 final.engine.journal.toList).map Event.status = [.failed, .ready, .waiting] ∧
    (callsTo [.client 3] final.engine.journal.toList).length = 3 ∧
    ∃ call, callsTo [.client 1, .client 2] final.engine.journal.toList = [call] ∧
      call.event = ⟨0, .failed, .null⟩ ∧ call.delivery.listener = .client 2 := by
  let request : ReadyRequest :=
    { success := .client 1, failure := some (.client 2), once := true }
  let start := ({} : Machine).after [.openHost {} .silent,
    .build 0 (.custom "job" .ready [.failed, .waiting] 7), .subscribe 0 3 none false]
  let machine := start.call (.onReady 0 request)
  let safe (state : Machine) : Bool := decide (state.Reserves [.client 1, .client 2] 0
    (machine.step.engine.executable 0).subscriptions.listing)
  let waiting := machine.step.halt clientTurn safe
  let final := waiting.after [.call (.setStatus 0 .failed), .accept, .finish .done, .accept,
    .finish .done, .call (.setStatus 0 .ready), .accept, .finish .done,
    .call (.setStatus 0 .waiting), .accept, .finish .done] safe
  have reachable : machine.Reachable := .step (reaches_after _ _) (.call (by decide) (by decide))
  have first : machine.step.ReachesWhile (fun state => safe state = true) waiting :=
    reachesWhile_halt (by decide) (by decide)
  have second : waiting.ReachesWhile (fun state => safe state = true) final :=
    reachesWhile_after (by decide) (by decide)
  have run := (first.trans second).mono fun _ holds => of_decide_eq_true holds
  have bare : start.Reserves [.client 1, .client 2] 0 [] := by decide
  have unlisted : ∀ x, ∀ filed ∈ (machine.engine.executable x).subscriptions.listing,
      filed.2.listener ∉ [.client 1, .client 2] := by
    intro x filed member own
    cases (bare.only x filed member own).2
  have quiet : machine.waitingBatches = [] := by decide
  have idle : machine.stack.flatMap Frame.sends = [] := by decide
  have unsent : ∀ event delivery, machine.Sends event delivery →
      delivery.listener ∉ [.client 1, .client 2] :=
    fun _ _ sent => absurd sent (not_sends_of_idle quiet idle)
  obtain ⟨news, made, settles, bound⟩ :=
    ready_request_settled_by_one_event reachable rfl rfl unlisted unsent run
  have before : callsTo request.listeners machine.engine.journal.toList = [] := by decide
  rw [before, nil_append] at made
  have called : callsTo request.listeners final.engine.journal.toList ≠ [] := by decide
  obtain ⟨call, rfl⟩ := length_eq_one_iff.mp
    (Nat.le_antisymm (bound (by decide)) (length_pos_iff.mpr (made ▸ called)))
  have told : (callsTo request.listeners final.engine.journal.toList).map
      (fun call => (call.event, call.delivery.listener)) = [(⟨0, .failed, .null⟩, .client 2)] := by
    decide
  rw [made] at told
  obtain ⟨event, listener⟩ := Prod.mk.inj (List.cons.inj told).1
  exact ⟨machine, final, reachable, rfl, unlisted, unsent, run, by decide, by decide, by decide,
    call, made, event, listener⟩

/-- If a failed status is named twice, the failure listener is called twice for one transition. -/
theorem ready_request_settled_by_two_calls : ∃ machine final : Machine,
    machine.Reachable ∧
    machine.control = .perform (.onReady 0
      { success := .client 1, failure := some (.client 2), once := true }) ∧
    (∀ x, ∀ filed ∈ (machine.engine.executable x).subscriptions.listing,
      filed.2.listener ∉ [.client 1, .client 2]) ∧
    (∀ event delivery, ¬ machine.Sends event delivery) ∧
    machine.step.ReachesWhile (·.Reserves [.client 1, .client 2] 0
      (machine.step.engine.executable 0).subscriptions.listing) final ∧
    (machine.engine.executable 0).work.fault? = none ∧
    (machine.engine.executable 0).failedStatuses = [.failed, .failed] ∧
    movesOf 0 final.engine.journal.toList = [⟨0, .failed, .null⟩] ∧
    callsTo [.client 1, .client 2] machine.engine.journal.toList = [] ∧
    (callsTo [.client 1, .client 2] final.engine.journal.toList).map
      (fun call => (call.event, call.delivery.listener)) =
        [(⟨0, .failed, .null⟩, .client 2), (⟨0, .failed, .null⟩, .client 2)] := by
  let request : ReadyRequest :=
    { success := .client 1, failure := some (.client 2), once := true }
  let start := ({} : Machine).after [.openHost {} .silent,
    .build 0 (.custom "job" .ready [.failed, .failed] 7)]
  let machine := start.call (.onReady 0 request)
  let safe (state : Machine) : Bool := decide (state.Reserves [.client 1, .client 2] 0
    (machine.step.engine.executable 0).subscriptions.listing)
  let waiting := machine.step.halt clientTurn safe
  let final := waiting.after [.call (.setStatus 0 .failed), .accept, .finish .done, .accept,
    .finish .done] safe
  have reachable : machine.Reachable := .step (reaches_after _ _) (.call (by decide) (by decide))
  have first : machine.step.ReachesWhile (fun state => safe state = true) waiting :=
    reachesWhile_halt (by decide) (by decide)
  have second : waiting.ReachesWhile (fun state => safe state = true) final :=
    reachesWhile_after (by decide) (by decide)
  have run := (first.trans second).mono fun _ holds => of_decide_eq_true holds
  have bare : start.Reserves [.client 1, .client 2] 0 [] := by decide
  have quiet : machine.waitingBatches = [] := by decide
  have idle : machine.stack.flatMap Frame.sends = [] := by decide
  refine ⟨machine, final, reachable, rfl, fun x filed member own => ?_,
    fun _ _ => not_sends_of_idle quiet idle, run, by decide, by decide, by decide, by decide,
    by decide⟩
  cases (bare.only x filed member own).2

end Machine

end Readiness
