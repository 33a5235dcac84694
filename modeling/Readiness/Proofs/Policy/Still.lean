import Readiness.Proofs.Policy.Gist

/-! What each change of the store shows in the gist. -/

namespace Readiness

open List

variable {h : HostRef} {occurrence : Occurrence}

/-- A change that looks the same before and after a view can be made on either side. -/
theorem map_modify_of_comm {α β : Type*} {view : α → β} {change : α → α} {other : β → β}
    (comm : ∀ one, view (change one) = other (view one)) (list : List α) (place : Nat) :
    (list.modify place change).map view = (list.map view).modify place other := by
  induction list generalizing place with
  | nil => simp
  | cons head tail ih =>
    cases place with
    | zero => simp [comm]
    | succ place => simp [ih]

/-- Nothing is left out twice. -/
@[simp] theorem Host.still_still (host : Host) : host.still.still = host.still :=
  rfl

namespace Engine

variable {engine : Engine}

variable (engine : Engine)

/-- All executables are kept. -/
@[simp] theorem executable_still (e : ExecutableRef) :
    engine.still.executable e = engine.executable e :=
  rfl

/-- Of hosts some things are left out. -/
@[simp] theorem host_still (h : HostRef) : engine.still.host h = (engine.host h).still := by
  simp only [still, host, getD_eq_getElem?_getD, getElem?_map]
  cases engine.hosts[h]? <;> rfl

/-- What executables do is noted. -/
theorem still_note (deed : occurrence.isDeed = true) :
    (engine.note occurrence).still = engine.still.note occurrence := by
  have kept : (engine.journal.push occurrence).filter Occurrence.isDeed =
      (engine.journal.filter Occurrence.isDeed).push occurrence := by simp [deed]
  simp only [still, note, kept]

/-- A change of a host that does not look at what is left out shows. -/
theorem still_modifyHost (h : HostRef) {change : Host → Host}
    (comm : ∀ host, (change host).still = change host.still) :
    (engine.modifyHost h change).still = engine.still.modifyHost h change := by
  simp only [still, modifyHost, map_modify_of_comm comm]

/-- A host may change in what is left out. -/
theorem still_modifyHost_of_same (h : HostRef) {change : Host → Host}
    (same : ∀ host, (change host).still = host.still) :
    (engine.modifyHost h change).still = engine.still := by
  have comm : (engine.hosts.modify h change).map Host.still =
      (engine.hosts.map Host.still).modify h id := map_modify_of_comm same engine.hosts h
  simp only [still, modifyHost, comm, modify_id]

/-- What else happens does not show. -/
theorem still_note_minor (minor : occurrence.isDeed = false) :
    (engine.note occurrence).still = engine.still := by
  have kept : (engine.journal.push occurrence).filter Occurrence.isDeed =
      engine.journal.filter Occurrence.isDeed := by simp [minor]
  simp only [still, note, kept]

/-- Waking sessions does not show. -/
theorem still_wake (h : HostRef) : (engine.wake h).still = engine.still := by
  unfold wake
  split <;> exact engine.still_modifyHost_of_same h fun _ => rfl

/-- That a batch is put off does not show. -/
theorem still_defer (h : HostRef) (batch : Batch) :
    (engine.defer h batch).still = engine.still := by
  rw [defer, still_wake, still_note_minor _ rfl, still_modifyHost_of_same]
  exact fun _ => rfl

/-- Nothing is left out twice. -/
theorem still_still : engine.still.still = engine.still := by
  simp only [still, map_map, Array.filter_filter, Bool.and_self]
  rfl

/-- What a request for readiness does can be told from what is kept. -/
theorem still_listenReady (e : ExecutableRef) (request : ReadyRequest) :
    (engine.still.listenReady e request).still = (engine.listenReady e request).still := by
  have whole (store : Engine) (change : Executable → Executable) :
      (store.modifyExecutable e change).still = store.still.modifyExecutable e change := rfl
  simp only [listenReady, modifySubscriptions, executable_still, whole]
  -- An immediate call is put off on both sides, which does not show.
  by_cases immediate : ((engine.executable e).isReady && !request.onlyFuture) = true
  · simp only [immediate, if_true, still_defer]
    rw [show engine.still.spendBatch.still = engine.spendBatch.still from
      congrArg spendBatch engine.still_still]
  · simp only [immediate]
    rw [if_neg (by simp), if_neg (by simp), still_still]

/-- What executables do not do and listeners are not told does not show. -/
theorem gist_note_minor (minor : occurrence.isDeed = false) (plain : occurrence.told? = none) :
    (engine.note occurrence).gist = engine.gist := by
  refine Gist.ext (engine.still_note_minor minor) ?_ rfl rfl
  simp [gist, news, told, note, plain]

/-- What executables do is noted. -/
theorem gist_note (deed : occurrence.isDeed = true) :
    (engine.note occurrence).gist =
      { engine.gist with store := engine.gist.store.note occurrence } := by
  refine Gist.ext (engine.still_note deed) ?_ rfl rfl
  have plain : occurrence.told? = none := by cases occurrence <;> first | rfl | cases deed
  simp [gist, news, told, note, plain]

/-- The call of a listener shows as something told. -/
theorem gist_note_invoked (serial : Nat) (event : Event) (delivery : Delivery) :
    (engine.note (.invoked serial event delivery)).gist =
      { engine.gist with news := engine.gist.news + {(event, delivery)} } := by
  refine Gist.ext (engine.still_note_minor rfl) ?_ rfl rfl
  · have last : (engine.note (.invoked serial event delivery)).told =
        engine.told + {(event, delivery)} := by
      simp only [told, note, Array.toList_push, filterMap_append,
        ← Multiset.coe_add]
      rfl
    simp only [gist, news, last]
    rw [add_right_comm]
    rfl

/-- A host's news changes the sum of all by as much. -/
theorem news_modifyHost (opened : h < engine.hosts.length) (change : Host → Host) :
    (engine.modifyHost h change).news + (engine.host h).news =
      engine.news + (change (engine.host h)).news := by
  have sums := sum_map_modify Host.news change opened default
  simp only [news, told, modifyHost, add_assoc]
  exact congrArg _ sums

/-- A change of a host that does not look at what is left out shows. -/
theorem gist_modifyHost (h : HostRef) (change : Host → Host)
    (comm : ∀ host, (change host).still = change host.still)
    (same : ∀ host, (change host).news = host.news) :
    (engine.modifyHost h change).gist =
      { engine.gist with store := engine.gist.store.modifyHost h change } := by
  refine Gist.ext (engine.still_modifyHost h comm) ?_ rfl rfl
  have sums : (engine.hosts.modify h change).map Host.news =
      (engine.hosts.map Host.news).modify h id := map_modify_of_comm same engine.hosts h
  simp only [gist, news, told, modifyHost, sums, modify_id]

/-- A host may change in what is left out, but for the news. -/
theorem gist_modifyHost_of_same (h : HostRef) (change : Host → Host)
    (same : ∀ host, (change host).still = host.still)
    (kept : (change (engine.host h)).news = (engine.host h).news) :
    (engine.modifyHost h change).gist = engine.gist := by
  refine Gist.ext (engine.still_modifyHost_of_same h same) ?_ rfl rfl
  rcases Nat.lt_or_ge h engine.hosts.length with opened | beyond
  · have whole := engine.news_modifyHost opened change
    rw [kept] at whole
    exact add_right_cancel whole
  · simp [gist, news, told, modifyHost, modify_eq_self beyond]

/-- A batch that joins those that wait with a host brings its news along. -/
theorem gist_modifyHost_of_add (opened : h < engine.hosts.length) (change : Host → Host)
    {batch : Batch} (same : ∀ host, (change host).still = host.still)
    (joins : (change (engine.host h)).news = (engine.host h).news + batch.news) :
    (engine.modifyHost h change).gist =
      { engine.gist with news := engine.gist.news + batch.news } := by
  refine Gist.ext (engine.still_modifyHost_of_same h same) ?_ rfl rfl
  have whole := engine.news_modifyHost opened change
  rw [joins, ← add_assoc, add_right_comm] at whole
  exact add_right_cancel whole

/-- A batch that leaves those that wait with a host takes its news along. -/
theorem gist_modifyHost_of_take (opened : h < engine.hosts.length) (change : Host → Host)
    (batch : Batch) (same : ∀ host, (change host).still = host.still)
    (leaves : (engine.host h).news = (change (engine.host h)).news + batch.news) :
    { (engine.modifyHost h change).gist with
      news := (engine.modifyHost h change).gist.news + batch.news } = engine.gist := by
  refine Gist.ext (engine.still_modifyHost_of_same h same) ?_ rfl rfl
  have whole := engine.news_modifyHost opened change
  rw [leaves, ← add_assoc, add_right_comm] at whole
  exact add_right_cancel whole

/-- A change of an executable shows. -/
theorem gist_modifyExecutable (e : ExecutableRef) (change : Executable → Executable) :
    (engine.modifyExecutable e change).gist =
      { engine.gist with store := engine.gist.store.modifyExecutable e change } :=
  rfl

/-- A new executable shows. -/
theorem gist_addExecutable (added : Executable) :
    (engine.addExecutable added).gist =
      { engine.gist with store := engine.gist.store.addExecutable added } :=
  rfl

/-- A new executable with a temporary id shows. -/
theorem gist_addTemporary (h : HostRef) (work : Work) (handles : Nat) :
    (engine.addTemporary h work handles).gist =
      { engine.gist with store := engine.gist.store.addTemporary h work handles } := by
  have used := engine.gist_modifyHost h
    ({ · with nextTemporary := (engine.host h).nextTemporary + 1 }) (fun _ => rfl) fun _ => rfl
  simp only [addTemporary, gist_addExecutable, used]
  -- The id is made of the settings and of the number, which are all there.
  have same : engine.gist.store.host h = (engine.host h).still := engine.host_still h
  rw [same]
  rfl

/-- A new executable that is registered shows. -/
theorem gist_addRegistered (h : HostRef) (id : String) (work : Work) :
    (engine.addRegistered h id work).gist =
      { engine.gist with store := engine.gist.store.addRegistered h id work } := by
  rw [addRegistered, gist_note _ rfl, gist_modifyHost _ h (·.enrol id engine.executables.length)
    (fun _ => rfl) (fun _ => rfl), gist_addExecutable]
  rfl

/-- A new host shows without its policy. -/
theorem gist_addHost (settings : Settings) (observer : Observer) :
    (engine.addHost settings observer).gist =
      { engine.gist with
        store := engine.gist.store.addHost { settings with dispatch := default } observer } := by
  refine Gist.ext ?_ ?_ rfl rfl
  · simp only [gist, still, addHost, map_append]
    rfl
  · simp [gist, news, told, addHost, Host.news]

/-- A new wait shows without its report. -/
theorem gist_addWait (e : ExecutableRef) (report : Option Settlement) :
    (engine.addWait ⟨e, report⟩).gist =
      { engine.gist with store := engine.gist.store.addWait ⟨e, none⟩ } := by
  refine Gist.ext ?_ rfl rfl rfl
  simp only [gist, still, addWait, map_append]
  rfl

/-- What a wait comes to does not show. -/
theorem gist_settleWait (w : WaitRef) (settlement : Settlement) :
    (engine.settleWait w settlement).gist = engine.gist := by
  have comm : (engine.waits.modify w fun wait =>
      { wait with report := wait.report.or (some settlement) }).map ({ · with report := none }) =
        (engine.waits.map ({ · with report := none })).modify w id :=
    map_modify_of_comm (by exact fun _ => rfl) engine.waits w
  refine Gist.ext ?_ rfl rfl rfl
  simp only [gist, still, settleWait, comm, modify_id]

/-- Waking sessions does not show. -/
theorem gist_wake (h : HostRef) : (engine.wake h).gist = engine.gist := by
  unfold wake
  split
  · exact engine.gist_modifyHost_of_same h ({ · with waiters := _ }) (fun _ => rfl) rfl
  · exact engine.gist_modifyHost_of_same h ({ · with permit := true }) (fun _ => rfl) rfl

/-- The end of a session does not show. -/
theorem gist_endSession (k : SessionRef) : (engine.endSession k).gist = engine.gist := by
  have closed : (engine.modifySession k ({ · with phase := .finished })).gist = engine.gist := rfl
  simp only [endSession]
  split
  · refine (gist_modifyHost_of_same _ _ (fun host => { host with waiters := _ }) ?_ ?_).trans closed
    · exact fun _ => rfl
    · rfl
  · exact (gist_wake _ _).trans closed
  · exact closed

/-- A batch that is queued is news. -/
theorem gist_enqueue (opened : h < engine.hosts.length) (batch : Batch) :
    (engine.enqueue h batch).gist =
      { engine.gist with news := engine.gist.news + batch.news } := by
  refine (gist_note_minor _ rfl rfl).trans
    (engine.gist_modifyHost_of_add opened _ (fun _ => rfl) ?_)
  simp only [Host.news, map_append, sum_append, map_cons, map_nil,
    sum_cons, sum_nil]
  abel

/-- A batch that is put off is news. -/
theorem gist_defer (opened : h < engine.hosts.length) (batch : Batch) :
    (engine.defer h batch).gist =
      { engine.gist with news := engine.gist.news + batch.news } := by
  refine (gist_wake _ _).trans ((gist_note_minor _ rfl rfl).trans
    (engine.gist_modifyHost_of_add opened _ (fun _ => rfl) ?_))
  simp only [Host.news, map_append, sum_append, map_cons, map_nil,
    sum_cons, sum_nil]
  abel

/-- A transition shows. -/
theorem gist_transition (e : ExecutableRef) (status : Status) :
    (engine.transition e status).gist =
      { engine.gist with store := engine.gist.store.transition e status } := by
  have timed : (engine.still.host (engine.executable e).host).settings.timed =
      (engine.host (engine.executable e).host).settings.timed := by
    rw [host_still]
    rfl
  unfold transition modifyTally
  simp only
  rw [gist_modifyHost, gist_note _ rfl, gist_modifyExecutable]
  · refine Gist.ext ?_ rfl rfl rfl
    simp only [gist, executable_still, timed]
    rfl
  · -- Who counts as executing is all there.
    intro host
    simp only [Host.modifyTally]
    split
    · rfl
    · split <;> rfl
  · exact fun _ => rfl

/-- A request for readiness shows, and may be news at once. -/
theorem gist_listenReady {e : ExecutableRef}
    (opened : (engine.executable e).host < engine.hosts.length) (request : ReadyRequest) :
    (engine.listenReady e request).gist =
      { engine.gist with
        store := (engine.gist.store.listenReady e request).still
        news := engine.gist.news + Gist.grants (engine.executable e) e request } := by
  refine Gist.ext (engine.still_listenReady e request).symm ?_ rfl rfl
  have same (store : Engine) (change : Subscriptions → Subscriptions) :
      (store.modifySubscriptions e change).news = store.news := rfl
  simp only [gist, listenReady, Gist.grants, same]
  split
  · have put := engine.spendBatch.gist_defer opened (engine.batch
      ⟨e, (engine.executable e).readyStatus, (engine.executable e).readyStatus⟩
        [⟨request.success, none⟩])
    exact congrArg Gist.news put
  · exact (add_zero _).symm

end Engine

end Readiness
