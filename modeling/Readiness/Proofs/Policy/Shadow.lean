import Readiness.Proofs.Policy.AllKept

/-! What each step of the engine shows in the gist: the next step of what executables do, or
nothing.
-/

namespace Readiness

open List Engine

variable {frame : Frame}

/-- The gist of a store together with calls that have not returned. -/
def Gist.under (gist : Gist) (stack : List Frame) : Gist :=
  { gist with
    news := gist.news + (stack.map Frame.news).sum
    duties := stack.filter Frame.isDeed }

/-- Of a frame of delivery only its news shows. -/
theorem Gist.under_cons_minor (gist : Gist) (minor : frame.isDeed = false) (stack : List Frame) :
    gist.under (frame :: stack) =
      { gist.under stack with news := (gist.under stack).news + frame.news } := by
  simp only [under, map_cons, sum_cons,
    filter_cons_of_neg (Bool.eq_false_iff.mp minor)]
  rw [add_assoc, add_comm frame.news]

/-- What executables do shows as a duty. -/
theorem Gist.under_cons_deed (gist : Gist) (deed : frame.isDeed = true) (stack : List Frame) :
    gist.under (frame :: stack) =
      { gist.under stack with
        news := (gist.under stack).news + frame.news
        duties := frame :: (gist.under stack).duties } := by
  simp only [under, filter_cons_of_pos deed, map_cons, sum_cons]
  rw [add_assoc, add_comm frame.news]

namespace Machine

variable {machine : Machine} {change : Engine → Engine} {store : Engine}
  {more : Multiset (Event × Delivery)}

/-- The gist of a machine that is neither about to do something nor panicking. -/
def shadow (machine : Machine) : Gist :=
  machine.engine.gist.under machine.stack

/-- Unless something is dropped, only the command is to be added. -/
theorem gist_eq_shadow (steady : machine.falls = false) :
    machine.gist = { machine.shadow with errand := machine.control.deed? } := by
  simp only [gist, steady]
  rfl

/-- An answer does not show. -/
theorem gist_resume (machine : Machine) (answer : Answer) :
    (machine.resume answer).gist = machine.shadow :=
  gist_eq_shadow rfl

/-- A command shows if executables ask for it. -/
theorem gist_perform (machine : Machine) (command : Command) :
    (machine.perform command).gist =
      { machine.shadow with errand := if command.isDeed then some command else none } :=
  gist_eq_shadow rfl

/-- A call of the client shows as its frame. -/
theorem gist_callClient (machine : Machine) (callback : Callback) :
    (machine.callClient callback).gist = (machine.push (.client callback)).shadow :=
  gist_eq_shadow rfl

/-- What does not show in the store does not show. -/
theorem shadow_update_of_same (same : (change machine.engine).gist = machine.engine.gist) :
    (machine.update change).shadow = machine.shadow := by
  rw [shadow, shadow, ← same]
  rfl

/-- What shows in the store shows. -/
theorem shadow_update (shows : (change machine.engine).gist = { machine.engine.gist with store }) :
    (machine.update change).shadow = { machine.shadow with store } := by
  rw [shadow, show (machine.update change).engine = change machine.engine from rfl, shows]
  rfl

/-- A change of the store that shows, and by which something is to be told. -/
theorem shadow_update_of_gist (told : (change machine.engine).gist =
      { machine.engine.gist with store, news := machine.engine.gist.news + more }) :
    (machine.update change).shadow =
      { machine.shadow with store, news := machine.shadow.news + more } := by
  rw [shadow, show (machine.update change).engine = change machine.engine from rfl, told]
  simp only [shadow, Gist.under, add_right_comm]
  rfl

/-- News in the store is news. -/
theorem shadow_update_of_news (told : (change machine.engine).gist =
      { machine.engine.gist with news := machine.engine.gist.news + more }) :
    (machine.update change).shadow = { machine.shadow with news := machine.shadow.news + more } :=
  shadow_update_of_gist told

/-- A change of the store by which a batch leaves those that wait. -/
theorem shadow_update_of_take {taken : Multiset (Event × Delivery)}
    (took : { (change machine.engine).gist with
      news := (change machine.engine).gist.news + taken } = machine.engine.gist) :
    { (machine.update change).shadow with
      news := (machine.update change).shadow.news + taken } = machine.shadow := by
  rw [shadow, shadow, ← took]
  simp only [Gist.under, add_right_comm]
  rfl

/-- Of a frame of delivery only its news shows. -/
theorem shadow_push_minor_of_news (minor : frame.isDeed = false) :
    (machine.push frame).shadow =
      { machine.shadow with news := machine.shadow.news + frame.news } :=
  machine.engine.gist.under_cons_minor minor machine.stack

/-- A frame of delivery without news does not show. -/
theorem shadow_push_minor (minor : frame.isDeed = false) (mute : frame.news = 0) :
    (machine.push frame).shadow = machine.shadow := by
  rw [shadow_push_minor_of_news minor, mute, add_zero]

/-- What executables do shows as a duty, with its news. -/
theorem shadow_push_of_news (deed : frame.isDeed = true) :
    (machine.push frame).shadow =
      { machine.shadow with
        news := machine.shadow.news + frame.news
        duties := frame :: machine.shadow.duties } :=
  machine.engine.gist.under_cons_deed deed machine.stack

/-- What executables do shows as a duty. -/
theorem shadow_push (deed : frame.isDeed = true) (mute : frame.news = 0) :
    (machine.push frame).shadow =
      { machine.shadow with duties := frame :: machine.shadow.duties } := by
  rw [shadow_push_of_news deed, mute, add_zero]

/-- A batch that is handed to the delivery loop is news. -/
theorem gist_dispatch {h : HostRef} (opened : h < machine.engine.hosts.length) (batch : Batch) :
    (machine.dispatch h batch).gist =
      { machine.shadow with news := machine.shadow.news + batch.news } := by
  have queued : (machine.update (·.enqueue h batch)).shadow =
      { machine.shadow with news := machine.shadow.news + batch.news } :=
    shadow_update_of_news (machine.engine.gist_enqueue opened batch)
  simp only [dispatch]
  split
  · rw [gist_resume, queued]
  · rw [gist_resume, shadow_push_minor rfl rfl, shadow_update_of_same, queued]
    exact gist_modifyHost_of_same _ h _ (fun _ => rfl) rfl

/-- A transition that is posted is news. -/
theorem gist_fire {e : ExecutableRef} (opened : (machine.engine.executable e).host <
    machine.engine.hosts.length) (transition : Transition) (entries : List Entry) :
    (machine.fire e transition entries).gist =
      { machine.shadow with
        store := machine.shadow.store.spendBatch
        news := machine.shadow.news + transition.news e entries } := by
  have spent : (machine.update Engine.spendBatch).shadow =
      { machine.shadow with store := machine.shadow.store.spendBatch } := rfl
  -- The order within the batch does not show.
  have same (host : Host) : (machine.engine.batch ⟨e, transition.new, transition.old⟩
      (host.arrange (entries.map fun entry => ⟨entry.listener, some entry.sequence⟩))).news =
        transition.news e entries := by
    refine Multiset.coe_eq_coe.mpr (((host.arrange_perm _).map _).trans ?_)
    rw [map_map]
    exact .refl _
  have opened : (machine.engine.executable e).host <
      (machine.update Engine.spendBatch).engine.hosts.length := opened
  simp only [fire]
  split
  · rw [gist_resume, shadow_update_of_news (gist_defer _ opened _), spent, same]
  · rw [gist_dispatch opened, spent, same]

/-- The call of a listener does not show. -/
theorem gist_callListener {listener : Listener} (foreign : listener.isWatcher = false)
    (event : Event) : (machine.callListener listener event).gist = machine.shadow := by
  cases listener with
  | client code =>
    rw [callListener, gist_callClient]
    exact shadow_push_minor rfl rfl
  | waitReady w | waitFailed w =>
    rw [callListener, gist_resume]
    exact shadow_update_of_same (machine.engine.gist_settleWait w _)
  | countdown g position => cases foreign
  | dependencyFailed composite => cases foreign

/-- The end of the call does not show. -/
theorem gist_listenerReturned (passive : machine.engine.Passive) (serial : Nat) (event : Event)
    (delivery : Delivery) (fault : Option ListenerFault) :
    (machine.listenerReturned serial event delivery fault).gist = machine.shadow := by
  have counted (h : HostRef) : ((machine.update (·.modifyTally h
      (·.countInvocation fault.isNone))).note (.returned serial event delivery fault)).shadow =
        machine.shadow := by
    rw [note, shadow_update_of_same (gist_note_minor _ rfl rfl)]
    exact shadow_update_of_same (machine.engine.gist_modifyHost_of_same h _ (fun _ => rfl) rfl)
  simp only [listenerReturned]
  split
  · rw [gist_resume, counted]
  · rw [notify_of_passive, gist_resume, note,
      shadow_update_of_same (gist_note_minor _ rfl rfl), counted]
    exact passive.modifyHost _ fun _ => rfl

section

variable (machine : Machine)

/-- Polling a future does not show. -/
theorem gist_askFuture (k : SessionRef) : (machine.askFuture k).gist = machine.shadow := by
  simp only [askFuture]
  split
  · rw [gist_callClient, shadow_push_minor rfl rfl, shadow_push_minor rfl rfl]
  · rw [gist_resume, shadow_push_minor rfl rfl]

/-- Delivering what was put off does not show. -/
theorem gist_runSession (k : SessionRef) : (machine.runSession k).gist = machine.shadow := by
  rw [runSession, gist_perform, shadow_push_minor rfl rfl]
  rfl

/-- The end of a poll does not show. -/
theorem gist_concludePoll (k : SessionRef) (finished : Bool) :
    (machine.concludePoll k finished).gist = machine.shadow := by
  simp only [concludePoll]
  split
  · rw [gist_resume, shadow_update_of_same (machine.engine.gist_endSession k)]
  · split
    · rw [gist_runSession]
      rfl
    · exact gist_resume _ _
    · exact gist_resume _ _
    · split
      · rw [gist_runSession, shadow_update_of_same]
        exact machine.engine.gist_modifyHost_of_same _ _ (fun _ => rfl) rfl
      · rw [gist_resume, shadow_update_of_same]
        exact gist_modifyHost_of_same _ _ _ (fun _ => rfl) rfl

/-- Starting work shows. -/
theorem gist_startWork (e : ExecutableRef) :
    (machine.startWork e).gist = machine.shadow.startWork e := by
  have same : (machine.shadow.store.executable e).work = (machine.engine.executable e).work := rfl
  rw [startWork, Gist.startWork, same]
  cases (machine.engine.executable e).work with
  | constant | manual completes => exact (gist_resume _ _).trans (shadow_push rfl rfl)
  | callback code | composite dependencies =>
    simp only
    rw [gist_perform, shadow_push rfl rfl]
    rfl
  | custom name success failures code =>
    simp only
    rw [gist_callClient, shadow_push rfl rfl, shadow_push rfl rfl]

/-- What executables do is noted. -/
theorem shadow_note {occurrence : Occurrence} (deed : occurrence.isDeed = true) :
    (machine.note occurrence).shadow =
      { machine.shadow with store := machine.shadow.store.note occurrence } :=
  shadow_update (machine.engine.gist_note deed)

/-- A change of an executable shows. -/
theorem shadow_modifyExecutable (e : ExecutableRef) (change : Executable → Executable) :
    (machine.update (·.modifyExecutable e change)).shadow =
      { machine.shadow with store := machine.shadow.store.modifyExecutable e change } :=
  rfl

end

/-- That the observer is told is noted. -/
theorem gist_notify (passive : machine.engine.Passive) (h : HostRef) {notice : Notice}
    (deed : (Occurrence.observed h notice).isDeed = true) : (machine.notify h notice).gist =
      { machine.shadow with store := machine.shadow.store.note (.observed h notice) } := by
  rw [notify_of_passive passive, gist_resume, shadow_note machine deed]

/-- A command that is part of what executables do shows as such; everybody in the store is alive. -/
theorem gist_start {command : Command} (deed : command.isDeed = true)
    (known : command.Known machine.engine) (sound : machine.engine.Sound)
    (passive : machine.engine.Passive)
    (alive : ∀ e, machine.isAlive e = true ↔ e < machine.engine.executables.length)
    (plain : ∀ e target dependencies onFailure,
      command ≠ .synchronise e target dependencies onFailure)
    (spares : ∀ e, command ≠ .destroy e) :
    (machine.start command).gist = machine.shadow.start command := by
  have same (e : ExecutableRef) : machine.shadow.store.executable e = machine.engine.executable e :=
    rfl
  have length : machine.shadow.store.executables.length = machine.engine.executables.length := rfl
  cases command with
  | execute e refresh =>
    simp only [start, Gist.start, same]
    split
    · exact gist_resume _ _
    · have begun : (machine.engine.modifyExecutable e (·.begin machine.engine.clock)).gist =
          { machine.engine.gist with store :=
            machine.engine.gist.store.modifyExecutable e (·.begin machine.engine.clock) } := rfl
      have counted := gist_modifyHost (machine.engine.modifyExecutable e
        (·.begin machine.engine.clock)) (machine.engine.executable e).host
          (·.modifyTally Tally.countExecution) (fun _ => rfl) fun _ => rfl
      rw [begun] at counted
      rw [gist_notify _ _ rfl, shadow_push rfl rfl, shadow_update counted]
      · rfl
      · exact passive.modifyHost _ fun _ => rfl
  | setStatus e status =>
    simp only [start, Gist.start, same]
    split
    · rw [gist_notify _ _ rfl, shadow_push_of_news rfl,
        shadow_update (machine.engine.gist_transition e status)]
      · rfl
      · exact passive.modifyHost _ fun _ => rfl
    · exact gist_resume _ _
  | report e status =>
    simp only [start, Gist.start, alive, length]
    by_cases built : e < machine.engine.executables.length
    · rw [if_pos built, if_pos built, gist_resume, shadow_push rfl rfl]
      rfl
    · rw [if_neg built, if_neg built]
      exact gist_resume _ _
  | fail e reason =>
    simp only [start, Gist.start, alive, length]
    by_cases built : e < machine.engine.executables.length
    · rw [if_pos built, if_pos built, gist_resume, shadow_push rfl rfl, shadow_note _ rfl]
      rfl
    · rw [if_neg built, if_neg built]
      exact gist_resume _ _
  | synchronise e target dependencies onFailure => exact absurd rfl (plain _ _ _ _)
  | onReady e request =>
    have built := known.executables e mem_cons_self
    have listening : (machine.update (·.listenReady e request)).shadow =
        { machine.shadow with
          store := (machine.shadow.store.listenReady e request).still
          news := machine.shadow.news + Gist.grants (machine.engine.executable e) e request } :=
      shadow_update_of_gist (machine.engine.gist_listenReady (sound.hosted e built) request)
    simp only [start, Gist.start, same]
    split
    · rw [gist_perform, listening]
      rfl
    · rw [gist_resume, listening]
      rfl
  | destroy e => exact absurd rfl (spares e)
  | buildConstant h =>
    have added := machine.engine.gist_addTemporary h .constant 0
    simp only [start, Gist.start]
    rw [gist_resume, shadow_push rfl rfl, shadow_push rfl rfl, shadow_update added]
    rfl
  | invoke listener event | pump h | poll k => cases deed

/-- A call that goes on, of those that are part of what executables do, shows as such; nobody
synchronises. -/
theorem gist_receive (deed : frame.isDeed = true) (ours : frame.isClient = false)
    (plain : frame.kind ≠ .foreign) (known : frame.Known machine.engine)
    (sound : machine.engine.Sound) (answer : Answer)
    (apart : ∀ e target dependencies onFailure, (machine.receive answer frame).control ≠
      .perform (.synchronise e target dependencies onFailure)) :
    (machine.receive answer frame).gist =
      Gist.receive { machine.shadow with news := machine.shadow.news + frame.news } frame := by
  cases frame with
  | begin e status =>
    simp only [receive, Gist.receive, Frame.news, add_zero]
    rw [gist_startWork, shadow_modifyExecutable, shadow_note _ rfl]
  | moves e statuses =>
    cases statuses with
    | nil =>
      simp only [receive, Gist.receive, Frame.news, add_zero]
      exact gist_resume _ _
    | cons status others =>
      simp only [receive, Gist.receive, Frame.news, add_zero]
      rw [gist_perform, shadow_push rfl rfl]
      rfl
  | callBack e code =>
    simp only [receive, Gist.receive, Frame.news, add_zero]
    rw [gist_callClient, shadow_push rfl rfl, shadow_push rfl rfl]
  | gather e => exact absurd rfl (apart _ _ _ _)
  | announce e transition entries =>
    have opened := sound.hosted e (known.executables e mem_cons_self)
    have concluding : (machine.push (.conclude e transition)).shadow =
        { machine.shadow with duties := .conclude e transition :: machine.shadow.duties } :=
      shadow_push rfl rfl
    simp only [receive, Gist.receive, Frame.news]
    cases entries with
    | nil =>
      simp only [isEmpty_nil, if_true, gist_resume, concluding]
      simp [Transition.news]
    | cons entry others =>
      rw [if_neg (by simp), if_neg (by simp), gist_fire, concluding]
      exact opened
  | conclude e transition =>
    simp only [receive, Gist.receive, Frame.news, add_zero]
    exact gist_resume _ _
  | hand e =>
    simp only [receive, Gist.receive, Frame.news, add_zero]
    rw [gist_resume]
    rfl
  | client callback => cases ours
  | inspect e | arm g position rest onFailure | examine g position dependency rest onFailure
  | relay e | farewell e => exact absurd rfl plain
  | hold executables | drain h | deliver batch | guard serial event delivery | pump h taken
  | pumped k
  | asked k => cases deed

/-- A call that goes on, of those that have to do with delivery and polling, does not show. -/
theorem gist_receive_minor (minor : frame.isDeed = false)
    (spared : ∀ e, (machine.engine.executable e).destroyed = false)
    (passive : machine.engine.Passive) (answer : Answer) : (machine.receive answer frame).gist =
      { machine.shadow with news := machine.shadow.news + frame.news } := by
  cases frame with
  | client callback =>
    have back : (machine.receive answer (.client callback)).gist =
      (machine.push (.client callback)).shadow := gist_eq_shadow rfl
    rw [back, shadow_push_minor_of_news minor]
  | hold executables =>
    simp only [receive, Frame.news, add_zero]
    exact gist_resume _ _
  | drain h =>
    simp only [receive, Frame.news, add_zero]
    split
    · rw [gist_resume, shadow_update_of_same]
      exact machine.engine.gist_modifyHost_of_same h _ (fun _ => rfl) rfl
    · rename_i batch rest queue
      have opened := host_lt_of_queue queue
      have took := machine.engine.gist_modifyHost_of_take opened ({ · with queue := rest })
        batch (fun _ => rfl) (by
          simp only [Host.news, queue, cons_append, map_cons, sum_cons]
          exact add_comm _ _)
      rw [gist_resume, shadow_push_minor_of_news rfl, shadow_push_minor rfl rfl, note,
        shadow_update_of_same (gist_note_minor _ rfl rfl)]
      exact shadow_update_of_take took
  | deliver batch =>
    simp only [receive, Frame.news]
    split
    · rename_i deliveries
      rw [gist_resume]
      simp [Batch.news, deliveries]
    · rename_i delivery rest deliveries
      rw [if_neg (by simp [spared]), gist_perform, note,
        shadow_update_of_news (gist_note_invoked _ _ _ _), shadow_push_minor rfl rfl,
        shadow_push_minor_of_news rfl]
      have whole : batch.news =
          Batch.news { batch with deliveries := rest } + {(batch.event, delivery)} := by
        simp only [Batch.news, deliveries, map_cons, ← Multiset.cons_coe]
        rw [add_comm]
        rfl
      rw [whole, ← add_assoc]
      rfl
  | guard serial event delivery =>
    simp only [receive, Frame.news, add_zero]
    split <;> exact gist_listenerReturned passive _ _ _ _
  | pump h taken =>
    simp only [receive, Frame.news, add_zero]
    split
    · exact gist_resume _ _
    · rename_i batch rest deferred
      have opened := host_lt_of_deferred deferred
      have took := machine.engine.gist_modifyHost_of_take opened ({ · with deferred := rest })
        batch (fun _ => rfl) (by
          simp only [Host.news, deferred, map_append, sum_append, map_cons,
            sum_cons]
          abel)
      rw [gist_dispatch, shadow_push_minor rfl rfl]
      · exact shadow_update_of_take took
      · simpa [push, update, Engine.modifyHost] using opened
  | pumped k =>
    simp only [receive, Frame.news, add_zero]
    exact gist_askFuture machine k
  | asked k =>
    simp only [receive, Frame.news, add_zero]
    exact gist_concludePoll machine k _
  | begin e status | moves e statuses | callBack e code | gather e | inspect e
  | arm g position rest onFailure | examine g position dependency rest onFailure
  | announce e transition entries | conclude e transition | relay e | farewell e | hand e =>
    cases minor

end Machine

end Readiness
