import Readiness.Proofs.Machine.Course

/-! What follows a command that is begun, or an answer that is passed on: which calls are put on the
stack, and who has the turn then.

Calls are told apart by what they are for. What has to do with gates and destruction, and whatever
observers do, is not gone into.
-/

namespace Readiness

/-- What a call is for. -/
inductive Frame.Kind where
  | hold
  | work
  | listener
  | future
  | own
  | announce
  | pump
  | pumped
  | asked
  | guard
  | deliver
  | drain
  | foreign
  deriving DecidableEq

namespace Frame

/-- What a call is for. -/
def kind : Frame → Kind
  | .hold _ => .hold
  | .client (.work _ _) | .client (.completion _ _) => .work
  | .client (.listener _ _) => .listener
  | .client (.future _) => .future
  | .begin _ _ | .moves _ _ | .callBack _ _ | .gather _ | .conclude _ _ | .hand _ => .own
  | .announce _ _ _ => .announce
  | .pump _ _ => .pump
  | .pumped _ => .pumped
  | .asked _ => .asked
  | .guard _ _ _ => .guard
  | .deliver _ => .deliver
  | .drain _ => .drain
  | .client (.observer _ _) | .inspect _ | .arm _ _ _ _ | .examine _ _ _ _ _ | .relay _
  | .farewell _ => .foreign

/-- Which call can stand on which; nothing stands on a transition that is about to be told. -/
def Kind.suits : Kind → Kind → Bool
  | .hold, below => below = .work || below = .listener || below = .future
  | .work, below => below = .own
  | .listener, below => below = .hold || below = .guard
  | .future, below => below = .asked
  | .own, below | .announce, below => below = .hold || below = .own
  | .pump, below => below = .hold || below = .pumped
  | .pumped, below | .asked, below => below = .hold
  | .guard, below => below = .deliver
  | .deliver, below => below = .drain
  | .drain, below => below = .own || below = .pump
  | .foreign, _ => false

end Frame

/-- On which call a command can be carried out; nothing is synchronised or destroyed, and the
engine's own listeners for that are not called. -/
def Command.suits : Command → Frame.Kind → Bool
  | .invoke listener _, top => !listener.isWatcher && (top = .hold || top = .guard)
  | .pump _, top => top = .hold || top = .pumped
  | .poll _, top => top = .hold
  | .synchronise _ _ _ _, _ | .destroy _, _ => false
  | .execute _ _, top | .setStatus _ _, top | .report _ _, top | .fail _ _, top | .onReady _ _, top
  | .buildConstant _, top => top = .hold || top = .own

/-- No observer is client code. -/
def Engine.Passive (engine : Engine) : Prop :=
  ∀ h code, (engine.host h).observer ≠ .client code

/-- A host that keeps its observer stays passive. -/
theorem Engine.Passive.modifyHost {engine : Engine} (passive : engine.Passive) (h : HostRef)
    {change : Host → Host} (same : ∀ host, (change host).observer = host.observer) :
    (engine.modifyHost h change).Passive := by
  intro other code
  rw [host_modifyHost]
  split
  · rename_i here
    rw [same, here.1]
    exact passive other code
  · exact passive other code

/-- What follows when a call gets an answer: what stands in its place, and who has the turn. -/
inductive Frame.Sequel (engine : Engine) : Frame → List Frame → Control → Prop where
  | ends {frame : Frame} (answer : Answer) : Sequel engine frame [] (.resume answer)
  | client (callback : Callback) (answer : Answer) :
    Sequel engine (.client callback) [.client callback] (.returned answer)
  | own {frame next : Frame} {control : Control} (is : frame.kind = .own ∨ frame.kind = .announce)
    (own : next.kind = .own)
    (goes : (∃ answer, control = .resume answer) ∨
      ∃ e status, control = .perform (.setStatus e status)) : Sequel engine frame [next] control
  | work {frame next : Frame} {callback : Callback} (is : frame.kind = .own)
    (own : next.kind = .own) (work : (Frame.client callback).kind = .work) :
    Sequel engine frame [.client callback, next] .called
  | loop {frame next : Frame} (h : HostRef)
    (is : frame.kind = .announce ∧ next.kind = .own ∨ frame.kind = .pump ∧ next.kind = .pump) :
    Sequel engine frame [.drain h, next] (.resume .done)
  | pump (h : HostRef) (taken : Nat) :
    Sequel engine (.pump h taken) [.pump h (taken + 1)] (.resume .done)
  | take (h : HostRef) (batch : Batch) :
    Sequel engine (.drain h) [.deliver batch, .drain h] (.resume .done)
  | tell {batch : Batch} {delivery : Delivery} {others : List Delivery}
    (first : batch.deliveries = delivery :: others) :
    Sequel engine (.deliver batch) [.guard batch.serial batch.event delivery,
      .deliver { batch with deliveries := others }]
      (.perform (.invoke delivery.listener batch.event))
  | observe {frame : Frame} {callback : Callback} (noisy : ¬ engine.Passive) :
    Sequel engine frame [.client callback] .called
  | ask (k : SessionRef) (answer : Answer) : Sequel engine (.pumped k) [.asked k] (.resume answer)
  | future (k : SessionRef) (code : CodeRef) :
    Sequel engine (.pumped k) [.client (.future code), .asked k] .called
  | renew (k : SessionRef) (h : HostRef) :
    Sequel engine (.asked k) [.pumped k] (.perform (.pump h))
  | other {frame top : Frame} {rest : List Frame} {control : Control}
    (odd : frame.kind = .foreign ∨ ∃ e, frame = .gather e) :
    Sequel engine frame (top :: rest) control

/-- What follows when a command is begun: what is put on the stack, and who has the turn. -/
inductive Command.Sequel (engine : Engine) : Command → List Frame → Control → Prop where
  | ends {command : Command} (answer : Answer) : Sequel engine command [] (.resume answer)
  | put {command : Command} {next : Frame}
    (is : next.kind = .own ∨ next.kind = .announce ∨ next.kind = .pump)
    (fits : ∀ top, command.suits top = next.kind.suits top) :
    Sequel engine command [next] (.resume .done)
  | observe {command : Command} {next : Frame} {callback : Callback} (noisy : ¬ engine.Passive) :
    Sequel engine command [.client callback, next] .called
  | build (h : HostRef) (e : ExecutableRef) (statuses : List Status) :
    Sequel engine (.buildConstant h) [.moves e statuses, .hand e] (.resume .done)
  | execute (e : ExecutableRef) (request : ReadyRequest) (refresh : Refresh) :
    Sequel engine (.onReady e request) [] (.perform (.execute e refresh))
  | listener (code : CodeRef) (event : Event) :
    Sequel engine (.invoke (.client code) event) [.client (.listener code event)] .called
  /-- The future of a session is asked, as it is when deferred batches have been delivered. -/
  | ask {k : SessionRef} {pushed : List Frame} {control : Control}
    (asks : (Frame.pumped k).Sequel engine pushed control) : Sequel engine (.poll k) pushed control
  | run (k : SessionRef) (h : HostRef) : Sequel engine (.poll k) [.pumped k] (.perform (.pump h))
  | other {command : Command} {top : Frame} {rest : List Frame} {control : Control}
    (odd : ∀ kind, command.suits kind = false) : Sequel engine command (top :: rest) control

namespace Machine

/-- A machine goes on above the frames of another one as a sequel says. -/
def Continues (machine : Machine) (sequel : List Frame → Control → Prop) (next : Machine) : Prop :=
  ∃ pushed, next.stack = pushed ++ machine.stack ∧ sequel pushed next.control

/-- What was on the stack stays there. -/
theorem Continues.suffix {machine next : Machine} {sequel : List Frame → Control → Prop}
    (continues : machine.Continues sequel next) : machine.stack <:+ next.stack := by
  obtain ⟨pushed, stands, _⟩ := continues
  exact ⟨pushed, stands.symm⟩

variable (machine : Machine)

/-- An observer is told something, whether it is client code or not. -/
theorem notify_cases (h : HostRef) (notice : Notice) :
    (machine.notify h notice).stack = machine.stack ∧
        (machine.notify h notice).control = .resume .done ∨
      ∃ callback, (machine.notify h notice).stack = .client callback :: machine.stack ∧
        (machine.notify h notice).control = .called ∧ ¬ machine.engine.Passive := by
  unfold notify
  split
  · exact .inr ⟨_, rfl, rfl, fun passive => passive h _ ‹_›⟩
  · exact .inl ⟨rfl, rfl⟩
  · exact .inl ⟨rfl, rfl⟩

/-- A batch is put into the dispatch queue, whether a delivery loop is at work there or not. -/
theorem dispatch_cases (h : HostRef) (batch : Batch) :
    (machine.dispatch h batch).control = .resume .done ∧
      ((machine.dispatch h batch).stack = machine.stack ∨
        (machine.dispatch h batch).stack = .drain h :: machine.stack) := by
  unfold dispatch
  split
  · exact ⟨rfl, .inl rfl⟩
  · exact ⟨rfl, .inr rfl⟩

/-- What may follow when a listener returns. -/
theorem sequel_listenerReturned (batch : Nat) (event : Event) (delivery : Delivery)
    (fault : Option ListenerFault) (frame : Frame) :
    machine.Continues (frame.Sequel machine.engine)
      (machine.listenerReturned batch event delivery fault) := by
  simp only [listenerReturned]
  split
  · exact ⟨[], rfl, .ends _⟩
  · generalize counted : (machine.update _).note _ = after
    rcases after.notify_cases _ _ with ⟨stack, control⟩ | ⟨callback, stack, control, noisy⟩
    · exact ⟨[], by rw [stack, ← counted]; rfl, control ▸ .ends _⟩
    · refine ⟨[.client callback], by rw [stack, ← counted]; rfl, control ▸ .observe ?_⟩
      exact fun passive => noisy (counted ▸ passive.modifyHost _ fun _ => rfl)

/-- What may follow when work is begun. -/
theorem sequel_startWork (e : ExecutableRef) (engine : Engine) {frame : Frame}
    (own : frame.kind = .own) :
    machine.Continues (frame.Sequel engine) (machine.startWork e) := by
  unfold startWork
  split
  · exact ⟨[_], rfl, .own (.inl own) rfl (.inl ⟨_, rfl⟩)⟩
  · exact ⟨[_], rfl, .own (.inl own) rfl (.inl ⟨_, rfl⟩)⟩
  · exact ⟨[_], rfl, .own (.inl own) rfl (.inr ⟨_, _, rfl⟩)⟩
  · exact ⟨[_], rfl, .own (.inl own) rfl (.inr ⟨_, _, rfl⟩)⟩
  · exact ⟨[_, _], rfl, .work own rfl rfl⟩

/-- What may follow when a future is asked. -/
theorem sequel_askFuture (k : SessionRef) :
    machine.Continues ((Frame.pumped k).Sequel machine.engine) (machine.askFuture k) := by
  unfold askFuture
  split
  · exact ⟨[_, _], rfl, .future k _⟩
  · exact ⟨[_], rfl, .ask k _⟩

/-- What may follow when a future has answered. -/
theorem sequel_concludePoll (k : SessionRef) (finished : Bool) :
    machine.Continues ((Frame.asked k).Sequel machine.engine)
      (machine.concludePoll k finished) := by
  simp only [concludePoll]
  split
  · exact ⟨[], rfl, .ends _⟩
  · split
    · exact ⟨[_], rfl, .renew k _⟩
    · exact ⟨[], rfl, .ends _⟩
    · exact ⟨[], rfl, .ends _⟩
    · split
      · exact ⟨[_], rfl, .renew k _⟩
      · exact ⟨[], rfl, .ends _⟩

/-- The gate goes on after a dependency. -/
theorem examine_pushes (g : GateRef) (position : Nat) (d : ExecutableRef)
    (rest : List ExecutableRef) (onFailure : Option Listener) :
    (machine.examine g position d rest onFailure).stack =
      .arm g (position + 1) rest onFailure :: machine.stack := by
  simp only [examine]
  split
  · split <;> rfl
  · rfl

/-- A gate is done with, or goes on. -/
theorem sequel_arm (g : GateRef) (position : Nat) (rest : List ExecutableRef)
    (onFailure : Option Listener) :
    (machine.arm g position rest onFailure).stack = machine.stack ∧
        (machine.arm g position rest onFailure).control = .resume .done ∨
      ∃ top, (machine.arm g position rest onFailure).stack = top :: machine.stack := by
  unfold arm
  split
  · exact .inl ⟨rfl, rfl⟩
  · split
    · exact .inr ⟨_, examine_pushes ..⟩
    · exact .inr ⟨_, rfl⟩

/-- What follows when the frame on top gets an answer. -/
theorem sequel_receive (answer : Answer) (frame : Frame) :
    machine.Continues (frame.Sequel machine.engine) (machine.receive answer frame) := by
  cases frame with
  | client callback => exact ⟨[_], rfl, .client callback answer⟩
  | hold | conclude | relay | farewell | hand => exact ⟨[], rfl, .ends _⟩
  | begin e => exact sequel_startWork ((machine.note _).update _) e _ rfl
  | moves e rest =>
    cases rest with
    | nil => exact ⟨[], rfl, .ends _⟩
    | cons => exact ⟨[_], rfl, .own (.inl rfl) rfl (.inr ⟨_, _, rfl⟩)⟩
  | callBack => exact ⟨[_, _], rfl, .work rfl rfl rfl⟩
  | gather e => exact ⟨[_], rfl, .other (.inr ⟨e, rfl⟩)⟩
  | inspect =>
    simp only [receive]
    split
    · exact ⟨[], rfl, .ends _⟩
    · exact ⟨[_], rfl, .other (.inl rfl)⟩
  | arm g position rest onFailure =>
    rcases machine.sequel_arm g position rest onFailure with ⟨stack, control⟩ | ⟨top, stack⟩
    · exact ⟨[], stack, control ▸ .ends _⟩
    · exact ⟨[top], stack, .other (.inl rfl)⟩
  | examine => exact ⟨[_], examine_pushes .., .other (.inl rfl)⟩
  | announce e transition entries =>
    simp only [receive]
    split
    · exact ⟨[_], rfl, .own (.inr rfl) rfl (.inl ⟨_, rfl⟩)⟩
    · simp only [fire]
      split
      · exact ⟨[_], rfl, .own (.inr rfl) rfl (.inl ⟨_, rfl⟩)⟩
      · obtain ⟨control, stack | stack⟩ := dispatch_cases
          ((machine.push (.conclude e transition)).update Engine.spendBatch) _ _
        · exact ⟨[_], stack, .own (.inr rfl) rfl (.inl ⟨_, control⟩)⟩
        · exact ⟨[_, _], stack, control ▸ .loop _ (.inl ⟨rfl, rfl⟩)⟩
  | drain h =>
    simp only [receive]
    split
    · exact ⟨[], rfl, .ends _⟩
    · exact ⟨[_, _], rfl, .take h _⟩
  | deliver batch =>
    simp only [receive]
    split
    · exact ⟨[], rfl, .ends _⟩
    · split
      · exact ⟨[], rfl, .ends _⟩
      · exact ⟨[_, _], rfl, .tell ‹_›⟩
  | guard =>
    simp only [receive]
    split <;> exact sequel_listenerReturned ..
  | pump h taken =>
    simp only [receive]
    split
    · exact ⟨[], rfl, .ends _⟩
    · obtain ⟨control, stack | stack⟩ := dispatch_cases ((machine.update _).push _) h _
      · exact ⟨[_], stack, control ▸ .pump h taken⟩
      · exact ⟨[_, _], stack, control ▸ .loop h (.inr ⟨rfl, rfl⟩)⟩
  | pumped k => exact machine.sequel_askFuture k
  | asked k => exact sequel_concludePoll ..

/-- What may follow when a listener is called. -/
theorem sequel_callListener (listener : Listener) (event : Event) :
    machine.Continues ((Command.invoke listener event).Sequel machine.engine)
      (machine.callListener listener event) := by
  cases listener with
  | client code => exact ⟨[_], rfl, .listener code event⟩
  | waitReady | waitFailed => exact ⟨[], rfl, .ends _⟩
  | countdown g position =>
    simp only [callListener]
    split
    · split
      · exact ⟨[], rfl, .ends _⟩
      · split
        · exact ⟨[], rfl, .ends _⟩
        · exact ⟨[_], rfl, .other fun _ => rfl⟩
    · exact ⟨[], rfl, .ends _⟩
  | dependencyFailed =>
    simp only [callListener]
    split
    · exact ⟨[_], rfl, .other fun _ => rfl⟩
    · exact ⟨[], rfl, .ends _⟩

/-- What follows when a command is begun. -/
theorem sequel_start (command : Command) :
    machine.Continues (command.Sequel machine.engine) (machine.start command) := by
  -- An observer is told of an execution or a transition on top of the call for it.
  have told {after : Machine} {next : Frame} (h : HostRef) (notice : Notice)
      (stack : after.stack = next :: machine.stack)
      (same : machine.engine.Passive → after.engine.Passive)
      (puts : command.Sequel machine.engine [next] (.resume .done)) :
      machine.Continues (command.Sequel machine.engine) (after.notify h notice) := by
    rcases after.notify_cases h notice with ⟨top, control⟩ | ⟨callback, top, control, noisy⟩
    · exact ⟨[next], top.trans stack, control ▸ puts⟩
    · exact ⟨[.client callback, next], by rw [top, stack]; rfl,
        control ▸ .observe fun passive => noisy (same passive)⟩
  cases command with
  | execute e refresh =>
    simp only [start]
    split
    · exact ⟨[], rfl, .ends _⟩
    · exact told _ _ rfl (·.modifyHost _ fun _ => rfl) (.put (.inl rfl) fun _ => rfl)
  | setStatus e status =>
    simp only [start]
    split
    · exact told _ _ rfl (·.modifyHost _ fun _ => rfl) (.put (.inr (.inl rfl)) fun _ => rfl)
    · exact ⟨[], rfl, .ends _⟩
  | report | fail =>
    simp only [start]
    split
    · exact ⟨[_], rfl, .put (.inl rfl) fun _ => rfl⟩
    · exact ⟨[], rfl, .ends _⟩
  | synchronise e target dependencies onFailure =>
    simp only [start]
    split
    · exact ⟨[_], rfl, .other fun _ => rfl⟩
    · rcases sequel_arm (machine.update _) _ 0 dependencies onFailure with
        ⟨stack, control⟩ | ⟨top, stack⟩
      · exact ⟨[], stack, control ▸ .ends _⟩
      · exact ⟨[top], stack, .other fun _ => rfl⟩
  | onReady e request =>
    simp only [start]
    split
    · exact ⟨[], rfl, .execute e request _⟩
    · exact ⟨[], rfl, .ends _⟩
  | invoke listener event => exact machine.sequel_callListener listener event
  | destroy e =>
    simp only [start]
    split
    · exact ⟨[], rfl, .ends _⟩
    · rcases notify_cases ((machine.update _).push _) _ _ with ⟨stack, _⟩ | ⟨callback, stack, _⟩
      · exact ⟨[_], stack, .other fun _ => rfl⟩
      · exact ⟨[_, _], stack, .other fun _ => rfl⟩
  | buildConstant h => exact ⟨[_, _], rfl, .build h _ _⟩
  | pump h => exact ⟨[_], rfl, .put (.inr (.inr rfl)) fun _ => rfl⟩
  | poll k =>
    obtain ⟨pushed, stack, asks⟩ := machine.sequel_askFuture k
    simp only [start]
    split
    · exact ⟨[_], rfl, .run k _⟩
    · exact ⟨pushed, stack, .ask asks⟩
    · exact ⟨pushed, stack, .ask asks⟩
    · exact ⟨[], rfl, .ends _⟩

end Machine

end Readiness
