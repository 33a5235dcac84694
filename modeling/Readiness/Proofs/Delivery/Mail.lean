import Readiness.Proofs.Delivery.Filed
import Readiness.Proofs.Machine.Drained

/-! The mail of one entry: what its listener has been told, and what is on its way to it.

News of a transition is announced first, waits with the host then, and is delivered at last. Seen
from one entry that is a way of few stages, and every step takes some news from one to the next.
-/

namespace Readiness

open List

variable {store : Engine} {told : List Frame} {e : ExecutableRef}

/-- Whom a notice is about. -/
def Notice.about : Notice → ExecutableRef
  | .executed e _ | .transitioned e _ _ | .listenerFailed e _ _ | .destroyed e => e

/-- The transition of one executable that is told of. -/
def Occurrence.move? (e : ExecutableRef) : Occurrence → Option Event
  | .transitioned other old new => if other = e then some ⟨e, new, old⟩ else none
  | _ => none

/-- The transitions of an executable so far. -/
def movesOf (e : ExecutableRef) (journal : List Occurrence) : List Event :=
  journal.filterMap (Occurrence.move? e)

/-- Whether a call is made for one entry of an executable. -/
def Call.isFor (e : ExecutableRef) (n : Nat) (call : Call) : Bool :=
  call.event.source == e && call.delivery.entry == some n

/-- What the listener of one entry has been called with. -/
def toldTo (e : ExecutableRef) (n : Nat) (journal : List Occurrence) : List Event :=
  ((callsIn journal).filter (Call.isFor e n)).map Call.event

/-- What a batch tells one entry. -/
def Batch.newsTo (e : ExecutableRef) (n : Nat) (batch : Batch) : List Event :=
  if batch.event.source = e then
    List.replicate (batch.deliveries.countP (·.entry == some n)) batch.event
  else []

/-- What a transition tells one entry of those that are due. -/
def Transition.newsTo (transition : Transition) (e : ExecutableRef) (n : Nat)
    (entries : List Entry) : List Event :=
  List.replicate (entries.countP (·.sequence == n)) (transition.event e)

namespace Frame

/-- What one entry is told by the transition that is being announced. -/
def announcedTo (e : ExecutableRef) (n : Nat) : Frame → List Event
  | .announce other transition entries =>
    if other = e then transition.newsTo e n entries else []
  | _ => []

/-- What one entry is told by the batch that is being delivered. -/
def deliveredTo (e : ExecutableRef) (n : Nat) : Frame → List Event
  | .deliver batch => batch.newsTo e n
  | _ => []

end Frame

/-- What one entry of an executable has been told, and what is on its way to it. -/
@[ext] structure Mail where
  /-- The entries of the executable. -/
  entries : Subscriptions
  /-- The transitions of the executable. -/
  moved : List Event
  /-- What the listener has been called with. -/
  told : List Event
  /-- What is left of the batches that are being delivered. -/
  current : List Event
  /-- What waits in the dispatch queue. -/
  queued : List Event
  /-- What waits in the deferred queue. -/
  deferred : List Event
  /-- What the observer has to be told first. -/
  announced : List Event

/-- What the traffic holds for one entry of an executable. -/
def Traffic.mail (traffic : Traffic) (h : HostRef) (e : ExecutableRef) (n : Nat) : Mail where
  entries := traffic.subscriptions e
  moved := movesOf e traffic.journal
  told := toldTo e n traffic.journal
  current := traffic.calls.flatMap (Frame.deliveredTo e n)
  queued := (traffic.depot h).queue.flatMap (Batch.newsTo e n)
  deferred := (traffic.depot h).deferred.flatMap (Batch.newsTo e n)
  announced := traffic.calls.flatMap (Frame.announcedTo e n)

/-- What the stages of the mail leave open about a step. -/
structure Postage where
  /-- News gets lost. -/
  lost : Prop
  /-- Batches may be put off. -/
  defers : Prop
  /-- No observer that is told of the executable calls the engine. -/
  passive : Prop

/-- What can become of the mail in one step. -/
inductive Mail.Step (given : Postage) (e : ExecutableRef) (n : Nat) (mail : Mail) :
    Mail → Prop where
  | keep : Step given e n mail mail
  | subscribe {grown : Subscriptions} (more : mail.entries.Grown grown) :
    Step given e n mail { mail with entries := grown }
  | unsubscribe (keep : Status → Entry → Bool) :
    Step given e n mail { mail with entries := mail.entries.restrict keep }
  | clear : Step given e n mail { mail with entries := mail.entries.clear }
  | move {transition : Transition} (real : transition.new ≠ .null)
    (alone : given.passive → mail.announced = []) :
    Step given e n mail
      { mail with
        entries := mail.entries.settle transition.new
        moved := mail.moved ++ [transition.event e]
        announced :=
          transition.newsTo e n (mail.entries.due transition.new) ++ mail.announced }
  | post {news rest : List Event} (first : mail.announced = news ++ rest) :
    Step given e n mail { mail with announced := rest, queued := mail.queued ++ news }
  | putOff {news rest : List Event} (first : mail.announced = news ++ rest) (later : given.defers) :
    Step given e n mail { mail with announced := rest, deferred := mail.deferred ++ news }
  | pump {news rest : List Event} (first : mail.deferred = news ++ rest) :
    Step given e n mail { mail with deferred := rest, queued := mail.queued ++ news }
  | take {news rest : List Event} (first : mail.queued = news ++ rest)
    (idle : mail.current = []) : Step given e n mail { mail with queued := rest, current := news }
  | invoke {event : Event} {rest : List Event} (first : mail.current = event :: rest) :
    Step given e n mail { mail with told := mail.told ++ [event], current := rest }
  | hush {news rest : List Event} (first : mail.announced = news ++ rest)
    (lost : given.lost) : Step given e n mail { mail with announced := rest }
  | finish {news rest : List Event} (first : mail.current = news ++ rest)
    (lost : given.lost) : Step given e n mail { mail with current := rest }

theorem Mail.Step.of_eq {given : Postage} {n : Nat} {mail next after : Mail}
    (step : Mail.Step given e n mail next) (same : after = next) : Mail.Step given e n mail after :=
  same ▸ step

section News

variable {n : Nat} {journal : List Occurrence} {occurrence : Occurrence} {batch : Batch}

theorem movesOf_note (other : occurrence.move? e = none) :
    movesOf e (journal ++ [occurrence]) = movesOf e journal := by
  simp [movesOf, other]

theorem toldTo_note (other : occurrence.call? = none) :
    toldTo e n (journal ++ [occurrence]) = toldTo e n journal := by
  rw [toldTo, callsIn_note other]
  rfl

theorem Batch.newsTo_of_ne (other : batch.event.source ≠ e) : batch.newsTo e n = [] :=
  if_neg other

theorem Batch.newsTo_immediate (serial : Nat) (event : Event) (listener : Listener) :
    Batch.newsTo e n ⟨serial, event, [⟨listener, none⟩]⟩ = [] := by
  unfold Batch.newsTo
  split <;> rfl

/-- The batch of a transition tells an entry what has been announced to it. -/
theorem Surroundings.batch_newsTo (given : Surroundings) (traffic : Traffic) (other : ExecutableRef)
    (transition : Transition) (entries : List Entry) :
    (given.batch traffic other transition entries).newsTo e n =
      Frame.announcedTo e n (.announce other transition entries) := by
  have arranged (host : Host) (deliveries : List Delivery) :
      (host.arrange deliveries).Perm deliveries := by
    rw [Host.arrange_eq_rotate]
    split
    · exact rotate_perm ..
    · exact .refl _
  have counted : (given.batch traffic other transition entries).deliveries.countP
      (·.entry == some n) = entries.countP (·.sequence == n) := by
    refine ((arranged _ _).countP_eq _).trans ?_
    rw [countP_map]
    exact countP_congr fun entry _ => by simp [Entry.delivery]
  by_cases own : other = e
  · subst own
    simp only [Frame.announcedTo, if_true, Transition.newsTo, ← counted]
    exact if_pos rfl
  · simp only [Frame.announcedTo, own, if_false]
    exact Batch.newsTo_of_ne own

/-- The next call of a batch is the first thing that it has to tell, or for another entry. -/
theorem Batch.newsTo_invoke {delivery : Delivery} {others : List Delivery}
    (next : batch.deliveries = delivery :: others) (journal : List Occurrence) :
    toldTo e n (journal ++ [.invoked batch.serial batch.event delivery]) =
          toldTo e n journal ++ [batch.event] ∧
        batch.newsTo e n = batch.event :: Batch.newsTo e n { batch with deliveries := others } ∨
      toldTo e n (journal ++ [.invoked batch.serial batch.event delivery]) = toldTo e n journal ∧
        batch.newsTo e n = Batch.newsTo e n { batch with deliveries := others } := by
  rw [toldTo, callsIn_invoked, filter_append, map_append]
  by_cases own : batch.event.source = e
  · by_cases entry : delivery.entry = some n
    · left
      simp [toldTo, Batch.newsTo, Call.isFor, own, entry, next, replicate_succ]
    · right
      simp [toldTo, Batch.newsTo, Call.isFor, own, entry, next]
  · right
    simp [toldTo, Batch.newsTo, Call.isFor, own]

theorem Notice.Told.flatMap_eq {notice : Notice} (telling : notice.Told told)
    (look : Frame → List Event) (hidden : ∀ callback, look (.client callback) = [])
    (calls : List Frame) : (told ++ calls).flatMap look = calls.flatMap look := by
  rcases telling with rfl | ⟨code, rfl⟩
  · rfl
  · simp [hidden]

end News

/-- An announcement is on top of the calls, or under the observer that is told of it. -/
theorem Stacked.announce_on_top {calls : List Frame} {transition : Transition}
    {entries : List Entry} (stacked : Stacked store calls)
    (member : .announce e transition entries ∈ calls) :
    (∃ below, calls = .announce e transition entries :: below) ∨
      ∃ above code notice below, notice.about = e ∧
        calls = above ++ .client (.observer code notice) :: below := by
  have deeper {top : Frame} {rest : List Frame}
      (under : ∃ above code notice below, notice.about = e ∧
        rest = above ++ .client (.observer code notice) :: below) :
      ∃ above code notice below, notice.about = e ∧
        top :: rest = above ++ .client (.observer code notice) :: below := by
    obtain ⟨above, code, notice, below, about, split⟩ := under
    exact ⟨top :: above, code, notice, below, about, by rw [split]; rfl⟩
  have below {top : Frame} {rest : List Frame} (other : .announce e transition entries ≠ top)
      (member : .announce e transition entries ∈ top :: rest) :
      .announce e transition entries ∈ rest :=
    (mem_cons.mp member).resolve_left other
  -- Nothing but an observer can stand on an announcement.
  have calmly {rest : List Frame} (calm : ∀ frame ∈ rest.head?, frame.isTelling = false) :
      ¬ ∃ below, rest = .announce e transition entries :: below := by
    rintro ⟨below, rfl⟩
    cases calm _ rfl
  induction stacked with
  | empty => cases member
  | observer calm _ ih | drain calm _ ih =>
    exact .inr (deeper ((ih (below (by simp) member)).resolve_left (calmly calm)))
  | announce calm _ ih =>
    rcases mem_cons.mp member with same | old
    · exact .inl ⟨_, by rw [same]⟩
    · exact .inr (deeper ((ih old).resolve_left (calmly calm)))
  | told _ ih =>
    rcases ih (below (by simp) member) with ⟨_, same⟩ | under
    · cases same
      exact .inr ⟨[], _, _, _, rfl, rfl⟩
    · exact .inr (deeper under)
  | deliver _ _ ih | guard _ ih | fault _ ih =>
    rcases ih (below (by simp) member) with ⟨_, same⟩ | under
    · cases same
    · exact .inr (deeper under)

namespace Traffic

/-- Nothing stands on an observer that is told of an executable. -/
def Undisturbed (traffic : Traffic) (e : ExecutableRef) : Prop :=
  ∀ above code notice below, traffic.calls = above ++ .client (.observer code notice) :: below →
    notice.about = e → above = []

variable {given : Surroundings} {traffic next : Traffic} {n : Nat} {h other : HostRef}
  {batch : Batch} {calls : List Frame}

/-- While observers make no calls, nothing is being announced when the next call begins. -/
theorem announced_eq_nil (stacked : Stacked given.store traffic.calls) (calm : traffic.Calm)
    (free : given.Free traffic) (undisturbed : traffic.Undisturbed e)
    (passive : ∀ notice, notice.about = e → ¬ given.reenters notice) :
    traffic.calls.flatMap (Frame.announcedTo e n) = [] := by
  rw [flatMap_eq_nil_iff]
  intro frame member
  cases frame with
  | announce other transition entries =>
    refine if_neg fun same => ?_
    subst same
    rcases stacked.announce_on_top member with ⟨below, top⟩ |
      ⟨above, code, notice, below, about, top⟩
    · cases calm _ (by rw [top]; rfl)
    · rw [undisturbed above code notice below top about] at top
      exact passive notice about (free code notice below top)
  | _ => rfl

/-- Where no delivery loop of a host is at work, no entry is being told of its executables. -/
theorem current_eq_nil (stacked : Stacked store calls) (home : (store.executable e).host = h)
    (idle : .drain h ∉ calls) : calls.flatMap (Frame.deliveredTo e n) = [] := by
  rw [flatMap_eq_nil_iff]
  intro frame member
  cases frame with
  | deliver batch =>
    refine Batch.newsTo_of_ne fun same => ?_
    have none_here := filterMap_eq_nil_iff.mp (stacked.batches_eq_nil idle) _ member
    simp [Frame.batch?, same, home] at none_here
  | _ => rfl

/-- What the rules leave open about the mail for an executable. -/
def postage (given : Surroundings) (traffic : Traffic) (h : HostRef) (e : ExecutableRef) :
    Postage where
  lost := traffic.destroyed e = true ∨
    ∃ frame, given.loses frame ∧ frame.source? = some e ∧ frame.isTelling = true
  defers := (traffic.depot h).settings.dispatch.deferReady = true
  passive := traffic.Undisturbed e ∧ ∀ notice, notice.about = e → ¬ given.reenters notice

theorem mail_calls (current : calls.flatMap (Frame.deliveredTo e n) =
      traffic.calls.flatMap (Frame.deliveredTo e n))
    (announced : calls.flatMap (Frame.announcedTo e n) =
      traffic.calls.flatMap (Frame.announcedTo e n)) :
    ({ traffic with calls := calls } : Traffic).mail h e n = traffic.mail h e n :=
  Mail.ext rfl rfl rfl current rfl rfl announced

/-- The entries of the executable itself show, those of others do not. -/
theorem mail_subscriptions (traffic : Traffic) (other : ExecutableRef) (changed : Subscriptions) :
    ({ traffic with
      subscriptions := Function.update traffic.subscriptions other changed } : Traffic).mail h e n =
      { traffic.mail h e n with
        entries := if other = e then changed else traffic.subscriptions e } := by
  refine Mail.ext ?_ rfl rfl rfl rfl rfl rfl
  simp only [mail, Function.update_apply, eq_comm]

theorem mail_dispatch (traffic : Traffic) (away : other ≠ h → batch.newsTo e n = []) :
    (traffic.dispatch other batch).mail h e n =
      { traffic.mail h e n with queued := (traffic.mail h e n).queued ++ batch.newsTo e n } := by
  refine Mail.ext rfl (movesOf_note rfl) (toldTo_note rfl) ?_ ?_ ?_ ?_
  · simp only [dispatch, mail]
    split <;> rfl
  · by_cases here : h = other
    · subst here
      simp [dispatch, mail]
    · simp [dispatch, mail, here, away (Ne.symm here)]
  · exact congrArg (List.flatMap (Batch.newsTo e n)) (Host.field_update Host.deferred (by rfl) h)
  · simp only [dispatch, mail]
    split <;> rfl

theorem mail_defer (traffic : Traffic) (away : other ≠ h → batch.newsTo e n = []) :
    (traffic.defer other batch).mail h e n =
      { traffic.mail h e n with
        deferred := (traffic.mail h e n).deferred ++ batch.newsTo e n } := by
  refine Mail.ext rfl (movesOf_note rfl) (toldTo_note rfl) rfl ?_ ?_ rfl
  · exact congrArg (List.flatMap (Batch.newsTo e n)) (Host.field_update Host.queue (by rfl) h)
  · by_cases here : h = other
    · subst here
      simp [defer, mail]
    · simp [defer, mail, here, away (Ne.symm here)]

theorem newsTo_of_away (home : (store.executable e).host = h)
    (homed : (store.executable batch.event.source).host = other) (away : other ≠ h) :
    batch.newsTo e n = [] :=
  Batch.newsTo_of_ne fun same => away (by rw [← homed, same, home])

/-- Only the queues of the executable's own host show. -/
theorem mail_depot (traffic : Traffic) (other : HostRef) (changed : Host) :
    ({ traffic with depot := Function.update traffic.depot other changed } : Traffic).mail h e n =
      { traffic.mail h e n with
        queued := (if h = other then changed else traffic.depot h).queue.flatMap (Batch.newsTo e n)
        deferred :=
          (if h = other then changed else traffic.depot h).deferred.flatMap
            (Batch.newsTo e n) } := by
  simp only [mail, Function.update_apply]

theorem mail_depot_of_same (traffic : Traffic) {changed : Host}
    (queue : changed.queue = (traffic.depot other).queue)
    (deferred : changed.deferred = (traffic.depot other).deferred) :
    ({ traffic with depot := Function.update traffic.depot other changed } : Traffic).mail h e n =
      traffic.mail h e n := by
  rw [mail_depot]
  refine Mail.ext rfl rfl rfl rfl ?_ ?_ rfl
  · by_cases here : h = other
    · simp [here, queue, mail]
    · simp [here, mail]
  · by_cases here : h = other
    · simp [here, deferred, mail]
    · simp [here, mail]

section Announcement

variable {other : ExecutableRef} {transition : Transition} {entries : List Entry}

theorem announced_eq (top : traffic.calls = .announce other transition entries :: calls)
    (h : HostRef) (e : ExecutableRef) (n : Nat) : (traffic.mail h e n).announced =
      Frame.announcedTo e n (.announce other transition entries) ++
        calls.flatMap (Frame.announcedTo e n) := by
  simp only [mail, top, flatMap_cons]

theorem mail_announced (top : traffic.calls = .announce other transition entries :: calls)
    (number : Nat) (h : HostRef) (e : ExecutableRef) (n : Nat) :
    ({ traffic with nextBatch := number, calls := calls } : Traffic).mail h e n =
      { traffic.mail h e n with announced := calls.flatMap (Frame.announcedTo e n) } :=
  Mail.ext rfl rfl rfl (by simp [mail, top, Frame.deliveredTo]) rfl rfl rfl

/-- A transition of the executable is announced to its entries. -/
theorem mail_moved (telling : (Notice.transitioned e transition.old transition.new).Told told) :
    (traffic.move told e transition).mail h e n =
      { traffic.mail h e n with
        entries := (traffic.subscriptions e).settle transition.new
        moved := (traffic.mail h e n).moved ++ [transition.event e]
        announced := transition.newsTo e n ((traffic.subscriptions e).due transition.new) ++
          (traffic.mail h e n).announced } := by
  refine Mail.ext (Function.update_self ..) ?_ (toldTo_note rfl)
    (telling.flatMap_eq _ (fun _ => rfl) _) rfl rfl
    ((telling.flatMap_eq _ (fun _ => rfl) _).trans ?_)
  · simp [movesOf, Occurrence.move?, move, mail, Transition.event]
  · simp [Frame.announcedTo, mail]

/-- A transition is announced to the entries of the executable that moves, and to no other. -/
theorem mail_move (stacked : Stacked given.store traffic.calls) (real : transition.new ≠ .null)
    (calm : traffic.Calm) (free : given.Free traffic)
    (telling : (Notice.transitioned other transition.old transition.new).Told told) :
    Mail.Step (postage given traffic h e) e n (traffic.mail h e n)
      ((traffic.move told other transition).mail h e n) := by
  by_cases own : other = e
  · subst own
    exact .of_eq (.move real fun passive =>
      announced_eq_nil stacked calm free passive.1 passive.2) (mail_moved telling)
  · refine .of_eq .keep (Mail.ext (Function.update_of_ne (Ne.symm own) ..) (movesOf_note ?_)
      (toldTo_note rfl) (telling.flatMap_eq _ (fun _ => rfl) _) rfl rfl
      ((telling.flatMap_eq _ (fun _ => rfl) _).trans ?_))
    · simp [Occurrence.move?, own]
    · simp [Frame.announcedTo, own, mail]

/-- An announcement that ends without a batch had nothing to tell, or its news is lost. -/
theorem mail_hush (top : traffic.calls = .announce other transition entries :: calls)
    (why : entries = [] ∨ given.loses (.announce other transition entries)) :
    Mail.Step (postage given traffic h e) e n (traffic.mail h e n)
      (({ traffic with calls := calls } : Traffic).mail h e n) := by
  have first := announced_eq top h e n
  have left := mail_announced top traffic.nextBatch h e n
  by_cases lost : other = e ∧ given.loses (.announce other transition entries)
  · obtain ⟨rfl, loses⟩ := lost
    exact .of_eq (.hush first (.inr ⟨_, loses, rfl, rfl⟩)) left
  · have nothing : Frame.announcedTo e n (.announce other transition entries) = [] := by
      by_cases own : other = e
      · have none_due := why.resolve_right fun loses => lost ⟨own, loses⟩
        simp [Frame.announcedTo, own, none_due, Transition.newsTo]
      · simp [Frame.announcedTo, own]
    rw [nothing, nil_append] at first
    exact .of_eq .keep (left.trans (Mail.ext rfl rfl rfl rfl rfl rfl first.symm))

/-- News that was announced is put off only if the policy of the host says so. -/
theorem mail_putOff (home : given.home e = h)
    (top : traffic.calls = .announce other transition entries :: calls)
    (later : given.defers traffic other transition entries = true) :
    Mail.Step (postage given traffic h e) e n (traffic.mail h e n)
      ((Traffic.defer { traffic with nextBatch := traffic.nextBatch + 1, calls := calls }
        (given.home other) (given.batch traffic other transition entries)).mail h e n) := by
  have left : (Traffic.defer { traffic with nextBatch := traffic.nextBatch + 1, calls := calls }
      (given.home other) (given.batch traffic other transition entries)).mail h e n =
        { traffic.mail h e n with
          announced := calls.flatMap (Frame.announcedTo e n)
          deferred := (traffic.mail h e n).deferred ++
            Frame.announcedTo e n (.announce other transition entries) } := by
    rw [mail_defer _ fun away => newsTo_of_away home (by rfl) away, mail_announced top,
      given.batch_newsTo]
  by_cases own : other = e
  · subst own
    refine .of_eq (.putOff (announced_eq top h other n) ?_) left
    simp only [Surroundings.defers, Host.defers, home, Bool.and_eq_true] at later
    exact later.1.1
  · refine .of_eq .keep (left.trans (Mail.ext rfl rfl rfl rfl rfl ?_ ?_))
    · simp [Frame.announcedTo, own]
    · simp [announced_eq top, Frame.announcedTo, own]

end Announcement

section Delivery

variable {others : List Batch}

theorem current_eq (top : traffic.calls = .deliver batch :: calls) (h : HostRef)
    (e : ExecutableRef) (n : Nat) : (traffic.mail h e n).current =
      batch.newsTo e n ++ calls.flatMap (Frame.deliveredTo e n) := by
  simp only [mail, top, flatMap_cons, Frame.deliveredTo]

/-- What waits in the deferred queue goes to the dispatch queue. -/
theorem mail_pump (home : given.home e = h)
    (first : (traffic.depot other).deferred = batch :: others)
    (homed : (given.store.executable batch.event.source).host = other) :
    Mail.Step (postage given traffic h e) e n (traffic.mail h e n)
      ((Traffic.dispatch
        { traffic with
          depot := Function.update traffic.depot other
            { traffic.depot other with deferred := others } } other batch).mail h e n) := by
  rw [mail_dispatch _ (newsTo_of_away home homed), mail_depot]
  by_cases here : h = other
  · subst here
    have waiting : (traffic.mail h e n).deferred =
        batch.newsTo e n ++ others.flatMap (Batch.newsTo e n) := by
      simp only [mail, first, flatMap_cons]
    exact .of_eq (.pump waiting) (Mail.ext rfl rfl rfl rfl (by simp [mail]) (by simp) rfl)
  · refine .of_eq .keep (Mail.ext rfl rfl rfl rfl ?_ ?_ rfl)
    · simp [here, newsTo_of_away home homed (Ne.symm here), mail]
    · simp [here, mail]

/-- What waits in the dispatch queue is delivered. -/
theorem mail_take (layered : Layered given.store traffic.depot traffic.calls)
    (home : given.home e = h) (top : traffic.calls = .drain other :: calls)
    (first : (traffic.depot other).queue = batch :: others) :
    Mail.Step (postage given traffic h e) e n (traffic.mail h e n)
      (({ traffic with
        depot := Function.update traffic.depot other { traffic.depot other with queue := others }
        journal := traffic.journal ++ [.opened other batch.serial]
        calls := .deliver batch :: traffic.calls } : Traffic).mail h e n) := by
  have homed := layered.homed other batch (by simp [first])
  by_cases here : h = other
  · subst here
    -- The delivery loop of the host is on top, so none of its batches is being delivered.
    have idle : (traffic.mail h e n).current = [] := by
      rw [top] at layered
      simp only [mail, top, flatMap_cons, Frame.deliveredTo, nil_append]
      exact current_eq_nil layered.stacked.tail home layered.not_mem_of_drain
    have waiting : (traffic.mail h e n).queued =
        batch.newsTo e n ++ others.flatMap (Batch.newsTo e n) := by
      simp only [mail, first, flatMap_cons]
    refine .of_eq (.take waiting idle) (Mail.ext rfl (movesOf_note rfl) (toldTo_note rfl) ?_ ?_ ?_
      rfl)
    · have idle : traffic.calls.flatMap (Frame.deliveredTo e n) = [] := idle
      simp [mail, Frame.deliveredTo, idle]
    · simp [mail]
    · simp [mail]
  · have nothing : batch.newsTo e n = [] := newsTo_of_away home homed (Ne.symm here)
    refine .of_eq .keep (Mail.ext rfl (movesOf_note rfl) (toldTo_note rfl) ?_ ?_ ?_ rfl)
    · simp [mail, Frame.deliveredTo, nothing]
    · simp [mail, here]
    · simp [mail, here]

/-- The listener of the entry is called, or that of another. -/
theorem mail_invoke {delivery : Delivery} {others : List Delivery}
    (top : traffic.calls = .deliver batch :: calls)
    (left : batch.deliveries = delivery :: others) :
    Mail.Step (postage given traffic h e) e n (traffic.mail h e n)
      (({ traffic with
        journal := traffic.journal ++ [.invoked batch.serial batch.event delivery]
        calls := .guard batch.serial batch.event delivery ::
          .deliver { batch with deliveries := others } :: calls } : Traffic).mail h e n) := by
  have first := current_eq top h e n
  rcases Batch.newsTo_invoke left traffic.journal with ⟨told, news⟩ | ⟨told, news⟩
  · rw [news, cons_append] at first
    exact .of_eq (.invoke first) (Mail.ext rfl (movesOf_note rfl) told rfl rfl rfl
      (by simp [mail, top, Frame.announcedTo]))
  · rw [news] at first
    exact .of_eq .keep (Mail.ext rfl (movesOf_note rfl) told first.symm rfl rfl
      (by simp [mail, top, Frame.announcedTo]))

theorem mail_finish (top : traffic.calls = .deliver batch :: calls)
    (why : batch.deliveries = [] ∨ traffic.destroyed batch.event.source = true ∨
      given.loses (.deliver batch)) :
    Mail.Step (postage given traffic h e) e n (traffic.mail h e n)
      (({ traffic with calls := calls } : Traffic).mail h e n) := by
  have first := current_eq top h e n
  have left : ({ traffic with calls := calls } : Traffic).mail h e n =
      { traffic.mail h e n with current := calls.flatMap (Frame.deliveredTo e n) } :=
    Mail.ext rfl rfl rfl rfl rfl rfl (by simp [mail, top, Frame.announcedTo])
  by_cases lost : (postage given traffic h e).lost
  · exact .of_eq (.finish first lost) left
  · have nothing : batch.newsTo e n = [] := by
      by_cases own : batch.event.source = e
      · rcases why with done | destroyed | loses
        · simp [Batch.newsTo, done]
        · exact absurd (.inl (own ▸ destroyed)) lost
        · exact absurd (.inr ⟨_, loses, by rw [← own]; rfl, rfl⟩) lost
      · exact Batch.newsTo_of_ne own
    rw [nothing, nil_append] at first
    exact .of_eq .keep (left.trans (Mail.ext rfl rfl rfl first.symm rfl rfl rfl))

end Delivery

/-- A change to the entries of one executable. -/
theorem mail_entries {other : ExecutableRef} {changed : Subscriptions}
    (own : other = e → Mail.Step (postage given traffic h e) e n (traffic.mail h e n)
      { traffic.mail h e n with entries := changed }) :
    Mail.Step (postage given traffic h e) e n (traffic.mail h e n)
      (({ traffic with
        subscriptions := Function.update traffic.subscriptions other changed } : Traffic).mail
          h e n) := by
  rw [mail_subscriptions]
  split
  · exact own ‹_›
  · exact .keep

/-- Every step takes the mail on its way. -/
theorem mail_step (layered : Layered given.store traffic.depot traffic.calls)
    (home : given.home e = h) (step : given.Step traffic next) :
    Mail.Step (postage given traffic h e) e n (traffic.mail h e n) (next.mail h e n) := by
  cases step with
  | pass => exact .keep
  | openHost settings => exact .of_eq .keep (mail_depot_of_same _ rfl rfl)
  | subscribe more =>
    refine mail_entries ?_
    rintro rfl
    exact .subscribe more
  | unsubscribe keep =>
    refine mail_entries ?_
    rintro rfl
    exact .unsubscribe keep
  | move real calm free telling => exact mail_move layered.stacked real calm free telling
  | tell calm free telling =>
    exact .of_eq .keep (mail_calls (telling.flatMap_eq _ (fun _ => rfl) _)
      (telling.flatMap_eq _ (fun _ => rfl) _))
  | hear top => exact .of_eq .keep (mail_calls (by rw [top]; rfl) (by rw [top]; rfl))
  | hush top why => exact mail_hush top why
  | @post other transition entries calls top some_due opened prompt =>
    refine .of_eq (.post (announced_eq top h e n)) ?_
    rw [mail_dispatch _ fun away => newsTo_of_away home (by rfl) away, mail_announced top,
      given.batch_newsTo]
  | putOff top some_due opened later => exact mail_putOff home top later
  | @listen other listener grown asked opened more =>
    -- A call that answers a request goes back to no entry.
    rw [mail_defer _ fun _ => Batch.newsTo_immediate .., Batch.newsTo_immediate, append_nil]
    refine mail_entries ?_
    rintro rfl
    exact .subscribe more
  | @pump other batch others asked opened first calm free =>
    exact mail_pump home first (layered.homed other batch (by simp [first]))
  | take top opened first => exact mail_take layered home top first
  | @close other calls top why =>
    have left : ({ traffic with calls := calls } : Traffic).mail h e n = traffic.mail h e n :=
      mail_calls (by simp [top, Frame.deliveredTo]) (by simp [top, Frame.announcedTo])
    exact .of_eq .keep ((mail_depot_of_same { traffic with calls := calls } (by rfl) (by rfl)).trans
      left)
  | invoke top left there => exact mail_invoke top left
  | @settle serial event delivery fault told calls top telling =>
    -- Neither the guard nor what the observer is told holds calls.
    have current : (told ++ calls).flatMap (Frame.deliveredTo e n) =
        calls.flatMap (Frame.deliveredTo e n) := by
      rcases telling with rfl | ⟨why, telling⟩
      · rfl
      · exact telling.flatMap_eq _ (fun _ => rfl) _
    have announced : (told ++ calls).flatMap (Frame.announcedTo e n) =
        calls.flatMap (Frame.announcedTo e n) := by
      rcases telling with rfl | ⟨why, telling⟩
      · rfl
      · exact telling.flatMap_eq _ (fun _ => rfl) _
    refine .of_eq .keep (Mail.ext rfl (movesOf_note rfl) (toldTo_note rfl) (current.trans ?_) rfl
      rfl (announced.trans ?_))
    · simp [mail, top, Frame.deliveredTo]
    · simp [mail, top, Frame.announcedTo]
  | finish top why => exact mail_finish top why
  | @destroy other told calm free telling =>
    -- The entries go, and what is on its way stays there.
    have left : ({ traffic with
        subscriptions := Function.update traffic.subscriptions other
          (traffic.subscriptions other).clear
        destroyed := Function.update traffic.destroyed other true
        calls := told ++ traffic.calls } : Traffic).mail h e n = ({ traffic with
          subscriptions := Function.update traffic.subscriptions other
            (traffic.subscriptions other).clear } : Traffic).mail h e n :=
      Mail.ext rfl rfl rfl (telling.flatMap_eq _ (fun _ => rfl) _) rfl rfl
        (telling.flatMap_eq _ (fun _ => rfl) _)
    rw [left]
    refine mail_entries ?_
    rintro rfl
    exact .clear

end Traffic

end Readiness
