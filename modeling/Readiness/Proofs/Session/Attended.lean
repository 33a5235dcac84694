import Mathlib.Data.List.Nodup
import Readiness.Proofs.Session.Lobby

/-! What can happen in the lobby, and what it keeps: the parked sessions of a host are exactly those
on its list, and a session that is alone with its host is awake whenever batches are put off.
-/

namespace Readiness

open List Function

namespace Lobby

/-- A session is open and not being polled. -/
def Idle (lobby : Lobby) (k : SessionRef) : Prop :=
  k < lobby.sessions.length ∧ (lobby.session k).phase ≠ .finished ∧
    ∀ poll ∈ lobby.polls, poll.session ≠ k

/-- One thing that happens in the lobby. -/
inductive Step (lobby : Lobby) : Lobby → Prop where
  | receive {after : Lobby} (receives : lobby.Receives after) : Step lobby after
  | openHost : Step lobby { lobby with hosts := lobby.hosts + 1 }
  | take {h : HostRef} {batch : Batch} {rest : List Batch}
    (waits : (lobby.desk h).deferred = batch :: rest) :
    Step lobby (lobby.place h { lobby.desk h with deferred := rest })
  | openSession {h : HostRef} (opened : h < lobby.hosts) (future : Future) :
    Step lobby { lobby with sessions := lobby.sessions ++ [{ host := h, future }] }
  | closeSession {k : SessionRef} (idle : lobby.Idle k) :
    Step lobby (lobby.close k)
  | begin {k : SessionRef} (idle : lobby.Idle k) :
    Step lobby { lobby with polls := ⟨k, .begun⟩ :: lobby.polls }
  | deliver {k : SessionRef} {rest : List Poll}
    (polls : lobby.polls = ⟨k, .begun⟩ :: rest) (fresh : (lobby.session k).phase = .fresh) :
    Step lobby { lobby with polls := ⟨k, .delivering⟩ :: rest }
  | ask {k : SessionRef} {rest : List Poll} (polls : lobby.polls = ⟨k, .begun⟩ :: rest)
    (parked : (lobby.session k).phase = .parked ∨ (lobby.session k).phase = .woken) :
    Step lobby { lobby with polls := ⟨k, .asking⟩ :: rest }
  | delivered {k : SessionRef} {rest : List Poll} (polls : lobby.polls = ⟨k, .delivering⟩ :: rest)
    (empty : (lobby.desk (lobby.session k).host).deferred = []) :
    Step lobby { lobby with polls := ⟨k, .asking⟩ :: rest }
  /-- The future is done, or a panic gets out of the poll. -/
  | finish {k : SessionRef} {stage : PollStage} {rest : List Poll}
    (polls : lobby.polls = ⟨k, stage⟩ :: rest) : Step lobby (close { lobby with polls := rest } k)
  | renew {k : SessionRef} {rest : List Poll}
    (polls : lobby.polls = ⟨k, .asking⟩ :: rest) (woken : (lobby.session k).phase = .woken) :
    Step lobby (modify { lobby with polls := ⟨k, .delivering⟩ :: rest } k
      ({ · with phase := .fresh }))
  | spend {k : SessionRef} {rest : List Poll}
    (polls : lobby.polls = ⟨k, .asking⟩ :: rest) (fresh : (lobby.session k).phase = .fresh)
    (stored : (lobby.desk (lobby.session k).host).permit = true) :
    Step lobby (place { lobby with polls := ⟨k, .delivering⟩ :: rest } (lobby.session k).host
      { lobby.desk (lobby.session k).host with permit := false })
  | park {k : SessionRef} {rest : List Poll}
    (polls : lobby.polls = ⟨k, .asking⟩ :: rest) (fresh : (lobby.session k).phase = .fresh)
    (missing : (lobby.desk (lobby.session k).host).permit = false) :
    Step lobby ((modify { lobby with polls := rest } k ({ · with phase := .parked })).place
      (lobby.session k).host
      { lobby.desk (lobby.session k).host with
        waiters := (lobby.desk (lobby.session k).host).waiters ++ [k] })
  | stay {k : SessionRef} {rest : List Poll}
    (polls : lobby.polls = ⟨k, .asking⟩ :: rest) (parked : (lobby.session k).phase = .parked) :
    Step lobby { lobby with polls := rest }

/-- The lists of the hosts agree with the phases of the sessions. -/
structure Attended (lobby : Lobby) : Prop where
  housed : ∀ k < lobby.sessions.length, (lobby.session k).host < lobby.hosts
  parked : ∀ h k, k ∈ (lobby.desk h).waiters ↔ k < lobby.sessions.length ∧
    (lobby.session k).host = h ∧ (lobby.session k).phase = .parked
  once : ∀ h, (lobby.desk h).waiters.Nodup
  polled : ∀ poll ∈ lobby.polls, poll.session < lobby.sessions.length ∧
    (lobby.session poll.session).phase ≠ .finished
  single : (lobby.polls.map Poll.session).Nodup

/-- No other session of its host is parked or being polled. -/
def Alone (lobby : Lobby) (k : SessionRef) : Prop :=
  ∀ j < lobby.sessions.length, j ≠ k → (lobby.session j).host = (lobby.session k).host →
    (lobby.session j).phase ≠ .parked ∧ ∀ poll ∈ lobby.polls, poll.session ≠ j

/-- A session does not sleep while batches wait for it. -/
structure Awake (lobby : Lobby) (k : SessionRef) : Prop where
  parked : (lobby.session k).phase = .parked →
    (lobby.desk (lobby.session k).host).deferred = []
  /-- Batches put off since its future was asked have left a wakeup, so that it will not park. -/
  asked : ⟨k, .asking⟩ ∈ lobby.polls → (lobby.session k).phase = .fresh →
    (lobby.desk (lobby.session k).host).deferred = [] ∨
      (lobby.desk (lobby.session k).host).permit = true

variable {lobby after : Lobby} {h : HostRef} {j k : SessionRef} {rest : List Poll}
  {stage : PollStage} {poll : Poll}

/-- A change of phase leaves host and future. -/
theorem origin_modify (lobby : Lobby) (k j : SessionRef) (phase : Phase) :
    ((lobby.modify k ({ · with phase })).session j).host = (lobby.session j).host ∧
      ((lobby.modify k ({ · with phase })).session j).future = (lobby.session j).future := by
  rw [session_modify]
  split
  · rename_i here
    rw [← here.1]
    exact ⟨rfl, rfl⟩
  · exact ⟨rfl, rfl⟩

/-- The phase is changed. -/
theorem phase_modify_self (opened : k < lobby.sessions.length) (phase : Phase) :
    ((lobby.modify k ({ · with phase })).session k).phase = phase := by
  rw [session_modify, if_pos ⟨rfl, opened⟩]

/-- Other sessions stay as they are. -/
theorem session_modify_of_ne (lobby : Lobby) {change : Session → Session} (distinct : k ≠ j) :
    (lobby.modify k change).session j = lobby.session j := by
  rw [session_modify, if_neg fun both => distinct both.1]

/-- A change makes no session. -/
@[simp] theorem length_modify (lobby : Lobby) (k : SessionRef) (change : Session → Session) :
    (lobby.modify k change).sessions.length = lobby.sessions.length :=
  List.length_modify ..

/-- A new session leaves the others. -/
theorem session_append_of_lt (before : k < lobby.sessions.length) (added : Session) :
    session { lobby with sessions := lobby.sessions ++ [added] } k = lobby.session k := by
  simp [session, List.getD_eq_getElem?_getD, List.getElem?_append_left before]

/-- A new session is the last. -/
theorem session_append_self (lobby : Lobby) (added : Session) :
    session { lobby with sessions := lobby.sessions ++ [added] } lobby.sessions.length =
      added := by
  simp [session, List.getD_eq_getElem?_getD]

/-- Who waits at a desk may be kept. -/
theorem waiters_place {kept : Host} (same : kept.waiters = (lobby.desk h).waiters)
    (other : HostRef) :
    ((lobby.place h kept).desk other).waiters = (lobby.desk other).waiters := by
  simp only [place, update_apply]
  split
  · rename_i here
    rw [here, same]
  · rfl

/-- Waking at another host changes neither this session nor what its own host keeps. -/
theorem Attended.wake_of_ne (attended : lobby.Attended) (other : h ≠ (lobby.session k).host) :
    (lobby.wake h).session k = lobby.session k ∧
      (lobby.wake h).desk (lobby.session k).host = lobby.desk (lobby.session k).host := by
  unfold wake
  split
  · rename_i j rest waiters
    -- Whoever is woken is a session of that other host.
    have woken := (attended.parked h j).mp (waiters ▸ mem_cons_self)
    have distinct : j ≠ k := by
      rintro rfl
      exact other woken.2.1.symm
    exact ⟨session_modify_of_ne _ distinct, update_of_ne (Ne.symm other) _ _⟩
  · exact ⟨rfl, update_of_ne (Ne.symm other) _ _⟩

/-- Waking leaves hosts and futures. -/
theorem origin_wake (lobby : Lobby) (h : HostRef) (k : SessionRef) :
    ((lobby.wake h).session k).host = (lobby.session k).host ∧
      ((lobby.wake h).session k).future = (lobby.session k).future := by
  unfold wake
  split
  · exact origin_modify ..
  · exact ⟨rfl, rfl⟩

/-- Waking makes no session. -/
@[simp] theorem length_wake (lobby : Lobby) (h : HostRef) :
    (lobby.wake h).sessions.length = lobby.sessions.length := by
  unfold wake
  split
  · exact length_modify ..
  · rfl

/-- Hosts and futures of sessions stay as they are when one is closed. -/
theorem origin_close (lobby : Lobby) (j k : SessionRef) :
    ((lobby.close j).session k).host = (lobby.session k).host ∧
      ((lobby.close j).session k).future = (lobby.session k).future := by
  simp only [close]
  split
  · exact origin_modify ..
  · have woken := origin_wake (lobby.modify j ({ · with phase := .finished }))
      (lobby.session j).host k
    have ended := origin_modify lobby j k .finished
    exact ⟨woken.1.trans ended.1, woken.2.trans ended.2⟩
  · exact origin_modify ..

/-- Closing makes no session. -/
@[simp] theorem length_close (lobby : Lobby) (k : SessionRef) :
    (lobby.close k).sessions.length = lobby.sessions.length := by
  simp only [close]
  split
  · exact length_modify ..
  · rw [length_wake]
    exact length_modify ..
  · exact length_modify ..

namespace Attended

section

variable (attended : lobby.Attended)
include attended

/-- Only waiters, sessions and polls matter. -/
theorem of_same (hosts : lobby.hosts ≤ after.hosts)
    (waiters : ∀ h, (after.desk h).waiters = (lobby.desk h).waiters)
    (sessions : after.sessions = lobby.sessions) (polls : after.polls = lobby.polls) :
    after.Attended := by
  have same (k : SessionRef) : after.session k = lobby.session k := by
    rw [session, session, sessions]
  refine ⟨?_, ?_, ?_, ?_, ?_⟩
  · intro k opened
    rw [same]
    exact Nat.lt_of_lt_of_le (attended.housed k (sessions ▸ opened)) hosts
  · intro h k
    rw [waiters, same, sessions]
    exact attended.parked h k
  · intro h
    rw [waiters]
    exact attended.once h
  · intro poll member
    rw [same, sessions]
    exact attended.polled poll (polls ▸ member)
  · rw [polls]
    exact attended.single

/-- Polls may change among sessions that have not finished. -/
theorem of_polls {polls : List Poll}
    (polled : ∀ poll ∈ polls, poll.session < lobby.sessions.length ∧
      (lobby.session poll.session).phase ≠ .finished) (single : (polls.map Poll.session).Nodup) :
    Attended { lobby with polls } :=
  ⟨attended.housed, attended.parked, attended.once, polled, single⟩

/-- The last poll may end. -/
theorem pop {poll : Poll} (polls : lobby.polls = poll :: rest) :
    Attended { lobby with polls := rest } := by
  have single := attended.single
  rw [polls, map_cons] at single
  refine attended.of_polls (fun other member => ?_) single.of_cons
  exact attended.polled other (polls ▸ mem_cons_of_mem poll member)

/-- The innermost poll may come to another stage. -/
theorem advance (polls : lobby.polls = ⟨k, stage⟩ :: rest) (next : PollStage) :
    Attended { lobby with polls := ⟨k, next⟩ :: rest } := by
  have single := attended.single
  rw [polls] at single
  refine attended.of_polls (fun other member => ?_) single
  rcases mem_cons.mp member with rfl | older
  · exact attended.polled ⟨k, stage⟩ (polls ▸ mem_cons_self)
  · exact attended.polled other (polls ▸ mem_cons_of_mem _ older)

/-- A session may come to any phase, along with its place on the list of its host. -/
theorem rephase (opened : k < lobby.sessions.length) {phase : Phase} {listed : List SessionRef}
    (once : listed.Nodup)
    (others : ∀ j, k ≠ j → (j ∈ listed ↔ j ∈ (lobby.desk (lobby.session k).host).waiters))
    (own : k ∈ listed ↔ phase = .parked)
    (free : phase = .finished → ∀ poll ∈ lobby.polls, poll.session ≠ k) :
    ((lobby.modify k ({ · with phase })).place (lobby.session k).host
      { lobby.desk (lobby.session k).host with waiters := listed }).Attended := by
  refine ⟨?_, ?_, ?_, ?_, attended.single⟩
  · intro j there
    show ((lobby.modify k _).session j).host < _
    rw [(origin_modify ..).1]
    exact attended.housed j (by simpa [place] using there)
  · intro h j
    show j ∈ (Function.update lobby.desk (lobby.session k).host _ h).waiters ↔
      j < (lobby.modify k _).sessions.length ∧ ((lobby.modify k _).session j).host = h ∧
        ((lobby.modify k _).session j).phase = .parked
    rw [length_modify, (origin_modify ..).1]
    by_cases here : k = j
    · subst here
      rw [phase_modify_self opened]
      -- It is on the list of its own host or on none.
      by_cases home : h = (lobby.session k).host
      · subst home
        simp [own, opened]
      · rw [update_of_ne home, attended.parked h k]
        simp only [Ne.symm home, false_and, and_false]
    · rw [session_modify_of_ne _ here, ← attended.parked h j]
      by_cases home : h = (lobby.session k).host
      · subst home
        rw [update_self]
        exact others j here
      · rw [update_of_ne home]
  · intro h
    show (Function.update lobby.desk (lobby.session k).host _ h).waiters.Nodup
    by_cases home : h = (lobby.session k).host
    · subst home
      rw [update_self]
      exact once
    · rw [update_of_ne home]
      exact attended.once h
  · intro poll member
    obtain ⟨there, going⟩ := attended.polled poll member
    refine ⟨by simpa [place] using there, ?_⟩
    show ((lobby.modify k _).session poll.session).phase ≠ .finished
    rw [session_modify]
    split
    · rename_i here
      exact fun ended => free ended poll member here.1.symm
    · exact going

/-- A session that is not parked may come to another phase in which it is not parked. -/
theorem modify (phase : Phase) (before : (lobby.session k).phase ≠ .parked) (next : phase ≠ .parked)
    (free : phase = .finished → ∀ poll ∈ lobby.polls, poll.session ≠ k) :
    (lobby.modify k ({ · with phase })).Attended := by
  by_cases opened : k < lobby.sessions.length
  · -- Neither before nor afterwards is it on any list.
    have absent : k ∉ (lobby.desk (lobby.session k).host).waiters := fun listed =>
      before ((attended.parked _ k).mp listed).2.2
    have kept := attended.rephase opened (attended.once _) (fun _ _ => .rfl)
      (iff_of_false absent next) free
    exact kept.of_same (Nat.le_refl _) (fun h => (waiters_place rfl h).symm) rfl rfl
  · refine attended.of_same (Nat.le_refl _) (fun _ => rfl) ?_ rfl
    exact modify_eq_self (Nat.le_of_not_lt opened)

/-- A host may wake its sessions. -/
theorem wake (h : HostRef) : (lobby.wake h).Attended := by
  unfold Lobby.wake
  split
  · rename_i k rest waiters
    obtain ⟨opened, rfl, _⟩ := (attended.parked h k).mp (waiters ▸ mem_cons_self)
    have once := attended.once (lobby.session k).host
    rw [waiters, nodup_cons] at once
    refine attended.rephase opened once.2 (fun j other => ?_) ?_ nofun
    · rw [waiters, mem_cons, or_iff_right (Ne.symm other)]
    · exact iff_of_false once.1 nofun
  · exact attended.of_same (Nat.le_refl _) (waiters_place rfl) rfl rfl

end

/-- A session that is parked has been opened. -/
theorem lt_of_parked (parked : (lobby.session k).phase = .parked) : k < lobby.sessions.length := by
  by_contra beyond
  simp [Lobby.session, getD_eq_getElem?_getD, Nat.le_of_not_lt beyond] at parked
  cases parked

section

variable (attended : lobby.Attended)
include attended

/-- Closing a session that is not being polled keeps lists and phases in agreement. -/
theorem close (free : ∀ poll ∈ lobby.polls, poll.session ≠ k) : (lobby.close k).Attended := by
  simp only [Lobby.close]
  split
  · rename_i asleep
    refine attended.rephase (lt_of_parked asleep) ((attended.once _).filter _) (fun j other => ?_)
      ?_ fun _ => free
    · simp [Ne.symm other]
    · simp
  · rename_i woken
    exact (attended.modify .finished (by rw [woken]; decide) (by decide) fun _ => free).wake _
  · rename_i awake _
    exact attended.modify .finished awake (by decide) fun _ => free

/-- A session that parks is put on the list of its host. -/
theorem park (opened : k < lobby.sessions.length) (awake : (lobby.session k).phase ≠ .parked) :
    ((lobby.modify k ({ · with phase := .parked })).place (lobby.session k).host
      { lobby.desk (lobby.session k).host with
        waiters := (lobby.desk (lobby.session k).host).waiters ++ [k] }).Attended := by
  have absent : k ∉ (lobby.desk (lobby.session k).host).waiters := fun listed =>
    awake ((attended.parked _ k).mp listed).2.2
  refine attended.rephase opened ?_ (fun j other => ?_) (by simp) nofun
  · exact nodup_append_comm.mp (nodup_cons.mpr ⟨absent, attended.once _⟩)
  · rw [mem_append, mem_singleton, or_iff_left (Ne.symm other)]

/-- A session may be opened. -/
theorem openSession (opened : h < lobby.hosts) (future : Future) :
    Attended { lobby with sessions := lobby.sessions ++ [{ host := h, future }] } := by
  -- Sessions that were there before are not affected.
  have older {j : SessionRef} (before : j < lobby.sessions.length) :=
    session_append_of_lt before { host := h, future }
  have added := session_append_self lobby { host := h, future }
  have one_more : (lobby.sessions ++ [({ host := h, future } : Session)]).length =
      lobby.sessions.length + 1 := length_append
  refine ⟨?_, ?_, attended.once, ?_, attended.single⟩
  · intro j there
    rcases Nat.lt_succ_iff_lt_or_eq.mp (one_more ▸ there) with before | rfl
    · rw [older before]
      exact attended.housed j before
    · rw [added]
      exact opened
  · intro other j
    show j ∈ (lobby.desk other).waiters ↔ _
    rw [attended.parked other j]
    constructor
    · rintro ⟨before, parked⟩
      rw [older before]
      exact ⟨one_more ▸ Nat.lt_succ_of_lt before, parked⟩
    · rintro ⟨there, parked⟩
      rcases Nat.lt_succ_iff_lt_or_eq.mp (one_more ▸ there) with before | rfl
      · rw [older before] at parked
        exact ⟨before, parked⟩
      · rw [added] at parked
        cases parked.2
  · intro poll member
    obtain ⟨before, going⟩ := attended.polled poll member
    rw [older before]
    exact ⟨one_more ▸ Nat.lt_succ_of_lt before, going⟩

/-- No session is polled twice. -/
theorem free_of_head (polls : lobby.polls = ⟨k, stage⟩ :: rest) :
    ∀ poll ∈ rest, poll.session ≠ k := by
  have single := attended.single
  rw [polls, map_cons, nodup_cons] at single
  rintro poll member rfl
  exact single.1 (mem_map.mpr ⟨poll, member, rfl⟩)

/-- Whatever happens keeps lists and phases in agreement. -/
theorem step (step : lobby.Step after) : after.Attended := by
  cases step with
  | receive receives =>
    rcases receives with rfl | ⟨h, batch, _, rfl⟩
    · exact attended
    · refine wake (attended.of_same ?_ (waiters_place ?_) ?_ ?_) h
      · exact Nat.le_refl _
      · rfl
      · rfl
      · rfl
  | openHost => exact attended.of_same (Nat.le_succ _) (fun _ => rfl) rfl rfl
  | take => exact attended.of_same (Nat.le_refl _) (waiters_place rfl) rfl rfl
  | openSession opened future => exact attended.openSession opened future
  | closeSession idle => exact attended.close idle.2.2
  | begin idle =>
    refine attended.of_polls (fun poll member => ?_) ?_
    · rcases mem_cons.mp member with rfl | older
      · exact ⟨idle.1, idle.2.1⟩
      · exact attended.polled poll older
    · rw [map_cons, nodup_cons]
      refine ⟨fun member => ?_, attended.single⟩
      obtain ⟨poll, older, same⟩ := mem_map.mp member
      exact idle.2.2 poll older same
  | deliver polls => exact attended.advance polls .delivering
  | ask polls => exact attended.advance polls .asking
  | delivered polls => exact attended.advance polls .asking
  | finish polls => exact (attended.pop polls).close (attended.free_of_head polls)
  | renew polls woken =>
    refine (attended.advance polls .delivering).modify .fresh ?_ (by decide) nofun
    show (lobby.session _).phase ≠ _
    rw [woken]
    decide
  | spend polls =>
    exact (attended.advance polls .delivering).of_same (Nat.le_refl _) (waiters_place rfl) rfl rfl
  | park polls fresh =>
    refine (attended.pop polls).park (attended.polled _ (polls ▸ mem_cons_self)).1 ?_
    show (lobby.session _).phase ≠ _
    rw [fresh]
    decide
  | stay polls => exact attended.pop polls

/-- Waking leaves who is not parked. -/
theorem session_wake (awake : (lobby.session k).phase ≠ .parked) (h : HostRef) :
    (lobby.wake h).session k = lobby.session k := by
  unfold Lobby.wake
  split
  · rename_i j rest waiters
    refine session_modify_of_ne _ ?_
    rintro rfl
    exact awake ((attended.parked h j).mp (waiters ▸ mem_cons_self)).2.2
  · rfl

/-- A session that is alone with its host is on the list whenever it is parked, and nobody else
is. -/
theorem waiters_of_alone (alone : lobby.Alone k) (opened : k < lobby.sessions.length) :
    (lobby.desk (lobby.session k).host).waiters =
      if (lobby.session k).phase = .parked then [k] else [] := by
  have only : ∀ j ∈ (lobby.desk (lobby.session k).host).waiters, j = k := by
    intro j listed
    obtain ⟨there, home, parked⟩ := (attended.parked _ j).mp listed
    by_contra other
    exact (alone j there other home).1 parked
  have once := attended.once (lobby.session k).host
  have listed := attended.parked (lobby.session k).host k
  -- A list without repetition whose members are all the same has one member at most.
  cases waiters : (lobby.desk (lobby.session k).host).waiters with
  | nil =>
    rw [waiters] at listed
    rw [if_neg fun parked => absurd (listed.mpr ⟨opened, rfl, parked⟩) not_mem_nil]
  | cons first rest =>
    rw [waiters] at only once listed
    obtain rfl := only first mem_cons_self
    rw [if_pos (listed.mp mem_cons_self).2.2]
    cases rest with
    | nil => rfl
    | cons second others =>
      obtain rfl := only second (mem_cons_of_mem _ mem_cons_self)
      exact absurd mem_cons_self (nodup_cons.mp once).1

/-- A host wakes the session that is alone with it. -/
theorem awake_wake (alone : lobby.Alone k) (opened : k < lobby.sessions.length) :
    (lobby.wake (lobby.session k).host).Awake k := by
  have waiters := attended.waiters_of_alone alone opened
  by_cases parked : (lobby.session k).phase = .parked
  · -- It is the one that is woken.
    rw [if_pos parked] at waiters
    have woken : ((lobby.wake (lobby.session k).host).session k).phase = .woken := by
      rw [Lobby.wake, waiters]
      exact phase_modify_self opened .woken
    constructor
    · intro asleep
      rw [woken] at asleep
      cases asleep
    · intro _ fresh
      rw [woken] at fresh
      cases fresh
  · -- It is not, and so nobody is, and the wakeup is stored.
    rw [if_neg parked] at waiters
    have stored : lobby.wake (lobby.session k).host = lobby.place (lobby.session k).host
        { lobby.desk (lobby.session k).host with permit := true } := by
      rw [Lobby.wake, waiters]
    rw [stored]
    refine ⟨fun asleep => absurd asleep parked, fun _ _ => .inr ?_⟩
    show (Function.update lobby.desk (lobby.session k).host _ (lobby.session k).host).permit = true
    rw [update_self]

end

end Attended

/-- A session that has finished misses nothing. -/
theorem Awake.of_finished (ended : (lobby.session k).phase = .finished) : lobby.Awake k := by
  constructor
  · intro asleep
    rw [ended] at asleep
    cases asleep
  · intro _ fresh
    rw [ended] at fresh
    cases fresh

/-- Only the session, its desk and its poll matter. -/
theorem Awake.of_same (awake : lobby.Awake k) (session : after.session k = lobby.session k)
    (desk : after.desk (lobby.session k).host = lobby.desk (lobby.session k).host)
    (asked : ⟨k, .asking⟩ ∈ after.polls → ⟨k, .asking⟩ ∈ lobby.polls) : after.Awake k := by
  constructor
  · rw [session, desk]
    exact awake.parked
  · rw [session, desk]
    exact fun asking => awake.asked (asked asking)

/-- A session may change unless it is parked. -/
theorem Alone.modify (alone : lobby.Alone k) {phase : Phase} (up : phase ≠ .parked)
    (j : SessionRef) : (lobby.modify j ({ · with phase })).Alone k := by
  intro i there other home
  rw [length_modify] at there
  rw [(origin_modify ..).1, (origin_modify ..).1] at home
  refine ⟨?_, (alone i there other home).2⟩
  rw [session_modify]
  split
  · exact up
  · exact (alone i there other home).1

/-- Closing a session keeps one awake that is alone with its host. -/
theorem Awake.close (awake : lobby.Awake k) (attended : lobby.Attended) (alone : lobby.Alone k)
    (opened : k < lobby.sessions.length) (free : ∀ poll ∈ lobby.polls, poll.session ≠ j) :
    (lobby.close j).Awake k := by
  by_cases own : j = k
  · subst own
    -- It is over itself, and the wakeup that it may have had goes to somebody else.
    refine .of_finished ?_
    have ended := phase_modify_self opened .finished
    simp only [Lobby.close]
    split
    · exact ended
    · rename_i woken
      rw [(attended.modify .finished (by rw [woken]; decide) (by decide)
        fun _ => free).session_wake]
      · exact ended
      · rw [ended]
        decide
    · exact ended
  · have session : (lobby.modify j ({ · with phase := .finished })).session k =
        lobby.session k := session_modify_of_ne _ own
    simp only [Lobby.close]
    split
    · rename_i parked
      -- Another one that is parked is a session of another host.
      have other : (lobby.session k).host ≠ (lobby.session j).host := by
        intro home
        exact (alone j (Attended.lt_of_parked parked) own home.symm).1 parked
      exact awake.of_same session (update_of_ne other _ _) id
    · rename_i woken
      have closed := attended.modify .finished (by rw [woken]; decide) (by decide)
        fun _ => free
      by_cases home : (lobby.session j).host = (lobby.session k).host
      · have up := closed.awake_wake (alone.modify (by decide) j) (by simpa using opened)
        rwa [session, ← home] at up
      · obtain ⟨same, desk⟩ := closed.wake_of_ne (k := k) (by rw [session]; exact home)
        rw [session] at same desk
        refine awake.of_same same desk ?_
        unfold wake
        split <;> exact id
    · exact awake.of_same session rfl id

/-- Whoever else is polled belongs to another host. -/
theorem Alone.elsewhere (alone : lobby.Alone k) (attended : lobby.Attended)
    (polls : lobby.polls = ⟨j, stage⟩ :: rest) (other : j ≠ k) :
    (lobby.session k).host ≠ (lobby.session j).host := by
  intro home
  have polled : ⟨j, stage⟩ ∈ lobby.polls := polls ▸ mem_cons_self
  exact (alone j (attended.polled _ polled).1 other home.symm).2 _ polled rfl

/-- A poll that has batches delivered again does not ask the future meanwhile. -/
theorem Attended.not_asking (attended : lobby.Attended) (polls : lobby.polls = ⟨k, stage⟩ :: rest) :
    ⟨k, .asking⟩ ∉ (⟨k, .delivering⟩ :: rest : List Poll) := by
  intro asking
  rcases mem_cons.mp asking with same | before
  · cases same
  · exact attended.free_of_head polls _ before rfl

/-- Whoever asks under the poll on top has been asking before. -/
theorem asking_under (polls : lobby.polls = poll :: rest) :
    ⟨k, .asking⟩ ∈ rest → ⟨k, .asking⟩ ∈ lobby.polls := by
  rw [polls]
  exact mem_cons_of_mem _

/-- While somebody has batches delivered, only those ask who have been asking before. -/
theorem asking_of_delivering (polls : lobby.polls = poll :: rest)
    (asking : ⟨k, .asking⟩ ∈ (⟨j, .delivering⟩ :: rest : List Poll)) :
    ⟨k, .asking⟩ ∈ lobby.polls := by
  rcases mem_cons.mp asking with same | before
  · cases same
  · exact asking_under polls before

section

variable (awake : lobby.Awake k)
include awake

/-- A batch that is put off wakes the session if it is one of its host. -/
theorem Awake.defer (attended : lobby.Attended) (alone : lobby.Alone k)
    (opened : k < lobby.sessions.length) (h : HostRef) (batch : Batch) :
    (lobby.defer h batch).Awake k := by
  have placed : (lobby.place h { lobby.desk h with
      deferred := (lobby.desk h).deferred ++ [batch] }).Attended :=
    attended.of_same (Nat.le_refl _) (waiters_place rfl) rfl rfl
  by_cases home : h = (lobby.session k).host
  · subst home
    exact placed.awake_wake alone opened
  · obtain ⟨same, desk⟩ := placed.wake_of_ne (k := k) home
    refine awake.of_same same (desk.trans (update_of_ne (Ne.symm home) _ _)) ?_
    unfold Lobby.defer wake
    split <;> exact id

/-- A session that is awake stays so when a batch is taken to be delivered. -/
theorem Awake.take {batch : Batch} {rest : List Batch}
    (waits : (lobby.desk h).deferred = batch :: rest) :
    (lobby.place h { lobby.desk h with deferred := rest }).Awake k := by
  by_cases home : h = (lobby.session k).host
  · subst home
    -- A batch was waiting, so the session is not parked and a wakeup is there if need be.
    refine ⟨fun parked => ?_, fun asking fresh => .inr ?_⟩
    · rw [awake.parked parked] at waits
      cases waits
    · have stored := (awake.asked asking fresh).resolve_left (by rw [waits]; exact nofun)
      show (Function.update lobby.desk _ _ (lobby.session k).host).permit = true
      rw [update_self]
      exact stored
  · exact awake.of_same rfl (update_of_ne (Ne.symm home) _ _) id

/-- A session whose future is asked stays awake if it is not fresh or nothing waits. -/
theorem Awake.ask (polls : lobby.polls = ⟨j, stage⟩ :: rest)
    (idle : (lobby.session j).phase = .fresh →
      (lobby.desk (lobby.session j).host).deferred = []) :
    Awake { lobby with polls := ⟨j, .asking⟩ :: rest } k := by
  refine ⟨awake.parked, fun asking fresh => ?_⟩
  rcases mem_cons.mp asking with same | before
  · cases same
    exact .inl (idle fresh)
  · exact awake.asked (asking_under polls before) fresh

/-- A session that is alone with its host parks only if nothing waits. -/
theorem Awake.park (attended : lobby.Attended) (alone : lobby.Alone k)
    (opened : k < lobby.sessions.length) (polls : lobby.polls = ⟨j, .asking⟩ :: rest)
    (fresh : (lobby.session j).phase = .fresh)
    (missing : (lobby.desk (lobby.session j).host).permit = false) :
    Awake ((modify { lobby with polls := rest } j ({ · with phase := .parked })).place
      (lobby.session j).host { lobby.desk (lobby.session j).host with
        waiters := (lobby.desk (lobby.session j).host).waiters ++ [j] }) k := by
  by_cases own : j = k
  · subst own
    -- No wakeup is stored, so no batch has been put off since the deferred ones were delivered.
    have empty := (awake.asked (polls ▸ mem_cons_self) fresh).resolve_right
      (by rw [missing]; decide)
    refine ⟨fun _ => ?_, fun _ up => ?_⟩
    · show (Function.update lobby.desk _ _ ((lobby.modify j _).session j).host).deferred = []
      rw [(origin_modify ..).1, update_self]
      exact empty
    · exact absurd ((phase_modify_self opened .parked).symm.trans up) (by decide)
  · exact awake.of_same (session_modify_of_ne _ own)
      (update_of_ne (alone.elsewhere attended polls own) _ _) (asking_under polls)

/-- A session that is alone with its host stays awake, whatever happens. -/
theorem Awake.step (attended : lobby.Attended) (alone : lobby.Alone k)
    (opened : k < lobby.sessions.length) (step : lobby.Step after) : after.Awake k := by
  cases step with
  | receive receives =>
    rcases receives with rfl | ⟨h, batch, _, rfl⟩
    · exact awake
    · exact awake.defer attended alone opened h batch
  | openHost => exact awake.of_same rfl rfl id
  | take waits => exact awake.take waits
  | openSession _ future => exact awake.of_same (session_append_of_lt opened _) rfl id
  | closeSession idle => exact awake.close attended alone opened idle.2.2
  | begin idle =>
    refine awake.of_same rfl rfl fun asking => ?_
    rcases mem_cons.mp asking with same | before
    · cases same
    · exact before
  | deliver polls => exact awake.of_same rfl rfl (asking_of_delivering polls)
  | ask polls parked =>
    refine awake.ask polls fun fresh => ?_
    rw [fresh] at parked
    rcases parked with parked | woken
    · cases parked
    · cases woken
  | delivered polls empty => exact awake.ask polls fun _ => empty
  | finish polls =>
    refine Awake.close ?_ (attended.pop polls) ?_ opened (attended.free_of_head polls)
    · exact awake.of_same rfl rfl (asking_under polls)
    · exact fun i there other home => ⟨(alone i there other home).1, fun poll member =>
        (alone i there other home).2 poll (polls ▸ mem_cons_of_mem _ member)⟩
  | @renew j rest polls woken =>
    by_cases own : j = k
    · subst own
      refine ⟨fun parked => ?_, fun asking => absurd asking (attended.not_asking polls)⟩
      exact absurd ((phase_modify_self opened .fresh).symm.trans parked) (by decide)
    · exact awake.of_same (session_modify_of_ne _ own) rfl (asking_of_delivering polls)
  | @spend j rest polls fresh stored =>
    by_cases own : j = k
    · subst own
      refine ⟨fun parked => ?_, fun asking => absurd asking (attended.not_asking polls)⟩
      exact absurd (fresh.symm.trans parked) (by decide)
    · exact awake.of_same rfl (update_of_ne (alone.elsewhere attended polls own) _ _)
        (asking_of_delivering polls)
  | park polls fresh missing => exact awake.park attended alone opened polls fresh missing
  | stay polls => exact awake.of_same rfl rfl (asking_under polls)

end

/-- Sessions stay, with their hosts and their futures. -/
theorem Step.origin (step : lobby.Step after) (opened : k < lobby.sessions.length) :
    k < after.sessions.length ∧ (after.session k).host = (lobby.session k).host ∧
      (after.session k).future = (lobby.session k).future := by
  cases step with
  | receive receives =>
    rcases receives with rfl | ⟨h, batch, _, rfl⟩
    · exact ⟨opened, rfl, rfl⟩
    · refine ⟨?_, origin_wake ..⟩
      rw [defer, length_wake]
      exact opened
  | openSession _ future =>
    rw [session_append_of_lt opened]
    refine ⟨?_, rfl, rfl⟩
    simp only [length_append]
    exact Nat.lt_add_right _ opened
  | closeSession | finish => exact ⟨by simpa using opened, origin_close ..⟩
  | renew => exact ⟨by simpa using opened, origin_modify ..⟩
  | park => exact ⟨by simpa [place] using opened, origin_modify ..⟩
  | openHost | take | begin | deliver | ask | delivered | spend | stay =>
    exact ⟨opened, rfl, rfl⟩

end Lobby

end Readiness
