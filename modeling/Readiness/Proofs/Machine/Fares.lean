import Readiness.Proofs.Machine.Writes

/-! What one step of a run means for one executable.

Its entries grow, shrink, are spent by a transition or cleared by its destruction. From that follows
which entries can end which waits, and that no two groups share a number.
-/

namespace Readiness

open Function

namespace Executable

variable (executable : Executable) (w : WaitRef)

/-- A wait files a group unless its executable is ready. -/
theorem requested_waitRequest : executable.requested (waitRequest w) =
    if executable.isReady then executable.subscriptions
    else executable.subscriptions.addGroup (executable.links (waitRequest w)) := by
  simp [requested, waitRequest]

/-- A wait listens for readiness and for failure. -/
theorem mem_links_waitRequest (link : Listener × Status) :
    link ∈ executable.links (waitRequest w) ↔
      link = (.waitReady w, executable.readyStatus) ∨
        link.1 = .waitFailed w ∧ link.2 ∈ executable.failedStatuses := by
  obtain ⟨listener, status⟩ := link
  simp [links, waitRequest, and_comm, eq_comm]

/-- Only its own listeners are filed. -/
theorem enlisted_waitRequest : executable.subscriptions.Enlisted
    (fun listener => listener.wait? = some w) (executable.requested (waitRequest w)) := by
  refine executable.enlisted_requested fun link listed => ?_
  rcases (executable.mem_links_waitRequest w link).mp listed with rfl | ⟨same, _⟩
  · rfl
  · rw [same]
    rfl

end Executable

namespace Machine

/-- What becomes of one executable in a step after which the record is this one. -/
inductive Fares (machine : Machine) (e : ExecutableRef) (after : Record) : Prop where
  | enlist
    (entries : (machine.engine.executable e).subscriptions.Enlisted
      (fun listener => listener.wait? = none) (after.subscriptions e))
    (moved : movesOf e after.moves = movesOf e machine.engine.record.moves)
    (fate : after.destroyed e = (machine.engine.executable e).destroyed)
  | remove (code : CodeRef) (status : Option Status)
    (entries : after.subscriptions e =
      (machine.engine.executable e).subscriptions.remove (.client code) status)
    (moved : movesOf e after.moves = movesOf e machine.engine.record.moves)
    (fate : after.destroyed e = (machine.engine.executable e).destroyed)
  | wait
    (begun : after.waits = machine.engine.waits ++ [⟨e, none⟩])
    (entries : after.subscriptions e =
      (machine.engine.executable e).requested (waitRequest machine.engine.waits.length))
    (moved : movesOf e after.moves = movesOf e machine.engine.record.moves)
    (fate : after.destroyed e = (machine.engine.executable e).destroyed)
  | move {status : Status} (asked : machine.control = .perform (.setStatus e status))
    (moves : (machine.engine.executable e).moves status = true)
    (entries : after.subscriptions e = (machine.engine.executable e).subscriptions.settle status)
    (moved : movesOf e after.moves = movesOf e machine.engine.record.moves ++
      [⟨e, status, (machine.engine.executable e).status⟩])
    (fate : after.destroyed e = (machine.engine.executable e).destroyed)
  | destroy (asked : machine.control = .perform (.destroy e))
    (there : (machine.engine.executable e).destroyed = false)
    (entries : after.subscriptions e = (machine.engine.executable e).subscriptions.clear)
    (moved : movesOf e after.moves = movesOf e machine.engine.record.moves)
    (fate : after.destroyed e = true)

variable {machine next : Machine} {e : ExecutableRef} {after : Record}

/-- Nothing happens to the executable. -/
theorem Fares.of_same (entries : after.subscriptions e = machine.engine.record.subscriptions e)
    (moved : movesOf e after.moves = movesOf e machine.engine.record.moves)
    (fate : after.destroyed e = machine.engine.record.destroyed e) : machine.Fares e after :=
  .enlist (by rw [entries]; exact .refl) moved fate

/-- What a step writes means one of these for each executable. -/
theorem Writes.fares (writes : machine.Writes after) (e : ExecutableRef) :
    machine.Fares e after := by
  -- Whatever is written about one executable leaves all the others as they are.
  cases writes with
  | pass | build | settle | waitOver => exact .of_same rfl rfl rfl
  | enlist more =>
    obtain ⟨d, grown, entries, rfl⟩ := more
    by_cases here : e = d
    · subst here
      refine .enlist ?_ rfl rfl
      show Subscriptions.Enlisted _ _
        (Function.update machine.engine.record.subscriptions e grown e)
      rw [update_self]
      exact entries
    · exact .of_same (update_of_ne here _ _) rfl rfl
  | @remove d code status =>
    by_cases here : e = d
    · subst here
      exact .remove code status (update_self ..) rfl rfl
    · exact .of_same (update_of_ne here _ _) rfl rfl
  | @move d status asked moves =>
    by_cases here : e = d
    · subst here
      refine .move asked moves (update_self ..) ?_ rfl
      simp [movesOf, Occurrence.move?, Engine.record]
    · refine .of_same (update_of_ne here _ _) ?_ rfl
      simp [movesOf, Occurrence.move?, Ne.symm here]
  | @destroy d asked there =>
    by_cases here : e = d
    · subst here
      exact .destroy asked there (update_self ..) rfl (update_self ..)
    · exact .of_same (update_of_ne here _ _) rfl (update_of_ne here _ _)
  | @wait d turn alive unfailed =>
    by_cases here : e = d
    · subst here
      exact .wait rfl (update_self ..) rfl rfl
    · exact .of_same (update_of_ne here _ _) rfl rfl

namespace Fares

variable (fares : machine.Fares e after)
include fares

/-- An entry that ends a wait has been registered before, unless it is new along with the wait. -/
theorem mem_listing {filed : Status × Entry} (listed : filed ∈ (after.subscriptions e).listing)
    {w : WaitRef} (about : filed.2.listener.wait? = some w) :
    filed ∈ (machine.engine.executable e).subscriptions.listing ∨
      w = machine.engine.waits.length ∧ after.waits = machine.engine.waits ++ [⟨e, none⟩] := by
  cases fares with
  | enlist entries =>
    -- What is registered otherwise ends no wait.
    refine .inl ((entries.mem_listing.2 listed).resolve_right fun new => ?_)
    rw [new.1] at about
    cases about
  | remove code status entries =>
    rw [entries, Subscriptions.remove, Subscriptions.listing_restrict] at listed
    exact .inl (List.mem_of_mem_filter listed)
  | wait begun entries =>
    rw [entries] at listed
    rcases (Executable.enlisted_waitRequest _ _).mem_listing.2 listed with old | new
    · exact .inl old
    · exact .inr ⟨Option.some.inj (about.symm.trans new.1), begun⟩
  | move asked moves entries =>
    rw [entries] at listed
    exact .inl (Subscriptions.mem_settle_iff.mp listed).1
  | destroy asked there entries =>
    rw [entries] at listed
    cases listed

/-- Group numbers that were used stay so. -/
theorem nextGroup_le :
    (machine.engine.executable e).subscriptions.nextGroup ≤ (after.subscriptions e).nextGroup := by
  cases fares with
  | enlist entries => exact entries.nextGroup_le
  | wait begun entries =>
    rw [entries]
    exact (Executable.enlisted_waitRequest _ _).nextGroup_le
  | remove code status entries | move asked moves entries | destroy asked there entries =>
    rw [entries]
    exact Nat.le_refl _

/-- An entry of a group that was there before has been there before as well. -/
theorem mem_listing_of_group {filed : Status × Entry}
    (listed : filed ∈ (after.subscriptions e).listing) {g : Nat} (grouped : filed.2.group = some g)
    (used : g < (machine.engine.executable e).subscriptions.nextGroup) :
    filed ∈ (machine.engine.executable e).subscriptions.listing := by
  -- Registrations use new group numbers only.
  have old {plain : Listener → Prop} {grown : Subscriptions}
      (more : (machine.engine.executable e).subscriptions.Enlisted plain grown)
      (member : filed ∈ grown.listing) :
      filed ∈ (machine.engine.executable e).subscriptions.listing :=
    (more.mem_listing.2 member).resolve_right fun new =>
      Nat.not_le.mpr used (new.2 g grouped)
  cases fares with
  | enlist entries => exact old entries listed
  | remove code status entries =>
    rw [entries, Subscriptions.remove, Subscriptions.listing_restrict] at listed
    exact List.mem_of_mem_filter listed
  | wait begun entries =>
    rw [entries] at listed
    exact old (Executable.enlisted_waitRequest _ _) listed
  | move asked moves entries =>
    rw [entries] at listed
    exact (Subscriptions.mem_settle_iff.mp listed).1
  | destroy asked there entries =>
    rw [entries] at listed
    cases listed

/-- Group numbers are used in turn. -/
theorem grouped (grouped : (machine.engine.executable e).subscriptions.Grouped) :
    (after.subscriptions e).Grouped := by
  cases fares with
  | enlist entries => exact grouped.enlisted entries
  | remove code status entries =>
    rw [entries]
    exact grouped.restrict _
  | wait begun entries =>
    rw [entries]
    exact grouped.enlisted (Executable.enlisted_waitRequest _ _)
  | move asked moves entries =>
    rw [entries]
    exact grouped.settle _
  | destroy asked there entries =>
    rw [entries]
    exact .clear _

end Fares

/-- An executable that is to move to another status does so in the next step. -/
theorem Sound.move_next (sound : machine.Sound) {status : Status}
    (asked : machine.control = .perform (.setStatus e status))
    (moves : (machine.engine.executable e).moves status = true) (step : Next machine next) :
    next.engine.record.subscriptions e =
        (machine.engine.executable e).subscriptions.settle status ∧
      movesOf e next.engine.record.moves = movesOf e machine.engine.record.moves ++
        [⟨e, status, (machine.engine.executable e).status⟩] ∧
      next.engine.record.destroyed e = (machine.engine.executable e).destroyed := by
  -- The engine has the turn, so there is no other step.
  obtain rfl := step.eq_step (by simp [clientTurn, asked])
  have fits := sound.control
  rw [asked] at fits
  have built := fits.1.executables e (List.mem_singleton_self e)
  have written : machine.step.engine.record = (machine.engine.transition e status).record := by
    simp only [Machine.step, asked, start, moves, if_true]
    rw [engine_notify, Engine.record_note _ rfl]
    rfl
  rw [written, Engine.record_transition _ built (sound.store.hosted e built)]
  exact ⟨update_self .., by simp [movesOf, Occurrence.move?, Engine.record], rfl⟩

theorem Reachable.fares_next (reachable : machine.Reachable) (step : Next machine next)
    (e : ExecutableRef) : machine.Fares e next.engine.record :=
  (reachable.writes_next step).fares e

theorem Reachable.grouped (reachable : machine.Reachable) (e : ExecutableRef) :
    (machine.engine.executable e).subscriptions.Grouped := by
  induction reachable with
  | refl => exact .empty
  | step run step ih => exact (Reachable.fares_next run step e).grouped ih

end Machine

end Readiness
