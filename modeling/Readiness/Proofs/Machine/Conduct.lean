import Readiness.Proofs.Machine.Carried

/-! Clients that decide what to do: whatever the client does with its turns, it can be taken to
decide on all that it has seen so far, so that a run is determined by the client.
-/

namespace Readiness

namespace Machine

/-- What a client does in its next turn, given all that it has seen so far, newest first. -/
abbrev Client := List Machine → Move

/-- What comes next: the engine goes on, or the client makes its move; a move that cannot be made is
a turn let go by. -/
def goOn (client : Client) (seen : List Machine) : Machine :=
  let machine := seen.headD {}
  if machine.clientTurn then (machine.move? (client seen)).getD machine else machine.step

/-- All states of a run up to a number of steps, newest first. -/
def course (client : Client) : Nat → List Machine
  | 0 => [{}]
  | steps + 1 => goOn client (course client steps) :: course client steps

theorem length_course (client : Client) (steps : Nat) :
    (course client steps).length = steps + 1 := by
  induction steps with
  | zero => rfl
  | succ steps ih => rw [course, List.length_cons, ih]

/-- What a client would do later does not matter yet. -/
theorem course_congr {client other : Client} {steps : Nat}
    (same : ∀ seen, seen.length ≤ steps → client seen = other seen) :
    course client steps = course other steps := by
  induction steps with
  | zero => rfl
  | succ steps ih =>
    have before := ih fun seen short => same seen (Nat.le_succ_of_le short)
    have now := same (course other steps) (length_course other steps).le
    rw [course, course, before, goOn, goOn, now]

theorem headD_course_succ (client : Client) (steps : Nat) :
    (course client (steps + 1)).headD {} = goOn client (course client steps) :=
  rfl

/-- Every state of a run is one that a run can come to. -/
theorem reachable_headD_course (client : Client) (steps : Nat) :
    ((course client steps).headD {}).Reachable := by
  induction steps with
  | zero => exact .refl
  | succ steps ih =>
    rw [headD_course_succ, goOn]
    generalize (course client steps).headD {} = machine at ih ⊢
    split
    · -- A turn let go by changes nothing.
      cases moved : machine.move? (client (course client steps)) with
      | none => exact ih
      | some next => exact ih.step (next_of_move moved)
    · rename_i busy
      exact ih.step (.engine (by simpa using busy))

/-- Whatever the client can do in its turn is one of its moves. -/
theorem exists_move {machine next : Machine} (step : Next machine next)
    (turn : machine.clientTurn = true) : ∃ move, machine.move? move = some next := by
  cases step with
  | engine busy => exact absurd turn (by simp [busy])
  | accept called => exact ⟨.accept, if_pos called⟩
  | advance _ elapsed => exact ⟨.advance elapsed, if_pos turn⟩
  | openHost _ settings observer => exact ⟨.openHost settings observer, if_pos turn⟩
  | @build _ _ h id work e opened alive success =>
    have made : machine.built? h id work = some next := by
      rw [built?, if_pos ⟨turn, opened, alive⟩, success]
    cases id with
    | none => exact ⟨.build h work, made⟩
    | some id => exact ⟨.register h id work, made⟩
  | @retain _ e alive => exact ⟨.retain e, if_pos ⟨turn, alive⟩⟩
  | @release _ e held => exact ⟨.release e, if_pos ⟨turn, held⟩⟩
  | @subscribe _ e alive code status once =>
    exact ⟨.subscribe e code status once, if_pos ⟨turn, alive⟩⟩
  | @unsubscribe _ e alive code status => exact ⟨.unsubscribe e code status, if_pos ⟨turn, alive⟩⟩
  | @beginWait _ e alive => exact ⟨.beginWait e, if_pos ⟨turn, alive⟩⟩
  | @openSession _ h future opened => exact ⟨.openSession h future, if_pos ⟨turn, opened⟩⟩
  | @closeSession _ k idle => exact ⟨.closeSession k, if_pos ⟨turn, idle⟩⟩
  | @call _ command permitted => exact ⟨.call command, if_pos ⟨turn, permitted⟩⟩
  | finish _ top reply => exact ⟨.finish reply, by rw [move?, top]; exact if_pos turn⟩
  | @panic _ payload quiet => exact ⟨.panic payload, if_pos ⟨turn, quiet⟩⟩

/-- Every state that a run can come to is the last state of what some client does. -/
theorem exists_course {machine : Machine} (reachable : machine.Reachable) :
    ∃ client steps, (course client steps).headD {} = machine := by
  induction reachable with
  | refl => exact ⟨fun _ => .accept, 0, rfl⟩
  | @step machine next _ step ih =>
    obtain ⟨client, steps, here⟩ := ih
    by_cases turn : machine.clientTurn = true
    · -- The client does the same as before, and then makes the move.
      obtain ⟨move, moved⟩ := exists_move step turn
      refine ⟨fun seen => if seen.length ≤ steps then client seen else move, steps + 1, ?_⟩
      have before : course (fun seen => if seen.length ≤ steps then client seen else move) steps =
          course client steps := course_congr fun seen short => if_pos short
      rw [headD_course_succ, before, goOn, here, if_pos turn, length_course, if_neg (by omega),
        moved]
      rfl
    · refine ⟨client, steps + 1, ?_⟩
      rw [headD_course_succ, goOn, here, if_neg turn]
      exact (step.eq_step (by simpa using turn)).symm

/-- A client that makes the moves of a list, one in each of its turns. -/
def scripted (moves : List Move) : Client := fun seen =>
  moves.getD ((seen.filter clientTurn).length - 1) (.advance 0)

end Machine

end Readiness
