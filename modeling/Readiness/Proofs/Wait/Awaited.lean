import Readiness.Proofs.Machine.Fares

/-! The entries of a wait: one for each status that settles the executable, all of one group.

They stay through everything that does not settle the executable, and are all gone once something
does.
-/

namespace Readiness

variable {status : Status}

namespace Work

variable {work : Work}

/-- The ready status and the failed ones settle an executable with this work. -/
def settles (work : Work) (status : Status) : Bool :=
  decide (status = work.readyStatus) || work.failedStatuses.contains status

/-- How a wait ends if the executable is settled by a status. -/
def verdict (work : Work) (status : Status) : Settlement :=
  if status = work.readyStatus then .ready else .failed status

theorem settles_iff :
    work.settles status = true ↔ status = work.readyStatus ∨ status ∈ work.failedStatuses := by
  simp [settles]

theorem ne_null_of_settles (sensible : work.fault? = none) (settles : work.settles status = true) :
    status ≠ .null := by
  rcases settles_iff.mp settles with rfl | failed
  · exact readyStatus_ne_null sensible
  · exact ne_null_of_mem_failedStatuses sensible failed

theorem verdict_readyStatus (work : Work) : work.verdict work.readyStatus = .ready :=
  if_pos rfl

theorem verdict_of_mem_failedStatuses (sensible : work.fault? = none)
    (failed : status ∈ work.failedStatuses) : work.verdict status = .failed status := by
  refine if_neg ?_
  rintro rfl
  exact readyStatus_not_mem_failedStatuses sensible failed

end Work

namespace Subscriptions

variable {subscriptions : Subscriptions} {work : Work} {w : WaitRef}

/-- A wait has the entries that it needs, which are a group of their own. -/
structure Awaited (subscriptions : Subscriptions) (work : Work) (w : WaitRef) : Prop where
  group : ∃ g < subscriptions.nextGroup, ∀ filed ∈ subscriptions.listing,
    filed.2.group = some g ↔ filed.2.listener.wait? = some w
  covers : ∀ status, work.settles status = true →
    ∃ filed ∈ subscriptions.listing, filed.1 = status ∧ filed.2.listener.wait? = some w
  fits : ∀ filed ∈ subscriptions.listing, filed.2.listener.wait? = some w →
    work.settles filed.1 = true ∧ ∀ event : Event, event.status = filed.1 →
      filed.2.listener.verdict? event = some (w, work.verdict filed.1)

namespace Awaited

variable (awaited : subscriptions.Awaited work w)
include awaited

/-- Entries that were there before and are in no new group may be all that is listed. -/
theorem of_listing {after : Subscriptions} (numbers : subscriptions.nextGroup ≤ after.nextGroup)
    (kept : ∀ filed ∈ subscriptions.listing, filed.2.listener.wait? = some w →
      filed ∈ after.listing) (known : ∀ filed ∈ after.listing, filed ∈ subscriptions.listing ∨
      filed.2.listener.wait? ≠ some w ∧ ∀ g ∈ filed.2.group, subscriptions.nextGroup ≤ g) :
    after.Awaited work w := by
  -- The group is the same as before, and what is new is in none of the groups that were there.
  obtain ⟨g, used, alike⟩ := awaited.group
  refine ⟨⟨g, Nat.lt_of_lt_of_le used numbers, fun filed listed => ?_⟩, fun status settles => ?_,
    fun filed listed about => ?_⟩
  · rcases known filed listed with old | ⟨other, later⟩
    · exact alike filed old
    · exact iff_of_false (fun own => Nat.not_lt.mpr (later g own) used) other
  · obtain ⟨filed, listed, under, about⟩ := awaited.covers status settles
    exact ⟨filed, kept filed listed about, under, about⟩
  · exact awaited.fits filed ((known filed listed).resolve_right fun new => new.1 about) about

/-- Other listeners may be registered. -/
theorem enlisted {plain : Listener → Prop}
    (other : ∀ listener, plain listener → listener.wait? ≠ some w) {grown : Subscriptions}
    (more : subscriptions.Enlisted plain grown) : grown.Awaited work w :=
  awaited.of_listing more.nextGroup_le (fun _ listed _ => more.mem_listing.1 listed)
    fun _ listed => (more.mem_listing.2 listed).imp_right fun new => ⟨other _ new.1, new.2⟩

/-- Listeners of the client may be removed. -/
theorem remove (code : CodeRef) (status : Option Status) :
    (subscriptions.remove (.client code) status).Awaited work w := by
  unfold Subscriptions.remove
  refine awaited.of_listing (Nat.le_refl _) (fun filed listed about => ?_) fun filed listed => ?_
  · rw [listing_restrict, List.mem_filter]
    refine ⟨listed, ?_⟩
    -- The listeners of a wait are the engine's own.
    have other : filed.2.listener ≠ .client code := by
      intro same
      rw [same] at about
      cases about
    simp [other]
  · rw [listing_restrict] at listed
    exact .inl (List.mem_of_mem_filter listed)

/-- A transition that does not settle the executable leaves them alone. -/
theorem settle (sensible : work.fault? = none) (numbered : subscriptions.Numbered)
    (passing : work.settles status = false) : (subscriptions.settle status).Awaited work w := by
  -- Whatever is due belongs to other groups, since no entry of the wait is due.
  have away : ∀ filed ∈ subscriptions.listing, filed.2.listener.wait? = some w →
      ¬ (filed.1 = .null ∨ filed.1 = status) := by
    rintro filed listed about (blank | same)
    · exact Work.ne_null_of_settles sensible (awaited.fits filed listed about).1 blank
    · rw [← same, (awaited.fits filed listed about).1] at passing
      cases passing
  obtain ⟨g, _, alike⟩ := awaited.group
  refine awaited.of_listing (Nat.le_refl _) (fun filed listed about => ?_) fun filed listed =>
    .inl (mem_settle_iff.mp listed).1
  refine mem_settle_iff.mpr ⟨listed, fun spent => away filed listed about spent.2, ?_⟩
  intro own grouped other due together
  obtain ⟨key, among⟩ := numbered.keyed.mem_listing_of_mem_due due
  rw [Option.mem_def.mp grouped |>.symm.trans ((alike filed listed).mpr about)] at together
  exact away _ among ((alike _ among).mp together) ((numbered.mem_due_iff among).mp due)

/-- A transition that settles the executable spends them all. -/
theorem not_mem_settle (numbered : subscriptions.Numbered) (settles : work.settles status = true)
    {filed : Status × Entry} (listed : filed ∈ (subscriptions.settle status).listing) :
    filed.2.listener.wait? ≠ some w := by
  intro about
  obtain ⟨g, _, alike⟩ := awaited.group
  obtain ⟨old, _, apart⟩ := mem_settle_iff.mp listed
  -- One entry of the group is due, which takes all the others along.
  obtain ⟨other, among, under, same⟩ := awaited.covers status settles
  refine apart g ((alike filed old).mpr about) other.2 ?_ ((alike other among).mpr same)
  exact (numbered.mem_due_iff among).mpr (.inr under)

end Awaited

end Subscriptions

/-- A wait that begins gets the entries that it needs. -/
theorem Executable.awaited_waitRequest {executable : Executable} {w : WaitRef}
    (sensible : executable.work.fault? = none) (grouped : executable.subscriptions.Grouped)
    (fresh : ∀ filed ∈ executable.subscriptions.listing, filed.2.listener.wait? ≠ some w) :
    (executable.subscriptions.addGroup (executable.links (waitRequest w))).Awaited
      executable.work w := by
  have links {link : Listener × Status} := executable.mem_links_waitRequest w link
  have listed {filed : Status × Entry} := (executable.subscriptions.listing_addGroup_perm
    (executable.links (waitRequest w))).mem_iff (a := filed)
  -- The group has the next number, which no entry had before.
  refine ⟨⟨executable.subscriptions.nextGroup, ?_, fun filed member => ?_⟩,
    fun status settles => ?_, fun filed member about => ?_⟩
  · rw [Subscriptions.nextGroup_addGroup]
    exact Nat.lt_succ_self _
  · rcases List.mem_append.mp (listed.mp member) with new | old
    · obtain ⟨among, _, group, _⟩ := Subscriptions.mem_filings new
      refine iff_of_true group (Listener.wait?_eq_some_iff.mpr ?_)
      exact (links.mp among).imp (congrArg Prod.fst) And.left
    · exact iff_of_false (fun own => Nat.lt_irrefl _ (grouped filed old _ own)) (fresh filed old)
  · -- The ready status has a link with the success listener, a failed one with the failure
    -- listener.
    have found : ∃ link ∈ executable.links (waitRequest w),
        link.2 = status ∧ link.1.wait? = some w := by
      rcases Work.settles_iff.mp settles with rfl | failed
      · exact ⟨(.waitReady w, _), links.mpr (.inl rfl), rfl, rfl⟩
      · exact ⟨(.waitFailed w, status), links.mpr (.inr ⟨rfl, failed⟩), rfl, rfl⟩
    obtain ⟨link, among, under, about⟩ := found
    obtain ⟨filed, new, own, key⟩ := Subscriptions.exists_mem_filings among true
      executable.subscriptions.nextSequence (some executable.subscriptions.nextGroup)
    exact ⟨filed, listed.mpr (List.mem_append_left _ new), key.trans under, own ▸ about⟩
  · rcases List.mem_append.mp (listed.mp member) with new | old
    · rcases links.mp (Subscriptions.mem_filings new).1 with same | ⟨same, failed⟩
      · obtain ⟨own, key⟩ := Prod.ext_iff.mp same
        refine ⟨Work.settles_iff.mpr (.inl key), fun event _ => ?_⟩
        rw [show filed.1 = executable.work.readyStatus from key, Work.verdict_readyStatus,
          show filed.2.listener = _ from own]
        rfl
      · refine ⟨Work.settles_iff.mpr (.inr failed), fun event reached => ?_⟩
        rw [Work.verdict_of_mem_failedStatuses sensible failed, ← reached,
          show filed.2.listener = _ from same]
        rfl
    · exact absurd about (fresh filed old)

end Readiness
