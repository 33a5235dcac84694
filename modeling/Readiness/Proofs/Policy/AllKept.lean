import Readiness.Proofs.Policy.Posture
import Readiness.Proofs.Policy.Still

/-! What holds of the gist throughout while nothing is given up, synchronised or observed by client
code: nobody is destroyed, and nobody is without a handle once it has been handed out.
-/

namespace Readiness

open List

variable {e : ExecutableRef} {frame : Frame} {rest : List Frame}

namespace Engine

variable {engine : Engine}

theorem Passive.addHost (passive : engine.Passive) (settings : Settings) {observer : Observer}
    (silent : ∀ code, observer ≠ .client code) : (engine.addHost settings observer).Passive := by
  intro h code
  rw [host_addHost]
  split
  · exact silent code
  · exact passive h code

theorem passive_still : engine.still.Passive ↔ engine.Passive := by
  simp only [Passive, host_still]
  rfl

theorem Passive.defer (passive : engine.Passive) (h : HostRef) (batch : Batch) :
    (engine.defer h batch).Passive := by
  have put : (engine.modifyHost h fun host =>
      { host with deferred := host.deferred ++ [batch] }).Passive := by
    refine passive.modifyHost h ?_
    exact fun _ => rfl
  unfold Engine.defer wake
  split <;>
  · refine put.modifyHost h ?_
    exact fun _ => rfl

theorem Passive.listenReady (passive : engine.Passive) (e : ExecutableRef)
    (request : ReadyRequest) : (engine.listenReady e request).Passive := by
  simp only [Engine.listenReady]
  split
  · exact Passive.defer (by exact passive) _ _
  · exact passive

theorem executables_listenReady (engine : Engine) (e : ExecutableRef) (request : ReadyRequest) :
    ∃ change : Executable → Executable,
      (engine.listenReady e request).executables = (engine.modifyExecutable e change).executables ∧
        ∀ executable, executable.handles ≤ (change executable).handles ∧
          (change executable).destroyed = executable.destroyed := by
  have told (immediate : Bool) (batch : Batch) (h : HostRef) :
      (if immediate then engine.spendBatch.defer h batch else engine).executables =
        engine.executables := by
    cases immediate with
    | false => rfl
    | true => exact executables_wake _ _
  simp only [listenReady, modifySubscriptions, modifyExecutable, told]
  refine ⟨_, rfl, ?_⟩
  exact fun _ => ⟨le_rfl, rfl⟩

end Engine

/-- A call that only has an executable move. -/
def Frame.isMoving : Frame → Bool
  | .moves _ _ | .announce _ _ _ | .conclude _ _ => true
  | _ => false

/-- Nobody is being handed out. -/
def Unhanded (duties : List Frame) : Prop :=
  ∀ e, .hand e ∉ duties

theorem Unhanded.cons {duties : List Frame} (unhanded : Unhanded duties)
    (other : ∀ e, frame ≠ .hand e) : Unhanded (frame :: duties) := by
  intro e member
  rcases mem_cons.mp member with same | old
  · exact other e same.symm
  · exact unhanded e old

namespace Gist

/-- Only moves come before somebody is handed out. -/
def Handing (gist : Gist) : Prop :=
  ∀ above e below, gist.duties = above ++ .hand e :: below →
    (∀ frame ∈ above, frame.isMoving = true) ∧
      (gist.errand = none ∨ ∃ mover status, gist.errand = some (.setStatus mover status))

/-- Nothing is given up, or observed by client code. -/
structure AllKept (gist : Gist) : Prop where
  spared : ∀ e, (gist.store.executable e).destroyed = false
  passive : gist.store.Passive
  manned : ∀ e < gist.store.executables.length,
    0 < (gist.store.executable e).handles ∨ .hand e ∈ gist.duties
  handing : gist.Handing

variable {gist next : Gist}

namespace Handing

theorem of_unhanded (unhanded : Unhanded gist.duties) : gist.Handing := by
  intro above e below split
  exact absurd (split ▸ mem_append_right _ mem_cons_self) (unhanded e)

/-- Another call may be put where one of those that only move stood, or on top of all. -/
theorem push (handing : gist.Handing) (old : List Frame) (moving : frame.isMoving = true)
    (stands : gist.duties = old ++ rest) (duties : next.duties = frame :: rest)
    (errand : next.errand = none ∨ ∃ mover status, next.errand = some (.setStatus mover status)) :
    next.Handing := by
  intro above e below split
  rw [duties] at split
  cases above with
  | nil =>
    cases split
    cases moving
  | cons first above =>
    obtain ⟨rfl, later⟩ := List.cons.inj split
    have moves := (handing (old ++ above) e below (by
      rw [stands, later]
      exact (append_assoc ..).symm)).1
    refine ⟨forall_mem_cons.mpr ⟨moving, fun frame member => ?_⟩, errand⟩
    exact moves frame (mem_append_right _ member)

theorem pop (handing : gist.Handing) (stands : gist.duties = frame :: rest)
    (duties : next.duties = rest) (idle : next.errand = none) : next.Handing := by
  intro above e below split
  obtain ⟨moves, _⟩ := handing (frame :: above) e below (by rw [stands, ← duties, split]; rfl)
  exact ⟨fun other member => moves other (mem_cons_of_mem _ member), .inl idle⟩

end Handing

namespace AllKept

variable (allKept : gist.AllKept)
include allKept

/-- Whoever is about to do something but move is not being handed out. -/
theorem unhanded {command : Command} (errand : gist.errand = some command)
    (other : ∀ e status, command ≠ .setStatus e status) : Unhanded gist.duties := by
  intro e member
  obtain ⟨above, below, split⟩ := append_of_mem member
  rcases (allKept.handing above e below split).2 with idle | ⟨mover, status, moves⟩
  · rw [errand] at idle
    cases idle
  · exact other mover status (Option.some.inj (errand.symm.trans moves))

/-- Under a call that does something but move nobody is being handed out. -/
theorem unhanded_of_top (stands : gist.duties = frame :: rest) (still : frame.isMoving = false)
    (other : ∀ e, frame ≠ .hand e) : Unhanded gist.duties := by
  intro e member
  obtain ⟨above, below, split⟩ := append_of_mem member
  have moves := (allKept.handing above e below split).1
  rw [stands] at split
  cases above with
  | nil => exact other e (List.cons.inj split).1
  | cons first above =>
    have moving := moves first mem_cons_self
    rw [← (List.cons.inj split).1, still] at moving
    cases moving

/-- At the turn of the client nobody is being handed out. -/
theorem unhanded_of_idle (idle : gist.isIdle = true) : Unhanded gist.duties := by
  have client := (Bool.and_eq_true_iff.mp idle).2
  cases stands : gist.duties with
  | nil => exact fun e member => (by cases member)
  | cons first rest =>
    rw [stands] at client
    rw [← stands]
    refine allKept.unhanded_of_top stands ?_ ?_
    · cases first <;> first | rfl | cases client
    · rintro e rfl
      cases client

/-- One executable may change, as long as no handle is taken away. -/
theorem alterOne (e : ExecutableRef) (change : Executable → Executable)
    (same : next.store.executables = (gist.store.modifyExecutable e change).executables)
    (kept : ∀ executable, executable.handles ≤ (change executable).handles ∧
      (change executable).destroyed = executable.destroyed) (passive : next.store.Passive)
    (handed : ∀ e, .hand e ∈ gist.duties → .hand e ∈ next.duties) (handing : next.Handing) :
    next.AllKept := by
  have look (other : ExecutableRef) : (gist.store.executable other).handles ≤
      (next.store.executable other).handles ∧ (next.store.executable other).destroyed =
        (gist.store.executable other).destroyed := by
    have there : next.store.executable other =
        (gist.store.modifyExecutable e change).executable other :=
      congrArg (List.getD · other default) same
    rw [there, Engine.executable_modifyExecutable]
    split
    · rename_i here
      rw [here.1]
      exact kept _
    · exact ⟨le_rfl, rfl⟩
  refine ⟨fun other => (look other).2.trans (allKept.spared other), passive, fun other built => ?_,
    handing⟩
  have length : next.store.executables.length = gist.store.executables.length :=
    (congrArg List.length same).trans (length_modify _ _ _)
  rcases allKept.manned other (length ▸ built) with held | hands
  · exact .inl (held.trans_le (look other).1)
  · exact .inr (handed other hands)

/-- Anything else may change. -/
theorem alter (same : next.store.executables = gist.store.executables)
    (passive : next.store.Passive) (handed : ∀ e, .hand e ∈ gist.duties → .hand e ∈ next.duties)
    (handing : next.Handing) : next.AllKept :=
  allKept.alterOne 0 id (same.trans (modify_id ..).symm) (fun _ => ⟨le_rfl, rfl⟩) passive handed
    handing

/-- A new executable that the client has a handle to, or that is being handed out. -/
theorem enlist {added : Executable}
    (grown : next.store.executables = (gist.store.addExecutable added).executables)
    (there : added.destroyed = false)
    (held : 0 < added.handles ∨ .hand gist.store.executables.length ∈ next.duties)
    (passive : next.store.Passive) (handed : ∀ e, .hand e ∈ gist.duties → .hand e ∈ next.duties)
    (handing : next.Handing) : next.AllKept := by
  have look (e : ExecutableRef) : next.store.executable e =
      (gist.store.addExecutable added).executable e := congrArg (List.getD · e default) grown
  refine ⟨fun e => ?_, passive, fun e built => ?_, handing⟩
  · rw [look, Engine.executable_addExecutable]
    split
    · exact there
    · exact allKept.spared e
  · rw [grown, Engine.addExecutable, length_append] at built
    rw [look, Engine.executable_addExecutable]
    split
    · rename_i last
      exact last ▸ held
    · rename_i old
      exact (allKept.manned e (Nat.lt_of_le_of_ne (Nat.le_of_lt_succ built) old)).imp_right
        (handed e)

/-- A request for readiness. -/
theorem listen (e : ExecutableRef) (request : ReadyRequest)
    (store : next.store = (gist.store.listenReady e request).still)
    (handed : ∀ e, .hand e ∈ gist.duties → .hand e ∈ next.duties) (handing : next.Handing) :
    next.AllKept := by
  obtain ⟨change, same, kept⟩ := gist.store.executables_listenReady e request
  refine allKept.alterOne e change (by rw [store]; exact same) kept ?_ handed handing
  rw [store, Engine.passive_still]
  exact allKept.passive.listenReady e request

theorem calm : AllKept { gist with errand := none } :=
  allKept.alter rfl allKept.passive (fun _ => id) fun above e below split =>
    ⟨(allKept.handing above e below split).1, .inl rfl⟩

/-- No command gives an executable up. -/
theorem start {command : Command} (errand : gist.errand = some command) :
    (gist.start command).AllKept := by
  have free (other : ∀ e status, command ≠ .setStatus e status) := allKept.unhanded errand other
  have later {first : Frame} (e : ExecutableRef) : .hand e ∈ gist.duties →
    .hand e ∈ first :: gist.duties := mem_cons_of_mem _
  cases command with
  | execute e refresh =>
    simp only [Gist.start]
    split
    · exact allKept.calm
    · exact allKept.alterOne e _ rfl (fun _ => ⟨le_rfl, rfl⟩)
        (allKept.passive.modifyHost _ fun _ => rfl) later
        (.of_unhanded ((free (by simp)).cons (by simp)))
  | setStatus e status =>
    simp only [Gist.start]
    split
    · exact allKept.alterOne e _ rfl (fun _ => ⟨le_rfl, rfl⟩)
        (allKept.passive.modifyHost _ fun _ => rfl) later
        (allKept.handing.push [] rfl rfl rfl (.inl rfl))
    · exact allKept.calm
  | report e status | fail e reason =>
    simp only [Gist.start]
    split
    · exact allKept.alter rfl allKept.passive later
        (allKept.handing.push [] rfl rfl rfl (.inl rfl))
    · exact allKept.calm
  | onReady e request =>
    exact allKept.listen e request rfl (fun _ => id) (.of_unhanded (free (by simp)))
  | buildConstant h =>
    refine allKept.enlist rfl rfl (.inr (mem_cons_of_mem _ mem_cons_self))
      (allKept.passive.modifyHost h fun _ => rfl)
        (fun e member => absurd member (free (by simp) e)) ?_
    -- The new executable moves twice before it is handed out.
    intro above e below split
    have unhanded := free (by simp)
    match above with
    | [] => cases split
    | [first] =>
      cases split
      exact ⟨fun frame member => (by rw [mem_singleton.mp member]; rfl), .inl rfl⟩
    | first :: second :: more =>
      have tail : gist.duties = more ++ .hand e :: below :=
        (List.cons.inj (List.cons.inj split).2).2
      exact absurd (tail ▸ mem_append_right _ mem_cons_self) (unhanded e)
  -- Nothing happens on the other commands.
  | synchronise e target dependencies onFailure => exact allKept
  | invoke listener event => exact allKept
  | destroy e => exact allKept
  | pump h => exact allKept
  | poll k => exact allKept

/-- Whoever is handed out has a handle. -/
theorem handOut (stands : gist.duties = .hand e :: rest) (idle : gist.errand = none) :
    AllKept { gist with store := gist.store.retain e, duties := rest } := by
  have retained : AllKept { gist with store := gist.store.retain e } :=
    allKept.alterOne e _ rfl (fun _ => ⟨Nat.le_succ _, rfl⟩) allKept.passive
      (fun _ => id) allKept.handing
  refine ⟨retained.spared, retained.passive, fun other built => ?_,
    allKept.handing.pop stands rfl idle⟩
  by_cases same : other = e
  · subst same
    left
    have built : other < gist.store.executables.length := by
      simpa [Engine.retain, Engine.modifyExecutable] using built
    have there := gist.store.executable_modifyExecutable_self
      (fun held => { held with handles := held.handles + 1 }) built
    exact (congrArg Executable.handles there).symm ▸ Nat.succ_pos _
  · refine (retained.manned other built).imp_right fun hands => ?_
    rw [show (_ : Gist).duties = _ from stands] at hands
    exact (mem_cons.mp hands).resolve_left (by simpa using same)

/-- No call that goes on gives an executable up. -/
theorem receive (idle : gist.errand = none) (stands : gist.duties = frame :: rest) :
    (Gist.receive { gist with duties := rest } frame).AllKept := by
  by_cases hands : ∃ e, frame = .hand e
  · obtain ⟨e, rfl⟩ := hands
    exact allKept.handOut stands idle
  · have other : ∀ e, frame ≠ .hand e := fun e same => hands ⟨e, same⟩
    have kept (e : ExecutableRef) (member : .hand e ∈ gist.duties) : .hand e ∈ rest := by
      rw [stands] at member
      exact (mem_cons.mp member).resolve_left fun same => other e same.symm
    have later {first : Frame} (e : ExecutableRef) (member : .hand e ∈ gist.duties) :
        .hand e ∈ first :: rest := mem_cons_of_mem _ (kept e member)
    have free (still : frame.isMoving = false) : Unhanded rest := fun e member =>
      allKept.unhanded_of_top stands still other e (stands ▸ mem_cons_of_mem _ member)
    have popped : AllKept { gist with duties := rest } :=
      allKept.alter rfl allKept.passive kept (allKept.handing.pop stands rfl idle)
    cases frame with
    | begin e status =>
      -- Nobody is being handed out while work begins.
      have unhanded := free rfl
      simp only [Gist.receive, Gist.startWork]
      split
      all_goals
        refine popped.alterOne e (fun working => { working with runs := working.runs + 1 }) rfl
          (fun _ => ⟨le_rfl, rfl⟩) allKept.passive (fun e member => absurd member (unhanded e)) ?_
        refine .of_unhanded ?_
      all_goals
        first
        | exact unhanded.cons (by simp)
        | exact (unhanded.cons (by simp)).cons (by simp)
    | moves e statuses =>
      cases statuses with
      | nil => exact popped
      | cons status others =>
        exact allKept.alter rfl allKept.passive later
          (allKept.handing.push [_] rfl stands rfl (.inr ⟨e, status, rfl⟩))
    | callBack e code =>
      exact allKept.alter rfl allKept.passive (fun e member => later e member |> mem_cons_of_mem _)
        (.of_unhanded (((free rfl).cons (by simp)).cons (by simp)))
    | announce e transition entries =>
      refine allKept.alter ?_ ?_ later (allKept.handing.push [_] rfl stands rfl (.inl idle))
      · simp only [Gist.receive]
        split <;> rfl
      · simp only [Gist.receive]
        split <;> exact allKept.passive
    | hand e => exact absurd rfl (other e)
    | _ => exact popped

theorem turn : gist.turn.AllKept := by
  unfold Gist.turn
  split
  · rename_i command errand
    exact allKept.start errand
  · rename_i frame rest errand stands
    exact allKept.receive errand stands
  · exact allKept

/-- All stays kept whatever the client does, if it opens no host with client code
for an observer. -/
theorem act (idle : gist.isIdle = true) {move : Machine.Move}
    (passive : ∀ settings code, move ≠ .openHost settings (.client code)) :
    (gist.act move).AllKept := by
  have unhanded := allKept.unhanded_of_idle idle
  have handed {duties : List Frame} (e : ExecutableRef) (member : .hand e ∈ gist.duties) :
    .hand e ∈ duties := absurd member (unhanded e)
  cases move with
  | openHost settings observer =>
    refine allKept.alter rfl (allKept.passive.addHost _ ?_) handed (.of_unhanded unhanded)
    rintro code rfl
    exact passive settings code rfl
  | advance elapsed => exact allKept.alter rfl allKept.passive handed (.of_unhanded unhanded)
  | build h work | register h id work =>
    exact allKept.enlist rfl rfl (.inl (Nat.succ_pos 0))
      (allKept.passive.modifyHost h fun _ => rfl) handed
      (.of_unhanded unhanded)
  | retain e =>
    exact allKept.alterOne e _ rfl (fun _ => ⟨Nat.le_succ _, rfl⟩) allKept.passive handed
      (.of_unhanded unhanded)
  | subscribe e code status once | unsubscribe e code status =>
    exact allKept.alterOne e _ rfl (fun _ => ⟨le_rfl, rfl⟩) allKept.passive handed
      (.of_unhanded unhanded)
  | beginWait e =>
    have waiting : AllKept { gist with store := gist.store.addWait ⟨e, none⟩ } :=
      allKept.alter rfl allKept.passive handed (.of_unhanded unhanded)
    simp only [Gist.act]
    split
    · exact waiting
    · exact waiting.listen e _ rfl handed (.of_unhanded unhanded)
  | call command => exact allKept.alter rfl allKept.passive handed (.of_unhanded unhanded)
  | finish reply =>
    exact allKept.alter rfl allKept.passive handed
      (.of_unhanded fun e member => unhanded e (mem_of_mem_tail member))
  | panic payload =>
    exact allKept.alter rfl allKept.passive handed (.of_unhanded fun e member => (by cases member))
  | release e | accept | openSession h future | closeSession k => exact allKept

end AllKept

end Gist

end Readiness
