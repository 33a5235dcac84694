import Readiness.Engine.Store

/-! The records that a trace shows of the journal. -/

namespace Readiness

namespace Engine

/-- The record that a trace shows of what an observer was told. -/
def noticeRecord (engine : Engine) (notice : Notice) : TraceRecord :=
  let named (e : ExecutableRef) := ("executable", (engine.executable e).id)
  match notice with
  | .executed e status => ⟨.info, "Execute", [named e, ("status", status.code)]⟩
  | .transitioned e old new =>
    ⟨.info, "Status changed", [named e, ("from", old.code), ("to", new.code)]⟩
  | .listenerFailed e status fault =>
    ⟨.warn, "Listener failed", [named e, ("status", status.code), ("error", fault.message)]⟩
  | .destroyed e => ⟨.info, "Destroyed", [named e]⟩

/-- The record that a trace shows of an occurrence, if it shows it. -/
def record? (engine : Engine) (occurrence : Occurrence) : Option TraceRecord :=
  let named (e : ExecutableRef) := ("executable", (engine.executable e).id)
  match occurrence with
  | .registered e => some ⟨.debug, "registered", [named e]⟩
  | .deregistered e => some ⟨.debug, "deregistered", [named e]⟩
  | .started e status =>
    some ⟨.debug, "execute",
      [named e, ("process", (engine.executable e).work.name), ("status", status.code)]⟩
  | .transitioned e old new =>
    some ⟨.trace, "status transition", [named e, ("from", old.code), ("to", new.code)]⟩
  | .observed h notice =>
    -- Only the tracing observer leaves a record of its own.
    if (engine.host h).observer = .tracing then some (engine.noticeRecord notice) else none
  | .returned _ event _ (some fault) =>
    some ⟨.error, "status listener failed",
      [named event.source, ("status", event.status.code), ("error", fault.message)]⟩
  | .destroyed e => some ⟨.debug, "destroyed", [named e]⟩
  | .gateSkipped g dependency status =>
    some ⟨.debug, "dependencies ready but executable failed meanwhile; transition skipped",
      [named (engine.gate g).dependent, ("dependency", (engine.executable dependency).id),
        ("target", (engine.gate g).target.code), ("status", status.code)]⟩
  | .dependencyFailed composite dependency status =>
    some ⟨.warn, "dependency failed",
      [named composite, ("dependency", (engine.executable dependency).id),
        ("status", status.code)]⟩
  | .workFailed e reason => some ⟨.warn, "process failed", [named e, ("reason", reason)]⟩
  | _ => none

end Engine

end Readiness
