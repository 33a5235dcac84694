/-! References: the numbers under which the engine keeps what it was given. -/

namespace Readiness

/-- The place of an executable among all that were built. -/
abbrev ExecutableRef := Nat

/-- The place of a host among all that were opened. -/
abbrev HostRef := Nat

/-- The place of a gate among all that were set up. -/
abbrev GateRef := Nat

/-- The place of a wait among all that were begun. -/
abbrev WaitRef := Nat

/-- The place of a session among all that were opened. -/
abbrev SessionRef := Nat

/-- A piece of the client's code, which the engine can only call. -/
abbrev CodeRef := Nat

end Readiness
