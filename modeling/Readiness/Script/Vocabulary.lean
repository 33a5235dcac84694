import Readiness.Status

/-! The statuses that a script can name. -/

namespace Readiness

namespace Script

/-- The kinds of status beside the built-in ones; some share their codes on purpose. -/
def customStatuses : List CustomStatus :=
  [⟨"loaded", "loaded", "Dependencies loaded"⟩,
    ⟨"indexed", "indexed", "Search index built"⟩,
    ⟨"broken", "broken", "Broken beyond repair"⟩,
    ⟨"other_null", "null", "Not initialized"⟩,
    ⟨"other_initialized", "initialized", "Initialized"⟩,
    ⟨"other_ready", "ready", "Ready, from another library"⟩,
    ⟨"other_failed", "failed", "Failed"⟩,
    ⟨"empty", "", ""⟩,
    ⟨"unicode", "gotovo-готово😀", "tab\there \"quoted\""⟩]

/-- Every status that a script can name. -/
def statuses : List Status :=
  [.null, .initialized, .waiting, .processing, .ready, .failed] ++ customStatuses.map .custom

/-- The status of that name. -/
def status? (name : String) : Option Status :=
  statuses.find? (·.name == name)

end Script

end Readiness
