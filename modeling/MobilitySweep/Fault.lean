import MobilitySweep.Text.Bytes

/-! # Faults

What a failed operation reports: the kind of the innermost cause, which callers may act on, and a
message that reads from the outermost context inwards.
-/

namespace MobilitySweep

/-- The kinds of failure that callers tell apart. -/
inductive FaultKind where
  | invalidConfig
  | invalidParams
  | invalidRun
  | noPlaceholder
  | missing
  | cancelled
  | other
deriving DecidableEq, Repr, Inhabited

/-- A failure with its message. -/
structure Fault where
  kind : FaultKind
  message : Bytes
deriving DecidableEq, Repr, Inhabited

namespace Fault

/-- A failure that no caller acts on. -/
def plain (message : Bytes) : Fault := ⟨.other, message⟩

/-- The same failure seen from a caller, whose context goes in front of the message. -/
def within (context : Bytes) (fault : Fault) : Fault := ⟨fault.kind, context ++ ": " ++ fault.message⟩

/-- Cancellation of the surrounding activity. -/
def cancelled : Fault := ⟨.cancelled, "context canceled"⟩

end Fault

end MobilitySweep
