import TableShell.Engine

/-!
# Refusals

An engine on which every request fails, always for the same reason. With it a session
shows how it goes on after failures.

## Main definitions

- `Reason`: why something failed, and what it was meant for
- `Refusal.engine`: the engine that refuses every request
-/

namespace TableShell

/-- Why something failed, and what it was meant for, if that is known. -/
structure Reason where
  cause : String
  /-- What it was meant for. -/
  context? : Option String := none
deriving DecidableEq, Repr

/-- What is said of a reason: its context, or else the cause. -/
def Reason.message (reason : Reason) : String :=
  reason.context?.getD reason.cause

/-- Every request fails; a scope text is taken for the name of a single file. -/
def Refusal.engine (reason : Reason) : Engine Unit where
  select _ scope := [scope]
  perform _ _ _ := { state := (), failure? := some reason.message }

end TableShell
