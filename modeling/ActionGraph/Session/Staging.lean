import ActionGraph.Keyed
import ActionGraph.Value.Number

/-!
The circumstances of a session: which calls of the host fail, when calls and animations are
answered, what the clock says, and where log entries go.
-/

namespace ActionGraph

inductive HostCall where
  | mount
  | create
  | animate
  | destroy
  | resolve
  | unsubscribe
  deriving DecidableEq, Repr

inductive FaultPlan where
  | always (message : String)
  /-- One entry for each call in turn; no call after the last entry fails. -/
  | inTurn (messages : List (Option String))
  deriving DecidableEq, Repr

/-- The message that a call fails with, by the number of calls before it. -/
def FaultPlan.message? : FaultPlan → Nat → Option String
  | .always m, _ => some m
  | .inTurn ms, n => (ms[n]?).join

structure Staging where
  faults : List (HostCall × FaultPlan)
  /-- Whether mounts and elements are answered only after everything else that is ready. -/
  deferred : Bool
  sticky : Bool
  /-- Whether an animation lasts until it is settled from outside. -/
  gated : Bool
  deriving DecidableEq, Repr

namespace Staging

def plain : Staging := ⟨[], false, false, false⟩

def plans (s : Staging) (c : HostCall) : Bool := Keyed.has c s.faults

/-- The fault of a call, by the number of calls of its kind before it. -/
def fault? (s : Staging) (c : HostCall) (n : Nat) : Option Fault :=
  ((Keyed.get? c s.faults).bind (·.message? n)).map Fault.failure

end Staging

/-- A clock that shows seconds, as numbers unless it is out of order. -/
inductive Clock where
  | steady (reading : Value)
  /-- Readings one after the other; when they are used up the clock fails. -/
  | readings (rest : List Value)

def Clock.read : Clock → Except Fault Value × Clock
  | .steady n => (.ok n, .steady n)
  | .readings [] => (.error .clockExhausted, .readings [])
  | .readings (n :: rest) => (.ok n, .readings rest)

inductive Sink where
  | nowhere
  /-- To a sink that may fail at an entry, which depends on the number of entries before it, on the
  message and on the data. -/
  | present (fault? : Nat → String → Value → Option Fault)

def Sink.collecting : Sink := .present fun _ _ _ => none

end ActionGraph
