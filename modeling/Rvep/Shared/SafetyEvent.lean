/-!
# Safety events

What an edge tells the operator about its safety state
(`packages/shared/src/safety-events.ts`).
-/

namespace Rvep

inductive SafetyEventName where
  | edgeOnline
  | safeModeEntered
  | safeModeLeft
  | emergencyStopAcked
  | edgeDisconnecting
  | fatal
  deriving DecidableEq, Repr

/-- The events that tell the operator the vehicle will not move. -/
def SafetyEventName.locks : SafetyEventName → Bool
  | .safeModeEntered | .edgeDisconnecting | .fatal => true
  | .edgeOnline | .safeModeLeft | .emergencyStopAcked => false

/-- `kind` and `v` are the literals of the schema and are left out. -/
structure SafetyEvent where
  ts : Nat
  vehicleId : String
  sessionId : String
  seq : Nat
  event : SafetyEventName
  reason : Option String
  message : Option String
  deriving DecidableEq, Repr

def SafetyEvent.accepted (e : SafetyEvent) : Bool := e.vehicleId != "" && e.sessionId != ""

/-- `SafetyEvent.safeParse` on the fields of a payload. -/
def decodeSafetyEvent (payload : SafetyEvent) : Option SafetyEvent :=
  if payload.accepted then some payload else none

end Rvep
