import Rvep.Shared.ControlCommand

/-!
# The operator's control channel

`apps/web/src/lib/control-channel.ts`: one channel per page load, stamping
every command with its session, its connection epoch and the next sequence
number. All commands share the counter; the reliable flag is chosen per type.
-/

namespace Rvep.Cockpit

/-- The constructor arguments the page passes: it opens no channel for an
empty vehicle id, and prefixes the session id. -/
structure Identity where
  vehicleId : String
  sessionId : String
  connectionEpoch : Nat
  vehicleId_ne : vehicleId ≠ ""
  sessionId_ne : sessionId ≠ ""

structure ControlChannel where
  identity : Identity
  seq : Nat
  lastMovementTs : Nat
  lastMovement : Axes
  lastEmergencyStopTs : Nat
  totalCommands : Nat
  recentTs : List Nat

def ControlChannel.new (identity : Identity) : ControlChannel where
  identity := identity
  seq := 0
  lastMovementTs := 0
  lastMovement := .zero
  lastEmergencyStopTs := 0
  totalCommands := 0
  recentTs := []

structure Instant where
  dateNow : Nat
  iso : IsoInstant

structure Publication where
  payload : ControlCommand
  reliable : Bool

namespace ControlChannel

def envelope (now : Instant) (ch : ControlChannel) : ControlChannel × BaseFields :=
  let seq := ch.seq + 1
  ({ ch with seq := seq },
    { vehicleId := ch.identity.vehicleId, sessionId := ch.identity.sessionId,
      connectionEpoch := ch.identity.connectionEpoch, seq := seq, timestamp := now.iso })

def sendMovement (now : Instant) (axes : Axes) (ch : ControlChannel) :
    ControlChannel × Publication :=
  let (ch, fields) := ch.envelope now
  ({ ch with
      lastMovement := axes
      lastMovementTs := now.dateNow
      recentTs := ch.recentTs ++ [now.dateNow]
      totalCommands := ch.totalCommands + 1 },
    ⟨⟨fields, .movement axes⟩, false⟩)

def sendEmergencyStop (now : Instant) (ch : ControlChannel) : ControlChannel × Publication :=
  let (ch, fields) := ch.envelope now
  ({ ch with lastEmergencyStopTs := now.dateNow, totalCommands := ch.totalCommands + 1 },
    ⟨⟨fields, .emergencyStop⟩, true⟩)

/-- The fire-and-forget stop keeps no statistics. -/
def sendEmergencyStopSync (now : Instant) (ch : ControlChannel) : ControlChannel × Publication :=
  let (ch, fields) := ch.envelope now
  (ch, ⟨⟨fields, .emergencyStop⟩, true⟩)

def sendResume (now : Instant) (ch : ControlChannel) : ControlChannel × Publication :=
  let (ch, fields) := ch.envelope now
  (ch, ⟨⟨fields, .resumeControl "operator_confirmed"⟩, true⟩)

def sendHeartbeat (now : Instant) (ch : ControlChannel) : ControlChannel × Publication :=
  let (ch, fields) := ch.envelope now
  (ch, ⟨⟨fields, .heartbeat⟩, false⟩)

end ControlChannel

/-- The calls the page, the gamepad and the heartbeat timer make. -/
inductive Send where
  | heartbeat
  | movement (axes : Axes)
  | emergencyStop
  | emergencyStopSync
  | resume

def Send.run (now : Instant) (ch : ControlChannel) : Send → ControlChannel × Publication
  | .heartbeat => ch.sendHeartbeat now
  | .movement axes => ch.sendMovement now axes
  | .emergencyStop => ch.sendEmergencyStop now
  | .emergencyStopSync => ch.sendEmergencyStopSync now
  | .resume => ch.sendResume now

theorem Send.run_spec (now : Instant) (ch : ControlChannel) (what : Send) :
    (what.run now ch).1.identity = ch.identity ∧ (what.run now ch).1.seq = ch.seq + 1 ∧
      (what.run now ch).2.payload.toBaseFields = (ch.envelope now).2 := by
  cases what with
  | _ => exact ⟨rfl, rfl, rfl⟩

theorem ControlChannel.envelope_accepted (now : Instant) (ch : ControlChannel) :
    (ch.envelope now).2.accepted = true := by
  simp [envelope, BaseFields.accepted, ch.identity.vehicleId_ne, ch.identity.sessionId_ne,
    now.iso.property]

end Rvep.Cockpit
