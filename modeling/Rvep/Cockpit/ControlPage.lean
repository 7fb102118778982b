import Rvep.Shared.SafetyEvent

/-!
# The control page

The safety state that `apps/web/src/app/control/[vehicleId]/page.tsx` keeps
from the safety events it receives, and what it displays.
-/

namespace Rvep.Cockpit

inductive SafetyState | unknown | active | safeMode
  deriving DecidableEq, Repr

structure ControlPage where
  vehicleId : String
  safetyEvent : Option SafetyEvent
  safetyState : SafetyState
  deriving DecidableEq, Repr

def ControlPage.new (vehicleId : String) : ControlPage where
  vehicleId := vehicleId
  safetyEvent := none
  safetyState := .unknown

/-- LiveKit's `ConnectionState`. -/
inductive ConnectionState
  | disconnected
  | connecting
  | connected
  | reconnecting
  | signalReconnecting
  deriving DecidableEq, Repr

/-- `fatal` has a label and is never displayed. -/
inductive DisplayState
  | connecting
  | active
  | safeLocked
  | reconnecting
  | disconnected
  | fatal
  deriving DecidableEq, Repr

def displayState (state : ConnectionState) (safetyState : SafetyState) : DisplayState :=
  match state with
  | .disconnected => .disconnected
  | .connecting => .connecting
  | .reconnecting | .signalReconnecting => .reconnecting
  | .connected => if safetyState = .active then .active else .safeLocked

namespace ControlPage

/-- `onData` on a safety event; telemetry is told apart by its `kind` and
leaves the safety state alone. -/
def onData (payload : SafetyEvent) (page : ControlPage) : ControlPage :=
  match decodeSafetyEvent payload with
  | none => page
  | some s =>
    if s.vehicleId != page.vehicleId then page
    else
      let page := { page with safetyEvent := some s }
      match s.event with
      | .safeModeEntered | .edgeDisconnecting => { page with safetyState := .safeMode }
      | .safeModeLeft => { page with safetyState := .active }
      -- informational; the edge follows up with `safe_mode_entered` if it is still safe
      | .edgeOnline => page
      | .fatal => { page with safetyState := .safeMode }
      | .emergencyStopAcked => page

-- ---------------------------------------------------------------------------
-- Laws
-- ---------------------------------------------------------------------------

section
variable {payload : SafetyEvent} {page : ControlPage}

theorem onData_rejected (h : payload.accepted = false) : page.onData payload = page := by
  simp [onData, decodeSafetyEvent, h]

@[simp] theorem onData_vehicleId : (page.onData payload).vehicleId = page.vehicleId := by
  unfold onData
  split
  · rfl
  · split
    · rfl
    · simp only
      split <;> rfl

/-- The safety state an event takes the page of a vehicle to, if it does. -/
def shows (vehicleId : String) (payload : SafetyEvent) : Option SafetyState :=
  if payload.accepted && payload.vehicleId == vehicleId then
    match payload.event with
    | .safeModeEntered | .edgeDisconnecting | .fatal => some .safeMode
    | .safeModeLeft => some .active
    | .edgeOnline | .emergencyStopAcked => none
  else none

theorem onData_safetyState (payload : SafetyEvent) (page : ControlPage) :
    (page.onData payload).safetyState = (shows page.vehicleId payload).getD page.safetyState := by
  unfold onData shows decodeSafetyEvent
  cases payload.accepted with
  | false => rfl
  | true =>
    by_cases hv : payload.vehicleId = page.vehicleId
    · simp only [hv, bne_self_eq_false, Bool.false_eq_true, if_false, if_true, beq_self_eq_true,
        Bool.and_self]
      cases payload.event <;> rfl
    · simp [hv]

theorem foldl_onData_vehicleId (events : List SafetyEvent) (page : ControlPage) :
    (events.foldl (fun page event => page.onData event) page).vehicleId = page.vehicleId := by
  induction events generalizing page with
  | nil => rfl
  | cons event events ih => rw [List.foldl_cons, ih, onData_vehicleId]

theorem onData_locks (h : payload.accepted = true) (hv : payload.vehicleId = page.vehicleId)
    (hlock : payload.event.locks = true) : (page.onData payload).safetyState = .safeMode := by
  simp only [onData, decodeSafetyEvent, h, hv, bne_self_eq_false, Bool.false_eq_true, ↓reduceIte]
  split
  · rfl
  · rfl
  next hev => rw [hev] at hlock; exact absurd hlock nofun
  next hev => rw [hev] at hlock; exact absurd hlock nofun
  · rfl
  next hev => rw [hev] at hlock; exact absurd hlock nofun

end

end ControlPage

end Rvep.Cockpit
