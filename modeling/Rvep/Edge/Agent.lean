import Rvep.Lib.Reactive
import Rvep.Lib.Watermark
import Rvep.Shared.ControlCommand
import Rvep.Shared.SafetyEvent

/-!
# The edge agent

`apps/mock-edge/src/index.ts`: the receiver that enforces the heartbeat and
safe-mode contract. The agent is a reactive system; each event comes with the
two clocks it may read, and the output of a step is what the agent did to the
outside world, in order.
-/

namespace Rvep.Edge

/-- `nowMs()` is monotonic, `Date.now()` is not. -/
structure Reading where
  nowMs : Int
  dateNow : Nat
  deriving DecidableEq, Repr

structure SafetyState where
  safeMode : Bool
  reason : String
  lastHeartbeatAt : Int
  lastAcceptedSeq : Nat
  lastAcceptedEpoch : Nat
  sessionId : String
  safetySeq : Nat
  deriving DecidableEq, Repr

/-- The module's mutable state; `activeRoom` is `none` until the room is joined. -/
structure Agent where
  state : SafetyState
  activeRoom : Bool
  deriving DecidableEq, Repr

def Agent.boot (sessionId : String) : Agent where
  state :=
    { safeMode := true, reason := "boot_default", lastHeartbeatAt := 0, lastAcceptedSeq := 0,
      lastAcceptedEpoch := 0, sessionId := sessionId, safetySeq := 0 }
  activeRoom := false

def heartbeatTimeoutMs : Int := 3000

def heartbeatCheckIntervalMs : Int := 500

-- ---------------------------------------------------------------------------
-- Effects
-- ---------------------------------------------------------------------------

inductive ReportPayload where
  | identity (identity : String)
  | reason (reason : String)
  | empty
  | stop (seq : Nat) (ts : String)
  | axes (axes : Axes)
  deriving DecidableEq, Repr

structure ControlEvent where
  vehicleId : String
  eventName : String
  payload : ReportPayload
  ts : Nat
  deriving DecidableEq, Repr

inductive Effect where
  | report (event : ControlEvent)
  | broadcast (event : SafetyEvent)
  | zeroVelocity
  | movement (axes : Axes)
  | action (name : String)
  | config (key : String) (value : ConfigValue)
  deriving DecidableEq, Repr

def Effect.isExecution : Effect → Bool
  | .movement _ => true
  | .action _ => true
  | _ => false

abbrev VehicleId := String

variable (vehicle : VehicleId)

def reportEvent (r : Reading) (eventName : String) (payload : ReportPayload) : Effect :=
  .report { vehicleId := vehicle, eventName := eventName, payload := payload, ts := r.dateNow }

def publishSafetyEvent (r : Reading) (event : SafetyEventName) (reason : Option String)
    (a : Agent) : Agent × List Effect :=
  if a.activeRoom then
    let seq := a.state.safetySeq + 1
    ({ a with state := { a.state with safetySeq := seq } },
      [.broadcast { ts := r.dateNow, vehicleId := vehicle, sessionId := a.state.sessionId,
                    seq := seq, event := event, reason := reason, message := none }])
  else (a, [])

-- ---------------------------------------------------------------------------
-- Safe mode
-- ---------------------------------------------------------------------------

def enterSafeMode (r : Reading) (reason : String) (a : Agent) : Agent × List Effect :=
  if a.state.safeMode && a.state.reason == reason then (a, [])
  else
    let (a, sent) := publishSafetyEvent vehicle r .safeModeEntered (some reason)
      { a with state := { a.state with safeMode := true, reason := reason } }
    (a, reportEvent vehicle r "safe_mode_entered" (.reason reason) :: sent ++ [.zeroVelocity])

def leaveSafeMode (r : Reading) (a : Agent) : Agent × List Effect :=
  if !a.state.safeMode then (a, [])
  else
    let (a, sent) := publishSafetyEvent vehicle r .safeModeLeft (some "operator_resume")
      { a with state := { a.state with safeMode := false } }
    (a, reportEvent vehicle r "manual_recovery_confirmed" .empty :: sent)

-- ---------------------------------------------------------------------------
-- Commands
-- ---------------------------------------------------------------------------

/-- The epoch / seq dedupe at the head of `handleCommand`: the new watermarks
and whether the command is fresh. -/
def dedupe (epoch seq : Nat) (s : SafetyState) : SafetyState × Bool :=
  if epoch < s.lastAcceptedEpoch then (s, false)
  else
    let s := if s.lastAcceptedEpoch < epoch then
        { s with lastAcceptedEpoch := epoch, lastAcceptedSeq := 0 } else s
    if seq ≤ s.lastAcceptedSeq then (s, false) else ({ s with lastAcceptedSeq := seq }, true)

def resumeControl (r : Reading) (acknowledgement : String) (a : Agent) : Agent × List Effect :=
  if acknowledgement != "operator_confirmed" then
    (a, [reportEvent vehicle r "resume_denied" (.reason "missing_acknowledgement")])
  else if 1000 < r.nowMs - a.state.lastHeartbeatAt then
    (a, [reportEvent vehicle r "resume_denied" (.reason "heartbeat_stale")])
  else if a.state.safeMode then leaveSafeMode vehicle r a
  else publishSafetyEvent vehicle r .safeModeLeft (some "already_active") a

def dispatch (r : Reading) (cmd : ControlCommand) (a : Agent) : Agent × List Effect :=
  match cmd.body with
  | .heartbeat => ({ a with state := { a.state with lastHeartbeatAt := r.nowMs } }, [])
  | .emergencyStop =>
    let (a, out) := enterSafeMode vehicle r "emergency_stop" a
    (a, out ++ [reportEvent vehicle r "emergency_stop" (.stop cmd.seq cmd.timestamp)])
  | .resumeControl acknowledgement => resumeControl vehicle r acknowledgement a
  | .movement axes =>
    if a.state.safeMode then (a, [reportEvent vehicle r "safety_blocked_movement" (.axes axes)])
    else (a, [.movement axes])
  | .action name _ => if a.state.safeMode then (a, []) else (a, [.action name])
  | .config key value => (a, [.config key value])

def handleCommand (r : Reading) (cmd : ControlCommand) (a : Agent) : Agent × List Effect :=
  let (s, fresh) := dedupe cmd.connectionEpoch cmd.seq a.state
  if fresh then dispatch vehicle r cmd { a with state := s } else ({ a with state := s }, [])

-- ---------------------------------------------------------------------------
-- Timers and room events
-- ---------------------------------------------------------------------------

def heartbeatTick (r : Reading) (a : Agent) : Agent × List Effect :=
  if a.state.lastHeartbeatAt == 0 then (a, [])
  else if a.state.safeMode then (a, [])
  else if heartbeatTimeoutMs < r.nowMs - a.state.lastHeartbeatAt then
    enterSafeMode vehicle r "heartbeat_timeout" a
  else (a, [])

def onDataReceived (r : Reading) (payload : ControlCommand) (a : Agent) : Agent × List Effect :=
  match decodeCommand payload with
  | none => (a, [])
  | some cmd => if cmd.vehicleId != vehicle then (a, []) else handleCommand vehicle r cmd a

/-- What follows `room.connect()` (and the `RoomEvent.Connected` handler). -/
def onConnected (r : Reading) (a : Agent) : Agent × List Effect :=
  let (a, online) := publishSafetyEvent vehicle r .edgeOnline none { a with activeRoom := true }
  let (a, entered) :=
    if a.state.safeMode then
      publishSafetyEvent vehicle r .safeModeEntered (some a.state.reason) a
    else (a, [])
  (a, reportEvent vehicle r "edge_online" (.identity ("edge-" ++ vehicle)) :: online ++ entered)

def onDisconnected (r : Reading) (a : Agent) : Agent × List Effect :=
  enterSafeMode vehicle r "room_disconnected" { a with activeRoom := false }

/-- What `shutdown` publishes; then it stops the publishers, leaves the room and exits. -/
def onShutdown (r : Reading) (a : Agent) : Agent × List Effect :=
  publishSafetyEvent vehicle r .edgeDisconnecting (some "shutdown") a

inductive Event where
  | data (payload : ControlCommand)
  | command (cmd : ControlCommand)
  | tick
  | connected
  | disconnected

structure Stamped where
  clock : Reading
  event : Event

def step (a : Agent) (e : Stamped) : Agent × List Effect :=
  match e.event with
  | .data payload => onDataReceived vehicle e.clock payload a
  | .command cmd => handleCommand vehicle e.clock cmd a
  | .tick => heartbeatTick vehicle e.clock a
  | .connected => onConnected vehicle e.clock a
  | .disconnected => onDisconnected vehicle e.clock a

def agent (sessionId : String) : Reactive.System Agent Stamped (List Effect) where
  init := Agent.boot sessionId
  step := step vehicle

end Rvep.Edge
