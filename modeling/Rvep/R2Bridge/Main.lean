import Rvep.Lib.Reactive
import Rvep.R2Bridge.Python
import Rvep.Shared.SafetyEvent

/-!
# The R2 bridge

`apps/r2-bridge`: data channel packets in, Twists out. `vehicle_adapter.py`
owns the motor topics, `main.py` the watchdog and the room's handlers. The
bridge is a reactive system whose output is what it published, in order.
-/

namespace Rvep.R2Bridge

-- ---------------------------------------------------------------------------
-- Vehicle adapter
-- ---------------------------------------------------------------------------

structure Vector3 where
  x : PyFloat := .finite 0
  y : PyFloat := .finite 0
  z : PyFloat := .finite 0
  deriving DecidableEq, Repr

/-- `geometry_msgs/Twist`; all fields default to 0. -/
structure Twist where
  linear : Vector3 := {}
  angular : Vector3 := {}
  deriving DecidableEq, Repr

def Twist.zero : Twist := {}

inductive Topic where
  | rvepCmdVel
  | rvepEmergencyStop
  | cmdVel
  deriving DecidableEq, Repr

inductive PublishMode where
  | mirror
  | csm
  deriving DecidableEq, Repr

inductive Effect where
  | twist (topic : Topic) (msg : Twist)
  | safetyEvent (event : SafetyEvent)
  | raised (err : PyError)
  deriving DecidableEq, Repr

structure WheeltecAMRAdapter where
  publishMode : PublishMode
  maxLinearMs : PyFloat
  maxAngularRads : PyFloat

namespace WheeltecAMRAdapter

/-- `_rvep_cmd_pub`, and `_cmd_pub` where it exists. -/
def motorTopics (a : WheeltecAMRAdapter) : List Topic :=
  match a.publishMode with
  | .mirror => [.rvepCmdVel, .cmdVel]
  | .csm => [.rvepCmdVel]

def twistOf (a : WheeltecAMRAdapter) (forward lateral yaw : PyFloat) : Twist where
  linear := { x := forward.mul a.maxLinearMs, y := lateral.mul a.maxLinearMs }
  angular := { z := yaw.mul a.maxAngularRads }

def publishMovement (a : WheeltecAMRAdapter) (forward lateral yaw : PyFloat) : List Effect :=
  a.motorTopics.map (.twist · (a.twistOf forward lateral yaw))

def publishEmergencyStop (a : WheeltecAMRAdapter) : List Effect :=
  .twist .rvepEmergencyStop .zero :: a.motorTopics.map (.twist · .zero)

end WheeltecAMRAdapter

-- ---------------------------------------------------------------------------
-- Watchdog
-- ---------------------------------------------------------------------------

/-- `loop.time()` in seconds is monotonic, `time.time()` in ms is not. -/
structure Reading where
  loopTime : ℚ
  timeMs : Nat

structure Watchdog where
  lastBeat : Option ℚ := none
  running : Bool := false
  tripped : Bool := false

namespace Watchdog

def beat (r : Reading) (w : Watchdog) : Watchdog :=
  { w with lastBeat := some r.loopTime, tripped := false }

def start (w : Watchdog) : Watchdog := { w with running := true }

def expires (timeoutS : ℚ) (r : Reading) (w : Watchdog) : Bool :=
  w.running && !w.tripped && w.lastBeat.any fun t => decide (timeoutS < r.loopTime - t)

end Watchdog

-- ---------------------------------------------------------------------------
-- Room handlers
-- ---------------------------------------------------------------------------

/-- What the environment variables fix, and the session id of this process. -/
structure Config where
  vehicleId : String
  heartbeatTimeoutS : ℚ
  adapter : WheeltecAMRAdapter
  sessionId : String

/-- A `publish_safety` that has been scheduled and has not run yet. -/
structure Task where
  eventName : SafetyEventName
  reason : Option String
  deriving DecidableEq, Repr

structure Bridge where
  watchdog : Watchdog := {}
  safetySeq : Nat := 0
  /-- Oldest first; the event loop runs them in this order. -/
  tasks : List Task := []

abbrev Packet := Except PyError PyValue

variable (cfg : Config)

/-- An empty reason is left out of the event. -/
def publishSafety (r : Reading) (eventName : SafetyEventName) (reason : Option String)
    (b : Bridge) : Bridge × List Effect :=
  let seq := b.safetySeq + 1
  ({ b with safetySeq := seq },
    [.safetyEvent { ts := r.timeMs, vehicleId := cfg.vehicleId, sessionId := cfg.sessionId,
                    seq := seq, event := eventName, reason := reason.filter (· != ""),
                    message := none }])

/-- `asyncio.create_task(publish_safety(..))`: no part of it runs before the handler is done. -/
def createTask (eventName : SafetyEventName) (reason : Option String) (b : Bridge) : Bridge :=
  { b with tasks := b.tasks ++ [⟨eventName, reason⟩] }

/-- A task sends its event before its first `await`. -/
def runTask (r : Reading) (b : Bridge) : Bridge × List Effect :=
  match b.tasks with
  | [] => (b, [])
  | task :: tasks => publishSafety cfg r task.eventName task.reason { b with tasks := tasks }

def triggerStop (b : Bridge) : Bridge × List Effect :=
  (createTask .safeModeEntered (some "heartbeat_timeout") b, cfg.adapter.publishEmergencyStop)

def poll (r : Reading) (b : Bridge) : Bridge × List Effect :=
  if b.watchdog.expires cfg.heartbeatTimeoutS r then
    triggerStop cfg { b with watchdog := { b.watchdog with tripped := true } }
  else (b, [])

/-- The movement's axes: `cmd.get("axes") or {}`, then each axis as a float, 0
where it is missing. -/
def movementAxes (cmd : PyValue) : Except PyError (PyFloat × PyFloat × PyFloat) := do
  let axes ← cmd.get "axes" .none
  let axes := if axes.truthy then axes else .dict []
  let fwd ← (← axes.get "forward" (.int 0)).toFloat
  let lat ← (← axes.get "lateral" (.int 0)).toFloat
  let yaw ← (← axes.get "yaw" (.int 0)).toFloat
  return (fwd, lat, yaw)

def onMovement (cmd : PyValue) : List Effect :=
  match movementAxes cmd with
  | .error err => [.raised err]
  | .ok (fwd, lat, yaw) => cfg.adapter.publishMovement fwd lat yaw

inductive Kind where
  | heartbeat
  | movement
  | emergencyStop
  | resumeControl
  | unknown
  deriving DecidableEq, Repr

def Kind.ofType : PyValue → Kind
  | .str "heartbeat" => .heartbeat
  | .str "movement" => .movement
  | .str "emergency_stop" => .emergencyStop
  | .str "resume_control" => .resumeControl
  | _ => .unknown

def onData (r : Reading) (packet : Packet) (b : Bridge) : Bridge × List Effect :=
  match packet with
  | .error .unicodeDecodeError => (b, [])
  | .error .jsonDecodeError => (b, [])
  | .error err => (b, [.raised err])
  | .ok cmd =>
    match cmd.get "type" .none with
    | .error err => (b, [.raised err])
    | .ok kind =>
      match Kind.ofType kind with
      | .heartbeat => ({ b with watchdog := b.watchdog.beat r }, [])
      | .movement => (b, onMovement cfg cmd)
      | .emergencyStop =>
        (createTask .emergencyStopAcked (some "operator") b, cfg.adapter.publishEmergencyStop)
      | .resumeControl => (createTask .safeModeLeft (some "operator_resume") b, [])
      | .unknown => (b, [])

def onDisconnected (b : Bridge) : Bridge × List Effect := (b, cfg.adapter.publishEmergencyStop)

/-- `main` once `room.connect` has returned, up to its next `await`. -/
def onConnected (r : Reading) (b : Bridge) : Bridge × List Effect :=
  publishSafety cfg r .edgeOnline (some "bridge_started") b

/-- `main` once `edge_online` is sent, up to its next `await`. -/
def onOnlineSent (r : Reading) (b : Bridge) : Bridge × List Effect :=
  publishSafety cfg r .safeModeLeft (some "demo_auto_resume") b

/-- `main` once `safe_mode_left` is sent. -/
def onAutoResumed (b : Bridge) : Bridge × List Effect :=
  ({ b with watchdog := b.watchdog.start }, [])

def onShutdown (r : Reading) (b : Bridge) : Bridge × List Effect :=
  let (b, sent) := publishSafety cfg r .edgeDisconnecting (some "bridge_shutdown") b
  (b, cfg.adapter.publishEmergencyStop ++ sent)

/-- Handlers and tasks may run wherever `main` awaits, so each of its stretches
is an event of its own. -/
inductive Event where
  | data (packet : Packet)
  | poll
  | task
  | connected
  | onlineSent
  | autoResumed
  | disconnected
  | shutdown

structure Stamped where
  clock : Reading
  event : Event

def step (b : Bridge) (e : Stamped) : Bridge × List Effect :=
  match e.event with
  | .data packet => onData cfg e.clock packet b
  | .poll => poll cfg e.clock b
  | .task => runTask cfg e.clock b
  | .connected => onConnected cfg e.clock b
  | .onlineSent => onOnlineSent cfg e.clock b
  | .autoResumed => onAutoResumed b
  | .disconnected => onDisconnected cfg b
  | .shutdown => onShutdown cfg e.clock b

def bridge : Reactive.System Bridge Stamped (List Effect) where
  init := {}
  step := step cfg

end Rvep.R2Bridge
