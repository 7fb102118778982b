import Rvep.Lib.Reactive
import Rvep.Publisher.IpcTypes

/-!
# The publisher manager

`apps/mock-edge/src/go-publisher-manager.ts`: the edge agent's supervisor of
the video publisher process. The manager is a reactive system whose events are
the callbacks Node runs for it; a handler returns the manager it leaves and
what it did, in order. A run begins when `start()` has been called.
-/

namespace Rvep.Publisher

open Reactive

def HEARTBEAT_TIMEOUT_MS : Nat := 3000
def MAX_RESTART_ATTEMPTS : Nat := 10

def BACKOFF_STEPS_MS : List Nat := [1000, 2000, 4000, 8000, 16000, 30000]

def backoffMs (attempt : Nat) : Nat :=
  BACKOFF_STEPS_MS.getD (min attempt (BACKOFF_STEPS_MS.length - 1)) 0

structure Config where
  vehicleId : String
  cameraId : String
  cameraProfilePath : String
  videoProfileId : String
  livekitUrl : String
  apiKey : String
  apiSecret : String
  roomName : String
  publisherBin : String
  deriving DecidableEq, Repr

def Config.socketPath (cfg : Config) : String :=
  "/var/run/rvep/" ++ cfg.vehicleId ++ "/publisher-" ++ cfg.cameraId ++ ".sock"

def Config.identity (cfg : Config) : String := "edge-" ++ cfg.cameraId

-- ---------------------------------------------------------------------------
-- State
-- ---------------------------------------------------------------------------

inductive ManagerState where
  | idle
  | starting
  | handshaking
  | running
  | stopping
  | restarting
  | failed
  deriving DecidableEq, Repr

inductive StartCall where
  | uncalled
  | awaiting
  | resolved
  | rejected
  deriving DecidableEq, Repr

/-- What Node holds for the manager. Processes, sockets and restart timers are
numbered in the order in which they were made. -/
structure Node where
  startCall : StartCall
  /-- `stop()` calls in `waitForExit`, by the process they wait for. -/
  stops : List Nat
  spawns : Nat
  /-- The processes that run; one that could not be spawned never does. -/
  live : List Nat
  accepted : Nat
  destroyed : List Nat
  /-- Handshakes whose token is being minted. -/
  mints : Nat
  timeouts : Nat
  /-- The restart timers that are set and have neither fired nor been cleared. -/
  pending : List Nat
  deriving DecidableEq, Repr

structure Manager where
  state : ManagerState
  /-- The socket server accepts connections. -/
  server : Bool
  child : Option Nat
  connection : Option Nat
  outSeq : Nat
  lastHeartbeatTs : Nat
  heartbeatTimer : Bool
  consecutiveFailures : Nat
  stopRequested : Bool
  restartTimer : Option Nat
  node : Node
  deriving DecidableEq, Repr

/-- `Date.now()` and `new Date().toISOString()`. -/
structure Clock where
  dateNow : Nat
  iso : IsoInstant

-- ---------------------------------------------------------------------------
-- Effects
-- ---------------------------------------------------------------------------

/-- The error an `error` event carries: one the manager words itself, or the
cause it was handed, whose own text then stands. -/
inductive ManagerError where
  | malformedMessage (err : IpcError)
  | publisherError (code : ErrorCode) (message : String)
  | cause (message : String)
  deriving DecidableEq, Repr

inductive Effect where
  | stateChange (state : ManagerState)
  | heartbeat (msg : HeartbeatMessage)
  | error (err : ManagerError)
  | crashed (code : Option Int) (signal : Option String)
  | restarted (attempt : Nat)
  | failed
  | spawn (child : Nat) (publisherBin socketPath cameraProfile : String)
  | kill (child : Nat)
  | mintPublisherToken (apiKey apiSecret room identity : String) (ttlSeconds : Nat)
  | send (socket : Nat) (msg : AgentMessage)
  | restartIn (timer delay : Nat)
  deriving DecidableEq, Repr

@[simp] def Effect.isStart : Effect → Bool
  | .send _ msg => msg.body.isStart
  | _ => false

@[simp] def Effect.isSpawn : Effect → Bool
  | .spawn .. => true
  | _ => false

variable (cfg : Config)

def setState (s : ManagerState) (m : Manager) : Manager × List Effect :=
  if m.state = s then (m, []) else ({ m with state := s }, [.stateChange s])

def closeServer (m : Manager) : Manager := { m with server := false }

def sendMessage (c : Clock) (body : AgentBody) (m : Manager) : Manager × List Effect :=
  match m.connection with
  | none => (m, [])
  | some socket =>
    if socket ∈ m.node.destroyed then (m, [])
    else
      ({ m with outSeq := m.outSeq + 1 },
        [.send socket { ts := c.iso, seq := m.outSeq + 1, body := body }])

def startHeartbeatWatcher (m : Manager) : Manager := { m with heartbeatTimer := true }

def stopHeartbeatWatcher (m : Manager) : Manager := { m with heartbeatTimer := false }

def killChild (m : Manager) : List Effect := m.child.elim [] fun child => [.kill child]

-- ---------------------------------------------------------------------------
-- Sockets and messages
-- ---------------------------------------------------------------------------

def onPublisherConnected (m : Manager) : Manager × List Effect :=
  setState .handshaking
    { m with connection := some m.node.accepted
             node := { m.node with accepted := m.node.accepted + 1 } }

/-- `onHello` up to its `await`. -/
def onHello (m : Manager) : Manager × List Effect :=
  ({ m with node := { m.node with mints := m.node.mints + 1 } },
    [.mintPublisherToken cfg.apiKey cfg.apiSecret cfg.roomName cfg.identity 3600])

/-- `onHello` from its `await` on. -/
def onTokenMinted (c : Clock) (token : String) (m : Manager) : Manager × List Effect :=
  let (m, sent) := sendMessage c
    (.start cfg.livekitUrl token cfg.roomName cfg.identity cfg.videoProfileId none) m
  let (m, changed) := setState .running m
  (startHeartbeatWatcher { m with lastHeartbeatTs := c.dateNow }, sent ++ changed)

def onHeartbeat (c : Clock) (msg : HeartbeatMessage) (m : Manager) : Manager × List Effect :=
  ({ m with lastHeartbeatTs := c.dateNow }, [.heartbeat msg])

def onPublisherError (msg : ErrorMessage) (m : Manager) : Manager × List Effect :=
  if msg.fatal then (m, []) else (m, [.error (.publisherError msg.code msg.message)])

def handleIncomingLine (c : Clock) (line : Line) (m : Manager) : Manager × List Effect :=
  match parsePublisherMessage line with
  | .error err => (m, [.error (.malformedMessage err)])
  | .ok (.hello _) => onHello cfg m
  | .ok (.heartbeat msg) => onHeartbeat c msg m
  | .ok (.error msg) => onPublisherError msg m

/-- The callback of the heartbeat watcher's interval. -/
def checkHeartbeat (c : Clock) (m : Manager) : Manager × List Effect :=
  if m.state ≠ .running then (m, [])
  else if m.lastHeartbeatTs = 0 then (m, [])
  else if HEARTBEAT_TIMEOUT_MS < c.dateNow - m.lastHeartbeatTs then (m, killChild m)
  else (m, [])

-- ---------------------------------------------------------------------------
-- Spawn and restart
-- ---------------------------------------------------------------------------

/-- `spawned` is false when the binary cannot be run: the process then emits
`error` and never `exit`. -/
def spawnPublisher (spawned : Bool) (m : Manager) : Manager × List Effect :=
  if m.stopRequested then (m, [])
  else
    let (m, changed) := setState .starting m
    let child := m.node.spawns
    ({ m with lastHeartbeatTs := 0, child := some child
              node := { m.node with spawns := child + 1
                                    live := if spawned then child :: m.node.live else m.node.live } },
      changed ++ [.spawn child cfg.publisherBin cfg.socketPath cfg.cameraProfilePath])

def onChildExit (code : Option Int) (signal : Option String) (m : Manager) :
    Manager × List Effect :=
  let m := stopHeartbeatWatcher { m with child := none, connection := none }
  if m.stopRequested then (m, [])
  else
    let failures := m.consecutiveFailures + 1
    let m := { m with consecutiveFailures := failures }
    if MAX_RESTART_ATTEMPTS < failures then
      let (m, changed) := setState .failed m
      (closeServer m, .crashed code signal :: changed ++ [.failed])
    else
      let (m, changed) := setState .restarting m
      let timer := m.node.timeouts
      ({ m with restartTimer := some timer
                node := { m.node with timeouts := timer + 1, pending := timer :: m.node.pending } },
        .crashed code signal :: changed ++ [.restartIn timer (backoffMs (failures - 1))])

/-- The callback of a restart timer. -/
def onRestartTimeout (spawned : Bool) (m : Manager) : Manager × List Effect :=
  let m := { m with restartTimer := none }
  if m.stopRequested then (m, [])
  else
    let (n, out) := spawnPublisher cfg spawned m
    (n, .restarted m.consecutiveFailures :: out)

-- ---------------------------------------------------------------------------
-- Start and stop
-- ---------------------------------------------------------------------------

/-- `new GoPublisherManager(cfg)` -/
def Manager.constructed : Manager where
  state := .idle
  server := false
  child := none
  connection := none
  outSeq := 0
  lastHeartbeatTs := 0
  heartbeatTimer := false
  consecutiveFailures := 0
  stopRequested := false
  restartTimer := none
  node :=
    { startCall := .uncalled, stops := [], spawns := 0, live := [], accepted := 0, destroyed := [],
      mints := 0, timeouts := 0, pending := [] }

/-- `start()` up to its first `await`. -/
def start (m : Manager) : Except String Manager :=
  if m.state ≠ .idle then
    .error ("GoPublisherManager[" ++ cfg.cameraId ++ "]: already started")
  else .ok { m with node := { m.node with startCall := .awaiting } }

/-- `start()` once the server listens. -/
def onListening (spawned : Bool) (m : Manager) : Manager × List Effect :=
  spawnPublisher cfg spawned
    { m with server := true, node := { m.node with startCall := .resolved } }

def clearRestartTimer (m : Manager) : Manager :=
  match m.restartTimer with
  | none => m
  | some timer =>
    { m with restartTimer := none
             node := { m.node with pending := m.node.pending.filter (· ≠ timer) } }

/-- The end of `stop()`. -/
def finishStop (m : Manager) : Manager × List Effect := setState .idle (closeServer m)

def stop (c : Clock) (m : Manager) : Manager × List Effect :=
  let (m, changed) := setState .stopping { m with stopRequested := true }
  let m := stopHeartbeatWatcher (clearRestartTimer m)
  let (m, sent) := sendMessage c (.stop .shutdown) m
  match m.child with
  | some child => ({ m with node := { m.node with stops := child :: m.node.stops } }, changed ++ sent)
  | none =>
    let (m, done) := finishStop m
    (m, changed ++ sent ++ done)

-- ---------------------------------------------------------------------------
-- The system
-- ---------------------------------------------------------------------------

inductive Event where
  /-- The awaits of `start()` are over. -/
  | listening (spawned : Bool)
  | mkdirFails
  | serverError (message : String)
  | stop
  | stopTimeout (child : Nat)
  | connect
  /-- `none` is a blank line. -/
  | line (socket : Nat) (line : Option Line)
  | socketDestroyed (socket : Nat)
  /-- `close`, of the socket or of its line reader. -/
  | socketClose (socket : Nat)
  | socketError (socket : Nat) (message : String)
  | writeError (message : String)
  | minted (token : String)
  | mintFails (message : String)
  | watchdog
  | childExit (child : Nat) (code : Option Int) (signal : Option String)
  | childError (message : String)
  | restartTimeout (timer : Nat) (spawned : Bool)
  deriving DecidableEq

structure Stamped where
  event : Event
  clock : Clock

/-- A failure of the server rejects a `start()` that still waits for it. -/
def rejectStart (m : Manager) : Manager :=
  if m.node.startCall = .awaiting then
    { m with node := { m.node with startCall := .rejected } }
  else m

/-- The `exit` listeners of a process: the manager's own, then those of the
`stop()` calls that wait for it. -/
def onExit (child : Nat) (code : Option Int) (signal : Option String) (m : Manager) :
    Manager × List Effect :=
  let (m, out) := onChildExit code signal
    { m with node := { m.node with live := m.node.live.filter (· ≠ child) } }
  if child ∈ m.node.stops then
    let (m, done) := finishStop
      { m with node := { m.node with stops := m.node.stops.filter (· ≠ child) } }
    (m, out ++ done)
  else (m, out)

/-- One callback. An event whose source is not there (a socket that was never
accepted, a process that does not run, a timer that is not set) is ignored. -/
def step (m : Manager) (e : Stamped) : Manager × List Effect :=
  match e.event with
  | .listening spawned =>
    if m.node.startCall = .awaiting then onListening cfg spawned m else (m, [])
  | .mkdirFails => (rejectStart m, [])
  | .serverError message => (rejectStart m, [.error (.cause message)])
  | .stop => stop e.clock m
  | .stopTimeout child =>
    if child ∈ m.node.stops then
      let (n, done) := finishStop { m with node := { m.node with stops := m.node.stops.erase child } }
      (n, .kill child :: done)
    else (m, [])
  | .connect => if m.server then onPublisherConnected m else (m, [])
  | .line socket line =>
    match line with
    | some line =>
      if socket < m.node.accepted then handleIncomingLine cfg e.clock line m else (m, [])
    | none => (m, [])
  | .socketDestroyed socket =>
    if socket < m.node.accepted then
      ({ m with node := { m.node with destroyed := socket :: m.node.destroyed } }, [])
    else (m, [])
  | .socketClose socket =>
    if socket < m.node.accepted then ({ m with connection := none }, []) else (m, [])
  | .socketError socket message =>
    if socket < m.node.accepted then ({ m with connection := none }, [.error (.cause message)])
    else (m, [])
  | .writeError message => (m, [.error (.cause message)])
  | .minted token =>
    if 0 < m.node.mints then
      onTokenMinted cfg e.clock token { m with node := { m.node with mints := m.node.mints - 1 } }
    else (m, [])
  | .mintFails message =>
    if 0 < m.node.mints then
      ({ m with node := { m.node with mints := m.node.mints - 1 } }, [.error (.cause message)])
    else (m, [])
  | .watchdog => if m.heartbeatTimer then checkHeartbeat e.clock m else (m, [])
  | .childExit child code signal =>
    if child ∈ m.node.live then onExit child code signal m else (m, [])
  | .childError message => (m, [.error (.cause message)])
  | .restartTimeout timer spawned =>
    if timer ∈ m.node.pending then
      onRestartTimeout cfg spawned
        { m with node := { m.node with pending := m.node.pending.filter (· ≠ timer) } }
    else (m, [])

/-- A manager whose `start()` has been called. -/
def Manager.init : Manager :=
  { Manager.constructed with node := { Manager.constructed.node with startCall := .awaiting } }

theorem start_constructed : start cfg Manager.constructed = .ok Manager.init := rfl

def manager : System Manager Stamped (List Effect) where
  init := Manager.init
  step := step cfg

end Rvep.Publisher
