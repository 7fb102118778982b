import Rvep.Lib.Chan
import Rvep.Publisher.GoJson
import Rvep.Publisher.SeqOrder

/-!
# The publisher process

`runIPCMode` of `apps/edge-publisher-go/cmd/publisher/main.go` once the socket
is dialled, with the goroutines it starts and `internal/ipc/server.go`'s
`readLoop`, `WaitForStart`, `HeartbeatLoop` and `Close`. A step is a turn of one
goroutine; which of them runs, and which ready case a `select` takes, is chosen
by the environment.
-/

namespace Rvep.Publisher.Go.Sidecar

open Reactive

def platformID : String := "jetson-agx-orin"

def version : String := "0.1.0"

/-- What `runIPCMode` takes from the camera profile and the system. -/
structure Setup where
  cameraID : String
  activePipeline : String
  livekitURL : String
  pid : Int64

/-- Where the main goroutine is. -/
inductive Phase
  | hello
  | awaitStart
  | newPipeline (start : StartMsg)
  | startPipeline (start : StartMsg)
  | connect (start : StartMsg)
  | eventLoop
  | stopPipeline
  | destroyPipeline
  | disconnect
  | closeConn
  | returning
  | exited (code : Nat)
  deriving DecidableEq

/-- The goroutine that waits for the start message. -/
inductive Waiter
  | unstarted
  | polling
  | closing
  | over
  deriving DecidableEq

/-- What a ready case of a `select` has received. -/
inductive Wake
  | signal
  | stop (msg : Option StopMsg)
  | started
  | published (err : Option String)
  | done

inductive GstCall
  | create (pipelineStr : String)
  | start
  | stop
  | destroy
  deriving DecidableEq

inductive Effect
  | send (call : Server.Send)
  | took (msg : Option StopMsg)
  | gst (call : GstCall)
  | connect (livekitURL token identity : String)
  | disconnect
  | closeConn
  | exit (code : Nat)
  | panic (text : String)

/-- `Conn.stopCh`, and the `once` that guards it. -/
structure StopCh where
  ch : Chan StopMsg
  once : Bool

def StopCh.do (c : StopCh) (f : Chan StopMsg → Except String (Chan StopMsg)) : Except String StopCh :=
  if c.once then .ok c else (f c.ch).map fun ch => ⟨ch, true⟩

/-- `start` is the connection's; `startMsg` is the main goroutine's. -/
structure Process where
  phase : Phase := .hello
  start : Option StartMsg := none
  startMsg : Option StartMsg := none
  stopCh : StopCh := ⟨.make 1, false⟩
  reading : Bool := true
  waiter : Waiter := .unstarted
  startExpired : Bool := false
  cancelled : Bool := false
  sigCh : Chan Unit := .make 1
  publishErrCh : Chan (Option String) := .make 1
  publishing : Bool := false
  beating : Bool := false
  state : PublisherState := .publishing

abbrev Outcome := Process × List Effect

namespace Process

variable (p : Process)

/-- `os.Exit`, or the end of `main`. -/
def exit (code : Nat) (effects : List Effect) : Outcome :=
  ({ p with phase := .exited code }, effects ++ [.exit code])

def fatal : Outcome := p.exit 1 []

/-- `SendError` and `os.Exit`; what else is done first comes in between. -/
def failWith (code : ErrorCode) (message : String) (effects : List Effect := []) : Outcome :=
  p.exit 1 (.send (.error (errorCode code) message true) :: effects)

/-- A panic takes the process down. -/
def setStopCh : Except String StopCh → Outcome
  | .ok stopCh => ({ p with stopCh := stopCh }, [])
  | .error text => p.exit 2 [.panic text]

-- ---------------------------------------------------------------------------
-- The connection
-- ---------------------------------------------------------------------------

/-- What `readLoop` does with a line. -/
def readLine (line : List Char) : Outcome :=
  match decodeLine line with
  | some (.start msg) => ({ p with start := some msg }, [])
  | some (.stop msg) => p.setStopCh (p.stopCh.do (·.trySend msg))
  | none => (p, [])

/-- The scanner is finished. -/
def readEnd : Outcome := { p with reading := false }.setStopCh (p.stopCh.do (·.close))

def Close : Outcome :=
  let (q, effects) := p.setStopCh (p.stopCh.do (·.close))
  (q, effects ++ [.closeConn])

/-- `WaitForStart` and the goroutine around it, at a tick or at the end of its context. -/
def waitForStart (tick : Bool) : Process :=
  match p.waiter with
  | .unstarted | .over => p
  | .polling =>
    if tick then
      match p.start with
      | some msg => { p with startMsg := some msg, waiter := .closing }
      | none => p
    else if p.startExpired || p.cancelled then { p with cancelled := true, waiter := .closing }
    else p
  -- the deferred `close(startDone)`
  | .closing => { p with waiter := .over }

/-- `HeartbeatLoop`, at a tick or at the end of its context. -/
def heartbeatLoop (tick : Option (HeartbeatMetrics × Option String)) : Outcome :=
  if p.beating then
    match tick with
    | some (metrics, err) =>
      ({ p with beating := err.isNone }, [.send (.heartbeat (publisherState p.state) metrics)])
    | none => ({ p with beating := !p.cancelled }, [])
  else (p, [])

-- ---------------------------------------------------------------------------
-- The main goroutine
-- ---------------------------------------------------------------------------

/-- The ready cases that both `select`s have, and what taking one leaves. -/
def wakes : List (Wake × Process) :=
  (p.sigCh.recv?.map fun (_, ch) => (.signal, { p with sigCh := ch })).toList ++
  (p.stopCh.ch.recv?.map fun (msg, ch) =>
    (.stop msg, { p with stopCh := { p.stopCh with ch := ch } })).toList ++
  if p.cancelled then [(.done, p)] else []

/-- A `select` takes any of its ready cases, and waits if there is none. -/
def select (ready : List (Wake × Process)) (pick : Nat) : Option (Wake × Process) :=
  ready[pick % ready.length]?

def startCases : List (Wake × Process) := p.wakes ++ if p.waiter = .over then [(.started, p)] else []

def loopCases : List (Wake × Process) :=
  p.wakes ++ (p.publishErrCh.recv?.map fun (err, ch) =>
    (.published err.join, { p with publishErrCh := ch })).toList

def awaitStart (pick : Nat) : Outcome :=
  match select p.startCases pick with
  | none => (p, [])
  | some (.stop msg, q) => ({ q with phase := .returning }, [.took msg])
  | some (.started, q) =>
    match q.startMsg with
    | none => q.fatal
    | some start => ({ q with phase := .newPipeline start }, [])
  | some (_, q) => ({ q with phase := .returning }, [])

def pipelineStr (setup : Setup) (start : StartMsg) : String :=
  match start.pipelineOverride with
  | some override => if override ≠ "" then override else setup.activePipeline
  | none => setup.activePipeline

def livekitURL (setup : Setup) (start : StartMsg) : String :=
  if start.livekitURL = "" then setup.livekitURL else start.livekitURL

def eventLoop (pick : Nat) : Outcome :=
  match select p.loopCases pick with
  | none => (p, [])
  | some (.stop msg, q) => ({ q with phase := .stopPipeline }, [.took msg])
  | some (.published (some err), q) =>
    ({ q with phase := .stopPipeline, state := .error, cancelled := true },
      [.send (.error (errorCode .livekitAuthFailed) ("publish loop: " ++ err) true)])
  | some (_, q) => ({ q with phase := .stopPipeline }, [])

/-- A turn of the main goroutine: the case its `select` takes, the error of its call. -/
def main (setup : Setup) (pick : Nat) (err : Option String) : Outcome :=
  match p.phase with
  | .hello =>
    match err with
    | some _ => p.fatal
    | none => ({ p with phase := .awaitStart, waiter := .polling },
        [.send (.hello setup.cameraID platformID version setup.pid)])
  | .awaitStart => p.awaitStart pick
  | .newPipeline start =>
    match err with
    | some err => p.failWith .gstPipelineFailed ("create pipeline: " ++ err)
    | none => ({ p with phase := .startPipeline start }, [.gst (.create (pipelineStr setup start))])
  | .startPipeline start =>
    match err with
    | some err => p.failWith .gstPipelineFailed ("start pipeline: " ++ err)
    | none => ({ p with phase := .connect start }, [.gst .start])
  | .connect start =>
    match err with
    | some err => p.failWith .livekitAuthFailed ("connect to Livekit: " ++ err) [.gst .stop, .gst .destroy]
    | none => ({ p with phase := .eventLoop, publishing := true, beating := true },
        [.connect (livekitURL setup start) start.livekitToken start.identity])
  | .eventLoop => p.eventLoop pick
  | .stopPipeline => ({ p with phase := .destroyPipeline, cancelled := true }, [.gst .stop])
  | .destroyPipeline => ({ p with phase := .disconnect }, [.gst .destroy])
  | .disconnect => ({ p with phase := .closeConn }, [.disconnect])
  | .closeConn => { p with phase := .returning }.Close
  -- the deferred calls
  | .returning =>
    let (q, effects) := p.Close
    if q.phase = .returning then { q with cancelled := true }.exit 0 effects else (q, effects)
  | .exited _ => (p, [])

end Process

-- ---------------------------------------------------------------------------
-- The process
-- ---------------------------------------------------------------------------

inductive Event
  | line (line : List Char)
  | eof
  | waiter (tick : Bool)
  | startTimeout
  | signal
  | heartbeat (tick : Option (HeartbeatMetrics × Option String))
  | publishLoop (err : Option String)
  | main (pick : Nat) (err : Option String)
  deriving DecidableEq

namespace Process

variable (setup : Setup) (p : Process)

/-- A turn of a goroutine of a process that has not exited. -/
def run : Event → Outcome
  | .line line => if p.reading then p.readLine line else (p, [])
  | .eof => if p.reading then p.readEnd else (p, [])
  | .waiter tick => (p.waitForStart tick, [])
  | .startTimeout => ({ p with startExpired := true }, [])
  | .signal =>
    match p.sigCh.trySend () with
    | .ok ch => ({ p with sigCh := ch }, [])
    | .error text => p.exit 2 [.panic text]
  | .heartbeat tick => p.heartbeatLoop tick
  | .publishLoop err =>
    if p.publishing then
      match p.publishErrCh.trySend err with
      | .ok ch => ({ p with publishErrCh := ch, publishing := false }, [])
      | .error text => p.exit 2 [.panic text]
    else (p, [])
  | .main pick err => p.main setup pick err

def step (e : Event) : Outcome :=
  match p.phase with
  | .exited _ => (p, [])
  | _ => p.run setup e

end Process

def sidecar (setup : Setup) : System Process Event (List Effect) where
  init := {}
  step p e := p.step setup e

abbrev SidecarEntry := Entry Process Event (List Effect)
abbrev SidecarLog := Log Process Event (List Effect)

end Rvep.Publisher.Go.Sidecar
