import Rvep.Cockpit.ControlChannel
import Rvep.Lib.Reactive

/-!
# The life of a control page

The connect effect of `apps/web/src/app/control/[vehicleId]/page.tsx`: a run of
the effect fetches a token, joins the room and starts a control channel, and
its cleanup may come between any two of these. Runs of the effect are numbered
in order; a run makes at most one channel, so the channels are numbered with
them.
-/

namespace Rvep.Cockpit

open Reactive

/-- What the asynchronous body of a run waits for. -/
inductive Stage | getLivekitToken | connect | settled
  deriving DecidableEq, Repr

/-- A control channel and whether its `heartbeatTimer` is set. -/
structure Driver where
  channel : ControlChannel
  heartbeatTimer : Bool

namespace Driver

def startHeartbeat (now : Instant) (d : Driver) : Driver × List Publication :=
  if d.heartbeatTimer then (d, [])
  else
    let (channel, out) := d.channel.sendHeartbeat now
    (⟨channel, true⟩, [out])

def stopHeartbeat (d : Driver) : Driver := { d with heartbeatTimer := false }

/-- The callback of the interval; a cleared interval calls nothing. -/
def onInterval (now : Instant) (d : Driver) : Driver × List Publication :=
  if d.heartbeatTimer then
    let (channel, out) := d.channel.sendHeartbeat now
    (⟨channel, true⟩, [out])
  else (d, [])

end Driver

/-- A run of the connect effect; for an empty vehicle id the effect does nothing. -/
structure EffectRun where
  vehicleId : String
  vehicleId_ne : vehicleId ≠ ""
  cancelled : Bool
  stage : Stage
  driver : Option Driver

structure PageLife where
  runs : List EffectRun
  /-- The run whose cleanup React calls next. -/
  mounted : Option Nat
  channelRef : Option Nat
  /-- The state that mirrors `channelRef`, and its value in the last render,
  which is the one `useGamepad` has. -/
  controlChannel : Option Nat
  rendered : Option Nat
  error : Option String

def PageLife.new : PageLife where
  runs := []
  mounted := none
  channelRef := none
  controlChannel := none
  rendered := none
  error := none

/-- What a promise of the effect rejects with. -/
inductive ConnectError
  | apiError (status : Nat) (code : String)
  | other

/-- What the operator's controls send. -/
inductive Press
  | movement (axes : Axes)
  | emergencyStop
  | emergencyStopSync
  | resume

def Press.toSend : Press → Send
  | .movement axes => .movement axes
  | .emergencyStop => .emergencyStop
  | .emergencyStopSync => .emergencyStopSync
  | .resume => .resume

inductive PageEffect where
  | publish (message : Publication)
  | replace (path : String)

/-- The clock readings of a successful join: one for the session id, one for
the connection epoch, and the one of the first heartbeat. -/
structure JoinClock where
  sessionNow : Nat
  epochNow : Nat
  heartbeat : Instant

inductive PageEvent where
  /-- React runs the effect for this vehicle, after the cleanup of the run before. -/
  | mount (vehicleId : String)
  | unmount
  | tokenSettled (run : Nat) (result : Except ConnectError Unit)
  | connectSettled (run : Nat) (result : Except ConnectError Unit) (clock : JoinClock)
  | interval (run : Nat) (now : Instant)
  | press (what : Press) (now : Instant)
  | gamepad (what : Press) (now : Instant)
  | render

namespace PageLife

-- ---------------------------------------------------------------------------
-- The effect and its cleanup
-- ---------------------------------------------------------------------------

def cancel (run : EffectRun) : EffectRun := { run with cancelled := true }

def stopDriver (run : EffectRun) : EffectRun :=
  { run with driver := run.driver.map Driver.stopHeartbeat }

def cleanup (p : PageLife) : PageLife :=
  match p.mounted with
  | none => p
  | some i =>
    let runs := p.runs.modify i cancel
    { p with
      runs := p.channelRef.elim runs fun j => runs.modify j stopDriver
      mounted := none
      channelRef := none
      controlChannel := none }

def mount (vehicleId : String) (p : PageLife) : PageLife :=
  let p := p.cleanup
  if h : vehicleId = "" then p
  else
    { p with
      runs := p.runs ++ [⟨vehicleId, h, false, .getLivekitToken, none⟩]
      mounted := some p.runs.length }

/-- The `catch` of the effect's body. -/
def failed (i : Nat) (run : EffectRun) (err : ConnectError) (p : PageLife) :
    PageLife × List PageEffect :=
  let p := { p with runs := p.runs.set i { run with stage := .settled } }
  if run.cancelled then (p, [])
  else
    match err with
    | .apiError status code =>
      if status = 401 then (p, [.replace "/login"]) else ({ p with error := some code }, [])
    | .other => ({ p with error := some "connect_failed" }, [])

def tokenSettled (i : Nat) (result : Except ConnectError Unit) (p : PageLife) :
    PageLife × List PageEffect :=
  match p.runs[i]? with
  | none => (p, [])
  | some run =>
    if run.stage ≠ .getLivekitToken then (p, [])
    else
      match result with
      | .error err => failed i run err p
      | .ok () =>
        let stage := if run.cancelled then .settled else .connect
        ({ p with runs := p.runs.set i { run with stage := stage } }, [])

def sessionId (now : Nat) : String := "web-" ++ toString now

theorem sessionId_ne (now : Nat) : sessionId now ≠ "" := by
  intro h
  have := congrArg String.length h
  simp [sessionId, String.length_append] at this

def openChannel (run : EffectRun) (clock : JoinClock) : ControlChannel :=
  .new
    { vehicleId := run.vehicleId, sessionId := sessionId clock.sessionNow,
      connectionEpoch := clock.epochNow, vehicleId_ne := run.vehicleId_ne,
      sessionId_ne := sessionId_ne clock.sessionNow }

def connectSettled (i : Nat) (result : Except ConnectError Unit) (clock : JoinClock)
    (p : PageLife) : PageLife × List PageEffect :=
  match p.runs[i]? with
  | none => (p, [])
  | some run =>
    if run.stage ≠ .connect then (p, [])
    else
      match result with
      | .error err => failed i run err p
      | .ok () =>
        if run.cancelled then
          ({ p with runs := p.runs.set i { run with stage := .settled } }, [])
        else
          let (driver, out) :=
            Driver.startHeartbeat clock.heartbeat ⟨openChannel run clock, false⟩
          ({ p with
              runs := p.runs.set i { run with stage := .settled, driver := some driver }
              channelRef := some i
              controlChannel := some i },
            out.map .publish)

-- ---------------------------------------------------------------------------
-- Timers and controls
-- ---------------------------------------------------------------------------

def onDriver (i : Nat) (act : Driver → Driver × List Publication) (p : PageLife) :
    PageLife × List PageEffect :=
  match p.runs[i]? with
  | none => (p, [])
  | some run =>
    match run.driver with
    | none => (p, [])
    | some driver =>
      let (driver, out) := act driver
      ({ p with runs := p.runs.set i { run with driver := some driver } }, out.map .publish)

def sendOn (what : Press) (now : Instant) (d : Driver) : Driver × List Publication :=
  let (channel, out) := what.toSend.run now d.channel
  ({ d with channel := channel }, [out])

/-- The page's own controls; only the stop button says that there is no channel. -/
def press (what : Press) (now : Instant) (p : PageLife) : PageLife × List PageEffect :=
  match p.channelRef with
  | none =>
    match what with
    | .emergencyStop => ({ p with error := some "not_connected" }, [])
    | _ => (p, [])
  | some i => p.onDriver i (sendOn what now)

def gamepad (what : Press) (now : Instant) (p : PageLife) : PageLife × List PageEffect :=
  match p.rendered with
  | none => (p, [])
  | some i => p.onDriver i (sendOn what now)

def step (p : PageLife) : PageEvent → PageLife × List PageEffect
  | .mount vehicleId => (p.mount vehicleId, [])
  | .unmount => (p.cleanup, [])
  | .tokenSettled i result => p.tokenSettled i result
  | .connectSettled i result clock => p.connectSettled i result clock
  | .interval i now => p.onDriver i (Driver.onInterval now)
  | .press what now => p.press what now
  | .gamepad what now => p.gamepad what now
  | .render => ({ p with rendered := p.controlChannel }, [])

end PageLife

def controlPage : System PageLife PageEvent (List PageEffect) where
  init := .new
  step := PageLife.step

end Rvep.Cockpit
