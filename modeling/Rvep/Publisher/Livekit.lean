import Mathlib.Algebra.Ring.Int.Defs
import Mathlib.Order.Basic
import Rvep.H264.AnnexB
import Rvep.Lib.Reactive

/-!
# The publish loop

`apps/edge-publisher-go/internal/publisher/livekit.go`. A sample, a write or a
reconnect and its outcome are one event of the environment; the loop is a
reactive system over them. Rooms and tracks carry the number of the `Connect`
call they come from, 0 for the call before the loop.
-/

namespace Rvep.Livekit

open Reactive

-- ---------------------------------------------------------------------------
-- Publisher
-- ---------------------------------------------------------------------------

def maxReconnectAttempts : Nat := 3

/-- `time.Duration` counts nanoseconds. -/
def second : Int := 1000000000

def reconnectBaseDelay : Int := 1 * second

def defaultSampleDuration : Int := 33000000

def sampleDurationForFPS (fps : Int) : Int :=
  if fps ≤ 0 then defaultSampleDuration else second.tdiv fps

structure Publisher where
  room : Option Nat
  track : Option Nat
  trackPub : Option Nat
  framesPublished : Int64
  framesDropped : Int64
  sampleDuration : Int

/-- How far a `Connect` comes, with the SDK's error. -/
inductive ConnectOutcome where
  | succeeds
  | joinFails (err : String)
  | trackFails (err : String)
  | publishFails (err : String)
  deriving DecidableEq

inductive Effect where
  | connect (call : Nat) (outcome : ConnectOutcome)
  | disconnect (room : Nat)
  | writeSample (track : Nat) (data : List UInt8) (duration : Int)
  | after (delay : Int)
  | returns (err : Option String)
  | panics
  deriving DecidableEq

def new (fps : Int) : Publisher where
  room := none
  track := none
  trackPub := none
  framesPublished := 0
  framesDropped := 0
  sampleDuration := sampleDurationForFPS fps

namespace Publisher

variable (p : Publisher)

/-- A `Connect` that fails behind the join leaves the room and keeps it in `p.room`. -/
def connect (call : Nat) : ConnectOutcome → Publisher × List Effect
  | .joinFails err => (p, [.connect call (.joinFails err)])
  | .trackFails err =>
    ({ p with room := some call }, [.connect call (.trackFails err), .disconnect call])
  | .publishFails err =>
    ({ p with room := some call, track := some call },
      [.connect call (.publishFails err), .disconnect call])
  | .succeeds =>
    ({ p with room := some call, track := some call, trackPub := some call },
      [.connect call .succeeds])

def disconnect : Publisher × List Effect :=
  match p.room with
  | some room => ({ p with room := none }, [.disconnect room])
  | none => (p, [])

def drop : Publisher := { p with framesDropped := p.framesDropped + 1 }

def publish : Publisher := { p with framesPublished := p.framesPublished + 1 }

end Publisher

-- ---------------------------------------------------------------------------
-- The loop
-- ---------------------------------------------------------------------------

inductive Phase where
  | publishing
  | waiting
  | returned
  deriving DecidableEq

/-- `calls` is the number of the last `Connect`. -/
structure Loop where
  publisher : Publisher
  attempts : Nat
  calls : Nat
  cancelled : Bool
  phase : Phase

/-- `writeErr` is what `WriteSample` answers if the sample gets that far, and a
`timer` that fires comes with the outcome of the `Connect` after it. -/
inductive Event where
  | cancel
  | ctxDone
  | channelClosed
  | sample (data : List UInt8) (writeErr : Option String)
  | timer (outcome : ConnectOutcome)
  deriving DecidableEq

namespace Loop

variable (s : Loop)

/-- `PublishLoop` behind a `publishUntilDisconnect` that returned `err`. -/
def disconnected (err : String) : Loop × List Effect :=
  if s.cancelled then ({ s with phase := .returned }, [.returns none])
  else
    let attempts := s.attempts + 1
    if attempts > maxReconnectAttempts then
      ({ s with attempts := attempts, phase := .returned },
        [.returns (some ("publisher: exceeded " ++ toString maxReconnectAttempts ++
          " reconnect attempts: " ++ err))])
    else
      ({ s with attempts := attempts, phase := .waiting },
        [.after (reconnectBaseDelay * 2 ^ (attempts - 1))])

/-- The body of `publishUntilDisconnect` for a received sample. -/
def receive (data : List UInt8) (writeErr : Option String) : Loop × List Effect :=
  match H264.ToAnnexB data with
  | .error _ => ({ s with publisher := s.publisher.drop }, [])
  | .ok annexB =>
    match s.publisher.track with
    | none => ({ s with phase := .returned }, [.panics])
    | some track =>
      let write := Effect.writeSample track annexB s.publisher.sampleDuration
      match writeErr with
      | none => ({ s with publisher := s.publisher.publish }, [write])
      | some err =>
        let next := ({ s with publisher := s.publisher.drop } : Loop).disconnected
          ("publisher: WriteSample: " ++ err)
        (next.1, write :: next.2)

/-- `Disconnect` and `Connect`, whose error is printed only. -/
def reconnect (outcome : ConnectOutcome) : Loop × List Effect :=
  let left := s.publisher.disconnect
  let joined := left.1.connect (s.calls + 1) outcome
  ({ s with publisher := joined.1, calls := s.calls + 1, phase := .publishing }, left.2 ++ joined.2)

/-- `ctx.Done()` is ready in both selects once the context is cancelled. -/
def step : Event → Loop × List Effect
  | .cancel => ({ s with cancelled := true }, [])
  | .ctxDone =>
    if s.cancelled ∧ s.phase ≠ .returned then ({ s with phase := .returned }, [.returns none])
    else (s, [])
  | .channelClosed =>
    if s.phase = .publishing then ({ s with phase := .returned }, [.returns none]) else (s, [])
  | .sample data writeErr => if s.phase = .publishing then s.receive data writeErr else (s, [])
  | .timer outcome => if s.phase = .waiting then s.reconnect outcome else (s, [])

end Loop

/-- `PublishLoop` after `New(fps)` and a `Connect` that succeeded. -/
def publishLoop (fps : Int) : System Loop Event (List Effect) where
  init :=
    { publisher := ((new fps).connect 0 .succeeds).1
      attempts := 0
      calls := 0
      cancelled := false
      phase := .publishing }
  step := Loop.step

abbrev LoopEntry := Entry Loop Event (List Effect)
abbrev LoopLog := Log Loop Event (List Effect)

-- ---------------------------------------------------------------------------
-- What a step does
-- ---------------------------------------------------------------------------

/-- The steps of the loop. -/
inductive Does (s : Loop) : Event → Loop → List Effect → Prop
  | idles (h : ∀ data writeErr, e = .sample data writeErr → s.phase ≠ .publishing) : Does s e s []
  | cancels : Does s .cancel { s with cancelled := true } []
  | returns (h : ∀ data writeErr, e ≠ .sample data writeErr) :
    Does s e { s with phase := .returned } [.returns none]
  | drops (hp : s.phase = .publishing) (hbad : H264.ToAnnexB data = .error err) :
    Does s (.sample data writeErr) { s with publisher := s.publisher.drop } []
  | panics (hp : s.phase = .publishing) (hok : H264.ToAnnexB data = .ok annexB)
      (htrack : s.publisher.track = none) :
    Does s (.sample data writeErr) { s with phase := .returned } [.panics]
  | publishes (hp : s.phase = .publishing) (hok : H264.ToAnnexB data = .ok annexB)
      (htrack : s.publisher.track = some track) :
    Does s (.sample data none) { s with publisher := s.publisher.publish }
      [.writeSample track annexB s.publisher.sampleDuration]
  | endsCancelled (hp : s.phase = .publishing) (hok : H264.ToAnnexB data = .ok annexB)
      (htrack : s.publisher.track = some track) (hcancelled : s.cancelled = true) :
    Does s (.sample data (some err)) { s with publisher := s.publisher.drop, phase := .returned }
      [.writeSample track annexB s.publisher.sampleDuration, .returns none]
  | givesUp (hp : s.phase = .publishing) (hok : H264.ToAnnexB data = .ok annexB)
      (htrack : s.publisher.track = some track) (hcancelled : s.cancelled = false)
      (hspent : maxReconnectAttempts < s.attempts + 1) :
    Does s (.sample data (some err))
      { s with publisher := s.publisher.drop, attempts := s.attempts + 1, phase := .returned }
      [.writeSample track annexB s.publisher.sampleDuration, .returns (some text)]
  | waits (hp : s.phase = .publishing) (hok : H264.ToAnnexB data = .ok annexB)
      (htrack : s.publisher.track = some track) (hcancelled : s.cancelled = false)
      (hleft : s.attempts + 1 ≤ maxReconnectAttempts) :
    Does s (.sample data (some err))
      { s with publisher := s.publisher.drop, attempts := s.attempts + 1, phase := .waiting }
      [.writeSample track annexB s.publisher.sampleDuration,
        .after (reconnectBaseDelay * 2 ^ s.attempts)]
  | reconnects (hw : s.phase = .waiting) :
    Does s (.timer outcome) (s.reconnect outcome).1 (s.reconnect outcome).2

theorem receive_does (s : Loop) (hp : s.phase = .publishing) (data : List UInt8)
    (writeErr : Option String) :
    Does s (.sample data writeErr) (s.receive data writeErr).1 (s.receive data writeErr).2 := by
  unfold Loop.receive
  split
  next hbad => exact .drops hp hbad
  next hok =>
    split
    next htrack => exact .panics hp hok htrack
    next htrack =>
      cases writeErr with
      | none => exact .publishes hp hok htrack
      | some err =>
        dsimp only [Loop.disconnected]
        split
        next hcancelled => exact .endsCancelled hp hok htrack hcancelled
        next hcancelled =>
          have hcancelled : s.cancelled = false := Bool.eq_false_iff.mpr hcancelled
          split
          next hspent => exact .givesUp hp hok htrack hcancelled hspent
          next hleft => exact .waits hp hok htrack hcancelled (Nat.le_of_not_lt hleft)

theorem step_does (s : Loop) (e : Event) : Does s e (s.step e).1 (s.step e).2 := by
  cases e with
  | cancel => exact .cancels
  | ctxDone =>
    simp only [Loop.step]
    split
    · exact .returns fun _ _ h => by cases h
    · exact .idles fun _ _ h => by cases h
  | channelClosed =>
    simp only [Loop.step]
    split
    · exact .returns fun _ _ h => by cases h
    · exact .idles fun _ _ h => by cases h
  | sample data writeErr =>
    simp only [Loop.step]
    split
    next hp => exact receive_does s hp data writeErr
    next hp => exact .idles fun _ _ _ => hp
  | timer outcome =>
    simp only [Loop.step]
    split
    next hw => exact .reconnects hw
    next => exact .idles fun _ _ h => by cases h

end Rvep.Livekit
