import Rvep.Publisher.IpcTypes

/-!
# The publisher's messages

`apps/edge-publisher-go/internal/ipc/protocol.go`: the structs the Go publisher
sends and receives, and the JSON its tags give them. The agent's schemas accept
what the constructors build.
-/

namespace Rvep.Publisher.Go

-- ---------------------------------------------------------------------------
-- Publisher to agent
-- ---------------------------------------------------------------------------

structure Base where
  type : String
  ts : String
  seq : Int64
  deriving DecidableEq

structure HelloMsg extends Base where
  version : String
  pid : Int64
  cameraID : String
  platformID : String
  deriving DecidableEq

/-- The constants of Go's `PublisherState`. -/
def publisherState : PublisherState → String
  | .starting => "starting"
  | .publishing => "publishing"
  | .reconnecting => "reconnecting"
  | .error => "error"

/-- A `float64` that is finite is the number it stands for. -/
structure HeartbeatMetrics where
  fps : ℚ
  encodeLatencyMs : ℚ
  bitrateBps : Int64
  framesPublished : Int64
  framesDropped : Int64
  nvencSessionID : Int64
  deriving DecidableEq

structure HeartbeatMsg extends Base where
  publisherState : String
  metrics : HeartbeatMetrics
  deriving DecidableEq

/-- The constants of Go's `ErrorCode`. -/
def errorCode : ErrorCode → String
  | .gstPipelineFailed => "gst_pipeline_failed"
  | .nvencUnavailable => "nvenc_unavailable"
  | .livekitAuthFailed => "livekit_auth_failed"
  | .socketClosed => "socket_closed"

structure ErrorMsg extends Base where
  code : String
  message : String
  fatal : Bool
  deriving DecidableEq

-- ---------------------------------------------------------------------------
-- Agent to publisher
-- ---------------------------------------------------------------------------

structure StartMsg extends Base where
  livekitURL : String
  livekitToken : String
  roomName : String
  identity : String
  videoProfileID : String
  pipelineOverride : Option String
  deriving DecidableEq

structure StopMsg extends Base where
  reason : String
  deriving DecidableEq

-- ---------------------------------------------------------------------------
-- Constructors
-- ---------------------------------------------------------------------------

variable (now : String) (seq : Int64)

def newHello (cameraID platformID version : String) (pid : Int64) : HelloMsg where
  type := "hello"
  ts := now
  seq := seq
  version := version
  pid := pid
  cameraID := cameraID
  platformID := platformID

def newHeartbeat (state : String) (metrics : HeartbeatMetrics) : HeartbeatMsg where
  type := "heartbeat"
  ts := now
  seq := seq
  publisherState := state
  metrics := metrics

def newError (code msg : String) (fatal : Bool) : ErrorMsg where
  type := "error"
  ts := now
  seq := seq
  code := code
  message := msg
  fatal := fatal

-- ---------------------------------------------------------------------------
-- JSON tags
-- ---------------------------------------------------------------------------

def int (n : Int64) : Json := .num n.toInt

/-- An embedded struct has its fields in its place. -/
def Base.fields (b : Base) : JsonFields := [("type", .str b.type), ("ts", .str b.ts), ("seq", int b.seq)]

def HelloMsg.toJson (m : HelloMsg) : Json :=
  .obj (m.toBase.fields ++
    [("version", .str m.version), ("pid", int m.pid), ("cameraId", .str m.cameraID),
      ("platformId", .str m.platformID)])

def HeartbeatMetrics.toJson (m : HeartbeatMetrics) : Json :=
  .obj
    [("fps", .num m.fps), ("encodeLatencyMs", .num m.encodeLatencyMs),
      ("bitrateBps", int m.bitrateBps), ("framesPublished", int m.framesPublished),
      ("framesDropped", int m.framesDropped), ("nvencSessionId", int m.nvencSessionID)]

def HeartbeatMsg.toJson (m : HeartbeatMsg) : Json :=
  .obj (m.toBase.fields ++
    [("publisherState", .str m.publisherState), ("metrics", m.metrics.toJson)])

def ErrorMsg.toJson (m : ErrorMsg) : Json :=
  .obj (m.toBase.fields ++
    [("code", .str m.code), ("message", .str m.message), ("fatal", .bool m.fatal)])

/-- What the publisher sends. -/
inductive Sent
  | hello (msg : HelloMsg)
  | heartbeat (msg : HeartbeatMsg)
  | error (msg : ErrorMsg)
  deriving DecidableEq

def Sent.toJson : Sent → Json
  | .hello msg => msg.toJson
  | .heartbeat msg => msg.toJson
  | .error msg => msg.toJson

-- ---------------------------------------------------------------------------
-- The agent's schemas
-- ---------------------------------------------------------------------------

def HeartbeatMetrics.received (m : HeartbeatMetrics) : Publisher.HeartbeatMetrics where
  fps := m.fps
  encodeLatencyMs := m.encodeLatencyMs
  bitrateBps := m.bitrateBps.toInt
  framesPublished := m.framesPublished.toInt
  framesDropped := m.framesDropped.toInt
  nvencSessionId := m.nvencSessionID.toInt

/-- What a constructor builds from the declared constants, and the message the
agent is to make of it. -/
inductive Builds (now : String) (seq : Int64) : Sent → PublisherMessage → Prop
  | hello {cameraID platformID version : String} {pid : Int64} : 0 < pid.toInt → cameraID ≠ "" →
    platformID ≠ "" →
    Builds now seq (.hello (newHello now seq cameraID platformID version pid))
      (.hello
        { ts := now, seq := seq.toInt, version := version, pid := pid.toInt, cameraId := cameraID
          platformId := platformID })
  | heartbeat (state : PublisherState) (metrics : HeartbeatMetrics) :
    Builds now seq (.heartbeat (newHeartbeat now seq (publisherState state) metrics))
      (.heartbeat
        { ts := now, seq := seq.toInt, publisherState := state, metrics := metrics.received })
  | error (code : ErrorCode) (message : String) (fatal : Bool) :
    Builds now seq (.error (newError now seq (errorCode code) message fatal))
      (.error { ts := now, seq := seq.toInt, code := code, message := message, fatal := fatal })

@[simp] theorem lookup_publisherState (state : PublisherState) :
    publisherStates.lookup (publisherState state) = some state := by
  cases state <;> rfl

@[simp] theorem lookup_errorCode (code : ErrorCode) :
    errorCodes.lookup (errorCode code) = some code := by
  cases code <;> rfl

section
variable {now : String} {seq : Int64} {key : String} {fields : JsonFields}

theorem stringAt_of_lookup {s : String} (h : fields.lookup key = some (.str s)) :
    stringAt key fields = some s := by
  rw [stringAt, h]

theorem numberAt_of_lookup {q : ℚ} (h : fields.lookup key = some (.num q)) :
    numberAt key fields = some q := by
  rw [numberAt, h]

theorem intAt_of_lookup {n : Int64} (h : fields.lookup key = some (int n)) :
    intAt key fields = some n.toInt := by
  rw [intAt, numberAt_of_lookup h]
  rfl

theorem nonEmptyAt_of_lookup {s : String} (h : fields.lookup key = some (.str s)) (hs : s ≠ "") :
    nonEmptyAt key fields = some s := by
  rw [nonEmptyAt, stringAt_of_lookup h]
  simp [hs]

theorem boolAt_of_lookup {b : Bool} (h : fields.lookup key = some (.bool b)) :
    boolAt key fields = some b := by
  rw [boolAt, h]

theorem objectAt_of_lookup {nested : JsonFields} (h : fields.lookup key = some (.obj nested)) :
    objectAt key fields = some nested := by
  rw [objectAt, h]

theorem enumAt_of_lookup {names : List (String × α)} {s : String} {a : α}
    (h : fields.lookup key = some (.str s)) (ha : names.lookup s = some a) :
    enumAt names key fields = some a := by
  rw [enumAt, stringAt_of_lookup h, Option.bind_some, ha]

theorem filter_positive {n : Int} (h : 0 < n) : (some n).filter (0 < ·) = some n := by
  rw [Option.filter_some, if_pos (decide_eq_true h)]

theorem baseSchema_fields (b : Base) (rest : JsonFields) :
    baseSchema (b.fields ++ rest) = some { ts := b.ts, seq := b.seq.toInt } := by
  have hts : stringAt "ts" (b.fields ++ rest) = some b.ts := stringAt_of_lookup rfl
  have hseq : intAt "seq" (b.fields ++ rest) = some b.seq.toInt := intAt_of_lookup rfl
  rw [baseSchema, hts, hseq]
  rfl

theorem helloSchema_toJson {m : HelloMsg} (hpid : 0 < m.pid.toInt) (hcamera : m.cameraID ≠ "")
    (hplatform : m.platformID ≠ "") {fields : JsonFields} (h : m.toJson = .obj fields) :
    helloSchema fields = some
      { ts := m.ts, seq := m.seq.toInt, version := m.version, pid := m.pid.toInt
        cameraId := m.cameraID, platformId := m.platformID } := by
  obtain rfl := Json.obj.inj h
  rw [helloSchema, baseSchema_fields, stringAt_of_lookup (s := m.version) rfl,
    intAt_of_lookup (n := m.pid) rfl, nonEmptyAt_of_lookup (s := m.cameraID) rfl hcamera,
    nonEmptyAt_of_lookup (s := m.platformID) rfl hplatform, filter_positive hpid]
  rfl

theorem heartbeatMetricsSchema_toJson {m : HeartbeatMetrics} {fields : JsonFields}
    (h : m.toJson = .obj fields) : heartbeatMetricsSchema fields = some m.received := by
  obtain rfl := Json.obj.inj h
  rw [heartbeatMetricsSchema, numberAt_of_lookup (q := m.fps) rfl,
    numberAt_of_lookup (q := m.encodeLatencyMs) rfl, numberAt_of_lookup (q := m.bitrateBps.toInt) rfl,
    numberAt_of_lookup (q := m.framesPublished.toInt) rfl,
    numberAt_of_lookup (q := m.framesDropped.toInt) rfl, intAt_of_lookup (n := m.nvencSessionID) rfl]
  rfl

theorem heartbeatSchema_toJson {m : HeartbeatMsg} {state : PublisherState}
    (hstate : publisherStates.lookup m.publisherState = some state) {fields : JsonFields}
    (h : m.toJson = .obj fields) :
    heartbeatSchema fields = some
      { ts := m.ts, seq := m.seq.toInt, publisherState := state, metrics := m.metrics.received } := by
  obtain rfl := Json.obj.inj h
  rw [heartbeatSchema, baseSchema_fields,
    enumAt_of_lookup (s := m.publisherState) rfl hstate]
  rw [objectAt_of_lookup rfl, Option.bind_some, heartbeatMetricsSchema_toJson (m := m.metrics) rfl]
  rfl

theorem errorSchema_toJson {m : ErrorMsg} {code : ErrorCode}
    (hcode : errorCodes.lookup m.code = some code) {fields : JsonFields}
    (h : m.toJson = .obj fields) :
    errorSchema fields = some
      { ts := m.ts, seq := m.seq.toInt, code := code, message := m.message, fatal := m.fatal } := by
  obtain rfl := Json.obj.inj h
  rw [errorSchema, baseSchema_fields, enumAt_of_lookup (s := m.code) rfl hcode,
    stringAt_of_lookup (s := m.message) rfl, boolAt_of_lookup (b := m.fatal) rfl]
  rfl

/-- The agent accepts whatever the constructors build, field for field. -/
theorem parsePublisherMessage_toJson {sent : Sent} {msg : PublisherMessage}
    (h : Builds now seq sent msg) : parsePublisherMessage (.json sent.toJson) = .ok msg := by
  cases h with
  | @hello cameraID platformID version pid hpid hcamera hplatform =>
    have hschema := helloSchema_toJson (m := newHello now seq cameraID platformID version pid)
      hpid hcamera hplatform rfl
    rw [Sent.toJson, HelloMsg.toJson, parsePublisherMessage, parseObject, baseSchema_fields,
      stringAt_of_lookup (s := "hello") rfl, hschema]
    rfl
  | heartbeat state metrics =>
    rw [Sent.toJson, HeartbeatMsg.toJson, parsePublisherMessage, parseObject, baseSchema_fields,
      stringAt_of_lookup (s := "heartbeat") rfl]
    have hschema := heartbeatSchema_toJson (m := newHeartbeat now seq (publisherState state) metrics)
      (lookup_publisherState state) rfl
    rw [hschema]
    rfl
  | error code message fatal =>
    rw [Sent.toJson, ErrorMsg.toJson, parsePublisherMessage, parseObject, baseSchema_fields,
      stringAt_of_lookup (s := "error") rfl]
    have hschema := errorSchema_toJson (m := newError now seq (errorCode code) message fatal)
      (lookup_errorCode code) rfl
    rw [hschema]
    rfl

end

end Rvep.Publisher.Go
