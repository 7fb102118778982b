import Rvep.Shared.ControlCommand

/-!
# Messages between the edge agent and the publisher

`apps/mock-edge/src/ipc-types.ts`: the JSON lines the two processes exchange
over the Unix socket, and the check the agent makes on the lines it receives.
-/

namespace Rvep.Publisher

-- ---------------------------------------------------------------------------
-- Publisher to agent
-- ---------------------------------------------------------------------------

/-- The fields of every message; `type` is the constructor below. -/
structure Base where
  ts : String
  seq : Int
  deriving DecidableEq, Repr

structure HelloMessage extends Base where
  version : String
  pid : Int
  cameraId : String
  platformId : String
  deriving DecidableEq, Repr

inductive PublisherState where
  | starting
  | publishing
  | reconnecting
  | error
  deriving DecidableEq, Repr

structure HeartbeatMetrics where
  fps : ℚ
  encodeLatencyMs : ℚ
  bitrateBps : ℚ
  framesPublished : ℚ
  framesDropped : ℚ
  nvencSessionId : Int
  deriving DecidableEq, Repr

structure HeartbeatMessage extends Base where
  publisherState : PublisherState
  metrics : HeartbeatMetrics
  deriving DecidableEq, Repr

inductive ErrorCode where
  | gstPipelineFailed
  | nvencUnavailable
  | livekitAuthFailed
  | socketClosed
  deriving DecidableEq, Repr

structure ErrorMessage extends Base where
  code : ErrorCode
  message : String
  fatal : Bool
  deriving DecidableEq, Repr

inductive PublisherMessage where
  | hello (msg : HelloMessage)
  | heartbeat (msg : HeartbeatMessage)
  | error (msg : ErrorMessage)
  deriving DecidableEq, Repr

-- ---------------------------------------------------------------------------
-- Agent to publisher
-- ---------------------------------------------------------------------------

inductive StopReason where
  | userRequest
  | safeMode
  | shutdown
  deriving DecidableEq, Repr

inductive AgentBody where
  | start (livekitUrl livekitToken roomName identity videoProfileId : String)
      (pipelineOverride : Option String)
  | stop (reason : StopReason)
  deriving DecidableEq, Repr

@[simp] def AgentBody.isStart : AgentBody → Bool
  | .start .. => true
  | .stop _ => false

structure AgentMessage extends Base where
  body : AgentBody
  deriving DecidableEq, Repr

-- ---------------------------------------------------------------------------
-- The schemas
-- ---------------------------------------------------------------------------

abbrev JsonFields := List (String × Json)

/-- `z.string()` on one key. -/
def stringAt (key : String) (fields : JsonFields) : Option String :=
  match fields.lookup key with
  | some (.str s) => some s
  | _ => none

/-- `z.string().min(1)` -/
def nonEmptyAt (key : String) (fields : JsonFields) : Option String :=
  (stringAt key fields).filter (· != "")

def numberAt (key : String) (fields : JsonFields) : Option ℚ :=
  match fields.lookup key with
  | some (.num q) => some q
  | _ => none

/-- `z.number().int()` -/
def intAt (key : String) (fields : JsonFields) : Option Int :=
  (numberAt key fields).bind fun q => if q.den = 1 then some q.num else none

def boolAt (key : String) (fields : JsonFields) : Option Bool :=
  match fields.lookup key with
  | some (.bool b) => some b
  | _ => none

def objectAt (key : String) (fields : JsonFields) : Option JsonFields :=
  match fields.lookup key with
  | some (.obj nested) => some nested
  | _ => none

/-- `z.enum`, each name with the constant it stands for. -/
def enumAt (names : List (String × α)) (key : String) (fields : JsonFields) : Option α :=
  (stringAt key fields).bind (List.lookup · names)

def publisherStates : List (String × PublisherState) :=
  [("starting", .starting), ("publishing", .publishing), ("reconnecting", .reconnecting),
    ("error", .error)]

def errorCodes : List (String × ErrorCode) :=
  [("gst_pipeline_failed", .gstPipelineFailed), ("nvenc_unavailable", .nvencUnavailable),
    ("livekit_auth_failed", .livekitAuthFailed), ("socket_closed", .socketClosed)]

def baseSchema (fields : JsonFields) : Option Base := do
  return { ts := ← stringAt "ts" fields, seq := ← intAt "seq" fields }

def helloSchema (fields : JsonFields) : Option HelloMessage := do
  return {
    toBase := ← baseSchema fields
    version := ← stringAt "version" fields
    pid := ← (intAt "pid" fields).filter (0 < ·)
    cameraId := ← nonEmptyAt "cameraId" fields
    platformId := ← nonEmptyAt "platformId" fields }

def heartbeatMetricsSchema (fields : JsonFields) : Option HeartbeatMetrics := do
  return {
    fps := ← numberAt "fps" fields
    encodeLatencyMs := ← numberAt "encodeLatencyMs" fields
    bitrateBps := ← numberAt "bitrateBps" fields
    framesPublished := ← numberAt "framesPublished" fields
    framesDropped := ← numberAt "framesDropped" fields
    nvencSessionId := ← intAt "nvencSessionId" fields }

def heartbeatSchema (fields : JsonFields) : Option HeartbeatMessage := do
  return {
    toBase := ← baseSchema fields
    publisherState := ← enumAt publisherStates "publisherState" fields
    metrics := ← (objectAt "metrics" fields).bind heartbeatMetricsSchema }

def errorSchema (fields : JsonFields) : Option ErrorMessage := do
  return {
    toBase := ← baseSchema fields
    code := ← enumAt errorCodes "code" fields
    message := ← stringAt "message" fields
    fatal := ← boolAt "fatal" fields }

/-- What `parsePublisherMessage` throws. The text of `notJson` is the
JavaScript engine's, that of `schema` lists zod's issues. -/
inductive IpcError where
  | notJson (message : String)
  | schema
  | unknownType (type : String)
  deriving DecidableEq, Repr

/-- A line that is not blank, as `JSON.parse` sees it. -/
inductive Line where
  | malformed (message : String)
  | json (value : Json)
  deriving DecidableEq

def parseObject (fields : JsonFields) : Except IpcError PublisherMessage :=
  match baseSchema fields, stringAt "type" fields with
  | some _, some type =>
    let orThrow {β : Type} (wrap : β → PublisherMessage) (parsed : Option β) :=
      parsed.elim (.error .schema) fun msg => .ok (wrap msg)
    if type = "hello" then orThrow .hello (helloSchema fields)
    else if type = "heartbeat" then orThrow .heartbeat (heartbeatSchema fields)
    else if type = "error" then orThrow .error (errorSchema fields)
    else .error (.unknownType type)
  | _, _ => .error .schema

def parsePublisherMessage : Line → Except IpcError PublisherMessage
  | .malformed message => .error (.notJson message)
  | .json (.obj fields) => parseObject fields
  | .json _ => .error .schema

end Rvep.Publisher
