import Rvep.Shared.JsonText
import Rvep.Shared.SafetyEvent
import Rvep.Shared.ZodAcceptance

/-!
# Messages on the data channel

The schemas of `packages/shared` for the three families of messages, and the
encoder and decoder of each. A message arrives as it was sent, at the decoder
of its own family and at no other.
-/

namespace Rvep.Wire

open Zod (Schema)

-- ---------------------------------------------------------------------------
-- Control commands
-- ---------------------------------------------------------------------------

def nonEmptyString : Schema := .string [.min 1]

def count : Schema := .number [.int, .nonnegative]

def within (low high : ℚ) : Schema := .number [.min low, .max high]

def nonnegative : Schema := .number [.nonnegative]

def number : Schema := .number []

def baseFields : List (String × Schema) :=
  [("vehicleId", nonEmptyString), ("sessionId", nonEmptyString), ("connectionEpoch", count),
    ("seq", count), ("timestamp", .string [.datetime])]

def commandSchema (type : String) (own : List (String × Schema)) : Schema :=
  .object (("type", .literal (.str type)) :: (baseFields ++ own))

def movementCommand : Schema :=
  commandSchema "movement"
    [("axes", .object [("forward", within (-1) 1), ("lateral", within (-1) 1), ("yaw", within (-1) 1)])]

def emergencyStopCommand : Schema := commandSchema "emergency_stop" []

def heartbeatMessage : Schema := commandSchema "heartbeat" []

def resumeControlCommand : Schema :=
  commandSchema "resume_control" [("acknowledgement", .literal (.str "operator_confirmed"))]

def actionCommand : Schema :=
  commandSchema "action" [("action", nonEmptyString), ("params", .optional (.record .unknown))]

def configCommand : Schema :=
  commandSchema "config"
    [("key", nonEmptyString), ("value", .union [.string [], .number [], .boolean])]

def controlCommand : Schema :=
  .discriminatedUnion "type"
    [movementCommand, emergencyStopCommand, heartbeatMessage, resumeControlCommand, actionCommand,
      configCommand]

-- ---------------------------------------------------------------------------
-- Telemetry
-- ---------------------------------------------------------------------------

def gpsFix : Schema :=
  .object
    [("lat", within (-90) 90), ("lng", within (-180) 180), ("altM", .optional number),
      ("hAccM", .optional nonnegative), ("speedMs", .optional nonnegative),
      ("headingDeg", .optional (within 0 360)),
      ("fix", .optional (.enum ["none", "2d", "3d", "rtk"]))]

def imu : Schema :=
  .object
    [("ax", number), ("ay", number), ("az", number), ("gx", number), ("gy", number), ("gz", number),
      ("oriQuat", .optional (.tuple [number, number, number, number]))]

def battery : Schema :=
  .object
    [("pct", within 0 100), ("voltage", .optional nonnegative), ("currentA", .optional number),
      ("tempC", .optional number), ("mode", .optional (.enum ["charging", "discharging", "idle"]))]

def networkQuality : Schema :=
  .object
    [("rttMs", nonnegative), ("jitterMs", .optional nonnegative), ("lossPct", .optional (within 0 100)),
      ("kbpsUp", .optional nonnegative), ("kbpsDown", .optional nonnegative)]

def vehicleStatus : Schema :=
  .object
    [("mode", .enum ["manual", "safe", "off", "calibrating"]),
      ("controlLeaseHolder", .optional (.string []))]

def velocity : Schema :=
  .object [("linearX", number), ("linearY", .optional number), ("angularZ", number)]

def odom : Schema :=
  .object [("x", number), ("y", number), ("yaw", number), ("frame", .optional (.enum ["odom", "map"]))]

def sensorValue : Schema :=
  .union [.number [], .string [], .boolean, .null, .record .unknown]

def telemetryMessage : Schema :=
  .object
    [("kind", .literal (.str "telemetry")), ("v", .literal (.num 1)), ("ts", count),
      ("vehicleId", nonEmptyString), ("sessionId", nonEmptyString), ("seq", count),
      ("gps", .optional gpsFix), ("imu", .optional imu), ("battery", .optional battery),
      ("network", .optional networkQuality), ("vehicle", .optional vehicleStatus),
      ("velocity", .optional velocity), ("odom", .optional odom),
      ("sensors", .optional (.record sensorValue)), ("capabilities", .optional (.array (.string [])))]

-- ---------------------------------------------------------------------------
-- Safety events
-- ---------------------------------------------------------------------------

def safetyEventName : Schema :=
  .enum
    ["edge_online", "safe_mode_entered", "safe_mode_left", "emergency_stop_acked",
      "edge_disconnecting", "fatal"]

def safetyEvent : Schema :=
  .object
    [("kind", .literal (.str "safety_event")), ("v", .literal (.num 1)), ("ts", count),
      ("vehicleId", nonEmptyString), ("sessionId", nonEmptyString), ("seq", count),
      ("event", safetyEventName), ("reason", .optional (.string [])),
      ("message", .optional (.string []))]

-- ---------------------------------------------------------------------------
-- Encoders and decoders
-- ---------------------------------------------------------------------------

section
variable (fmt : NumberFormat)

/-- The data of a payload that the schema accepts. -/
def decode (schema : Schema) (bytes : ByteArray) : Option Json :=
  (readJson fmt bytes).bind schema.parse

def encodeCommand (cmd : Json) : ByteArray := writeJson fmt cmd

def decodeCommand (bytes : ByteArray) : Option Json := decode fmt controlCommand bytes

def encodeTelemetry (t : Json) : ByteArray := writeJson fmt t

def decodeTelemetry (bytes : ByteArray) : Option Json := decode fmt telemetryMessage bytes

def encodeSafetyEvent (e : Json) : ByteArray := writeJson fmt e

def decodeSafetyEvent (bytes : ByteArray) : Option Json := decode fmt safetyEvent bytes

inductive Family
  | command
  | telemetry
  | safety
  deriving DecidableEq, Repr

def Family.schema : Family → Schema
  | command => controlCommand
  | telemetry => telemetryMessage
  | safety => safetyEvent

def Family.encode : Family → Json → ByteArray
  | command => encodeCommand fmt
  | telemetry => encodeTelemetry fmt
  | safety => encodeSafetyEvent fmt

def Family.decode : Family → ByteArray → Option Json
  | command => decodeCommand fmt
  | telemetry => decodeTelemetry fmt
  | safety => decodeSafetyEvent fmt

end

-- ---------------------------------------------------------------------------
-- Typed messages
-- ---------------------------------------------------------------------------

def baseFieldsJson (f : BaseFields) : List (String × Json) :=
  [("vehicleId", .str f.vehicleId), ("sessionId", .str f.sessionId),
    ("connectionEpoch", .num f.connectionEpoch), ("seq", .num f.seq), ("timestamp", .str f.timestamp)]

def axesJson (axes : Axes) : Json :=
  .obj [("forward", .num axes.forward), ("lateral", .num axes.lateral), ("yaw", .num axes.yaw)]

def configValueJson : ConfigValue → Json
  | .string s => .str s
  | .number q => .num q
  | .boolean b => .bool b

def bodyType : CommandBody → String
  | .movement _ => "movement"
  | .emergencyStop => "emergency_stop"
  | .heartbeat => "heartbeat"
  | .resumeControl _ => "resume_control"
  | .action .. => "action"
  | .config .. => "config"

def bodyJson : CommandBody → List (String × Json)
  | .movement axes => [("axes", axesJson axes)]
  | .emergencyStop | .heartbeat => []
  | .resumeControl acknowledgement => [("acknowledgement", .str acknowledgement)]
  | .action name none => [("action", .str name)]
  | .action name (some params) => [("action", .str name), ("params", .obj params)]
  | .config key value => [("key", .str key), ("value", configValueJson value)]

/-- The JSON of a command whose fields are given. -/
def commandJson (cmd : ControlCommand) : Json :=
  .obj (("type", .str (bodyType cmd.body)) :: (baseFieldsJson cmd.toBaseFields ++ bodyJson cmd.body))

def eventText : SafetyEventName → String
  | .edgeOnline => "edge_online"
  | .safeModeEntered => "safe_mode_entered"
  | .safeModeLeft => "safe_mode_left"
  | .emergencyStopAcked => "emergency_stop_acked"
  | .edgeDisconnecting => "edge_disconnecting"
  | .fatal => "fatal"

/-- A key that is there only with a value. -/
def optionalText (key : String) : Option String → List (String × Json)
  | none => []
  | some text => [(key, .str text)]

/-- The JSON of a safety event whose fields are given. -/
def safetyEventJson (e : SafetyEvent) : Json :=
  .obj
    ([("kind", .str "safety_event"), ("v", .num 1), ("ts", .num e.ts), ("vehicleId", .str e.vehicleId),
        ("sessionId", .str e.sessionId), ("seq", .num e.seq), ("event", .str (eventText e.event))] ++
      (optionalText "reason" e.reason ++ optionalText "message" e.message))

theorem accepts_nonEmptyString (s : String) : nonEmptyString.accepts (.str s) = (s != "") := by
  rw [nonEmptyString, Zod.accepts_string, Bool.eq_iff_iff]
  simp [Zod.StringCheck.passes, Zod.one_le_utf16Length]

theorem accepts_count (n : Nat) : count.accepts (.num n) = true := by
  have hint : Zod.NumberCheck.passes (n : ℚ) .int = true := decide_eq_true (Rat.den_natCast n)
  have hnonneg : Zod.NumberCheck.passes (n : ℚ) .nonnegative = true :=
    decide_eq_true Rat.natCast_nonneg
  rw [count, Zod.accepts_number, List.all_cons, List.all_cons, hint, hnonneg]
  rfl

@[simp] theorem accepts_number (q : ℚ) : number.accepts (.num q) = true := by
  rw [number, Zod.accepts_number, List.all_nil]

theorem accepts_nonnegative (q : ℚ) : nonnegative.accepts (.num q) = decide (0 ≤ q) := by
  rw [nonnegative, Zod.accepts_number]
  simp [Zod.NumberCheck.passes, Zod.NumberCheck.nonnegative]

theorem accepts_within (low high q : ℚ) :
    (within low high).accepts (.num q) = (decide (low ≤ q) && decide (q ≤ high)) := by
  rw [within, Zod.accepts_number]
  simp [Zod.NumberCheck.passes]

theorem accepts_axes (axes : Axes) :
    (Schema.object
      [("forward", within (-1) 1), ("lateral", within (-1) 1), ("yaw", within (-1) 1)]).accepts
        (axesJson axes) = axes.accepted := by
  rw [axesJson, Zod.accepts_object]
  simp [List.lookup_cons, accepts_within, Axes.accepted, Bool.and_assoc]

theorem accepts_commandSchema (type : String) (f : BaseFields) (own : List (String × Schema))
    (rest : List (String × Json)) :
    (commandSchema type own).accepts (.obj (("type", .str type) :: (baseFieldsJson f ++ rest))) =
      (f.accepted && own.all fun declared =>
        declared.2.acceptsField
          (List.lookup declared.1 (("type", .str type) :: (baseFieldsJson f ++ rest)))) := by
  rw [commandSchema, Zod.accepts_object, List.all_cons, List.all_append]
  simp [baseFields, baseFieldsJson, List.lookup_cons, accepts_nonEmptyString, accepts_count,
    Zod.StringCheck.passes, BaseFields.accepted, Bool.and_assoc, Zod.Literal.json]

/-- The schema of a body's type. -/
def bodySchema : CommandBody → Schema
  | .movement _ => movementCommand
  | .emergencyStop => emergencyStopCommand
  | .heartbeat => heartbeatMessage
  | .resumeControl _ => resumeControlCommand
  | .action .. => actionCommand
  | .config .. => configCommand

theorem accepts_bodySchema (cmd : ControlCommand) :
    controlCommand.accepts (commandJson cmd) = (bodySchema cmd.body).accepts (commandJson cmd) := by
  rw [controlCommand, commandJson]
  cases cmd.body <;> exact Zod.accepts_discriminatedUnion rfl rfl

/-- The schema accepts the fields of a command where `decodeCommand` does. -/
theorem accepts_commandJson (cmd : ControlCommand) :
    controlCommand.accepts (commandJson cmd) = (Rvep.decodeCommand cmd).isSome := by
  rw [accepts_bodySchema]
  have hdecode : (Rvep.decodeCommand cmd).isSome =
      (cmd.toBaseFields.accepted && cmd.body.accepted) := by
    rw [Rvep.decodeCommand]
    split
    next h => rw [h]; rfl
    next h => rw [Bool.eq_false_iff.mpr h]; rfl
  rw [hdecode, commandJson, Bool.eq_iff_iff]
  cases cmd.body with
  | movement axes =>
    rw [bodySchema, movementCommand, bodyType, accepts_commandSchema]
    simp [baseFieldsJson, bodyJson, List.lookup_cons, accepts_axes, CommandBody.accepted]
  | emergencyStop =>
    rw [bodySchema, emergencyStopCommand, bodyType, accepts_commandSchema]
    simp [CommandBody.accepted]
  | heartbeat =>
    rw [bodySchema, heartbeatMessage, bodyType, accepts_commandSchema]
    simp [CommandBody.accepted]
  | resumeControl acknowledgement =>
    rw [bodySchema, resumeControlCommand, bodyType, accepts_commandSchema]
    simp [baseFieldsJson, bodyJson, List.lookup_cons, CommandBody.accepted, Zod.Literal.json]
  | action name params =>
    rw [bodySchema, actionCommand, bodyType, accepts_commandSchema]
    cases params <;>
      simp [baseFieldsJson, bodyJson, List.lookup_cons, accepts_nonEmptyString, CommandBody.accepted,
        Zod.accepts_record]
  | config key value =>
    rw [bodySchema, configCommand, bodyType, accepts_commandSchema]
    cases value <;>
      simp [baseFieldsJson, bodyJson, List.lookup_cons, accepts_nonEmptyString, CommandBody.accepted,
        Zod.accepts_union_cons, configValueJson]

theorem accepts_eventText (event : SafetyEventName) :
    safetyEventName.accepts (.str (eventText event)) = true := by
  rw [safetyEventName, Zod.accepts_enum]
  cases event <;> decide

/-- The schema accepts the fields of a safety event where `decodeSafetyEvent` does. -/
theorem accepts_safetyEventJson (e : SafetyEvent) :
    safetyEvent.accepts (safetyEventJson e) = (Rvep.decodeSafetyEvent e).isSome := by
  have hdecode : (Rvep.decodeSafetyEvent e).isSome = e.accepted := by
    rw [Rvep.decodeSafetyEvent]
    split
    next h => rw [h]; rfl
    next h => rw [Bool.eq_false_iff.mpr h]; rfl
  rw [hdecode, safetyEvent, safetyEventJson, Zod.accepts_object]
  cases hreason : e.reason <;> cases hmessage : e.message <;>
    simp [optionalText, List.lookup_cons, accepts_nonEmptyString, accepts_count, accepts_eventText,
      SafetyEvent.accepted, Zod.Literal.json]

-- ---------------------------------------------------------------------------
-- Each family to its own decoder
-- ---------------------------------------------------------------------------

/-- What tells a message's family: commands have a `type`, the others their `kind`. -/
def Family.Tagged (fields : List (String × Json)) : Family → Prop
  | command => fields.lookup "type" ≠ none
  | telemetry => fields.lookup "kind" = some (.str "telemetry")
  | safety => fields.lookup "kind" = some (.str "safety_event")

theorem Family.wellFormed (family : Family) : family.schema.wellFormed = true := by
  cases family <;> decide

section
variable {fields out : List (String × Json)} {v m : Json}

theorem kind_of_input {shape : List (String × Schema)} {l : Zod.Literal}
    (hwf : (Schema.object shape).wellFormed = true)
    (hkind : shape.lookup "kind" = some (.literal l))
    (h : (Schema.object shape).parse (.obj fields) = some m) :
    fields.lookup "kind" = some l.json := by
  obtain ⟨fields', -, hfields, -, hlookup, -⟩ := Zod.lookup_of_literal hwf hkind h
  obtain rfl := Json.obj.inj hfields
  exact hlookup

theorem tagged_of_parse {family : Family} (h : family.schema.parse (.obj fields) = some m) :
    family.Tagged fields := by
  cases family with
  | command =>
    obtain ⟨fields', value, hfields, hvalue, -⟩ := Zod.parse_discriminatedUnion h
    obtain rfl := Json.obj.inj hfields
    simp [Family.Tagged, hvalue]
  | telemetry => exact kind_of_input Family.telemetry.wellFormed rfl h
  | safety => exact kind_of_input Family.safety.wellFormed rfl h

theorem not_declares_kind :
    ∀ s ∈ [movementCommand, emergencyStopCommand, heartbeatMessage, resumeControlCommand,
      actionCommand, configCommand], s.declares "kind" = false := by
  decide

theorem fields_of_parse {family : Family} (h : family.schema.parse v = some m) :
    ∃ fields, v = .obj fields := by
  cases family with
  | command =>
    obtain ⟨fields, -, rfl, -⟩ := Zod.parse_discriminatedUnion h
    exact ⟨fields, rfl⟩
  | telemetry | safety =>
    obtain ⟨fields, -, rfl, -⟩ := Zod.parse_object h
    exact ⟨fields, rfl⟩

theorem tags_of_output {shape : List (String × Schema)} {l : Zod.Literal}
    (hwf : (Schema.object shape).wellFormed = true)
    (htype : (Schema.object shape).declares "type" = false)
    (hkind : shape.lookup "kind" = some (.literal l))
    (h : (Schema.object shape).parse v = some (.obj out)) :
    out.lookup "type" = none ∧ out.lookup "kind" = some l.json := by
  obtain ⟨out₁, hout₁, htype⟩ := Zod.lookup_of_not_declares htype h
  obtain ⟨-, out₂, -, hout₂, -, hkind⟩ := Zod.lookup_of_literal hwf hkind h
  obtain rfl := Json.obj.inj hout₁
  obtain rfl := Json.obj.inj hout₂
  exact ⟨htype, hkind⟩

/-- Undeclared keys are stripped, so a message is tagged for its own family only. -/
theorem tagged_output {own : Family} (h : own.schema.parse v = some (.obj out)) {other : Family}
    (hother : other.Tagged out) : other = own := by
  cases own with
  | command =>
    obtain ⟨fields, value, -, -, h⟩ := Zod.parse_discriminatedUnion h
    obtain ⟨s, hs, hparse⟩ := Zod.exists_of_parseSelected h
    obtain ⟨out', hout, hkind⟩ := Zod.lookup_of_not_declares (not_declares_kind s hs) hparse
    obtain rfl := Json.obj.inj hout
    cases other with
    | command => rfl
    | telemetry | safety =>
      rw [Family.Tagged, hkind] at hother
      cases hother
  | telemetry =>
    obtain ⟨htype, hkind⟩ := tags_of_output rfl rfl rfl h
    cases other with
    | command => exact absurd htype hother
    | telemetry => rfl
    | safety =>
      rw [Family.Tagged, hkind] at hother
      simp [Zod.Literal.json] at hother
  | safety =>
    obtain ⟨htype, hkind⟩ := tags_of_output rfl rfl rfl h
    cases other with
    | command => exact absurd htype hother
    | telemetry =>
      rw [Family.Tagged, hkind] at hother
      simp [Zod.Literal.json] at hother
    | safety => rfl

theorem parse_eq_none {own other : Family} (h : own.schema.parse v = some m) (hne : other ≠ own) :
    other.schema.parse m = none := by
  rw [Option.eq_none_iff_forall_ne_some]
  intro m' hm'
  obtain ⟨out, rfl⟩ := fields_of_parse hm'
  exact hne (tagged_output h (tagged_of_parse hm'))

end

section
variable {fmt : NumberFormat} {v m : Json}

/-- A decoder sees what was encoded. -/
theorem decode_encode (own other : Family) (hm : m.Sound fmt) :
    other.decode fmt (own.encode fmt m) = other.schema.parse m := by
  have hread : readJson fmt (own.encode fmt m) = some m := by
    cases own <;> exact readJson_writeJson hm
  cases other <;> exact (congrArg (Option.bind · _) hread).trans (Option.bind_some ..)

/-- A message that can be sent arrives unchanged at its own decoder and is
refused by the decoders of the other families. -/
theorem only_own_decoder_accepts {own : Family} (h : own.schema.parse v = some m)
    (hm : m.Sound fmt) :
    own.decode fmt (own.encode fmt m) = some m ∧
      ∀ other, other ≠ own → other.decode fmt (own.encode fmt m) = none := by
  refine ⟨?_, ?_⟩
  · rw [decode_encode own own hm]
    exact Zod.parse_parse own.schema own.wellFormed h
  · intro other hne
    rw [decode_encode own other hm]
    exact parse_eq_none h hne

/-- A heartbeat of an operator, as the web client sends it. -/
private def beat : Json :=
  .obj
    [("type", .str "heartbeat"), ("vehicleId", .str "rosbot-7"), ("sessionId", .str "s-31"),
      ("connectionEpoch", .num 2), ("seq", .num 41), ("timestamp", .str "2026-05-04T09:30:00.250Z")]

private theorem parse_beat : controlCommand.parse beat = some beat := by decide

private theorem beat_sound : beat.Sound wholeNumbers := by
  simp [beat, Json.Sound, Json.SoundFields, wholeNumbers]

theorem heartbeat_only_a_command :
    decodeCommand wholeNumbers (encodeCommand wholeNumbers beat) = some beat ∧
      decodeTelemetry wholeNumbers (encodeCommand wholeNumbers beat) = none ∧
      decodeSafetyEvent wholeNumbers (encodeCommand wholeNumbers beat) = none :=
  have h := @only_own_decoder_accepts wholeNumbers beat beat .command parse_beat beat_sound
  ⟨h.1, h.2 .telemetry (by decide), h.2 .safety (by decide)⟩

end

end Rvep.Wire
