import Rvep.Shared.JsonText

/-!
# Telemetry of the R2 bridge

The ROS callbacks and `build_telemetry` of `apps/r2-bridge/r2_bridge/main.py`,
over exact numbers, and the bytes that `json.dumps` makes of a frame.
-/

namespace Rvep.R2Bridge

open JsonText (Style)

-- ---------------------------------------------------------------------------
-- ROS messages
-- ---------------------------------------------------------------------------

structure Quaternion where
  x : ℚ
  y : ℚ
  z : ℚ
  w : ℚ
  deriving DecidableEq, Repr

/-- What the bridge reads of a `nav_msgs/Odometry`: twist, pose and `header.frame_id`. -/
structure Odometry where
  linearX : ℚ
  linearY : ℚ
  angularZ : ℚ
  x : ℚ
  y : ℚ
  orientation : Quaternion
  frameId : String
  deriving DecidableEq, Repr

structure Imu where
  ax : ℚ
  ay : ℚ
  az : ℚ
  gx : ℚ
  gy : ℚ
  gz : ℚ
  orientation : Quaternion
  deriving DecidableEq, Repr

-- ---------------------------------------------------------------------------
-- Arithmetic
-- ---------------------------------------------------------------------------

/-- `math.atan2`, and the float that stands for the result of a division. -/
structure PyMath (fmt : NumberFormat) where
  atan2 : ℚ → ℚ → ℚ
  round : ℚ → ℚ
  carried_atan2 : ∀ y x, fmt.carried (atan2 y x)
  carried_round : ∀ q, fmt.carried (round q)

/-- What the environment variables fix. -/
structure TelemetryConfig where
  vehicleId : String
  batteryFullV : ℚ
  batteryEmptyV : ℚ
  deriving DecidableEq, Repr

section
variable {fmt : NumberFormat} (math : PyMath fmt)

def quatToYaw (q : Quaternion) : ℚ :=
  math.atan2 (2 * (q.w * q.z + q.x * q.y)) (1 - 2 * (q.y * q.y + q.z * q.z))

/-- `none` is a ZeroDivisionError. -/
def voltageToPct (cfg : TelemetryConfig) (v : ℚ) : Option ℚ :=
  if cfg.batteryFullV - cfg.batteryEmptyV = 0 then none
  else
    let pct := math.round ((v - cfg.batteryEmptyV) / (cfg.batteryFullV - cfg.batteryEmptyV) * 100)
    some (max 0 (min 100 pct))

/-- `int(x)` drops the fraction. -/
def truncate (q : ℚ) : Int := q.num.tdiv q.den

-- ---------------------------------------------------------------------------
-- Telemetry callbacks
-- ---------------------------------------------------------------------------

/-- What `RosPublisher` keeps for telemetry; the latest odometry as its dicts
for velocity and pose. -/
structure RosPublisher where
  latestOdom : Option (Json × Json) := none
  latestVoltage : Option ℚ := none
  latestImu : Option Json := none
  capsPublished : Bool := false
  lastOdomTs : ℚ := 0
  lastVoltageTs : ℚ := 0
  lastImuTs : ℚ := 0

def velocityDict (msg : Odometry) : Json :=
  .obj [("linearX", .num msg.linearX), ("linearY", .num msg.linearY), ("angularZ", .num msg.angularZ)]

def odomDict (msg : Odometry) : Json :=
  .obj
    [("x", .num msg.x), ("y", .num msg.y), ("yaw", .num (quatToYaw math msg.orientation)),
      ("frame", .str (if msg.frameId = "" then "odom" else msg.frameId))]

def imuDict (msg : Imu) : Json :=
  .obj
    [("ax", .num msg.ax), ("ay", .num msg.ay), ("az", .num msg.az), ("gx", .num msg.gx),
      ("gy", .num msg.gy), ("gz", .num msg.gz),
      ("oriQuat", .arr
        [.num msg.orientation.x, .num msg.orientation.y, .num msg.orientation.z,
          .num msg.orientation.w])]

namespace RosPublisher

def onOdom (now : ℚ) (msg : Odometry) (p : RosPublisher) : RosPublisher :=
  { p with latestOdom := some (velocityDict msg, odomDict math msg), lastOdomTs := now }

def onVoltage (now : ℚ) (data : ℚ) (p : RosPublisher) : RosPublisher :=
  { p with latestVoltage := some data, lastVoltageTs := now }

def onImu (now : ℚ) (msg : Imu) (p : RosPublisher) : RosPublisher :=
  { p with latestImu := some (imuDict msg), lastImuTs := now }

-- ---------------------------------------------------------------------------
-- build_telemetry
-- ---------------------------------------------------------------------------

def odomSection (now : ℚ) (p : RosPublisher) : List (String × Json) :=
  match p.latestOdom with
  | some (velocity, odom) =>
    if now - p.lastOdomTs < 5 then [("velocity", velocity), ("odom", odom)] else []
  | none => []

def batterySection (cfg : TelemetryConfig) (now : ℚ) (p : RosPublisher) :
    Option (List (String × Json)) :=
  match p.latestVoltage with
  | some v =>
    if now - p.lastVoltageTs < 10 then
      (voltageToPct math cfg v).map fun pct =>
        [("battery", .obj [("voltage", .num v), ("pct", .num pct)])]
    else some []
  | none => some []

def imuSection (now : ℚ) (p : RosPublisher) : List (String × Json) :=
  match p.latestImu with
  | some imu => if now - p.lastImuTs < 5 then [("imu", imu)] else []
  | none => []

/-- What the bridge has heard of, fresh or not. -/
def capabilities (p : RosPublisher) : List String :=
  (if p.latestOdom.isSome then ["velocity", "odom"] else []) ++
    (if p.latestVoltage.isSome then ["battery"] else []) ++
    (if p.latestImu.isSome then ["imu"] else []) ++ ["vehicle"]

def capsSection (p : RosPublisher) : List (String × Json) :=
  if p.capsPublished then [] else [("capabilities", .arr (p.capabilities.map .str))]

/-- The frame, `none` where a ZeroDivisionError is raised. -/
def buildTelemetry (cfg : TelemetryConfig) (now : ℚ) (sessionId : String) (seq : Nat)
    (p : RosPublisher) : Option (Json × RosPublisher) :=
  (p.batterySection math cfg now).map fun battery =>
    (.obj
      ([("kind", .str "telemetry"), ("v", .num 1), ("ts", .num (truncate (now * 1000))),
          ("vehicleId", .str cfg.vehicleId), ("sessionId", .str sessionId), ("seq", .num seq)] ++
        p.odomSection now ++ battery ++ p.imuSection now ++
        [("vehicle", .obj [("mode", .str "manual")])] ++ p.capsSection),
      { p with capsPublished := true })

end RosPublisher

end

-- ---------------------------------------------------------------------------
-- json.dumps
-- ---------------------------------------------------------------------------

/-- With `ensure_ascii`, all but the printable ASCII characters are escaped. -/
def dumpsStyle : Style where
  escape := JsonText.escapeWith stringifyEscapes fun c => decide (c < ' ') || decide ('~' < c)
  itemGap := [' ']
  keyGap := [' ']
  reads := JsonText.escapes_escapeWith (by decide) (by decide) (by decide) fun _ h =>
    of_decide_eq_false (Bool.or_eq_false_iff.mp h).1
  blankItemGap := List.forall_mem_singleton.mpr rfl
  blankKeyGap := List.forall_mem_singleton.mpr rfl

/-- `json.dumps(msg).encode("utf-8")` -/
def dumps (fmt : NumberFormat) (msg : Json) : ByteArray :=
  encodeText (String.ofList ((msg.tree fmt).write dumpsStyle))

-- ---------------------------------------------------------------------------
-- Samples
-- ---------------------------------------------------------------------------

/-- The latest sample of each source, with the time it came. -/
structure Samples where
  odom : Option (ℚ × Odometry)
  voltage : Option (ℚ × ℚ)
  imu : Option (ℚ × Imu)
  deriving DecidableEq, Repr

/-- The bridge after its callbacks have seen the samples. -/
def Samples.publisher {fmt : NumberFormat} (math : PyMath fmt) (s : Samples) (capsPublished : Bool) :
    RosPublisher :=
  let p : RosPublisher := { capsPublished := capsPublished }
  let p := s.odom.elim p fun sample => p.onOdom math sample.1 sample.2
  let p := s.voltage.elim p fun sample => p.onVoltage sample.1 sample.2
  s.imu.elim p fun sample => p.onImu sample.1 sample.2

-- ---------------------------------------------------------------------------
-- Runs
-- ---------------------------------------------------------------------------

/-- What the node does with telemetry: its callbacks, and the frames it builds. -/
inductive TelemetryEvent
  | odom (now : ℚ) (msg : Odometry)
  | voltage (now : ℚ) (data : ℚ)
  | imu (now : ℚ) (msg : Imu)
  | build (cfg : TelemetryConfig) (now : ℚ) (sessionId : String) (seq : Nat)

section
variable {fmt : NumberFormat} (math : PyMath fmt)

def RosPublisher.step (p : RosPublisher) : TelemetryEvent → RosPublisher
  | .odom now msg => p.onOdom math now msg
  | .voltage now data => p.onVoltage now data
  | .imu now msg => p.onImu now msg
  | .build cfg now sessionId seq =>
    (p.buildTelemetry math cfg now sessionId seq).elim p (·.2)

theorem step_publisher (s : Samples) (caps : Bool) (e : TelemetryEvent) :
    ∃ (s' : Samples) (caps' : Bool),
      (s.publisher math caps).step math e = s'.publisher math caps' := by
  obtain ⟨odom, voltage, imu⟩ := s
  cases e with
  | odom now msg =>
    refine ⟨⟨some (now, msg), voltage, imu⟩, caps, ?_⟩
    cases odom <;> cases voltage <;> cases imu <;> rfl
  | voltage now data =>
    refine ⟨⟨odom, some (now, data), imu⟩, caps, ?_⟩
    cases odom <;> cases voltage <;> cases imu <;> rfl
  | imu now msg =>
    refine ⟨⟨odom, voltage, some (now, msg)⟩, caps, ?_⟩
    cases odom <;> cases voltage <;> cases imu <;> rfl
  | build cfg now sessionId seq =>
    rw [RosPublisher.step, RosPublisher.buildTelemetry]
    cases RosPublisher.batterySection math cfg now _ with
    | none => exact ⟨⟨odom, voltage, imu⟩, caps, rfl⟩
    | some battery =>
      refine ⟨⟨odom, voltage, imu⟩, true, ?_⟩
      cases odom <;> cases voltage <;> cases imu <;> rfl

/-- Whenever a frame is built, the node is as the latest sample of each source has left it. -/
theorem reached_publisher (events : List TelemetryEvent) :
    ∃ s caps, events.foldl (RosPublisher.step math) {} = Samples.publisher math s caps := by
  suffices hrun : ∀ s caps, ∃ s' caps', events.foldl (RosPublisher.step math)
      (Samples.publisher math s caps) = Samples.publisher math s' caps' from
    hrun ⟨none, none, none⟩ false
  induction events with
  | nil => exact fun s caps => ⟨s, caps, rfl⟩
  | cons e events ih =>
    intro s caps
    obtain ⟨s', caps', hstep⟩ := step_publisher math s caps e
    rw [List.foldl_cons, hstep]
    exact ih s' caps'

end

end Rvep.R2Bridge
