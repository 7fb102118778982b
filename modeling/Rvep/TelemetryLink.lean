import Rvep.R2Bridge.Telemetry
import Rvep.Shared.Messages

/-!
# From the bridge's telemetry to the cockpit

What the cockpit's `decodeTelemetry` makes of the frames of the R2 bridge. The
schema knows two frames of reference and no negative voltage; the bridge passes
on what ROS says.
-/

namespace Rvep.R2Bridge

-- ---------------------------------------------------------------------------
-- Samples that the schema has room for
-- ---------------------------------------------------------------------------

/-- The sections that are sent agree with the schema: the frame of reference is
the default or one that the schema knows, and the voltage is not negative. -/
def Samples.Conforms (now : ℚ) (s : Samples) : Prop :=
  (∀ t msg, s.odom = some (t, msg) → now - t < 5 → msg.frameId ∈ ["", "odom", "map"]) ∧
    ∀ t v, s.voltage = some (t, v) → now - t < 10 → 0 ≤ v

/-- The samples are made of numbers that can be sent. -/
structure Samples.Exact (fmt : NumberFormat) (s : Samples) : Prop where
  odom : ∀ t msg, s.odom = some (t, msg) →
    fmt.carried msg.linearX ∧ fmt.carried msg.linearY ∧ fmt.carried msg.angularZ ∧
      fmt.carried msg.x ∧ fmt.carried msg.y
  voltage : ∀ t v, s.voltage = some (t, v) → fmt.carried v
  imu : ∀ t msg, s.imu = some (t, msg) →
    (fmt.carried msg.ax ∧ fmt.carried msg.ay ∧ fmt.carried msg.az) ∧
      (fmt.carried msg.gx ∧ fmt.carried msg.gy ∧ fmt.carried msg.gz) ∧
      fmt.carried msg.orientation.x ∧ fmt.carried msg.orientation.y ∧
      fmt.carried msg.orientation.z ∧ fmt.carried msg.orientation.w

-- ---------------------------------------------------------------------------
-- The sections in the schema
-- ---------------------------------------------------------------------------

section
variable {fmt : NumberFormat} (math : PyMath fmt)

open Wire Zod

theorem accepts_velocityDict (msg : Odometry) : velocity.accepts (velocityDict msg) = true := by
  rw [velocity, velocityDict, accepts_object]
  simp [List.lookup_cons]

theorem accepts_odomDict (msg : Odometry) :
    odom.accepts (odomDict math msg) = decide (msg.frameId ∈ ["", "odom", "map"]) := by
  rw [odom, odomDict, accepts_object, Bool.eq_iff_iff]
  by_cases hempty : msg.frameId = "" <;> simp [List.lookup_cons, hempty]

theorem accepts_quaternion (x y z w : ℚ) :
    (Schema.tuple [number, number, number, number]).accepts
      (.arr [.num x, .num y, .num z, .num w]) = true := by
  have hparse (q : ℚ) : number.parse (.num q) = some (.num q) := by
    rw [number, Schema.parse]
    rfl
  simp [Schema.accepts, Schema.parse, Schema.parseTuple, items?, hparse]

theorem accepts_imuDict (msg : Imu) : imu.accepts (imuDict msg) = true := by
  rw [imu, imuDict, accepts_object]
  simp [List.lookup_cons, accepts_quaternion]

theorem accepts_batteryDict {v pct : ℚ} (hpct : 0 ≤ pct ∧ pct ≤ 100) :
    battery.accepts (.obj [("voltage", .num v), ("pct", .num pct)]) = decide (0 ≤ v) := by
  rw [battery, accepts_object]
  simp [List.lookup_cons, accepts_within, accepts_nonnegative, hpct]

theorem pct_within {cfg : TelemetryConfig} {v pct : ℚ} (h : voltageToPct math cfg v = some pct) :
    0 ≤ pct ∧ pct ≤ 100 := by
  unfold voltageToPct at h
  split at h
  next => cases h
  next =>
    obtain rfl := Option.some.inj h
    refine ⟨le_max_left .., max_le ?_ (min_le_left ..)⟩
    decide

theorem accepts_capabilities (caps : List String) :
    (Schema.array (.string [])).accepts (.arr (caps.map .str)) = true := by
  have hparse : (caps.map Json.str).mapM (Schema.string []).parse = some (caps.map Json.str) := by
    refine mapM_eq_self fun v hv => ?_
    obtain ⟨text, -, rfl⟩ := List.mem_map.mp hv
    rw [Schema.parse]
    rfl
  rw [Schema.accepts, Schema.parse, items?, Option.bind_some, hparse]
  rfl

-- ---------------------------------------------------------------------------
-- Frames
-- ---------------------------------------------------------------------------

/-- A frame by its optional sections. -/
def frameFields (vehicleId sessionId : String) (ts : Int) (seq : Nat) (odom : Option (Json × Json))
    (battery imu caps : Option Json) : List (String × Json) :=
  [("kind", .str "telemetry"), ("v", .num 1), ("ts", .num ts), ("vehicleId", .str vehicleId),
      ("sessionId", .str sessionId), ("seq", .num seq)] ++
    odom.elim [] (fun o => [("velocity", o.1), ("odom", o.2)]) ++
    battery.elim [] (fun b => [("battery", b)]) ++ imu.elim [] (fun i => [("imu", i)]) ++
    [("vehicle", .obj [("mode", .str "manual")])] ++ caps.elim [] fun c => [("capabilities", c)]

section
variable {vehicleId sessionId : String} {ts : Int} {seq : Nat} {o : Option (Json × Json)}
  {b i c : Option Json}

theorem accepts_time (h : 0 ≤ ts) : count.accepts (.num ts) = true := by
  obtain ⟨n, rfl⟩ := Int.eq_ofNat_of_zero_le h
  exact accepts_count n

theorem accepts_vehicleDict : vehicleStatus.accepts (.obj [("mode", .str "manual")]) = true := by
  rw [vehicleStatus, accepts_object]
  simp [List.lookup_cons]

/-- A frame is accepted when its sections are. -/
theorem accepts_frameFields (hts : 0 ≤ ts) (hvehicle : vehicleId ≠ "") (hsession : sessionId ≠ "") :
    telemetryMessage.accepts (.obj (frameFields vehicleId sessionId ts seq o b i c)) =
      (i.all imu.accepts && b.all battery.accepts &&
        o.all (fun o => velocity.accepts o.1 && odom.accepts o.2) &&
        c.all (Schema.array (.string [])).accepts) := by
  rw [telemetryMessage, accepts_object, Bool.eq_iff_iff]
  cases o <;> cases b <;> cases i <;> cases c <;>
    simp [frameFields, List.lookup_cons, accepts_count, accepts_time hts, accepts_nonEmptyString,
      accepts_vehicleDict, hvehicle, hsession, Literal.json, and_assoc]

theorem knows_frameFields (ho : ∀ x, o = some x → velocity.knows x.1 = true ∧ odom.knows x.2 = true)
    (hb : ∀ x, b = some x → battery.knows x = true) (hi : ∀ x, i = some x → imu.knows x = true) :
    telemetryMessage.knows (.obj (frameFields vehicleId sessionId ts seq o b i c)) = true := by
  have hvehicle : vehicleStatus.knows (.obj [("mode", .str "manual")]) = true := by decide
  have hcaps (v : Json) : (Schema.array (.string [])).knows v = true := knows_of_keeps rfl v
  rw [telemetryMessage, knows_object]
  cases o <;> cases b <;> cases i <;> cases c <;>
    simp [frameFields, List.lookup_cons, count, nonEmptyString, hvehicle, hcaps, ho, hb, hi]

theorem sound_frameFields (hts : fmt.carried ts) (hseq : fmt.carried seq)
    (ho : ∀ x, o = some x → x.1.Sound fmt ∧ x.2.Sound fmt) (hb : ∀ x, b = some x → x.Sound fmt)
    (hi : ∀ x, i = some x → x.Sound fmt) (hc : ∀ x, c = some x → x.Sound fmt) :
    (Json.obj (frameFields vehicleId sessionId ts seq o b i c)).Sound fmt := by
  have hone : fmt.carried 1 := fmt.carried_int 1 (by decide)
  cases o <;> cases b <;> cases i <;> cases c <;>
    simp [frameFields, Json.Sound, Json.SoundFields, hone, hts, hseq, ho, hb, hi, hc]

end

-- ---------------------------------------------------------------------------
-- Sections of a frame
-- ---------------------------------------------------------------------------

/-- The bridge has these samples, and which of them are recent. -/
inductive OdomPart (now : ℚ) (s : Samples) : Option (Json × Json) → Prop
  | absent : (∀ t msg, s.odom = some (t, msg) → ¬ now - t < 5) → OdomPart now s none
  | present {t : ℚ} {msg : Odometry} : s.odom = some (t, msg) → now - t < 5 →
    OdomPart now s (some (velocityDict msg, odomDict math msg))

inductive BatteryPart (cfg : TelemetryConfig) (now : ℚ) (s : Samples) : Option Json → Prop
  | absent : (∀ t v, s.voltage = some (t, v) → ¬ now - t < 10) → BatteryPart cfg now s none
  | present {t v pct : ℚ} : s.voltage = some (t, v) → now - t < 10 →
    voltageToPct math cfg v = some pct →
    BatteryPart cfg now s (some (.obj [("voltage", .num v), ("pct", .num pct)]))

inductive ImuPart (s : Samples) : Option Json → Prop
  | absent : ImuPart s none
  | present {t : ℚ} {msg : Imu} : s.imu = some (t, msg) → ImuPart s (some (imuDict msg))

section
variable {cfg : TelemetryConfig} {now : ℚ} {s : Samples} {caps : Bool}

theorem publisher_odom : (s.publisher math caps).latestOdom =
      s.odom.map (fun sample => (velocityDict sample.2, odomDict math sample.2)) ∧
    (s.publisher math caps).lastOdomTs = s.odom.elim 0 (·.1) := by
  obtain ⟨odom, voltage, imu⟩ := s
  cases odom <;> cases voltage <;> cases imu <;> exact ⟨rfl, rfl⟩

theorem publisher_voltage : (s.publisher math caps).latestVoltage = s.voltage.map (·.2) ∧
    (s.publisher math caps).lastVoltageTs = s.voltage.elim 0 (·.1) := by
  obtain ⟨odom, voltage, imu⟩ := s
  cases odom <;> cases voltage <;> cases imu <;> exact ⟨rfl, rfl⟩

theorem publisher_imu :
    (s.publisher math caps).latestImu = s.imu.map fun sample => imuDict sample.2 := by
  obtain ⟨odom, voltage, imu⟩ := s
  cases odom <;> cases voltage <;> cases imu <;> rfl

theorem odomSection_publisher : ∃ o, OdomPart math now s o ∧
    (s.publisher math caps).odomSection now =
      o.elim [] fun o => [("velocity", o.1), ("odom", o.2)] := by
  rw [RosPublisher.odomSection, (publisher_odom math).1, (publisher_odom math).2]
  cases hodom : s.odom with
  | none => exact ⟨none, .absent (by simp [hodom]), rfl⟩
  | some sample =>
    by_cases hfresh : now - sample.1 < 5
    · exact ⟨_, .present hodom hfresh, if_pos hfresh⟩
    · refine ⟨none, .absent ?_, if_neg hfresh⟩
      intro t msg h
      obtain rfl := Option.some.inj (hodom.symm.trans h)
      exact hfresh

theorem batterySection_publisher {fields : List (String × Json)}
    (h : (s.publisher math caps).batterySection math cfg now = some fields) :
    ∃ b, BatteryPart math cfg now s b ∧ fields = b.elim [] fun b => [("battery", b)] := by
  rw [RosPublisher.batterySection, (publisher_voltage math).1, (publisher_voltage math).2] at h
  cases hvoltage : s.voltage with
  | none =>
    rw [hvoltage] at h
    exact ⟨none, .absent (by simp [hvoltage]), (Option.some.inj h).symm⟩
  | some sample =>
    rw [hvoltage] at h
    by_cases hfresh : now - sample.1 < 10
    · obtain ⟨pct, hpct, rfl⟩ := Option.map_eq_some_iff.mp ((if_pos hfresh).symm.trans h)
      exact ⟨_, .present hvoltage hfresh hpct, rfl⟩
    · refine ⟨none, .absent ?_, (Option.some.inj ((if_neg hfresh).symm.trans h)).symm⟩
      intro t v hv
      obtain rfl := Option.some.inj (hvoltage.symm.trans hv)
      exact hfresh

theorem imuSection_publisher : ∃ i, ImuPart s i ∧
    (s.publisher math caps).imuSection now = i.elim [] fun i => [("imu", i)] := by
  rw [RosPublisher.imuSection, publisher_imu]
  cases himu : s.imu with
  | none => exact ⟨none, .absent, rfl⟩
  | some sample =>
    by_cases hfresh : now - (s.publisher math caps).lastImuTs < 5
    · exact ⟨_, .present himu, if_pos hfresh⟩
    · exact ⟨none, .absent, if_neg hfresh⟩

theorem OdomPart.accepts_iff {o : Option (Json × Json)} (h : OdomPart math now s o) :
    o.all (fun o => velocity.accepts o.1 && odom.accepts o.2) = true ↔
      ∀ t msg, s.odom = some (t, msg) → now - t < 5 → msg.frameId ∈ ["", "odom", "map"] := by
  cases h with
  | absent hstale => exact ⟨fun _ t msg ht hfresh => absurd hfresh (hstale t msg ht), fun _ => rfl⟩
  | @present t msg hodom hfresh =>
    rw [Option.all_some, accepts_velocityDict, accepts_odomDict, Bool.true_and, decide_eq_true_eq]
    refine ⟨fun hframe t' msg' h' _ => ?_, fun hall => hall t msg hodom hfresh⟩
    obtain ⟨rfl, rfl⟩ := Prod.mk.inj (Option.some.inj (hodom.symm.trans h'))
    exact hframe

theorem OdomPart.knows {o : Option (Json × Json)} (h : OdomPart math now s o) :
    ∀ x, o = some x → velocity.knows x.1 = true ∧ odom.knows x.2 = true := by
  rintro x rfl
  cases h with
  | present hodom hfresh =>
    rw [velocity, odom, velocityDict, odomDict, knows_object, knows_object]
    simp [List.lookup_cons, number]

theorem OdomPart.sound {o : Option (Json × Json)} (h : OdomPart math now s o) (hs : s.Exact fmt) :
    ∀ x, o = some x → x.1.Sound fmt ∧ x.2.Sound fmt := by
  rintro x rfl
  cases h with
  | present hodom hfresh =>
    obtain ⟨hlx, hly, haz, hx, hy⟩ := hs.odom _ _ hodom
    have hyaw := math.carried_atan2
    simp [velocityDict, odomDict, quatToYaw, Json.Sound, Json.SoundFields, hlx, hly, haz, hx, hy, hyaw]

theorem BatteryPart.accepts_iff {b : Option Json} (h : BatteryPart math cfg now s b) :
    b.all battery.accepts = true ↔
      ∀ t v, s.voltage = some (t, v) → now - t < 10 → 0 ≤ v := by
  cases h with
  | absent hstale => exact ⟨fun _ t v ht hfresh => absurd hfresh (hstale t v ht), fun _ => rfl⟩
  | @present t v pct hvoltage hfresh hpct =>
    rw [Option.all_some, accepts_batteryDict (pct_within math hpct), decide_eq_true_eq]
    refine ⟨fun hv t' v' h' _ => ?_, fun hall => hall t v hvoltage hfresh⟩
    obtain ⟨rfl, rfl⟩ := Prod.mk.inj (Option.some.inj (hvoltage.symm.trans h'))
    exact hv

theorem BatteryPart.knows {b : Option Json} (h : BatteryPart math cfg now s b) :
    ∀ x, b = some x → battery.knows x = true := by
  rintro x rfl
  cases h with
  | present hvoltage hfresh hpct =>
    rw [battery, knows_object]
    simp [List.lookup_cons, within, nonnegative]

theorem carried_clamp {q : ℚ} (hq : fmt.carried q) : fmt.carried (max 0 (min 100 q)) := by
  rcases max_choice 0 (min 100 q) with hmax | hmax
  · rw [hmax]
    exact fmt.carried_int 0 (by decide)
  · rw [hmax]
    rcases min_choice 100 q with hmin | hmin
    · rw [hmin]
      exact fmt.carried_int 100 (by decide)
    · rwa [hmin]

theorem carried_pct {v pct : ℚ} (h : voltageToPct math cfg v = some pct) : fmt.carried pct := by
  unfold voltageToPct at h
  split at h
  next => cases h
  next =>
    obtain rfl := Option.some.inj h
    exact carried_clamp (math.carried_round _)

theorem BatteryPart.sound {b : Option Json} (h : BatteryPart math cfg now s b) (hs : s.Exact fmt) :
    ∀ x, b = some x → x.Sound fmt := by
  rintro x rfl
  cases h with
  | present hvoltage hfresh hpct =>
    have hv := hs.voltage _ _ hvoltage
    have hp := carried_pct math hpct
    simp [Json.Sound, Json.SoundFields, hv, hp]

theorem ImuPart.accepts {i : Option Json} (h : ImuPart s i) : i.all imu.accepts = true := by
  cases h with
  | absent => rfl
  | present himu => rw [Option.all_some, accepts_imuDict]

theorem ImuPart.knows {i : Option Json} (h : ImuPart s i) : ∀ x, i = some x → imu.knows x = true := by
  rintro x rfl
  cases h with
  | present himu =>
    have hnumber (v : Json) : number.knows v = true := knows_of_keeps rfl v
    have hquat (v : Json) : (Schema.tuple [number, number, number, number]).knows v = true :=
      knows_of_keeps rfl v
    rw [imu, imuDict, knows_object]
    simp [List.lookup_cons, hnumber, hquat]

theorem ImuPart.sound {i : Option Json} (h : ImuPart s i) (hs : s.Exact fmt) :
    ∀ x, i = some x → x.Sound fmt := by
  rintro x rfl
  cases h with
  | present himu =>
    obtain ⟨⟨hax, hay, haz⟩, ⟨hgx, hgy, hgz⟩, hx, hy, hz, hw⟩ := hs.imu _ _ himu
    simp [imuDict, Json.Sound, Json.SoundFields, Json.SoundItems, hax, hay, haz, hgx, hgy, hgz, hx, hy,
      hz, hw]

/-- The capabilities are sent once, as a list of names. -/
inductive CapsPart : Option Json → Prop
  | absent : CapsPart none
  | present (names : List String) : CapsPart (some (.arr (names.map .str)))

theorem capsSection_eq (p : RosPublisher) :
    ∃ c, CapsPart c ∧ p.capsSection = c.elim [] fun c => [("capabilities", c)] := by
  unfold RosPublisher.capsSection
  cases p.capsPublished with
  | true => exact ⟨none, .absent, rfl⟩
  | false => exact ⟨_, .present p.capabilities, rfl⟩

theorem CapsPart.accepts {c : Option Json} (h : CapsPart c) :
    c.all (Schema.array (.string [])).accepts = true := by
  cases h with
  | absent => rfl
  | present names => exact accepts_capabilities names

theorem CapsPart.sound {c : Option Json} (h : CapsPart c) : ∀ x, c = some x → x.Sound fmt := by
  rintro x rfl
  cases h with
  | present names =>
    rw [Json.Sound]
    induction names with
    | nil => trivial
    | cons name names ih => exact ⟨trivial, ih⟩

/-- What a frame is made of. -/
theorem buildTelemetry_cases {sessionId : String} {seq : Nat} {frame : Json} {p : RosPublisher}
    (h : (s.publisher math caps).buildTelemetry math cfg now sessionId seq = some (frame, p)) :
    ∃ o b i c,
      frame = .obj
        (frameFields cfg.vehicleId sessionId (truncate (now * 1000)) seq o b i c) ∧
      OdomPart math now s o ∧ BatteryPart math cfg now s b ∧ ImuPart s i ∧ CapsPart c := by
  obtain ⟨fields, hbattery, hframe⟩ := Option.map_eq_some_iff.mp h
  obtain ⟨o, ho, hodom⟩ := @odomSection_publisher _ math now s caps
  obtain ⟨b, hb, rfl⟩ := batterySection_publisher math hbattery
  obtain ⟨i, hi, himu⟩ := @imuSection_publisher _ math now s caps
  obtain ⟨c, hc, hcaps⟩ := capsSection_eq (s.publisher math caps)
  refine ⟨o, b, i, c, ?_, ho, hb, hi, hc⟩
  rw [← (Prod.mk.inj hframe).1, hodom, himu, hcaps]
  rfl

theorem truncate_nonneg {q : ℚ} (h : 0 ≤ q) : 0 ≤ truncate q :=
  Int.tdiv_nonneg (Rat.num_nonneg.mpr h) (Int.natCast_nonneg q.den)

theorem decodeTelemetry_dumps {frame : Json} (hsound : frame.Sound fmt) :
    decodeTelemetry fmt (dumps fmt frame) = telemetryMessage.parse frame := by
  rw [decodeTelemetry, decode, dumps, readJson_write hsound, Option.bind_some]

/-- A frame can be sent and says nothing that the schema does not know. It is
accepted where its sections agree with the schema. -/
theorem buildTelemetry_travels {sessionId : String} {seq : Nat} {frame : Json} {p : RosPublisher}
    (hs : s.Exact fmt) (hnow : 0 ≤ now) (hts : fmt.carried (truncate (now * 1000)))
    (hseq : fmt.carried seq) (hvehicle : cfg.vehicleId ≠ "") (hsession : sessionId ≠ "")
    (h : (s.publisher math caps).buildTelemetry math cfg now sessionId seq = some (frame, p)) :
    frame.Sound fmt ∧ telemetryMessage.knows frame = true ∧
      (telemetryMessage.accepts frame = true ↔ s.Conforms now) := by
  obtain ⟨o, b, i, c, rfl, ho, hb, hi, hc⟩ := buildTelemetry_cases math h
  have htime : 0 ≤ truncate (now * 1000) := truncate_nonneg (mul_nonneg hnow (by decide))
  refine ⟨?_, ?_, ?_⟩
  · exact sound_frameFields hts hseq (ho.sound math hs) (hb.sound math hs) (hi.sound hs) hc.sound
  · exact knows_frameFields (ho.knows math) (hb.knows math) hi.knows
  · rw [accepts_frameFields htime hvehicle hsession, hi.accepts, hc.accepts, Bool.true_and,
      Bool.and_true, Bool.and_eq_true, ho.accepts_iff math, hb.accepts_iff math]
    exact and_comm

/-- A frame arrives with all its fields just when its sections agree with the schema. -/
theorem telemetry_arrives_iff {sessionId : String} {seq : Nat} {frame : Json} {p : RosPublisher}
    (hs : s.Exact fmt) (hnow : 0 ≤ now) (hts : fmt.carried (truncate (now * 1000)))
    (hseq : fmt.carried seq) (hvehicle : cfg.vehicleId ≠ "") (hsession : sessionId ≠ "")
    (h : (s.publisher math caps).buildTelemetry math cfg now sessionId seq = some (frame, p)) :
    (∃ m, decodeTelemetry fmt (dumps fmt frame) = some m ∧ Arrives frame m) ↔ s.Conforms now := by
  obtain ⟨hsound, hknows, haccepts⟩ :=
    buildTelemetry_travels math hs hnow hts hseq hvehicle hsession h
  rw [decodeTelemetry_dumps hsound, ← haccepts, Schema.accepts, Option.isSome_iff_exists]
  constructor
  · rintro ⟨m, hm, -⟩
    exact ⟨m, hm⟩
  · rintro ⟨m, hm⟩
    exact ⟨m, hm, arrives_of_parse telemetryMessage Family.telemetry.wellFormed frame m hknows hm⟩

end

end

-- ---------------------------------------------------------------------------
-- Two frames
-- ---------------------------------------------------------------------------

/-- Arithmetic that is exact where the results are whole. -/
private def wholeMath : PyMath wholeNumbers where
  atan2 _ _ := 0
  round q := q.floor
  carried_atan2 _ _ := rfl
  carried_round q := Rat.den_intCast q.floor

private def r2Telemetry : TelemetryConfig := ⟨"r2-04", 14, 10⟩

/-- A vehicle that stands at the origin of the named frame. -/
private def atOrigin (frameId : String) : Odometry := ⟨0, 0, 0, 0, 0, ⟨0, 0, 0, 1⟩, frameId⟩

private def samplesIn (frameId : String) (voltage : ℚ) : Samples :=
  ⟨some (100, atOrigin frameId), some (98, voltage), none⟩

private theorem samplesIn_exact (frameId : String) (voltage : ℤ) :
    (samplesIn frameId voltage).Exact wholeNumbers where
  odom t msg h := by
    obtain ⟨rfl, rfl⟩ := Prod.mk.inj (Option.some.inj h)
    exact ⟨rfl, rfl, rfl, rfl, rfl⟩
  voltage t v h := by
    obtain ⟨rfl, rfl⟩ := Prod.mk.inj (Option.some.inj h)
    exact Rat.den_intCast voltage
  imu t msg h := by cases h

private theorem samplesIn_conforms : (samplesIn "odom" (12 : ℤ)).Conforms 101 := by
  refine ⟨?_, ?_⟩
  · intro t msg h _
    obtain ⟨rfl, rfl⟩ := Prod.mk.inj (Option.some.inj h)
    decide
  · intro t v h _
    obtain ⟨rfl, rfl⟩ := Prod.mk.inj (Option.some.inj h)
    decide

/-- In the frame "odom", all of the telemetry arrives. -/
theorem odom_frame_arrives :
    ∃ frame p, (Samples.publisher wholeMath (samplesIn "odom" (12 : ℤ)) true).buildTelemetry wholeMath
        r2Telemetry 101 "s-07" 3 = some (frame, p) ∧
      ∃ m, Wire.decodeTelemetry wholeNumbers (dumps wholeNumbers frame) = some m ∧
        Zod.Arrives frame m := by
  have hbuilt : ((Samples.publisher wholeMath (samplesIn "odom" (12 : ℤ)) true).buildTelemetry wholeMath
      r2Telemetry 101 "s-07" 3).isSome = true := by
    decide +kernel
  obtain ⟨⟨frame, p⟩, h⟩ := Option.isSome_iff_exists.mp hbuilt
  refine ⟨frame, p, h, ?_⟩
  exact (telemetry_arrives_iff wholeMath (samplesIn_exact "odom" 12) (by decide) (Rat.den_intCast _)
    (Rat.den_natCast _) (by decide) (by decide) h).mpr samplesIn_conforms

private theorem rejected {frameId : String} {voltage : ℤ} {frame : Json} {p : RosPublisher}
    (h : (Samples.publisher wholeMath (samplesIn frameId voltage) true).buildTelemetry wholeMath
      r2Telemetry 101 "s-07" 3 = some (frame, p))
    (hnot : ¬ (samplesIn frameId voltage).Conforms 101) :
    Wire.decodeTelemetry wholeNumbers (dumps wholeNumbers frame) = none := by
  obtain ⟨hsound, -, haccepts⟩ := buildTelemetry_travels wholeMath (samplesIn_exact frameId voltage)
    (by decide) (Rat.den_intCast _) (Rat.den_natCast _) (by decide) (by decide) h
  rw [decodeTelemetry_dumps hsound]
  exact Option.not_isSome_iff_eq_none.mp (mt haccepts.mp hnot)

/-- In the frame "odom_combined", or with a negative voltage, none of it does. -/
theorem odom_combined_rejected :
    (∃ frame p, (Samples.publisher wholeMath (samplesIn "odom_combined" (12 : ℤ)) true).buildTelemetry
        wholeMath r2Telemetry 101 "s-07" 3 = some (frame, p) ∧
      Wire.decodeTelemetry wholeNumbers (dumps wholeNumbers frame) = none) ∧
    ∃ frame p, (Samples.publisher wholeMath (samplesIn "odom" (-1 : ℤ)) true).buildTelemetry
        wholeMath r2Telemetry 101 "s-07" 3 = some (frame, p) ∧
      Wire.decodeTelemetry wholeNumbers (dumps wholeNumbers frame) = none := by
  constructor
  · obtain ⟨⟨frame, p⟩, h⟩ := Option.isSome_iff_exists.mp
      (by decide +kernel : ((Samples.publisher wholeMath (samplesIn "odom_combined" (12 : ℤ))
        true).buildTelemetry wholeMath r2Telemetry 101 "s-07" 3).isSome = true)
    refine ⟨frame, p, h, rejected h ?_⟩
    intro hconforms
    exact absurd (hconforms.1 100 _ rfl (by decide +kernel)) (by decide)
  · obtain ⟨⟨frame, p⟩, h⟩ := Option.isSome_iff_exists.mp
      (by decide +kernel : ((Samples.publisher wholeMath (samplesIn "odom" (-1 : ℤ))
        true).buildTelemetry wholeMath r2Telemetry 101 "s-07" 3).isSome = true)
    refine ⟨frame, p, h, rejected h ?_⟩
    intro hconforms
    exact absurd (hconforms.2 98 _ rfl (by decide +kernel)) (by decide)

end Rvep.R2Bridge
