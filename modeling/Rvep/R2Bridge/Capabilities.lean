import Rvep.Lib.Reactive
import Rvep.R2Bridge.Telemetry
import Rvep.Shared.Messages

/-!
# Capabilities

`telemetry_loop` of `apps/r2-bridge/r2_bridge/main.py`. The capabilities go
into the first frame that is built, whether or not it is published.
-/

namespace Rvep.R2Bridge

open Reactive

-- ---------------------------------------------------------------------------
-- The telemetry loop
-- ---------------------------------------------------------------------------

structure TelemetryLoop where
  pub : RosPublisher := {}
  telemetrySeq : Nat := 0

/-- Samples arrive between two ticks; with a tick comes what `time.time()`
reads and whether `publish_data` succeeds. -/
inductive LoopEvent where
  | odom (now : ℚ) (msg : Odometry)
  | voltage (now : ℚ) (data : ℚ)
  | imu (now : ℚ) (msg : Imu)
  | tick (now : ℚ) (publishes : Bool)

abbrev LoopEntry := Entry TelemetryLoop LoopEvent (Option Json)
abbrev LoopLog := Log TelemetryLoop LoopEvent (Option Json)

section
variable {fmt : NumberFormat} (math : PyMath fmt) (cfg : TelemetryConfig) (sessionId : String)

/-- One round, with the frame that is published; an exception is only logged. -/
def TelemetryLoop.tick (now : ℚ) (publishes : Bool) (s : TelemetryLoop) :
    TelemetryLoop × Option Json :=
  match s.pub.buildTelemetry math cfg now sessionId s.telemetrySeq with
  | none => (s, none)
  | some (msg, pub) =>
    if publishes then (⟨pub, s.telemetrySeq + 1⟩, some msg) else (⟨pub, s.telemetrySeq⟩, none)

def telemetryLoop : System TelemetryLoop LoopEvent (Option Json) where
  init := {}
  step s
    | .odom now msg => ({ s with pub := s.pub.onOdom math now msg }, none)
    | .voltage now data => ({ s with pub := s.pub.onVoltage now data }, none)
    | .imu now msg => ({ s with pub := s.pub.onImu now msg }, none)
    | .tick now publishes => s.tick math cfg sessionId now publishes

end

-- ---------------------------------------------------------------------------
-- Sources
-- ---------------------------------------------------------------------------

inductive Source where
  | odom
  | voltage
  | imu
  deriving DecidableEq

/-- The sections made of a source's samples. -/
def Source.sections : Source → List String
  | .odom => ["velocity", "odom"]
  | .voltage => ["battery"]
  | .imu => ["imu"]

namespace RosPublisher

variable (p : RosPublisher) (now : ℚ)

def Heard : Source → Prop
  | .odom => p.latestOdom.isSome
  | .voltage => p.latestVoltage.isSome
  | .imu => p.latestImu.isSome

def Fresh : Source → Prop
  | .odom => p.latestOdom.isSome ∧ now - p.lastOdomTs < 5
  | .voltage => p.latestVoltage.isSome ∧ now - p.lastVoltageTs < 10
  | .imu => p.latestImu.isSome ∧ now - p.lastImuTs < 5

/-- `build_telemetry` divides by zero. -/
def Raises (cfg : TelemetryConfig) : Prop :=
  cfg.batteryFullV - cfg.batteryEmptyV = 0 ∧ p.Fresh now .voltage

end RosPublisher

-- ---------------------------------------------------------------------------
-- Sections of a frame
-- ---------------------------------------------------------------------------

/-- The optional keys of the schema, `capabilities` apart. -/
def optionalSections : List String :=
  ["gps", "imu", "battery", "network", "vehicle", "velocity", "odom", "sensors"]

def field? (key : String) (frame : Json) : Option Json :=
  (Zod.fields? frame).bind (List.lookup key)

section
variable {fmt : NumberFormat} {math : PyMath fmt} {cfg : TelemetryConfig} {sessionId : String}
  {p : RosPublisher} {now : ℚ} {key : String}

theorem RosPublisher.Fresh.heard {source : Source} (h : p.Fresh now source) : p.Heard source := by
  cases source <;> exact h.1

theorem lookup_odomSection :
    ((p.odomSection now).lookup key).isSome ↔ p.Fresh now .odom ∧ key ∈ Source.odom.sections := by
  unfold RosPublisher.odomSection RosPublisher.Fresh
  cases p.latestOdom with
  | none => simp
  | some odom =>
    by_cases hfresh : now - p.lastOdomTs < 5 <;>
      simp [hfresh, Source.sections]

theorem lookup_imuSection :
    ((p.imuSection now).lookup key).isSome ↔ p.Fresh now .imu ∧ key ∈ Source.imu.sections := by
  unfold RosPublisher.imuSection RosPublisher.Fresh
  cases p.latestImu with
  | none => simp
  | some imu => by_cases hfresh : now - p.lastImuTs < 5 <;> simp [hfresh, Source.sections]

theorem batterySection_raises (h : p.Raises now cfg) : p.batterySection math cfg now = none := by
  obtain ⟨hzero, hheard, hfresh⟩ := h
  obtain ⟨v, hv⟩ := Option.isSome_iff_exists.mp hheard
  simp [RosPublisher.batterySection, hv, hfresh, voltageToPct, hzero]

theorem batterySection_built (h : ¬ p.Raises now cfg) :
    ∃ fields, p.batterySection math cfg now = some fields ∧
      ∀ key, (fields.lookup key).isSome ↔ p.Fresh now .voltage ∧ key ∈ Source.voltage.sections := by
  unfold RosPublisher.Raises RosPublisher.Fresh at h
  unfold RosPublisher.batterySection RosPublisher.Fresh
  cases hv : p.latestVoltage with
  | none => exact ⟨[], rfl, by simp⟩
  | some v =>
    rw [hv] at h
    by_cases hfresh : now - p.lastVoltageTs < 10
    · have hzero : ¬ cfg.batteryFullV - cfg.batteryEmptyV = 0 := fun hzero => h ⟨hzero, rfl, hfresh⟩
      simp [voltageToPct, hzero, hfresh, Source.sections]
    · simp [hfresh]

theorem exists_source {q : Source → Prop} : (∃ source, q source) ↔ q .odom ∨ q .voltage ∨ q .imu := by
  constructor
  · rintro ⟨source, h⟩
    cases source with
    | odom => exact .inl h
    | voltage => exact .inr (.inl h)
    | imu => exact .inr (.inr h)
  · rintro (h | h | h) <;> exact ⟨_, h⟩

theorem mem_capabilities :
    key ∈ p.capabilities ↔ key = "vehicle" ∨ ∃ source, p.Heard source ∧ key ∈ source.sections := by
  rw [exists_source]
  unfold RosPublisher.capabilities RosPublisher.Heard Source.sections
  cases p.latestOdom <;> cases p.latestVoltage <;> cases p.latestImu <;>
    simp [or_comm, or_left_comm]

/-- Which optional sections a frame has, and which capabilities. -/
structure FrameOf (p : RosPublisher) (now : ℚ) (frame : Json) : Prop where
  sections : ∀ key ∈ optionalSections, (field? key frame).isSome ↔
    key = "vehicle" ∨ ∃ source, p.Fresh now source ∧ key ∈ source.sections
  capabilities : field? "capabilities" frame =
    if p.capsPublished then none else some (.arr (p.capabilities.map .str))

theorem buildTelemetry_raises {seq : Nat} (h : p.Raises now cfg) :
    p.buildTelemetry math cfg now sessionId seq = none := by
  rw [RosPublisher.buildTelemetry, batterySection_raises h, Option.map_none]

theorem capabilities_apart : "capabilities" ∉ optionalSections := by decide

theorem lookup_headers (hkey : key ∈ optionalSections) {kind v ts vehicleId session seq : Json} :
    List.lookup key [("kind", kind), ("v", v), ("ts", ts), ("vehicleId", vehicleId),
      ("sessionId", session), ("seq", seq)] = none := by
  have hother : key ∉ ["kind", "v", "ts", "vehicleId", "sessionId", "seq"] := by
    revert key
    decide
  simpa using hother

theorem lookup_capsSection (hkey : key ∈ optionalSections) : p.capsSection.lookup key = none := by
  have hother : key ≠ "capabilities" := fun h => capabilities_apart (h ▸ hkey)
  unfold RosPublisher.capsSection
  split
  next => rfl
  next => simp [hother]

theorem lookup_capabilities {fields : List (String × Json)} {source : Source} {q : Prop}
    (h : (fields.lookup "capabilities").isSome ↔ q ∧ "capabilities" ∈ source.sections) :
    fields.lookup "capabilities" = none := by
  refine Option.not_isSome_iff_eq_none.mp fun hsome => absurd (h.mp hsome).2 ?_
  cases source <;> decide

variable (math) in
theorem buildTelemetry_built {seq : Nat} (h : ¬ p.Raises now cfg) :
    ∃ frame, FrameOf p now frame ∧
      p.buildTelemetry math cfg now sessionId seq = some (frame, { p with capsPublished := true }) := by
  obtain ⟨battery, hbattery, hlookup⟩ := @batterySection_built _ math _ _ _ h
  rw [RosPublisher.buildTelemetry, hbattery, Option.map_some]
  refine ⟨_, ⟨?_, ?_⟩, rfl⟩
  · intro key hkey
    rw [exists_source]
    simp only [field?, Zod.fields?, Option.bind_some, List.lookup_append, Option.isSome_or,
      Bool.or_eq_true, lookup_headers hkey, lookup_odomSection, hlookup, lookup_imuSection,
      lookup_capsSection hkey]
    simp [or_comm, or_left_comm]
  · have hodom := lookup_capabilities (@lookup_odomSection p now _)
    have himu := lookup_capabilities (@lookup_imuSection p now _)
    simp only [field?, Zod.fields?, Option.bind_some, List.lookup_append, hodom, himu,
      lookup_capabilities (hlookup _), RosPublisher.capsSection]
    split <;> simp [List.lookup_cons]

end

-- ---------------------------------------------------------------------------
-- Runs
-- ---------------------------------------------------------------------------

def declared (x : LoopEntry) : List Json := (x.output.bind (field? "capabilities")).toList

/-- The first published frame has capabilities, and every section of a published
frame is listed in those that were published last. -/
def SectionsDeclared (x : LoopEntry) (past : LoopLog) : Prop :=
  ∀ frame ∈ x.output,
    ((∀ y ∈ past, y.output = none) → (field? "capabilities" frame).isSome) ∧
      ∀ key ∈ optionalSections, (field? key frame).isSome →
        ∃ caps, latest declared (x :: past) = some (.arr caps) ∧ .str key ∈ caps

/-- The first frame is built at this tick, and published. -/
def Declares (cfg : TelemetryConfig) (x : LoopEntry) : Prop :=
  ∃ now, x.event = .tick now true ∧ x.before.pub.capsPublished = false ∧
    ¬ x.before.pub.Raises now cfg

/-- When a later frame is published, the first was published too, and the
sources that are fresh had been heard of by then. -/
def HeardAtFirst (cfg : TelemetryConfig) (x : LoopEntry) (past : LoopLog) : Prop :=
  ∀ now, x.event = .tick now true → x.before.pub.capsPublished = true →
    ¬ x.before.pub.Raises now cfg →
      ∃ first ∈ past, Declares cfg first ∧
        ∀ source, x.before.pub.Fresh now source → first.before.pub.Heard source

/-- What the log says of the first frame, by the flag. -/
inductive FirstFrame (cfg : TelemetryConfig) (l : LoopLog) : Bool → Prop
  | unbuilt : (∀ y ∈ l, y.output = none) → (∀ y ∈ l, ¬ Declares cfg y) →
    latest declared l = none → FirstFrame cfg l false
  | lost : (∀ y ∈ l, ¬ Declares cfg y) → latest declared l = none → FirstFrame cfg l true
  | sent (first : LoopEntry) : first ∈ l → Declares cfg first → first.output ≠ none →
    (∀ y ∈ l, Declares cfg y → y = first) →
    latest declared l = some (.arr (first.before.pub.capabilities.map .str)) →
    FirstFrame cfg l true

section
variable {fmt : NumberFormat} {math : PyMath fmt} {cfg : TelemetryConfig} {sessionId : String}
  {l : LoopLog} {x : LoopEntry} {s : TelemetryLoop} {now : ℚ} {publishes caps : Bool}

/-- The ways a tick goes: nothing is built, the frame is lost, or it is published. -/
inductive Ticked (cfg : TelemetryConfig) (s : TelemetryLoop) (now : ℚ) :
    Bool → TelemetryLoop × Option Json → Prop
  | raises {publishes : Bool} : s.pub.Raises now cfg → Ticked cfg s now publishes (s, none)
  | fails (seq : Nat) : ¬ s.pub.Raises now cfg →
    Ticked cfg s now false (⟨{ s.pub with capsPublished := true }, seq⟩, none)
  | publishes {frame : Json} (seq : Nat) : ¬ s.pub.Raises now cfg → FrameOf s.pub now frame →
    Ticked cfg s now true (⟨{ s.pub with capsPublished := true }, seq⟩, some frame)

theorem tick_ticked (s : TelemetryLoop) :
    Ticked cfg s now publishes (s.tick math cfg sessionId now publishes) := by
  unfold TelemetryLoop.tick
  by_cases hraises : s.pub.Raises now cfg
  · rw [buildTelemetry_raises hraises]
    exact .raises hraises
  · obtain ⟨frame, hframe, hbuilt⟩ := buildTelemetry_built math hraises
    rw [hbuilt]
    cases publishes with
    | false => exact .fails _ hraises
    | true => exact .publishes _ hraises hframe

theorem not_declares (h : ∀ now, x.event ≠ .tick now true) : ¬ Declares cfg x := by
  rintro ⟨now, hevent, -⟩
  exact h now hevent

/-- An entry that neither is the first frame nor publishes capabilities. -/
theorem FirstFrame.later (h : FirstFrame cfg l caps) (hother : ¬ Declares cfg x)
    (hquiet : declared x = []) (hsilent : caps = false → x.output = none) :
    FirstFrame cfg (x :: l) caps := by
  have hlatest : latest declared (x :: l) = latest declared l := latest_cons_of_nil hquiet
  cases h with
  | unbuilt hnone hnever hdeclared =>
    refine .unbuilt ?_ ?_ (hlatest.trans hdeclared)
    · simpa using ⟨hsilent rfl, hnone⟩
    · simpa using ⟨hother, hnever⟩
  | lost hnever hdeclared =>
    exact .lost (by simpa using ⟨hother, hnever⟩) (hlatest.trans hdeclared)
  | sent first hfirst hdeclares houtput honly hdeclared =>
    refine .sent first (List.mem_cons_of_mem _ hfirst) hdeclares houtput ?_ (hlatest.trans hdeclared)
    rintro y hy hdy
    rcases List.mem_cons.mp hy with rfl | hy
    · exact absurd hdy hother
    · exact honly y hy hdy

theorem not_declares_later (h : x.before.pub.capsPublished = true) : ¬ Declares cfg x := by
  rintro ⟨now, -, hfirst, -⟩
  exact absurd (h.symm.trans hfirst) nofun

/-- The first frame is built and lost. -/
theorem FirstFrame.loses (h : FirstFrame cfg l false) (hother : ¬ Declares cfg x)
    (houtput : x.output = none) : FirstFrame cfg (x :: l) true := by
  cases h with
  | unbuilt hnone hnever hdeclared =>
    refine .lost (by simpa using ⟨hother, hnever⟩) ?_
    simp [latest_cons, declared, houtput, hdeclared]

/-- The first frame is built and published. -/
theorem FirstFrame.sends (h : FirstFrame cfg l false) (hdeclares : Declares cfg x)
    (hlist : declared x = [.arr (x.before.pub.capabilities.map .str)]) :
    FirstFrame cfg (x :: l) true := by
  have houtput : x.output ≠ none := by
    intro hnone
    simp [declared, hnone] at hlist
  cases h with
  | unbuilt hnone hnever hdeclared =>
    refine .sent x List.mem_cons_self hdeclares houtput ?_ (latest_cons_of_getLast (by rw [hlist]; rfl))
    rintro y hy hdy
    rcases List.mem_cons.mp hy with rfl | hy
    · rfl
    · exact absurd hdy (hnever y hy)

theorem FirstFrame.tick {out : TelemetryLoop × Option Json}
    (h : FirstFrame cfg l s.pub.capsPublished) (ht : Ticked cfg s now publishes out) :
    FirstFrame cfg (⟨s, .tick now publishes, out.1, out.2⟩ :: l) out.1.pub.capsPublished := by
  cases ht with
  | raises hraises =>
    refine h.later ?_ rfl fun _ => rfl
    rintro ⟨t, hevent, -, hnot⟩
    cases hevent
    exact hnot hraises
  | fails seq hbuilt =>
    cases hcaps : s.pub.capsPublished with
    | true =>
      rw [hcaps] at h
      exact h.later (not_declares_later hcaps) rfl nofun
    | false =>
      rw [hcaps] at h
      exact h.loses (not_declares nofun) rfl
  | publishes seq hbuilt hframe =>
    cases hcaps : s.pub.capsPublished with
    | true =>
      rw [hcaps] at h
      exact h.later (not_declares_later hcaps) (by simp [declared, hframe.capabilities, hcaps]) nofun
    | false =>
      rw [hcaps] at h
      exact h.sends ⟨now, rfl, hcaps, hbuilt⟩ (by simp [declared, hframe.capabilities, hcaps])

theorem FirstFrame.next
    (h : FirstFrame cfg l ((telemetryLoop math cfg sessionId).state l).pub.capsPublished)
    (e : LoopEvent) :
    FirstFrame cfg
      ((telemetryLoop math cfg sessionId).react ((telemetryLoop math cfg sessionId).state l) e :: l)
      ((telemetryLoop math cfg sessionId).react
        ((telemetryLoop math cfg sessionId).state l) e).after.pub.capsPublished := by
  cases e with
  | odom now msg => exact h.later (not_declares nofun) rfl fun _ => rfl
  | voltage now data => exact h.later (not_declares nofun) rfl fun _ => rfl
  | imu now msg => exact h.later (not_declares nofun) rfl fun _ => rfl
  | tick now publishes => exact h.tick (tick_ticked _)

theorem Source.shown (source : Source) :
    ∃ key ∈ source.sections, key ∈ optionalSections ∧ key ≠ "vehicle" ∧
      ∀ other : Source, key ∈ other.sections → other = source := by
  cases source with
  | odom => exact ⟨"odom", by decide, by decide, by decide, fun other => by cases other <;> decide⟩
  | voltage =>
    exact ⟨"battery", by decide, by decide, by decide, fun other => by cases other <;> decide⟩
  | imu => exact ⟨"imu", by decide, by decide, by decide, fun other => by cases other <;> decide⟩

/-- A frame shows what the capabilities list just when its sources had been heard of. -/
theorem FrameOf.listed_iff {p : RosPublisher} {frame : Json} (h : FrameOf p now frame)
    (first : RosPublisher) :
    (∀ key ∈ optionalSections, (field? key frame).isSome → key ∈ first.capabilities) ↔
      ∀ source, p.Fresh now source → first.Heard source := by
  constructor
  · intro hlisted source hfresh
    obtain ⟨key, hkey, hoptional, hvehicle, honly⟩ := source.shown
    have hshown := (h.sections key hoptional).mpr (.inr ⟨source, hfresh, hkey⟩)
    rcases mem_capabilities.mp (hlisted key hoptional hshown) with rfl | ⟨other, hheard, hother⟩
    · exact absurd rfl hvehicle
    · rwa [honly other hother] at hheard
  · intro hheard key hoptional hshown
    rcases (h.sections key hoptional).mp hshown with rfl | ⟨source, hfresh, hkey⟩
    · exact mem_capabilities.mpr (.inl rfl)
    · exact mem_capabilities.mpr (.inr ⟨source, hheard source hfresh, hkey⟩)

/-- The frame that declares lists what it shows. -/
theorem FrameOf.declares {frame : Json} (h : FrameOf x.before.pub now frame)
    (houtput : x.output = some frame) (hcaps : x.before.pub.capsPublished = false) :
    SectionsDeclared x l := by
  have hlist : field? "capabilities" frame = some (.arr (x.before.pub.capabilities.map .str)) := by
    simp [h.capabilities, hcaps]
  have hlatest : latest declared (x :: l) = some (.arr (x.before.pub.capabilities.map .str)) :=
    latest_cons_of_getLast (by simp [declared, houtput, hlist])
  rw [SectionsDeclared, houtput]
  rintro _ ⟨rfl⟩
  refine ⟨fun _ => by simp [hlist], fun key hoptional hshown => ⟨_, hlatest, ?_⟩⟩
  exact List.mem_map_of_mem ((h.listed_iff _).mpr (fun _ hfresh => hfresh.heard) key hoptional hshown)

/-- A later frame rests on what was declared. -/
theorem FrameOf.rests {frame : Json} (h : FrameOf x.before.pub now frame)
    (houtput : x.output = some frame) (hcaps : x.before.pub.capsPublished = true)
    (hfirst : FirstFrame cfg l true) :
    SectionsDeclared x l ↔ ∃ first ∈ l, Declares cfg first ∧
      ∀ source, x.before.pub.Fresh now source → first.before.pub.Heard source := by
  have hnone : field? "capabilities" frame = none := by simp [h.capabilities, hcaps]
  have hlatest : latest declared (x :: l) = latest declared l :=
    latest_cons_of_nil (by simp [declared, houtput, hnone])
  have hvehicle := (h.sections "vehicle" (by decide)).mpr (.inl rfl)
  rw [SectionsDeclared, houtput, hlatest]
  cases hfirst with
  | lost hnever hdeclared =>
    refine iff_of_false ?_ ?_
    · intro hall
      obtain ⟨caps, hsome, -⟩ := (hall frame rfl).2 "vehicle" (by decide) hvehicle
      exact absurd (hdeclared.symm.trans hsome) nofun
    · rintro ⟨first, hmem, hdeclares, -⟩
      exact hnever first hmem hdeclares
  | sent first hmem hdeclares hsent honly hdeclared =>
    have hlisted := h.listed_iff first.before.pub
    constructor
    · intro hall
      refine ⟨first, hmem, hdeclares, hlisted.mp fun key hoptional hshown => ?_⟩
      obtain ⟨caps, hsome, hkey⟩ := (hall frame rfl).2 key hoptional hshown
      obtain rfl := Json.arr.inj (Option.some.inj (hdeclared.symm.trans hsome))
      simpa using hkey
    · rintro ⟨other, hother, hdeclaresOther, hheard⟩
      obtain rfl := honly other hother hdeclaresOther
      rintro _ ⟨rfl⟩
      refine ⟨fun hsilent => absurd (hsilent _ hmem) hsent, fun key hoptional hshown => ?_⟩
      exact ⟨_, hdeclared, List.mem_map_of_mem (hlisted.mpr hheard key hoptional hshown)⟩

theorem FirstFrame.declared_iff {out : TelemetryLoop × Option Json}
    (h : FirstFrame cfg l s.pub.capsPublished) (ht : Ticked cfg s now publishes out) :
    SectionsDeclared ⟨s, .tick now publishes, out.1, out.2⟩ l ↔
      HeardAtFirst cfg ⟨s, .tick now publishes, out.1, out.2⟩ l := by
  cases ht with
  | raises hraises =>
    refine iff_of_true nofun ?_
    rintro t hevent - hnot
    cases hevent
    exact absurd hraises hnot
  | fails seq hbuilt => exact iff_of_true nofun nofun
  | publishes seq hbuilt hframe =>
    cases hcaps : s.pub.capsPublished with
    | false =>
      refine iff_of_true (hframe.declares rfl hcaps) ?_
      rintro t - hpublished -
      exact absurd (hcaps.symm.trans hpublished) nofun
    | true =>
      rw [hcaps] at h
      refine (hframe.rests rfl hcaps h).trans ⟨?_, fun hheard => hheard now rfl hcaps hbuilt⟩
      rintro hdeclared t hevent - -
      cases hevent
      exact hdeclared

end

/-- Every section is declared throughout a run just when the first frame built
is published and no source starts to be heard after it. -/
theorem sectionsDeclared_iff {fmt : NumberFormat} (math : PyMath fmt) (cfg : TelemetryConfig)
    (sessionId : String) (es : List LoopEvent) :
    Always SectionsDeclared ((telemetryLoop math cfg sessionId).log es) ↔
      Always (HeardAtFirst cfg) ((telemetryLoop math cfg sessionId).log es) := by
  refine System.always_iff
    (fun l => FirstFrame cfg l ((telemetryLoop math cfg sessionId).state l).pub.capsPublished) ?_ ?_
    es
  · have hstart : FirstFrame cfg [] false := .unbuilt (by simp) (by simp) rfl
    exact hstart
  · intro past e hfirst
    refine ⟨?_, fun _ => hfirst.next e⟩
    cases e with
    | tick now publishes => exact hfirst.declared_iff (tick_ticked _)
    | odom now msg => exact iff_of_true nofun nofun
    | voltage now data => exact iff_of_true nofun nofun
    | imu now msg => exact iff_of_true nofun nofun

private theorem carried_floor (q : ℚ) : wholeNumbers.carried q.floor := Rat.den_intCast q.floor

private theorem carried_zero (_ _ : ℚ) : wholeNumbers.carried 0 := rfl

private def flatMath : PyMath wholeNumbers :=
  ⟨fun _ _ => 0, fun q => q.floor, carried_zero, carried_floor⟩

private def level : Imu := ⟨0, 0, 0, 0, 0, 0, ⟨0, 0, 0, 1⟩⟩

/-- A frame, the first sample of the IMU, and a frame that shows it. -/
private def lateImu : LoopLog :=
  (telemetryLoop flatMath ⟨"r2-04", 14, 10⟩ "s-07").log [.tick 103 true, .imu 102 level, .tick 101 true]

/-- The IMU starts after the first frame and is never declared. -/
theorem late_imu_undeclared : ¬ Always SectionsDeclared lateImu := by
  have hshown : ((lateImu.head?.bind (·.output)).bind (field? "imu")).isSome = true := by
    decide +kernel
  have hlatest : latest declared lateImu = some (.arr [.str "vehicle"]) := by
    decide +kernel
  intro h
  obtain ⟨imu, himu⟩ := Option.isSome_iff_exists.mp hshown
  obtain ⟨frame, hframe, hfield⟩ := Option.bind_eq_some_iff.mp himu
  obtain ⟨caps, hcaps, hmem⟩ := (h.1 frame hframe).2 "imu" (by decide) (by simp [hfield])
  obtain rfl := Json.arr.inj (Option.some.inj (hlatest.symm.trans hcaps))
  simp at hmem

end Rvep.R2Bridge
