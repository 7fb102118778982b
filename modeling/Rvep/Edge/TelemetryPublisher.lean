import Mathlib.Data.List.Nodup
import Mathlib.Data.List.Pairwise
import Mathlib.Tactic.FieldSimp
import Rvep.Lib.Reactive
import Rvep.Shared.Json

/-!
# Telemetry of the mock edge

`MockTelemetryPublisher` of `apps/mock-edge/src/telemetry-publisher.ts`, over
exact numbers. A tick composes a frame and awaits `publishData`; only then does
it decide whether the backend audits the frame, and it decides by the counter
that all ticks share.
-/

namespace Rvep.Edge

open Reactive

-- ---------------------------------------------------------------------------
-- Frames
-- ---------------------------------------------------------------------------

structure TelemetryStatus where
  mode : String
  controlLeaseHolder : Option String
  deriving DecidableEq

structure TelemetryMessage where
  ts : Int
  vehicleId : String
  sessionId : String
  seq : Nat
  gps : Json
  imu : Json
  battery : Json
  network : Json
  vehicle : TelemetryStatus
  deriving DecidableEq

structure AuditSink where
  backendUrl : String
  internalToken : String
  everyN : Option ℚ
  deriving DecidableEq

/-- `sink.everyN ?? 5` -/
def AuditSink.every (sink : AuditSink) : ℚ := sink.everyN.getD 5

structure TelemetryPublisherOptions where
  vehicleId : String
  sessionId : String
  /-- `Math.sin` -/
  sin : ℚ → ℚ
  auditSink : Option AuditSink

/-- What a tick reads: the clock, `Math.random()` as often as it is called, and
`getVehicleStatus()`. -/
structure TickReading where
  now : Int
  random : Nat → ℚ
  status : TelemetryStatus

/-- A frame for whose `publishData` a tick still waits is in `publishing`. -/
structure MockTelemetryPublisher where
  timer : Bool
  seq : Nat
  lat : ℚ
  lng : ℚ
  headingDeg : ℚ
  batteryPct : ℚ
  batteryVoltage : ℚ
  startedAt : Int
  publishing : List TelemetryMessage

namespace MockTelemetryPublisher

def construct (now : Int) : MockTelemetryPublisher where
  timer := false
  seq := 0
  lat := 25.03386
  lng := 121.56455
  headingDeg := 87
  batteryPct := 78
  batteryVoltage := 24.8
  startedAt := now
  publishing := []

/-- `a % b`, for a `b` that is not 0. -/
def remainder (a b : ℚ) : ℚ := a - b * ((a / b).num.tdiv (a / b).den : Int)

/-- `n % everyN === 0`; for 0 the remainder is NaN. -/
def isMultiple (n : Nat) (everyN : ℚ) : Bool := everyN != 0 && remainder n everyN == 0

def composeMessage (opts : TelemetryPublisherOptions) (r : TickReading)
    (p : MockTelemetryPublisher) : TelemetryMessage × MockTelemetryPublisher :=
  let seq := p.seq + 1
  let elapsedSec : ℚ := (r.now - p.startedAt : Int) / 1000
  let lat := p.lat + (r.random 0 - 1 / 2) * 0.00001
  let lng := p.lng + (r.random 1 - 1 / 2) * 0.00001
  let headingDeg := remainder (p.headingDeg + (r.random 2 - 1 / 2) * 2 + 360) 360
  let batteryPct := max 20 (78 - elapsedSec / 120)
  let batteryVoltage := 22 + batteryPct / 100 * 4
  let lossy := decide (r.random 11 < 0.1)
  let rest := if lossy then 13 else 12
  ({ ts := r.now, vehicleId := opts.vehicleId, sessionId := opts.sessionId, seq := seq
     gps := .obj
      [("lat", .num lat), ("lng", .num lng), ("altM", .num (12 + opts.sin (elapsedSec / 10) * 2)),
        ("hAccM", .num 1.4), ("speedMs", .num (1.2 + opts.sin (elapsedSec / 5) * 0.8)),
        ("headingDeg", .num headingDeg), ("fix", .str "3d")]
     imu := .obj
      [("ax", .num ((r.random 3 - 1 / 2) * 0.4)), ("ay", .num ((r.random 4 - 1 / 2) * 0.4)),
        ("az", .num (9.81 + (r.random 5 - 1 / 2) * 0.2)), ("gx", .num ((r.random 6 - 1 / 2) * 0.05)),
        ("gy", .num ((r.random 7 - 1 / 2) * 0.05)), ("gz", .num ((r.random 8 - 1 / 2) * 0.05))]
     battery := .obj
      [("pct", .num batteryPct), ("voltage", .num batteryVoltage), ("currentA", .num (-2.1)),
        ("tempC", .num (32 + opts.sin (elapsedSec / 20) * 2)), ("mode", .str "discharging")]
     network := .obj
      [("rttMs", .num (22 + r.random 9 * 18)), ("jitterMs", .num (1 + r.random 10 * 3)),
        ("lossPct", .num (if lossy then r.random 12 * 0.5 else 0)),
        ("kbpsUp", .num (4200 + r.random rest * 400)),
        ("kbpsDown", .num (100 + r.random (rest + 1) * 50))]
     vehicle := r.status },
    { p with seq := seq, lat := lat, lng := lng, headingDeg := headingDeg, batteryPct := batteryPct
             batteryVoltage := batteryVoltage })

-- ---------------------------------------------------------------------------
-- Ticks
-- ---------------------------------------------------------------------------

/-- How the call of `publishData` comes back: as a promise, or at once, because
it throws or there is no local participant. -/
inductive Handoff
  | awaits
  | immediate
  deriving DecidableEq

inductive TelemetryEvent
  | start
  | stop
  | tick (reading : TickReading) (handoff : Handoff)
  /-- The `i`-th of the calls that are pending completes, or fails. -/
  | settle (i : Nat) (failed : Bool)

/-- What a step composes, and what it hands to `postAudit`. -/
structure TelemetryOutput where
  composed : List TelemetryMessage
  audited : List TelemetryMessage

variable (opts : TelemetryPublisherOptions)

/-- The rest of `tick`, after `publishData`; a failure is only logged. -/
def afterPublish (p : MockTelemetryPublisher) (msg : TelemetryMessage) : List TelemetryMessage :=
  match opts.auditSink with
  | none => []
  | some sink => if isMultiple p.seq sink.every then [msg] else []

def step (p : MockTelemetryPublisher) : TelemetryEvent → MockTelemetryPublisher × TelemetryOutput
  | .start => ({ p with timer := true }, ⟨[], []⟩)
  | .stop => ({ p with timer := false }, ⟨[], []⟩)
  | .tick reading handoff =>
    if p.timer then
      let (msg, p) := composeMessage opts reading p
      match handoff with
      | .awaits => ({ p with publishing := p.publishing ++ [msg] }, ⟨[msg], []⟩)
      | .immediate => (p, ⟨[msg], afterPublish opts p msg⟩)
    else (p, ⟨[], []⟩)
  | .settle i _ =>
    match p.publishing[i]? with
    | none => (p, ⟨[], []⟩)
    | some msg =>
      ({ p with publishing := p.publishing.eraseIdx i }, ⟨[], afterPublish opts p msg⟩)

def system (now : Int) : System MockTelemetryPublisher TelemetryEvent TelemetryOutput where
  init := construct now
  step := step opts

abbrev TelemetryEntry := Entry MockTelemetryPublisher TelemetryEvent TelemetryOutput
abbrev TelemetryLog := Log MockTelemetryPublisher TelemetryEvent TelemetryOutput

def composed (l : TelemetryLog) : List TelemetryMessage := collected (·.output.composed) l

def audited (l : TelemetryLog) : List TelemetryMessage := collected (·.output.audited) l

-- ---------------------------------------------------------------------------
-- Multiples
-- ---------------------------------------------------------------------------

theorem isMultiple_iff {n : Nat} (hn : 0 < n) (everyN : ℚ) :
    isMultiple n everyN = true ↔ ∃ k : Int, (n : ℚ) = k * everyN := by
  have hn₀ : (n : ℚ) ≠ 0 := by exact_mod_cast hn.ne'
  simp only [isMultiple, remainder, Bool.and_eq_true, bne_iff_ne, beq_iff_eq, sub_eq_zero]
  constructor
  · rintro ⟨-, hn⟩
    exact ⟨_, hn.trans (mul_comm _ _)⟩
  · rintro ⟨k, hk⟩
    have heveryN : everyN ≠ 0 := by
      rintro rfl
      exact hn₀ (by simpa using hk)
    have hquotient : (n : ℚ) / everyN = k := by rw [hk, mul_div_cancel_right₀ _ heveryN]
    refine ⟨heveryN, ?_⟩
    rw [hquotient, Rat.num_intCast, Rat.den_intCast, hk]
    simp [mul_comm]

-- ---------------------------------------------------------------------------
-- One step
-- ---------------------------------------------------------------------------

/-- The frames whose `publishData` is over with this entry. -/
def settled (x : TelemetryEntry) : List TelemetryMessage :=
  match x.event with
  | .start | .stop | .tick _ .awaits => []
  | .tick _ .immediate => x.output.composed
  | .settle i _ => (x.before.publishing[i]?).toList

/-- What a step does: frames it composes are new, they go on waiting until they
settle, and are audited then if the counter says so. -/
structure Steps (sink : AuditSink) (x : TelemetryEntry) : Prop where
  counts : x.before.seq ≤ x.after.seq
  settle_seq : ∀ i failed, x.event = .settle i failed → x.after.seq = x.before.seq
  composed_seq : ∀ msg ∈ x.output.composed, x.before.seq < msg.seq ∧ msg.seq = x.after.seq
  composed_nodup : x.output.composed.Nodup
  publishing : (x.before.publishing ++ x.output.composed).Perm (x.after.publishing ++ settled x)
  audits : x.output.audited = (settled x).filter fun _ => isMultiple x.after.seq sink.every

section
variable {opts : TelemetryPublisherOptions} {sink : AuditSink}

theorem afterPublish_eq (h : opts.auditSink = some sink) (p : MockTelemetryPublisher)
    (msg : TelemetryMessage) :
    afterPublish opts p msg = [msg].filter fun _ => isMultiple p.seq sink.every := by
  simp only [afterPublish, h]
  cases isMultiple p.seq sink.every <;> rfl

/-- A step that composes nothing and settles nothing. -/
theorem steps_idle {x : TelemetryEntry} (hseq : x.after.seq = x.before.seq)
    (hpublishing : x.after.publishing = x.before.publishing) (hcomposed : x.output.composed = [])
    (haudited : x.output.audited = []) (hsettled : settled x = []) : Steps sink x where
  counts := hseq.ge
  settle_seq _ _ _ := hseq
  composed_seq := by simp [hcomposed]
  composed_nodup := by simp [hcomposed]
  publishing := by simp [hpublishing, hcomposed, hsettled]
  audits := by simp [haudited, hsettled]

/-- A tick that composes one frame, under the next number. -/
theorem steps_compose {x : TelemetryEntry} {msg : TelemetryMessage} {reading : TickReading}
    {handoff : Handoff} (hevent : x.event = .tick reading handoff) (hcomposed : x.output.composed = [msg])
    (hmsg : msg.seq = x.before.seq + 1) (hseq : x.after.seq = x.before.seq + 1)
    (hpublishing : x.after.publishing ++ settled x = x.before.publishing ++ [msg])
    (haudits : x.output.audited = (settled x).filter fun _ => isMultiple x.after.seq sink.every) :
    Steps sink x where
  counts := by simp [hseq]
  settle_seq := by simp [hevent]
  composed_seq := by simp [hcomposed, hmsg, hseq]
  composed_nodup := by simp [hcomposed]
  publishing := by rw [hcomposed, hpublishing]
  audits := haudits

theorem react_steps (h : opts.auditSink = some sink) (now : Int) (p : MockTelemetryPublisher)
    (e : TelemetryEvent) : Steps sink ((system opts now).react p e) := by
  cases e with
  | start => exact steps_idle rfl rfl rfl rfl rfl
  | stop => exact steps_idle rfl rfl rfl rfl rfl
  | tick reading handoff =>
    cases htimer : p.timer with
    | false =>
      have hidle : step opts p (.tick reading handoff) = (p, ⟨[], []⟩) := by simp [step, htimer]
      have hreact : (system opts now).react p (.tick reading handoff) =
          ⟨p, .tick reading handoff, p, ⟨[], []⟩⟩ := by simp [System.react, system, hidle]
      rw [hreact]
      cases handoff <;> exact steps_idle rfl rfl rfl rfl rfl
    | true =>
      obtain ⟨msg, p', hcompose⟩ : ∃ msg p', composeMessage opts reading p = (msg, p') := ⟨_, _, rfl⟩
      obtain ⟨hmsg, hseq, hpublishing⟩ : msg.seq = p.seq + 1 ∧ p'.seq = p.seq + 1 ∧
          p'.publishing = p.publishing := by
        obtain ⟨rfl, rfl⟩ := Prod.mk.inj hcompose
        exact ⟨rfl, rfl, rfl⟩
      cases handoff with
      | awaits =>
        have hreact : (system opts now).react p (.tick reading .awaits) =
            ⟨p, .tick reading .awaits, { p' with publishing := p'.publishing ++ [msg] },
              ⟨[msg], []⟩⟩ := by
          simp [System.react, system, step, htimer, hcompose]
        rw [hreact]
        exact steps_compose rfl rfl hmsg hseq (by simp [settled, hpublishing]) rfl
      | immediate =>
        have hreact : (system opts now).react p (.tick reading .immediate) =
            ⟨p, .tick reading .immediate, p', ⟨[msg], afterPublish opts p' msg⟩⟩ := by
          simp [System.react, system, step, htimer, hcompose]
        rw [hreact]
        exact steps_compose rfl rfl hmsg hseq (by simp [settled, hpublishing]) (afterPublish_eq h p' msg)
  | settle i failed =>
    cases hpending : p.publishing[i]? with
    | none =>
      have hreact : (system opts now).react p (.settle i failed) =
          ⟨p, .settle i failed, p, ⟨[], []⟩⟩ := by
        simp [System.react, system, step, hpending]
      rw [hreact]
      exact steps_idle rfl rfl rfl rfl (by simp [settled, hpending])
    | some msg =>
      have hreact : (system opts now).react p (.settle i failed) =
          ⟨p, .settle i failed, { p with publishing := p.publishing.eraseIdx i },
            ⟨[], afterPublish opts p msg⟩⟩ := by
        simp [System.react, system, step, hpending]
      rw [hreact]
      exact
        { counts := le_rfl
          settle_seq := by simp
          composed_seq := by simp
          composed_nodup := by simp
          publishing := by
            obtain ⟨hlt, rfl⟩ := List.getElem?_eq_some_iff.mp hpending
            have htaken := List.getElem_cons_eraseIdx_perm hlt
            simpa [settled, hpending] using htaken.symm.trans (List.perm_append_singleton _ _).symm
          audits := by simpa [settled, hpending] using afterPublish_eq h p msg }

end

-- ---------------------------------------------------------------------------
-- Runs
-- ---------------------------------------------------------------------------

section
variable {sink : AuditSink} {l : TelemetryLog}

/-- The frames whose `publishData` is over. -/
def published (l : TelemetryLog) : List TelemetryMessage := collected settled l

/-- Every frame composed so far has its own number, and either waits or has settled once. -/
structure Accounted (p : MockTelemetryPublisher) (l : TelemetryLog) : Prop where
  seq_range : ∀ msg ∈ composed l, 0 < msg.seq ∧ msg.seq ≤ p.seq
  nodup : (composed l).Nodup
  perm : (composed l).Perm (p.publishing ++ published l)

theorem Accounted.step {x : TelemetryEntry} (h : Accounted x.before l) (hx : Steps sink x) :
    Accounted x.after (x :: l) where
  seq_range := by
    intro msg hmsg
    rcases List.mem_append.mp (by simpa [composed] using hmsg) with hmsg | hmsg
    · exact ⟨(h.seq_range msg hmsg).1, (h.seq_range msg hmsg).2.trans hx.counts⟩
    · exact ⟨Nat.zero_lt_of_lt (hx.composed_seq msg hmsg).1, (hx.composed_seq msg hmsg).2.le⟩
  nodup := by
    have hsplit : composed (x :: l) = composed l ++ x.output.composed := by simp [composed]
    rw [hsplit, List.nodup_append']
    refine ⟨h.nodup, hx.composed_nodup, ?_⟩
    intro msg hold hnew
    exact absurd (h.seq_range msg hold).2 (not_le.mpr (hx.composed_seq msg hnew).1)
  perm := by
    have hsplit : composed (x :: l) = composed l ++ x.output.composed := by simp [composed]
    have hpublished : published (x :: l) = published l ++ settled x := by simp [published]
    rw [hsplit, hpublished]
    calc (composed l ++ x.output.composed).Perm _ := h.perm.append_right _
      _ = x.before.publishing ++ (published l ++ x.output.composed) := List.append_assoc ..
      List.Perm _ (x.before.publishing ++ (x.output.composed ++ published l)) :=
        List.perm_append_comm.append_left _
      _ = x.before.publishing ++ x.output.composed ++ published l := (List.append_assoc ..).symm
      List.Perm _ (x.after.publishing ++ settled x ++ published l) := hx.publishing.append_right _
      _ = x.after.publishing ++ (settled x ++ published l) := List.append_assoc ..
      List.Perm _ (x.after.publishing ++ (published l ++ settled x)) :=
        List.perm_append_comm.append_left _

theorem Accounted.mem_of_publishing {p : MockTelemetryPublisher} (h : Accounted p l)
    {msg : TelemetryMessage} (hmsg : msg ∈ p.publishing) : msg ∈ composed l :=
  h.perm.mem_iff.mpr (List.mem_append_left _ hmsg)

variable {opts : TelemetryPublisherOptions}

theorem run_accounted (h : opts.auditSink = some sink) (now : Int) (es : List TelemetryEvent) :
    Accounted ((system opts now).state ((system opts now).log es)) ((system opts now).log es) := by
  induction es with
  | nil =>
    exact ⟨by simp [composed], by simp [composed], by simp [composed, published, system, construct]⟩
  | cons e es ih => exact ih.step (react_steps h now _ e)

/-- Every entry is a step of a publisher that accounts for its frames. -/
theorem run_entries (h : opts.auditSink = some sink) (now : Int) (es : List TelemetryEvent) :
    ∀ x ∈ (system opts now).log es, Steps sink x ∧ ∃ past, Accounted x.before past := by
  induction es with
  | nil => simp
  | cons e es ih =>
    rintro x hx
    rcases List.mem_cons.mp hx with rfl | hx
    · exact ⟨react_steps h now _ e, _, run_accounted h now es⟩
    · exact ih x hx

/-- A frame that settles while others have been composed since is still audited
just if its own number is a multiple of `everyN`: so is the counter, or neither is. -/
def InStep (sink : AuditSink) (x : TelemetryEntry) : Prop :=
  ∀ i failed msg, x.event = .settle i failed → x.before.publishing[i]? = some msg →
    ((∃ k : Int, (x.before.seq : ℚ) = k * sink.every) ↔ ∃ k : Int, (msg.seq : ℚ) = k * sink.every)

theorem inStep_iff {x : TelemetryEntry} (hx : Steps sink x) {past : TelemetryLog}
    (hpast : Accounted x.before past) :
    InStep sink x ↔
      ∀ msg ∈ settled x, isMultiple x.after.seq sink.every = isMultiple msg.seq sink.every := by
  unfold InStep settled
  split
  next hevent => simp [hevent]
  next hevent => simp [hevent]
  next hevent => simp [hevent]
  next hevent =>
    simp only [hevent, reduceCtorEq, false_implies, implies_true, true_iff]
    intro msg hmsg
    rw [(hx.composed_seq msg hmsg).2]
  next i failed hevent =>
    simp only [hevent, TelemetryEvent.settle.injEq, Option.mem_toList]
    have hiff (msg : TelemetryMessage) (hmsg : x.before.publishing[i]? = some msg) :
        (isMultiple x.after.seq sink.every = isMultiple msg.seq sink.every) ↔
          ((∃ k : Int, (x.before.seq : ℚ) = k * sink.every) ↔
            ∃ k : Int, (msg.seq : ℚ) = k * sink.every) := by
      obtain ⟨hpos, hle⟩ :=
        hpast.seq_range msg (hpast.mem_of_publishing (List.mem_of_getElem? hmsg))
      rw [Bool.eq_iff_iff, hx.settle_seq i failed hevent, isMultiple_iff (hpos.trans_le hle),
        isMultiple_iff hpos]
    constructor
    · intro h msg hmsg
      exact (hiff msg hmsg).mpr (h i failed msg ⟨rfl, rfl⟩ hmsg)
    · rintro h _ _ msg ⟨rfl, rfl⟩ hmsg
      exact (hiff msg hmsg).mp (h msg hmsg)

theorem mem_audited (hsteps : ∀ x ∈ l, Steps sink x) {msg : TelemetryMessage} :
    msg ∈ audited l ↔ ∃ x ∈ l, msg ∈ settled x ∧ isMultiple x.after.seq sink.every = true := by
  simp only [audited, collected, List.mem_flatMap, List.mem_reverse]
  refine exists_congr fun x => and_congr_right fun hx => ?_
  rw [(hsteps x hx).audits, List.mem_filter]

theorem mem_published {msg : TelemetryMessage} : msg ∈ published l ↔ ∃ x ∈ l, msg ∈ settled x := by
  simp [published, collected]

theorem audited_sublist (hsteps : ∀ x ∈ l, Steps sink x) : (audited l).Sublist (published l) := by
  induction l with
  | nil => simp [audited, published]
  | cons x l ih =>
    have hx := (hsteps x List.mem_cons_self).audits
    simp only [audited, published, collected_cons, hx]
    exact (ih fun y hy => hsteps y (List.mem_cons_of_mem x hy)).append List.filter_sublist

/-- A frame settles in one entry only. -/
theorem settled_once (h : (published l).Nodup) {x y : TelemetryEntry} (hx : x ∈ l) (hy : y ∈ l)
    {msg : TelemetryMessage} (hxmsg : msg ∈ settled x) (hymsg : msg ∈ settled y) : x = y := by
  by_contra hne
  have hdisjoint : l.reverse.Pairwise (Function.onFun List.Disjoint settled) :=
    (List.nodup_flatMap.mp h).2
  have hsymm : Std.Symm (Function.onFun List.Disjoint settled) := ⟨fun _ _ => List.disjoint_symm⟩
  exact hdisjoint.forall (List.mem_reverse.mpr hx) (List.mem_reverse.mpr hy) hne hxmsg hymsg

theorem audited_exactly_iff (h : opts.auditSink = some sink) (now : Int) (es : List TelemetryEvent)
    (hdone : ((system opts now).state ((system opts now).log es)).publishing = []) :
    ((audited ((system opts now).log es)).Nodup ∧
        ∀ msg, msg ∈ audited ((system opts now).log es) ↔
          msg ∈ composed ((system opts now).log es) ∧ ∃ k : Int, (msg.seq : ℚ) = k * sink.every) ↔
      ∀ x ∈ (system opts now).log es, InStep sink x := by
  have hacc := run_accounted h now es
  have hentries := run_entries h now es
  generalize (system opts now).log es = l at hdone hacc hentries ⊢
  have hperm : (composed l).Perm (published l) := by simpa [hdone] using hacc.perm
  have hnodup : (published l).Nodup := hperm.nodup_iff.mp hacc.nodup
  have haudited {msg : TelemetryMessage} : msg ∈ audited l ↔
      ∃ x ∈ l, msg ∈ settled x ∧ isMultiple x.after.seq sink.every = true :=
    mem_audited fun x hx => (hentries x hx).1
  have hcomposed {msg : TelemetryMessage} : msg ∈ composed l ↔ ∃ x ∈ l, msg ∈ settled x :=
    hperm.mem_iff.trans mem_published
  have hmultiple {msg : TelemetryMessage} (hmsg : msg ∈ composed l) :=
    isMultiple_iff (hacc.seq_range msg hmsg).1 sink.every
  constructor
  · rintro ⟨-, hexact⟩ x hx
    obtain ⟨hsteps, past, hpast⟩ := hentries x hx
    refine (inStep_iff hsteps hpast).mpr fun msg hmsg => ?_
    have hmem := hcomposed.mpr ⟨x, hx, hmsg⟩
    rw [Bool.eq_iff_iff, hmultiple hmem]
    constructor
    · intro hcounter
      exact ((hexact msg).mp (haudited.mpr ⟨x, hx, hmsg, hcounter⟩)).2
    · intro hown
      obtain ⟨y, hy, hymsg, hcounter⟩ := haudited.mp ((hexact msg).mpr ⟨hmem, hown⟩)
      exact settled_once hnodup hx hy hmsg hymsg ▸ hcounter
  · intro hinStep
    refine ⟨(audited_sublist fun x hx => (hentries x hx).1).nodup hnodup, fun msg => ?_⟩
    have hcounter {x : TelemetryEntry} (hx : x ∈ l) (hmsg : msg ∈ settled x) :
        isMultiple x.after.seq sink.every = isMultiple msg.seq sink.every := by
      obtain ⟨hsteps, past, hpast⟩ := hentries x hx
      exact (inStep_iff hsteps hpast).mp (hinStep x hx) msg hmsg
    constructor
    · intro hmsg
      obtain ⟨x, hx, hsettled, hmult⟩ := haudited.mp hmsg
      have hmem := hcomposed.mpr ⟨x, hx, hsettled⟩
      exact ⟨hmem, (hmultiple hmem).mp (hcounter hx hsettled ▸ hmult)⟩
    · rintro ⟨hmem, hown⟩
      obtain ⟨x, hx, hsettled⟩ := hcomposed.mp hmem
      exact haudited.mpr ⟨x, hx, hsettled, (hcounter hx hsettled).trans ((hmultiple hmem).mpr hown)⟩

end

/-- Every second frame is audited. -/
private def flatSink : AuditSink := ⟨"http://localhost:3000", "internal-dev-token", some 2⟩

private def flatSea : TelemetryPublisherOptions where
  vehicleId := "rover-1"
  sessionId := "session-1"
  sin _ := 0
  auditSink := some flatSink

private def calmTick : TickReading where
  now := 1000
  random _ := 1 / 2
  status := ⟨"manual", some "operator"⟩

/-- Two ticks, newest first, each of them over before the next. -/
private def prompt : List TelemetryEvent :=
  [.settle 0 false, .tick calmTick .awaits, .settle 0 true, .tick calmTick .awaits, .start]

private theorem prompt_inStep (sink : AuditSink) :
    ∀ x ∈ (system flatSea 0).log prompt, InStep sink x := by
  simp only [prompt, System.log_cons, System.log_nil, List.forall_mem_cons, List.not_mem_nil,
    false_implies, implies_true, and_true]
  refine ⟨?_, ?_, ?_, ?_, ?_⟩ <;> intro i failed msg hevent hmsg <;> cases hevent
  · obtain rfl := Option.some.inj hmsg
    exact Iff.rfl
  · obtain rfl := Option.some.inj hmsg
    exact Iff.rfl

theorem prompt_audited_exactly :
    (audited ((system flatSea 0).log prompt)).Nodup ∧
      ∀ msg, msg ∈ audited ((system flatSea 0).log prompt) ↔
        msg ∈ composed ((system flatSea 0).log prompt) ∧ ∃ k : Int, (msg.seq : ℚ) = k * flatSink.every :=
  (audited_exactly_iff (show flatSea.auditSink = some flatSink from rfl) 0 prompt rfl).mpr
    (prompt_inStep flatSink)

/-- The same two ticks, where the second comes before the first is over. -/
private def overlapping : List TelemetryEvent :=
  [.settle 0 false, .settle 0 false, .tick calmTick .awaits, .tick calmTick .awaits, .start]

/-- The first frame settles at an even counter, and is audited. -/
theorem overlapping_audits_first :
    ((system flatSea 0).state ((system flatSea 0).log overlapping)).publishing = [] ∧
      ¬ ((audited ((system flatSea 0).log overlapping)).Nodup ∧
        ∀ msg, msg ∈ audited ((system flatSea 0).log overlapping) ↔
          msg ∈ composed ((system flatSea 0).log overlapping) ∧
            ∃ k : Int, (msg.seq : ℚ) = k * flatSink.every) := by
  refine ⟨rfl, ?_⟩
  rintro ⟨-, hexact⟩
  have hentries := run_entries (show flatSea.auditSink = some flatSink from rfl) 0 overlapping
  have hfirst : (composeMessage flatSea calmTick { construct 0 with timer := true }).1 ∈
      audited ((system flatSea 0).log overlapping) :=
    (mem_audited fun x hx => (hentries x hx).1).mpr
      ⟨_, List.mem_cons_of_mem _ List.mem_cons_self, List.mem_cons_self,
        (isMultiple_iff (n := 2) (by decide) _).mpr ⟨1, by norm_num [AuditSink.every, flatSink]⟩⟩
  obtain ⟨-, k, hk⟩ := (hexact _).mp hfirst
  have hodd : (1 : Int) = k * 2 := by
    have htwo : flatSink.every = 2 := rfl
    rw [htwo] at hk
    exact_mod_cast hk
  omega

end MockTelemetryPublisher

end Rvep.Edge
