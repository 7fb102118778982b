import Mathlib.Order.Nat
import Rvep.Edge.Agent

/-!
# What one step of the edge agent can do

`step_change` is the inversion lemma every run property is proved from: a
step moves the pair (safe mode, last heartbeat) in one of four ways.
-/

namespace Rvep.Edge

variable {vehicle : VehicleId}

-- ---------------------------------------------------------------------------
-- The dedupe filter
-- ---------------------------------------------------------------------------

def SafetyState.watermark (s : SafetyState) : Watermark.Counters Nat Nat :=
  ⟨s.lastAcceptedEpoch, s.lastAcceptedSeq⟩

def SafetyState.mark (s : SafetyState) : Nat ×ₗ Nat := s.watermark.mark

theorem dedupe_eq (epoch seq : Nat) (s : SafetyState) :
    dedupe epoch seq s =
      ({ s with lastAcceptedEpoch := (s.watermark.advance epoch seq).1.epoch
                lastAcceptedSeq := (s.watermark.advance epoch seq).1.seq },
        (s.watermark.advance epoch seq).2) := by
  by_cases hold : epoch < s.lastAcceptedEpoch
  · simp [dedupe, Watermark.Counters.advance, SafetyState.watermark, hold]
  · by_cases hnew : s.lastAcceptedEpoch < epoch
    · by_cases hseq : seq = 0 <;>
        simp [dedupe, Watermark.Counters.advance, SafetyState.watermark, hold, hnew, hseq]
    · by_cases hseq : seq ≤ s.lastAcceptedSeq <;>
        simp [dedupe, Watermark.Counters.advance, SafetyState.watermark, hold, hnew, hseq]

@[simp] theorem dedupe_safeMode (epoch seq : Nat) (s : SafetyState) :
    (dedupe epoch seq s).1.safeMode = s.safeMode := by rw [dedupe_eq]

@[simp] theorem dedupe_lastHeartbeatAt (epoch seq : Nat) (s : SafetyState) :
    (dedupe epoch seq s).1.lastHeartbeatAt = s.lastHeartbeatAt := by rw [dedupe_eq]

theorem dedupe_mark (epoch seq : Nat) (s : SafetyState) :
    (dedupe epoch seq s).1.mark = max s.mark (toLex (epoch, seq)) := by
  rw [dedupe_eq]
  exact s.watermark.mark_advance epoch seq

theorem dedupe_fresh (epoch seq : Nat) (s : SafetyState) :
    (dedupe epoch seq s).2 = true ↔ 0 < seq ∧ s.mark < toLex (epoch, seq) := by
  rw [dedupe_eq]
  exact s.watermark.accepts_iff epoch seq

/-- A dropped command leaves the counters alone, unless its sequence number is 0. -/
theorem dedupe_stale {epoch seq : Nat} {s : SafetyState} (h : (dedupe epoch seq s).2 = false)
    (hseq : 0 < seq) : (dedupe epoch seq s).1 = s := by
  unfold dedupe at h ⊢
  by_cases hold : epoch < s.lastAcceptedEpoch
  · rw [if_pos hold]
  · by_cases hnew : s.lastAcceptedEpoch < epoch
    · simp [hold, hnew, hseq.ne'] at h
    · rw [if_neg hold] at h ⊢
      simp only [hnew, ↓reduceIte] at h ⊢
      split at h
      next hs => rw [if_pos hs]
      next => exact absurd h nofun

-- ---------------------------------------------------------------------------
-- Events the agent acts on
-- ---------------------------------------------------------------------------

variable (vehicle) in
/-- The command an event hands to `handleCommand`, if it does. -/
def commandOf : Event → Option ControlCommand
  | .command cmd => some cmd
  | .data payload => (decodeCommand payload).filter (·.vehicleId == vehicle)
  | .tick | .connected | .disconnected => none

variable (vehicle) in
/-- The event is a command accepted by the dedupe filter whose body meets `p`. -/
def accepts (p : CommandBody → Bool) (a : Agent) (e : Stamped) : Bool :=
  (commandOf vehicle e.event).any fun cmd =>
    (dedupe cmd.connectionEpoch cmd.seq a.state).2 && p cmd.body

variable (vehicle) in
def acceptsHeartbeat (a : Agent) (e : Stamped) : Bool :=
  accepts vehicle CommandBody.isHeartbeat a e

variable (vehicle) in
def acceptsResume (a : Agent) (e : Stamped) : Bool :=
  accepts vehicle CommandBody.isConfirmedResume a e &&
    !decide (1000 < e.clock.nowMs - a.state.lastHeartbeatAt)

/-- Safe mode was entered: `enterSafeMode` got past its guard. -/
def entersSafeMode (out : List Effect) : Bool := out.contains .zeroVelocity

def executes (out : List Effect) : Bool := out.any Effect.isExecution

section
variable (f : Effect) (out out' : List Effect) (event : ControlEvent) (sent : SafetyEvent)

@[simp] theorem entersSafeMode_nil : entersSafeMode [] = false := rfl
@[simp] theorem entersSafeMode_report :
    entersSafeMode (.report event :: out) = entersSafeMode out := by simp [entersSafeMode]
@[simp] theorem entersSafeMode_append :
    entersSafeMode (out ++ out') = (entersSafeMode out || entersSafeMode out') := by
  rw [Bool.eq_iff_iff]
  simp [entersSafeMode]
@[simp] theorem executes_nil : executes [] = false := rfl
@[simp] theorem executes_cons : executes (f :: out) = (f.isExecution || executes out) := rfl
@[simp] theorem executes_append : executes (out ++ out') = (executes out || executes out') := by
  simp [executes]
@[simp] theorem isExecution_report : (Effect.report event).isExecution = false := rfl
@[simp] theorem isExecution_broadcast : (Effect.broadcast sent).isExecution = false := rfl
@[simp] theorem isExecution_zeroVelocity : Effect.zeroVelocity.isExecution = false := rfl
@[simp] theorem isExecution_config (key : String) (value : ConfigValue) :
    (Effect.config key value).isExecution = false := rfl

end

theorem handleCommand_eq (r : Reading) (cmd : ControlCommand) (a : Agent) :
    handleCommand vehicle r cmd a =
      if (dedupe cmd.connectionEpoch cmd.seq a.state).2 then
        dispatch vehicle r cmd { a with state := (dedupe cmd.connectionEpoch cmd.seq a.state).1 }
      else ({ a with state := (dedupe cmd.connectionEpoch cmd.seq a.state).1 }, []) := rfl

theorem step_data (a : Agent) (r : Reading) (payload : ControlCommand) :
    step vehicle a ⟨r, .data payload⟩ =
      match commandOf vehicle (.data payload) with
      | some cmd => handleCommand vehicle r cmd a
      | none => (a, []) := by
  simp only [step, onDataReceived, commandOf]
  cases decodeCommand payload with
  | none => rfl
  | some cmd => by_cases h : cmd.vehicleId = vehicle <;> simp [h, Option.filter]

-- ---------------------------------------------------------------------------
-- Safe mode transitions
-- ---------------------------------------------------------------------------

section
variable (r : Reading) (event : SafetyEventName) (reason : Option String) (why : String) (a : Agent)

@[simp] theorem publishSafetyEvent_safeMode :
    (publishSafetyEvent vehicle r event reason a).1.state.safeMode = a.state.safeMode := by
  unfold publishSafetyEvent; split <;> rfl

@[simp] theorem publishSafetyEvent_lastHeartbeatAt :
    (publishSafetyEvent vehicle r event reason a).1.state.lastHeartbeatAt =
      a.state.lastHeartbeatAt := by
  unfold publishSafetyEvent; split <;> rfl

@[simp] theorem publishSafetyEvent_mark :
    (publishSafetyEvent vehicle r event reason a).1.state.mark = a.state.mark := by
  unfold publishSafetyEvent; split <;> rfl

@[simp] theorem publishSafetyEvent_enters :
    entersSafeMode (publishSafetyEvent vehicle r event reason a).2 = false := by
  unfold publishSafetyEvent; split <;> rfl

@[simp] theorem publishSafetyEvent_executes :
    executes (publishSafetyEvent vehicle r event reason a).2 = false := by
  unfold publishSafetyEvent; split <;> rfl

@[simp] theorem enterSafeMode_safeMode :
    (enterSafeMode vehicle r why a).1.state.safeMode = true := by
  unfold enterSafeMode
  split
  next h => exact (Bool.and_eq_true_iff.mp h).1
  next => simp

@[simp] theorem enterSafeMode_lastHeartbeatAt :
    (enterSafeMode vehicle r why a).1.state.lastHeartbeatAt = a.state.lastHeartbeatAt := by
  unfold enterSafeMode
  split <;> simp

@[simp] theorem enterSafeMode_mark :
    (enterSafeMode vehicle r why a).1.state.mark = a.state.mark := by
  unfold enterSafeMode
  split
  · rfl
  · exact publishSafetyEvent_mark ..

@[simp] theorem enterSafeMode_executes : executes (enterSafeMode vehicle r why a).2 = false := by
  unfold enterSafeMode
  split <;> simp [reportEvent]

variable (vehicle) in
theorem leaveSafeMode_spec (h : a.state.safeMode = true) :
    (leaveSafeMode vehicle r a).1.state.safeMode = false ∧
      (leaveSafeMode vehicle r a).1.state.lastHeartbeatAt = a.state.lastHeartbeatAt ∧
      entersSafeMode (leaveSafeMode vehicle r a).2 = false ∧
      executes (leaveSafeMode vehicle r a).2 = false := by
  simp [leaveSafeMode, h, reportEvent]

end

-- ---------------------------------------------------------------------------
-- The watermark
-- ---------------------------------------------------------------------------

def markOf (cmd : ControlCommand) : Nat ×ₗ Nat := toLex (cmd.connectionEpoch, cmd.seq)

section
variable (r : Reading) (cmd : ControlCommand) (a : Agent)

@[simp] theorem leaveSafeMode_mark : (leaveSafeMode vehicle r a).1.state.mark = a.state.mark := by
  unfold leaveSafeMode
  split
  · rfl
  · exact publishSafetyEvent_mark ..

@[simp] theorem resumeControl_mark (acknowledgement : String) :
    (resumeControl vehicle r acknowledgement a).1.state.mark = a.state.mark := by
  unfold resumeControl
  split
  · rfl
  · split
    · rfl
    · split <;> simp

@[simp] theorem dispatch_mark : (dispatch vehicle r cmd a).1.state.mark = a.state.mark := by
  cases hb : cmd.body with
  | heartbeat => simp only [dispatch, hb]; rfl
  | config => simp only [dispatch, hb]
  | emergencyStop => simp only [dispatch, hb]; exact enterSafeMode_mark ..
  | resumeControl acknowledgement => simp only [dispatch, hb]; exact resumeControl_mark ..
  | movement | action => simp only [dispatch, hb]; split <;> rfl

theorem handleCommand_mark :
    (handleCommand vehicle r cmd a).1.state.mark = max a.state.mark (markOf cmd) := by
  rw [handleCommand_eq]
  split
  · rw [dispatch_mark]
    exact dedupe_mark ..
  · exact dedupe_mark ..

theorem step_mark (e : Stamped) :
    (step vehicle a e).1.state.mark =
      (commandOf vehicle e.event).elim a.state.mark fun cmd => max a.state.mark (markOf cmd) := by
  obtain ⟨r, ev⟩ := e
  cases ev with
  | command cmd => exact handleCommand_mark r cmd a
  | data payload =>
    rw [step_data]
    cases commandOf vehicle (.data payload) with
    | none => rfl
    | some cmd => exact handleCommand_mark r cmd a
  | tick =>
    simp only [step, heartbeatTick, commandOf]
    split
    · rfl
    · split
      · rfl
      · split
        · exact enterSafeMode_mark ..
        · rfl
  | connected =>
    simp only [step, onConnected, commandOf]
    split <;> simp
  | disconnected =>
    simp only [step, onDisconnected, commandOf]
    exact enterSafeMode_mark ..

/-- After an emergency stop the agent is safe, unless the filter dropped it. -/
theorem handleCommand_stop (hb : cmd.body.isEmergencyStop = true) :
    (handleCommand vehicle r cmd a).1.state.safeMode = true ↔
      a.state.safeMode = true ∨ 0 < cmd.seq ∧ a.state.mark < markOf cmd := by
  have hfresh := dedupe_fresh cmd.connectionEpoch cmd.seq a.state
  rw [handleCommand_eq]
  split
  next hf =>
    have hstop : (dispatch vehicle r cmd
        { a with state := (dedupe cmd.connectionEpoch cmd.seq a.state).1 }).1.state.safeMode =
      true := by
      cases hc : cmd.body with
      | emergencyStop => simp only [dispatch, hc]; exact enterSafeMode_safeMode ..
      | _ => simp [hc] at hb
    exact ⟨fun _ => .inr (hfresh.mp hf), fun _ => hstop⟩
  next hf =>
    rw [dedupe_safeMode]
    exact ⟨.inl, fun h => h.resolve_right fun hm => hf (hfresh.mpr hm)⟩

end

-- ---------------------------------------------------------------------------
-- Inversion
-- ---------------------------------------------------------------------------

/-- The ways a step moves safe mode. -/
inductive Change (vehicle : VehicleId) (a : Agent) (e : Stamped) (a' : Agent)
    (out : List Effect) : Prop
  | resumed (accepted : acceptsResume vehicle a e = true)
      (safeMode : a'.state.safeMode = false)
      (enters : entersSafeMode out = false) (runs : executes out = false)
  | entered (safeMode : a'.state.safeMode = true) (runs : executes out = false)
  | kept (safeMode : a'.state.safeMode = a.state.safeMode)
      (enters : entersSafeMode out = false)
      (runs : executes out = true → a.state.safeMode = false)

/-- A step's safety effect, and the heartbeat clock it leaves. -/
structure StepSpec (vehicle : VehicleId) (a : Agent) (e : Stamped) (a' : Agent)
    (out : List Effect) : Prop where
  change : Change vehicle a e a' out
  last : a'.state.lastHeartbeatAt =
    if acceptsHeartbeat vehicle a e then e.clock.nowMs else a.state.lastHeartbeatAt

theorem dispatch_spec {a : Agent} {e : Stamped} {cmd : ControlCommand}
    (hc : commandOf vehicle e.event = some cmd)
    (hf : (dedupe cmd.connectionEpoch cmd.seq a.state).2 = true) {b : Agent}
    (hm : b.state.safeMode = a.state.safeMode)
    (hl : b.state.lastHeartbeatAt = a.state.lastHeartbeatAt) :
    StepSpec vehicle a e (dispatch vehicle e.clock cmd b).1 (dispatch vehicle e.clock cmd b).2 := by
  have haccepts (p : CommandBody → Bool) : accepts vehicle p a e = p cmd.body := by
    simp [accepts, hc, hf]
  have hbeat : acceptsHeartbeat vehicle a e = cmd.body.isHeartbeat := haccepts _
  cases hb : cmd.body with
  | heartbeat =>
    simp only [dispatch, hb]
    exact ⟨.kept hm rfl (by simp), by simp [hbeat, hb]⟩
  | emergencyStop =>
    simp only [dispatch, hb]
    exact ⟨.entered (by simp) (by simp [reportEvent]), by simp [hbeat, hb, hl]⟩
  | resumeControl acknowledgement =>
    simp only [dispatch, hb, resumeControl]
    split
    next => exact ⟨.kept hm (by simp [reportEvent]) (by simp [reportEvent]), by simp [hbeat, hb, hl]⟩
    next hack =>
      split
      next => exact ⟨.kept hm (by simp [reportEvent]) (by simp [reportEvent]), by simp [hbeat, hb, hl]⟩
      next hstale =>
        have hres : acceptsResume vehicle a e = true := by
          rw [hl] at hstale
          rw [acceptsResume, haccepts, hb]
          simpa using And.intro hack hstale
        split
        next hsafe =>
          obtain ⟨hs, hh, hz, hx⟩ := leaveSafeMode_spec vehicle e.clock b hsafe
          exact ⟨.resumed hres hs hz hx, by simp [hbeat, hb, hh, hl]⟩
        next hsafe =>
          exact ⟨.resumed hres (by simpa using hsafe) (by simp) (by simp), by simp [hbeat, hb, hl]⟩
  | movement axes =>
    simp only [dispatch, hb]
    split
    next => exact ⟨.kept hm (by simp [reportEvent]) (by simp [reportEvent]), by simp [hbeat, hb, hl]⟩
    next hsafe => exact ⟨.kept hm rfl fun _ => by simpa [hm] using hsafe, by simp [hbeat, hb, hl]⟩
  | action name params =>
    simp only [dispatch, hb]
    split
    next => exact ⟨.kept hm rfl (by simp), by simp [hbeat, hb, hl]⟩
    next hsafe => exact ⟨.kept hm rfl fun _ => by simpa [hm] using hsafe, by simp [hbeat, hb, hl]⟩
  | config key value =>
    simp only [dispatch, hb]
    exact ⟨.kept hm rfl (by simp), by simp [hbeat, hb, hl]⟩

theorem handleCommand_spec {a : Agent} {e : Stamped} {cmd : ControlCommand}
    (hc : commandOf vehicle e.event = some cmd) :
    StepSpec vehicle a e (handleCommand vehicle e.clock cmd a).1
      (handleCommand vehicle e.clock cmd a).2 := by
  rw [handleCommand_eq]
  split
  next hf => exact dispatch_spec hc hf (by simp) (by simp)
  next hf =>
    have hbeat : acceptsHeartbeat vehicle a e = false := by
      simp [acceptsHeartbeat, accepts, hc, hf]
    exact ⟨.kept (by simp) rfl (by simp), by simp [hbeat]⟩

theorem acceptsHeartbeat_eq_false {a : Agent} {e : Stamped}
    (hc : commandOf vehicle e.event = none) : acceptsHeartbeat vehicle a e = false := by
  simp [acceptsHeartbeat, accepts, hc]

variable (vehicle) in
theorem step_spec (a : Agent) (e : Stamped) :
    StepSpec vehicle a e (step vehicle a e).1 (step vehicle a e).2 := by
  obtain ⟨r, ev⟩ := e
  cases ev with
  | command cmd => exact handleCommand_spec rfl
  | data payload =>
    rw [step_data]
    cases hc : commandOf vehicle (.data payload) with
    | none =>
      have hbeat : acceptsHeartbeat vehicle a ⟨r, .data payload⟩ = false :=
        acceptsHeartbeat_eq_false hc
      exact ⟨.kept rfl rfl (by simp), by simp [hbeat]⟩
    | some cmd => exact handleCommand_spec (e := ⟨r, .data payload⟩) hc
  | tick =>
    have hbeat : acceptsHeartbeat vehicle a ⟨r, .tick⟩ = false := acceptsHeartbeat_eq_false rfl
    simp only [step, heartbeatTick]
    split
    next => exact ⟨.kept rfl rfl (by simp), by simp [hbeat]⟩
    next =>
      split
      next => exact ⟨.kept rfl rfl (by simp), by simp [hbeat]⟩
      next =>
        split
        next => exact ⟨.entered (by simp) (by simp), by simp [hbeat]⟩
        next => exact ⟨.kept rfl rfl (by simp), by simp [hbeat]⟩
  | connected =>
    have hbeat : acceptsHeartbeat vehicle a ⟨r, .connected⟩ = false := acceptsHeartbeat_eq_false rfl
    simp only [step, onConnected]
    split
    next => exact ⟨.kept (by simp) (by simp [reportEvent]) (by simp [reportEvent]), by simp [hbeat]⟩
    next => exact ⟨.kept (by simp) (by simp [reportEvent]) (by simp [reportEvent]), by simp [hbeat]⟩
  | disconnected =>
    have hbeat : acceptsHeartbeat vehicle a ⟨r, .disconnected⟩ = false :=
      acceptsHeartbeat_eq_false rfl
    simp only [step, onDisconnected]
    exact ⟨.entered (by simp) (by simp), by simp [hbeat]⟩

variable (vehicle) in
theorem tick_fresh (a : Agent) (r : Reading) (hseen : a.state.lastHeartbeatAt ≠ 0) :
    (step vehicle a ⟨r, .tick⟩).1.state.safeMode = true ∨
      r.nowMs - a.state.lastHeartbeatAt ≤ heartbeatTimeoutMs := by
  simp only [step, heartbeatTick, beq_iff_eq, hseen, ↓reduceIte]
  split
  next hsafe => exact .inl hsafe
  next =>
    split
    next => exact .inl (by simp)
    next hage => exact .inr (not_lt.mp hage)

end Rvep.Edge
