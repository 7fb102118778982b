import Rvep.Cockpit.ControlChannel
import Rvep.Edge.DeadMan

/-!
# Who can take control again

A control channel takes its epoch from the clock of the operator's browser when
the page connects, and the edge drops every command of an epoch below one it
has heard. So a channel can bring the vehicle back under its control, whatever
else happened, unless a command with a later epoch has arrived: from then on it
is not heard any more.
-/

namespace Rvep.Recovery

open Reactive Cockpit Edge

/-- A message that a channel sends and the edge receives. -/
structure Delivery where
  clock : Edge.Reading
  now : Instant
  what : Send

def Delivery.payload (d : Delivery) (ch : ControlChannel) : ControlCommand :=
  (d.what.run d.now ch).2.payload

/-- The channel after these sends; they are newest first, as a schedule is. -/
def channelAfter (ch : ControlChannel) : List Delivery → ControlChannel
  | [] => ch
  | d :: past => (d.what.run d.now (channelAfter ch past)).1

def arrival (ch : ControlChannel) (d : Delivery) : Stamped := ⟨d.clock, .data (d.payload ch)⟩

def arrivals (ch : ControlChannel) : List Delivery → List Stamped
  | [] => []
  | d :: past => arrival (channelAfter ch past) d :: arrivals ch past

/-- The commands of a log that reached the edge's `handleCommand`. -/
def heard (vehicle : VehicleId) (l : EdgeLog) : List ControlCommand :=
  l.filterMap fun x => commandOf vehicle x.event.event

section
variable {vehicle : VehicleId} {sessionId : String}

-- ---------------------------------------------------------------------------
-- The watermark of a run
-- ---------------------------------------------------------------------------

theorem mark_log (es : List Stamped) :
    ((agent vehicle sessionId).state ((agent vehicle sessionId).log es)).state.mark =
      Watermark.highest (toLex (0, 0))
        ((heard vehicle ((agent vehicle sessionId).log es)).map markOf) := by
  induction es with
  | nil => rfl
  | cons e es ih =>
    have hstep : (step vehicle _ e).1.state.mark = _ := step_mark
      ((agent vehicle sessionId).state ((agent vehicle sessionId).log es)) e
    rw [System.log_cons, System.state_cons, System.react_after]
    refine hstep.trans ?_
    cases hc : commandOf vehicle e.event with
    | none => rw [heard, List.filterMap_cons_none (by exact hc)]; exact ih
    | some cmd =>
      rw [heard, List.filterMap_cons_some (by exact hc), List.map_cons, Watermark.highest_cons,
        max_comm]
      exact congrArg (max · (markOf cmd)) ih

/-- The edge has heard of no epoch above the one it keeps. -/
theorem epoch_le_iff {s : Edge.SafetyState} {offered : List ControlCommand} {epoch : Nat}
    (h : s.mark = Watermark.highest (toLex (0, 0)) (offered.map markOf)) :
    s.lastAcceptedEpoch ≤ epoch ↔ ∀ c ∈ offered, c.connectionEpoch ≤ epoch := by
  have hmark : s.lastAcceptedEpoch ≤ epoch ↔ s.mark < toLex (epoch + 1, 0) := by
    rw [Edge.SafetyState.mark, Watermark.Counters.mark, Prod.Lex.toLex_lt_toLex]
    simp only [Edge.SafetyState.watermark]
    omega
  rw [hmark, h, Watermark.highest_lt_iff]
  simp only [List.forall_mem_map, markOf, Prod.Lex.toLex_lt_toLex]
  constructor
  · intro hlt c hc
    have := hlt.2 c hc
    omega
  · intro hle
    refine ⟨by omega, fun c hc => ?_⟩
    have := hle c hc
    omega

-- ---------------------------------------------------------------------------
-- A channel that is not heard
-- ---------------------------------------------------------------------------

theorem channelAfter_identity (ch : ControlChannel) (ds : List Delivery) :
    (channelAfter ch ds).identity = ch.identity := by
  induction ds with
  | nil => rfl
  | cons d ds ih => exact (d.what.run_spec d.now _).1.trans ih

theorem payload_base (ch : ControlChannel) (d : Delivery) :
    (d.payload ch).toBaseFields = (ch.envelope d.now).2 :=
  (d.what.run_spec d.now ch).2.2

@[simp] theorem payload_epoch (ch : ControlChannel) (d : Delivery) :
    (d.payload ch).connectionEpoch = ch.identity.connectionEpoch := by
  rw [payload_base]
  rfl

@[simp] theorem payload_seq (ch : ControlChannel) (d : Delivery) :
    (d.payload ch).seq = ch.seq + 1 := by
  rw [payload_base]
  rfl

@[simp] theorem payload_vehicleId (ch : ControlChannel) (d : Delivery) :
    (d.payload ch).vehicleId = ch.identity.vehicleId := by
  rw [payload_base]
  rfl

theorem commandOf_data {payload cmd : ControlCommand}
    (h : commandOf vehicle (.data payload) = some cmd) : cmd = payload :=
  (decodeCommand_eq_some.mp (Option.filter_eq_some_iff.mp h).1).1

variable (vehicle) in
theorem step_stale {a : Agent} {r : Edge.Reading} {payload : ControlCommand}
    (h : payload.connectionEpoch < a.state.lastAcceptedEpoch) :
    Edge.step vehicle a ⟨r, .data payload⟩ = (a, []) := by
  rw [step_data]
  cases hc : commandOf vehicle (.data payload) with
  | none => rfl
  | some cmd =>
    obtain rfl := commandOf_data hc
    have hdrop : dedupe cmd.connectionEpoch cmd.seq a.state = (a.state, false) := by
      simp [dedupe, h]
    simp only [handleCommand_eq, hdrop, Bool.false_eq_true, if_false]

/-- What a channel with an older epoch sends leaves the edge as it is. -/
theorem state_of_stale {ch : ControlChannel} {es : List Stamped}
    (h : ch.identity.connectionEpoch <
      ((agent vehicle sessionId).state ((agent vehicle sessionId).log es)).state.lastAcceptedEpoch)
    (ds : List Delivery) :
    (agent vehicle sessionId).state ((agent vehicle sessionId).log (arrivals ch ds ++ es)) =
      (agent vehicle sessionId).state ((agent vehicle sessionId).log es) := by
  induction ds with
  | nil => rfl
  | cons d ds ih =>
    rw [arrivals, List.cons_append, System.log_cons, System.state_cons, System.react_after, ih]
    refine congrArg Prod.fst (step_stale vehicle ?_)
    rwa [payload_epoch, channelAfter_identity]

-- ---------------------------------------------------------------------------
-- A channel that is heard
-- ---------------------------------------------------------------------------

/-- Nothing the edge has heard lies above the channel, but for the numbers up to `m`. -/
def Within (m : Nat) (ch : ControlChannel) (a : Agent) : Prop :=
  a.state.mark ≤ toLex (ch.identity.connectionEpoch, max ch.seq m)

/-- The channel's next message lies above everything the edge has heard. -/
def Ahead (ch : ControlChannel) (a : Agent) : Prop :=
  a.state.mark ≤ toLex (ch.identity.connectionEpoch, ch.seq)

theorem Within.ahead {m : Nat} {ch : ControlChannel} {a : Agent} (h : Within m ch a)
    (hm : m ≤ ch.seq) : Ahead ch a := by
  unfold Within at h
  rwa [max_eq_left hm] at h

theorem Ahead.within {ch : ControlChannel} {a : Agent} (h : Ahead ch a) : Within 0 ch a := by
  unfold Within
  rwa [Nat.max_zero]

theorem Within.step {m : Nat} {ch : ControlChannel} {a : Agent} (h : Within m ch a)
    (d : Delivery) :
    Within m (d.what.run d.now ch).1 (Edge.step vehicle a (arrival ch d)).1 := by
  obtain ⟨hidentity, hseq, -⟩ := d.what.run_spec d.now ch
  have hle : a.state.mark ≤ toLex (ch.identity.connectionEpoch, max (ch.seq + 1) m) :=
    h.trans (Prod.Lex.toLex_le_toLex.mpr (.inr ⟨rfl, max_le_max_right m (Nat.le_succ _)⟩))
  unfold Within
  rw [hidentity, hseq, step_mark]
  cases hc : commandOf vehicle (arrival ch d).event with
  | none => exact hle
  | some cmd =>
    obtain rfl := commandOf_data hc
    refine max_le hle ?_
    rw [markOf, payload_epoch, payload_seq]
    exact Prod.Lex.toLex_le_toLex.mpr (.inr ⟨rfl, le_max_left _ _⟩)

theorem Within.arrivals {m : Nat} {ch : ControlChannel} {es : List Stamped}
    (h : Within m ch ((agent vehicle sessionId).state ((agent vehicle sessionId).log es)))
    (ds : List Delivery) :
    Within m (channelAfter ch ds)
      ((agent vehicle sessionId).state ((agent vehicle sessionId).log (arrivals ch ds ++ es))) := by
  induction ds with
  | nil => exact h
  | cons d ds ih => exact ih.step d

theorem channelAfter_seq (ch : ControlChannel) (ds : List Delivery) :
    (channelAfter ch ds).seq = ch.seq + ds.length := by
  induction ds with
  | nil => rfl
  | cons d ds ih => rw [channelAfter, (d.what.run_spec d.now _).2.1, ih, List.length_cons]; omega

/-- What the edge does with a message of a channel that is ahead. -/
theorem Ahead.dispatch {ch : ControlChannel} {a : Agent} {d : Delivery} (h : Ahead ch a)
    (hbody : (d.payload ch).body.accepted = true) :
    ∃ b : Agent, b.state.safeMode = a.state.safeMode ∧
      b.state.lastHeartbeatAt = a.state.lastHeartbeatAt ∧
      Edge.step ch.identity.vehicleId a (arrival ch d) =
        Edge.dispatch ch.identity.vehicleId d.clock (d.payload ch) b := by
  have hbase : (d.payload ch).toBaseFields.accepted = true := by
    rw [payload_base]
    exact ch.envelope_accepted d.now
  have hcommand : commandOf ch.identity.vehicleId (.data (d.payload ch)) = some (d.payload ch) := by
    simp [commandOf, decodeCommand_eq_some.mpr ⟨rfl, hbase, hbody⟩, Option.filter]
  have hfresh : (dedupe (d.payload ch).connectionEpoch (d.payload ch).seq a.state).2 = true := by
    rw [dedupe_fresh, payload_epoch, payload_seq]
    exact ⟨Nat.succ_pos _, h.trans_lt (Prod.Lex.toLex_lt_toLex.mpr (.inr ⟨rfl, Nat.lt_succ_self _⟩))⟩
  refine ⟨{ a with state := (dedupe (d.payload ch).connectionEpoch (d.payload ch).seq a.state).1 },
    dedupe_safeMode _ _ _, dedupe_lastHeartbeatAt _ _ _, ?_⟩
  rw [arrival, step_data, hcommand]
  simp only [handleCommand_eq, hfresh, if_true]

theorem resumeControl_confirmed (r : Edge.Reading) (a : Agent)
    (h : a.state.lastHeartbeatAt = r.nowMs) :
    (resumeControl vehicle r "operator_confirmed" a).1.state.safeMode = false := by
  simp only [resumeControl, bne_self_eq_false, Bool.false_eq_true, if_false, h, sub_self]
  split
  next hstale => exact absurd hstale (by decide)
  next =>
    split
    next hsafe => exact (leaveSafeMode_spec vehicle r a hsafe).1
    next hsafe => simpa using hsafe

theorem clocked_arrivals {start : Int} {ch : ControlChannel} {es : List Stamped}
    (h : Always (Clocked start) ((agent vehicle sessionId).log es)) {ds : List Delivery}
    (hds : ∀ d ∈ ds, d.clock.nowMs = nowMs start ((agent vehicle sessionId).log es)) :
    Always (Clocked start) ((agent vehicle sessionId).log (arrivals ch ds ++ es)) ∧
      nowMs start ((agent vehicle sessionId).log (arrivals ch ds ++ es)) =
        nowMs start ((agent vehicle sessionId).log es) := by
  induction ds with
  | nil => exact ⟨h, rfl⟩
  | cons d ds ih =>
    obtain ⟨hclocked, hnow⟩ := ih fun d' hd' => hds d' (List.mem_cons_of_mem _ hd')
    have hd := hds d List.mem_cons_self
    exact ⟨⟨hnow.trans_le hd.ge, hclocked⟩, hd⟩

end

-- ---------------------------------------------------------------------------
-- Control comes back
-- ---------------------------------------------------------------------------

variable (sessionId : String) (start : Int)

/-- By what it alone sends from now on, the channel can make its vehicle
execute a movement. -/
def Regains (ch : ControlChannel) (es : List Stamped) : Prop :=
  let edge := agent ch.identity.vehicleId sessionId
  ∃ (d : Delivery) (ds : List Delivery),
    Always (Clocked start) (edge.log (arrivals ch (d :: ds) ++ es)) ∧
      executesMovement (edge.step (edge.state (edge.log (arrivals ch ds ++ es)))
        (arrival (channelAfter ch ds) d)).2 = true

private def someInstant : Instant := ⟨0, "2026-05-23T09:15:00.000Z", by decide⟩

/-- A heartbeat, a confirmed resume and a movement after it take control, if
the channel is ahead. -/
theorem Ahead.takes {ch : ControlChannel} {a : Agent} (h : Ahead ch a) (r : Edge.Reading) :
    let beat : Delivery := ⟨r, someInstant, .heartbeat⟩
    let resume : Delivery := ⟨r, someInstant, .resume⟩
    let move : Delivery := ⟨r, someInstant, .movement .zero⟩
    let a₁ := (Edge.step ch.identity.vehicleId a (arrival ch beat)).1
    let a₂ := (Edge.step ch.identity.vehicleId a₁ (arrival (channelAfter ch [beat]) resume)).1
    executesMovement
      (Edge.step ch.identity.vehicleId a₂ (arrival (channelAfter ch [resume, beat]) move)).2 = true := by
  intro beat resume move a₁ a₂
  have hid₁ : (channelAfter ch [beat]).identity = ch.identity := channelAfter_identity ch [beat]
  have hid₂ : (channelAfter ch [resume, beat]).identity = ch.identity :=
    channelAfter_identity ch [resume, beat]
  have h₁ : Ahead (channelAfter ch [beat]) a₁ := (h.within.step beat).ahead (Nat.zero_le _)
  have h₂ : Ahead (channelAfter ch [resume, beat]) a₂ :=
    (h₁.within.step resume).ahead (Nat.zero_le _)
  have hbeat : a₁.state.lastHeartbeatAt = r.nowMs := by
    obtain ⟨b, -, -, hstep⟩ := h.dispatch (d := beat) rfl
    simp only [a₁, hstep]
    rfl
  have hresume : a₂.state.safeMode = false := by
    obtain ⟨b, -, hlast, hstep⟩ := h₁.dispatch (d := resume) rfl
    rw [hid₁] at hstep
    simp only [a₂, hstep]
    exact resumeControl_confirmed r b (hlast.trans hbeat)
  obtain ⟨b, hsafe, -, hstep⟩ :=
    h₂.dispatch (d := move) (show Axes.zero.accepted = true by decide)
  rw [hid₂] at hstep
  have hbody : (move.payload (channelAfter ch [resume, beat])).body = .movement .zero := rfl
  rw [hstep]
  simp only [Edge.dispatch, hbody, hsafe.trans hresume, Bool.false_eq_true, if_false]
  rfl

private def operator : ControlChannel :=
  .new
    { vehicleId := "rover-7", sessionId := "web-rover-7", connectionEpoch := 7,
      vehicleId_ne := by decide, sessionId_ne := by decide }

/-- A heartbeat from a browser whose clock is ahead. -/
private def aheadOfTime : List Stamped :=
  [⟨⟨2000, 0⟩, .data ⟨⟨"rover-7", "web-rover-9", 9, 1, someInstant.iso⟩, .heartbeat⟩⟩]

end Rvep.Recovery
