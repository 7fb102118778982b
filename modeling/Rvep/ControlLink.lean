import Rvep.Cockpit.ControlChannel
import Rvep.Edge.Laws

/-!
# Operators and the edge over the data channel

Any number of control channels send to one edge. Unreliable messages may be
delivered late, in any order, or not at all; the reliable ones of a session
arrive in the order they were sent. Both kinds share the sender's sequence
counter and pass the same epoch / seq filter, so a reliable message that an
unreliable one overtakes is dropped on arrival.
-/

namespace Rvep.ControlLink

open Reactive Cockpit

/-- A channel and its reliable messages in flight, oldest first. -/
structure Session where
  channel : ControlChannel
  reliable : List ControlCommand

structure State where
  sessions : List Session
  /-- Unreliable messages in flight; any of them may come next. -/
  unreliable : List ControlCommand
  edge : Edge.Agent

inductive Event where
  | openSession (identity : Identity)
  | send (session : Nat) (now : Instant) (what : Send)
  | deliverReliable (session : Nat) (clock : Edge.Reading)
  | deliverUnreliable (index : Nat) (clock : Edge.Reading)
  | loseUnreliable (index : Nat)
  | edgeTick (clock : Edge.Reading)
  | edgeConnected (clock : Edge.Reading)
  | edgeDisconnected (clock : Edge.Reading)

variable (vehicle : Edge.VehicleId)

def send (session : Nat) (now : Instant) (what : Send) (s : State) : State :=
  match s.sessions[session]? with
  | none => s
  | some sender =>
    let (channel, out) := what.run now sender.channel
    if out.reliable then
      { s with sessions := s.sessions.set session ⟨channel, sender.reliable ++ [out.payload]⟩ }
    else
      { s with
        sessions := s.sessions.set session ⟨channel, sender.reliable⟩
        unreliable := s.unreliable ++ [out.payload] }

def deliver (clock : Edge.Reading) (payload : ControlCommand) (s : State) :
    State × Option ControlCommand :=
  ({ s with edge := (Edge.onDataReceived vehicle clock payload s.edge).1 }, some payload)

/-- The output is the payload delivered in the step, if one was. -/
def step (s : State) : Event → State × Option ControlCommand
  | .openSession identity => ({ s with sessions := s.sessions ++ [⟨.new identity, []⟩] }, none)
  | .send session now what => (send session now what s, none)
  | .deliverReliable session clock =>
    match s.sessions[session]? with
    | some ⟨channel, payload :: rest⟩ =>
      deliver vehicle clock payload { s with sessions := s.sessions.set session ⟨channel, rest⟩ }
    | _ => (s, none)
  | .deliverUnreliable index clock =>
    match s.unreliable[index]? with
    | some payload =>
      deliver vehicle clock payload { s with unreliable := s.unreliable.eraseIdx index }
    | none => (s, none)
  | .loseUnreliable index => ({ s with unreliable := s.unreliable.eraseIdx index }, none)
  | .edgeTick clock => ({ s with edge := (Edge.heartbeatTick vehicle clock s.edge).1 }, none)
  | .edgeConnected clock => ({ s with edge := (Edge.onConnected vehicle clock s.edge).1 }, none)
  | .edgeDisconnected clock => ({ s with edge := (Edge.onDisconnected vehicle clock s.edge).1 }, none)

def link (edgeSession : String) : System State Event (Option ControlCommand) where
  init := { sessions := [], unreliable := [], edge := Edge.Agent.boot edgeSession }
  step := step vehicle

abbrev LinkEntry := Entry State Event (Option ControlCommand)
abbrev LinkLog := Log State Event (Option ControlCommand)

-- ---------------------------------------------------------------------------
-- What is in flight
-- ---------------------------------------------------------------------------

/-- Stamped by a channel: the schema takes its base fields, and it is numbered from 1. -/
def FromChannel (c : ControlCommand) : Prop := c.toBaseFields.accepted = true ∧ 0 < c.seq

structure InFlight (s : State) : Prop where
  reliable : ∀ x ∈ s.sessions, ∀ c ∈ x.reliable, FromChannel c
  unreliable : ∀ c ∈ s.unreliable, FromChannel c

section
variable {vehicle}

theorem fromChannel_run (now : Instant) (ch : ControlChannel) (what : Send) :
    FromChannel (what.run now ch).2.payload := by
  obtain ⟨-, -, hfields⟩ := what.run_spec now ch
  unfold FromChannel
  rw [hfields]
  exact ⟨ch.envelope_accepted now, Nat.succ_pos _⟩

theorem InFlight.send {s : State} (h : InFlight s) (session : Nat) (now : Instant) (what : Send) :
    InFlight (send session now what s) := by
  unfold ControlLink.send
  cases hs : s.sessions[session]? with
  | none => exact h
  | some sender =>
    have hq : ∀ c ∈ sender.reliable, FromChannel c := h.reliable sender (List.mem_of_getElem? hs)
    have hnew := fromChannel_run now sender.channel what
    simp only
    split
    · refine ⟨?_, h.unreliable⟩
      intro x hx c hc
      rcases List.mem_or_eq_of_mem_set hx with hx | rfl
      · exact h.reliable x hx c hc
      · rcases List.mem_append.mp hc with hc | hc
        · exact hq c hc
        · rwa [List.mem_singleton.mp hc]
    · refine ⟨?_, ?_⟩
      · intro x hx c hc
        rcases List.mem_or_eq_of_mem_set hx with hx | rfl
        · exact h.reliable x hx c hc
        · exact hq c hc
      · intro c hc
        rcases List.mem_append.mp hc with hc | hc
        · exact h.unreliable c hc
        · rwa [List.mem_singleton.mp hc]

theorem InFlight.step {s : State} (h : InFlight s) (e : Event) :
    InFlight (step vehicle s e).1 ∧ ∀ c ∈ (step vehicle s e).2, FromChannel c := by
  cases e with
  | openSession identity =>
    refine ⟨⟨?_, h.unreliable⟩, by simp [ControlLink.step]⟩
    intro x hx c hc
    rcases List.mem_append.mp hx with hx | hx
    · exact h.reliable x hx c hc
    · rw [List.mem_singleton.mp hx] at hc
      exact absurd hc List.not_mem_nil
  | send session now what => exact ⟨h.send session now what, by simp [ControlLink.step]⟩
  | deliverReliable session clock =>
    simp only [ControlLink.step]
    split
    next channel payload rest hs =>
      have hq := h.reliable _ (List.mem_of_getElem? hs)
      refine ⟨⟨?_, h.unreliable⟩, ?_⟩
      · intro x hx c hc
        rcases List.mem_or_eq_of_mem_set hx with hx | rfl
        · exact h.reliable x hx c hc
        · exact hq c (List.mem_cons_of_mem _ hc)
      · intro c hc
        obtain rfl : payload = c := Option.some.inj hc
        exact hq payload List.mem_cons_self
    next => exact ⟨h, by simp⟩
  | deliverUnreliable index clock =>
    simp only [ControlLink.step]
    split
    next payload hs =>
      refine ⟨⟨h.reliable, fun c hc => h.unreliable c (List.mem_of_mem_eraseIdx hc)⟩, ?_⟩
      intro c hc
      obtain rfl : payload = c := Option.some.inj hc
      exact h.unreliable payload (List.mem_of_getElem? hs)
    next => exact ⟨h, by simp⟩
  | loseUnreliable index =>
    exact ⟨⟨h.reliable, fun c hc => h.unreliable c (List.mem_of_mem_eraseIdx hc)⟩,
      by simp [ControlLink.step]⟩
  | edgeTick | edgeConnected | edgeDisconnected =>
    exact ⟨⟨h.reliable, h.unreliable⟩, by simp [ControlLink.step]⟩

end

-- ---------------------------------------------------------------------------
-- What the edge has heard
-- ---------------------------------------------------------------------------

/-- The command the edge hears in a payload: one that decodes and is for this vehicle. -/
def hears (payload : ControlCommand) : Option ControlCommand :=
  Edge.commandOf vehicle (.data payload)

def heard (past : LinkLog) : List ControlCommand :=
  past.filterMap fun x => x.output.bind (hears vehicle)

section
variable {vehicle}

theorem hears_eq_some {payload : ControlCommand} (hp : payload.toBaseFields.accepted = true)
    (hb : payload.body.accepted = true) (hv : payload.vehicleId = vehicle) :
    hears vehicle payload = some payload := by
  have hd : decodeCommand payload = some payload := decodeCommand_eq_some.mpr ⟨rfl, hp, hb⟩
  simp [hears, Edge.commandOf, hd, Option.filter, hv]

variable (vehicle) in
/-- A delivery runs the edge's handler; any other step runs a timer or a room
event, or leaves the edge alone. -/
theorem step_edge (s : State) (e : Event) :
    (∃ clock payload, (step vehicle s e).2 = some payload ∧
        (step vehicle s e).1.edge = (Edge.step vehicle s.edge ⟨clock, .data payload⟩).1) ∨
      (step vehicle s e).2 = none ∧ (step vehicle s e).1.edge.state.mark = s.edge.state.mark := by
  cases e with
  | openSession identity => exact .inr ⟨rfl, rfl⟩
  | loseUnreliable index => exact .inr ⟨rfl, rfl⟩
  | send session now what =>
    refine .inr ⟨rfl, ?_⟩
    simp only [step, send]
    split
    · rfl
    · split <;> rfl
  | deliverReliable session clock =>
    simp only [step]
    split
    · exact .inl ⟨clock, _, rfl, rfl⟩
    · exact .inr ⟨rfl, rfl⟩
  | deliverUnreliable index clock =>
    simp only [step]
    split
    · exact .inl ⟨clock, _, rfl, rfl⟩
    · exact .inr ⟨rfl, rfl⟩
  | edgeTick clock => exact .inr ⟨rfl, Edge.step_mark s.edge ⟨clock, .tick⟩⟩
  | edgeConnected clock => exact .inr ⟨rfl, Edge.step_mark s.edge ⟨clock, .connected⟩⟩
  | edgeDisconnected clock => exact .inr ⟨rfl, Edge.step_mark s.edge ⟨clock, .disconnected⟩⟩

variable (vehicle) in
/-- The edge's watermark is the highest mark it has heard, and what is in
flight comes from channels. -/
structure Tracks (past : LinkLog) (s : State) : Prop where
  inFlight : InFlight s
  mark : s.edge.state.mark =
    Watermark.highest (toLex (0, 0)) ((heard vehicle past).map Edge.markOf)

theorem tracks_boot (edgeSession : String) :
    Tracks vehicle [] (link vehicle edgeSession).init where
  inFlight := ⟨by simp [link], by simp [link]⟩
  mark := rfl

theorem Tracks.step {past : LinkLog} {s : State} (h : Tracks vehicle past s)
    (edgeSession : String) (e : Event) :
    let x := (link vehicle edgeSession).react s e
    Tracks vehicle (x :: past) x.after := by
  intro x
  refine ⟨(h.inFlight.step e).1, ?_⟩
  have hheard : heard vehicle (x :: past) =
      (x.output.bind (hears vehicle)).toList ++ heard vehicle past := by
    unfold heard
    rw [List.filterMap_cons]
    cases x.output.bind (hears vehicle) <;> rfl
  rw [hheard]
  rcases step_edge vehicle s e with ⟨clock, payload, hout, hedge⟩ | ⟨hout, hmark⟩
  · have hx : x.output = some payload := hout
    have ha : x.after.edge = _ := hedge
    rw [ha, Edge.step_mark, hx, h.mark]
    change Option.elim (hears vehicle payload) _ _ = _
    cases hc : hears vehicle payload with
    | none => simp [hc]
    | some cmd => simp [hc, max_comm]
  · have hx : x.output = none := hout
    have ha : x.after.edge.state.mark = s.edge.state.mark := hmark
    rw [ha, hx, h.mark]
    rfl

end

-- ---------------------------------------------------------------------------
-- Emergency stops
-- ---------------------------------------------------------------------------

def StopArrives (x : LinkEntry) (c : ControlCommand) : Prop :=
  x.output = some c ∧ c.body.isEmergencyStop = true ∧ c.vehicleId = vehicle

def StopHonoured (x : LinkEntry) (_ : LinkLog) : Prop :=
  ∀ c, StopArrives vehicle x c → x.after.edge.state.safeMode = true

/-- A stop that arrives at a driving edge lies above everything the edge has heard. -/
def StopNotOvertaken (x : LinkEntry) (past : LinkLog) : Prop :=
  ∀ c, StopArrives vehicle x c →
    x.before.edge.state.safeMode = true ∨ ∀ d ∈ heard vehicle past, Edge.markOf d < Edge.markOf c

theorem Tracks.stop {vehicle : Edge.VehicleId} {past : LinkLog} {s : State}
    (h : Tracks vehicle past s) (edgeSession : String) (e : Event) :
    let x := (link vehicle edgeSession).react s e
    StopHonoured vehicle x past ↔ StopNotOvertaken vehicle x past := by
  intro x
  refine forall₂_congr ?_
  rintro c ⟨hout, hstop, hv⟩
  have hc : FromChannel c := (h.inFlight.step e).2 c hout
  have hbody : c.body.accepted = true := by
    cases hb : c.body with
    | emergencyStop => rfl
    | _ => simp [hb] at hstop
  have hhears : Edge.commandOf vehicle (.data c) = some c := hears_eq_some hc.1 hbody hv
  have hzero : toLex (0, 0) < Edge.markOf c := by
    have hseq := hc.2
    rw [Edge.markOf, Prod.Lex.toLex_lt_toLex]
    simp only
    omega
  obtain ⟨clock, payload, hp, hedge⟩ | ⟨hp, -⟩ := step_edge vehicle s e
  · obtain rfl : payload = c := Option.some.inj (hp.symm.trans hout)
    have ha : x.after.edge = _ := hedge
    rw [ha, Edge.step_data, hhears]
    simp only
    rw [Edge.handleCommand_stop clock payload s.edge hstop, h.mark, Watermark.highest_lt_iff]
    simp [x, hc.2, hzero]
  · exact absurd (hp.symm.trans hout) (by simp)

/-- In a run every arriving stop is honoured exactly when none of them is
overtaken: at a driving edge, by no message with a higher epoch, nor one of
its own epoch with a higher sequence number. -/
theorem stops_honoured_iff (edgeSession : String) (es : List Event) :
    Always (StopHonoured vehicle) ((link vehicle edgeSession).log es) ↔
      Always (StopNotOvertaken vehicle) ((link vehicle edgeSession).log es) := by
  refine System.always_iff
    (fun l => Tracks vehicle l ((link vehicle edgeSession).state l))
    (tracks_boot edgeSession) ?_ es
  intro past e hinv
  exact ⟨hinv.stop edgeSession e, fun _ => hinv.step edgeSession e⟩

private def operator : Identity where
  vehicleId := "vehicle-001"
  sessionId := "web-1"
  connectionEpoch := 7
  vehicleId_ne := by decide
  sessionId_ne := by decide

private def instant : Instant := ⟨0, "2026-05-22T08:00:00.000Z", by decide⟩

/-- The operator starts driving, then presses stop; the heartbeat sent after
the stop arrives first. Newest first. -/
def overtakenStop : List Event :=
  [.deliverReliable 0 ⟨3010, 0⟩, .deliverUnreliable 0 ⟨3000, 0⟩,
   .send 0 instant .heartbeat, .send 0 instant .emergencyStop,
   .deliverReliable 0 ⟨2100, 0⟩, .deliverUnreliable 0 ⟨2000, 0⟩,
   .send 0 instant .resume, .send 0 instant .heartbeat,
   .openSession operator, .edgeConnected ⟨1500, 0⟩]

theorem overtaken_stop_dropped :
    ¬ Always (StopHonoured "vehicle-001") ((link "vehicle-001" "edge-1").log overtakenStop) := by
  intro h
  have hsafe := h.1 ⟨⟨"vehicle-001", "web-1", 7, 3, instant.iso⟩, .emergencyStop⟩ ⟨rfl, rfl, rfl⟩
  exact absurd hsafe (by decide)

end Rvep.ControlLink
