import Rvep.Cockpit.PageRuns
import Rvep.Edge.DeadMan
import Rvep.Lib.Components

/-!
# The dead man's switch, end to end

Any number of control pages, an edge, and a data channel between them that
loses, delays, reorders and repeats messages. Time is the edge's monotonic
clock. A movement is only ever executed shortly after a heartbeat, and a
heartbeat is only ever sent by a page that is shown.
-/

namespace Rvep.DeadManLink

open Reactive Cockpit

structure Packet where
  sentAt : Int
  payload : ControlCommand

structure State where
  /-- The operators' browser tabs. -/
  tabs : Nat → PageLife
  flight : List Packet
  edge : Edge.Agent

inductive Act where
  | page (tab : Nat) (event : PageEvent)
  /-- The message stays in flight, so that it may arrive again. -/
  | deliver (index : Nat)
  | lose (index : Nat)
  | tick
  | connected
  | disconnected

structure Timed where
  clock : Edge.Reading
  act : Act

variable (vehicle : Edge.VehicleId)

def packets (now : Int) (out : List PageEffect) : List Packet :=
  out.filterMap fun
    | .publish m => some ⟨now, m.payload⟩
    | .replace _ => none

/-- What an act is to the edge. -/
def edgeEvent (s : State) (e : Timed) : Option Edge.Stamped :=
  match e.act with
  | .page _ _ | .lose _ => none
  | .deliver index => s.flight[index]?.map fun packet => ⟨e.clock, .data packet.payload⟩
  | .tick => some ⟨e.clock, .tick⟩
  | .connected => some ⟨e.clock, .connected⟩
  | .disconnected => some ⟨e.clock, .disconnected⟩

/-- The output is what the edge does. -/
def step (s : State) (e : Timed) : State × List Edge.Effect :=
  match e.act with
  | .page tab event =>
    let (page, out) := PageLife.step (s.tabs tab) event
    ({ s with
        tabs := Function.update s.tabs tab page
        flight := s.flight ++ packets e.clock.nowMs out }, [])
  | .lose index => ({ s with flight := s.flight.eraseIdx index }, [])
  | .deliver _ | .tick | .connected | .disconnected =>
    match edgeEvent s e with
    | none => (s, [])
    | some event =>
      let (edge, out) := Edge.step vehicle s.edge event
      ({ s with edge := edge }, out)

def link (sessionId : String) : System State Timed (List Edge.Effect) where
  init := { tabs := fun _ => .new, flight := [], edge := Edge.Agent.boot sessionId }
  step := step vehicle

abbrev LinkEntry := Entry State Timed (List Edge.Effect)
abbrev LinkLog := Log State Timed (List Edge.Effect)

-- ---------------------------------------------------------------------------
-- The parts of the link
-- ---------------------------------------------------------------------------

theorem step_of_edgeEvent (s : State) (e : Timed) :
    (step vehicle s e).1.edge =
        (edgeEvent s e).elim s.edge (fun e' => (Edge.step vehicle s.edge e').1) ∧
      (step vehicle s e).2 = (edgeEvent s e).elim [] fun e' => (Edge.step vehicle s.edge e').2 := by
  obtain ⟨clock, act⟩ := e
  cases act with
  | page | lose | tick | connected | disconnected => exact ⟨rfl, rfl⟩
  | deliver index =>
    simp only [step]
    split
    next hnone => rw [hnone]; exact ⟨rfl, rfl⟩
    next event hsome => rw [hsome]; exact ⟨rfl, rfl⟩

def edgePart (sessionId : String) : Component (link vehicle sessionId) (Edge.agent vehicle sessionId) where
  state := State.edge
  event := edgeEvent
  init := rfl
  step s e := (step_of_edgeEvent vehicle s e).1

def pageEvent (tab : Nat) (e : Timed) : Option PageEvent :=
  match e.act with
  | .page other event => if other = tab then some event else none
  | _ => none

theorem step_tab (tab : Nat) (s : State) (e : Timed) :
    (step vehicle s e).1.tabs tab =
      (pageEvent tab e).elim (s.tabs tab) fun e' => (controlPage.step (s.tabs tab) e').1 := by
  obtain ⟨clock, act⟩ := e
  cases act with
  | lose | tick | connected | disconnected => rfl
  | deliver index =>
    simp only [step]
    split <;> rfl
  | page other event =>
    simp only [step, pageEvent]
    by_cases h : other = tab
    · subst h
      simp [controlPage]
    · simp [h, Function.update_of_ne (Ne.symm h)]

def tabPart (sessionId : String) (tab : Nat) : Component (link vehicle sessionId) controlPage where
  state s := s.tabs tab
  event _ := pageEvent tab
  init := rfl
  step := step_tab vehicle tab

-- ---------------------------------------------------------------------------
-- The environment
-- ---------------------------------------------------------------------------

def Act.isTick : Act → Bool
  | .tick => true
  | _ => false

def ms (x : LinkEntry) : Int := x.event.clock.nowMs

def nowMs (start : Int) : LinkLog → Int
  | [] => start
  | x :: _ => ms x

def lastTick (start : Int) : LinkLog → Int
  | [] => start
  | x :: past => if x.event.act.isTick then ms x else lastTick start past

def delivered (x : LinkEntry) : Option Packet :=
  match x.event.act with
  | .deliver index => x.before.flight[index]?
  | _ => none

/-- The clock does not go back, the edge's watcher ticks every 500 ms, and no
message is delivered more than `delay` after it was sent. -/
def InTime (start delay : Int) (x : LinkEntry) (past : LinkLog) : Prop :=
  nowMs start past ≤ ms x ∧ ms x ≤ lastTick start past + Edge.heartbeatCheckIntervalMs ∧
    ∀ packet ∈ delivered x, ms x ≤ packet.sentAt + delay

instance (start delay : Int) (x : LinkEntry) (past : LinkLog) :
    Decidable (InTime start delay x past) := inferInstanceAs (Decidable (_ ∧ _ ∧ _))

/-- A tab sends a heartbeat for vehicle `v`. -/
def Sends (tab : Nat) (v : String) (x : LinkEntry) : Prop :=
  ∃ e, x.event.act = .page tab e ∧ v ∈ heartbeats (controlPage.step (x.before.tabs tab) e).2

-- ---------------------------------------------------------------------------
-- The edge's part of a log
-- ---------------------------------------------------------------------------

section
variable {vehicle} {sessionId : String} {start delay : Int}

theorem edge_entry {x : LinkEntry} {y : Edge.EdgeEntry}
    (h : y ∈ (edgePart vehicle sessionId).entry x) :
    Edge.entryMs y = ms x ∧ y.event.event.isTick = x.event.act.isTick := by
  obtain ⟨e', he, rfl⟩ := Option.map_eq_some_iff.mp h
  obtain ⟨before, ⟨clock, act⟩, after, output⟩ := x
  cases act with
  | page | lose => exact absurd he nofun
  | deliver index =>
    obtain ⟨packet, -, rfl⟩ := Option.map_eq_some_iff.mp he
    exact ⟨rfl, rfl⟩
  | tick | connected | disconnected =>
    obtain rfl := Option.some.inj he
    exact ⟨rfl, rfl⟩

theorem no_tick_of_no_entry {x : LinkEntry} (h : (edgePart vehicle sessionId).entry x = none) :
    x.event.act.isTick = false := by
  have he : edgeEvent x.before x.event = none := Option.map_eq_none_iff.mp h
  obtain ⟨before, ⟨clock, act⟩, after, output⟩ := x
  cases act with
  | tick => exact absurd he nofun
  | _ => rfl

theorem edge_lastTick : ∀ l : LinkLog,
    Edge.lastTickMs start ((edgePart vehicle sessionId).trace l) = lastTick start l
  | [] => rfl
  | x :: past => by
    cases hx : (edgePart vehicle sessionId).entry x with
    | none =>
      rw [Component.trace_cons_none hx, edge_lastTick past, lastTick, no_tick_of_no_entry hx]
      rfl
    | some y =>
      obtain ⟨hms, htick⟩ := edge_entry hx
      rw [Component.trace_cons_some hx, Edge.lastTickMs, edge_lastTick past, hms, htick, lastTick]

theorem edge_nowMs : ∀ {l : LinkLog}, Always (InTime start delay) l →
    Edge.nowMs start ((edgePart vehicle sessionId).trace l) ≤ nowMs start l
  | [], _ => le_refl _
  | x :: past, h => by
    cases hx : (edgePart vehicle sessionId).entry x with
    | none =>
      rw [Component.trace_cons_none hx]
      exact (edge_nowMs h.2).trans h.1.1
    | some y =>
      rw [Component.trace_cons_some hx]
      exact (edge_entry hx).1.le

/-- An edge in a link that is in time is watched on time. -/
theorem edge_punctual : ∀ {l : LinkLog}, Always (InTime start delay) l →
    Always (fun x past => ∀ y ∈ (edgePart vehicle sessionId).entry x,
      Edge.Punctual start y ((edgePart vehicle sessionId).trace past)) l
  | [], _ => trivial
  | x :: past, ⟨hx, hpast⟩ => by
    refine ⟨?_, edge_punctual hpast⟩
    intro y hy
    obtain ⟨hms, -⟩ := edge_entry hy
    refine ⟨?_, ?_⟩
    · show Edge.nowMs start _ ≤ Edge.entryMs y
      rw [hms]
      exact (edge_nowMs hpast).trans hx.1
    · rw [hms, edge_lastTick]
      exact hx.2.1

theorem edge_covered (hs : 1000 < start) (es : List Edge.Stamped)
    (h : Always (Edge.Punctual start) ((Edge.agent vehicle sessionId).log es)) :
    Always (fun x past => Edge.executesMovement x.output = true → Edge.Covered vehicle x past)
      ((Edge.agent vehicle sessionId).log es) := by
  refine System.always_of_invariant
    (fun l => Edge.Watched vehicle start l ((Edge.agent vehicle sessionId).state l))
    (Edge.watched_boot sessionId hs) ?_ es h
  rintro past e hinv ⟨hclock, hpunctual⟩
  refine ⟨hinv.step sessionId hclock, ?_⟩
  intro hmove
  have hexec := Edge.executes_of_movement hmove
  rcases (Edge.step_spec vehicle ((Edge.agent vehicle sessionId).state past) e).change with
    ⟨-, -, -, hno⟩ | ⟨-, hno⟩ | ⟨-, -, hsafe⟩
  · exact absurd (hexec.symm.trans hno) (by decide)
  · exact absurd (hexec.symm.trans hno) (by decide)
  · obtain ⟨-, hbeat, hage⟩ := hinv.age (hsafe hexec)
    have hpast := hinv.remembers.past.trans hclock
    refine hbeat.once.imp (fun _ _ _ => trivial) ?_
    rintro z _ ⟨hz, hat⟩
    rw [hat]
    simp only [Edge.heartbeatTimeoutMs, Edge.heartbeatCheckIntervalMs] at hage hpunctual
    exact ⟨hz, by omega, hpast⟩

-- ---------------------------------------------------------------------------
-- Where the messages come from
-- ---------------------------------------------------------------------------

theorem heartbeat_of_packet {now : Int} {out : List PageEffect} {packet : Packet}
    (h : packet ∈ packets now out) (hb : packet.payload.body.isHeartbeat = true) :
    packet.sentAt = now ∧ packet.payload.vehicleId ∈ heartbeats out := by
  obtain ⟨effect, heffect, hpacket⟩ := List.mem_filterMap.mp h
  cases effect with
  | replace path => exact absurd hpacket nofun
  | publish m =>
    obtain rfl := Option.some.inj hpacket
    exact ⟨rfl, List.mem_filterMap.mpr ⟨_, heffect, if_pos hb⟩⟩

/-- Every heartbeat in flight was sent by a tab. -/
def Sourced (start : Int) (l : LinkLog) (s : State) : Prop :=
  ∀ packet ∈ s.flight, packet.payload.body.isHeartbeat = true → packet.sentAt ≤ nowMs start l ∧
    Once (fun x _ => (∃ tab, Sends tab packet.payload.vehicleId x) ∧ ms x = packet.sentAt) l

theorem Sourced.step {l : LinkLog} {s : State} (h : Sourced start l s) (e : Timed)
    (hclock : nowMs start l ≤ e.clock.nowMs) :
    Sourced start ((link vehicle sessionId).react s e :: l) ((link vehicle sessionId).react s e).after := by
  have hold (packet : Packet) (hp : packet ∈ s.flight)
      (hb : packet.payload.body.isHeartbeat = true) :
      packet.sentAt ≤ e.clock.nowMs ∧
        Once (fun x _ => (∃ tab, Sends tab packet.payload.vehicleId x) ∧ ms x = packet.sentAt)
          ((link vehicle sessionId).react s e :: l) := by
    obtain ⟨hle, honce⟩ := h packet hp hb
    exact ⟨hle.trans hclock, .inr ⟨trivial, honce⟩⟩
  obtain ⟨clock, act⟩ := e
  intro packet hp hb
  cases act with
  | page tab event =>
    rcases List.mem_append.mp hp with hp | hp
    · exact hold packet hp hb
    · obtain ⟨hat, hbeat⟩ := heartbeat_of_packet hp hb
      exact ⟨hat.le, .inl ⟨⟨tab, event, rfl, hbeat⟩, hat.symm⟩⟩
  | lose index => exact hold packet (List.mem_of_mem_eraseIdx hp) hb
  | tick | connected | disconnected => exact hold packet hp hb
  | deliver index =>
    refine hold packet ?_ hb
    revert hp
    simp only [System.react_after, link, DeadManLink.step]
    split <;> exact id

/-- A heartbeat that the edge accepts was sent by a tab, at most `delay` before. -/
theorem heard_of_beats {l : LinkLog} {x : LinkEntry} {y : Edge.EdgeEntry}
    (h : Sourced start l x.before) (hx : InTime start delay x l)
    (hy : y ∈ (edgePart vehicle sessionId).entry x) (hbeat : Edge.Beats vehicle y) :
    Once (fun w _ => (∃ tab, Sends tab vehicle w) ∧ ms x - delay ≤ ms w ∧ ms w ≤ ms x) l := by
  obtain ⟨e', he, rfl⟩ := Option.map_eq_some_iff.mp hy
  obtain ⟨before, ⟨clock, act⟩, after, output⟩ := x
  cases act with
  | page | lose => exact absurd he nofun
  | tick | connected | disconnected =>
    obtain rfl := Option.some.inj he
    exact absurd (Edge.acceptsHeartbeat_eq_false rfl) (by simpa [Edge.Beats] using hbeat)
  | deliver index =>
    obtain ⟨packet, hp, rfl⟩ := Option.map_eq_some_iff.mp he
    obtain ⟨cmd, hcmd, haccepted⟩ := (Option.any_eq_true _ _).mp hbeat
    obtain ⟨hdecode, hv⟩ := Option.filter_eq_some_iff.mp hcmd
    obtain ⟨rfl, -, -⟩ := decodeCommand_eq_some.mp hdecode
    obtain ⟨-, hb⟩ := Bool.and_eq_true_iff.mp haccepted
    obtain ⟨hle, honce⟩ := h packet (List.mem_of_getElem? hp) hb
    have htimely : clock.nowMs ≤ packet.sentAt + delay := hx.2.2 packet hp
    have hclock : nowMs start l ≤ clock.nowMs := hx.1
    refine honce.imp (fun _ _ _ => trivial) ?_
    rintro w _ ⟨⟨tab, hsends⟩, hat⟩
    rw [beq_iff_eq.mp hv] at hsends
    refine ⟨⟨tab, hsends⟩, ?_, ?_⟩ <;> simp only [ms] at hat ⊢ <;> omega

-- ---------------------------------------------------------------------------
-- No movement without a page
-- ---------------------------------------------------------------------------

theorem always_sourced (es : List Timed)
    (h : Always (InTime start delay) ((link vehicle sessionId).log es)) :
    Always (fun x past => Sourced start past x.before) ((link vehicle sessionId).log es) := by
  refine System.always_of_invariant
    (fun l => Sourced start l ((link vehicle sessionId).state l)) ?_ ?_ es h
  · intro packet hp
    exact absurd hp List.not_mem_nil
  · intro past e hinv hx
    exact ⟨hinv.step e hx.1, hinv⟩

theorem moves_entry {s : State} {e : Timed}
    (h : Edge.executesMovement ((link vehicle sessionId).react s e).output = true) :
    ∃ y ∈ (edgePart vehicle sessionId).entry ((link vehicle sessionId).react s e),
      y.output = ((link vehicle sessionId).react s e).output := by
  have hout : ((link vehicle sessionId).react s e).output = _ := (step_of_edgeEvent vehicle s e).2
  cases he : edgeEvent s e with
  | none =>
    rw [hout, he] at h
    exact absurd h nofun
  | some e' =>
    refine ⟨(Edge.agent vehicle sessionId).react s.edge e', ?_, ?_⟩
    · simp [Component.entry, edgePart, he]
    · rw [hout, he]
      rfl

/-- A tab's heartbeats come from a page that is shown and has joined its room. -/
theorem always_connected (sessionId : String) (es : List Timed) :
    Always (fun x past => ∀ tab, Sends tab vehicle x →
      ∃ i, Connected i vehicle ((tabPart vehicle sessionId tab).trace (x :: past)))
      ((link vehicle sessionId).log es) := by
  refine Always.of_forall fun tab => ?_
  refine (Component.always_of_part (c := tabPart vehicle sessionId tab) heartbeats_connected es).imp ?_
  rintro x past hx ⟨e, he, hsends⟩
  have hentry : (tabPart vehicle sessionId tab).entry x =
      some (controlPage.react (x.before.tabs tab) e) := by
    simp [Component.entry, tabPart, pageEvent, he]
  rw [Component.trace_cons_some hentry]
  exact hx _ hentry vehicle hsends

end

/-- With a clock that does not go back, a watcher that ticks every 500 ms and
a network that delivers within `delay`: whenever the vehicle executes a
movement, some tab had, at most 3500 ms plus `delay` before, sent it a
heartbeat from a page that was then shown and had joined its room. -/
theorem movement_needs_page (sessionId : String) (start delay : Int) (hs : 1000 < start)
    (es : List Timed) (h : Always (InTime start delay) ((link vehicle sessionId).log es)) :
    Always (fun x past => Edge.executesMovement x.output = true →
      Once (fun y earlier => (∃ tab i, Sends tab vehicle y ∧
          Connected i vehicle ((tabPart vehicle sessionId tab).trace (y :: earlier))) ∧
        ms x - 3500 - delay ≤ ms y ∧ ms y ≤ ms x) past)
      ((link vehicle sessionId).log es) := by
  have hcovered := Component.always_of_part_ok (c := edgePart vehicle sessionId)
    (edge_covered hs) es (edge_punctual h)
  have hfacts := (h.and (always_sourced es h)).and (always_connected sessionId es)
  have hmoves : Always (fun x _ => Edge.executesMovement x.output = true →
      ∃ y ∈ (edgePart vehicle sessionId).entry x, y.output = x.output)
      ((link vehicle sessionId).log es) := System.always_react (fun _ _ => moves_entry) es
  refine ((hcovered.and hmoves).and hfacts.before).imp ?_
  rintro x past ⟨⟨hcov, hmove⟩, hpast⟩ hexec
  obtain ⟨y, hy, hout⟩ := hmove hexec
  have hyms := (edge_entry hy).1
  have hbeat := Component.once_trace.mp (hcov y hy (by rw [hout]; exact hexec))
  -- the heartbeat that covers the movement was heard in one step and sent in an earlier one
  have hsent : Once (fun w _ => (∃ tab, Sends tab vehicle w) ∧
      ms x - 3500 - delay ≤ ms w ∧ ms w ≤ ms x) past := by
    refine Once.flatten ((hbeat.and_always hpast).imp (fun _ _ _ => trivial) ?_)
    rintro w earlier ⟨⟨z, hz, hb, hlow, hhigh⟩, ⟨htime, hsourced⟩, -⟩
    have hzms := (edge_entry hz).1
    refine (heard_of_beats hsourced htime hz hb).imp (fun _ _ _ => trivial) ?_
    rintro v _ ⟨hsends, hv⟩
    exact ⟨hsends, by omega, by omega⟩
  refine (hsent.and_always hpast).imp (fun _ _ _ => trivial) ?_
  rintro w earlier ⟨⟨⟨tab, hsends⟩, hw⟩, -, hconnected⟩
  obtain ⟨i, hi⟩ := hconnected tab hsends
  exact ⟨⟨tab, i, hsends, hi⟩, hw⟩

private def joinAt : JoinClock := ⟨1700, 1700, 1700, "2026-05-24T10:30:00.000Z", by decide⟩

/-- A page opens, joins its room, resumes control and drives. Newest first. -/
def drive : List Timed :=
  let instant := joinAt.heartbeat
  [⟨⟨2200, 0⟩, .deliver 2⟩, ⟨⟨2150, 0⟩, .page 0 (.press (.movement ⟨1, 0, 0⟩) instant)⟩,
   ⟨⟨2100, 0⟩, .deliver 1⟩, ⟨⟨2050, 0⟩, .page 0 (.press .resume instant)⟩,
   ⟨⟨2010, 0⟩, .deliver 0⟩,
   ⟨⟨2000, 0⟩, .page 0 (.connectSettled 0 (.ok ()) joinAt)⟩,
   ⟨⟨1950, 0⟩, .page 0 (.tokenSettled 0 (.ok ()))⟩,
   ⟨⟨1900, 0⟩, .page 0 (.mount "vehicle-001")⟩]

theorem movement_needs_page_drive :
    ∃ x past, (link "vehicle-001" "edge-1").log drive = x :: past ∧
      Edge.executesMovement x.output = true ∧
      Once (fun y earlier => (∃ tab i, Sends tab "vehicle-001" y ∧
          Connected i "vehicle-001" ((tabPart "vehicle-001" "edge-1" tab).trace (y :: earlier))) ∧
        ms x - 3500 - 100 ≤ ms y ∧ ms y ≤ ms x) past :=
  ⟨_, _, rfl, by decide,
    (movement_needs_page "vehicle-001" "edge-1" 1800 100 (by decide) drive (by decide)).1 (by decide)⟩

end Rvep.DeadManLink
