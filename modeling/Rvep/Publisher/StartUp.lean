import Rvep.Publisher.GoProtocol
import Rvep.Publisher.Laws

/-!
# The publisher starts up

The manager together with the processes it spawns, each of which follows
`runIPCMode` of `apps/edge-publisher-go/cmd/publisher/main.go`. The watchdog is
armed when `start` is sent, and the first heartbeat follows a pipeline start, a
LiveKit connect and a tick later.
-/

namespace Rvep.Publisher

open Reactive

-- ---------------------------------------------------------------------------
-- Processes
-- ---------------------------------------------------------------------------

/-- The interval of `HeartbeatLoop`. -/
def HEARTBEAT_INTERVAL_MS : Nat := 1000

/-- How far `runIPCMode` has got. -/
inductive Phase
  | dialling
  | waitingForStart
  | startingPipeline
  | connecting
  /-- The ticker runs since then; no heartbeat was sent. -/
  | ticking (since : Nat)
  /-- The last heartbeat was sent then. -/
  | publishing (last : Nat)
  | gone
  deriving DecidableEq, Repr

/-- From waiting for `start` until the first heartbeat. -/
def Phase.startsUp : Phase → Bool
  | .waitingForStart | .startingPipeline | .connecting | .ticking _ => true
  | .dialling | .publishing _ | .gone => false

/-- A process, its end of the socket and its messages so far. -/
structure Process where
  phase : Phase
  socket : Nat
  seq : Int64

/-- The manager, its processes by number, and what is in flight on each socket,
oldest first. -/
structure World where
  manager : Manager
  processes : Nat → Process
  toAgent : Nat → List Line
  toPublisher : Nat → List AgentMessage

inductive Happening
  /-- A callback of the manager with no socket behind it that a process dials or writes to. -/
  | agent (event : Event)
  /-- Steps 4 and 5: a process dials and sends its hello. -/
  | dial (child : Nat) (now cameraID platformID version : String) (pid : Int64)
  /-- The manager reads the next line of a socket. -/
  | deliver (socket : Nat)
  /-- Step 6, or a stop read meanwhile. -/
  | receive (child : Nat)
  /-- Step 7. -/
  | pipelineStarted (child : Nat)
  /-- Step 8. -/
  | connected (child : Nat)
  /-- The ticker of step 10. -/
  | tick (child : Nat) (now : String) (metrics : Go.HeartbeatMetrics)

structure StampedHappening where
  event : Happening
  clock : Clock

def Event.ofSocket : Event → Bool
  | .connect | .line .. => true
  | _ => false

namespace World

def set (child : Nat) (p : Process) (w : World) : World :=
  { w with processes := fun n => if n = child then p else w.processes n }

def enter (child : Nat) (phase : Phase) (w : World) : World :=
  w.set child { w.processes child with phase := phase }

/-- Process `child` sends a message, its `seq`-th. -/
def write (child : Nat) (sent : Go.Sent) (w : World) : World :=
  let p := w.processes child
  { w with toAgent := fun n =>
      if n = p.socket then w.toAgent n ++ [.json sent.toJson] else w.toAgent n }

/-- The callback that runs in the manager. -/
def callback (w : World) : Happening → Option Event
  | .agent event => if event.ofSocket then none else some event
  | .dial child .. =>
    if (w.processes child).phase = .dialling ∧ w.manager.server then some .connect else none
  | .deliver socket => (w.toAgent socket).head?.map fun line => .line socket (some line)
  | _ => none

/-- What happens outside the manager. -/
def proceed (now : Nat) (w : World) : Happening → World
  | .agent (.childExit child _ _) => w.enter child .gone
  | .agent _ => w
  | .dial child ts cameraID platformID version pid =>
    if (w.processes child).phase = .dialling ∧ w.manager.server then
      (w.set child ⟨.waitingForStart, w.manager.node.accepted, 1⟩).write child
        (.hello (Go.newHello ts 1 cameraID platformID version pid))
    else w
  | .deliver socket =>
    { w with toAgent := fun n => if n = socket then (w.toAgent n).tail else w.toAgent n }
  | .receive child =>
    let p := w.processes child
    let read : World :=
      { w with toPublisher := fun n => if n = p.socket then (w.toPublisher n).tail else w.toPublisher n }
    match p.phase, (w.toPublisher p.socket).head? with
    | .waitingForStart, some msg => if msg.body.isStart then read.enter child .startingPipeline else read
    | _, _ => w
  | .pipelineStarted child =>
    if (w.processes child).phase = .startingPipeline then w.enter child .connecting else w
  | .connected child =>
    if (w.processes child).phase = .connecting then w.enter child (.ticking now) else w
  | .tick child ts metrics =>
    let p := w.processes child
    let beat : World :=
      (w.set child { p with phase := .publishing now, seq := p.seq + 1 }).write child
        (.heartbeat (Go.newHeartbeat ts (p.seq + 1) (Go.publisherState .publishing) metrics))
    match p.phase with
    | .ticking since => if since + HEARTBEAT_INTERVAL_MS ≤ now then beat else w
    | .publishing last => if last + HEARTBEAT_INTERVAL_MS ≤ now then beat else w
    | _ => w

/-- What the manager does to the processes and the sockets. -/
def carry (w : World) : Effect → World
  | .spawn child .. => if child ∈ w.manager.node.live then w.set child ⟨.dialling, 0, 0⟩ else w
  | .kill child => w.enter child .gone
  | .send socket msg =>
    { w with toPublisher := fun n =>
        if n = socket then w.toPublisher n ++ [msg] else w.toPublisher n }
  | _ => w

def step (cfg : Config) (w : World) (x : StampedHappening) : World × List Effect :=
  let w' := w.proceed x.clock.dateNow x.event
  match w.callback x.event with
  | none => (w', [])
  | some event =>
    let (manager, out) := Publisher.step cfg w.manager ⟨event, x.clock⟩
    (out.foldl carry { w' with manager := manager }, out)

end World

def launch (cfg : Config) : System World StampedHappening (List Effect) where
  init :=
    { manager := Manager.init, processes := fun _ => ⟨.gone, 0, 0⟩, toAgent := fun _ => []
      toPublisher := fun _ => [] }
  step := World.step cfg

abbrev LaunchEntry := Entry World StampedHappening (List Effect)
abbrev LaunchLog := Log World StampedHappening (List Effect)

-- ---------------------------------------------------------------------------
-- The watchdog and the clock
-- ---------------------------------------------------------------------------

def Line.isHeartbeat (line : Line) : Bool :=
  match parsePublisherMessage line with
  | .ok (.heartbeat _) => true
  | _ => false

/-- The callback winds the watchdog up again: `start` is sent, or a heartbeat read. -/
def rewinds (m : Manager) : Event → Bool
  | .minted _ => decide (0 < m.node.mints)
  | .line socket (some line) => decide (socket < m.node.accepted) && line.isHeartbeat
  | _ => false

/-- When an entry wound the watchdog up. -/
def rewound (x : LaunchEntry) : List Nat :=
  match x.before.callback x.event.event with
  | some event => if rewinds x.before.manager event then [x.event.clock.dateNow] else []
  | none => []

/-- The watchdog never kills a process that is starting up. -/
def SparesStartUp (x : LaunchEntry) : Prop :=
  x.event.event = .agent .watchdog → ∀ child, .kill child ∈ x.output →
    (x.before.processes child).phase.startsUp = false

/-- Whenever the watchdog runs while the publisher is starting up, `start` was
sent, or a heartbeat last read, no longer ago than the timeout. -/
def StartsInTime (x : LaunchEntry) (past : LaunchLog) : Prop :=
  x.event.event = .agent .watchdog → x.before.manager.heartbeatTimer = true →
    x.before.manager.state = .running → ∀ child, x.before.manager.child = some child →
      (x.before.processes child).phase.startsUp = true → ∀ since, latest rewound past = some since →
        since ≠ 0 → x.event.clock.dateNow ≤ since + HEARTBEAT_TIMEOUT_MS

-- ---------------------------------------------------------------------------
-- What a callback does to it
-- ---------------------------------------------------------------------------

section
variable {cfg : Config} {m : Manager} {c : Clock} {e : Event}

/-- Running after the callback, the manager ran before it and the watchdog is as it was. -/
def LeavesRunning (m n : Manager) : Prop :=
  n.state = .running → m.state = .running ∧ n.lastHeartbeatTs = m.lastHeartbeatTs

theorem LeavesRunning.same (m : Manager) : LeavesRunning m m := fun h => ⟨h, rfl⟩

theorem LeavesRunning.halted {n : Manager} (h : n.state ≠ .running) : LeavesRunning m n :=
  fun hn => absurd hn h

theorem leavesRunning_spawnPublisher (spawned : Bool) :
    LeavesRunning m (spawnPublisher cfg spawned m).1 := by
  unfold spawnPublisher
  split
  · exact .same m
  · exact .halted (by simp)

theorem leavesRunning_onExit (child : Nat) (code : Option Int) (signal : Option String) :
    LeavesRunning m (onExit child code signal m).1 := by
  intro h
  by_cases hc : child ∈ m.node.stops <;> cases hs : m.stopRequested <;>
    by_cases hf : MAX_RESTART_ATTEMPTS < m.consecutiveFailures + 1 <;>
    simp_all [onExit, onChildExit, stopHeartbeatWatcher, finishStop, closeServer]

theorem state_handleIncomingLine (line : Line) :
    (handleIncomingLine cfg c line m).1.state = m.state ∧
      (handleIncomingLine cfg c line m).1.lastHeartbeatTs =
        if line.isHeartbeat then c.dateNow else m.lastHeartbeatTs := by
  unfold handleIncomingLine Line.isHeartbeat
  cases parsePublisherMessage line with
  | error err => exact ⟨rfl, rfl⟩
  | ok msg =>
    cases msg with
    | hello msg | heartbeat msg => exact ⟨rfl, rfl⟩
    | error msg =>
      simp only [onPublisherError]
      split <;> exact ⟨rfl, rfl⟩

/-- A callback winds the watchdog up, or none but those that do start the manager running. -/
theorem step_rewinds (cfg : Config) (m : Manager) (e : Stamped) :
    (rewinds m e.event = true ∧ (step cfg m e).1.lastHeartbeatTs = e.clock.dateNow) ∨
    (rewinds m e.event = false ∧ LeavesRunning m (step cfg m e).1) := by
  cases he : e.event <;> simp only [rewinds, step, he]
  case minted token =>
    split
    next h => exact .inl ⟨decide_eq_true h, by simp [onTokenMinted, startHeartbeatWatcher]⟩
    next h => exact .inr ⟨decide_eq_false h, .same m⟩
  case line socket line =>
    cases line with
    | none => exact .inr ⟨rfl, .same m⟩
    | some line =>
      obtain ⟨hstate, hlast⟩ := @state_handleIncomingLine cfg m e.clock line
      by_cases hs : socket < m.node.accepted
      · simp only [hs, decide_true, Bool.true_and, if_true]
        rcases Bool.eq_false_or_eq_true line.isHeartbeat with hbeat | hbeat
        · rw [hbeat, if_pos rfl] at hlast
          exact .inl ⟨hbeat, hlast⟩
        · rw [hbeat, if_neg Bool.false_ne_true] at hlast
          exact .inr ⟨hbeat, fun h => ⟨hstate ▸ h, hlast⟩⟩
      · simp only [hs, decide_false, Bool.false_and, if_false]
        exact .inr ⟨trivial, .same m⟩
  all_goals right; refine ⟨trivial, ?_⟩
  case listening spawned =>
    split
    · exact leavesRunning_spawnPublisher spawned
    · exact .same m
  case stop =>
    refine .halted ?_
    obtain ⟨state, server, stops, pending, hstate, -, heq⟩ := stop_supervision e.clock m
    have heq : (stop e.clock m).1.state = state := congrArg Supervision.state heq
    rw [heq]
    rcases hstate with rfl | rfl <;> simp
  case childExit child code signal =>
    split
    · exact leavesRunning_onExit child code signal
    · exact .same m
  case restartTimeout timer spawned =>
    split
    · simp only [onRestartTimeout]
      split
      · exact .same m
      · exact leavesRunning_spawnPublisher spawned
    · exact .same m
  case connect =>
    split
    · exact .halted (by simp [onPublisherConnected])
    · exact .same m
  case stopTimeout child =>
    split
    · exact .halted (by simp [finishStop])
    · exact .same m
  case watchdog =>
    split
    · rw [show (checkHeartbeat e.clock m).1 = m from ?_]
      · exact .same m
      · unfold checkHeartbeat
        split_ifs <;> rfl
    · exact .same m
  case mkdirFails | serverError =>
    unfold rejectStart
    split <;> exact .same m
  case socketDestroyed | socketClose | socketError | mintFails =>
    split <;> exact .same m
  case writeError | childError => exact .same m

theorem kill_mem_killChild {child : Nat} : .kill child ∈ killChild m ↔ m.child = some child := by
  cases hc : m.child with
  | none => simp [killChild, hc]
  | some child' => simp [killChild, hc, eq_comm]

theorem kill_mem_watchdog {child : Nat} :
    .kill child ∈ (step cfg m ⟨.watchdog, c⟩).2 ↔
      m.heartbeatTimer = true ∧ m.state = .running ∧ m.lastHeartbeatTs ≠ 0 ∧
        HEARTBEAT_TIMEOUT_MS < c.dateNow - m.lastHeartbeatTs ∧ m.child = some child := by
  simp only [step, checkHeartbeat]
  split_ifs with ht hs hl hlate
  · exact iff_of_false List.not_mem_nil fun h => hs h.2.1
  · exact iff_of_false List.not_mem_nil fun h => h.2.2.1 hl
  · rw [kill_mem_killChild]
    exact ⟨fun hc => ⟨ht, not_not.mp hs, hl, hlate, hc⟩, fun h => h.2.2.2.2⟩
  · exact iff_of_false List.not_mem_nil fun h => hlate h.2.2.2.1
  · exact iff_of_false List.not_mem_nil fun h => ht h.1

end

-- ---------------------------------------------------------------------------
-- The processes around the manager
-- ---------------------------------------------------------------------------

section
variable {cfg : Config} {w : World}

theorem manager_proceed (now : Nat) (w : World) (e : Happening) :
    (w.proceed now e).manager = w.manager := by
  cases e <;> simp only [World.proceed]
  case agent event => cases event <;> rfl
  all_goals repeat' split
  all_goals rfl

theorem manager_carry (w : World) (x : Effect) : (w.carry x).manager = w.manager := by
  cases x <;> simp only [World.carry]
  case spawn => split <;> rfl
  all_goals rfl

theorem manager_foldl_carry (w : World) (out : List Effect) :
    (out.foldl World.carry w).manager = w.manager := by
  induction out generalizing w with
  | nil => rfl
  | cons x out ih => rw [List.foldl_cons, ih, manager_carry]

theorem launch_step_of_callback {x : StampedHappening} {event : Event}
    (h : w.callback x.event = some event) :
    (w.step cfg x).1.manager = (step cfg w.manager ⟨event, x.clock⟩).1 ∧
      (w.step cfg x).2 = (step cfg w.manager ⟨event, x.clock⟩).2 := by
  rw [World.step, h]
  exact ⟨manager_foldl_carry _ _, rfl⟩

theorem launch_step_of_none {x : StampedHappening} (h : w.callback x.event = none) :
    (w.step cfg x).1.manager = w.manager ∧ (w.step cfg x).2 = [] := by
  rw [World.step, h]
  exact ⟨manager_proceed _ _ _, rfl⟩

/-- While the manager runs, the watchdog goes by the latest time it was wound up. -/
def Wound (l : LaunchLog) (m : Manager) : Prop :=
  m.state = .running → latest rewound l = some m.lastHeartbeatTs

theorem rewound_of_callback {x : LaunchEntry} {event : Event}
    (h : x.before.callback x.event.event = some event) :
    rewound x = if rewinds x.before.manager event then [x.event.clock.dateNow] else [] := by
  rw [rewound, h]

theorem Wound.step {past : LaunchLog} (h : Wound past w.manager) (x : StampedHappening) :
    Wound ((launch cfg).react w x :: past) ((launch cfg).react w x).after.manager := by
  intro hrun
  cases hc : w.callback x.event with
  | none =>
    have hmanager : ((launch cfg).react w x).after.manager = w.manager := (launch_step_of_none hc).1
    rw [hmanager] at hrun ⊢
    rw [latest_cons_of_nil (by simp only [rewound, System.react, hc])]
    exact h hrun
  | some event =>
    have hmanager : ((launch cfg).react w x).after.manager =
        (Publisher.step cfg w.manager ⟨event, x.clock⟩).1 := (launch_step_of_callback hc).1
    rw [hmanager] at hrun ⊢
    rcases step_rewinds cfg w.manager ⟨event, x.clock⟩ with ⟨hrewinds, hlast⟩ | ⟨hrewinds, hleaves⟩
    · refine latest_cons_of_getLast ?_
      rw [rewound_of_callback (by exact hc), if_pos (by exact hrewinds), hlast]
      rfl
    · obtain ⟨hbefore, hlast⟩ := hleaves hrun
      rw [latest_cons_of_nil, hlast]
      · exact h hbefore
      · rw [rewound_of_callback (by exact hc), if_neg (by exact Bool.eq_false_iff.mp hrewinds)]

theorem sparesStartUp_iff {past : LaunchLog} (h : Wound past w.manager) (x : StampedHappening) :
    SparesStartUp ((launch cfg).react w x) ↔ StartsInTime ((launch cfg).react w x) past := by
  refine forall_congr' fun hwatch => ?_
  have hwatch : x.event = .agent .watchdog := hwatch
  have hc : w.callback x.event = some .watchdog := by rw [hwatch]; rfl
  have hout : ((launch cfg).react w x).output = (step cfg w.manager ⟨.watchdog, x.clock⟩).2 :=
    (launch_step_of_callback hc).2
  rw [hout]
  simp only [kill_mem_watchdog]
  constructor
  · intro hspares htimer hrun child hchild hstarts since hsince hne
    obtain rfl : since = w.manager.lastHeartbeatTs := Option.some.inj (hsince.symm.trans (h hrun))
    by_contra hlate
    have hover : HEARTBEAT_TIMEOUT_MS < x.clock.dateNow - w.manager.lastHeartbeatTs :=
      Nat.lt_sub_of_add_lt (Nat.add_comm _ _ ▸ not_le.mp hlate)
    have hspared := hspares child ⟨htimer, hrun, hne, hover, hchild⟩
    exact absurd (hspared.symm.trans hstarts) Bool.false_ne_true
  · rintro hintime child ⟨htimer, hrun, hne, hover, hchild⟩
    by_contra hstarts
    have hle := hintime htimer hrun child hchild (Bool.eq_true_of_not_eq_false hstarts) _ (h hrun) hne
    have hle : x.clock.dateNow ≤ w.manager.lastHeartbeatTs + HEARTBEAT_TIMEOUT_MS := hle
    omega

end

/-- The watchdog spares every publisher that starts up in exactly those runs in
which it never runs during a start-up later than its timeout after `start`. -/
theorem spares_start_up_iff (cfg : Config) (es : List StampedHappening) :
    Always (fun x _ => SparesStartUp x) ((launch cfg).log es) ↔
      Always StartsInTime ((launch cfg).log es) := by
  refine System.always_iff
    (fun l => Wound l ((launch cfg).state l).manager) ?_ ?_ es
  · intro h
    cases h
  · intro past x hwound
    exact ⟨sparesStartUp_iff hwound x, fun _ => hwound.step x⟩

private def at10hPlus (ms : Nat) (event : Happening) : StampedHappening where
  event := event
  clock := { dateNow := 1779012000000 + ms, iso := ⟨"2026-05-17T10:00:00.040Z", by decide⟩ }

/-- A LiveKit connect that takes two seconds, after a pipeline start that took
one and a half. Newest first. -/
def slowConnect : List StampedHappening :=
  [ at10hPlus 3540 (.agent .watchdog),
    at10hPlus 3040 (.agent .watchdog),
    at10hPlus 1550 (.pipelineStarted 0),
    at10hPlus 50 (.receive 0),
    at10hPlus 40 (.agent (.minted "token")),
    at10hPlus 30 (.deliver 0),
    at10hPlus 20 (.dial 0 "2026-05-17T10:00:00.020Z" "front" "jetson-agx-orin" "0.1.0" 4242),
    at10hPlus 10 (.agent (.listening true)) ]

theorem slow_connect_killed :
    ¬ Always (fun x _ => SparesStartUp x) ((launch frontCamera).log slowConnect) := by
  intro h
  have hspared := h.1 rfl 0 (by decide +kernel)
  exact absurd hspared (by decide +kernel)

end Rvep.Publisher
