import Rvep.Publisher.Manager

/-!
# What a callback of the publisher manager can do

Most callbacks leave the supervision alone. Each of the others is described
once, and the results about runs cite these descriptions.
-/

namespace Rvep.Publisher

open Reactive

variable {cfg : Config} {c : Clock} {m n : Manager} {e : Stamped}

@[simp] theorem setState_fst (s : ManagerState) (m : Manager) :
    (setState s m).1 = { m with state := s } := by
  unfold setState
  split
  next h => cases m; cases h; rfl
  next => rfl

theorem mem_setState {s : ManagerState} {x : Effect} (h : x ∈ (setState s m).2) :
    x = .stateChange s := by
  unfold setState at h
  split at h
  next => cases h
  next => exact List.mem_singleton.mp h

theorem sendMessage_fst (c : Clock) (body : AgentBody) (m : Manager) :
    ∃ seq, (sendMessage c body m).1 = { m with outSeq := seq } := by
  unfold sendMessage
  split
  next => exact ⟨m.outSeq, rfl⟩
  next =>
    split
    · exact ⟨m.outSeq, rfl⟩
    · exact ⟨m.outSeq + 1, rfl⟩

/-- A message changes the sequence number only. -/
@[simp] theorem sendMessage_frame (c : Clock) (body : AgentBody) (m : Manager) :
    (sendMessage c body m).1.state = m.state ∧ (sendMessage c body m).1.server = m.server ∧
      (sendMessage c body m).1.child = m.child ∧ (sendMessage c body m).1.node = m.node ∧
      (sendMessage c body m).1.heartbeatTimer = m.heartbeatTimer ∧
      (sendMessage c body m).1.consecutiveFailures = m.consecutiveFailures ∧
      (sendMessage c body m).1.stopRequested = m.stopRequested := by
  obtain ⟨seq, h⟩ := sendMessage_fst c body m
  simp [h]

theorem mem_sendMessage {body : AgentBody} {x : Effect} (h : x ∈ (sendMessage c body m).2) :
    ∃ socket seq, x = .send socket { ts := c.iso, seq := seq, body := body } := by
  unfold sendMessage at h
  split at h
  next => cases h
  next socket _ =>
    split at h
    · cases h
    · exact ⟨socket, _, List.mem_singleton.mp h⟩

-- ---------------------------------------------------------------------------
-- Routine callbacks
-- ---------------------------------------------------------------------------

/-- What decides whether, and when, the publisher runs again. -/
structure Supervision where
  state : ManagerState
  server : Bool
  heartbeatTimer : Bool
  consecutiveFailures : Nat
  stopRequested : Bool
  spawns : Nat
  live : List Nat
  pending : List Nat
  started : Bool
  stops : List Nat
  deriving DecidableEq

def Manager.supervision (m : Manager) : Supervision where
  state := m.state
  server := m.server
  heartbeatTimer := m.heartbeatTimer
  consecutiveFailures := m.consecutiveFailures
  stopRequested := m.stopRequested
  spawns := m.node.spawns
  live := m.node.live
  pending := m.node.pending
  started := m.node.startCall = .resolved
  stops := m.node.stops

def Effect.isRoutine : Effect → Bool
  | .heartbeat _ | .error _ | .kill _ | .mintPublisherToken .. => true
  | _ => false

def Event.isRoutine : Event → Bool
  | .mkdirFails | .serverError _ | .line .. | .socketDestroyed _ | .socketClose _ | .socketError ..
  | .writeError _ | .mintFails _ | .watchdog | .childError _ => true
  | _ => false

theorem rejectStart_supervision (m : Manager) : (rejectStart m).supervision = m.supervision := by
  unfold rejectStart
  split
  next h => simp [Manager.supervision, h]
  next => rfl

/-- A callback that neither starts nor ends anything. -/
structure Routine (m : Manager) (r : Manager × List Effect) : Prop where
  same : r.1.supervision = m.supervision
  quiet : ∀ x ∈ r.2, x.isRoutine = true

theorem Routine.ignored (m : Manager) : Routine m (m, []) := ⟨rfl, fun _ h => by cases h⟩

theorem Routine.silent (h : n.supervision = m.supervision) : Routine m (n, []) :=
  ⟨h, fun _ h => by cases h⟩

theorem Routine.reports {x : Effect} (h : n.supervision = m.supervision) (hx : x.isRoutine = true) :
    Routine m (n, [x]) :=
  ⟨h, fun _ h => List.mem_singleton.mp h ▸ hx⟩

theorem handleIncomingLine_routine (cfg : Config) (c : Clock) (line : Line) (m : Manager) :
    Routine m (handleIncomingLine cfg c line m) := by
  unfold handleIncomingLine
  split
  next => exact .reports rfl rfl
  next => exact .reports rfl rfl
  next => exact .reports rfl rfl
  next msg _ =>
    unfold onPublisherError
    split
    · exact .ignored m
    · exact .reports rfl rfl

theorem checkHeartbeat_routine (c : Clock) (m : Manager) : Routine m (checkHeartbeat c m) := by
  unfold checkHeartbeat
  split
  next => exact .ignored m
  next =>
    split
    next => exact .ignored m
    next =>
      split
      next =>
        cases hc : m.child with
        | none => exact ⟨rfl, by simp [killChild, hc]⟩
        | some child => exact ⟨rfl, by simp [killChild, hc, Effect.isRoutine]⟩
      next => exact .ignored m

theorem step_routine (h : e.event.isRoutine = true) : Routine m (step cfg m e) := by
  cases he : e.event <;> simp only [he, Event.isRoutine, Bool.false_eq_true] at h <;>
    simp only [step, he]
  case mkdirFails => exact .silent (rejectStart_supervision m)
  case serverError => exact .reports (rejectStart_supervision m) rfl
  case writeError => exact .reports rfl rfl
  case childError => exact .reports rfl rfl
  case line socket line =>
    cases line with
    | none => exact .ignored m
    | some line =>
      simp only
      split
      · exact handleIncomingLine_routine cfg e.clock line m
      · exact .ignored m
  case watchdog =>
    split
    · exact checkHeartbeat_routine e.clock m
    · exact .ignored m
  case socketDestroyed | socketClose =>
    split
    · exact .silent rfl
    · exact .ignored m
  case socketError | mintFails =>
    split
    · exact .reports rfl rfl
    · exact .ignored m

-- ---------------------------------------------------------------------------
-- The other callbacks
-- ---------------------------------------------------------------------------

theorem spawnPublisher_stopped {spawned : Bool} (h : m.stopRequested = true) :
    spawnPublisher cfg spawned m = (m, []) := by
  simp [spawnPublisher, h]

theorem spawnPublisher_supervision {spawned : Bool} (h : m.stopRequested = false) :
    (spawnPublisher cfg spawned m).1.supervision =
      { m.supervision with
        state := .starting
        spawns := m.node.spawns + 1
        live := if spawned then m.node.spawns :: m.node.live else m.node.live } := by
  simp [spawnPublisher, h, Manager.supervision]

theorem mem_spawnPublisher {spawned : Bool} {x : Effect}
    (h : x ∈ (spawnPublisher cfg spawned m).2) :
    x = .stateChange .starting ∨ ∃ bin path profile, x = .spawn m.node.spawns bin path profile := by
  unfold spawnPublisher at h
  split at h
  next => cases h
  next =>
    rcases List.mem_append.mp h with h | h
    · exact .inl (mem_setState h)
    · exact .inr ⟨_, _, _, by simpa using h⟩

theorem onRestartTimeout_stopped {spawned : Bool} (h : m.stopRequested = true) :
    onRestartTimeout cfg spawned m = ({ m with restartTimer := none }, []) := by
  simp [onRestartTimeout, h]

theorem onRestartTimeout_supervision {spawned : Bool} (h : m.stopRequested = false) :
    (onRestartTimeout cfg spawned m).1.supervision =
      { m.supervision with
        state := .starting
        spawns := m.node.spawns + 1
        live := if spawned then m.node.spawns :: m.node.live else m.node.live } := by
  simp [onRestartTimeout, spawnPublisher, h, Manager.supervision]

theorem onTokenMinted_supervision (token : String) :
    (onTokenMinted cfg c token m).1.supervision =
      { m.supervision with state := .running, heartbeatTimer := true } := by
  simp [onTokenMinted, startHeartbeatWatcher, Manager.supervision]

theorem onPublisherConnected_supervision :
    (onPublisherConnected m).1.supervision = { m.supervision with state := .handshaking } := by
  simp [onPublisherConnected, Manager.supervision]

theorem finishStop_supervision :
    (finishStop m).1.supervision = { m.supervision with state := .idle, server := false } := by
  simp [finishStop, closeServer, Manager.supervision]

@[simp] theorem clearRestartTimer_frame (m : Manager) :
    (clearRestartTimer m).state = m.state ∧ (clearRestartTimer m).server = m.server ∧
      (clearRestartTimer m).child = m.child ∧
      (clearRestartTimer m).heartbeatTimer = m.heartbeatTimer ∧
      (clearRestartTimer m).consecutiveFailures = m.consecutiveFailures ∧
      (clearRestartTimer m).stopRequested = m.stopRequested ∧
      (clearRestartTimer m).node.startCall = m.node.startCall ∧
      (clearRestartTimer m).node.stops = m.node.stops ∧
      (clearRestartTimer m).node.spawns = m.node.spawns ∧
      (clearRestartTimer m).node.live = m.node.live := by
  unfold clearRestartTimer
  split <;> simp

theorem clearRestartTimer_pending (m : Manager) :
    (clearRestartTimer m).node.pending.Sublist m.node.pending := by
  unfold clearRestartTimer
  split
  next => exact .refl _
  next => exact List.filter_sublist

theorem stop_supervision (c : Clock) (m : Manager) :
    ∃ state server stops pending, (state = .stopping ∨ state = .idle) ∧
      pending.Sublist m.node.pending ∧
      (stop c m).1.supervision =
        { m.supervision with
          state := state, server := server, stops := stops, pending := pending
          stopRequested := true, heartbeatTimer := false } := by
  let called : Manager := { m with state := .stopping, stopRequested := true }
  cases hc : m.child with
  | some child =>
    refine ⟨.stopping, m.server, child :: m.node.stops, _, .inl rfl,
      clearRestartTimer_pending called, ?_⟩
    simp [stop, stopHeartbeatWatcher, hc, Manager.supervision, called]
  | none =>
    refine ⟨.idle, false, m.node.stops, _, .inr rfl, clearRestartTimer_pending called, ?_⟩
    simp [stop, stopHeartbeatWatcher, hc, finishStop, closeServer, Manager.supervision, called]

theorem mem_stop {x : Effect} (h : x ∈ (stop c m).2) :
    (∃ s, x = .stateChange s) ∨
      ∃ socket seq, x = .send socket { ts := c.iso, seq := seq, body := .stop .shutdown } := by
  simp only [stop] at h
  split at h
  next =>
    rcases List.mem_append.mp h with h | h
    · exact .inl ⟨_, mem_setState h⟩
    · exact .inr (mem_sendMessage h)
  next =>
    rcases List.mem_append.mp h with h | h
    · rcases List.mem_append.mp h with h | h
      · exact .inl ⟨_, mem_setState h⟩
      · exact .inr (mem_sendMessage h)
    · exact .inl ⟨_, mem_setState h⟩

-- ---------------------------------------------------------------------------
-- The end of a process
-- ---------------------------------------------------------------------------

section
variable {child : Nat} {code : Option Int} {signal : Option String}

variable (child code signal) in
theorem onExit_stopped (hs : m.stopRequested = true) :
    ∃ state server stops, (state = m.state ∨ state = .idle) ∧
      (onExit child code signal m).1.supervision =
        { m.supervision with
          state := state, server := server, stops := stops
          heartbeatTimer := false, live := m.node.live.filter (· ≠ child) } := by
  by_cases hc : child ∈ m.node.stops
  · refine ⟨.idle, false, m.node.stops.filter (· ≠ child), .inr rfl, ?_⟩
    simp [onExit, onChildExit, stopHeartbeatWatcher, hs, hc, finishStop, closeServer,
      Manager.supervision]
  · refine ⟨m.state, m.server, m.node.stops, .inl rfl, ?_⟩
    simp [onExit, onChildExit, stopHeartbeatWatcher, hs, hc, Manager.supervision]

variable (code signal) in
theorem onExit_gives_up (hs : m.stopRequested = false) (hc : child ∉ m.node.stops)
    (hf : MAX_RESTART_ATTEMPTS < m.consecutiveFailures + 1) :
    (onExit child code signal m).1.supervision =
      { m.supervision with
        state := .failed, server := false, heartbeatTimer := false
        consecutiveFailures := m.consecutiveFailures + 1
        live := m.node.live.filter (· ≠ child) } := by
  simp [onExit, onChildExit, stopHeartbeatWatcher, hs, hc, hf, closeServer, Manager.supervision]

variable (code signal) in
theorem onExit_restarts (hs : m.stopRequested = false) (hc : child ∉ m.node.stops)
    (hf : ¬ MAX_RESTART_ATTEMPTS < m.consecutiveFailures + 1) :
    (onExit child code signal m).1.supervision =
      { m.supervision with
        state := .restarting, heartbeatTimer := false
        consecutiveFailures := m.consecutiveFailures + 1
        live := m.node.live.filter (· ≠ child)
        pending := m.node.timeouts :: m.node.pending } := by
  simp [onExit, onChildExit, stopHeartbeatWatcher, hs, hc, hf, Manager.supervision]

theorem mem_onChildExit {x : Effect} (h : x ∈ (onChildExit code signal m).2) :
    x = .crashed code signal ∨ (∃ s, x = .stateChange s) ∨
      (MAX_RESTART_ATTEMPTS < m.consecutiveFailures + 1 ∧ x = .failed) ∨
      m.consecutiveFailures < MAX_RESTART_ATTEMPTS ∧
        ∃ timer, x = .restartIn timer (backoffMs m.consecutiveFailures) := by
  unfold onChildExit at h
  simp only at h
  split at h
  next => cases h
  next =>
    split at h
    next hf =>
      rcases List.mem_cons.mp h with h | h
      · exact .inl h
      · rcases List.mem_append.mp h with h | h
        · exact .inr (.inl ⟨_, mem_setState h⟩)
        · exact .inr (.inr (.inl ⟨hf, List.mem_singleton.mp h⟩))
    next hf =>
      rcases List.mem_cons.mp h with h | h
      · exact .inl h
      · rcases List.mem_append.mp h with h | h
        · exact .inr (.inl ⟨_, mem_setState h⟩)
        · refine .inr (.inr (.inr ⟨?_, _, List.mem_singleton.mp h⟩))
          simp only [stopHeartbeatWatcher] at hf
          omega

theorem mem_onExit {x : Effect} (h : x ∈ (onExit child code signal m).2) :
    x = .crashed code signal ∨ (∃ s, x = .stateChange s) ∨
      (MAX_RESTART_ATTEMPTS < m.consecutiveFailures + 1 ∧ x = .failed) ∨
      m.consecutiveFailures < MAX_RESTART_ATTEMPTS ∧
        ∃ timer, x = .restartIn timer (backoffMs m.consecutiveFailures) := by
  let exited : Manager := { m with node := { m.node with live := m.node.live.filter (· ≠ child) } }
  have listener {x : Effect} (h : x ∈ (onChildExit code signal exited).2) := mem_onChildExit h
  simp only [onExit] at h
  split at h
  next =>
    rcases List.mem_append.mp h with h | h
    · exact listener h
    · exact .inr (.inl ⟨_, mem_setState h⟩)
  next => exact listener h

theorem restartIn_mem_onExit (hs : m.stopRequested = false)
    (hf : ¬ MAX_RESTART_ATTEMPTS < m.consecutiveFailures + 1) :
    .restartIn m.node.timeouts (backoffMs m.consecutiveFailures) ∈ (onExit child code signal m).2 := by
  unfold onExit
  simp only
  split <;> simp [onChildExit, stopHeartbeatWatcher, hs, hf]

end

-- ---------------------------------------------------------------------------
-- Everything a callback can do
-- ---------------------------------------------------------------------------

/-- The event is one of those that move the supervision, and its source is there. -/
def Acts (m : Manager) : Event → Prop
  | .listening _ => m.node.startCall = .awaiting
  | .stop => True
  | .stopTimeout child => child ∈ m.node.stops
  | .connect => m.server = true
  | .minted _ => 0 < m.node.mints
  | .childExit child _ _ => child ∈ m.node.live
  | .restartTimeout timer _ => timer ∈ m.node.pending
  | _ => False

/-- How the supervision of `m` moves on an event. -/
inductive Moves (m : Manager) : Event → Supervision → Prop
  | idles {event} (h : ¬ Acts m event) : Moves m event m.supervision
  | opens {spawned} (hw : m.node.startCall = .awaiting) (hs : m.stopRequested = true) :
    Moves m (.listening spawned) { m.supervision with server := true, started := true }
  | starts {spawned} (hw : m.node.startCall = .awaiting) (hs : m.stopRequested = false) :
    Moves m (.listening spawned)
      { m.supervision with
        server := true, started := true, state := .starting
        spawns := m.node.spawns + 1
        live := if spawned then m.node.spawns :: m.node.live else m.node.live }
  | stops {state server stops pending} (hstate : state = .stopping ∨ state = .idle)
      (hp : pending.Sublist m.node.pending) :
    Moves m .stop
      { m.supervision with
        state := state, server := server, stops := stops, pending := pending
        stopRequested := true, heartbeatTimer := false }
  | stopped {child} (hw : child ∈ m.node.stops) :
    Moves m (.stopTimeout child)
      { m.supervision with state := .idle, server := false, stops := m.node.stops.erase child }
  | connects (h : m.server = true) : Moves m .connect { m.supervision with state := .handshaking }
  | runs {token} (h : 0 < m.node.mints) :
    Moves m (.minted token) { m.supervision with state := .running, heartbeatTimer := true }
  | ends {child code signal state server stops} (hc : child ∈ m.node.live)
      (hs : m.stopRequested = true) (hstate : state = m.state ∨ state = .idle) :
    Moves m (.childExit child code signal)
      { m.supervision with
        state := state, server := server, stops := stops
        heartbeatTimer := false, live := m.node.live.filter (· ≠ child) }
  | givesUp {child code signal} (hc : child ∈ m.node.live) (hs : m.stopRequested = false)
      (hf : MAX_RESTART_ATTEMPTS < m.consecutiveFailures + 1) :
    Moves m (.childExit child code signal)
      { m.supervision with
        state := .failed, server := false, heartbeatTimer := false
        consecutiveFailures := m.consecutiveFailures + 1
        live := m.node.live.filter (· ≠ child) }
  | restarts {child code signal} (hc : child ∈ m.node.live) (hs : m.stopRequested = false)
      (hf : ¬ MAX_RESTART_ATTEMPTS < m.consecutiveFailures + 1) :
    Moves m (.childExit child code signal)
      { m.supervision with
        state := .restarting, heartbeatTimer := false
        consecutiveFailures := m.consecutiveFailures + 1
        live := m.node.live.filter (· ≠ child)
        pending := m.node.timeouts :: m.node.pending }
  | lapses {timer spawned} (ht : timer ∈ m.node.pending) (hs : m.stopRequested = true) :
    Moves m (.restartTimeout timer spawned)
      { m.supervision with pending := m.node.pending.filter (· ≠ timer) }
  | respawns {timer spawned} (ht : timer ∈ m.node.pending) (hs : m.stopRequested = false) :
    Moves m (.restartTimeout timer spawned)
      { m.supervision with
        pending := m.node.pending.filter (· ≠ timer), state := .starting
        spawns := m.node.spawns + 1
        live := if spawned then m.node.spawns :: m.node.live else m.node.live }

theorem step_idle (h : ¬ Acts m e.event) : Routine m (step cfg m e) := by
  by_cases hr : e.event.isRoutine = true
  · exact step_routine hr
  · have hstep : step cfg m e = (m, []) := by
      cases he : e.event <;> rw [he] at h hr <;> first | exact absurd rfl hr | simp_all [step, Acts]
    rw [hstep]
    exact .ignored m

theorem step_moves (cfg : Config) (e : Stamped) (hm : m.node.stops ≠ [] → m.stopRequested = true) :
    Moves m e.event (step cfg m e).1.supervision := by
  by_cases h : Acts m e.event
  case neg =>
    rw [(step_idle h).same]
    exact .idles h
  cases he : e.event <;> simp only [he, Acts] at h <;> simp only [step, he, h, if_true]
  case listening spawned =>
    unfold onListening
    rcases Bool.eq_false_or_eq_true m.stopRequested with hs | hs
    · rw [spawnPublisher_stopped (by exact hs)]
      exact .opens h hs
    · rw [spawnPublisher_supervision (by exact hs)]
      exact .starts h hs
  case stop =>
    obtain ⟨state, server, stops, pending, hstate, hp, hn⟩ := stop_supervision e.clock m
    rw [hn]
    exact .stops hstate hp
  case stopTimeout child =>
    rw [finishStop_supervision]
    exact .stopped h
  case connect =>
    rw [onPublisherConnected_supervision]
    exact .connects h
  case minted token =>
    rw [onTokenMinted_supervision]
    exact .runs h
  case childExit child code signal =>
    rcases Bool.eq_false_or_eq_true m.stopRequested with hs | hs
    · obtain ⟨state, server, stops, hstate, hn⟩ := onExit_stopped child code signal hs
      rw [hn]
      exact .ends h hs hstate
    · have hstops : child ∉ m.node.stops := fun hw =>
        Bool.false_ne_true (hs.symm.trans (hm (List.ne_nil_of_mem hw)))
      by_cases hf : MAX_RESTART_ATTEMPTS < m.consecutiveFailures + 1
      · rw [onExit_gives_up code signal hs hstops hf]
        exact .givesUp h hs hf
      · rw [onExit_restarts code signal hs hstops hf]
        exact .restarts h hs hf
  case restartTimeout timer spawned =>
    rcases Bool.eq_false_or_eq_true m.stopRequested with hs | hs
    · rw [onRestartTimeout_stopped (by exact hs)]
      exact .lapses h hs
    · rw [onRestartTimeout_supervision (by exact hs)]
      exact .respawns h hs

/-- What a callback of `m` may do on an event, and why it may. -/
inductive Does (m : Manager) : Event → Effect → Prop
  | routine {event x} (h : x.isRoutine = true) : Does m event x
  | changes {event} (s) : Does m event (.stateChange s)
  | sendsStart {token socket msg} (h : 0 < m.node.mints) : Does m (.minted token) (.send socket msg)
  | sendsStop {socket msg} (h : msg.body.isStart = false) : Does m .stop (.send socket msg)
  | spawns {spawned bin path profile} (hw : m.node.startCall = .awaiting)
      (hs : m.stopRequested = false) :
    Does m (.listening spawned) (.spawn m.node.spawns bin path profile)
  | respawns {timer spawned bin path profile} (ht : timer ∈ m.node.pending)
      (hs : m.stopRequested = false) :
    Does m (.restartTimeout timer spawned) (.spawn m.node.spawns bin path profile)
  | restarted {timer spawned} (ht : timer ∈ m.node.pending) :
    Does m (.restartTimeout timer spawned) (.restarted m.consecutiveFailures)
  | crashed {child code signal} (hc : child ∈ m.node.live) :
    Does m (.childExit child code signal) (.crashed code signal)
  | schedules {child code signal timer} (hc : child ∈ m.node.live)
      (hf : m.consecutiveFailures < MAX_RESTART_ATTEMPTS) :
    Does m (.childExit child code signal) (.restartIn timer (backoffMs m.consecutiveFailures))
  | failed {child code signal} (hc : child ∈ m.node.live)
      (hf : MAX_RESTART_ATTEMPTS < m.consecutiveFailures + 1) :
    Does m (.childExit child code signal) .failed

theorem mem_step {y : Effect} (hy : y ∈ (step cfg m e).2) : Does m e.event y := by
  by_cases hacts : Acts m e.event
  case neg => exact .routine ((step_idle hacts).quiet y hy)
  cases he : e.event <;> simp only [he, Acts] at hacts <;>
    simp only [step, he, hacts, if_true] at hy
  case listening b =>
    rcases Bool.eq_false_or_eq_true m.stopRequested with hs | hs
    · rw [onListening, spawnPublisher_stopped (by exact hs)] at hy
      cases hy
    · rcases mem_spawnPublisher hy with rfl | ⟨_, _, _, rfl⟩
      · exact .changes _
      · exact .spawns hacts hs
  case stop =>
    rcases mem_stop hy with ⟨s, rfl⟩ | ⟨socket, seq, rfl⟩
    · exact .changes s
    · exact .sendsStop rfl
  case stopTimeout child =>
    rcases List.mem_cons.mp hy with rfl | hy
    · exact .routine rfl
    · exact mem_setState hy ▸ .changes _
  case connect => exact mem_setState hy ▸ .changes _
  case minted token =>
    rcases List.mem_append.mp hy with hy | hy
    · obtain ⟨socket, seq, rfl⟩ := mem_sendMessage hy
      exact .sendsStart hacts
    · exact mem_setState hy ▸ .changes _
  case childExit child code signal =>
    rcases mem_onExit hy with rfl | ⟨s, rfl⟩ | ⟨hf, rfl⟩ | ⟨hf, timer, rfl⟩
    · exact .crashed hacts
    · exact .changes s
    · exact .failed hacts hf
    · exact .schedules hacts hf
  case restartTimeout timer b =>
    simp only [onRestartTimeout] at hy
    split at hy
    next => cases hy
    next hs =>
      rcases List.mem_cons.mp hy with rfl | hy
      · exact .restarted hacts
      · rcases mem_spawnPublisher hy with rfl | ⟨_, _, _, rfl⟩
        · exact .changes _
        · exact .respawns hacts (Bool.eq_false_iff.mpr hs)

-- ---------------------------------------------------------------------------
-- What holds between callbacks
-- ---------------------------------------------------------------------------

structure Coherent (s : Supervision) : Prop where
  stopped : s.stops ≠ [] → s.stopRequested = true
  single : s.live.length + s.pending.length ≤ 1
  unstarted : s.started = false → s.live = [] ∧ s.pending = [] ∧ s.state ≠ .failed
  given_up : s.state = .failed → s.server = false ∧ s.live = [] ∧ s.pending = []

section
variable {s : Supervision}

/-- A manager with something to supervise was started and has not given up. -/
theorem Coherent.started_of_busy (h : Coherent s) (hb : s.live ≠ [] ∨ s.pending ≠ []) :
    s.started ≠ false ∧ s.state ≠ .failed := by
  refine ⟨fun hs => ?_, fun hf => ?_⟩
  · obtain ⟨hl, hp, -⟩ := h.unstarted hs
    rcases hb with hb | hb <;> contradiction
  · obtain ⟨-, hl, hp⟩ := h.given_up hf
    rcases hb with hb | hb <;> contradiction

theorem Coherent.alone_live (h : Coherent s) {child : Nat} (hc : child ∈ s.live) :
    s.live = [child] ∧ s.pending = [] ∧ s.started ≠ false ∧ s.state ≠ .failed := by
  have hs := h.single
  have hl := List.length_pos_of_mem hc
  obtain ⟨x, hx⟩ := List.length_eq_one_iff.mp (show s.live.length = 1 by omega)
  refine ⟨?_, List.length_eq_zero_iff.mp (by omega), h.started_of_busy (.inl ?_)⟩
  · rw [hx] at hc
    exact List.mem_singleton.mp hc ▸ hx
  · exact List.ne_nil_of_mem hc

theorem Coherent.alone_pending (h : Coherent s) {timer : Nat} (ht : timer ∈ s.pending) :
    s.pending = [timer] ∧ s.live = [] ∧ s.started ≠ false ∧ s.state ≠ .failed := by
  have hs := h.single
  have hl := List.length_pos_of_mem ht
  obtain ⟨x, hx⟩ := List.length_eq_one_iff.mp (show s.pending.length = 1 by omega)
  refine ⟨?_, List.length_eq_zero_iff.mp (by omega), h.started_of_busy (.inr ?_)⟩
  · rw [hx] at ht
    exact List.mem_singleton.mp ht ▸ hx
  · exact List.ne_nil_of_mem ht

end

theorem coherent_init : Coherent Manager.init.supervision where
  stopped h := absurd rfl h
  single := Nat.zero_le _
  unstarted _ := ⟨rfl, rfl, by decide⟩
  given_up h := by cases h

theorem Coherent.step (h : Coherent m.supervision) (e : Stamped) :
    Coherent (step cfg m e).1.supervision := by
  have hmoves := step_moves cfg e h.stopped
  generalize (Publisher.step cfg m e).1.supervision = n, e.event = event at hmoves ⊢
  have unstarted (hw : m.node.startCall = .awaiting) := h.unstarted (by simp [Manager.supervision, hw])
  cases hmoves with
  | idles => exact h
  | opens hw =>
    obtain ⟨-, -, hstate⟩ := unstarted hw
    exact ⟨h.stopped, h.single, fun hu => (by cases hu), fun hf => absurd hf hstate⟩
  | @starts spawned hw =>
    obtain ⟨hlive, hpending, -⟩ := unstarted hw
    refine ⟨h.stopped, ?_, fun hu => (by cases hu), fun hf => (by cases hf)⟩
    have hlive : m.node.live = [] := hlive
    cases spawned <;> simp [hlive, hpending]
  | stops hstate hp =>
    refine ⟨fun _ => rfl, ?_, fun hu => ⟨(h.unstarted hu).1, ?_, ?_⟩, fun hf => ?_⟩
    · exact Nat.le_trans (Nat.add_le_add_left hp.length_le _) h.single
    · exact List.sublist_nil.mp ((h.unstarted hu).2.1 ▸ hp)
    · rcases hstate with rfl | rfl <;> simp
    · rcases hstate with rfl | rfl <;> cases hf
  | stopped hw =>
    exact ⟨fun _ => h.stopped (List.ne_nil_of_mem hw), h.single,
      fun hu => ⟨(h.unstarted hu).1, (h.unstarted hu).2.1, (by simp)⟩,
      fun hf => (by cases hf)⟩
  | connects | runs =>
    exact ⟨h.stopped, h.single,
      fun hu => ⟨(h.unstarted hu).1, (h.unstarted hu).2.1, (by simp)⟩,
      fun hf => (by cases hf)⟩
  | ends hc hs hstate =>
    obtain ⟨hlive, hpending, hstarted, hfailed⟩ := h.alone_live hc
    refine ⟨fun _ => hs, ?_, fun hu => absurd hu hstarted, fun hf => ?_⟩
    · have hlive : m.node.live = [_] := hlive
      simp [hlive, hpending]
    · rcases hstate with rfl | rfl
      · exact absurd hf hfailed
      · cases hf
  | givesUp hc =>
    obtain ⟨hlive, hpending, hstarted, -⟩ := h.alone_live hc
    have hlive : m.node.live = [_] := hlive
    refine ⟨h.stopped, ?_, fun hu => absurd hu hstarted,
      fun _ => ⟨rfl, ?_, hpending⟩⟩
    · simp [hlive, hpending]
    · simp [hlive]
  | restarts hc =>
    obtain ⟨hlive, hpending, hstarted, -⟩ := h.alone_live hc
    have hlive : m.node.live = [_] := hlive
    have hpending : m.node.pending = [] := hpending
    refine ⟨h.stopped, ?_, fun hu => absurd hu hstarted,
      fun hf => (by cases hf)⟩
    simp [hlive, hpending]
  | lapses ht hs =>
    obtain ⟨hpending, hlive, hstarted, hfailed⟩ := h.alone_pending ht
    have hpending : m.node.pending = [_] := hpending
    refine ⟨fun _ => hs, ?_, fun hu => absurd hu hstarted,
      fun hf => absurd hf hfailed⟩
    simp [hlive, hpending]
  | @respawns timer spawned ht =>
    obtain ⟨hpending, hlive, hstarted, -⟩ := h.alone_pending ht
    have hpending : m.node.pending = [_] := hpending
    have hlive : m.node.live = [] := hlive
    refine ⟨h.stopped, ?_, fun hu => absurd hu hstarted,
      fun hf => (by cases hf)⟩
    cases spawned <;> simp [hlive, hpending]

abbrev ManagerEntry := Entry Manager Stamped (List Effect)
abbrev ManagerLog := Log Manager Stamped (List Effect)

/-- A token that was asked for is there. -/
def Mints (x : ManagerEntry) : Prop := 0 < x.before.node.mints ∧ ∃ token, x.event.event = .minted token

theorem coherent_run (cfg : Config) (es : List Stamped) :
    Coherent ((manager cfg).state ((manager cfg).log es)).supervision := by
  induction es with
  | nil => exact coherent_init
  | cons e es ih => exact ih.step e

-- ---------------------------------------------------------------------------
-- A camera
-- ---------------------------------------------------------------------------

/-- The manager that `index.ts` makes for `/etc/rvep/cameras/front.yaml`. -/
def frontCamera : Config where
  vehicleId := "vehicle-001"
  cameraId := "front"
  cameraProfilePath := "/etc/rvep/cameras/front.yaml"
  videoProfileId := "front"
  livekitUrl := "ws://192.168.68.68:7880"
  apiKey := "devkey"
  apiSecret := "devsecret"
  roomName := "ugv-vehicle-001"
  publisherBin := "/usr/local/bin/rvep-publisher"

def at10h (event : Event) : Stamped where
  event := event
  clock := { dateNow := 1779012000000, iso := ⟨"2026-05-17T10:00:00.000Z", by decide⟩ }

def envelope (type : String) : JsonFields :=
  [("type", .str type), ("ts", .str "2026-05-17T10:00:00.000Z"), ("seq", .num 1)]

def helloLine : Line :=
  .json (.obj (envelope "hello" ++
    [("version", .str "0.1.0"), ("pid", .num 4242), ("cameraId", .str "front"),
      ("platformId", .str "jetson-agx-orin")]))

def heartbeatLine : Line :=
  .json (.obj (envelope "heartbeat" ++
    [("publisherState", .str "publishing"),
      ("metrics", .obj
        [("fps", .num 30), ("encodeLatencyMs", .num 4), ("bitrateBps", .num 4000000),
          ("framesPublished", .num 30), ("framesDropped", .num 0), ("nvencSessionId", .num 1)])]))

end Rvep.Publisher
