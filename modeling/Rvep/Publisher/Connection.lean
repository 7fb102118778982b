import Rvep.Publisher.Laws

/-!
# The connection of the latest publisher

The socket accepted last is the one that messages for the publisher go to, for
as long as it is open. Its `close` and `error` listeners, and those of every
socket before it, all write the one field.
-/

namespace Rvep.Publisher

open Reactive

variable {cfg : Config} {m : Manager} {e : Stamped} {past l : ManagerLog}

-- ---------------------------------------------------------------------------
-- Sockets
-- ---------------------------------------------------------------------------

/-- What a manager knows of its sockets. -/
structure Link where
  connection : Option Nat
  accepted : Nat
  destroyed : List Nat
  deriving DecidableEq

def Manager.link (m : Manager) : Link where
  connection := m.connection
  accepted := m.node.accepted
  destroyed := m.node.destroyed

/-- A `close` or `error` of a socket, or of the line reader on it. -/
def ends? : Event → Option Nat
  | .socketClose socket => some socket
  | .socketError socket _ => some socket
  | _ => none

def closes? : Event → Option Nat
  | .socketDestroyed socket => some socket
  | event => ends? event

/-- The socket was accepted and has been closed, destroyed or in error since. -/
def Closed (socket : Nat) (l : ManagerLog) : Prop :=
  Once (fun x _ => closes? x.event.event = some socket ∧ socket < x.before.node.accepted) l

instance (socket : Nat) : Decidable (Closed socket l) := inferInstanceAs (Decidable (Once _ _))

/-- The socket that was accepted last, if it is open. -/
def latestOpen (k : Link) (l : ManagerLog) : Option Nat :=
  match k.accepted with
  | 0 => none
  | socket + 1 => if Closed socket l then none else some socket

/-- `connection` is the latest socket while that is open, and what the manager
has to send goes to it. -/
structure HoldsLatest (x : ManagerEntry) (past : ManagerLog) : Prop where
  holds : ∀ socket ∈ latestOpen x.after.link (x :: past), x.after.connection = some socket
  stops : ∀ socket ∈ latestOpen x.before.link past, x.event.event = .stop →
    ∃ msg, .send socket msg ∈ x.output ∧ msg.body = .stop .shutdown
  starts : ∀ socket ∈ latestOpen x.before.link past, Mints x →
    ∃ msg, .send socket msg ∈ x.output ∧ msg.body.isStart = true

/-- While the latest socket is open, no earlier socket ends and no process exits. -/
def NothingStale (x : ManagerEntry) (past : ManagerLog) : Prop :=
  ∀ socket ∈ latestOpen x.before.link past,
    (∀ earlier ∈ ends? x.event.event, socket ≤ earlier) ∧
      ∀ child code signal, x.event.event = .childExit child code signal →
        child ∉ x.before.node.live

-- ---------------------------------------------------------------------------
-- How the sockets move
-- ---------------------------------------------------------------------------

@[simp] theorem setState_link (s : ManagerState) (m : Manager) : (setState s m).1.link = m.link := by
  rw [setState_fst]
  rfl

@[simp] theorem sendMessage_link (c : Clock) (body : AgentBody) (m : Manager) :
    (sendMessage c body m).1.link = m.link := by
  obtain ⟨seq, h⟩ := sendMessage_fst c body m
  rw [h]
  rfl

@[simp] theorem clearRestartTimer_link (m : Manager) : (clearRestartTimer m).link = m.link := by
  unfold clearRestartTimer
  split <;> rfl

@[simp] theorem rejectStart_link (m : Manager) : (rejectStart m).link = m.link := by
  unfold rejectStart
  split <;> rfl

@[simp] theorem finishStop_link (m : Manager) : (finishStop m).1.link = m.link := by
  simp [finishStop]
  rfl

@[simp] theorem spawnPublisher_link (spawned : Bool) (m : Manager) :
    (spawnPublisher cfg spawned m).1.link = m.link := by
  unfold spawnPublisher
  split
  · rfl
  · simp [Manager.link]

@[simp] theorem onRestartTimeout_link (spawned : Bool) (m : Manager) :
    (onRestartTimeout cfg spawned m).1.link = m.link := by
  unfold onRestartTimeout
  simp only
  split
  · rfl
  · exact spawnPublisher_link spawned { m with restartTimer := none }

@[simp] theorem onTokenMinted_link (c : Clock) (token : String) (m : Manager) :
    (onTokenMinted cfg c token m).1.link = m.link := by
  obtain ⟨seq, h⟩ := sendMessage_fst c
    (.start cfg.livekitUrl token cfg.roomName cfg.identity cfg.videoProfileId none) m
  simp only [onTokenMinted, h, setState_fst]
  rfl

/-- The manager from which `stop()` sends its message. -/
def stopping (m : Manager) : Manager :=
  stopHeartbeatWatcher (clearRestartTimer { m with state := .stopping, stopRequested := true })

theorem stopping_link (m : Manager) : (stopping m).link = m.link :=
  clearRestartTimer_link { m with state := .stopping, stopRequested := true }

theorem stop_link (c : Clock) (m : Manager) : (stop c m).1.link = m.link := by
  have hsent : (sendMessage c (.stop .shutdown) (stopping m)).1.link = m.link := by
    rw [sendMessage_link, stopping_link]
  simp only [stop, setState_fst]
  split
  · exact hsent
  · rw [finishStop_link]
    exact hsent

/-- How an event moves the sockets. -/
inductive Relinks (m : Manager) : Event → Link → Prop
  | keeps {event} (hcloses : ∀ socket ∈ closes? event, m.node.accepted ≤ socket)
      (hexit : ∀ child code signal, event = .childExit child code signal → child ∉ m.node.live) :
    Relinks m event m.link
  | destroys {socket} (h : socket < m.node.accepted) :
    Relinks m (.socketDestroyed socket) { m.link with destroyed := socket :: m.node.destroyed }
  | connects :
    Relinks m .connect
      { m.link with connection := some m.node.accepted, accepted := m.node.accepted + 1 }
  | ends {event socket} (he : ends? event = some socket) (h : socket < m.node.accepted) :
    Relinks m event { m.link with connection := none }
  | exits {child code signal} (h : child ∈ m.node.live) :
    Relinks m (.childExit child code signal) { m.link with connection := none }

theorem onExit_link (child : Nat) (code : Option Int) (signal : Option String) (m : Manager) :
    (onExit child code signal m).1.link = { m.link with connection := none } := by
  have hlistener (m : Manager) :
      (onChildExit code signal m).1.link = { m.link with connection := none } := by
    unfold onChildExit
    simp only
    split
    · rfl
    · split
      · simp only [closeServer, setState_fst]
        rfl
      · simp only [setState_fst]
        rfl
  simp only [onExit]
  split
  · rw [finishStop_link]
    exact hlistener _
  · exact hlistener _

theorem handleIncomingLine_link (c : Clock) (line : Line) (m : Manager) :
    (handleIncomingLine cfg c line m).1.link = m.link := by
  unfold handleIncomingLine
  split
  · rfl
  · rfl
  · rfl
  · unfold onPublisherError
    split <;> rfl

theorem checkHeartbeat_fst (c : Clock) (m : Manager) : (checkHeartbeat c m).1 = m := by
  unfold checkHeartbeat
  split
  · rfl
  · split
    · rfl
    · split <;> rfl

/-- An event that ends no socket and no process. -/
theorem Relinks.other {event : Event} {n : Link} (hn : n = m.link) (hcloses : closes? event = none)
    (hexit : ∀ child code signal, event ≠ .childExit child code signal) : Relinks m event n := by
  rw [hn]
  exact .keeps (by simp [hcloses]) fun _ _ _ h => absurd h (hexit _ _ _)

theorem Relinks.unaccepted {event : Event} {socket : Nat} (hcloses : closes? event = some socket)
    (h : ¬ socket < m.node.accepted) : Relinks m event m.link := by
  refine .keeps ?_ fun _ _ _ he => ?_
  · rintro closed hclosed
    obtain rfl := Option.some.inj (hcloses.symm.trans hclosed)
    exact Nat.le_of_not_lt h
  · rw [he] at hcloses
    cases hcloses

theorem step_relinks (cfg : Config) (m : Manager) (e : Stamped) :
    Relinks m e.event (step cfg m e).1.link := by
  obtain ⟨event, clock⟩ := e
  cases event with
  | listening spawned =>
    refine .other ?_ rfl (by simp)
    simp only [step]
    split
    · exact spawnPublisher_link spawned _
    · rfl
  | mkdirFails | serverError message => exact .other (rejectStart_link m) rfl (by simp)
  | stop => exact .other (stop_link clock m) rfl (by simp)
  | stopTimeout child =>
    refine .other ?_ rfl (by simp)
    simp only [step]
    split
    · exact finishStop_link _
    · rfl
  | connect =>
    simp only [step]
    split
    · rw [onPublisherConnected, setState_link]
      exact .connects
    · exact .other rfl rfl (by simp)
  | line socket line =>
    refine .other ?_ rfl (by simp)
    simp only [step]
    split
    · split
      · exact handleIncomingLine_link clock _ m
      · rfl
    · rfl
  | socketDestroyed socket =>
    simp only [step]
    split
    next h => exact .destroys h
    next h => exact .unaccepted rfl h
  | socketClose socket | socketError socket message =>
    simp only [step]
    split
    next h => exact .ends rfl h
    next h => exact .unaccepted rfl h
  | writeError message | childError message => exact .other rfl rfl (by simp)
  | minted token =>
    refine .other ?_ rfl (by simp)
    simp only [step]
    split
    · exact onTokenMinted_link clock token _
    · rfl
  | mintFails message =>
    refine .other ?_ rfl (by simp)
    simp only [step]
    split <;> rfl
  | watchdog =>
    refine .other ?_ rfl (by simp)
    simp only [step]
    split
    · rw [checkHeartbeat_fst]
    · rfl
  | childExit child code signal =>
    simp only [step]
    split
    next h =>
      rw [onExit_link]
      exact .exits h
    next h =>
      refine .keeps (by simp [closes?, ends?]) ?_
      rintro child' code' signal' he
      cases he
      exact h
  | restartTimeout timer spawned =>
    refine .other ?_ rfl (by simp)
    simp only [step]
    split
    · exact onRestartTimeout_link spawned _
    · rfl

-- ---------------------------------------------------------------------------
-- What is sent
-- ---------------------------------------------------------------------------

section
variable {socket : Nat}

theorem sendMessage_sends (c : Clock) (body : AgentBody) (hc : m.link.connection = some socket)
    (hd : socket ∉ m.link.destroyed) :
    ∃ msg, .send socket msg ∈ (sendMessage c body m).2 ∧ msg.body = body := by
  have hc : m.connection = some socket := hc
  have hd : socket ∉ m.node.destroyed := hd
  refine ⟨{ ts := c.iso, seq := m.outSeq + 1, body := body }, ?_, rfl⟩
  simp [sendMessage, hc, hd]

theorem stop_sends {c : Clock} (hc : m.link.connection = some socket)
    (hd : socket ∉ m.link.destroyed) :
    ∃ msg, .send socket msg ∈ (stop c m).2 ∧ msg.body = .stop .shutdown := by
  obtain ⟨msg, hmsg, hbody⟩ : ∃ msg, .send socket msg ∈
      (sendMessage c (.stop .shutdown) (stopping m)).2 ∧ msg.body = .stop .shutdown :=
    sendMessage_sends c _ (by rwa [stopping_link]) (by rwa [stopping_link])
  refine ⟨msg, ?_, hbody⟩
  simp only [stop, setState_fst]
  split
  · exact List.mem_append_right _ hmsg
  · exact List.mem_append_left _ (List.mem_append_right _ hmsg)

theorem onTokenMinted_sends {c : Clock} {token : String} (hc : m.link.connection = some socket)
    (hd : socket ∉ m.link.destroyed) :
    ∃ msg, .send socket msg ∈ (onTokenMinted cfg c token m).2 ∧ msg.body.isStart = true := by
  obtain ⟨msg, hmsg, hbody⟩ := sendMessage_sends c
    (.start cfg.livekitUrl token cfg.roomName cfg.identity cfg.videoProfileId none) hc hd
  refine ⟨msg, List.mem_append_left _ hmsg, ?_⟩
  rw [hbody]
  rfl

end

-- ---------------------------------------------------------------------------
-- Runs
-- ---------------------------------------------------------------------------

/-- The latest socket, while it is open, is connected and not destroyed. -/
structure Linked (k : Link) (l : ManagerLog) : Prop where
  holds : ∀ socket ∈ latestOpen k l, k.connection = some socket
  destroyed : ∀ socket ∈ k.destroyed, Closed socket l

section
variable {socket : Nat} {x : ManagerEntry} {k : Link}

theorem mem_latestOpen :
    socket ∈ latestOpen k l ↔ k.accepted = socket + 1 ∧ ¬ Closed socket l := by
  unfold latestOpen
  split
  next h => simp [h]
  next last h =>
    rw [h]
    split
    next hclosed =>
      refine iff_of_false nofun ?_
      rintro ⟨hsame, hopen⟩
      obtain rfl := Nat.succ.inj hsame
      exact hopen hclosed
    next hopen =>
      constructor
      · rintro hsame
        obtain rfl := Option.some.inj hsame
        exact ⟨rfl, hopen⟩
      · rintro ⟨hsame, -⟩
        obtain rfl := Nat.succ.inj hsame
        rfl

theorem closed_cons : Closed socket (x :: past) ↔
    closes? x.event.event = some socket ∧ socket < x.before.node.accepted ∨ Closed socket past :=
  once_cons

/-- A socket stays open for as long as nothing of its own happens. -/
theorem latestOpen_before (haccepted : x.after.link.accepted = x.before.link.accepted)
    (h : socket ∈ latestOpen x.after.link (x :: past)) : socket ∈ latestOpen x.before.link past := by
  obtain ⟨hlast, hopen⟩ := mem_latestOpen.mp h
  refine mem_latestOpen.mpr ⟨haccepted ▸ hlast, fun hclosed => hopen ?_⟩
  exact closed_cons.mpr (.inr hclosed)

theorem latestOpen_after (haccepted : x.after.link.accepted = x.before.link.accepted)
    (h : socket ∈ latestOpen x.before.link past) (hother : closes? x.event.event ≠ some socket) :
    socket ∈ latestOpen x.after.link (x :: past) := by
  obtain ⟨hlast, hopen⟩ := mem_latestOpen.mp h
  refine mem_latestOpen.mpr ⟨haccepted.trans hlast, fun hclosed => ?_⟩
  rcases closed_cons.mp hclosed with ⟨hnow, -⟩ | hpast
  · exact hother hnow
  · exact hopen hpast

/-- An event that clears `connection` is stale exactly when the latest socket outlives it. -/
theorem holds_iff_of_cleared (hcleared : x.after.link = { x.before.link with connection := none }) :
    (∀ socket ∈ latestOpen x.after.link (x :: past), x.after.link.connection = some socket) ↔
      ∀ socket ∈ latestOpen x.before.link past, closes? x.event.event = some socket := by
  have haccepted : x.after.link.accepted = x.before.link.accepted := by rw [hcleared]
  have hnone : x.after.link.connection = none := by rw [hcleared]
  constructor
  · intro hholds socket hopen
    by_contra hother
    have hconnection := hholds socket (latestOpen_after haccepted hopen hother)
    exact Option.some_ne_none socket (hconnection.symm.trans hnone)
  · intro hown socket hopen
    have hbefore := latestOpen_before haccepted hopen
    have hlt : socket < x.before.node.accepted := by
      have hlast := (mem_latestOpen.mp hbefore).1
      exact Nat.lt_of_succ_le (Nat.le_of_eq hlast.symm)
    exact absurd (closed_cons.mpr (.inl ⟨hown socket hbefore, hlt⟩)) (mem_latestOpen.mp hopen).2

theorem closes?_of_ends? {event : Event} (h : ends? event = some socket) :
    closes? event = some socket := by
  cases event with
  | socketDestroyed closed => cases h
  | _ => exact h

theorem Linked.holds_iff (h : Linked x.before.link past)
    (hmoves : Relinks x.before x.event.event x.after.link) :
    (∀ socket ∈ latestOpen x.after.link (x :: past), x.after.link.connection = some socket) ↔
      NothingStale x past := by
  have hcleared := @holds_iff_of_cleared past x
  have hbefore (haccepted : x.after.link.accepted = x.before.link.accepted) {socket : Nat}
      (hopen : socket ∈ latestOpen x.after.link (x :: past)) := latestOpen_before haccepted hopen
  unfold NothingStale
  generalize hk : x.after.link = k, hevent : x.event.event = event at *
  cases hmoves with
  | keeps hcloses hexit =>
    refine iff_of_true (fun socket hopen => h.holds socket (hbefore rfl hopen)) ?_
    intro socket hopen
    refine ⟨fun earlier hearlier => ?_, hexit⟩
    have hnever : x.before.link.accepted ≤ earlier := hcloses earlier (closes?_of_ends? hearlier)
    rw [(mem_latestOpen.mp hopen).1] at hnever
    exact Nat.le_of_succ_le hnever
  | destroys hlt =>
    exact iff_of_true (fun socket hopen => h.holds socket (hbefore rfl hopen))
      fun socket hopen => ⟨nofun, nofun⟩
  | connects =>
    refine iff_of_true (fun socket hopen => ?_) fun socket hopen => ⟨nofun, nofun⟩
    exact congrArg some (Nat.succ.inj (mem_latestOpen.mp hopen).1)
  | @ends event ended he hlt =>
    rw [hcleared rfl]
    refine forall₂_congr fun socket hopen => ?_
    have hlast : x.before.node.accepted = socket + 1 := (mem_latestOpen.mp hopen).1
    constructor
    · intro hown
      obtain rfl := Option.some.inj ((closes?_of_ends? he).symm.trans hown)
      refine ⟨fun earlier hearlier => Nat.le_of_eq (Option.some.inj (he.symm.trans hearlier)), ?_⟩
      rintro child code signal rfl
      cases he
    · rintro ⟨hlatest, -⟩
      have hle := hlatest ended he
      obtain rfl : ended = socket := by omega
      exact closes?_of_ends? he
  | @exits child code signal hc =>
    rw [hcleared rfl]
    refine forall₂_congr fun socket hopen => iff_of_false nofun ?_
    rintro ⟨-, hexits⟩
    exact hexits child code signal rfl hc

theorem Linked.step (h : Linked x.before.link past)
    (hmoves : Relinks x.before x.event.event x.after.link)
    (hholds : ∀ socket ∈ latestOpen x.after.link (x :: past),
      x.after.link.connection = some socket) :
    Linked x.after.link (x :: past) := by
  refine ⟨hholds, ?_⟩
  generalize hk : x.after.link = k, hevent : x.event.event = event at hmoves
  cases hmoves with
  | @destroys socket hlt =>
    intro destroyed hdestroyed
    rcases List.mem_cons.mp hdestroyed with rfl | hdestroyed
    · exact closed_cons.mpr (.inl ⟨by rw [hevent]; rfl, hlt⟩)
    · exact closed_cons.mpr (.inr (h.destroyed destroyed hdestroyed))
  | _ => exact fun destroyed hdestroyed => closed_cons.mpr (.inr (h.destroyed destroyed hdestroyed))

/-- What the invariant says of a socket that a message is for. -/
theorem Linked.reaches (h : Linked k l) (hopen : socket ∈ latestOpen k l) :
    k.connection = some socket ∧ socket ∉ k.destroyed :=
  ⟨h.holds socket hopen, fun hd => (mem_latestOpen.mp hopen).2 (h.destroyed socket hd)⟩

end

theorem Linked.latest_iff (h : Linked m.link past) :
    HoldsLatest ((manager cfg).react m e) past ↔ NothingStale ((manager cfg).react m e) past := by
  have hholds := h.holds_iff (x := (manager cfg).react m e) (step_relinks cfg m e)
  constructor
  · rintro ⟨hlatest, -, -⟩
    exact hholds.mp hlatest
  · intro hstale
    refine ⟨hholds.mpr hstale, ?_, ?_⟩
    · intro socket hopen hstop
      obtain ⟨hconnection, hdestroyed⟩ := h.reaches hopen
      have hstop : e.event = .stop := hstop
      have hstep : Publisher.step cfg m e = stop e.clock m := by simp only [Publisher.step, hstop]
      change ∃ msg, .send socket msg ∈ (Publisher.step cfg m e).2 ∧ _
      rw [hstep]
      exact stop_sends hconnection hdestroyed
    · rintro socket hopen ⟨hmints, token, hminted⟩
      obtain ⟨hconnection, hdestroyed⟩ := h.reaches hopen
      have hminted : e.event = .minted token := hminted
      have hmints : 0 < m.node.mints := hmints
      have hstep : Publisher.step cfg m e = onTokenMinted cfg e.clock token
          { m with node := { m.node with mints := m.node.mints - 1 } } := by
        simp only [Publisher.step, hminted, if_pos hmints]
      change ∃ msg, .send socket msg ∈ (Publisher.step cfg m e).2 ∧ _
      rw [hstep]
      exact onTokenMinted_sends hconnection hdestroyed

/-- The latest socket is the connection, and gets every message, in exactly the
runs in which nothing of an earlier publisher comes late. -/
theorem holdsLatest_iff (cfg : Config) (es : List Stamped) :
    Always HoldsLatest ((manager cfg).log es) ↔ Always NothingStale ((manager cfg).log es) := by
  refine System.always_iff (fun l => Linked ((manager cfg).state l).link l) ?_ ?_ es
  · exact ⟨nofun, nofun⟩
  · intro past e h
    exact ⟨h.latest_iff, fun hholds =>
      h.step (x := (manager cfg).react _ e) (step_relinks cfg _ e) hholds.holds⟩

/-- The first publisher's socket closes after the second one has connected:
`stop()` sends the second nothing. -/
theorem late_close_drops_stop :
    ¬ Always HoldsLatest ((manager frontCamera).log
      [at10h .stop, at10h (.socketClose 0), at10h .connect, at10h (.restartTimeout 0 true),
        at10h (.childExit 0 (some 1) none), at10h .connect, at10h (.listening true)]) := by
  intro h
  obtain ⟨msg, hmsg, -⟩ := h.1.stops 1 (by decide) rfl
  exact absurd (List.mem_singleton.mp hmsg) (by simp)

end Rvep.Publisher
