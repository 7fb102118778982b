import Rvep.Cockpit.ControlPage
import Rvep.R2Bridge.Stops

/-!
# The bridge's safety events and the cockpit

One bridge, through any packets, watchdog polls, disconnects and its shutdown,
and the control page of its vehicle. Safety events are delivered in the order
they were published. The bridge announces a watchdog stop and a stop by the
operator under different names, and the page acts on the first only.

A handler leaves its announcement to a task, so what the page is going to be
told is what is in flight and then what the tasks will send.
-/

namespace Rvep.BridgeLink

open Reactive Cockpit

structure State where
  bridge : R2Bridge.Bridge
  /-- Safety events in flight, oldest first. -/
  inFlight : List SafetyEvent
  page : ControlPage
  connection : ConnectionState

inductive Event where
  | bridge (event : R2Bridge.Stamped)
  | deliver
  | connection (state : ConnectionState)

def broadcasts (out : List R2Bridge.Effect) : List SafetyEvent :=
  out.filterMap fun
    | .safetyEvent event => some event
    | _ => none

variable (cfg : R2Bridge.Config)

def step (s : State) : Event → State × List SafetyEvent
  | .bridge event =>
    let (bridge, out) := R2Bridge.step cfg s.bridge event
    ({ s with bridge := bridge, inFlight := s.inFlight ++ broadcasts out }, broadcasts out)
  | .deliver =>
    match s.inFlight with
    | [] => (s, [])
    | event :: rest => ({ s with inFlight := rest, page := s.page.onData event }, [])
  | .connection state => ({ s with connection := state }, [])

def link : System State Event (List SafetyEvent) where
  init :=
    { bridge := {}, inFlight := [], page := ControlPage.new cfg.vehicleId, connection := .disconnected }
  step := step cfg

abbrev LinkEntry := Entry State Event (List SafetyEvent)
abbrev LinkLog := Log State Event (List SafetyEvent)

def State.display (s : State) : DisplayState := displayState s.connection s.page.safetyState

-- ---------------------------------------------------------------------------
-- What the operator is shown
-- ---------------------------------------------------------------------------

/-- The kind of the packet the bridge handles, if it handles one. -/
def Event.kind? : Event → Option R2Bridge.Kind
  | .bridge e => e.event.kind?
  | _ => none

/-- `main` announces that it leaves safe mode, without being asked. -/
def Event.autoResumes : Event → Bool
  | .bridge ⟨_, .onlineSent⟩ => true
  | _ => false

def Handles (kind : R2Bridge.Kind) (x : LinkEntry) : Prop := x.event.kind? = some kind

instance (kind : R2Bridge.Kind) (x : LinkEntry) : Decidable (Handles kind x) :=
  inferInstanceAs (Decidable (_ = _))

def stops (l : LinkLog) : Nat := l.countP fun x => decide (Handles .emergencyStop x)

/-- The safety events the page processes. -/
def processed (x : LinkEntry) : List SafetyEvent :=
  match x.event with
  | .deliver => x.before.inFlight.take 1
  | _ => []

/-- The names of safety events that answer an `emergency_stop`. -/
def answers (names : List SafetyEventName) : Nat := names.count .emergencyStopAcked

def answered (l : LinkLog) : Nat := answers ((collected processed l).map (·.event))

/-- The operator has stopped the vehicle, and no resume was handled since. -/
def Stopped : LinkLog → Prop :=
  Since (fun x _ => ¬ Handles .resumeControl x) fun x _ => Handles .emergencyStop x

/-- As `Stopped`, by the operator's `n`th stop. -/
def StopInForce (n : Nat) : LinkLog → Prop :=
  Since (fun x _ => ¬ Handles .resumeControl x) fun x past =>
    Handles .emergencyStop x ∧ stops (x :: past) = n

/-- With a stop in force and its answer processed, the operator is not shown an
active vehicle. The bridge answers each stop once, in order. -/
def ShowsStop (x : LinkEntry) (past : LinkLog) : Prop :=
  ∀ n, StopInForce n (x :: past) → n ≤ answered (x :: past) → x.after.display ≠ .active

/-- The safety state that an event of the bridge takes the page to, if it does. -/
def announces (name : SafetyEventName) : Option SafetyState :=
  ControlPage.shows cfg.vehicleId
    { ts := 0, vehicleId := cfg.vehicleId, sessionId := cfg.sessionId, seq := 0, event := name,
      reason := none, message := none }

def eventNames (events : List SafetyEvent) : List SafetyEventName := events.map (·.event)

def taskNames (b : R2Bridge.Bridge) : List SafetyEventName := b.tasks.map (·.eventName)

/-- The safety states the bridge has announced to the page. -/
def announced (x : LinkEntry) : List SafetyState := (eventNames x.output).filterMap (announces cfg)

/-- The last of them, counting those its tasks have yet to announce. -/
def lastAnnounced (b : R2Bridge.Bridge) (past : LinkLog) : Option SafetyState :=
  ((taskNames b).filterMap (announces cfg)).getLast?.or (latest (announced cfg) past)

/-- The operator stops a vehicle only while safe mode, or nothing, was announced
last, and `main` does not leave safe mode after that. -/
def StopsInSafeMode (x : LinkEntry) (past : LinkLog) : Prop :=
  (Handles .emergencyStop x → lastAnnounced cfg x.before.bridge past ≠ some .active) ∧
    (x.event.autoResumes = true → ¬ Stopped past)

instance (x : LinkEntry) (past : LinkLog) : Decidable (StopsInSafeMode cfg x past) :=
  have : Decidable (Stopped past) := inferInstanceAs (Decidable (Since _ _ past))
  inferInstanceAs (Decidable (_ ∧ _))

-- ---------------------------------------------------------------------------
-- What the bridge announces
-- ---------------------------------------------------------------------------

/-- What a callback of the bridge sends, and what it leaves to its tasks. -/
inductive Announces (e : R2Bridge.Event) :
    List SafetyEventName → List SafetyEventName → List SafetyEventName → Prop
  | nothing {tasks} : e.kind? ≠ some .emergencyStop → Announces e tasks [] tasks
  | stop {tasks} : e.kind? = some .emergencyStop →
      Announces e tasks [] (tasks ++ [.emergencyStopAcked])
  | resume {tasks} : e.kind? = some .resumeControl → Announces e tasks [] (tasks ++ [.safeModeLeft])
  | trip {tasks} : e.kind? = none → Announces e tasks [] (tasks ++ [.safeModeEntered])
  | task {name tasks} : e.kind? = none → Announces e (name :: tasks) [name] tasks
  | autoResume {tasks} : e = .onlineSent → Announces e tasks [.safeModeLeft] tasks
  | main {name tasks} : e.kind? = none → name ≠ .safeModeLeft → name ≠ .emergencyStopAcked →
      Announces e tasks [name] tasks

/-- The events are the bridge's own. -/
def Own (events : List SafetyEvent) : Prop :=
  ∀ event ∈ events, event.vehicleId = cfg.vehicleId ∧ event.sessionId = cfg.sessionId

section
variable {cfg} {b : R2Bridge.Bridge} {out : List R2Bridge.Effect}

theorem broadcasts_append (out out' : List R2Bridge.Effect) :
    broadcasts (out ++ out') = broadcasts out ++ broadcasts out' := List.filterMap_append

theorem broadcasts_twists (topics : List R2Bridge.Topic) (msg : R2Bridge.Twist) :
    broadcasts (topics.map (.twist · msg)) = [] := by
  induction topics with
  | nil => rfl
  | cons topic topics ih => exact ih

theorem broadcasts_emergencyStop (a : R2Bridge.WheeltecAMRAdapter) :
    broadcasts a.publishEmergencyStop = [] := broadcasts_twists a.motorTopics .zero

theorem broadcasts_onMovement (cmd : R2Bridge.PyValue) :
    broadcasts (R2Bridge.onMovement cfg cmd) = [] := by
  unfold R2Bridge.onMovement
  cases R2Bridge.movementAxes cmd with
  | error err => rfl
  | ok axes => exact broadcasts_twists cfg.adapter.motorTopics _

variable (cfg) in
theorem own_publishSafety (r : R2Bridge.Reading) (name : SafetyEventName) (reason : Option String)
    (b : R2Bridge.Bridge) : Own cfg (broadcasts (R2Bridge.publishSafety cfg r name reason b).2) := by
  intro event hmem
  obtain rfl := List.mem_singleton.mp hmem
  exact ⟨rfl, rfl⟩

variable (cfg) in
/-- What a callback announces, by name, and that it announces it of itself. -/
def Announcing (b : R2Bridge.Bridge) (e : R2Bridge.Event)
    (result : R2Bridge.Bridge × List R2Bridge.Effect) : Prop :=
  Announces e (taskNames b) (eventNames (broadcasts result.2)) (taskNames result.1) ∧
    Own cfg (broadcasts result.2)

/-- A callback that sends nothing itself. -/
theorem announcing_silent {e : R2Bridge.Event} {result : R2Bridge.Bridge × List R2Bridge.Effect}
    (hout : broadcasts result.2 = []) (h : Announces e (taskNames b) [] (taskNames result.1)) :
    Announcing cfg b e result := by
  refine ⟨by rw [hout]; exact h, ?_⟩
  rw [hout]
  exact fun event hmem => absurd hmem List.not_mem_nil

theorem taskNames_createTask (name : SafetyEventName) (reason : Option String) (b : R2Bridge.Bridge) :
    taskNames (R2Bridge.createTask name reason b) = taskNames b ++ [name] := List.map_append

variable (cfg) in
theorem announcing_onData (r : R2Bridge.Reading) (packet : R2Bridge.Packet) (b : R2Bridge.Bridge) :
    Announcing cfg b (.data packet) (R2Bridge.onData cfg r packet b) := by
  have hstop := broadcasts_emergencyStop cfg.adapter
  cases packet with
  | error err => cases err <;> exact announcing_silent rfl (.nothing nofun)
  | ok cmd =>
    cases hget : cmd.get "type" .none with
    | error err =>
      have hkind : R2Bridge.Event.kind? (.data (.ok cmd)) = none := by
        simp [R2Bridge.Event.kind?, R2Bridge.Packet.kind?, hget]
      simp only [R2Bridge.onData, hget]
      exact announcing_silent rfl (.nothing (by simp [hkind]))
    | ok type =>
      have hkind : R2Bridge.Event.kind? (.data (.ok cmd)) = some (R2Bridge.Kind.ofType type) := by
        simp [R2Bridge.Event.kind?, R2Bridge.Packet.kind?, hget]
      simp only [R2Bridge.onData, hget]
      cases hof : R2Bridge.Kind.ofType type with
      | heartbeat => exact announcing_silent rfl (.nothing (by simp [hkind, hof]))
      | movement =>
        exact announcing_silent (broadcasts_onMovement cmd) (.nothing (by simp [hkind, hof]))
      | emergencyStop =>
        refine announcing_silent hstop ?_
        rw [taskNames_createTask]
        exact .stop (by simp [hkind, hof])
      | resumeControl =>
        refine announcing_silent rfl ?_
        rw [taskNames_createTask]
        exact .resume (by simp [hkind, hof])
      | unknown => exact announcing_silent rfl (.nothing (by simp [hkind, hof]))

variable (cfg) in
theorem announcing_step (b : R2Bridge.Bridge) (e : R2Bridge.Stamped) :
    Announcing cfg b e.event (R2Bridge.step cfg b e) := by
  have hstop := broadcasts_emergencyStop cfg.adapter
  obtain ⟨clock, event⟩ := e
  cases event with
  | data packet => exact announcing_onData cfg clock packet b
  | poll =>
    by_cases hexp : b.watchdog.expires cfg.heartbeatTimeoutS clock = true
    · simp only [R2Bridge.step, R2Bridge.poll_of_expires b hexp]
      refine announcing_silent hstop ?_
      rw [R2Bridge.triggerStop, taskNames_createTask]
      exact .trip rfl
    · simp only [R2Bridge.step, R2Bridge.poll_of_not_expires b hexp]
      exact announcing_silent rfl (.nothing nofun)
  | task =>
    change Announcing cfg b .task (R2Bridge.runTask cfg clock b)
    unfold R2Bridge.runTask
    cases htasks : b.tasks with
    | nil => exact announcing_silent rfl (.nothing nofun)
    | cons task tasks =>
      refine ⟨?_, own_publishSafety cfg clock task.eventName task.reason _⟩
      rw [taskNames, htasks]
      exact .task rfl
  | connected => exact ⟨.main rfl nofun nofun, own_publishSafety cfg clock _ _ b⟩
  | onlineSent => exact ⟨.autoResume rfl, own_publishSafety cfg clock _ _ b⟩
  | autoResumed => exact announcing_silent rfl (.nothing nofun)
  | disconnected => exact announcing_silent hstop (.nothing nofun)
  | shutdown =>
    change Announcing cfg b .shutdown
      (_, cfg.adapter.publishEmergencyStop ++ (R2Bridge.publishSafety cfg clock _ _ b).2)
    rw [Announcing, broadcasts_append, hstop, List.nil_append]
    exact ⟨.main rfl nofun nofun, own_publishSafety cfg clock _ _ b⟩

end

-- ---------------------------------------------------------------------------
-- What the page will show
-- ---------------------------------------------------------------------------

/-- The safety state of a page once it has processed events of these names. -/
def play (state : SafetyState) (names : List SafetyEventName) : SafetyState :=
  names.foldl (fun state name => (announces cfg name).getD state) state

/-- From the `n`th answer among these names on, the page is not active. -/
def Settles : Nat → SafetyState → List SafetyEventName → Prop
  | 0, state, names => state ≠ .active ∧ .safeModeLeft ∉ names
  | _ + 1, _, [] => False
  | n + 1, state, name :: names =>
    Settles (if name = .emergencyStopAcked then n else n + 1) ((announces cfg name).getD state) names

section
variable {cfg} {n : Nat} {state state' : SafetyState} {name : SafetyEventName}
  {names names' : List SafetyEventName}

theorem settles_zero : Settles cfg 0 state names ↔ state ≠ .active ∧ .safeModeLeft ∉ names := by
  cases names <;> exact Iff.rfl

theorem announces_active (h : announces cfg name = some .active) : name = .safeModeLeft := by
  unfold announces ControlPage.shows at h
  split at h
  next => cases name <;> first | rfl | simp at h
  next => cases h

@[simp] theorem announces_acked : announces cfg .emergencyStopAcked = none := by
  unfold announces ControlPage.shows
  split <;> rfl

theorem shows_own {event : SafetyEvent} (hvehicle : event.vehicleId = cfg.vehicleId)
    (hsession : event.sessionId = cfg.sessionId) :
    ControlPage.shows cfg.vehicleId event = announces cfg event.event := by
  simp [announces, ControlPage.shows, SafetyEvent.accepted, hvehicle, hsession]

theorem getD_announces (hname : name ≠ .safeModeLeft) (hstate : state ≠ .active) :
    (announces cfg name).getD state ≠ .active := by
  cases h : announces cfg name with
  | none => exact hstate
  | some shown =>
    rintro rfl
    exact hname (announces_active h)

theorem play_append : play cfg state (names ++ names') = play cfg (play cfg state names) names' :=
  List.foldl_append

theorem play_eq (state : SafetyState) (names : List SafetyEventName) :
    play cfg state names = (names.filterMap (announces cfg)).getLast?.getD state := by
  induction names generalizing state with
  | nil => rfl
  | cons name names ih =>
    rw [play, List.foldl_cons, ← play, ih]
    cases h : announces cfg name with
    | none => rw [List.filterMap_cons_none h, Option.getD_none]
    | some shown =>
      rw [List.filterMap_cons_some h, List.getLast?_cons, Option.getD_some, Option.getD_some]

theorem Settles.of_not_active (h : Settles cfg n state names) (hstate : state' ≠ .active) :
    Settles cfg n state' names := by
  induction names generalizing n state state' with
  | nil =>
    cases n with
    | zero => exact ⟨hstate, h.2⟩
    | succ n => exact h
  | cons name names ih =>
    cases n with
    | zero => exact ⟨hstate, h.2⟩
    | succ n =>
      rw [Settles] at h ⊢
      cases hname : announces cfg name with
      | none => exact ih (by simpa [hname] using h) hstate
      | some shown => simpa [hname] using h

theorem Settles.tail (h : Settles cfg n state (name :: names)) :
    Settles cfg (n - answers [name]) ((announces cfg name).getD state) names := by
  cases n with
  | zero =>
    obtain ⟨hstate, hleft⟩ := h
    rw [List.mem_cons, not_or] at hleft
    rw [Nat.zero_sub, settles_zero]
    exact ⟨getD_announces (Ne.symm hleft.1) hstate, hleft.2⟩
  | succ n =>
    rw [Settles] at h
    by_cases hname : name = .emergencyStopAcked
    · simpa [hname, answers] using h
    · simpa [hname, answers] using h

/-- Nothing that is added later makes the page active but the end of safe mode. -/
theorem Settles.append (h : Settles cfg n state names) (hname : name ≠ .safeModeLeft) :
    Settles cfg n state (names ++ [name]) := by
  induction names generalizing n state with
  | nil =>
    cases n with
    | zero => exact ⟨h.1, by simpa using Ne.symm hname⟩
    | succ n => exact h.elim
  | cons first names ih =>
    cases n with
    | zero => exact ⟨h.1, by simpa [Ne.symm hname] using h.2⟩
    | succ n =>
      rw [List.cons_append, Settles]
      exact ih h

/-- Nor does what `main` sends before the tasks that are still to run. -/
theorem Settles.insert (h : Settles cfg n state (names ++ names')) (hname : name ≠ .safeModeLeft)
    (hacked : name ≠ .emergencyStopAcked) : Settles cfg n state (names ++ name :: names') := by
  induction names generalizing n state with
  | nil =>
    cases n with
    | zero =>
      rw [List.nil_append, settles_zero] at h ⊢
      exact ⟨h.1, by simpa [Ne.symm hname] using h.2⟩
    | succ n =>
      rw [List.nil_append, Settles, if_neg hacked]
      cases hshown : announces cfg name with
      | none => exact h
      | some shown =>
        refine h.of_not_active ?_
        rintro rfl
        exact hname (announces_active hshown)
  | cons first names ih =>
    cases n with
    | zero => exact ⟨h.1, by simpa [Ne.symm hname] using h.2⟩
    | succ n =>
      rw [List.cons_append, Settles]
      exact ih h

theorem settles_stop (h : play cfg state names ≠ .active) :
    Settles cfg (answers names + 1) state (names ++ [.emergencyStopAcked]) := by
  induction names generalizing state with
  | nil =>
    rw [List.nil_append, Settles, if_pos rfl, announces_acked]
    exact ⟨h, List.not_mem_nil⟩
  | cons name names ih =>
    rw [List.cons_append, Settles]
    by_cases hname : name = .emergencyStopAcked
    · subst hname
      rw [if_pos rfl, answers, List.count_cons_self]
      exact ih h
    · rw [if_neg hname, answers, List.count_cons_of_ne hname]
      exact ih h

end

-- ---------------------------------------------------------------------------
-- Runs
-- ---------------------------------------------------------------------------

/-- What the page is going to be told: what is in flight, then what the tasks send. -/
def State.pipeline (s : State) : List SafetyEventName := eventNames s.inFlight ++ taskNames s.bridge

structure Follows (l : LinkLog) (s : State) : Prop where
  page : s.page.vehicleId = cfg.vehicleId
  own : Own cfg s.inFlight
  view : play cfg s.page.safetyState (eventNames s.inFlight) =
    (latest (announced cfg) l).getD .unknown
  counted : stops l = answered l + answers s.pipeline
  /-- From the answer to a stop in force on, the page is not active. -/
  stopped : ∀ n, StopInForce n l →
    Settles cfg (n - answered l) s.page.safetyState s.pipeline

section
variable {cfg} {s : State} {past : LinkLog}

theorem StopInForce.stopped {n : Nat} {l : LinkLog} (h : StopInForce n l) : Stopped l :=
  h.imp (fun _ _ hx => hx) fun _ _ hx => hx.1

theorem answers_append (names names' : List SafetyEventName) :
    answers (names ++ names') = answers names + answers names' := List.count_append

theorem stops_cons (x : LinkEntry) (l : LinkLog) :
    stops (x :: l) = stops l + if Handles .emergencyStop x then 1 else 0 := by
  simp only [stops, List.countP_cons, decide_eq_true_eq]

theorem answered_cons (x : LinkEntry) (l : LinkLog) :
    answered (x :: l) = answered l + answers (eventNames (processed x)) := by
  rw [answered, collected_cons, List.map_append, answers_append]
  rfl

theorem answered_cons_of_nil {x : LinkEntry} (h : processed x = []) :
    answered (x :: past) = answered past := by
  rw [answered_cons, h]
  rfl

section
variable {e : R2Bridge.Event} {tasks sent tasks' : List SafetyEventName}

theorem Announces.answers (h : Announces e tasks sent tasks') :
    BridgeLink.answers (sent ++ tasks') =
      BridgeLink.answers tasks + if e.kind? = some .emergencyStop then 1 else 0 := by
  cases h with
  | nothing hkind => simp [hkind]
  | stop hkind => simp [hkind, BridgeLink.answers]
  | resume hkind => simp [hkind, BridgeLink.answers]
  | trip hkind => simp [hkind, BridgeLink.answers]
  | task hkind => simp [hkind, BridgeLink.answers]
  | autoResume he => simp [he, R2Bridge.Event.kind?, BridgeLink.answers]
  | main hkind _ hacked => simp [hkind, BridgeLink.answers, hacked]

/-- Only a resume, and `main` on joining, may end what a stop has settled. -/
theorem Announces.settles (h : Announces e tasks sent tasks')
    (hresume : e.kind? ≠ some .resumeControl) (hauto : e ≠ .onlineSent)
    {n : Nat} {state : SafetyState} {names : List SafetyEventName}
    (hs : Settles cfg n state (names ++ tasks)) :
    Settles cfg n state (names ++ (sent ++ tasks')) := by
  cases h with
  | nothing => exact hs
  | stop =>
    rw [List.nil_append, ← List.append_assoc]
    exact hs.append nofun
  | resume hkind => exact absurd hkind hresume
  | trip =>
    rw [List.nil_append, ← List.append_assoc]
    exact hs.append nofun
  | task => exact hs
  | autoResume he => exact absurd he hauto
  | main _ hleft hacked => exact hs.insert hleft hacked

theorem Announces.of_stop (h : Announces e tasks sent tasks')
    (hkind : e.kind? = some .emergencyStop) : sent = [] ∧ tasks' = tasks ++ [.emergencyStopAcked] := by
  cases h with
  | nothing hnot => exact absurd hkind hnot
  | stop => exact ⟨rfl, rfl⟩
  | resume hother => exact absurd (hkind.symm.trans hother) nofun
  | trip hother => exact absurd (hkind.symm.trans hother) nofun
  | task hother => exact absurd (hkind.symm.trans hother) nofun
  | autoResume he => exact absurd (he ▸ hkind) nofun
  | main hother => exact absurd (hkind.symm.trans hother) nofun

end

theorem Follows.play_pipeline (h : Follows cfg past s) :
    play cfg s.page.safetyState s.pipeline =
      (lastAnnounced cfg s.bridge past).getD .unknown := by
  rw [State.pipeline, play_append, h.view, play_eq, lastAnnounced, Option.getD_or]

theorem Follows.bridge (h : Follows cfg past s) (e : R2Bridge.Stamped) :
    let x := (link cfg).react s (.bridge e)
    StopsInSafeMode cfg x past → Follows cfg (x :: past) x.after := by
  intro x hsafe
  obtain ⟨hann, hown⟩ := announcing_step cfg s.bridge e
  have hpipeline : x.after.pipeline = eventNames s.inFlight ++
      (eventNames x.output ++ taskNames x.after.bridge) := by
    rw [← List.append_assoc]
    exact congrArg (· ++ taskNames x.after.bridge) List.map_append
  have hanswered : answered (x :: past) = answered past := answered_cons_of_nil rfl
  refine ⟨h.page, ?_, ?_, ?_, ?_⟩
  · intro event hmem
    rcases List.mem_append.mp hmem with hmem | hmem
    · exact h.own event hmem
    · exact hown event hmem
  · change play cfg s.page.safetyState (eventNames (s.inFlight ++ x.output)) = _
    rw [eventNames, List.map_append, play_append, latest_cons, Option.getD_or, ← h.view, play_eq]
    rfl
  · have hcount : answers (eventNames x.output ++ taskNames x.after.bridge) = _ := hann.answers
    rw [hanswered, hpipeline, stops_cons, h.counted, answers_append, hcount, State.pipeline,
      answers_append]
    exact (Nat.add_assoc ..).trans (congrArg _ (Nat.add_assoc ..))
  · rintro n (⟨hkind, hn⟩ | ⟨hnot, hpast⟩)
    · have hplay : play cfg s.page.safetyState s.pipeline ≠ .active := by
        rw [h.play_pipeline]
        intro hactive
        have hlast : lastAnnounced cfg s.bridge past ≠ some .active := hsafe.1 hkind
        cases hl : lastAnnounced cfg s.bridge past with
        | none => simp [hl] at hactive
        | some state => exact hlast (by simpa [hl] using hactive)
      obtain ⟨hsent, htasks⟩ := hann.of_stop hkind
      have hsent : eventNames x.output = [] := hsent
      have htasks : taskNames x.after.bridge = taskNames s.bridge ++ [.emergencyStopAcked] := htasks
      have hleft : n - answered past = answers s.pipeline + 1 := by
        rw [stops_cons, if_pos hkind, h.counted] at hn
        omega
      rw [hanswered, hleft, hpipeline, hsent, htasks, List.nil_append, ← List.append_assoc]
      exact settles_stop hplay
    · rw [hanswered, hpipeline]
      refine hann.settles hnot ?_ (h.stopped n hpast)
      intro hauto
      obtain ⟨clock, event⟩ := e
      obtain rfl : event = .onlineSent := hauto
      exact hsafe.2 rfl (StopInForce.stopped hpast)

theorem Follows.deliver (h : Follows cfg past s) {event : SafetyEvent} {rest : List SafetyEvent}
    (hq : s.inFlight = event :: rest) :
    Follows cfg ((link cfg).react s .deliver :: past)
      { s with inFlight := rest, page := s.page.onData event } := by
  set x := (link cfg).react s .deliver
  obtain ⟨hvehicle, hsession⟩ := h.own event (hq ▸ List.mem_cons_self)
  have hshown : (s.page.onData event).safetyState =
      (announces cfg event.event).getD s.page.safetyState := by
    rw [ControlPage.onData_safetyState, h.page, shows_own hvehicle hsession]
  have hpipeline : s.pipeline = event.event :: (eventNames rest ++ taskNames s.bridge) := by
    rw [State.pipeline, hq]
    rfl
  have hanswered : answered (x :: past) = answered past + answers [event.event] := by
    rw [answered_cons, processed]
    exact congrArg (fun events => answered past + answers (eventNames (events.take 1))) hq
  have hsilent : announced cfg x = [] := by
    rw [announced, show x.output = [] by simp [x, link, step, hq]]
    rfl
  refine ⟨(ControlPage.onData_vehicleId ..).trans h.page, ?_, ?_, ?_, ?_⟩
  · exact fun event' hmem => h.own event' (hq ▸ List.mem_cons_of_mem event hmem)
  · rw [latest_cons_of_nil hsilent, ← h.view, hq, hshown]
    rfl
  · have hstops : stops (x :: past) = stops past := stops_cons x past
    have hcount : answers s.pipeline =
        answers [event.event] + answers (eventNames rest ++ taskNames s.bridge) := by
      rw [hpipeline, ← List.singleton_append, answers_append]
    rw [hstops, h.counted, hanswered, hcount]
    exact (Nat.add_assoc ..).symm
  · rintro n (⟨hkind, -⟩ | ⟨-, hpast⟩)
    · exact absurd hkind nofun
    · have hsettles := h.stopped n hpast
      rw [hpipeline] at hsettles
      rw [hanswered, ← Nat.sub_sub, hshown]
      exact hsettles.tail

/-- A step that neither sends, schedules nor delivers anything. -/
theorem Follows.aside (h : Follows cfg past s) {x : LinkEntry} (hkind : x.event.kind? = none)
    (hout : x.output = []) (hprocessed : processed x = []) {after : State}
    (hbridge : after.bridge = s.bridge) (hqueue : after.inFlight = s.inFlight)
    (hpage : after.page = s.page) : Follows cfg (x :: past) after := by
  have hanswered : answered (x :: past) = answered past := answered_cons_of_nil hprocessed
  have hpipeline : after.pipeline = s.pipeline := by
    rw [State.pipeline, State.pipeline, hbridge, hqueue]
  have hsilent : announced cfg x = [] := by
    rw [announced, hout]
    rfl
  refine ⟨hpage ▸ h.page, hqueue ▸ h.own, ?_, ?_, ?_⟩
  · rw [latest_cons_of_nil hsilent, hqueue, hpage, h.view]
  · have hnot : ¬ Handles .emergencyStop x := fun hstop => absurd (hkind.symm.trans hstop) nofun
    rw [hanswered, hpipeline, stops_cons, if_neg hnot]
    exact h.counted
  · rintro n (⟨hstop, -⟩ | ⟨-, hpast⟩)
    · exact absurd (hkind.symm.trans hstop) nofun
    · rw [hanswered, hpipeline, hpage]
      exact h.stopped n hpast

theorem Follows.step (h : Follows cfg past s) (e : Event) :
    let x := (link cfg).react s e
    StopsInSafeMode cfg x past → Follows cfg (x :: past) x.after := by
  intro x hsafe
  cases e with
  | bridge e => exact h.bridge e hsafe
  | deliver =>
    cases hq : s.inFlight with
    | nil =>
      have hsame : BridgeLink.step cfg s .deliver = (s, []) := by simp [BridgeLink.step, hq]
      have hafter : x.after = s := congrArg Prod.fst hsame
      have hprocessed : processed x = [] := congrArg (List.take 1) hq
      exact h.aside rfl (congrArg Prod.snd hsame) hprocessed (congrArg _ hafter) (congrArg _ hafter)
        (congrArg _ hafter)
    | cons event rest =>
      have hafter : x.after = { s with inFlight := rest, page := s.page.onData event } := by
        simp [x, link, BridgeLink.step, System.react, hq]
      rw [hafter]
      exact h.deliver hq
  | connection state => exact h.aside rfl rfl rfl rfl rfl rfl

theorem Follows.shows {x : LinkEntry} (h : Follows cfg (x :: past) x.after) : ShowsStop x past := by
  intro n hstop hprocessed hactive
  have hsettles := h.stopped n hstop
  rw [Nat.sub_eq_zero_of_le hprocessed, settles_zero] at hsettles
  unfold State.display displayState at hactive
  cases hc : x.after.connection <;> simp [hc, hsettles.1] at hactive

end

/-- In every run in which the operator stops the vehicle only in safe mode, the
page shows no active vehicle from when the stop's answer is processed until a
resume is handled. -/
theorem shows_stop (es : List Event) :
    Always (StopsInSafeMode cfg) ((link cfg).log es) → Always ShowsStop ((link cfg).log es) := by
  refine System.always_of_invariant (fun l => Follows cfg l ((link cfg).state l)) ?_ ?_ es
  · exact ⟨rfl, fun event hmem => absurd hmem List.not_mem_nil, rfl, rfl, fun n h => h.elim⟩
  · intro past e hfollows hsafe
    have hnext := hfollows.step e hsafe
    exact ⟨hnext, hnext.shows⟩

private def atSecond (seconds : Nat) (event : R2Bridge.Event) : Event :=
  .bridge ⟨⟨seconds, 1000 * seconds⟩, event⟩

private def stopPacket : R2Bridge.Packet := .ok (.dict [("type", .str "emergency_stop")])

private def joining : List Event := R2Bridge.joins.map .bridge

/-- The operator falls silent, comes back and stops the vehicle in safe mode. Newest first. -/
def stoppedWhenSafe : List Event :=
  [.deliver, .deliver, atSecond 6 .task, atSecond 6 (.data stopPacket), .deliver, .deliver,
    .connection .connected, atSecond 5 .task, atSecond 5 .poll,
    atSecond 1 (.data R2Bridge.heartbeatPacket)] ++ joining

theorem stopped_when_safe_shown : Always ShowsStop ((link R2Bridge.r2).log stoppedWhenSafe) :=
  shows_stop R2Bridge.r2 stoppedWhenSafe (by decide +kernel)

/-- The operator stops the vehicle while driving it, and the acknowledgement arrives. Newest first. -/
def stoppedWhenDriving : List Event :=
  [.deliver, atSecond 1 .task, atSecond 1 (.data stopPacket), .deliver, .deliver,
    .connection .connected] ++ joining

theorem stopped_when_driving_shown_active :
    ¬ Always ShowsStop ((link R2Bridge.r2).log stoppedWhenDriving) := by
  intro h
  have hstop : StopInForce 1 ((link R2Bridge.r2).log stoppedWhenDriving) :=
    .inr ⟨by decide +kernel, .inr ⟨by decide +kernel, .inl ⟨by decide +kernel, by decide +kernel⟩⟩⟩
  exact h.1 1 hstop (by decide +kernel) (by decide +kernel)

end Rvep.BridgeLink
