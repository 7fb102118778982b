import Rvep.Cockpit.ControlPage
import Rvep.Edge.Laws

/-!
# The edge's safety events and the cockpit

One edge, through any commands, watcher ticks, room losses, shutdowns and
restarts, and one cockpit that stays subscribed. Safety events are delivered
in the order they were published, across restarts too, and an event published
outside a room is published to nobody.
-/

namespace Rvep.SafetyLink

open Reactive Cockpit

/-- What `randomUUID` returns. -/
abbrev SessionId := { s : String // s ≠ "" }

structure State where
  edge : Edge.Agent
  /-- Safety events in flight, oldest first. -/
  inFlight : List SafetyEvent
  page : ControlPage

inductive Event where
  | edge (event : Edge.Stamped)
  | shutdown (clock : Edge.Reading)
  | restart (sessionId : SessionId)
  | deliver

variable (vehicle : Edge.VehicleId)

def broadcasts (out : List Edge.Effect) : List SafetyEvent :=
  out.filterMap fun
    | .broadcast event => some event
    | _ => none

def publish (result : Edge.Agent × List Edge.Effect) (s : State) : State :=
  { s with edge := result.1, inFlight := s.inFlight ++ broadcasts result.2 }

def step (s : State) : Event → State
  | .edge event => publish (Edge.step vehicle s.edge event) s
  | .shutdown clock => publish (Edge.onShutdown vehicle clock s.edge) s
  | .restart sessionId => { s with edge := Edge.Agent.boot sessionId }
  | .deliver =>
    match s.inFlight with
    | [] => s
    | event :: rest => { s with inFlight := rest, page := s.page.onData event }

def safety (sessionId : SessionId) : System State Event Unit where
  init := { edge := Edge.Agent.boot sessionId, inFlight := [], page := ControlPage.new vehicle }
  step s e := (step vehicle s e, ())

-- ---------------------------------------------------------------------------
-- What the edge broadcasts
-- ---------------------------------------------------------------------------

section
variable (out out' : List Edge.Effect) (report : Edge.ControlEvent) (event : SafetyEvent)

@[simp] theorem broadcasts_nil : broadcasts [] = [] := rfl
@[simp] theorem broadcasts_report : broadcasts (.report report :: out) = broadcasts out := rfl
@[simp] theorem broadcasts_broadcast :
    broadcasts (.broadcast event :: out) = event :: broadcasts out := rfl
@[simp] theorem broadcasts_zeroVelocity : broadcasts (.zeroVelocity :: out) = broadcasts out := rfl
@[simp] theorem broadcasts_append : broadcasts (out ++ out') = broadcasts out ++ broadcasts out' :=
  List.filterMap_append

end

/-- A handler that leaves the edge safe and in its room either ended on an event
that locks the cockpit, or was silent and found the edge so. -/
structure Announces (a : Edge.Agent) (result : Edge.Agent × List Edge.Effect) : Prop where
  session : result.1.state.sessionId = a.state.sessionId
  origin : ∀ event ∈ broadcasts result.2,
    event.vehicleId = vehicle ∧ event.sessionId = a.state.sessionId
  announced : result.1.activeRoom = true → result.1.state.safeMode = true →
    (∃ event, (broadcasts result.2).getLast? = some event ∧ event.event.locks = true) ∨
      broadcasts result.2 = [] ∧ a.activeRoom = true ∧ a.state.safeMode = true

section
variable {vehicle} {a : Edge.Agent} {result : Edge.Agent × List Edge.Effect}

theorem announces_silent (hs : result.1.state.sessionId = a.state.sessionId)
    (hroom : result.1.activeRoom = a.activeRoom) (hsafe : result.1.state.safeMode = a.state.safeMode)
    (hout : broadcasts result.2 = []) : Announces vehicle a result where
  session := hs
  origin := by simp [hout]
  announced hr hm := .inr ⟨hout, hroom ▸ hr, hsafe ▸ hm⟩

variable (vehicle) in
theorem publishSafetyEvent_cases (r : Edge.Reading) (event : SafetyEventName)
    (reason : Option String) (a : Edge.Agent) :
    let sent := Edge.publishSafetyEvent vehicle r event reason a
    (a.activeRoom = true ∧ sent.1.activeRoom = true ∧ sent.1.state.sessionId = a.state.sessionId ∧
        ∃ e, broadcasts sent.2 = [e] ∧ e.vehicleId = vehicle ∧ e.sessionId = a.state.sessionId ∧
          e.event = event) ∨
      a.activeRoom = false ∧ sent = (a, []) := by
  intro sent
  have hsent : sent = Edge.publishSafetyEvent vehicle r event reason a := rfl
  clear_value sent
  unfold Edge.publishSafetyEvent at hsent
  split at hsent
  next h => exact .inl ⟨h, by rw [hsent]; exact h, by rw [hsent], _, by rw [hsent]; rfl, rfl, rfl, rfl⟩
  next h => exact .inr ⟨by simpa using h, hsent⟩

theorem enterSafeMode_activeRoom (r : Edge.Reading) (reason : String) (a : Edge.Agent) :
    (Edge.enterSafeMode vehicle r reason a).1.activeRoom = a.activeRoom := by
  unfold Edge.enterSafeMode
  split
  · rfl
  · simp only [Edge.publishSafetyEvent]
    split <;> rfl

theorem enterSafeMode_announces (r : Edge.Reading) (reason : String) (a : Edge.Agent) :
    Announces vehicle a (Edge.enterSafeMode vehicle r reason a) := by
  unfold Edge.enterSafeMode
  split
  next => exact announces_silent rfl rfl rfl rfl
  next =>
    let b : Edge.Agent := { a with state := { a.state with safeMode := true, reason := reason } }
    rcases publishSafetyEvent_cases vehicle r .safeModeEntered (some reason) b with
      ⟨-, -, hs, e, hout, hv, hid, he⟩ | ⟨hroom, hsent⟩
    · refine ⟨hs, ?_, fun _ _ => .inl ⟨e, ?_, by rw [he]; rfl⟩⟩
      · simp [Edge.reportEvent, b, hout, hv, hid]
      · simp [Edge.reportEvent, b, hout]
    · refine ⟨by simp [b, hsent], by simp [Edge.reportEvent, b, hsent], fun hr => ?_⟩
      simp only [b] at hroom hsent
      rw [hsent] at hr
      exact absurd (hroom.symm.trans hr) Bool.false_ne_true

/-- A handler that leaves the edge out of safe mode has nothing to announce. -/
theorem announces_driving (hs : result.1.state.sessionId = a.state.sessionId)
    (ho : ∀ event ∈ broadcasts result.2,
      event.vehicleId = vehicle ∧ event.sessionId = a.state.sessionId)
    (hsafe : result.1.state.safeMode = false) : Announces vehicle a result where
  session := hs
  origin := ho
  announced _ hm := absurd (hsafe.symm.trans hm) nofun

theorem publishSafetyEvent_origin (r : Edge.Reading) (event : SafetyEventName)
    (reason : Option String) (a : Edge.Agent) :
    (Edge.publishSafetyEvent vehicle r event reason a).1.state.sessionId = a.state.sessionId ∧
      ∀ e ∈ broadcasts (Edge.publishSafetyEvent vehicle r event reason a).2,
        e.vehicleId = vehicle ∧ e.sessionId = a.state.sessionId := by
  rcases publishSafetyEvent_cases vehicle r event reason a with
    ⟨-, -, hs, e, hout, hv, hid, -⟩ | ⟨-, hsent⟩
  · exact ⟨hs, by simp [hout, hv, hid]⟩
  · simp [hsent]

theorem resumeControl_announces (r : Edge.Reading) (acknowledgement : String) (a : Edge.Agent) :
    Announces vehicle a (Edge.resumeControl vehicle r acknowledgement a) := by
  unfold Edge.resumeControl
  split
  next => exact announces_silent rfl rfl rfl rfl
  next =>
    split
    next => exact announces_silent rfl rfl rfl rfl
    next =>
      split
      next hsafe =>
        obtain ⟨hdriving, -⟩ := Edge.leaveSafeMode_spec vehicle r a hsafe
        let b : Edge.Agent := { a with state := { a.state with safeMode := false } }
        obtain ⟨hs, ho⟩ := publishSafetyEvent_origin r .safeModeLeft
          (some "operator_resume") b
        refine announces_driving ?_ ?_ hdriving
        · simp only [Edge.leaveSafeMode, hsafe, Bool.not_true, Bool.false_eq_true, ↓reduceIte]
          exact hs
        · simp only [Edge.leaveSafeMode, hsafe, Bool.not_true, Bool.false_eq_true, ↓reduceIte]
          exact ho
      next hsafe =>
        obtain ⟨hs, ho⟩ := publishSafetyEvent_origin r .safeModeLeft
          (some "already_active") a
        exact announces_driving hs ho (by simpa using hsafe)

theorem Announces.append_report {out : List Edge.Effect} {b : Edge.Agent}
    (h : Announces vehicle a (b, out)) (report : Edge.ControlEvent) :
    Announces vehicle a (b, out ++ [.report report]) := by
  obtain ⟨hs, ho, ha⟩ := h
  have hsame : broadcasts (out ++ [.report report]) = broadcasts out := by simp
  exact ⟨hs, by rw [hsame]; exact ho, by rw [hsame]; exact ha⟩

theorem dispatch_announces (r : Edge.Reading) (cmd : ControlCommand) (a : Edge.Agent) :
    Announces vehicle a (Edge.dispatch vehicle r cmd a) := by
  cases hb : cmd.body with
  | heartbeat =>
    simp only [Edge.dispatch, hb]
    exact announces_silent rfl rfl rfl rfl
  | emergencyStop =>
    simp only [Edge.dispatch, hb]
    exact (enterSafeMode_announces r "emergency_stop" a).append_report _
  | resumeControl acknowledgement =>
    simp only [Edge.dispatch, hb]
    exact resumeControl_announces r acknowledgement a
  | movement axes =>
    simp only [Edge.dispatch, hb]
    split <;> exact announces_silent rfl rfl rfl rfl
  | action name params =>
    simp only [Edge.dispatch, hb]
    split <;> exact announces_silent rfl rfl rfl rfl
  | config key value =>
    simp only [Edge.dispatch, hb]
    exact announces_silent rfl rfl rfl rfl

theorem handleCommand_announces (r : Edge.Reading) (cmd : ControlCommand) (a : Edge.Agent) :
    Announces vehicle a (Edge.handleCommand vehicle r cmd a) := by
  have hid : (Edge.dedupe cmd.connectionEpoch cmd.seq a.state).1.sessionId = a.state.sessionId := by
    rw [Edge.dedupe_eq]
  rw [Edge.handleCommand_eq]
  split
  · obtain ⟨hs, ho, ha⟩ := dispatch_announces r cmd
      { a with state := (Edge.dedupe cmd.connectionEpoch cmd.seq a.state).1 }
    exact ⟨hs.trans hid, by rw [← hid]; exact ho, by simpa using ha⟩
  · exact announces_silent hid rfl (by simp) rfl

theorem onConnected_announces (r : Edge.Reading) (a : Edge.Agent) :
    Announces vehicle a (Edge.onConnected vehicle r a) := by
  let b : Edge.Agent := { a with activeRoom := true }
  obtain ⟨hs, ho⟩ := publishSafetyEvent_origin r .edgeOnline none b
  simp only [Edge.onConnected]
  split
  next hsafe =>
    rcases publishSafetyEvent_cases vehicle r .safeModeEntered
        (some (Edge.publishSafetyEvent vehicle r .edgeOnline none b).1.state.reason)
        (Edge.publishSafetyEvent vehicle r .edgeOnline none b).1 with
      ⟨-, -, hs', e, hout, hv, hid, he⟩ | ⟨hroom, -⟩
    · refine ⟨hs'.trans hs, ?_, fun _ _ => .inl ⟨e, ?_, by rw [he]; rfl⟩⟩
      · simp only [Edge.reportEvent, List.cons_append, broadcasts_report, broadcasts_append]
        rw [hout]
        intro event hevent
        rcases List.mem_append.mp hevent with hevent | hevent
        · exact ho event hevent
        · rw [List.mem_singleton.mp hevent]
          exact ⟨hv, hid.trans hs⟩
      · simp only [Edge.reportEvent, List.cons_append, broadcasts_report, broadcasts_append]
        rw [hout]
        simp
    · exact absurd hroom (Ne.symm Bool.false_ne_true)
  next hsafe =>
    refine announces_driving hs ?_ (by simpa using hsafe)
    simpa [Edge.reportEvent] using ho

variable (vehicle) in
theorem step_announces (a : Edge.Agent) (e : Edge.Stamped) :
    Announces vehicle a (Edge.step vehicle a e) := by
  obtain ⟨r, ev⟩ := e
  cases ev with
  | command cmd => exact handleCommand_announces r cmd a
  | data payload =>
    rw [Edge.step_data]
    cases Edge.commandOf vehicle (.data payload) with
    | none => exact announces_silent rfl rfl rfl rfl
    | some cmd => exact handleCommand_announces r cmd a
  | tick =>
    simp only [Edge.step, Edge.heartbeatTick]
    split
    · exact announces_silent rfl rfl rfl rfl
    · split
      · exact announces_silent rfl rfl rfl rfl
      · split
        · exact enterSafeMode_announces r "heartbeat_timeout" a
        · exact announces_silent rfl rfl rfl rfl
  | connected => exact onConnected_announces r a
  | disconnected =>
    let b : Edge.Agent := { a with activeRoom := false }
    obtain ⟨hs, ho, -⟩ := enterSafeMode_announces r "room_disconnected" b
    refine ⟨hs, ho, fun hroom => ?_⟩
    have hleft : (Edge.enterSafeMode vehicle r "room_disconnected" b).1.activeRoom = false :=
      enterSafeMode_activeRoom r "room_disconnected" b
    exact absurd (hleft.symm.trans hroom) Bool.false_ne_true

variable (vehicle) in
theorem onShutdown_announces (r : Edge.Reading) (a : Edge.Agent) :
    Announces vehicle a (Edge.onShutdown vehicle r a) := by
  rcases publishSafetyEvent_cases vehicle r .edgeDisconnecting (some "shutdown") a with
    ⟨-, -, hs, e, hout, hv, hid, he⟩ | ⟨-, hsent⟩
  · refine ⟨hs, ?_, fun _ _ => .inl ⟨e, ?_, by rw [he]; rfl⟩⟩
    · unfold Edge.onShutdown
      simp [hout, hv, hid]
    · unfold Edge.onShutdown
      simp [hout]
  · unfold Edge.onShutdown
    rw [hsent]
    exact announces_silent rfl rfl rfl rfl

end

-- ---------------------------------------------------------------------------
-- What the cockpit will show
-- ---------------------------------------------------------------------------

/-- The page once everything in flight has been delivered. -/
def view (s : State) : ControlPage := s.inFlight.foldl (fun page event => page.onData event) s.page

def FromEdge (event : SafetyEvent) : Prop := event.vehicleId = vehicle ∧ event.sessionId ≠ ""

/-- In its room and safe, the edge has already sent what takes the cockpit out
of `active`. -/
structure Follows (s : State) : Prop where
  page : s.page.vehicleId = vehicle
  session : s.edge.state.sessionId ≠ ""
  inFlight : ∀ event ∈ s.inFlight, FromEdge vehicle event
  shown : s.edge.activeRoom = true → s.edge.state.safeMode = true →
    (view s).safetyState ≠ .active
  /-- Without a vehicle id no safety event passes the schema. -/
  named : vehicle = "" → (view s).safetyState ≠ .active

section
variable {vehicle}

theorem foldl_onData_rejected {events : List SafetyEvent} (h : ∀ e ∈ events, e.accepted = false)
    (page : ControlPage) : events.foldl (fun page event => page.onData event) page = page := by
  induction events generalizing page with
  | nil => rfl
  | cons event events ih =>
    rw [List.forall_mem_cons] at h
    rw [List.foldl_cons, ControlPage.onData_rejected h.1, ih h.2]

theorem foldl_onData_locks {events : List SafetyEvent} {event : SafetyEvent} {page : ControlPage}
    (hlast : events.getLast? = some event) (ha : event.accepted = true)
    (hv : event.vehicleId = page.vehicleId) (hlock : event.event.locks = true) :
    (events.foldl (fun page event => page.onData event) page).safetyState = .safeMode := by
  obtain ⟨before, rfl⟩ := List.getLast?_eq_some_iff.mp hlast
  rw [List.foldl_append, List.foldl_cons, List.foldl_nil]
  exact ControlPage.onData_locks ha (by rw [ControlPage.foldl_onData_vehicleId, hv]) hlock

theorem Follows.publish {s : State} (h : Follows vehicle s)
    {result : Edge.Agent × List Edge.Effect} (hr : Announces vehicle s.edge result) :
    Follows vehicle (publish result s) := by
  have hnew : ∀ event ∈ broadcasts result.2, FromEdge vehicle event := by
    intro event hevent
    obtain ⟨hv, hs⟩ := hr.origin event hevent
    exact ⟨hv, hs ▸ h.session⟩
  have hview : view (SafetyLink.publish result s) =
      (broadcasts result.2).foldl (fun page event => page.onData event) (view s) := List.foldl_append
  have hpage : (view s).vehicleId = vehicle := (ControlPage.foldl_onData_vehicleId ..).trans h.page
  have hnamed : vehicle = "" → (view (SafetyLink.publish result s)).safetyState ≠ .active := by
    intro hempty
    have hrejected : ∀ e ∈ broadcasts result.2, e.accepted = false := by
      intro e he
      simp [SafetyEvent.accepted, (hnew e he).1, hempty]
    rw [hview, foldl_onData_rejected hrejected]
    exact h.named hempty
  refine ⟨h.page, hr.session ▸ h.session, ?_, ?_, hnamed⟩
  · intro event hevent
    rcases List.mem_append.mp hevent with hevent | hevent
    · exact h.inFlight event hevent
    · exact hnew event hevent
  · intro hroom hsafe
    by_cases hempty : vehicle = ""
    · exact hnamed hempty
    · rw [hview]
      rcases hr.announced hroom hsafe with ⟨event, hlast, hlock⟩ | ⟨hsilent, hroom, hsafe⟩
      · obtain ⟨hv, hs⟩ := hnew event (List.mem_of_getLast? hlast)
        have ha : event.accepted = true := by simp [SafetyEvent.accepted, hv, hs, hempty]
        rw [foldl_onData_locks hlast ha (hv.trans hpage.symm) hlock]
        exact nofun
      · rw [hsilent]
        exact h.shown hroom hsafe

theorem Follows.step {s : State} (h : Follows vehicle s) (e : Event) :
    Follows vehicle (step vehicle s e) := by
  cases e with
  | edge event => exact h.publish (step_announces vehicle s.edge event)
  | shutdown clock => exact h.publish (onShutdown_announces vehicle clock s.edge)
  | restart sessionId => exact ⟨h.page, sessionId.property, h.inFlight, nofun, h.named⟩
  | deliver =>
    simp only [SafetyLink.step]
    split
    next => exact h
    next event rest hq =>
      have hview : view { s with inFlight := rest, page := s.page.onData event } = view s := by
        unfold view
        rw [hq, List.foldl_cons]
      refine ⟨by simpa using h.page, h.session, ?_, ?_, ?_⟩
      · intro e he
        exact h.inFlight e (hq ▸ List.mem_cons_of_mem _ he)
      · rw [hview]
        exact h.shown
      · rw [hview]
        exact h.named

end

def ShowsSafeMode (s : State) : Prop :=
  s.edge.activeRoom = true → s.inFlight = [] → s.page.safetyState = .active →
    s.edge.state.safeMode = false

theorem Follows.shows {vehicle : Edge.VehicleId} {s : State} (h : Follows vehicle s) :
    ShowsSafeMode s := by
  intro hroom hempty hactive
  have hview : view s = s.page := by
    unfold view
    rw [hempty, List.foldl_nil]
  cases hsafe : s.edge.state.safeMode with
  | false => rfl
  | true => exact absurd hactive (hview ▸ h.shown hroom hsafe)

/-- Whenever the edge is in its room and nothing is in flight, the cockpit shows
`active` only if the edge is out of safe mode. -/
theorem active_only_if_driving (sessionId : SessionId) (es : List Event) :
    ShowsSafeMode ((safety vehicle sessionId).state ((safety vehicle sessionId).log es)) := by
  suffices h : Follows vehicle
      ((safety vehicle sessionId).state ((safety vehicle sessionId).log es)) from h.shows
  induction es with
  | nil =>
    exact
      { page := rfl, session := sessionId.property, inFlight := nofun, shown := nofun,
        named := nofun }
  | cons e es ih => exact ih.step e

end Rvep.SafetyLink
