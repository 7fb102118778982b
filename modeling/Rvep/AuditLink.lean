import Rvep.Edge.Laws
import Rvep.Edge.IsoString
import Rvep.Backend.SchemaLaws
import Rvep.Backend.AuditTrail

/-!
# The edge's reports and the backend's event log

Every change of an edge's safe mode is reported to the backend. When the posts
arrive in order, whoever replays the vehicle's events knows what the edge is
doing, and why, whatever else the backend did between the posts.
-/

namespace Rvep.AuditLink

open Reactive Interleaving
open Edge (Agent Stamped Effect ControlEvent ReportPayload)

-- ---------------------------------------------------------------------------
-- What is posted
-- ---------------------------------------------------------------------------

def axesJson (axes : Axes) : Json :=
  .obj [("forward", .num axes.forward), ("lateral", .num axes.lateral), ("yaw", .num axes.yaw)]

def properties : ReportPayload → List (String × Json)
  | .identity identity => [("identity", .str identity)]
  | .reason reason => [("reason", .str reason)]
  | .empty => []
  | .stop seq ts => [("seq", .num seq), ("ts", .str ts)]
  | .axes axes => [("axes", axesJson axes)]

def eventBody (e : ControlEvent) : Json :=
  .obj [("vehicleId", .str e.vehicleId), ("eventName", .str e.eventName),
    ("payload", .obj (properties e.payload)), ("ts", .str (toISOString e.ts))]

/-- The event that the route stores of a report. -/
def stored (e : ControlEvent) : Backend.EventData where
  eventName := e.eventName
  vehicleId := some e.vehicleId
  sessionId := none
  userId := none
  payload := some ((properties e.payload).map fun (key, value) => (key, .json value))

/-- `fetch` of a report, answered by the route without another request in between. -/
def post (fmt : NumberFormat) (internalToken : String) (choices : Nat → Backend.Choice)
    (db : Backend.Db) (e : ControlEvent) : Backend.Db × Backend.Response :=
  let req : Backend.ControlEventRequest :=
    ⟨some internalToken, parseJson fmt (stringify fmt (eventBody e))⟩
  (Backend.controlEvent internalToken req).run Backend.Call.exec choices db

/-- The posts of these reports, one after the other, with other requests between them. -/
def deliver (fmt : NumberFormat) (internalToken : String) (choices : Nat → Nat → Backend.Choice)
    (others : Nat → Backend.Db → Backend.Db) : Nat → Backend.Db → List ControlEvent → Backend.Db
  | n, db, [] => others n db
  | n, db, e :: rest =>
    deliver fmt internalToken choices others (n + 1)
      (post fmt internalToken (choices n) (others n db) e).1 rest

-- ---------------------------------------------------------------------------
-- What is read
-- ---------------------------------------------------------------------------

def tellsMode (eventName : String) : Bool :=
  eventName == "safe_mode_entered" || eventName == "manual_recovery_confirmed"

def rowReason (row : Backend.EventData) : String :=
  match row.payload.bind (·.lookup "reason") with
  | some (.json (.str reason)) => reason
  | _ => ""

/-- Whether the edge is in safe mode, and the last reason for it, after one more event. -/
def replayRow (vehicle : Edge.VehicleId) (mode : Bool × String) (row : Backend.EventData) :
    Bool × String :=
  if row.vehicleId = some vehicle then
    if row.eventName = "safe_mode_entered" then (true, rowReason row)
    else if row.eventName = "manual_recovery_confirmed" then (false, mode.2)
    else mode
  else mode

def replay (vehicle : Edge.VehicleId) (mode : Bool × String) (rows : List Backend.EventRow) :
    Bool × String :=
  rows.foldl (fun mode row => replayRow vehicle mode row.toEventData) mode

def mode (a : Agent) : Bool × String := (a.state.safeMode, a.state.reason)

def reportsOf (out : List Effect) : List ControlEvent :=
  out.filterMap fun
    | .report event => some event
    | _ => none

section
variable (out out' : List Effect) (report : ControlEvent) (event : SafetyEvent)

@[simp] theorem reportsOf_nil : reportsOf [] = [] := rfl
@[simp] theorem reportsOf_report : reportsOf (.report report :: out) = report :: reportsOf out := rfl
@[simp] theorem reportsOf_broadcast : reportsOf (.broadcast event :: out) = reportsOf out := rfl
@[simp] theorem reportsOf_zeroVelocity : reportsOf (.zeroVelocity :: out) = reportsOf out := rfl
@[simp] theorem reportsOf_append : reportsOf (out ++ out') = reportsOf out ++ reportsOf out' :=
  List.filterMap_append

end

-- ---------------------------------------------------------------------------
-- One step of the edge
-- ---------------------------------------------------------------------------

/-- What the route takes. -/
structure Postable (fmt : NumberFormat) (vehicle : Edge.VehicleId) (e : ControlEvent) : Prop where
  vehicleId : e.vehicleId = vehicle
  eventName : e.eventName ≠ ""
  ts : e.ts < year10000
  payload : (Json.obj (properties e.payload)).Sound fmt

/-- The reports of a handler lead from the mode it found to the one it leaves. -/
structure Tells (fmt : NumberFormat) (vehicle : Edge.VehicleId) (before : Bool × String)
    (result : Agent × List Effect) : Prop where
  mode : ((reportsOf result.2).map stored).foldl (replayRow vehicle) before = mode result.1
  postable : ∀ e ∈ reportsOf result.2, Postable fmt vehicle e

/-- The numbers of a command are the runtime's. -/
def Carried (fmt : NumberFormat) (cmd : ControlCommand) : Prop :=
  match cmd.body with
  | .emergencyStop => fmt.carried cmd.seq
  | .movement axes => fmt.carried axes.forward ∧ fmt.carried axes.lateral ∧ fmt.carried axes.yaw
  | _ => True

section
variable {fmt : NumberFormat} {vehicle : Edge.VehicleId} {r : Edge.Reading} {a : Agent}
  {before : Bool × String} {result : Agent × List Effect}

theorem replayRow_same {mode : Bool × String} {row : Backend.EventData}
    (h : row.vehicleId = some vehicle → tellsMode row.eventName = false) :
    replayRow vehicle mode row = mode := by
  unfold replayRow
  split
  next hvehicle =>
    obtain ⟨hentered, hleft⟩ := Bool.or_eq_false_iff.mp (h hvehicle)
    rw [if_neg (beq_eq_false_iff_ne.mp hentered), if_neg (beq_eq_false_iff_ne.mp hleft)]
  next => rfl

theorem tells_silent (hmode : mode result.1 = before) (hout : reportsOf result.2 = []) :
    Tells fmt vehicle before result where
  mode := by rw [hout, hmode]; rfl
  postable := by rw [hout]; simp

/-- A report of something else. -/
theorem Tells.append_report {out : List Effect} {b : Agent} (h : Tells fmt vehicle before (b, out))
    {e : ControlEvent} (he : Postable fmt vehicle e) (hname : tellsMode e.eventName = false) :
    Tells fmt vehicle before (b, out ++ [.report e]) where
  mode := by
    have hkeeps (m : Bool × String) : replayRow vehicle m (stored e) = m :=
      replayRow_same fun _ => hname
    simp only [reportsOf_append, reportsOf_report, reportsOf_nil, List.map_append, List.foldl_append,
      h.mode, List.map_cons, List.map_nil, List.foldl_cons, List.foldl_nil, hkeeps]
  postable e' he' := by
    simp only [reportsOf_append, reportsOf_report, reportsOf_nil, List.mem_append,
      List.mem_singleton] at he'
    rcases he' with he' | rfl
    · exact h.postable e' he'
    · exact he

/-- One report, and it leads to the mode that is reached. -/
theorem tells_one {e : ControlEvent} {out : List Effect} (he : Postable fmt vehicle e)
    (hmode : replayRow vehicle before (stored e) = mode a) (hout : reportsOf out = []) :
    Tells fmt vehicle before (a, .report e :: out) where
  mode := by
    rw [reportsOf_report, hout]
    exact hmode
  postable := by
    rw [reportsOf_report, hout]
    simpa using he

/-- One report, of something else. -/
theorem tells_report {e : ControlEvent} {out : List Effect} (hmode : mode a = before)
    (he : Postable fmt vehicle e) (hname : tellsMode e.eventName = false)
    (hout : reportsOf out = []) : Tells fmt vehicle before (a, .report e :: out) :=
  tells_one he ((replayRow_same fun _ => hname).trans hmode.symm) hout

/-- An object with one key. -/
theorem sound_single {key : String} {v : Json} (h : v.Sound fmt) : (Json.obj [(key, v)]).Sound fmt :=
  ⟨by simp, h, trivial⟩

theorem publishSafetyEvent_quiet (vehicle : Edge.VehicleId) (r : Edge.Reading)
    (event : SafetyEventName) (reason : Option String) (a : Agent) :
    mode (Edge.publishSafetyEvent vehicle r event reason a).1 = mode a ∧
      reportsOf (Edge.publishSafetyEvent vehicle r event reason a).2 = [] := by
  unfold Edge.publishSafetyEvent
  split <;> exact ⟨rfl, rfl⟩

theorem enterSafeMode_tells (hclock : r.dateNow < year10000) (reason : String) (a : Agent) :
    Tells fmt vehicle (mode a) (Edge.enterSafeMode vehicle r reason a) := by
  unfold Edge.enterSafeMode
  split
  next => exact tells_silent rfl rfl
  next =>
    obtain ⟨hmode, hquiet⟩ := publishSafetyEvent_quiet vehicle r .safeModeEntered (some reason)
      { a with state := { a.state with safeMode := true, reason := reason } }
    have hname : "safe_mode_entered" ≠ "" := by decide
    simp only [Edge.reportEvent, List.cons_append]
    refine tells_one ⟨rfl, hname, hclock, sound_single trivial⟩ ((if_pos rfl).trans hmode.symm) ?_
    rw [reportsOf_append, hquiet]
    rfl

theorem leaveSafeMode_tells (hclock : r.dateNow < year10000) (a : Agent) :
    Tells fmt vehicle (mode a) (Edge.leaveSafeMode vehicle r a) := by
  unfold Edge.leaveSafeMode
  split
  next => exact tells_silent rfl rfl
  next =>
    obtain ⟨hmode, hquiet⟩ := publishSafetyEvent_quiet vehicle r .safeModeLeft
      (some "operator_resume") { a with state := { a.state with safeMode := false } }
    have hname : "manual_recovery_confirmed" ≠ "" := by decide
    exact tells_one ⟨rfl, hname, hclock, by simp [properties], trivial⟩
      ((if_pos rfl).trans hmode.symm) hquiet

theorem resumeControl_tells (hclock : r.dateNow < year10000) (acknowledgement : String) (a : Agent) :
    Tells fmt vehicle (mode a) (Edge.resumeControl vehicle r acknowledgement a) := by
  have hname : "resume_denied" ≠ "" := by decide
  unfold Edge.resumeControl
  split
  next => exact tells_report rfl ⟨rfl, hname, hclock, sound_single trivial⟩ rfl rfl
  next =>
    split
    next => exact tells_report rfl ⟨rfl, hname, hclock, sound_single trivial⟩ rfl rfl
    next =>
      split
      next => exact leaveSafeMode_tells hclock a
      next =>
        obtain ⟨hmode, hquiet⟩ := publishSafetyEvent_quiet vehicle r .safeModeLeft
          (some "already_active") a
        exact tells_silent hmode hquiet

theorem dispatch_tells (hclock : r.dateNow < year10000) {cmd : ControlCommand}
    (hcmd : Carried fmt cmd) (a : Agent) : Tells fmt vehicle (mode a) (Edge.dispatch vehicle r cmd a) := by
  unfold Carried at hcmd
  cases hb : cmd.body with
  | heartbeat =>
    simp only [Edge.dispatch, hb]
    exact tells_silent rfl rfl
  | emergencyStop =>
    have hname : "emergency_stop" ≠ "" := by decide
    simp only [hb] at hcmd
    simp only [Edge.dispatch, hb]
    exact (enterSafeMode_tells hclock "emergency_stop" a).append_report
      ⟨rfl, hname, hclock, by simp [properties], hcmd, trivial, trivial⟩ rfl
  | resumeControl acknowledgement =>
    simp only [Edge.dispatch, hb]
    exact resumeControl_tells hclock acknowledgement a
  | movement axes =>
    have hname : "safety_blocked_movement" ≠ "" := by decide
    obtain ⟨hforward, hlateral, hyaw⟩ : fmt.carried axes.forward ∧ fmt.carried axes.lateral ∧
        fmt.carried axes.yaw := by simpa only [hb] using hcmd
    have haxes : (axesJson axes).Sound fmt := ⟨by simp, hforward, hlateral, hyaw, trivial⟩
    simp only [Edge.dispatch, hb]
    split
    · exact tells_report rfl ⟨rfl, hname, hclock, sound_single haxes⟩ rfl rfl
    · exact tells_silent rfl rfl
  | action name params =>
    simp only [Edge.dispatch, hb]
    split <;> exact tells_silent rfl rfl
  | config key value =>
    simp only [Edge.dispatch, hb]
    exact tells_silent rfl rfl

theorem handleCommand_tells (hclock : r.dateNow < year10000) {cmd : ControlCommand}
    (hcmd : Carried fmt cmd) (a : Agent) :
    Tells fmt vehicle (mode a) (Edge.handleCommand vehicle r cmd a) := by
  have hmode :
      mode { a with state := (Edge.dedupe cmd.connectionEpoch cmd.seq a.state).1 } = mode a := by
    rw [Edge.dedupe_eq]
    rfl
  rw [Edge.handleCommand_eq]
  split
  next => exact hmode ▸ dispatch_tells hclock hcmd _
  next => exact tells_silent hmode rfl

theorem onConnected_tells (hclock : r.dateNow < year10000) (a : Agent) :
    Tells fmt vehicle (mode a) (Edge.onConnected vehicle r a) := by
  have hname : "edge_online" ≠ "" := by decide
  have hpost : Postable fmt vehicle
      ⟨vehicle, "edge_online", .identity ("edge-" ++ vehicle), r.dateNow⟩ :=
    ⟨rfl, hname, hclock, sound_single trivial⟩
  let joined : Agent := { a with activeRoom := true }
  let online := Edge.publishSafetyEvent vehicle r .edgeOnline none joined
  obtain ⟨hmode, hquiet⟩ : mode online.1 = mode a ∧ reportsOf online.2 = [] :=
    publishSafetyEvent_quiet vehicle r .edgeOnline none joined
  simp only [Edge.onConnected, Edge.reportEvent, List.cons_append]
  split
  next =>
    obtain ⟨hmode', hquiet'⟩ := publishSafetyEvent_quiet vehicle r .safeModeEntered
      (some online.1.state.reason) online.1
    refine tells_report (hmode'.trans hmode) hpost rfl ?_
    rw [reportsOf_append, hquiet', List.append_nil]
    exact hquiet
  next =>
    refine tells_report hmode hpost rfl ?_
    rw [List.append_nil]
    exact hquiet

/-- The numbers of the command that the event brings are the runtime's. -/
def CarriedEvent (fmt : NumberFormat) (vehicle : Edge.VehicleId) (e : Stamped) : Prop :=
  ∀ cmd, Edge.commandOf vehicle e.event = some cmd → Carried fmt cmd

variable (vehicle) in
theorem step_tells {e : Stamped} (hclock : e.clock.dateNow < year10000)
    (hcmd : CarriedEvent fmt vehicle e) (a : Agent) : Tells fmt vehicle (mode a) (Edge.step vehicle a e) := by
  obtain ⟨r, ev⟩ := e
  cases ev with
  | command cmd => exact handleCommand_tells hclock (hcmd cmd rfl) a
  | data payload =>
    rw [Edge.step_data]
    cases hc : Edge.commandOf vehicle (.data payload) with
    | none => exact tells_silent rfl rfl
    | some cmd => exact handleCommand_tells hclock (hcmd cmd hc) a
  | tick =>
    simp only [Edge.step, Edge.heartbeatTick]
    split
    · exact tells_silent rfl rfl
    · split
      · exact tells_silent rfl rfl
      · split
        · exact enterSafeMode_tells hclock "heartbeat_timeout" a
        · exact tells_silent rfl rfl
  | connected => exact onConnected_tells hclock a
  | disconnected =>
    exact enterSafeMode_tells hclock "room_disconnected" { a with activeRoom := false }

-- ---------------------------------------------------------------------------
-- A run of the edge
-- ---------------------------------------------------------------------------

/-- What the edge reports in a run, oldest first. -/
def reports (run : Log Agent Stamped (List Effect)) : List ControlEvent :=
  collected (fun x => reportsOf x.output) run

theorem run_tells (sessionId : String) {es : List Stamped}
    (hclock : ∀ e ∈ es, e.clock.dateNow < year10000) (hcmd : ∀ e ∈ es, CarriedEvent fmt vehicle e) :
    let run := (Edge.agent vehicle sessionId).log es
    ((reports run).map stored).foldl (replayRow vehicle) (true, "boot_default") =
        mode ((Edge.agent vehicle sessionId).state run) ∧
      ∀ e ∈ reports run, Postable fmt vehicle e := by
  induction es with
  | nil => exact ⟨rfl, by simp [reports]⟩
  | cons e es ih =>
    rw [List.forall_mem_cons] at hclock hcmd
    obtain ⟨hmode, hpostable⟩ := ih hclock.2 hcmd.2
    obtain ⟨htells, hposts⟩ := step_tells vehicle hclock.1 hcmd.1
      ((Edge.agent vehicle sessionId).state ((Edge.agent vehicle sessionId).log es))
    unfold reports at hmode hpostable ⊢
    simp only [System.log_cons, collected_cons, System.react_output, System.state_cons,
      System.react_after]
    refine ⟨?_, ?_⟩
    · rw [List.map_append, List.foldl_append, hmode]
      exact htells
    · intro e' he'
      rcases List.mem_append.mp he' with he' | he'
      · exact hpostable e' he'
      · exact hposts e' he'

end

-- ---------------------------------------------------------------------------
-- One post
-- ---------------------------------------------------------------------------

section
variable {fmt : NumberFormat} {vehicle : Edge.VehicleId} {internalToken : String}
  {choices : Nat → Backend.Choice} {db : Backend.Db} {e : ControlEvent}

theorem eventBody_sound (h : Postable fmt vehicle e) : (eventBody e).Sound fmt :=
  ⟨by simp, trivial, trivial, h.payload, trivial, trivial⟩

theorem validateBody_eventBody (hid : vehicle ≠ "") (h : Postable fmt vehicle e) :
    Backend.validateBody (some (eventBody e)) Backend.eventSchema =
      .ok ⟨e.vehicleId, e.eventName, some (.obj (properties e.payload))⟩ := by
  let fields : List (String × Json) :=
    [("vehicleId", .str e.vehicleId), ("eventName", .str e.eventName),
      ("payload", .obj (properties e.payload)), ("ts", .str (toISOString e.ts))]
  have hvehicle : Backend.stringKey "vehicleId" (Backend.minOne Backend.tooShort) fields =
      .ok e.vehicleId :=
    Backend.stringKey_of_lookup rfl (Backend.minOne_of_ne_empty (h.vehicleId ▸ hid))
  have hname : Backend.stringKey "eventName" (Backend.minOne Backend.tooShort) fields =
      .ok e.eventName :=
    Backend.stringKey_of_lookup rfl (Backend.minOne_of_ne_empty h.eventName)
  have hts : Backend.tsIssues fields = [] := Backend.tsIssues_of_lookup rfl (toISOString_read h.ts).1
  have hschema : Backend.eventSchema fields =
      .ok ⟨e.vehicleId, e.eventName, some (.obj (properties e.payload))⟩ := by
    rw [Backend.eventSchema, hvehicle, hname, hts]
    rfl
  change Backend.validateBody (some (.obj fields)) Backend.eventSchema = _
  simp only [Backend.validateBody, hschema]

variable (internalToken) in
/-- The report is stored, and the edge is told so. -/
theorem post_eq (hid : vehicle ≠ "") (h : Postable fmt vehicle e) {v : Backend.Vehicle}
    (hknown : db.vehicle? vehicle = some v) (hup : ∀ k, (choices k).fails = false) :
    post fmt internalToken choices db e =
      ({ db with events := db.events ++
            [{ stored e with id := db.nextEventId, ts := (choices 1).now }] },
        Backend.ok [("recorded", .flag true)]) := by
  have hread : parseJson fmt (stringify fmt (eventBody e)) = some (eventBody e) :=
    parseJson_write (eventBody_sound h) stringifyStyle
  have hserved : Backend.controlEvent internalToken ⟨some internalToken, some (eventBody e)⟩ =
      Backend.Handler.serve
        (Backend.recordEvent ⟨e.vehicleId, e.eventName, some (.obj (properties e.payload))⟩) := by
    unfold Backend.controlEvent
    simp only [bne_self_eq_false, Bool.false_eq_true, if_false, validateBody_eventBody hid h]
  have hfound : (Backend.Query.vehicleFindUnique e.vehicleId).answer (choices 0).now db =
      (db, .ok (some v)) := by
    rw [h.vehicleId, ← hknown]
    rfl
  rw [post, hread, hserved]
  refine (Backend.alone_query_ok _ (hup 0) hfound).trans ?_
  simp only
  rw [Backend.alone_audit_bind]
  simp only [Backend.Call.exec, Backend.Query.exec_of_not_fails (hup 1), Backend.Query.answer]
  rfl

end

-- ---------------------------------------------------------------------------
-- All the posts
-- ---------------------------------------------------------------------------

section
variable {fmt : NumberFormat} {vehicle : Edge.VehicleId} {internalToken : String}
  {rows rows' : List Backend.EventRow} {m : Bool × String}

/-- Nothing is said of the vehicle's safe mode. -/
def Silent (vehicle : Edge.VehicleId) (rows : List Backend.EventRow) : Prop :=
  ∀ row ∈ rows, row.vehicleId = some vehicle → tellsMode row.eventName = false

/-- What the backend does for others: the vehicles stay, and the log only grows. -/
structure Aside (vehicle : Edge.VehicleId) (db db' : Backend.Db) : Prop where
  vehicles : db'.vehicles = db.vehicles
  events : ∃ rows, db'.events = db.events ++ rows ∧ Silent vehicle rows

theorem aside_of_eq {db db' : Backend.Db} (hvehicles : db'.vehicles = db.vehicles)
    (hevents : db'.events = db.events) : Aside vehicle db db' :=
  ⟨hvehicles, [], by rw [hevents, List.append_nil], nofun⟩

/-- A query of another request, if it stores no event of this kind. -/
theorem exec_aside {q : Backend.Query}
    (h : ∀ data, q = .eventLogCreate data → data.vehicleId = some vehicle →
      tellsMode data.eventName = false)
    (choice : Backend.Choice) (db : Backend.Db) : Aside vehicle db (q.exec choice db).1 := by
  unfold Backend.Query.exec
  split
  · exact aside_of_eq rfl rfl
  · cases q with
    | eventLogCreate data =>
      refine ⟨rfl, _, rfl, fun row hrow => ?_⟩
      rw [List.mem_singleton.mp hrow]
      exact h data rfl
    | userUpdate | leaseUpdate | leaseCreate | telemetryFrameCreate | permissionDelete =>
      simp only [Backend.Query.answer]
      split <;> exact aside_of_eq rfl rfl
    | permissionUpsert | userCreate | datasetAssetCreate =>
      simp only [Backend.Query.answer]
      split
      · exact aside_of_eq rfl rfl
      · split <;> exact aside_of_eq rfl rfl
    | sessionCreate =>
      simp only [Backend.Query.answer]
      split
      · exact aside_of_eq rfl rfl
      · split
        · exact aside_of_eq rfl rfl
        · split <;> exact aside_of_eq rfl rfl
    | _ => exact aside_of_eq rfl rfl

theorem replay_append (m : Bool × String) (rows rows' : List Backend.EventRow) :
    replay vehicle m (rows ++ rows') = replay vehicle (replay vehicle m rows) rows' :=
  List.foldl_append

theorem replay_silent (h : Silent vehicle rows) (m : Bool × String) : replay vehicle m rows = m := by
  induction rows with
  | nil => rfl
  | cons row rows ih =>
    obtain ⟨hrow, hrows⟩ := List.forall_mem_cons.mp h
    exact (congrArg (replay vehicle · rows) (replayRow_same hrow)).trans (ih hrows)

variable {choices : Nat → Nat → Backend.Choice} {others : Nat → Backend.Db → Backend.Db}

variable (internalToken) in
/-- The posts store the reports, in their order, and whoever replays the log sees no others. -/
theorem deliver_replays (hid : vehicle ≠ "") (hup : ∀ n k, (choices n k).fails = false)
    (hothers : ∀ n db, Aside vehicle db (others n db)) {es : List ControlEvent}
    (hes : ∀ e ∈ es, Postable fmt vehicle e) (n : Nat) (db : Backend.Db) {v : Backend.Vehicle}
    (hknown : db.vehicle? vehicle = some v) :
    ∃ rows, (deliver fmt internalToken choices others n db es).events = db.events ++ rows ∧
      (es.map stored).Sublist (rows.map (·.toEventData)) ∧
      ∀ m, replay vehicle m rows = (es.map stored).foldl (replayRow vehicle) m := by
  induction es generalizing n db with
  | nil =>
    obtain ⟨-, rows, hevents, hsilent⟩ := hothers n db
    exact ⟨rows, hevents, List.nil_sublist _, replay_silent hsilent⟩
  | cons e es ih =>
    rw [List.forall_mem_cons] at hes
    obtain ⟨hvehicles, rows, hevents, hsilent⟩ := hothers n db
    have hknown' : (others n db).vehicle? vehicle = some v := by
      rw [Backend.Db.vehicle?, hvehicles]
      exact hknown
    have hpost := post_eq internalToken hid hes.1 hknown' (hup n)
    let row : Backend.EventRow :=
      { stored e with id := (others n db).nextEventId, ts := (choices n 1).now }
    obtain ⟨rows', hevents', hsub, hreplay⟩ := ih hes.2 (n + 1)
      (post fmt internalToken (choices n) (others n db) e).1 (by rw [hpost]; exact hknown')
    refine ⟨rows ++ row :: rows', ?_, ?_, fun m => ?_⟩
    · rw [deliver, hevents', hpost]
      simp only [hevents, row, List.append_assoc, List.singleton_append]
    · rw [List.map_append, List.map_cons, List.map_cons]
      exact (hsub.cons_cons (stored e)).trans (List.sublist_append_right _ _)
    · rw [replay_append, replay_silent hsilent]
      exact hreplay (replayRow vehicle m (stored e))

variable (vehicle choices others) in
/-- The events that the backend stores while an edge runs hold its reports, in their
order, and they tell whether it is in safe mode, and the last reason it was. -/
theorem audit_replays (fmt : NumberFormat) (sessionId internalToken : String) (hid : vehicle ≠ "")
    (hup : ∀ n k, (choices n k).fails = false) (hothers : ∀ n db, Aside vehicle db (others n db))
    (db : Backend.Db) {v : Backend.Vehicle} (hknown : db.vehicle? vehicle = some v)
    (es : List Stamped) (hclock : ∀ e ∈ es, e.clock.dateNow < year10000)
    (hcmd : ∀ e ∈ es, CarriedEvent fmt vehicle e) :
    let run := (Edge.agent vehicle sessionId).log es
    ∃ rows,
      (deliver fmt internalToken choices others 0 db (reports run)).events = db.events ++ rows ∧
      ((reports run).map stored).Sublist (rows.map (·.toEventData)) ∧
      replay vehicle (true, "boot_default") rows =
        mode ((Edge.agent vehicle sessionId).state run) := by
  intro run
  obtain ⟨hmode, hpostable⟩ := run_tells sessionId hclock hcmd
  obtain ⟨rows, hevents, hsub, hreplay⟩ :=
    deliver_replays internalToken hid hup hothers hpostable 0 db hknown
  exact ⟨rows, hevents, hsub, (hreplay _).trans hmode⟩

end

private def patrolBase (seq : Nat) : BaseFields :=
  ⟨"rover-7", "web-rover-7", 4, seq, "2026-05-24T10:30:00.000Z"⟩

/-- The operator takes over, drives, and is lost for 3.1 seconds; newest first. -/
private def patrol : List Stamped :=
  [⟨⟨5300, 1779618603300⟩, .tick⟩,
   ⟨⟨2300, 1779618600300⟩, .command ⟨patrolBase 3, .movement ⟨1, 0, 0⟩⟩⟩,
   ⟨⟨2250, 1779618600250⟩, .command ⟨patrolBase 2, .resumeControl "operator_confirmed"⟩⟩,
   ⟨⟨2200, 1779618600200⟩, .command ⟨patrolBase 1, .heartbeat⟩⟩,
   ⟨⟨2000, 1779618600000⟩, .connected⟩]

private def depot : Backend.Db where
  users := []
  vehicles := [⟨"v7", "rover-7", "Rover 7", .wheeled, .online⟩]
  permissions := []
  sessions := []
  leases := []
  events := []

private def always (_ _ : Nat) : Backend.Choice := ⟨1779618600000, false⟩

private def someoneLogsOut : Backend.Query :=
  .eventLogCreate ⟨"logout", none, none, some "alice", none⟩

/-- Whoever reads the log of the patrol knows that the rover stands, for want of heartbeats. -/
theorem audit_replays_patrol :
    ∃ rows, (deliver wholeNumbers "internal-dev-token" always
        (fun n db => (someoneLogsOut.exec (always n 0) db).1) 0 depot
        (reports ((Edge.agent "rover-7" "edge-1").log patrol))).events = rows ∧
      replay "rover-7" (true, "boot_default") rows = (true, "heartbeat_timeout") := by
  have hothers (n : Nat) (db : Backend.Db) :
      Aside "rover-7" db (someoneLogsOut.exec (always n 0) db).1 :=
    exec_aside (fun data hdata => by cases hdata; exact nofun) (always n 0) db
  have hcmd : ∀ e ∈ patrol, CarriedEvent wholeNumbers "rover-7" e := by
    simp [patrol, CarriedEvent, Edge.commandOf, Carried, wholeNumbers]
  obtain ⟨rows, hevents, -, hreplay⟩ := audit_replays "rover-7" always
    (fun n db => (someoneLogsOut.exec (always n 0) db).1) wholeNumbers "edge-1"
    "internal-dev-token" (by decide) (fun _ _ => rfl) hothers depot rfl patrol (by decide) hcmd
  exact ⟨rows, hevents, hreplay⟩

end Rvep.AuditLink
