import Rvep.Backend.HandlerContracts
import Rvep.Backend.LeaseEffects
import Rvep.Backend.LivekitToken
import Rvep.Backend.TokenRotation
import Rvep.Backend.Permissions
import Rvep.Backend.ControlEvent
import Rvep.Backend.Confidentiality

/-!
# From the handlers that audit to the route that lists

Every handler that audits something about a vehicle writes an event of that
vehicle; `GET audit` lists the events of the vehicle it is given. Each handler
chooses what to store as the vehicle's name, and the listing looks for its
`vehicleId`.
-/

namespace Rvep.Backend

open Interleaving Reactive

-- ---------------------------------------------------------------------------
-- The requests
-- ---------------------------------------------------------------------------

/-- The packages and the environment the handlers run with. -/
structure Server where
  pkg : Packages
  lk : Livekit
  internalToken : String

/-- A server on which no token passes and passwords are their own hashes. -/
def bareServer : Server where
  pkg :=
    { sign := fun _ _ => "", decode := fun _ => ⟨"", .viewer, none, 0, 0⟩
      reject := fun _ _ _ => some "not a token"
      comparePassword := fun password passwordHash => password == passwordHash
      isEmail := fun _ => true }
  lk := { apiKey := none, apiSecret := none, url := none, toJwt := fun _ _ _ _ _ => "" }
  internalToken := "internal-dev-token"

inductive ServerRequest
  | lease (route : LeaseRoute)
  | token (req : TokenRequest)
  | grant (req : GrantRequest)
  | revoke (req : RevokeRequest)
  | controlEvent (req : ControlEventRequest)
  | auth (route : AuthRoute)
  | get (caller : Caller) (req : GetRequest)

namespace ServerRequest

def handler (srv : Server) : ServerRequest → Prog Call Call.Reply Response
  | lease route => route.handler
  | token req => livekitToken srv.lk req
  | grant req => grantPermission req
  | revoke req => revokePermission req
  | controlEvent req => Backend.controlEvent srv.internalToken req
  | auth route => route.handler srv.pkg
  | get caller req => req.program caller

/-- The `vehicleId` of the vehicle a request is about, in its path or in its body. -/
def names? : ServerRequest → Option String
  | lease (.claim req) | lease (.takeover req) | lease (.release req) => some req.vehicleId
  | token req => (validateBody req.body livekitTokenSchema).toOption.map (·.vehicleId)
  | grant req => some req.vehicleId
  | revoke req => some req.vehicleId
  | controlEvent req => (validateBody req.body eventSchema).toOption.map (·.vehicleId)
  | auth _ | get _ _ => none

def about (db : Db) (req : ServerRequest) : Option Vehicle := req.names?.bind db.vehicle?

def isControlEvent : ServerRequest → Bool
  | controlEvent _ => true
  | _ => false

/-- What the handler stores as the vehicle's name. -/
def key (req : ServerRequest) (v : Vehicle) : String := if req.isControlEvent then v.vehicleId else v.id

end ServerRequest

-- ---------------------------------------------------------------------------
-- What a call adds
-- ---------------------------------------------------------------------------

/-- The vehicles are the same, and no event is lost. -/
structure Db.Extends (db db' : Db) : Prop where
  vehicles : db'.vehicles = db.vehicles
  events : db.events <+: db'.events

theorem Db.Extends.refl (db : Db) : db.Extends db := ⟨rfl, List.prefix_rfl⟩

theorem Db.Extends.trans {db db' db'' : Db} (h : db.Extends db') (h' : db'.Extends db'') :
    db.Extends db'' :=
  ⟨h'.vehicles.trans h.vehicles, h.events.trans h'.events⟩

theorem Query.exec_extends (e : Choice) (db : Db) (q : Query) : db.Extends (q.exec e db).1 := by
  unfold Query.exec
  split
  · exact .refl db
  · cases q with
    | eventLogCreate data => exact ⟨rfl, List.prefix_append _ _⟩
    | userUpdate | leaseUpdate | leaseCreate | telemetryFrameCreate | permissionDelete =>
      simp only [Query.answer]
      split <;> exact ⟨rfl, List.prefix_rfl⟩
    | permissionUpsert | userCreate | datasetAssetCreate =>
      simp only [Query.answer]
      split
      · exact ⟨rfl, List.prefix_rfl⟩
      · split <;> exact ⟨rfl, List.prefix_rfl⟩
    | sessionCreate =>
      simp only [Query.answer]
      split
      · exact ⟨rfl, List.prefix_rfl⟩
      · split
        · exact ⟨rfl, List.prefix_rfl⟩
        · split <;> exact ⟨rfl, List.prefix_rfl⟩
    | _ => exact .refl db

theorem extends_commit (userId : String) (vehicle : Vehicle) (session : Session) (now t : Time)
    (db : Db) : db.Extends ((claimTransaction userId vehicle session now).commit t db).1 := by
  rcases commit_claimTransaction userId vehicle session now t db with
    ⟨_, -, hcommit⟩ | ⟨-, ⟨-, hcommit⟩ | ⟨-, hcommit⟩⟩
  all_goals rw [hcommit]; exact ⟨rfl, List.prefix_rfl⟩

/-- The call extends the database, and an event it creates is stored under the
name the request goes by. -/
structure Owes (start : Db) (req : ServerRequest) (c : Call) : Prop where
  appends : ∀ e (db : Db), db.Extends (Call.exec e db c).1
  names : ∀ v data, req.about start = some v → c = .query (.eventLogCreate data) →
    data.vehicleId = some (req.key v)

section
variable {start : Db} {req : ServerRequest}

theorem owes_query {q : Query} (hq : ∀ data, q ≠ .eventLogCreate data) :
    Owes start req (.query q) := by
  refine ⟨fun e db => Query.exec_extends e db q, fun v data _ hc => ?_⟩
  exact absurd (Call.query.inj hc) (hq data)

theorem owes_now : Owes start req .now := ⟨fun _ db => .refl db, fun _ _ _ hc => by cases hc⟩

theorem owes_audit {event : EventData}
    (h : ∀ v, req.about start = some v → event.vehicleId = some (req.key v)) :
    Owes start req (.query (.eventLogCreate event)) := by
  refine ⟨fun e db => Query.exec_extends e db _, fun v data hv hc => ?_⟩
  cases hc
  exact h v hv

theorem owes_claimTransaction (userId : String) (vehicle : Vehicle) (session : Session) (now : Time) :
    Owes start req (.transaction (claimTransaction userId vehicle session now)) := by
  refine ⟨fun e db => ?_, fun _ _ _ hc => by cases hc⟩
  rw [Call.exec_transaction]
  split
  · exact .refl db
  · exact extends_commit userId vehicle session now e.now db

end

-- ---------------------------------------------------------------------------
-- The contract
-- ---------------------------------------------------------------------------

def trailWorld : World Call Call.Reply Db Choice Unit where
  exec := Call.exec
  blank := ()
  observe _ _ _ _ := ()

theorem trail_runs : Runs trailWorld fun e => e := fun _ _ _ => rfl

def trail (start : Db) : Contract ServerRequest Call Response Db Choice Unit where
  inv db := db.vehicles = start.vehicles
  rely := Db.Extends
  here _ _ _ _ := True
  guar req _ _ c db _ _ db' := db.Extends db' ∧ ∀ v data, req.about start = some v →
    c = .query (.eventLogCreate data) → data.vehicleId = some (req.key v)
  refl := .refl
  trans := .trans
  rely_of_guar h := h.1

abbrev KeepsTrail (start : Db) (req : ServerRequest) (n : Unit) (prog : Prog Call Call.Reply Response)
    (db : Db) : Prop :=
  (trail start).Kept trailWorld req n prog db

section
variable {start : Db} {req : ServerRequest} {n : Unit} {db : Db}

theorem keepsTrail_done (r : Response) : KeepsTrail start req n (.done r) db :=
  fun _ _ _ => trivial

theorem keepsTrail_allCalls {prog : Prog Call Call.Reply Response}
    (h : prog.AllCalls (Owes start req)) : KeepsTrail start req n prog db :=
  h.kept (fun _ _ _ => trivial) fun e _ _ db' _ _ hc _ => ⟨hc.appends e db', hc.names⟩

/-- The vehicle a handler finds by the name it is given is the one its request is about. -/
theorem keepsTrail_vehicle {vehicleId : String} {f : Option Vehicle → Handler Response}
    (hreq : req.names? = some vehicleId)
    (hnone : req.about start = none → (Handler.serve (f none)).AllCalls (Owes start req))
    (hsome : ∀ v, req.about start = some v → v.vehicleId = vehicleId →
      (Handler.serve (f (some v))).AllCalls (Owes start req)) :
    KeepsTrail start req n (Handler.serve (Handler.query (.vehicleFindUnique vehicleId) >>= f)) db := by
  refine kept_read trail_runs rfl (fun _ _ _ => trivial) ?_ (fun _ _ _ => keepsTrail_done _) ?_
  · exact fun db' _ _ _ _ _ => ⟨.refl db', fun _ _ _ hc => by cases hc⟩
  · intro db' found _ hvehicles hfound
    obtain rfl : db'.vehicle? vehicleId = found := Query.value_eq hfound rfl
    have habout : db'.vehicle? vehicleId = req.about start := by
      rw [ServerRequest.about, hreq, Option.bind_some, Db.vehicle?, Db.vehicle?, hvehicles]
    refine keepsTrail_allCalls ?_
    cases hv : db'.vehicle? vehicleId with
    | none => exact hnone (habout ▸ hv)
    | some v => exact hsome v (habout ▸ hv) (vehicle?_mem hv).2

theorem keepsTrail_caller {caller : Caller} {f : AuthContext → Handler Response}
    (hf : ∀ ctx, KeepsTrail start req n (Handler.serve (f ctx)) db) :
    KeepsTrail start req n (Handler.serve (getAuthContext caller >>= f)) db :=
  kept_caller (fun _ => keepsTrail_done _) fun ctx _ => hf ctx

theorem keepsTrail_orThrow {r : Except AppError β} {f : β → Handler Response}
    (hf : ∀ b, r = .ok b → KeepsTrail start req n (Handler.serve (f b)) db) :
    KeepsTrail start req n (Handler.serve (orThrow r >>= f)) db :=
  kept_orThrow (fun _ _ => keepsTrail_done _) hf

/-- An event of the vehicle the request is about, under its row id. -/
theorem owes_audit_id {event : EventData} {v : Vehicle} (hv : req.about start = some v)
    (hkey : req.key v = v.id) (hevent : event.vehicleId = some v.id) :
    Owes start req (.query (.eventLogCreate event)) := by
  refine owes_audit fun w hw => ?_
  obtain rfl := Option.some.inj (hv.symm.trans hw)
  rw [hkey, hevent]

end

-- ---------------------------------------------------------------------------
-- The handlers keep it
-- ---------------------------------------------------------------------------

section
variable {start : Db} {n : Unit} {db : Db}

theorem keepsTrail_claim (req : LeaseRequest) :
    KeepsTrail start (.lease (.claim req)) n (claim req) db := by
  refine keepsTrail_caller fun ctx => keepsTrail_orThrow fun body _ => ?_
  simp only
  split
  · exact keepsTrail_done _
  · refine keepsTrail_vehicle rfl (fun _ => trivial) fun vehicle hv _ => ?_
    refine allCalls_query (owes_query nofun) fun permission => ?_
    split
    · trivial
    · refine allCalls_query (owes_query nofun) fun session? => ?_
      cases session? with
      | none => trivial
      | some session =>
        refine allCalls_now owes_now fun now => ?_
        refine allCalls_transaction (owes_claimTransaction _ _ _ _) fun result => ?_
        cases result with
        | denied | created => exact allCalls_audit (owes_audit_id hv rfl rfl) trivial

theorem owes_takeoverAssign {req : LeaseRequest} {vehicle : Vehicle}
    (hv : ServerRequest.about start (.lease (.takeover req)) = some vehicle) (ctx : AuthContext)
    (body : TakeoverBody) (now : Time) (oldOperatorId : Option String) :
    (Handler.serve (takeoverAssign req ctx body vehicle now oldOperatorId)).AllCalls
      (Owes start (.lease (.takeover req))) := by
  refine allCalls_query (owes_query nofun) fun user => ?_
  cases user with
  | none => trivial
  | some user =>
    refine allCalls_query (owes_query nofun) fun session? => ?_
    cases session? with
    | none => trivial
    | some session =>
      refine allCalls_query (owes_query nofun) fun lease => ?_
      exact allCalls_audit (owes_audit_id hv rfl rfl) trivial

theorem keepsTrail_takeover (req : LeaseRequest) :
    KeepsTrail start (.lease (.takeover req)) n (takeover req) db := by
  refine keepsTrail_caller fun ctx => keepsTrail_orThrow fun body _ => ?_
  simp only
  split
  · exact keepsTrail_done _
  · refine keepsTrail_vehicle rfl (fun _ => trivial) fun vehicle hv _ => ?_
    refine allCalls_now owes_now fun now => ?_
    refine allCalls_query (owes_query nofun) fun lease? => ?_
    cases lease? with
    | none => exact owes_takeoverAssign hv ctx body now none
    | some lease =>
      exact allCalls_query (owes_query nofun) fun _ => owes_takeoverAssign hv ctx body now _

theorem keepsTrail_release (req : LeaseRequest) :
    KeepsTrail start (.lease (.release req)) n (release req) db := by
  refine keepsTrail_caller fun ctx => ?_
  refine keepsTrail_vehicle rfl (fun _ => trivial) fun vehicle hv _ => ?_
  refine allCalls_now owes_now fun now => ?_
  refine allCalls_query (owes_query nofun) fun lease? => ?_
  cases lease? with
  | none => trivial
  | some lease =>
    simp only
    split
    · trivial
    · refine allCalls_query (owes_query nofun) fun _ => ?_
      exact allCalls_audit (owes_audit_id hv rfl rfl) trivial

section
variable {req : TokenRequest} {vehicle : Vehicle}
  (hv : ServerRequest.about start (.token req) = some vehicle) (lk : Livekit) (ctx : AuthContext)
  (body : LivekitTokenBody)
include hv

theorem owes_tokenDenied (payload : Fields) : Owes start (.token req)
    (.query (.eventLogCreate (tokenDenied ctx (some vehicle) payload))) :=
  owes_audit_id hv rfl rfl

theorem owes_issueAndRespond (userId vehicleId : String) (role : LivekitRole) :
    (Handler.serve (issueAndRespond lk userId vehicleId vehicle.id role)).AllCalls
      (Owes start (.token req)) := by
  unfold issueAndRespond issueLivekitToken
  cases getLivekitConfig lk with
  | error err => trivial
  | ok config =>
    exact allCalls_now owes_now fun _ => allCalls_now owes_now fun _ =>
      allCalls_audit (owes_audit_id hv rfl rfl) trivial

theorem owes_operatorToken :
    (Handler.serve (operatorToken lk ctx body vehicle)).AllCalls (Owes start (.token req)) := by
  refine allCalls_now owes_now fun now => allCalls_query (owes_query nofun) fun lease? => ?_
  cases lease? with
  | none => exact owes_issueAndRespond hv lk _ _ _
  | some lease =>
    simp only
    split
    · exact allCalls_audit (owes_tokenDenied hv ctx _) trivial
    · exact owes_issueAndRespond hv lk _ _ _

theorem owes_permittedToken :
    (Handler.serve (permittedToken lk ctx body vehicle)).AllCalls (Owes start (.token req)) := by
  refine allCalls_query (owes_query nofun) fun permission => ?_
  cases permission with
  | none => exact allCalls_audit (owes_tokenDenied hv ctx _) trivial
  | some permission =>
    simp only
    split
    · exact allCalls_audit (owes_tokenDenied hv ctx _) trivial
    · split
      · exact owes_operatorToken hv lk ctx body
      · exact owes_issueAndRespond hv lk _ _ _

theorem owes_adminToken :
    (Handler.serve (adminToken lk ctx body vehicle)).AllCalls (Owes start (.token req)) := by
  unfold adminToken
  split
  · exact allCalls_audit (owes_tokenDenied hv ctx _) trivial
  · exact owes_issueAndRespond hv lk _ _ _

end

theorem keepsTrail_livekitToken (lk : Livekit) (req : TokenRequest) :
    KeepsTrail start (.token req) n (livekitToken lk req) db := by
  refine keepsTrail_caller fun ctx => keepsTrail_orThrow fun body hbody => ?_
  have hreq : (ServerRequest.token req).names? = some body.vehicleId := by
    rw [ServerRequest.names?, hbody]
    rfl
  refine keepsTrail_vehicle hreq (fun hnone => ?_) fun vehicle hv _ => ?_
  · refine allCalls_audit (owes_audit fun v hv => ?_) trivial
    exact absurd (hv.symm.trans hnone) (Option.some_ne_none v)
  · simp only
    split
    · exact owes_adminToken hv lk ctx body
    · exact owes_permittedToken hv lk ctx body

theorem keepsTrail_grantPermission (req : GrantRequest) :
    KeepsTrail start (.grant req) n (grantPermission req) db := by
  refine keepsTrail_caller fun ctx => keepsTrail_orThrow fun body _ => ?_
  simp only
  split
  · exact keepsTrail_done _
  · refine keepsTrail_vehicle rfl (fun _ => trivial) fun vehicle hv _ => ?_
    refine allCalls_query (owes_query nofun) fun user => ?_
    cases user with
    | none => trivial
    | some user =>
      refine allCalls_query (owes_query nofun) fun permission => ?_
      exact allCalls_audit (owes_audit_id hv rfl rfl) trivial

theorem keepsTrail_revokePermission (req : RevokeRequest) :
    KeepsTrail start (.revoke req) n (revokePermission req) db := by
  refine keepsTrail_caller fun ctx => ?_
  simp only
  split
  · exact keepsTrail_done _
  · refine keepsTrail_vehicle rfl (fun _ => trivial) fun vehicle hv _ => ?_
    refine allCalls_query (owes_query nofun) fun permission => ?_
    cases permission with
    | none => trivial
    | some permission =>
      refine allCalls_query (owes_query nofun) fun _ => ?_
      exact allCalls_audit (owes_audit_id hv rfl rfl) trivial

/-- The edge's events are stored under the vehicle's `vehicleId`. -/
theorem keepsTrail_controlEvent (internalToken : String) (req : ControlEventRequest) :
    KeepsTrail start (.controlEvent req) n (controlEvent internalToken req) db := by
  unfold controlEvent
  split
  · exact keepsTrail_done _
  · cases hbody : validateBody req.body eventSchema with
    | error _ => exact keepsTrail_done _
    | ok body =>
      have hreq : (ServerRequest.controlEvent req).names? = some body.vehicleId := by
        rw [ServerRequest.names?, hbody]
        rfl
      refine keepsTrail_vehicle hreq (fun _ => trivial) fun vehicle hv hid => ?_
      refine allCalls_audit (owes_audit fun w hw => ?_) trivial
      obtain rfl := Option.some.inj (hv.symm.trans hw)
      exact congrArg some hid.symm

section
variable (pkg : Packages) {route : AuthRoute}

theorem owes_authAudit (event : EventData) :
    Owes start (.auth route) (.query (.eventLogCreate event)) :=
  owes_audit fun v hv => absurd hv.symm (Option.some_ne_none v)

theorem owes_refreshVerified (payload : Claims) :
    (Handler.serve (refreshVerified pkg payload)).AllCalls (Owes start (.auth route)) := by
  refine allCalls_query (owes_query nofun) fun user => ?_
  cases user with
  | none => exact allCalls_audit (owes_authAudit _) trivial
  | some user =>
    simp only
    split
    · exact allCalls_audit (owes_authAudit _) trivial
    · refine allCalls_query (owes_query nofun) fun updated => ?_
      exact allCalls_now owes_now fun _ => allCalls_now owes_now fun _ =>
        allCalls_audit (owes_authAudit _) trivial

theorem owes_refresh (cookie : Option String) :
    (refresh pkg cookie).AllCalls (Owes start (.auth route)) := by
  unfold refresh
  split
  · exact allCalls_audit (owes_authAudit _) trivial
  · refine allCalls_now owes_now fun now => ?_
    cases hverified : (pkg.reject .refresh now _).elim _ _ with
    | error message => exact allCalls_audit (owes_authAudit _) trivial
    | ok payload => exact owes_refreshVerified pkg payload

theorem owes_logout (caller : Caller) : (logout caller).AllCalls (Owes start (.auth route)) := by
  cases caller with
  | none => exact allCalls_audit (owes_authAudit _) trivial
  | some ctx =>
    exact allCalls_query (owes_query nofun) fun _ => allCalls_audit (owes_authAudit _) trivial

theorem owes_recordLoginFailure (user : User) (r : Response) :
    (Handler.serve (recordLoginFailure user >>= fun _ => pure r)).AllCalls
      (Owes start (.auth route)) := by
  unfold recordLoginFailure
  simp only [bind_assoc]
  refine allCalls_now owes_now fun checkedAt => allCalls_now owes_now fun lockedAt => ?_
  refine allCalls_query (owes_query nofun) fun _ => ?_
  split
  · exact ⟨owes_authAudit _, fun _ => ⟨owes_authAudit _, fun _ => trivial⟩⟩
  · exact ⟨owes_authAudit _, fun _ => trivial⟩

theorem owes_loginUnlocked (body : LoginBody) (user : User) :
    (Handler.serve (loginUnlocked pkg body user)).AllCalls (Owes start (.auth route)) := by
  unfold loginUnlocked
  split
  · exact owes_recordLoginFailure user _
  · refine allCalls_query (owes_query nofun) fun updated => ?_
    exact allCalls_now owes_now fun _ => allCalls_now owes_now fun _ =>
      allCalls_audit (owes_authAudit _) trivial

theorem owes_login (body : Option Json) :
    (login pkg body).AllCalls (Owes start (.auth route)) := by
  refine allCalls_orThrow fun body => allCalls_query (owes_query nofun) fun user => ?_
  cases user with
  | none => trivial
  | some user =>
    refine allCalls_now owes_now fun now => ?_
    split
    · exact allCalls_audit (owes_authAudit _) trivial
    · exact owes_loginUnlocked pkg body user

theorem keepsTrail_auth (route : AuthRoute) :
    KeepsTrail start (.auth route) n (route.handler pkg) db := by
  refine keepsTrail_allCalls ?_
  cases route with
  | login body => exact owes_login pkg body
  | refresh cookie => exact owes_refresh pkg cookie
  | logout caller => exact owes_logout caller

end

-- ---------------------------------------------------------------------------
-- The requests that only read
-- ---------------------------------------------------------------------------

section
variable {req : ServerRequest}

theorem owes_status (caller : Caller) (vehicleId : String) :
    (vehicleStatus caller vehicleId).AllCalls (Owes start req) := by
  refine allCalls_caller fun ctx _ => allCalls_query (owes_query nofun) fun vehicle => ?_
  cases vehicle with
  | none => trivial
  | some vehicle =>
    refine allCalls_now owes_now fun now => allCalls_query (owes_query nofun) fun lease => ?_
    refine allCalls_query (owes_query nofun) fun frame => ?_
    cases frame with
    | none => trivial
    | some frame => exact allCalls_now owes_now fun _ => trivial

theorem owes_controlLease (caller : Caller) (vehicleId : String) :
    (controlLease caller vehicleId).AllCalls (Owes start req) := by
  refine allCalls_caller fun ctx _ => allCalls_query (owes_query nofun) fun vehicle => ?_
  cases vehicle with
  | none => trivial
  | some vehicle =>
    refine allCalls_now owes_now fun now => allCalls_query (owes_query nofun) fun lease => ?_
    cases lease <;> trivial

theorem owes_listing (caller : Caller) (query : ListingQuery)
    {list : Option String → Nat → Handler Response}
    (hlist : ∀ vehicleId limit, (Handler.serve (list vehicleId limit)).AllCalls (Owes start req)) :
    (listing caller query list).AllCalls (Owes start req) := by
  refine allCalls_caller fun ctx _ => ?_
  split
  · trivial
  · unfold vehicleScoped
    split
    · exact hlist _ _
    · split
      · trivial
      · refine allCalls_query (owes_query nofun) fun vehicle => ?_
        cases vehicle with
        | none => trivial
        | some vehicle =>
          refine allCalls_query (owes_query nofun) fun permission => ?_
          cases permission with
          | none => trivial
          | some permission => exact hlist _ _

theorem keepsTrail_get (caller : Caller) (read : GetRequest) :
    KeepsTrail start (.get caller read) n (read.program caller) db := by
  refine keepsTrail_allCalls ?_
  cases read with
  | vehicles =>
    exact allCalls_caller fun _ _ => allCalls_query (owes_query nofun) fun _ => trivial
  | status vehicleId => exact owes_status caller vehicleId
  | controlLease vehicleId => exact owes_controlLease caller vehicleId
  | audit query =>
    exact owes_listing caller query fun _ _ => allCalls_query (owes_query nofun) fun _ => trivial
  | datasets query =>
    exact owes_listing caller query fun _ _ => allCalls_query (owes_query nofun) fun _ => trivial

end

theorem keepsTrail_handler (srv : Server) (req : ServerRequest) :
    KeepsTrail start req n (req.handler srv) db := by
  cases req with
  | lease route =>
    cases route with
    | claim req => exact keepsTrail_claim req
    | takeover req => exact keepsTrail_takeover req
    | release req => exact keepsTrail_release req
  | token req => exact keepsTrail_livekitToken srv.lk req
  | grant req => exact keepsTrail_grantPermission req
  | revoke req => exact keepsTrail_revokePermission req
  | controlEvent req => exact keepsTrail_controlEvent srv.internalToken req
  | auth route => exact keepsTrail_auth srv.pkg route
  | get caller read => exact keepsTrail_get caller read

end

end Rvep.Backend
