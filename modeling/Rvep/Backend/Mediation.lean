import Rvep.Backend.AuditTrail
import Rvep.Backend.DatasetAsset
import Rvep.Backend.TelemetryFrame
import Rvep.Lib.Mediation

/-!
# Who may do what

The authority each route asks for, over the whole API: an admin, the internal
token, a permission on the vehicle, or its lease. Where the authority is a row
of the database it may be gone again when the handler acts on it, but it was
there when one of the handler's own steps looked.
-/

namespace Rvep.Backend

open Interleaving Reactive

-- ---------------------------------------------------------------------------
-- The API
-- ---------------------------------------------------------------------------

inductive ApiRequest
  | server (req : ServerRequest)
  | telemetryFrame (req : TelemetryFrameRequest)
  | datasetAsset (req : DatasetAssetRequest)
  | permissions (caller : Caller) (vehicleId : String)
  | myPermissions (caller : Caller)

def ApiRequest.handler (srv : Server) (fmt : NumberFormat) :
    ApiRequest → Prog Call Call.Reply Response
  | .server req => req.handler srv
  | .telemetryFrame req => Backend.telemetryFrame srv.internalToken req
  | .datasetAsset req => Backend.datasetAsset fmt srv.internalToken req
  | .permissions caller vehicleId => permissionsList caller vehicleId
  | .myPermissions caller => Backend.myPermissions caller

-- ---------------------------------------------------------------------------
-- Authority
-- ---------------------------------------------------------------------------

inductive Authority
  | anyone
  | signedIn (caller : Caller)
  | admin (caller : Caller)
  | internal (tokenMatches : Bool)
  /-- The user has a permission on the vehicle, with this role or a higher one. -/
  | permission (userId vehicleId : String) (role : Role)
  /-- The user holds the vehicle's lease. -/
  | lease (userId vehicleId : String)
  | nobody
  deriving DecidableEq, Repr

/-- The authority that the request itself shows. -/
def Authority.granted : Authority → Bool
  | .anyone => true
  | .signedIn caller => caller.isSome
  | .admin caller => caller.any (·.role == .admin)
  | .internal tokenMatches => tokenMatches
  | .permission _ _ _ | .lease _ _ | .nobody => false

/-- A lookup, made in this database, that finds the authority. The vehicles are
those of `start`. -/
def Authority.Shown (start : Db) (a : Authority) (c : Call) (db : Db) : Prop :=
  match a with
  | .permission userId vehicleId role => ∃ v p, start.vehicle? vehicleId = some v ∧
      c = .query (.permissionFindUnique userId v.id) ∧ db.permission? userId v.id = some p ∧
        hasRole p.role role = true
  | .lease userId vehicleId => ∃ v now l, start.vehicle? vehicleId = some v ∧
      c = .query (.leaseFindActive v.id (some now)) ∧ db.activeLease? v.id (some now) = some l ∧
        l.operatorId = userId
  | _ => False

def ofCaller (caller : Caller) (f : AuthContext → Authority) : Authority := caller.elim .nobody f

def listingAuthority (query : ListingQuery) (ctx : AuthContext) : Authority :=
  if ctx.role == .admin then .admin (some ctx)
  else (given query.vehicleId).elim .nobody fun vehicleId => .permission ctx.userId vehicleId .viewer

def tokenAuthority (body : LivekitTokenBody) (ctx : AuthContext) : Authority :=
  match body.role with
  | .admin => .admin (some ctx)
  | .operator => .permission ctx.userId body.vehicleId .operator
  | .viewer => .permission ctx.userId body.vehicleId .viewer

def ServerRequest.authority (srv : Server) : ServerRequest → Authority
  | .lease (.claim req) => ofCaller req.caller fun ctx => .permission ctx.userId req.vehicleId .operator
  | .lease (.takeover req) => .admin req.caller
  | .lease (.release req) => ofCaller req.caller fun ctx => .lease ctx.userId req.vehicleId
  | .token req => ofCaller req.caller fun ctx =>
      (validateBody req.body livekitTokenSchema).toOption.elim .nobody fun body => tokenAuthority body ctx
  | .grant req => .admin req.caller
  | .revoke req => .admin req.caller
  | .controlEvent req => .internal (req.presented == some srv.internalToken)
  | .auth _ => .anyone
  | .get caller (.audit query) | .get caller (.datasets query) =>
    ofCaller caller (listingAuthority query)
  | .get caller _ => .signedIn caller

def ApiRequest.authority (srv : Server) : ApiRequest → Authority
  | .server req => req.authority srv
  | .telemetryFrame req => .internal (req.presented == some srv.internalToken)
  | .datasetAsset req => .internal (req.presented == some srv.internalToken)
  | .permissions caller _ => .admin caller
  | .myPermissions caller => .signedIn caller

/-- Without authority there is no success, and no write but to the audit log. -/
def mediation (srv : Server) (start : Db) : Policy ApiRequest Call Response Db Choice where
  inv db := db.vehicles = start.vehicles
  earned req e c db := e.fails = false ∧ (req.authority srv).Shown start c db
  freeCall req c := (req.authority srv).granted = true ∨ c.isQuiet = true
  freeResult req r := (req.authority srv).granted = true ∨ r.isError = true

abbrev IsMediated (srv : Server) (start : Db) (req : ApiRequest)
    (prog : Prog Call Call.Reply Response) : Prop :=
  prog.Mediated Call.exec (mediation srv start) req

-- ---------------------------------------------------------------------------
-- Rules
-- ---------------------------------------------------------------------------

section
variable {srv : Server} {start : Db} {req : ApiRequest}

theorem mediated_granted (h : (req.authority srv).granted = true)
    (prog : Prog Call Call.Reply Response) : IsMediated srv start req prog :=
  Prog.Mediated.of_free (fun _ => Or.inl h) (fun _ => Or.inl h) prog

theorem mediated_error {r : Response} (h : r.isError = true) : IsMediated srv start req (.done r) :=
  Or.inr h

theorem mediated_caller {caller : Caller} {f : AuthContext → Handler Response}
    (hf : ∀ ctx, caller = some ctx → IsMediated srv start req (Handler.serve (f ctx))) :
    IsMediated srv start req (Handler.serve (getAuthContext caller >>= f)) := by
  cases caller with
  | none => exact mediated_error rfl
  | some ctx => exact hf ctx rfl

theorem mediated_orThrow {r : Except AppError β} {f : β → Handler Response}
    (hf : ∀ b, r = .ok b → IsMediated srv start req (Handler.serve (f b))) :
    IsMediated srv start req (Handler.serve (orThrow r >>= f)) := by
  cases r with
  | error err => exact mediated_error rfl
  | ok b => exact hf b rfl

theorem mediated_read {q : Query} {f : q.Reply → Handler Response} (hq : q.isRead = true)
    (hf : ∀ db v, db.vehicles = start.vehicles → q.answer 0 db = (db, .ok v) →
      (req.authority srv).Shown start (.query q) db ∨ IsMediated srv start req (Handler.serve (f v))) :
    IsMediated srv start req (Handler.serve (Handler.query q >>= f)) := by
  rw [serve_query_bind]
  refine ⟨.inr (isQuiet_read hq), fun e db hdb => ?_⟩
  simp only [Call.exec]
  cases hfails : e.fails with
  | true =>
    rw [Query.exec_of_fails hfails]
    exact .inr (mediated_error rfl)
  | false =>
    obtain ⟨v, hv⟩ := Query.answer_isRead hq db
    rw [Query.exec_of_not_fails hfails, hv]
    exact (hf db v hdb (hv 0)).imp_left fun hshown => ⟨hfails, hshown⟩

theorem mediated_audit {event : EventData} {f : Unit → Handler Response}
    (hf : IsMediated srv start req (Handler.serve (f ()))) :
    IsMediated srv start req (Handler.serve (audit event >>= f)) :=
  ⟨.inr rfl, fun _ _ _ => .inr hf⟩

theorem mediated_now {f : Time → Handler Response}
    (hf : ∀ now, IsMediated srv start req (Handler.serve (f now))) :
    IsMediated srv start req (Handler.serve (Handler.now >>= f)) :=
  ⟨.inr rfl, fun e _ _ => .inr (hf e.now)⟩

/-- The vehicle found is the one of `start`. -/
theorem mediated_vehicle {vehicleId : String} {f : Option Vehicle → Handler Response}
    (hnone : IsMediated srv start req (Handler.serve (f none)))
    (hsome : ∀ v, start.vehicle? vehicleId = some v →
      IsMediated srv start req (Handler.serve (f (some v)))) :
    IsMediated srv start req (Handler.serve (Handler.query (.vehicleFindUnique vehicleId) >>= f)) := by
  refine mediated_read rfl fun db found hdb hfound => .inr ?_
  obtain rfl : db.vehicle? vehicleId = found := (outcome_ok rfl hfound).2
  have hsame : db.vehicle? vehicleId = start.vehicle? vehicleId := by
    rw [Db.vehicle?, Db.vehicle?, hdb]
  rw [hsame]
  cases hv : start.vehicle? vehicleId with
  | none => exact hnone
  | some v => exact hsome v hv

/-- A permission lookup earns the authority, or finds too little. -/
theorem mediated_permission {userId vehicleId : String} {role : Role} {v : Vehicle}
    {f : Option VehiclePermission → Handler Response}
    (hreq : req.authority srv = .permission userId vehicleId role)
    (hv : start.vehicle? vehicleId = some v)
    (hf : ∀ permission, ¬ permission.any (hasRole ·.role role) →
      IsMediated srv start req (Handler.serve (f permission))) :
    IsMediated srv start req
      (Handler.serve (Handler.query (.permissionFindUnique userId v.id) >>= f)) := by
  refine mediated_read rfl fun db found _ hfound => ?_
  obtain rfl : db.permission? userId v.id = found := (outcome_ok rfl hfound).2
  by_cases hany : (db.permission? userId v.id).any (hasRole ·.role role)
  · obtain ⟨p, hp, hrole⟩ := (Option.any_eq_true _ _).mp hany
    rw [hreq]
    exact .inl ⟨v, p, hv, rfl, hp, hrole⟩
  · exact .inr (hf _ hany)

-- ---------------------------------------------------------------------------
-- The routes
-- ---------------------------------------------------------------------------

theorem granted_admin (ctx : AuthContext) (h : ctx.role = .admin) :
    (Authority.admin (some ctx)).granted = true := by
  simp [Authority.granted, h]

theorem mediated_claim (req : LeaseRequest) :
    IsMediated srv start (.server (.lease (.claim req))) (claim req) := by
  refine mediated_caller fun ctx hcaller => mediated_orThrow fun body _ => ?_
  simp only
  split
  · exact mediated_error rfl
  · refine mediated_vehicle (mediated_error rfl) fun v hv => ?_
    have hreq : (ApiRequest.server (.lease (.claim req))).authority srv =
        .permission ctx.userId req.vehicleId .operator := by
      simp [ApiRequest.authority, ServerRequest.authority, ofCaller, hcaller]
    refine mediated_permission hreq hv fun permission hany => ?_
    rw [Bool.not_eq_true] at hany
    simp only [hany, Bool.not_false, if_true]
    exact mediated_error rfl

/-- An admin-only route that turns everybody else away. -/
theorem mediated_adminOnly {caller : Caller} (hreq : req.authority srv = .admin caller)
    {ctx : AuthContext} (hcaller : caller = some ctx) {rest : Handler Response} :
    IsMediated srv start req (Handler.serve (do
      if ctx.role != .admin then throw (.app (Forbidden))
      rest)) := by
  by_cases hadmin : ctx.role = .admin
  · exact mediated_granted (by rw [hreq, hcaller, granted_admin ctx hadmin]) _
  · simp only [bne_iff_ne, ne_eq, hadmin, not_false_eq_true, if_true]
    exact mediated_error rfl

theorem mediated_takeover (req : LeaseRequest) :
    IsMediated srv start (.server (.lease (.takeover req))) (takeover req) :=
  mediated_caller fun _ hcaller => mediated_orThrow fun _ _ => mediated_adminOnly rfl hcaller

theorem mediated_grantPermission (req : GrantRequest) :
    IsMediated srv start (.server (.grant req)) (grantPermission req) :=
  mediated_caller fun _ hcaller => mediated_orThrow fun _ _ => mediated_adminOnly rfl hcaller

theorem mediated_revokePermission (req : RevokeRequest) :
    IsMediated srv start (.server (.revoke req)) (revokePermission req) :=
  mediated_caller fun _ hcaller => mediated_adminOnly rfl hcaller

theorem mediated_permissionsList (caller : Caller) (vehicleId : String) :
    IsMediated srv start (.permissions caller vehicleId) (permissionsList caller vehicleId) :=
  mediated_caller fun _ hcaller => mediated_adminOnly rfl hcaller

/-- A route that asks for a caller and no more. -/
theorem mediated_signedIn {caller : Caller} (hreq : req.authority srv = .signedIn caller)
    {f : AuthContext → Handler Response} :
    IsMediated srv start req (Handler.serve (getAuthContext caller >>= f)) := by
  refine mediated_caller fun ctx hcaller => mediated_granted ?_ _
  simp [hreq, Authority.granted, hcaller]

theorem mediated_myPermissions (caller : Caller) :
    IsMediated srv start (.myPermissions caller) (myPermissions caller) :=
  mediated_signedIn rfl

theorem mediated_release (req : LeaseRequest) :
    IsMediated srv start (.server (.lease (.release req))) (release req) := by
  refine mediated_caller fun ctx hcaller => mediated_vehicle (mediated_error rfl) fun v hv => ?_
  refine mediated_now fun now => mediated_read rfl fun db found _ hfound => ?_
  obtain rfl : db.activeLease? v.id (some now) = found := (outcome_ok rfl hfound).2
  cases hl : db.activeLease? v.id (some now) with
  | none => exact .inr (mediated_error rfl)
  | some l =>
    by_cases howner : l.operatorId = ctx.userId
    · refine .inl ?_
      simp only [ApiRequest.authority, ServerRequest.authority, ofCaller, hcaller]
      exact ⟨v, now, l, hv, rfl, hl, howner⟩
    · refine .inr ?_
      simp only [bne_iff_ne, ne_eq, howner, not_false_eq_true, if_true]
      exact mediated_error rfl

section
variable {treq : TokenRequest} {ctx : AuthContext} {body : LivekitTokenBody} {v : Vehicle}
  (hcaller : treq.caller = some ctx) (hbody : validateBody treq.body livekitTokenSchema = .ok body)
include hcaller hbody

theorem token_authority :
    (ApiRequest.server (.token treq)).authority srv = tokenAuthority body ctx := by
  simp [ApiRequest.authority, ServerRequest.authority, ofCaller, hcaller, hbody, Except.toOption]

theorem mediated_adminToken (hrole : body.role = .admin) :
    IsMediated srv start (.server (.token treq))
      (Handler.serve (adminToken srv.lk ctx body v)) := by
  by_cases hadmin : ctx.role = .admin
  · refine mediated_granted ?_ _
    rw [token_authority hcaller hbody, tokenAuthority, hrole]
    exact granted_admin ctx hadmin
  · unfold adminToken
    simp only [bne_iff_ne, ne_eq, hadmin, not_false_eq_true, if_true]
    exact mediated_audit (mediated_error rfl)

theorem mediated_permittedToken (hrole : body.role ≠ .admin) (hv : start.vehicle? body.vehicleId = some v) :
    IsMediated srv start (.server (.token treq))
      (Handler.serve (permittedToken srv.lk ctx body v)) := by
  have hdenied {payload : Fields} {r : Response} (hr : r.isError = true) :
      IsMediated srv start (.server (.token treq))
        (Handler.serve (audit (tokenDenied ctx (some v) payload) >>= fun _ => pure r)) :=
    mediated_audit (mediated_error hr)
  cases hbodyRole : body.role with
  | admin => exact absurd hbodyRole hrole
  | viewer =>
    have hreq : (ApiRequest.server (.token treq)).authority srv =
        .permission ctx.userId body.vehicleId .viewer := by
      rw [token_authority hcaller hbody, tokenAuthority, hbodyRole]
    refine mediated_permission hreq hv fun permission hany => ?_
    cases permission with
    | none => exact hdenied rfl
    | some p => exact absurd (by cases p.role <;> rfl) hany
  | operator =>
    have hreq : (ApiRequest.server (.token treq)).authority srv =
        .permission ctx.userId body.vehicleId .operator := by
      rw [token_authority hcaller hbody, tokenAuthority, hbodyRole]
    refine mediated_permission hreq hv fun permission hany => ?_
    cases permission with
    | none => exact hdenied rfl
    | some p =>
      have hp : p.role = .viewer := by
        cases hr : p.role with
        | viewer => rfl
        | operator | admin => exact absurd (by simp [hr, hasRole, Role.rank]) hany
      simp only [hbodyRole, hp]
      exact hdenied rfl

end

theorem mediated_livekitToken (treq : TokenRequest) :
    IsMediated srv start (.server (.token treq)) (livekitToken srv.lk treq) := by
  refine mediated_caller fun ctx hcaller => mediated_orThrow fun body hbody => ?_
  refine mediated_vehicle (mediated_audit (mediated_error rfl)) fun v hv => ?_
  by_cases hrole : body.role = .admin
  · simp only [hrole, beq_self_eq_true, if_true]
    exact mediated_adminToken hcaller hbody hrole
  · simp only [beq_iff_eq, hrole, if_false]
    exact mediated_permittedToken hcaller hbody hrole hv

/-- A route for the other processes turns away who has not the internal token. -/
theorem mediated_internal {presented : Option String}
    (hreq : req.authority srv = .internal (presented == some srv.internalToken))
    {rest : Handler Response} :
    IsMediated srv start req (Handler.serve (
      if presented != some srv.internalToken then return fail "unauthorized_internal" 401
      else rest)) := by
  by_cases h : presented = some srv.internalToken
  · exact mediated_granted (by simp [hreq, Authority.granted, h]) _
  · simp only [bne_iff_ne, ne_eq, h, not_false_eq_true, if_true]
    exact mediated_error rfl

theorem mediated_listing {caller : Caller} {query : ListingQuery}
    (hreq : req.authority srv = ofCaller caller (listingAuthority query))
    (list : Option String → Nat → Handler Response) :
    IsMediated srv start req (listing caller query list) := by
  refine mediated_caller fun ctx hcaller => ?_
  have hctx : req.authority srv = listingAuthority query ctx := by rw [hreq, hcaller]; rfl
  split
  · exact mediated_error rfl
  · unfold vehicleScoped
    by_cases hadmin : ctx.role = .admin
    · refine mediated_granted ?_ _
      simp [hctx, listingAuthority, hadmin, granted_admin]
    · simp only [beq_iff_eq, hadmin, if_false]
      cases hgiven : given query.vehicleId with
      | none => exact mediated_error rfl
      | some vehicleId =>
        have hperm : req.authority srv = .permission ctx.userId vehicleId .viewer := by
          simp [hctx, listingAuthority, hadmin, hgiven]
        refine mediated_vehicle (mediated_error rfl) fun v hv => ?_
        refine mediated_permission hperm hv fun permission hany => ?_
        cases permission with
        | none => exact mediated_error rfl
        | some p => exact absurd (by cases p.role <;> rfl) hany

theorem mediated_get (caller : Caller) (read : GetRequest) :
    IsMediated srv start (.server (.get caller read)) (read.program caller) := by
  cases read with
  | vehicles | status | controlLease => exact mediated_signedIn rfl
  | audit query | datasets query => exact mediated_listing rfl _

theorem mediated_handler (srv : Server) (fmt : NumberFormat) (req : ApiRequest) :
    IsMediated srv start req (req.handler srv fmt) := by
  cases req with
  | telemetryFrame req => exact mediated_internal rfl
  | datasetAsset req => exact mediated_internal rfl
  | permissions caller vehicleId => exact mediated_permissionsList caller vehicleId
  | myPermissions caller => exact mediated_myPermissions caller
  | server req =>
    cases req with
    | token req => exact mediated_livekitToken req
    | grant req => exact mediated_grantPermission req
    | revoke req => exact mediated_revokePermission req
    | controlEvent req => exact mediated_internal rfl
    | auth route => exact mediated_granted rfl _
    | get caller read => exact mediated_get caller read
    | lease route =>
      cases route with
      | claim req => exact mediated_claim req
      | takeover req => exact mediated_takeover req
      | release req => exact mediated_release req

end

-- ---------------------------------------------------------------------------
-- Runs
-- ---------------------------------------------------------------------------

theorem Call.exec_extends (e : Choice) (db : Db) (c : Call) : db.Extends (Call.exec e db c).1 := by
  cases c with
  | query q => exact Query.exec_extends e db q
  | now => exact .refl db
  | transaction tx =>
    rw [Call.exec_transaction]
    split
    · exact .refl db
    · have hrun : db.Extends (tx.run e.now db).1 :=
        Prog.run_rel .refl .trans Query.exec_extends (ExceptT.run tx) _ db
      unfold Tx.commit
      split
      · next heq => exact heq ▸ hrun
      · exact .refl db

abbrev ApiEvent := Event ApiRequest Choice
abbrev ApiEntry := Entry (Pool ApiRequest Call Call.Reply Response Db Unit) ApiEvent Unit
abbrev ApiLog := PoolLog ApiRequest Call Call.Reply Response Db Choice Unit

abbrev apiSystem (srv : Server) (fmt : NumberFormat) (start : Db) :=
  pool trailWorld (ApiRequest.handler srv fmt) start

/-- The request shows its authority, or one of these steps was its own lookup
that found it. -/
def Authorized (srv : Server) (start : Db) (req : ApiRequest) (steps : ApiLog) : Prop :=
  (req.authority srv).granted = true ∨
    ∃ y ∈ steps, ∃ choice c, y.before.call? y.event = some (req, choice, (), c) ∧
      choice.fails = false ∧ (req.authority srv).Shown start c y.before.world

section
variable {srv : Server} {fmt : NumberFormat} {start : Db} {es : List ApiEvent}

theorem api_extends :
    start.Extends ((apiSystem srv fmt start).state ((apiSystem srv fmt start).log es)).world := by
  induction es with
  | nil => exact .refl start
  | cons e es ih =>
    refine ih.trans ?_
    rcases Pool.step_cases trailWorld (ApiRequest.handler srv fmt)
      ((apiSystem srv fmt start).state ((apiSystem srv fmt start).log es)) e with
      h | ⟨request, h⟩ | ⟨i, choice, request, c, k, n, -, -, h⟩
    all_goals
      change Db.Extends _ (Pool.step trailWorld _ _ e).world
      rw [h]
    · exact .refl _
    · exact .refl _
    · exact Call.exec_extends choice _ c

theorem api_vehicles {x} (hx : x ∈ (apiSystem srv fmt start).log es) :
    x.before.world.vehicles = start.vehicles := by
  induction es with
  | nil => exact absurd hx List.not_mem_nil
  | cons e es ih =>
    rw [System.log_cons] at hx
    rcases List.mem_cons.mp hx with rfl | hx
    · exact api_extends.vehicles
    · exact ih hx

end

theorem authorized_of_earned {srv : Server} {start : Db} {req : ApiRequest} {steps : ApiLog}
    (h : ∃ y ∈ steps, (mediation srv start).EarnedIn req y) : Authorized srv start req steps := by
  obtain ⟨y, hy, choice, ⟨⟩, c, hcall, hok, hshown⟩ := h
  exact .inr ⟨y, hy, choice, c, hcall, hok, hshown⟩

/-- A turn of task `i` that writes more than events. -/
def Writing (t : Task ApiRequest Call Call.Reply Response Unit) (x : ApiEntry) : Prop :=
  ∃ choice c, x.before.call? x.event = some (t.request, choice, (), c) ∧ c.isQuiet = false

section
variable {srv : Server} {fmt : NumberFormat} {start : Db} {es : List ApiEvent} {i : Nat}
  {t : Task ApiRequest Call Call.Reply Response Unit}
  (h : ((apiSystem srv fmt start).state ((apiSystem srv fmt start).log es)).tasks[i]? = some t)
include h

theorem api_accounts :
    (mediation srv start).Accounts trailWorld.exec t (turns i ((apiSystem srv fmt start).log es)) :=
  Policy.accounts (mediated_handler srv fmt) (fun _ hx => api_vehicles hx) h

theorem authorized_result {r : Response} (hr : t.prog.point = .finished r) (hok : r.isError = false) :
    Authorized srv start t.request (turns i ((apiSystem srv fmt start).log es)) := by
  by_cases hgranted : (t.request.authority srv).granted = true
  · exact .inl hgranted
  · refine authorized_of_earned ((api_accounts h).result hr ?_)
    rintro (hself | herror)
    · exact hgranted hself
    · exact Bool.false_ne_true (hok.symm.trans herror)

theorem authorized_write {x : ApiEntry} (hx : x ∈ turns i ((apiSystem srv fmt start).log es))
    (hwrites : Writing t x) :
    Authorized srv start t.request (turns i ((apiSystem srv fmt start).log es)) := by
  obtain ⟨choice, c, hcall, hquiet⟩ := hwrites
  by_cases hgranted : (t.request.authority srv).granted = true
  · exact .inl hgranted
  · refine authorized_of_earned ((api_accounts h).calls.of_mem hx hcall ?_)
    rintro (hself | hquiet')
    · exact hgranted hself
    · exact Bool.false_ne_true (hquiet.symm.trans hquiet')

end

/-- In every interleaving, a request succeeds and writes only with its authority,
shown or found before. -/
theorem authorized_before (srv : Server) (fmt : NumberFormat) (start : Db) (es : List ApiEvent)
    {i : Nat} {t : Task ApiRequest Call Call.Reply Response Unit}
    (h : ((apiSystem srv fmt start).state ((apiSystem srv fmt start).log es)).tasks[i]? = some t) :
    (∀ r, t.prog.point = .finished r → r.isError = false →
      Authorized srv start t.request (turns i ((apiSystem srv fmt start).log es))) ∧
    Always (fun x earlier => Writing t x → Authorized srv start t.request earlier)
      (turns i ((apiSystem srv fmt start).log es)) := by
  refine ⟨fun _ => authorized_result h, ?_⟩
  refine (api_accounts h).calls.imp fun x earlier hcalls hwriting => ?_
  obtain ⟨choice, c, hcall, hwrites⟩ := hwriting
  rcases hcalls t.request choice () c hcall with (hgranted | hquiet) | hearned
  · exact .inl hgranted
  · exact absurd (hwrites.symm.trans hquiet) Bool.false_ne_true
  · exact authorized_of_earned hearned

private def apiDepot : Db where
  users := [⟨"alice", "alice@rvep.dev", "", .operator, 0, none, 0⟩]
  vehicles := [⟨"v1", "vehicle-001", "UGV 1", .wheeled, .online⟩]
  permissions := [⟨"alice", "v1", .operator, 1, none, 0⟩]
  sessions := [⟨"s1", "web-alice", "v1", "alice", 1, .active, 0, .control⟩]
  leases := []
  events := []

private def alicesClaim : ApiRequest :=
  .server (.lease (.claim ⟨some ⟨"alice", .operator⟩, "vehicle-001",
    some (.obj [("sessionId", .str "web-alice")])⟩))

private def aliceAlone : List ApiEvent := List.replicate 6 (.step 0 ⟨1000, false⟩) ++ [.spawn alicesClaim]

private def alicesLease : Response :=
  ok [("vehicleId", .text "vehicle-001"), ("operatorId", .text "alice"), ("sessionId", .text "web-alice"),
    ("connectionEpoch", .text "1"), ("status", .text "active"), ("expiresAt", .instant 1801000)] 201

theorem claim_authorized :
    Authorized bareServer apiDepot alicesClaim
      (turns 0 ((apiSystem bareServer wholeNumbers apiDepot).log aliceAlone)) := by
  obtain ⟨t, ht, hpoint⟩ := Option.map_eq_some_iff.mp (show Option.map (fun t => (t.request, t.prog.point))
    ((apiSystem bareServer wholeNumbers apiDepot).state
      ((apiSystem bareServer wholeNumbers apiDepot).log aliceAlone)).tasks[0]? =
      some (alicesClaim, .finished alicesLease) from rfl)
  obtain ⟨hrequest, hfinished⟩ := Prod.mk.inj hpoint
  rw [← hrequest]
  exact (authorized_before bareServer wholeNumbers apiDepot aliceAlone ht).1 _ hfinished rfl

end Rvep.Backend
