import Rvep.Backend.Mediation

/-!
# What each route may write

Every call a handler makes, whatever it is answered: a read, an audit event, or
a write to the table that is its route's own.
-/

namespace Rvep.Backend

open Interleaving Reactive

-- ---------------------------------------------------------------------------
-- What a route may write
-- ---------------------------------------------------------------------------

/-- The request is an admin's, to give the user this role. -/
def GrantRequest.Gives (req : GrantRequest) (userId : String) (role : Role) : Prop :=
  ∃ ctx body, req.caller = some ctx ∧ ctx.role = .admin ∧
    validateBody req.body grantPermissionSchema = .ok body ∧ userId = body.userId ∧ role = body.role

/-- The routes that write each table, besides the events'. -/
def ApiRequest.Writes (req : ApiRequest) : Call → Prop
  | .transaction tx => (∃ lreq, req = .server (.lease (.claim lreq))) ∧
    ∃ userId vehicle session now, tx = claimTransaction userId vehicle session now
  | .query (.leaseUpdate _ data) => data.status ≠ .active ∧
    ∃ lreq, req = .server (.lease (.takeover lreq)) ∨ req = .server (.lease (.release lreq))
  | .query (.leaseCreate _) => ∃ lreq, req = .server (.lease (.takeover lreq))
  | .query (.permissionUpsert userId _ role _) =>
    ∃ greq, req = .server (.grant greq) ∧ greq.Gives userId role
  | .query (.permissionDelete _) => ∃ rreq, req = .server (.revoke rreq)
  | .query (.userUpdate _ _) => ∃ route, req = .server (.auth route)
  | .query (.telemetryFrameCreate _) => ∃ treq, req = .telemetryFrame treq
  | .query (.userCreate _) | .query (.sessionCreate _) | .query (.datasetAssetCreate _) =>
    ∃ dreq, req = .datasetAsset dreq
  | _ => False

def ApiRequest.MayCall (req : ApiRequest) (c : Call) : Prop := c.isQuiet = true ∨ req.Writes c

-- ---------------------------------------------------------------------------
-- The leases
-- ---------------------------------------------------------------------------

theorem mayCall_claim (req : LeaseRequest) :
    (claim req).AllCalls (ApiRequest.MayCall (.server (.lease (.claim req)))) := by
  refine allCalls_caller fun ctx _ => allCalls_orThrow fun body => ?_
  simp only
  split
  · trivial
  · refine allCalls_query (.inl rfl) fun vehicle => ?_
    cases vehicle with
    | none => trivial
    | some vehicle =>
      refine allCalls_query (.inl rfl) fun permission => ?_
      split
      · trivial
      · refine allCalls_query (.inl rfl) fun session? => ?_
        cases session? with
        | none => trivial
        | some session =>
          refine allCalls_now (.inl rfl) fun now => ?_
          refine allCalls_transaction (.inr ⟨⟨_, rfl⟩, _, _, _, _, rfl⟩) fun result => ?_
          cases result with
          | denied | created => exact allCalls_audit (.inl rfl) trivial

theorem mayCall_takeoverAssign (req : LeaseRequest) (ctx : AuthContext) (body : TakeoverBody)
    (vehicle : Vehicle) (now : Time) (oldOperatorId : Option String) :
    (Handler.serve (takeoverAssign req ctx body vehicle now oldOperatorId)).AllCalls
      (ApiRequest.MayCall (.server (.lease (.takeover req)))) := by
  refine allCalls_query (.inl rfl) fun user => ?_
  cases user with
  | none => trivial
  | some user =>
    refine allCalls_query (.inl rfl) fun session? => ?_
    cases session? with
    | none => trivial
    | some session =>
      exact allCalls_query (.inr ⟨_, rfl⟩) fun lease => allCalls_audit (.inl rfl) trivial

theorem mayCall_takeover (req : LeaseRequest) :
    (takeover req).AllCalls (ApiRequest.MayCall (.server (.lease (.takeover req)))) := by
  refine allCalls_caller fun ctx _ => allCalls_orThrow fun body => ?_
  simp only
  split
  · trivial
  · refine allCalls_query (.inl rfl) fun vehicle => ?_
    cases vehicle with
    | none => trivial
    | some vehicle =>
      refine allCalls_now (.inl rfl) fun now => allCalls_query (.inl rfl) fun lease? => ?_
      cases lease? with
      | none => exact mayCall_takeoverAssign req ctx body vehicle now none
      | some lease =>
        exact allCalls_query (.inr ⟨revoked_not_active _, _, .inl rfl⟩) fun _ =>
          mayCall_takeoverAssign req ctx body vehicle now _

theorem mayCall_release (req : LeaseRequest) :
    (release req).AllCalls (ApiRequest.MayCall (.server (.lease (.release req)))) := by
  refine allCalls_caller fun ctx _ => allCalls_query (.inl rfl) fun vehicle => ?_
  cases vehicle with
  | none => trivial
  | some vehicle =>
    refine allCalls_now (.inl rfl) fun now => allCalls_query (.inl rfl) fun lease? => ?_
    cases lease? with
    | none => trivial
    | some lease =>
      simp only
      split
      · trivial
      · exact allCalls_query (.inr ⟨released_not_active _, _, .inr rfl⟩) fun _ => allCalls_audit (.inl rfl) trivial

-- ---------------------------------------------------------------------------
-- Tokens and events
-- ---------------------------------------------------------------------------

section
variable {req : ApiRequest}

theorem mayCall_issueAndRespond (lk : Livekit) (userId vehicleId rowId : String) (role : LivekitRole) :
    (Handler.serve (issueAndRespond lk userId vehicleId rowId role)).AllCalls (req.MayCall) := by
  unfold issueAndRespond issueLivekitToken
  cases getLivekitConfig lk with
  | error err => trivial
  | ok config =>
    exact allCalls_now (.inl rfl) fun _ => allCalls_now (.inl rfl) fun _ =>
      allCalls_audit (.inl rfl) trivial

theorem mayCall_operatorToken (lk : Livekit) (ctx : AuthContext) (body : LivekitTokenBody)
    (vehicle : Vehicle) :
    (Handler.serve (operatorToken lk ctx body vehicle)).AllCalls (req.MayCall) := by
  refine allCalls_now (.inl rfl) fun now => allCalls_query (.inl rfl) fun lease? => ?_
  cases lease? with
  | none => exact mayCall_issueAndRespond lk _ _ _ _
  | some lease =>
    simp only
    split
    · exact allCalls_audit (.inl rfl) trivial
    · exact mayCall_issueAndRespond lk _ _ _ _

theorem mayCall_permittedToken (lk : Livekit) (ctx : AuthContext) (body : LivekitTokenBody)
    (vehicle : Vehicle) :
    (Handler.serve (permittedToken lk ctx body vehicle)).AllCalls (req.MayCall) := by
  refine allCalls_query (.inl rfl) fun permission => ?_
  cases permission with
  | none => exact allCalls_audit (.inl rfl) trivial
  | some permission =>
    simp only
    split
    · exact allCalls_audit (.inl rfl) trivial
    · split
      · exact mayCall_operatorToken lk ctx body vehicle
      · exact mayCall_issueAndRespond lk _ _ _ _

theorem mayCall_livekitToken (lk : Livekit) (treq : TokenRequest) :
    (livekitToken lk treq).AllCalls (req.MayCall) := by
  refine allCalls_caller fun ctx _ => allCalls_orThrow fun body => ?_
  refine allCalls_query (.inl rfl) fun vehicle => ?_
  cases vehicle with
  | none => exact allCalls_audit (.inl rfl) trivial
  | some vehicle =>
    simp only
    split
    · unfold adminToken
      split
      · exact allCalls_audit (.inl rfl) trivial
      · exact mayCall_issueAndRespond lk _ _ _ _
    · exact mayCall_permittedToken lk ctx body vehicle

theorem mayCall_controlEvent (internalToken : String) (ereq : ControlEventRequest) :
    (controlEvent internalToken ereq).AllCalls (req.MayCall) := by
  unfold controlEvent
  split
  · trivial
  · cases validateBody ereq.body eventSchema with
    | error _ => trivial
    | ok body =>
      refine allCalls_query (.inl rfl) fun vehicle => ?_
      cases vehicle with
      | none => trivial
      | some vehicle => exact allCalls_audit (.inl rfl) trivial

-- ---------------------------------------------------------------------------
-- The requests that only read
-- ---------------------------------------------------------------------------

theorem mayCall_listing (caller : Caller) (query : ListingQuery)
    {list : Option String → Nat → Handler Response}
    (hlist : ∀ vehicleId limit, (Handler.serve (list vehicleId limit)).AllCalls (req.MayCall)) :
    (listing caller query list).AllCalls (req.MayCall) := by
  refine allCalls_caller fun ctx _ => ?_
  split
  · trivial
  · unfold vehicleScoped
    split
    · exact hlist _ _
    · split
      · trivial
      · refine allCalls_query (.inl rfl) fun vehicle => ?_
        cases vehicle with
        | none => trivial
        | some vehicle =>
          refine allCalls_query (.inl rfl) fun permission => ?_
          cases permission with
          | none => trivial
          | some permission => exact hlist _ _

theorem mayCall_get (caller : Caller) (read : GetRequest) :
    (read.program caller).AllCalls (req.MayCall) := by
  cases read with
  | vehicles => exact allCalls_caller fun _ _ => allCalls_query (.inl rfl) fun _ => trivial
  | status vehicleId =>
    refine allCalls_caller fun ctx _ => allCalls_query (.inl rfl) fun vehicle => ?_
    cases vehicle with
    | none => trivial
    | some vehicle =>
      refine allCalls_now (.inl rfl) fun now => allCalls_query (.inl rfl) fun lease => ?_
      refine allCalls_query (.inl rfl) fun frame => ?_
      cases frame with
      | none => trivial
      | some frame => exact allCalls_now (.inl rfl) fun _ => trivial
  | controlLease vehicleId =>
    refine allCalls_caller fun ctx _ => allCalls_query (.inl rfl) fun vehicle => ?_
    cases vehicle with
    | none => trivial
    | some vehicle =>
      refine allCalls_now (.inl rfl) fun now => allCalls_query (.inl rfl) fun lease => ?_
      cases lease <;> trivial
  | audit query =>
    exact mayCall_listing caller query fun _ _ => allCalls_query (.inl rfl) fun _ => trivial
  | datasets query =>
    exact mayCall_listing caller query fun _ _ => allCalls_query (.inl rfl) fun _ => trivial

end

-- ---------------------------------------------------------------------------
-- Accounts
-- ---------------------------------------------------------------------------

section
variable (pkg : Packages) {route : AuthRoute}

theorem mayCall_refresh (cookie : Option String) :
    (refresh pkg cookie).AllCalls (ApiRequest.MayCall (.server (.auth route))) := by
  unfold refresh
  split
  · exact allCalls_audit (.inl rfl) trivial
  · refine allCalls_now (.inl rfl) fun now => ?_
    cases hverified : (pkg.reject .refresh now _).elim _ _ with
    | error message => exact allCalls_audit (.inl rfl) trivial
    | ok payload =>
      refine allCalls_query (.inl rfl) fun user => ?_
      cases user with
      | none => exact allCalls_audit (.inl rfl) trivial
      | some user =>
        simp only
        split
        · exact allCalls_audit (.inl rfl) trivial
        · refine allCalls_query (.inr ⟨_, rfl⟩) fun updated => ?_
          exact allCalls_now (.inl rfl) fun _ => allCalls_now (.inl rfl) fun _ =>
            allCalls_audit (.inl rfl) trivial

theorem mayCall_logout (caller : Caller) :
    (logout caller).AllCalls (ApiRequest.MayCall (.server (.auth route))) := by
  cases caller with
  | none => exact allCalls_audit (.inl rfl) trivial
  | some ctx =>
    exact allCalls_query (.inr ⟨_, rfl⟩) fun _ => allCalls_audit (.inl rfl) trivial

theorem mayCall_loginUnlocked (body : LoginBody) (user : User) :
    (Handler.serve (loginUnlocked pkg body user)).AllCalls
      (ApiRequest.MayCall (.server (.auth route))) := by
  unfold loginUnlocked
  split
  · unfold recordLoginFailure
    simp only [bind_assoc]
    refine allCalls_now (.inl rfl) fun checkedAt => allCalls_now (.inl rfl) fun lockedAt => ?_
    refine allCalls_query (.inr ⟨_, rfl⟩) fun _ => ?_
    split
    · exact ⟨.inl rfl, fun _ => ⟨.inl rfl, fun _ => trivial⟩⟩
    · exact ⟨.inl rfl, fun _ => trivial⟩
  · refine allCalls_query (.inr ⟨_, rfl⟩) fun updated => ?_
    exact allCalls_now (.inl rfl) fun _ => allCalls_now (.inl rfl) fun _ =>
      allCalls_audit (.inl rfl) trivial

theorem mayCall_login (body : Option Json) :
    (login pkg body).AllCalls (ApiRequest.MayCall (.server (.auth route))) := by
  refine allCalls_orThrow fun body => allCalls_query (.inl rfl) fun user => ?_
  cases user with
  | none => trivial
  | some user =>
    refine allCalls_now (.inl rfl) fun now => ?_
    split
    · exact allCalls_audit (.inl rfl) trivial
    · exact mayCall_loginUnlocked pkg body user

theorem mayCall_auth (route : AuthRoute) :
    (route.handler pkg).AllCalls (ApiRequest.MayCall (.server (.auth route))) := by
  cases route with
  | login body => exact mayCall_login pkg body
  | refresh cookie => exact mayCall_refresh pkg cookie
  | logout caller => exact mayCall_logout caller

end

-- ---------------------------------------------------------------------------
-- The edge
-- ---------------------------------------------------------------------------

theorem mayCall_telemetryFrame (internalToken : String) (req : TelemetryFrameRequest) :
    (telemetryFrame internalToken req).AllCalls (ApiRequest.MayCall (.telemetryFrame req)) := by
  unfold telemetryFrame
  split
  · trivial
  · refine allCalls_orThrow fun body => allCalls_query (.inl rfl) fun vehicle => ?_
    cases vehicle with
    | none => trivial
    | some vehicle =>
      simp only
      split
      · trivial
      · exact allCalls_query (.inr ⟨_, rfl⟩) fun _ => trivial

/-- A registration reads, and creates the account, the session and the asset it needs. -/
theorem allCalls_registerAsset {P : Call → Prop} (hquiet : ∀ c, c.isQuiet = true → P c)
    (huser : P (.query (.userCreate systemUser))) (hsession : ∀ data, P (.query (.sessionCreate data)))
    (hasset : ∀ data, P (.query (.datasetAssetCreate data))) (body : DatasetAssetBody) :
    (Handler.serve (registerAsset body)).AllCalls P := by
  have hcreate (vehicle : Vehicle) (session : Session) :
      (Handler.serve (Handler.query (.datasetAssetCreate (body.data vehicle session)) >>= fun asset =>
        pure (registered asset session))).AllCalls P :=
    allCalls_query (hasset _) fun _ => trivial
  have hin (vehicle : Vehicle) (user : User) :
      (Handler.serve (getOrCreateSession vehicle.id body.sessionId user.id >>= fun session =>
        Handler.query (.datasetAssetCreate (body.data vehicle session)) >>= fun asset =>
          pure (registered asset session))).AllCalls P := by
    rw [getOrCreateSession, getOrCreate, bind_assoc]
    refine allCalls_query (hquiet _ rfl) fun found => ?_
    cases found with
    | none => exact allCalls_query (hsession _) fun session => hcreate vehicle session
    | some session => exact hcreate vehicle session
  refine allCalls_query (hquiet _ rfl) fun vehicle => ?_
  cases vehicle with
  | none => trivial
  | some vehicle =>
    simp only
    rw [getOrCreateSystemUser, getOrCreate, bind_assoc]
    refine allCalls_query (hquiet _ rfl) fun found => ?_
    cases found with
    | none => exact allCalls_query huser fun user => hin vehicle user
    | some user => exact hin vehicle user

theorem mayCall_registerAsset (body : DatasetAssetBody) (req : DatasetAssetRequest) :
    (Handler.serve (registerAsset body)).AllCalls (ApiRequest.MayCall (.datasetAsset req)) :=
  allCalls_registerAsset (fun _ => .inl) (.inr ⟨_, rfl⟩) (fun _ => .inr ⟨_, rfl⟩)
    (fun _ => .inr ⟨_, rfl⟩) body

theorem mayCall_datasetAsset (fmt : NumberFormat) (internalToken : String)
    (req : DatasetAssetRequest) :
    (datasetAsset fmt internalToken req).AllCalls (ApiRequest.MayCall (.datasetAsset req)) := by
  unfold datasetAsset
  split
  · trivial
  · exact allCalls_orThrow fun body => mayCall_registerAsset body req

-- ---------------------------------------------------------------------------
-- Permissions
-- ---------------------------------------------------------------------------

theorem mayCall_grantPermission (req : GrantRequest) :
    (grantPermission req).AllCalls (ApiRequest.MayCall (.server (.grant req))) := by
  refine allCalls_caller fun ctx hctx => ?_
  cases hbody : validateBody req.body grantPermissionSchema with
  | error _ => trivial
  | ok body =>
    by_cases hadmin : ctx.role = .admin
    · change (Handler.serve (if ctx.role != .admin then _ else _)).AllCalls _
      simp only [bne_iff_ne, ne_eq, hadmin, not_true_eq_false, if_false]
      refine allCalls_query (.inl rfl) fun vehicle => ?_
      cases vehicle with
      | none => trivial
      | some vehicle =>
        refine allCalls_query (.inl rfl) fun user => ?_
        cases user with
        | none => trivial
        | some user =>
          refine allCalls_query (.inr ?_) fun _ => allCalls_audit (.inl rfl) trivial
          exact ⟨req, rfl, ctx, body, hctx, hadmin, hbody, rfl, rfl⟩
    · change (Handler.serve (if ctx.role != .admin then _ else _)).AllCalls _
      simp only [bne_iff_ne, ne_eq, hadmin, not_false_eq_true, if_true]
      trivial

theorem mayCall_revokePermission (req : RevokeRequest) :
    (revokePermission req).AllCalls (ApiRequest.MayCall (.server (.revoke req))) := by
  refine allCalls_caller fun ctx _ => ?_
  simp only
  split
  · trivial
  · refine allCalls_query (.inl rfl) fun vehicle => ?_
    cases vehicle with
    | none => trivial
    | some vehicle =>
      refine allCalls_query (.inl rfl) fun permission => ?_
      cases permission with
      | none => trivial
      | some permission =>
        exact allCalls_query (.inr ⟨_, rfl⟩) fun _ => allCalls_audit (.inl rfl) trivial

theorem mayCall_permissionsList {req : ApiRequest} (caller : Caller) (vehicleId : String) :
    (permissionsList caller vehicleId).AllCalls req.MayCall := by
  refine allCalls_caller fun ctx _ => ?_
  simp only
  split
  · trivial
  · refine allCalls_query (.inl rfl) fun vehicle => ?_
    cases vehicle with
    | none => trivial
    | some vehicle => exact allCalls_query (.inl rfl) fun _ => trivial

theorem mayCall_myPermissions {req : ApiRequest} (caller : Caller) :
    (myPermissions caller).AllCalls req.MayCall :=
  allCalls_caller fun _ _ => allCalls_query (.inl rfl) fun _ => trivial

theorem mayCall_handler (srv : Server) (fmt : NumberFormat) (req : ApiRequest) :
    (req.handler srv fmt).AllCalls req.MayCall := by
  cases req with
  | telemetryFrame req => exact mayCall_telemetryFrame _ req
  | datasetAsset req => exact mayCall_datasetAsset fmt _ req
  | permissions caller vehicleId => exact mayCall_permissionsList caller vehicleId
  | myPermissions caller => exact mayCall_myPermissions caller
  | server req =>
    cases req with
    | token req => exact mayCall_livekitToken srv.lk req
    | grant req => exact mayCall_grantPermission req
    | revoke req => exact mayCall_revokePermission req
    | controlEvent req => exact mayCall_controlEvent _ req
    | auth route => exact mayCall_auth srv.pkg route
    | get caller read => exact mayCall_get caller read
    | lease route =>
      cases route with
      | claim req => exact mayCall_claim req
      | takeover req => exact mayCall_takeover req
      | release req => exact mayCall_release req

end Rvep.Backend
