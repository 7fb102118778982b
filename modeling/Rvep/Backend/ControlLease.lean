import Rvep.Backend.Api

/-!
# Control leases

The handlers of `vehicles/[vehicleId]/control-lease`: `claim`, `takeover`,
`release` and the route's own `GET`. A claim checks and creates its lease in one
transaction under an advisory lock; the others call the database outside any.
-/

namespace Rvep.Backend

open Interleaving

def leaseTtlMs : Int := 30 * 60 * 1000

structure ClaimBody where
  sessionId : String
  deriving DecidableEq, Repr

def claimLeaseSchema (fields : List (String × Json)) : Except (List String) ClaimBody :=
  match stringKey "sessionId" (minOne "sessionId is required") fields with
  | .ok sessionId => .ok ⟨sessionId⟩
  | .error issues => .error issues

structure TakeoverBody where
  reason : String
  newOperatorId : String
  deriving DecidableEq, Repr

def takeoverLeaseSchema (fields : List (String × Json)) : Except (List String) TakeoverBody :=
  match stringKey "reason" (minOne "reason is required") fields,
    stringKey "newOperatorId" (minOne "newOperatorId is required") fields with
  | .ok reason, .ok newOperatorId => .ok ⟨reason, newOperatorId⟩
  | .ok _, .error issues => .error issues
  | .error issues, .ok _ => .error issues
  | .error issues₁, .error issues₂ => .error (issues₁ ++ issues₂)

def LeaseStatus.toLowerCase : LeaseStatus → String
  | .active => "active"
  | .locked => "locked"
  | .reconnectedLocked => "reconnected_locked"
  | .released => "released"
  | .revoked => "revoked"

def released (now : Time) : LeaseUpdate := { status := .released, releasedAt := some now }

def revoked (now : Time) : LeaseUpdate := { status := .revoked, revokedAt := some now }

theorem released_not_active (now : Time) : (released now).status ≠ .active := nofun

theorem revoked_not_active (now : Time) : (revoked now).status ≠ .active := nofun

def newLease (vehicleId operatorId : String) (session : Session) (now : Time) : LeaseData where
  vehicleId := vehicleId
  operatorId := operatorId
  sessionId := session.id
  connectionEpoch := session.connectionEpoch
  status := .active
  expiresAt := now + leaseTtlMs

theorem newLease_active (vehicleId operatorId : String) (session : Session) (now : Time) :
    (newLease vehicleId operatorId session now).status = .active := rfl

-- ---------------------------------------------------------------------------
-- Claim
-- ---------------------------------------------------------------------------

def claimTransaction (userId : String) (vehicle : Vehicle) (session : Session) (now : Time) :
    Tx ClaimResult := do
  Tx.query (.advisoryLock vehicle.id)
  match ← Tx.query (.leaseFindActive vehicle.id none) with
  | some existingLease =>
    if existingLease.expiresAt ≤ now then
      Tx.query (.leaseUpdate existingLease.id (released now))
    else if existingLease.operatorId != userId then
      return .denied existingLease.operatorId existingLease.sessionId
    else
      Tx.query (.leaseUpdate existingLease.id (released now))
  | none => pure ()
  return .created (← Tx.query (.leaseCreate (newLease vehicle.id userId session now)))

structure LeaseRequest where
  caller : Caller
  vehicleId : String
  body : Option Json

def claim (req : LeaseRequest) : Prog Call Call.Reply Response := Handler.serve do
  let ctx ← getAuthContext req.caller
  let body ← orThrow (validateBody req.body claimLeaseSchema)
  if !hasRole ctx.role .operator then throw (.app (Forbidden))
  let some vehicle ← Handler.query (.vehicleFindUnique req.vehicleId)
    | return fail "vehicle_not_found" 404
  let permission ← Handler.query (.permissionFindUnique ctx.userId vehicle.id)
  if !permission.any (hasRole ·.role .operator) then throw (.app (Forbidden))
  let some session ← Handler.query (.sessionFindUnique body.sessionId)
    | return fail "session_not_found" 404
  let now ← Handler.now
  match ← Handler.transaction (claimTransaction ctx.userId vehicle session now) with
  | .denied currentOperatorId currentSessionId =>
    audit
      { eventName := "control_lease_denied", userId := some ctx.userId,
        vehicleId := some vehicle.id, sessionId := some body.sessionId,
        payload := some [("reason", .text "lease_taken"),
          ("currentOperatorId", .text currentOperatorId),
          ("currentSessionId", .text currentSessionId)] }
    return fail "lease_taken" 409
      [("currentOperatorId", .text currentOperatorId), ("currentSessionId", .text currentSessionId)]
  | .created lease =>
    audit
      { eventName := "control_granted", userId := some ctx.userId,
        vehicleId := some vehicle.id, sessionId := some session.id,
        payload := some [("leaseId", .number lease.id),
          ("connectionEpoch", .text (toString session.connectionEpoch)),
          ("expiresAt", .instant lease.expiresAt)] }
    return ok
      [("vehicleId", .text req.vehicleId), ("operatorId", .text lease.operatorId),
        ("sessionId", .text body.sessionId),
        ("connectionEpoch", .text (toString lease.connectionEpoch)),
        ("status", .text lease.status.toLowerCase), ("expiresAt", .instant lease.expiresAt)] 201

-- ---------------------------------------------------------------------------
-- Takeover
-- ---------------------------------------------------------------------------

/-- Steps 4 and 5 of `takeover`: find the new operator and its session, then
create its lease. -/
def takeoverAssign (req : LeaseRequest) (ctx : AuthContext) (body : TakeoverBody) (vehicle : Vehicle)
    (now : Time) (oldOperatorId : Option String) : Handler Response := do
  let some _ ← Handler.query (.userFindUnique body.newOperatorId)
    | throw (.app (NotFound "user_not_found"))
  let some newOperatorSession ← Handler.query (.sessionFindActive vehicle.id body.newOperatorId)
    | throw (.app (NotFound "session_not_found"))
  let lease ← Handler.query (.leaseCreate (newLease vehicle.id body.newOperatorId newOperatorSession now))
  audit
    { eventName := "control_takeover", userId := some ctx.userId,
      vehicleId := some vehicle.id, sessionId := some newOperatorSession.id,
      payload := some [("oldOperatorId", oldOperatorId.elim .null .text),
        ("newOperatorId", .text body.newOperatorId), ("reason", .text body.reason),
        ("newLeaseId", .number lease.id)] }
  return ok
    [("vehicleId", .text req.vehicleId), ("operatorId", .text lease.operatorId),
      ("sessionId", .text newOperatorSession.sessionId),
      ("connectionEpoch", .text (toString lease.connectionEpoch)),
      ("status", .text lease.status.toLowerCase), ("expiresAt", .instant lease.expiresAt)]

/-- Steps 3 to 5: revoke the current lease, if there is one, and assign a new one. -/
def takeoverVehicle (req : LeaseRequest) (ctx : AuthContext) (body : TakeoverBody)
    (vehicle : Vehicle) : Handler Response := do
  let now ← Handler.now
  match ← Handler.query (.leaseFindActive vehicle.id none) with
  | some existingLease =>
    Handler.query (.leaseUpdate existingLease.id (revoked now))
    takeoverAssign req ctx body vehicle now (some existingLease.operatorId)
  | none => takeoverAssign req ctx body vehicle now none

def takeover (req : LeaseRequest) : Prog Call Call.Reply Response := Handler.serve do
  let ctx ← getAuthContext req.caller
  let body ← orThrow (validateBody req.body takeoverLeaseSchema)
  if ctx.role != .admin then throw (.app (Forbidden))
  let some vehicle ← Handler.query (.vehicleFindUnique req.vehicleId)
    | return fail "vehicle_not_found" 404
  takeoverVehicle req ctx body vehicle

-- ---------------------------------------------------------------------------
-- Release
-- ---------------------------------------------------------------------------

def release (req : LeaseRequest) : Prog Call Call.Reply Response := Handler.serve do
  let ctx ← getAuthContext req.caller
  let some vehicle ← Handler.query (.vehicleFindUnique req.vehicleId)
    | return fail "vehicle_not_found" 404
  let now ← Handler.now
  let some lease ← Handler.query (.leaseFindActive vehicle.id (some now))
    | throw (.app (NotFound "lease_not_found"))
  if lease.operatorId != ctx.userId then throw (.app (Forbidden))
  Handler.query (.leaseUpdate lease.id (released now))
  audit
    { eventName := "control_released", userId := some ctx.userId,
      vehicleId := some vehicle.id, sessionId := some lease.sessionId,
      payload := some [("leaseId", .number lease.id)] }
  return ok [("ok", .flag true)]

-- ---------------------------------------------------------------------------
-- The current lease
-- ---------------------------------------------------------------------------

def formatLease (lease : ControlLease) : Fields :=
  [("vehicleId", .text lease.vehicleId), ("operatorId", .text lease.operatorId),
    ("sessionId", .text lease.sessionId),
    ("connectionEpoch", .text (toString lease.connectionEpoch)),
    ("status", .text lease.status.toLowerCase), ("expiresAt", .instant lease.expiresAt)]

def controlLease (caller : Caller) (vehicleId : String) : Prog Call Call.Reply Response :=
  Handler.serve do
    let _ ← getAuthContext caller
    let some vehicle ← Handler.query (.vehicleFindUnique vehicleId)
      | return fail "vehicle_not_found" 404
    let now ← Handler.now
    let some lease ← Handler.query (.leaseFindActive vehicle.id (some now))
      | return fail "lease_not_found" 404
    return ok (formatLease lease)

-- ---------------------------------------------------------------------------
-- The calls of a claim
-- ---------------------------------------------------------------------------

/-- Outside its transaction, a claim only writes to the audit log. -/
theorem claim_allCalls {P : Call → Prop} (hquiet : ∀ c : Call, c.isQuiet = true → P c)
    (htransaction : ∀ userId vehicle session now,
      P (.transaction (claimTransaction userId vehicle session now)))
    (req : LeaseRequest) : (claim req).AllCalls P := by
  unfold claim
  refine allCalls_caller fun ctx _ => allCalls_orThrow fun body => ?_
  simp only
  split
  · trivial
  · refine allCalls_query (hquiet _ rfl) fun vehicle? => ?_
    cases vehicle? with
    | none => trivial
    | some vehicle =>
      refine allCalls_query (hquiet _ rfl) fun permission => ?_
      split
      · trivial
      · refine allCalls_query (hquiet _ rfl) fun session? => ?_
        cases session? with
        | none => trivial
        | some session =>
          refine allCalls_now (hquiet _ rfl) fun now => ?_
          refine allCalls_transaction (htransaction _ _ _ _) fun result => ?_
          cases result with
          | denied | created => exact allCalls_audit (hquiet _ rfl) trivial

end Rvep.Backend
