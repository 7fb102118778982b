import Rvep.Backend.HeldLease
import Rvep.Backend.LeaseOrigin
import Rvep.Backend.LivekitToken
import Rvep.Backend.VehicleStatus

/-!
# Who is in control

Five handlers work out who holds a vehicle, each with a query of its own. They
agree because no request leaves two ACTIVE leases behind.
-/

namespace Rvep.Backend

open Interleaving Reactive

/-- The user is the operator of a lease of the vehicle that is ACTIVE and has not expired. -/
def Db.HeldBy (db : Db) (vehicleId : String) (now : Time) (userId : String) : Prop :=
  ∃ row ∈ db.leases, row.vehicleId = vehicleId ∧ row.status = .active ∧ now < row.expiresAt ∧
    row.operatorId = userId

-- ---------------------------------------------------------------------------
-- One lease, however it is looked up
-- ---------------------------------------------------------------------------

section
variable {db : Db} {v : String} {now : Time}

/-- The current lease is the only ACTIVE one. -/
theorem held_of_activeLease? (he : db.Exclusive) {l : ControlLease} {expiresAfter : Option Time}
    (hl : db.activeLease? v expiresAfter = some l) : db.Held l.id l.toLeaseRow := by
  obtain ⟨hrow, hv, hs, -⟩ := activeLease?_row hl
  exact ⟨hrow, hs, fun j hj => he _ j l.id hj ⟨_, hrow, rfl, hs⟩⟩

theorem anyLease?_row {l : ControlLease} (h : db.anyLease? v now = some l) :
    db.leases[l.id]? = some l.toLeaseRow ∧ l.vehicleId = v ∧ l.status = .active ∧
      now < l.expiresAt := by
  have hrow := mem_readLeases.mp (List.mem_of_find?_eq_some h)
  have hkey := List.find?_some h
  simp only [Bool.and_eq_true, beq_iff_eq, decide_eq_true_eq] at hkey
  exact ⟨hrow, hkey.1.1, hkey.1.2, hkey.2⟩

theorem anyLease?_eq (he : db.Exclusive) : db.anyLease? v now = db.activeLease? v (some now) := by
  cases hl : db.activeLease? v (some now) with
  | none =>
    cases ha : db.anyLease? v now with
    | none => rfl
    | some l =>
      obtain ⟨hrow, hv, hs, hlt⟩ := anyLease?_row ha
      exact absurd hl (activeLease?_ne_none hrow hv hs fun t ht => Option.some.inj ht ▸ hlt)
  | some l =>
    obtain ⟨hrow, hv, hs, hlt⟩ := activeLease?_row hl
    have hheld := held_of_activeLease? he hl
    cases ha : db.anyLease? v now with
    | none =>
      have hnot := List.find?_eq_none.mp ha l (mem_readLeases.mpr hrow)
      have hle : l.expiresAt ≤ now := by simpa [hv, hs] using hnot
      exact absurd (hlt now rfl) (not_lt.mpr hle)
    | some l' =>
      obtain ⟨row', id'⟩ := l'
      obtain ⟨row, id⟩ := l
      obtain ⟨hrow', hv', hs', -⟩ := anyLease?_row ha
      obtain rfl : id' = id := hheld.only id' ⟨row', hrow', hv'.trans hv.symm, hs'⟩
      obtain rfl : row = row' := Option.some.inj (hrow.symm.trans hrow')
      rfl

/-- A claim is denied by the current lease, unless it is the caller's. -/
theorem deniedBy_iff (he : db.Exclusive) {userId : String} {lease : ControlLease} :
    db.DeniedBy v userId now lease ↔
      db.activeLease? v (some now) = some lease ∧ lease.operatorId ≠ userId := by
  constructor
  · rintro ⟨hl, hlt, hne⟩
    obtain ⟨-, hv, -, -⟩ := activeLease?_row hl
    refine ⟨?_, hne⟩
    rw [← hv]
    exact (held_of_activeLease? he hl).activeLease? fun t ht => Option.some.inj ht ▸ hlt
  · rintro ⟨hl, hne⟩
    obtain ⟨-, hv, -, hlt⟩ := activeLease?_row hl
    refine ⟨?_, hlt now rfl, hne⟩
    rw [← hv]
    exact (held_of_activeLease? he hl).activeLease? fun t ht => absurd ht (Option.not_mem_none t)

def Db.holder? (db : Db) (vehicleId : String) (now : Time) : Option String :=
  (db.activeLease? vehicleId (some now)).map (·.operatorId)

theorem heldBy_iff (he : db.Exclusive) (userId : String) :
    db.HeldBy v now userId ↔ db.holder? v now = some userId := by
  unfold Db.holder?
  constructor
  · rintro ⟨row, hmem, hv, hs, hlt, rfl⟩
    obtain ⟨i, hrow⟩ := List.mem_iff_getElem?.mp hmem
    have hheld : db.Held i row := ⟨hrow, hs, fun j hj => he _ j i hj ⟨row, hrow, rfl, hs⟩⟩
    rw [← hv, hheld.activeLease? fun t ht => Option.some.inj ht ▸ hlt]
    rfl
  · intro h
    obtain ⟨l, hl, rfl⟩ := Option.map_eq_some_iff.mp h
    obtain ⟨hrow, hv, hs, hlt⟩ := activeLease?_row hl
    exact ⟨l.toLeaseRow, List.mem_of_getElem? hrow, hv, hs, hlt now rfl, rfl⟩

end

-- ---------------------------------------------------------------------------
-- The five handlers
-- ---------------------------------------------------------------------------

/-- The answer to a request that runs alone, at one instant, with the database up. -/
def answerAt (now : Time) (db : Db) (prog : Prog Call Call.Reply Response) : Response :=
  (prog.run Call.exec (fun _ => ⟨now, false⟩) db).2

section
variable {db : Db} {vehicleId : String} {vehicle : Vehicle} {now : Time}
  (hvehicle : db.vehicle? vehicleId = some vehicle)
include hvehicle

theorem answer_controlLease (ctx : AuthContext) :
    answerAt now db (controlLease (some ctx) vehicleId) =
      match db.activeLease? vehicle.id (some now) with
      | none => fail "lease_not_found" 404
      | some lease => ok (formatLease lease) := by
  change (Handler.alone _ _ db).2 = _
  rw [getAuthContext, alone_pure_bind, alone_query_ok _ rfl rfl, hvehicle]
  simp only
  rw [alone_now_bind, alone_query_ok _ rfl rfl]
  cases db.activeLease? vehicle.id (some now) with
  | none => rfl
  | some lease => rfl

theorem answer_vehicleStatus (now : Time) (ctx : AuthContext) :
    ∃ lastSeenMs, answerAt now db (vehicleStatus (some ctx) vehicleId) =
      ok (statusCard vehicle ((db.activeLease? vehicle.id (some now)).map fun l =>
        (l, db.user? l.operatorId)) (db.latestTelemetry? vehicleId) lastSeenMs) := by
  change ∃ lastSeenMs, (Handler.alone _ _ db).2 = _
  rw [getAuthContext, alone_pure_bind, alone_query_ok _ rfl rfl, hvehicle]
  simp only
  rw [alone_now_bind, alone_query_ok _ rfl rfl, alone_query_ok _ rfl rfl]
  cases db.latestTelemetry? vehicleId with
  | none => exact ⟨none, rfl⟩
  | some frame => exact ⟨some (now - frame.ts), rfl⟩

theorem answer_release {req : LeaseRequest} {ctx : AuthContext} (hctx : req.caller = some ctx)
    (hreq : req.vehicleId = vehicleId) :
    answerAt now db (release req) =
      match db.activeLease? vehicle.id (some now) with
      | none => fail "lease_not_found" 404
      | some lease =>
        if lease.operatorId = ctx.userId then ok [("ok", .flag true)] else fail "forbidden" 403 := by
  change (Handler.alone _ _ db).2 = _
  rw [hctx, getAuthContext, alone_pure_bind, alone_query_ok _ rfl rfl, hreq, hvehicle]
  simp only
  rw [alone_now_bind, alone_query_ok _ rfl rfl]
  cases hl : db.activeLease? vehicle.id (some now) with
  | none => rfl
  | some lease =>
    have hlt : lease.id < db.leases.length := (activeLease?_some hl).lt
    simp only [bne_iff_ne, ne_eq, ite_not]
    split
    · have hupdate : (Query.leaseUpdate lease.id (released now)).answer now db =
          ({ db with leases := db.leases.modify lease.id (·.update (released now)) }, .ok ()) := if_pos hlt
      rw [alone_query_ok _ rfl hupdate, alone_audit_bind]
      rfl
    · rfl

/-- The refusal, if there is one, names the operator of the lease that was found. -/
theorem answer_livekitToken {lk : Livekit} {req : TokenRequest} {ctx : AuthContext}
    {body : LivekitTokenBody} {permission : VehiclePermission} (hctx : req.caller = some ctx)
    (hbody : validateBody req.body livekitTokenSchema = .ok body) (hreq : body.vehicleId = vehicleId)
    (hrole : body.role = .operator)
    (hpermission : db.permission? ctx.userId vehicle.id = some permission)
    (hoperator : permission.role = .operator ∨ permission.role = .admin) :
    answerAt now db (livekitToken lk req) =
        match db.anyLease? vehicle.id now with
        | some lease =>
          if lease.operatorId = ctx.userId then
            answerAt now db (Handler.serve
              (issueAndRespond lk ctx.userId body.vehicleId vehicle.id body.role))
          else fail "control_lease_taken" 409 [("currentOperatorId", .text lease.operatorId)]
        | none =>
          answerAt now db (Handler.serve
            (issueAndRespond lk ctx.userId body.vehicleId vehicle.id body.role)) := by
  subst hreq
  change (Handler.alone _ _ db).2 = _
  rw [hctx, getAuthContext, alone_pure_bind, hbody, orThrow, alone_pure_bind,
    alone_query_ok _ rfl rfl, hvehicle]
  have hplain : (body.role == LivekitRole.admin) = false := by rw [hrole]; rfl
  have hallowed : (permission.role != .operator && permission.role != .admin) = false := by
    rcases hoperator with h | h <;> simp [h]
  have hasked : (body.role == LivekitRole.operator) = true := by rw [hrole]; rfl
  simp only [hplain, Bool.false_eq_true, if_false, permittedToken]
  rw [alone_query_ok _ rfl rfl, hpermission]
  simp only [hasked, Bool.true_and, hallowed, Bool.false_eq_true, if_false, if_true, operatorToken]
  rw [alone_now_bind, alone_query_ok _ rfl rfl]
  cases db.anyLease? vehicle.id now with
  | none => rfl
  | some lease =>
    simp only [bne_iff_ne, ne_eq, ite_not]
    split
    · rfl
    · rfl

end

/-- Issuing a token succeeds, or the configuration is incomplete. -/
theorem answer_issueAndRespond (lk : Livekit) (userId vehicleId internalId : String)
    (role : LivekitRole) (now : Time) (db : Db) :
    (answerAt now db (Handler.serve (issueAndRespond lk userId vehicleId internalId role))).status ≠ 409 := by
  change (Handler.alone _ _ db).2.status ≠ 409
  unfold issueAndRespond issueLivekitToken
  cases getLivekitConfig lk with
  | error err => exact nofun
  | ok config =>
    rw [bind_assoc, alone_now_bind, bind_assoc, alone_now_bind]
    rw [alone_pure_bind, alone_audit_bind, alone_pure]
    exact nofun

theorem answer_claim {req : LeaseRequest} {ctx : AuthContext} {body : ClaimBody} {vehicle : Vehicle}
    {session : Session} {db : Db} (now : Time) (hmay : MayClaim req db ctx body vehicle session) :
    (∃ lease, db.DeniedBy vehicle.id ctx.userId now lease ∧
      answerAt now db (claim req) = fail "lease_taken" 409
        [("currentOperatorId", .text lease.operatorId), ("currentSessionId", .text lease.sessionId)]) ∨
      (∀ lease, ¬ db.DeniedBy vehicle.id ctx.userId now lease) ∧
        (answerAt now db (claim req)).status ≠ 409 := by
  have hout : answerAt now db (claim req) = (Handler.alone _ (fun _ => ⟨now, false⟩) db).2 := rfl
  rw [hmay.authenticated, getAuthContext, alone_pure_bind, hmay.valid, orThrow, alone_pure_bind] at hout
  simp only [hmay.role, Bool.not_true, Bool.false_eq_true, if_false] at hout
  rw [alone_query_ok _ rfl rfl, hmay.found] at hout
  simp only at hout
  rw [alone_query_ok _ rfl rfl] at hout
  simp only [hmay.permitted, Bool.not_true, Bool.false_eq_true, if_false] at hout
  rw [alone_query_ok _ rfl rfl, hmay.resolved] at hout
  simp only at hout
  rw [alone_now_bind] at hout
  rcases commit_claimTransaction ctx.userId vehicle session now now db with
    ⟨lease, hdenied, hcommit⟩ | ⟨hnone, ⟨-, hcommit⟩ | ⟨-, hcommit⟩⟩
  · rw [alone_transaction _ rfl hcommit] at hout
    exact .inl ⟨lease, hdenied, hout⟩
  · rw [alone_transaction _ rfl hcommit] at hout
    exact .inr ⟨hnone, by rw [hout]; exact nofun⟩
  · rw [alone_transaction _ rfl hcommit] at hout
    exact .inr ⟨hnone, by rw [hout]; exact nofun⟩

-- ---------------------------------------------------------------------------
-- Agreement
-- ---------------------------------------------------------------------------

/-- At `now`, every handler takes `holder` for who controls the vehicle. -/
structure ResolvesTo (lk : Livekit) (db : Db) (vehicleId : String) (vehicle : Vehicle) (now : Time)
    (holder : Option String) : Prop where
  held : ∀ userId, db.HeldBy vehicle.id now userId ↔ holder = some userId
  lease : ∀ ctx, let out := answerAt now db (controlLease (some ctx) vehicleId)
    (out.status = 404 ↔ holder = none) ∧ out.field? "operatorId" = holder.map .text
  status : ∀ ctx, let out := answerAt now db (vehicleStatus (some ctx) vehicleId)
    out.status = 200 ∧ out.field? "lease.operatorId" = holder.map .text
  release : ∀ req ctx, req.caller = some ctx → req.vehicleId = vehicleId →
    let out := answerAt now db (release req)
    (out.isError = false ↔ holder = some ctx.userId) ∧ (out.status = 404 ↔ holder = none)
  token : ∀ req ctx body permission, req.caller = some ctx →
    validateBody req.body livekitTokenSchema = .ok body → body.vehicleId = vehicleId →
    body.role = .operator → db.permission? ctx.userId vehicle.id = some permission →
    (permission.role = .operator ∨ permission.role = .admin) →
      let out := answerAt now db (livekitToken lk req)
      (out.status = 409 ↔ ∃ userId, holder = some userId ∧ userId ≠ ctx.userId) ∧
        (out.status = 409 → out.field? "currentOperatorId" = holder.map .text)
  claim : ∀ req ctx body session, req.vehicleId = vehicleId →
    MayClaim req db ctx body vehicle session →
      let out := answerAt now db (claim req)
      (out.status = 409 ↔ ∃ userId, holder = some userId ∧ userId ≠ ctx.userId) ∧
        (out.status = 409 → out.field? "currentOperatorId" = holder.map .text)

theorem field?_statusCard (vehicle : Vehicle) (lease : Option (ControlLease × Option User))
    (latestTelemetry : Option TelemetryFrame) (lastSeenMs : Option Int) :
    (ok (statusCard vehicle lease latestTelemetry lastSeenMs)).field? "lease.operatorId" =
      lease.map fun l => .text l.1.operatorId := by
  cases lease with
  | some l => rfl
  | none =>
    cases latestTelemetry with
    | none => rfl
    | some frame =>
      simp only [statusCard, Option.map_some, telemetryCard, gpsCard]
      cases numberIn frame.gps "lat" <;> cases numberIn frame.gps "lng" <;> rfl

section
variable {db : Db} {vehicleId : String} {vehicle : Vehicle} {now : Time}

theorem resolves (lk : Livekit) (he : db.Exclusive) (hvehicle : db.vehicle? vehicleId = some vehicle) :
    ResolvesTo lk db vehicleId vehicle now (db.holder? vehicle.id now) where
  held := heldBy_iff he
  lease ctx := by
    simp only [answer_controlLease hvehicle, Db.holder?]
    cases db.activeLease? vehicle.id (some now) with
    | none => exact ⟨by simp, rfl⟩
    | some lease => exact ⟨by simp, rfl⟩
  status ctx := by
    obtain ⟨lastSeenMs, hout⟩ := answer_vehicleStatus hvehicle now ctx
    simp only [hout, field?_statusCard, Db.holder?, Option.map_map]
    exact ⟨rfl, rfl⟩
  release req ctx hctx hreq := by
    simp only [answer_release hvehicle hctx hreq, Db.holder?]
    cases db.activeLease? vehicle.id (some now) with
    | none => simp
    | some lease =>
      simp only [Option.map_some, Option.some.injEq, reduceCtorEq, iff_false]
      split
      next h => simp [h]
      next h => simp [h]
  token req ctx body permission hctx hbody hreq hrole hpermission hoperator := by
    have hissued := answer_issueAndRespond lk ctx.userId body.vehicleId vehicle.id body.role now db
    simp only [answer_livekitToken hvehicle hctx hbody hreq hrole hpermission hoperator,
      anyLease?_eq he, Db.holder?]
    cases db.activeLease? vehicle.id (some now) with
    | none => simp [hissued]
    | some lease =>
      simp only
      split
      next h => simp [h, hissued]
      next h => simp [h, Response.field?, fail]
  claim req ctx body session hreq hmay := by
    rcases answer_claim now hmay with ⟨lease, hdenied, hout⟩ | ⟨hnone, hout⟩
    · obtain ⟨hl, hne⟩ := (deniedBy_iff he).mp hdenied
      simp [hout, Db.holder?, hl, hne, Response.field?, fail]
    · refine ⟨iff_of_false hout ?_, fun h => absurd h hout⟩
      rintro ⟨userId, hholder, hne⟩
      obtain ⟨lease, hl, rfl⟩ := Option.map_eq_some_iff.mp hholder
      exact hnone lease ((deniedBy_iff he).mpr ⟨hl, hne⟩)

end

theorem exclusive_request (route : LeaseRoute) (choices : Nat → Choice) {db : Db} (he : db.Exclusive) :
    (route.handler.run Call.exec choices db).1.Exclusive := by
  cases route with
  | claim req =>
    obtain ⟨-, hkeep | ⟨ctx, body, vehicle, session, now, t, -, hnew⟩⟩ :=
      (claim_finishes req db).run choices
    · exact (Db.Exclusive.congr hkeep).mpr he
    · exact exclusive_of_retired he (released_not_active now) (newLease_active ..) hnew
  | takeover req =>
    obtain ⟨-, hkeep | ⟨ctx, body, vehicle, session, now, t, -, hnew⟩⟩ :=
      (takeover_finishes req db).run choices
    · exact hkeep.exclusive he
    · exact exclusive_of_retired he (revoked_not_active now) (newLease_active ..) hnew
  | release req =>
    obtain ⟨-, hkeep⟩ := (release_finishes req db).run choices
    exact hkeep.exclusive he

theorem exclusive_sequence (start : Db) (h : start.leases = [])
    (es : List (LeaseRoute × (Nat → Choice))) :
    ((leaseSequence start).state ((leaseSequence start).log es)).Exclusive := by
  induction es with
  | nil =>
    rintro v i j ⟨row, hrow, -⟩
    have hrow : start.leases[i]? = some row := hrow
    rw [h] at hrow
    exact absurd hrow nofun
  | cons request es ih => exact exclusive_request request.1 request.2 ih

/-- After any requests that do not overlap, from an empty lease table, all five
handlers resolve the same holder of a vehicle at any instant. -/
theorem same_holder_everywhere (lk : Livekit) (start : Db) (h : start.leases = [])
    (es : List (LeaseRoute × (Nat → Choice))) (now : Time) (vehicleId : String) (vehicle : Vehicle) :
    let db := (leaseSequence start).state ((leaseSequence start).log es)
    db.vehicle? vehicleId = some vehicle →
      ∃ holder, ResolvesTo lk db vehicleId vehicle now holder := by
  intro db hvehicle
  exact ⟨_, resolves lk (exclusive_sequence start h es) hvehicle⟩

private def depot : Db where
  users := [⟨"alice", "alice@rvep.dev", "", .operator, 0, none, 0⟩]
  vehicles := [⟨"v1", "vehicle-001", "UGV 1", .wheeled, .online⟩]
  permissions := [⟨"alice", "v1", .operator, 1, none, 0⟩]
  sessions := [⟨"s1", "web-alice", "v1", "alice", 1, .active, 0, .control⟩]
  leases := []
  events := []

private def aliceAsks : LeaseRoute × (Nat → Choice) :=
  (.claim ⟨some ⟨"alice", .operator⟩, "vehicle-001", some (.obj [("sessionId", .str "web-alice")])⟩,
    fun _ => ⟨1000, false⟩)

private def devServer : Livekit where
  apiKey := some "devkey"
  apiSecret := some "secret"
  url := some "ws://localhost:7880"
  toJwt _ identity _ grant _ := identity ++ "@" ++ grant.room

theorem same_holder_everywhere_alice :
    depot.leases = [] ∧
      let db := (leaseSequence depot).state ((leaseSequence depot).log [aliceAsks])
      ∃ vehicle, db.vehicle? "vehicle-001" = some vehicle ∧
        ∃ holder, ResolvesTo devServer db "vehicle-001" vehicle 2000 holder :=
  ⟨rfl, _, rfl, same_holder_everywhere devServer depot rfl [aliceAsks] 2000 "vehicle-001" _ rfl⟩

/-- The holder is Alice until her lease expires. -/
example : ((leaseSequence depot).state ((leaseSequence depot).log [aliceAsks])).holder? "v1" 1800999 =
      some "alice" ∧
    ((leaseSequence depot).state ((leaseSequence depot).log [aliceAsks])).holder? "v1" 1801000 =
      none := by decide

end Rvep.Backend
