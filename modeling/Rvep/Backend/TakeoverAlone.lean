import Rvep.Backend.LeaseExclusion

/-!
# A takeover without interference

A takeover revokes the current lease before it looks for the new operator and
its session, outside any transaction, so what fails after the revocation
leaves the vehicle without an operator.
-/

namespace Rvep.Backend

open Interleaving

section
variable {req : LeaseRequest} {ctx : AuthContext} {body : TakeoverBody} {vehicle : Vehicle}
  {now : Time} {old : Option String} {choices : Nat → Choice} {db : Db}

/-- The second half of a takeover, started at its first call, goes through. -/
def canAssign (choices : Nat → Choice) (db : Db) (vehicle : Vehicle) (newOperatorId : String)
    (now : Time) : Bool :=
  !(choices 0).fails && (db.user? newOperatorId).isSome && !(choices 1).fails &&
    (db.activeSession? vehicle.id newOperatorId).any fun session =>
      !(choices 2).fails && db.references (newLease vehicle.id newOperatorId session now)

variable (req ctx body vehicle now old choices db) in
theorem takeoverAssign_alone :
    let out := (takeoverAssign req ctx body vehicle now old).alone choices db
    out.2.isError = !canAssign choices db vehicle body.newOperatorId now ∧
      (out.2.isError = true → out.1.leases = db.leases) := by
  intro out
  have hout : out = (takeoverAssign req ctx body vehicle now old).alone choices db := rfl
  clear_value out
  unfold takeoverAssign at hout
  unfold canAssign
  cases h₀ : (choices 0).fails with
  | true =>
    rw [alone_query_fails _ h₀] at hout
    simp [hout, respond]
  | false =>
    rw [alone_query_ok _ h₀ rfl] at hout
    cases huser : db.user? body.newOperatorId with
    | none => simp [huser, hout, alone_throw, respond]
    | some user =>
      simp only [huser] at hout
      cases h₁ : (choices 1).fails with
      | true =>
        rw [alone_query_fails _ h₁] at hout
        simp [hout, respond]
      | false =>
        rw [alone_query_ok _ h₁ rfl] at hout
        cases hsession : db.activeSession? vehicle.id body.newOperatorId with
        | none => simp [hsession, hout, alone_throw, respond]
        | some session =>
          simp only [hsession] at hout
          cases h₂ : (choices 2).fails with
          | true =>
            rw [alone_query_fails _ h₂] at hout
            simp [hout, respond]
          | false =>
            obtain ⟨hrefs, db', lease, -, hok⟩ | ⟨hrefs, herr⟩ := answer_leaseCreate db (choices 2).now
              (newLease_active vehicle.id body.newOperatorId session now)
            · rw [alone_query_ok _ h₂ hok, alone_audit_bind, alone_pure] at hout
              simp [hrefs, hout]
            · rw [alone_query_error _ h₂ herr] at hout
              simp [hrefs, hout, respond]

end

/-- The takeover revokes a lease, and its second half cannot go through. -/
structure RevokesInVain (req : LeaseRequest) (choices : Nat → Choice) (db : Db) (ctx : AuthContext)
    (body : TakeoverBody) (vehicle : Vehicle) (lease : ControlLease) : Prop where
  authenticated : req.caller = some ctx
  valid : validateBody req.body takeoverLeaseSchema = .ok body
  admin : ctx.role = .admin
  found : (choices 0).fails = false ∧ db.vehicle? req.vehicleId = some vehicle
  leased : (choices 2).fails = false ∧ db.activeLease? vehicle.id none = some lease
  revoked : (choices 3).fails = false
  stuck : canAssign (fun n => choices (n + 4)) db vehicle body.newOperatorId (choices 1).now = false

section
variable {req : LeaseRequest} {choices : Nat → Choice} {db : Db}

theorem takeoverVehicle_alone (ctx : AuthContext) (body : TakeoverBody) (vehicle : Vehicle) :
    let out := (takeoverVehicle req ctx body vehicle).alone choices db
    (out.2.isError = true → out.1.leases = db.leases) ↔
      ¬ ∃ lease, ((choices 1).fails = false ∧ db.activeLease? vehicle.id none = some lease) ∧
        (choices 2).fails = false ∧
          canAssign (fun n => choices (n + 3)) db vehicle body.newOperatorId (choices 0).now =
            false := by
  intro out
  have hout : out = (takeoverVehicle req ctx body vehicle).alone choices db := rfl
  clear_value out
  unfold takeoverVehicle at hout
  rw [alone_now_bind] at hout
  cases h₁ : (choices 1).fails with
  | true =>
    rw [alone_query_fails _ h₁] at hout
    simp [hout]
  | false =>
    rw [alone_query_ok _ h₁ rfl] at hout
    cases hl : db.activeLease? vehicle.id none with
    | none =>
      simp only [hl] at hout
      obtain ⟨-, hkeep⟩ := takeoverAssign_alone req ctx body vehicle (choices 0).now none
        (fun n => choices (n + 2)) db
      rw [hout]
      exact iff_of_true hkeep (by simp)
    | some lease =>
      simp only [hl] at hout
      cases h₂ : (choices 2).fails with
      | true =>
        rw [alone_query_fails _ h₂] at hout
        simp [hout]
      | false =>
        have hactive := activeLease?_some hl
        have hd : (revoked (choices 0).now).status ≠ .active := nofun
        obtain ⟨-, leases, hdown, hok⟩ | ⟨hge, -⟩ :=
          answer_leaseUpdate db lease.id (choices 2).now hd
        · rw [alone_query_ok _ h₂ hok] at hout
          obtain ⟨herr, hkeep⟩ := takeoverAssign_alone req ctx body vehicle (choices 0).now
            (some lease.operatorId) (fun n => choices (n + 3)) { db with leases := leases }
          have hstuck : out.2.isError = !canAssign (fun n => choices (n + 3)) db vehicle
              body.newOperatorId (choices 0).now := hout ▸ herr
          -- the revoked row has changed, so an error has lost it
          have hlost : out.2.isError = true → out.1.leases ≠ db.leases := by
            intro hbad hsame
            rw [hout] at hbad hsame
            have hgone := (Db.ActiveAt.congr ((hkeep hbad).symm.trans hsame)).mpr hactive
            exact ((hdown.2 vehicle.id lease.id).mp hgone).2 rfl
          cases hcan : canAssign (fun n => choices (n + 3)) db vehicle body.newOperatorId
            (choices 0).now with
          | true => simp [hstuck, hcan]
          | false =>
            have hbad : out.2.isError = true := by rw [hstuck, hcan]; rfl
            exact iff_of_false (fun h => hlost hbad (h hbad)) (by simp)
        · exact absurd hactive.lt (not_lt.mpr hge)

/-- An exit before anything is written keeps the leases, and no revocation
in vain leads to it. -/
theorem keeps_of_unwritten {out : Db × Response} (hsame : out.1 = db)
    (hno : ∀ ctx body vehicle lease, ¬ RevokesInVain req choices db ctx body vehicle lease) :
    (out.2.isError = true → out.1.leases = db.leases) ↔
      ¬ ∃ ctx body vehicle lease, RevokesInVain req choices db ctx body vehicle lease := by
  refine iff_of_true (fun _ => by rw [hsame]) ?_
  rintro ⟨ctx, body, vehicle, lease, h⟩
  exact hno ctx body vehicle lease h

/-- Without interference, a takeover that answers with an error leaves the
leases as they were, unless it has revoked one in vain. -/
theorem takeover_error_keeps_leases_iff (req : LeaseRequest) (choices : Nat → Choice) (db : Db) :
    let out := (takeover req).run Call.exec choices db
    (out.2.isError = true → out.1.leases = db.leases) ↔
      ¬ ∃ ctx body vehicle lease, RevokesInVain req choices db ctx body vehicle lease := by
  intro out
  have hout : out = Handler.alone _ choices db := rfl
  clear_value out
  cases hctx : req.caller with
  | none =>
    rw [hctx, getAuthContext, alone_throw_bind] at hout
    refine keeps_of_unwritten (by rw [hout]) fun _ _ _ _ h => ?_
    exact absurd (hctx.symm.trans h.authenticated) nofun
  | some ctx =>
    rw [hctx, getAuthContext, alone_pure_bind] at hout
    cases hbody : validateBody req.body takeoverLeaseSchema with
    | error err =>
      rw [hbody, orThrow, alone_throw_bind] at hout
      refine keeps_of_unwritten (by rw [hout]) fun _ _ _ _ h => ?_
      exact absurd (hbody.symm.trans h.valid) nofun
    | ok body =>
      rw [hbody, orThrow, alone_pure_bind] at hout
      by_cases hadmin : ctx.role = .admin
      case neg =>
        simp only [bne_iff_ne, ne_eq, hadmin, not_false_eq_true, if_true, alone_throw_bind] at hout
        refine keeps_of_unwritten (by rw [hout]) fun _ _ _ _ h => ?_
        obtain rfl := Option.some.inj (hctx.symm.trans h.authenticated)
        exact hadmin h.admin
      simp only [hadmin, bne_self_eq_false, Bool.false_eq_true, if_false] at hout
      cases h₀ : (choices 0).fails with
      | true =>
        rw [alone_query_fails _ h₀] at hout
        refine keeps_of_unwritten (by rw [hout]) fun _ _ _ _ h => ?_
        exact absurd (h₀.symm.trans h.found.1) nofun
      | false =>
        rw [alone_query_ok _ h₀ rfl] at hout
        cases hvehicle : db.vehicle? req.vehicleId with
        | none =>
          rw [hvehicle, alone_pure] at hout
          refine keeps_of_unwritten (by rw [hout]) fun _ _ _ _ h => ?_
          exact absurd (hvehicle.symm.trans h.found.2) nofun
        | some vehicle =>
          rw [hvehicle] at hout
          rw [hout]
          refine (takeoverVehicle_alone ctx body vehicle).trans (not_congr ⟨?_, ?_⟩)
          · rintro ⟨lease, hleased, hrevoked, hstuck⟩
            exact ⟨ctx, body, vehicle, lease, hctx, hbody, hadmin, ⟨h₀, hvehicle⟩, hleased, hrevoked,
              hstuck⟩
          · rintro ⟨ctx', body', vehicle', lease, h⟩
            obtain rfl : body = body' := Except.ok.inj (hbody.symm.trans h.valid)
            obtain rfl : vehicle = vehicle' := Option.some.inj (hvehicle.symm.trans h.found.2)
            exact ⟨lease, h.leased, h.revoked, h.stuck⟩

end

private def aliceDrives : Db where
  users := [⟨"alice", "alice@rvep.dev", "", .operator, 0, none, 0⟩]
  vehicles := [⟨"v1", "vehicle-001", "UGV 1", .wheeled, .online⟩]
  permissions := [⟨"alice", "v1", .operator, 1, none, 0⟩]
  sessions := [⟨"s1", "web-alice", "v1", "alice", 1, .active, 0, .control⟩]
  leases := [⟨⟨"v1", "alice", "s1", 1, .active, 1800000⟩, 0, none, none⟩]
  events := []

/-- An admin hands the vehicle to a user id that does not exist. -/
def handOver : LeaseRequest :=
  ⟨some ⟨"root", .admin⟩, "vehicle-001",
    some (.obj [("reason", .str "shift change"), ("newOperatorId", .str "alcie")])⟩

theorem hand_over_loses_lease :
    let out := (takeover handOver).run Call.exec (fun _ => ⟨1000, false⟩) aliceDrives
    out.2 = fail "user_not_found" 404 ∧ out.1.leases ≠ aliceDrives.leases :=
  ⟨rfl, nofun⟩

end Rvep.Backend
