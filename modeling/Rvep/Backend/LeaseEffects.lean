import Rvep.Backend.LeaseExclusion

/-!
# What a lease request writes

The effect of a claim's transaction, and of a claim or a takeover that runs
without interference, as one statement each: the rows it retires, the row it
inserts, and what it had checked by then.
-/

namespace Rvep.Backend

open Interleaving

def LeaseData.row (data : LeaseData) (createdAt : Time) : LeaseRow :=
  { data with createdAt := createdAt, releasedAt := none, revokedAt := none }

/-- The lease table once the vehicle's current lease, if there is one, is updated. -/
def Db.retired (db : Db) (vehicleId : String) (data : LeaseUpdate) : List LeaseRow :=
  match db.activeLease? vehicleId none with
  | none => db.leases
  | some lease => db.leases.modify lease.id (·.update data)

/-- The vehicle's current lease holds `userId` off at `now`. -/
def Db.DeniedBy (db : Db) (vehicleId userId : String) (now : Time) (lease : ControlLease) : Prop :=
  db.activeLease? vehicleId none = some lease ∧ now < lease.expiresAt ∧ lease.operatorId ≠ userId

section
variable {db : Db} {vehicleId : String} {data : LeaseUpdate}

@[simp] theorem length_retired : (db.retired vehicleId data).length = db.leases.length := by
  unfold Db.retired
  split
  · rfl
  · exact List.length_modify ..

theorem retired_none (h : db.activeLease? vehicleId none = none) :
    db.retired vehicleId data = db.leases := by
  unfold Db.retired
  rw [h]

theorem retired_some {lease : ControlLease} (h : db.activeLease? vehicleId none = some lease) :
    db.retired vehicleId data = db.leases.modify lease.id (·.update data) := by
  unfold Db.retired
  rw [h]

theorem activeLease?_row {lease : ControlLease} {expiresAfter : Option Time}
    (h : db.activeLease? vehicleId expiresAfter = some lease) :
    db.leases[lease.id]? = some lease.toLeaseRow ∧ lease.vehicleId = vehicleId ∧
      lease.status = .active ∧ ∀ t ∈ expiresAfter, t < lease.expiresAt := by
  have hmem := List.argmax_mem h
  rw [List.mem_filter, mem_readLeases] at hmem
  simp only [Bool.and_eq_true, beq_iff_eq] at hmem
  obtain ⟨hrow, ⟨hv, hs⟩, ht⟩ := hmem
  refine ⟨hrow, hv, hs, fun t ht' => ?_⟩
  rw [Option.mem_def.mp ht'] at ht
  simpa using ht

end

section
variable (userId : String) (vehicle : Vehicle) (session : Session) (now t : Time) (db : Db)

/-- The statement a claim's transaction ends in, unless it is denied. -/
abbrev createLease : Tx ClaimResult := do
  return .created (← Tx.query (.leaseCreate (newLease vehicle.id userId session now)))

theorem run_createLease :
    (createLease userId vehicle session now).run t db =
      if db.references (newLease vehicle.id userId session now) then
        ({ db with leases := db.leases ++ [(newLease vehicle.id userId session now).row t] },
          .ok (.created ⟨(newLease vehicle.id userId session now).row t, db.leases.length⟩))
      else (db, .error .foreignKey) := by
  rw [Tx.run_query_bind]
  simp only [Query.answer]
  by_cases hrefs : db.references (newLease vehicle.id userId session now) = true
  · rw [if_pos hrefs, if_pos hrefs]
    rfl
  · rw [if_neg hrefs, if_neg hrefs]

/-- Retiring the current lease never fails: it was found in the same transaction. -/
theorem run_retireLease {lease : ControlLease} (hl : db.activeLease? vehicle.id none = some lease) :
    Tx.run t (do
        Tx.query (.leaseUpdate lease.id (released now))
        createLease userId vehicle session now) db =
      (createLease userId vehicle session now).run t
        { db with leases := db.retired vehicle.id (released now) } := by
  have hlt : lease.id < db.leases.length := (activeLease?_some hl).lt
  rw [Tx.run_query_bind, retired_some hl]
  simp only [Query.answer, if_pos hlt]

/-- A transaction that comes to create its lease, on the retired table, commits
unless it refers to what is not there. -/
theorem commit_creates
    (h : (claimTransaction userId vehicle session now).run t db =
      (createLease userId vehicle session now).run t
        { db with leases := db.retired vehicle.id (released now) }) :
    let data := newLease vehicle.id userId session now
    let out := (claimTransaction userId vehicle session now).commit t db
    db.references data = true ∧
        out = ({ db with leases := db.retired vehicle.id (released now) ++ [data.row t] },
          .ok (.created ⟨data.row t, db.leases.length⟩)) ∨
      db.references data = false ∧ out = (db, .error .foreignKey) := by
  intro data out
  have hout : out = (claimTransaction userId vehicle session now).commit t db := rfl
  clear_value out
  rw [Tx.commit, h, run_createLease] at hout
  have hsame : Db.references { db with leases := db.retired vehicle.id (released now) }
      (newLease vehicle.id userId session now) = db.references data := rfl
  rw [hsame] at hout
  cases hrefs : db.references data with
  | true =>
    rw [hrefs, if_pos rfl] at hout
    refine .inl ⟨rfl, hout.trans ?_⟩
    simp only [length_retired]
    rfl
  | false =>
    rw [hrefs, if_neg Bool.false_ne_true] at hout
    exact .inr ⟨rfl, hout⟩

/-- A claim's transaction is denied, or retires the current lease and creates
its own, or fails on a dangling reference and changes nothing. -/
theorem commit_claimTransaction :
    let data := newLease vehicle.id userId session now
    let out := (claimTransaction userId vehicle session now).commit t db
    (∃ lease, db.DeniedBy vehicle.id userId now lease ∧
        out = (db, .ok (.denied lease.operatorId lease.sessionId))) ∨
      (∀ lease, ¬ db.DeniedBy vehicle.id userId now lease) ∧
        (db.references data = true ∧
            out = ({ db with leases := db.retired vehicle.id (released now) ++ [data.row t] },
              .ok (.created ⟨data.row t, db.leases.length⟩)) ∨
          db.references data = false ∧ out = (db, .error .foreignKey)) := by
  intro data out
  -- both branches that create end in the same statement, on the retired table
  have hcreate := commit_creates userId vehicle session now t db
  have hrun : (claimTransaction userId vehicle session now).run t db = _ := rfl
  conv at hrun => rhs; rw [claimTransaction, Tx.run_query_bind]
  simp only [Query.answer] at hrun
  rw [Tx.run_query_bind] at hrun
  simp only [Query.answer] at hrun
  cases hl : db.activeLease? vehicle.id none with
  | none =>
    rw [hl] at hrun
    refine .inr ⟨fun lease h => absurd (hl.symm.trans h.1) (Option.some_ne_none lease).symm, ?_⟩
    refine hcreate ?_
    rw [retired_none hl]
    exact hrun
  | some lease =>
    rw [hl] at hrun
    simp only at hrun
    split at hrun
    next hexp =>
      refine .inr ⟨?_, hcreate (hrun.trans (run_retireLease userId vehicle session now t db hl))⟩
      rintro lease' ⟨hl', hlt, -⟩
      obtain rfl := Option.some.inj (hl.symm.trans hl')
      exact absurd hexp (not_le.mpr hlt)
    next hexp =>
      split at hrun
      next hop =>
        refine .inl ⟨lease, ⟨hl, not_le.mp hexp, by simpa using hop⟩, ?_⟩
        change Tx.commit .. = _
        rw [Tx.commit, hrun]
        rfl
      next hop =>
        refine .inr ⟨?_, hcreate (hrun.trans (run_retireLease userId vehicle session now t db hl))⟩
        rintro lease' ⟨hl', -, hne⟩
        obtain rfl := Option.some.inj (hl.symm.trans hl')
        exact absurd (by simpa using hop) hne

end

-- ---------------------------------------------------------------------------
-- Requests without interference
-- ---------------------------------------------------------------------------

/-- A lease request writes leases and events only. -/
structure Db.SameTables (db db' : Db) : Prop where
  users : db'.users = db.users
  vehicles : db'.vehicles = db.vehicles
  permissions : db'.permissions = db.permissions
  sessions : db'.sessions = db.sessions

theorem Db.SameTables.refl (db : Db) : db.SameTables db := ⟨rfl, rfl, rfl, rfl⟩

theorem Db.SameTables.trans {db db' db'' : Db} (h : db.SameTables db') (h' : db'.SameTables db'') :
    db.SameTables db'' :=
  ⟨h'.users.trans h.users, h'.vehicles.trans h.vehicles, h'.permissions.trans h.permissions,
    h'.sessions.trans h.sessions⟩

theorem Db.SameTables.vehicle? {db db' : Db} (h : db.SameTables db') (id : String) :
    db'.vehicle? id = db.vehicle? id := by
  unfold Db.vehicle?
  rw [h.vehicles]

theorem Db.SameTables.permission? {db db' : Db} (h : db.SameTables db') (userId vehicleId : String) :
    db'.permission? userId vehicleId = db.permission? userId vehicleId := by
  unfold Db.permission?
  rw [h.permissions]

theorem Db.SameTables.session? {db db' : Db} (h : db.SameTables db') (id : String) :
    db'.session? id = db.session? id := by
  unfold Db.session?
  rw [h.sessions]

/-- At most one lease has changed, and that one has left ACTIVE. -/
def Db.Retires (db db' : Db) : Prop :=
  db'.leases = db.leases ∨
    ∃ id data, data.status ≠ .active ∧ db'.leases = db.leases.modify id (·.update data)

section
variable {db db' : Db}

theorem Db.Retires.length (h : db.Retires db') : db'.leases.length = db.leases.length := by
  rcases h with h | ⟨id, data, -, h⟩
  · rw [h]
  · rw [h, List.length_modify]

theorem Db.Retires.exclusive (h : db.Retires db') (he : db.Exclusive) : db'.Exclusive := by
  rcases h with h | ⟨id, data, hd, h⟩
  · exact (Db.Exclusive.congr h).mpr he
  · have hdown : db.Deactivates id { db with leases := db.leases.modify id (·.update data) } :=
      deactivates_modify hd
    exact (Db.Exclusive.congr h).mpr (hdown.exclusive he)

theorem retires_of_retired {vehicleId : String} {data : LeaseUpdate} (hd : data.status ≠ .active)
    (h : db'.leases = db.retired vehicleId data) : db.Retires db' := by
  cases hl : db.activeLease? vehicleId none with
  | none => exact .inl (h.trans (retired_none hl))
  | some lease => exact .inr ⟨lease.id, data, hd, h.trans (retired_some hl)⟩

/-- Once the vehicle's current lease is retired, there is room for another. -/
theorem exclusive_of_retired {data : LeaseUpdate} {new : LeaseData} {t : Time} (he : db.Exclusive)
    (hd : data.status ≠ .active) (hs : new.status = .active)
    (h : db'.leases = db.retired new.vehicleId data ++ [new.row t]) : db'.Exclusive := by
  have hretired : db.Retires { db with leases := db.retired new.vehicleId data } :=
    retires_of_retired hd rfl
  have hnone : ∀ i, ¬ Db.ActiveAt { db with leases := db.retired new.vehicleId data }
      new.vehicleId i := by
    intro i hi
    cases hl : db.activeLease? new.vehicleId none with
    | none =>
      rw [retired_none hl] at hi
      exact activeLease?_none hl hi
    | some lease =>
      rw [retired_some hl] at hi
      obtain ⟨hi, hne⟩ := ((deactivates_modify hd).2 _ i).mp hi
      exact hne (he _ i lease.id hi (activeLease?_some hl))
  have hins : ∀ base : Db, base.Inserts new.vehicleId
      { base with leases := base.leases ++ [new.row t] } := fun base => inserts_append hs
  exact (Db.Exclusive.congr h).mpr
    (((hins _).exclusive_iff (hretired.exclusive he)).mpr hnone)

end

/-- What a claim has checked when it opens its transaction. -/
structure MayClaim (req : LeaseRequest) (db : Db) (ctx : AuthContext) (body : ClaimBody)
    (vehicle : Vehicle) (session : Session) : Prop where
  authenticated : req.caller = some ctx
  valid : validateBody req.body claimLeaseSchema = .ok body
  role : hasRole ctx.role .operator = true
  found : db.vehicle? req.vehicleId = some vehicle
  permitted : (db.permission? ctx.userId vehicle.id).any (hasRole ·.role .operator) = true
  resolved : db.session? body.sessionId = some session

/-- What a takeover has checked when it creates its lease. -/
structure MayTakeOver (req : LeaseRequest) (db : Db) (ctx : AuthContext) (body : TakeoverBody)
    (vehicle : Vehicle) (session : Session) : Prop where
  authenticated : req.caller = some ctx
  valid : validateBody req.body takeoverLeaseSchema = .ok body
  admin : ctx.role = .admin
  found : db.vehicle? req.vehicleId = some vehicle
  exists_operator : ∃ user, db.user? body.newOperatorId = some user
  resolved : db.activeSession? vehicle.id body.newOperatorId = some session

section
variable (req : LeaseRequest) (db : Db)

theorem claim_finishes :
    Finishes (fun _ db' => db.SameTables db' ∧ (db'.leases = db.leases ∨
      ∃ ctx body vehicle session now t, MayClaim req db ctx body vehicle session ∧
        db'.leases = db.retired vehicle.id (released now) ++
          [(newLease vehicle.id ctx.userId session now).row t])) (claim req) db := by
  have hsame : db.SameTables db := .refl db
  unfold claim
  refine finishes_caller (fun _ => ⟨hsame, .inl rfl⟩) fun ctx hctx => ?_
  refine finishes_orThrow (fun _ _ => ⟨hsame, .inl rfl⟩) fun body hbody => ?_
  simp only
  split
  next => exact ⟨hsame, .inl rfl⟩
  next hrole =>
    refine finishes_read (fun _ => rfl) ⟨hsame, .inl rfl⟩ ?_
    cases hvehicle : db.vehicle? req.vehicleId with
    | none => exact ⟨hsame, .inl rfl⟩
    | some vehicle =>
      refine finishes_read (fun _ => rfl) ⟨hsame, .inl rfl⟩ ?_
      split
      next => exact ⟨hsame, .inl rfl⟩
      next hperm =>
        refine finishes_read (fun _ => rfl) ⟨hsame, .inl rfl⟩ ?_
        cases hsession : db.session? body.sessionId with
        | none => exact ⟨hsame, .inl rfl⟩
        | some session =>
          have hmay : MayClaim req db ctx body vehicle session :=
            ⟨hctx, hbody, by simpa using hrole, hvehicle, by simpa using hperm, hsession⟩
          refine finishes_now fun now => finishes_transaction ⟨hsame, .inl rfl⟩ ?_ ?_
          · intro t result db' hcommit
            rcases commit_claimTransaction ctx.userId vehicle session now t db with
              ⟨lease, -, hout⟩ | ⟨-, ⟨-, hout⟩ | ⟨-, hout⟩⟩
            · obtain ⟨rfl, rfl⟩ := outcome_ok hout hcommit
              exact finishes_audit fun events => ⟨⟨rfl, rfl, rfl, rfl⟩, .inl rfl⟩
            · obtain ⟨rfl, rfl⟩ := outcome_ok hout hcommit
              refine finishes_audit fun events => ⟨⟨rfl, rfl, rfl, rfl⟩, .inr ?_⟩
              exact ⟨ctx, body, vehicle, session, now, t, hmay, rfl⟩
            · exact (outcome_error hout hcommit).elim
          · intro t err db' hcommit
            rcases commit_claimTransaction ctx.userId vehicle session now t db with
              ⟨lease, -, hout⟩ | ⟨-, ⟨-, hout⟩ | ⟨-, hout⟩⟩
            · exact (outcome_error hcommit hout).elim
            · exact (outcome_error hcommit hout).elim
            · obtain ⟨rfl, -⟩ := Prod.mk.inj (hout.symm.trans hcommit)
              exact ⟨hsame, .inl rfl⟩

variable (ctx : AuthContext) (body : TakeoverBody) (vehicle : Vehicle) (now : Time)
  (old : Option String)

theorem takeoverAssign_finishes :
    Finishes (fun _ db' => db.SameTables db' ∧ (db'.leases = db.leases ∨
      (∃ user, db.user? body.newOperatorId = some user) ∧
      ∃ session t, db.activeSession? vehicle.id body.newOperatorId = some session ∧
        db'.leases = db.leases ++ [(newLease vehicle.id body.newOperatorId session now).row t]))
      (Handler.serve (takeoverAssign req ctx body vehicle now old)) db := by
  have hsame : db.SameTables db := .refl db
  unfold takeoverAssign
  refine finishes_read (fun _ => rfl) ⟨hsame, .inl rfl⟩ ?_
  cases huser : db.user? body.newOperatorId with
  | none => exact ⟨hsame, .inl rfl⟩
  | some user =>
    refine finishes_read (fun _ => rfl) ⟨hsame, .inl rfl⟩ ?_
    cases hsession : db.activeSession? vehicle.id body.newOperatorId with
    | none => exact ⟨hsame, .inl rfl⟩
    | some session =>
      refine finishes_query ⟨hsame, .inl rfl⟩ ?_ ?_
      · intro t lease db' hq
        simp only [Query.answer] at hq
        split at hq
        next =>
          obtain ⟨rfl, -⟩ := Prod.mk.inj hq
          refine finishes_audit fun events => ⟨⟨rfl, rfl, rfl, rfl⟩, .inr ?_⟩
          exact ⟨⟨user, rfl⟩, session, t, rfl, rfl⟩
        next => cases (Prod.mk.inj hq).2
      · intro t err db' hq
        simp only [Query.answer] at hq
        split at hq
        next => cases (Prod.mk.inj hq).2
        next =>
          obtain ⟨rfl, -⟩ := Prod.mk.inj hq
          exact ⟨hsame, .inl rfl⟩

/-- A takeover that creates no lease may still have revoked the current one. -/
theorem takeover_finishes :
    Finishes (fun _ db' => db.SameTables db' ∧ (db.Retires db' ∨
      ∃ ctx body vehicle session now t, MayTakeOver req db ctx body vehicle session ∧
        db'.leases = db.retired vehicle.id (revoked now) ++
          [(newLease vehicle.id body.newOperatorId session now).row t])) (takeover req) db := by
  have hsame : db.SameTables db := .refl db
  have hkept : db.Retires db := .inl rfl
  unfold takeover
  refine finishes_caller (fun _ => ⟨hsame, .inl hkept⟩) fun ctx hctx => ?_
  refine finishes_orThrow (fun _ _ => ⟨hsame, .inl hkept⟩) fun body hbody => ?_
  simp only
  split
  next => exact ⟨hsame, .inl hkept⟩
  next hadmin =>
    refine finishes_read (fun _ => rfl) ⟨hsame, .inl hkept⟩ ?_
    cases hvehicle : db.vehicle? req.vehicleId with
    | none => exact ⟨hsame, .inl hkept⟩
    | some vehicle =>
      -- the second half runs on the table with the current lease revoked
      have hassign : ∀ now old leases, leases = db.retired vehicle.id (revoked now) →
          Finishes (fun _ db' => db.SameTables db' ∧ (db.Retires db' ∨
            ∃ ctx body vehicle session now t, MayTakeOver req db ctx body vehicle session ∧
              db'.leases = db.retired vehicle.id (revoked now) ++
                [(newLease vehicle.id body.newOperatorId session now).row t]))
            (Handler.serve (takeoverAssign req ctx body vehicle now old))
            { db with leases := leases } := by
        rintro now old leases rfl
        refine (takeoverAssign_finishes req _ ctx body vehicle now old).imp ?_
        rintro r db' ⟨hsame', hkeep | ⟨huser, session, t, hsession, hnew⟩⟩
        · have hretires := retires_of_retired (revoked_not_active now) hkeep
          exact ⟨⟨hsame'.1, hsame'.2, hsame'.3, hsame'.4⟩, .inl hretires⟩
        · refine ⟨⟨hsame'.1, hsame'.2, hsame'.3, hsame'.4⟩, .inr ?_⟩
          exact ⟨ctx, body, vehicle, session, now, t,
            ⟨hctx, hbody, by simpa using hadmin, hvehicle, huser, hsession⟩, hnew⟩
      refine finishes_now fun now => ?_
      refine finishes_read (fun _ => rfl) ⟨hsame, .inl hkept⟩ ?_
      cases hlease : db.activeLease? vehicle.id none with
      | none => exact hassign now none db.leases (retired_none hlease).symm
      | some lease =>
        have hlt : lease.id < db.leases.length := (activeLease?_some hlease).lt
        refine finishes_query ⟨hsame, .inl hkept⟩ ?_ ?_
        · intro t u db' hq
          rw [Query.answer, if_pos hlt] at hq
          obtain ⟨rfl, -⟩ := Prod.mk.inj hq
          exact hassign now _ _ (retired_some hlease).symm
        · intro t err db' hq
          rw [Query.answer, if_pos hlt] at hq
          cases (Prod.mk.inj hq).2

theorem release_finishes :
    Finishes (fun _ db' => db.SameTables db' ∧ db.Retires db')
      (release req) db := by
  have hsame : db.SameTables db := .refl db
  have hkept : db.Retires db := .inl rfl
  unfold release
  refine finishes_caller (fun _ => ⟨hsame, hkept⟩) fun ctx hctx => ?_
  refine finishes_read (fun _ => rfl) ⟨hsame, hkept⟩ ?_
  cases db.vehicle? req.vehicleId with
  | none => exact ⟨hsame, hkept⟩
  | some vehicle =>
    refine finishes_now fun now => finishes_read (fun _ => rfl) ⟨hsame, hkept⟩ ?_
    cases db.activeLease? vehicle.id (some now) with
    | none => exact ⟨hsame, hkept⟩
    | some lease =>
      simp only
      split
      next => exact ⟨hsame, hkept⟩
      next =>
        refine finishes_query ⟨hsame, hkept⟩ ?_ ?_
        · intro t u db' hq
          simp only [Query.answer] at hq
          split at hq
          next =>
            obtain ⟨rfl, -⟩ := Prod.mk.inj hq
            refine finishes_audit fun events => ⟨⟨rfl, rfl, rfl, rfl⟩, .inr ?_⟩
            exact ⟨lease.id, _, released_not_active now, rfl⟩
          next => cases (Prod.mk.inj hq).2
        · intro t err db' hq
          simp only [Query.answer] at hq
          split at hq
          next => cases (Prod.mk.inj hq).2
          next =>
            obtain ⟨rfl, -⟩ := Prod.mk.inj hq
            exact ⟨hsame, hkept⟩

end

end Rvep.Backend
