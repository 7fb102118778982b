import Rvep.Backend.Footprint
import Rvep.Backend.HeldLease

/-!
# No vehicle stays locked

A lease runs out half an hour after a reading of the server's clock, whatever
else happens, and one that has run out denies no claim. So an operator that is
gone, with the lease held, keeps the others waiting half an hour at most.
-/

namespace Rvep.Backend

open Interleaving Reactive

-- ---------------------------------------------------------------------------
-- The expiry of what a request writes
-- ---------------------------------------------------------------------------

def Db.RunsOut (limit : Time) (db : Db) : Prop :=
  ∀ row ∈ db.leases, row.status = .active → row.expiresAt < limit

section
variable {limit : Time} {db db' : Db}

theorem Db.RunsOut.of_eq (h : db.RunsOut limit) (hleases : db'.leases = db.leases) :
    db'.RunsOut limit := by
  rw [RunsOut, hleases]
  exact h

/-- An update that is no activation. -/
theorem Db.RunsOut.modify (h : db.RunsOut limit) {id : Nat} {data : LeaseUpdate}
    (hd : data.status ≠ .active) (hleases : db'.leases = db.leases.modify id (·.update data)) :
    db'.RunsOut limit := by
  intro row hrow hactive
  rw [hleases, List.mem_iff_getElem?] at hrow
  obtain ⟨i, hi⟩ := hrow
  rw [List.getElem?_modify] at hi
  obtain ⟨old, hold, hupdated⟩ := Option.map_eq_some_iff.mp hi
  split at hupdated
  · rw [← hupdated] at hactive
    exact absurd hactive hd
  · rw [← hupdated] at hactive ⊢
    exact h old (List.mem_of_getElem? hold) hactive

theorem Db.RunsOut.append (h : db.RunsOut limit) {data : LeaseData} {t : Time}
    (hd : data.expiresAt < limit) (hleases : db'.leases = db.leases ++ [data.row t]) :
    db'.RunsOut limit := by
  intro row hrow hactive
  rw [hleases] at hrow
  rcases List.mem_append.mp hrow with hrow | hrow
  · exact h row hrow hactive
  · rw [List.mem_singleton.mp hrow]
    exact hd

theorem Db.RunsOut.retired (h : db.RunsOut limit) {vehicleId : String} {data : LeaseUpdate}
    (hd : data.status ≠ .active) (hleases : db'.leases = db.retired vehicleId data) :
    db'.RunsOut limit := by
  cases hl : db.activeLease? vehicleId none with
  | none => exact h.of_eq (hleases.trans (retired_none hl))
  | some lease => exact h.modify hd (hleases.trans (retired_some hl))

theorem Db.RunsOut.commit (h : db.RunsOut limit) {userId : String} {vehicle : Vehicle}
    {session : Session} {now : Time} (hnow : now + leaseTtlMs < limit) (t : Time) :
    ((claimTransaction userId vehicle session now).commit t db).1.RunsOut limit := by
  rcases commit_claimTransaction userId vehicle session now t db with
    ⟨_, -, hout⟩ | ⟨-, ⟨-, hout⟩ | ⟨-, hout⟩⟩
  · rw [hout]
    exact h
  · have hretired : Db.RunsOut limit { db with leases := db.retired vehicle.id (released now) } :=
      h.retired (released_not_active now) rfl
    have hnew : (newLease vehicle.id userId session now).expiresAt < limit := hnow
    rw [hout]
    exact hretired.append hnew rfl
  · rw [hout]
    exact h

theorem leases_answer {q : Query} (hupdate : ∀ id data, q ≠ .leaseUpdate id data)
    (hcreate : ∀ data, q ≠ .leaseCreate data) (now : Time) : (q.answer now db).1.leases = db.leases := by
  cases q with
  | leaseUpdate id data => exact absurd rfl (hupdate id data)
  | leaseCreate data => exact absurd rfl (hcreate data)
  | userUpdate | telemetryFrameCreate | permissionDelete =>
    simp only [Query.answer]
    split <;> rfl
  | userCreate | datasetAssetCreate | permissionUpsert =>
    simp only [Query.answer]
    split
    · rfl
    · split <;> rfl
  | sessionCreate =>
    simp only [Query.answer]
    split
    · rfl
    · split
      · rfl
      · split <;> rfl
  | _ => rfl

/-- Only claims and takeovers make leases. -/
theorem Db.RunsOut.exec (h : db.RunsOut limit) {req : ApiRequest} {c : Call} (hmay : req.MayCall c)
    (hclaim : ∀ lreq, req ≠ .server (.lease (.claim lreq)))
    (htakeover : ∀ lreq, req ≠ .server (.lease (.takeover lreq))) (e : Choice) :
    (Call.exec e db c).1.RunsOut limit := by
  rcases hmay with hquiet | hwrites
  · obtain ⟨events, hexec⟩ := Call.exec_isQuiet hquiet e db
    rw [hexec]
    exact h
  · cases c with
    | now => exact h
    | transaction tx =>
      obtain ⟨⟨lreq, rfl⟩, -⟩ := hwrites
      exact absurd rfl (hclaim lreq)
    | query q =>
      simp only [Call.exec]
      cases hfails : e.fails with
      | true =>
        rw [Query.exec_of_fails hfails]
        exact h
      | false =>
        rw [Query.exec_of_not_fails hfails]
        by_cases hupdate : ∃ id data, q = .leaseUpdate id data
        · obtain ⟨id, data, rfl⟩ := hupdate
          simp only [Query.answer]
          split
          · exact h.modify hwrites.1 rfl
          · exact h
        · by_cases hcreate : ∃ data, q = .leaseCreate data
          · obtain ⟨data, rfl⟩ := hcreate
            obtain ⟨lreq, rfl⟩ := hwrites
            exact absurd rfl (htakeover lreq)
          · refine h.of_eq (leases_answer ?_ ?_ e.now)
            · exact fun id data hq => hupdate ⟨id, data, hq⟩
            · exact fun data hq => hcreate ⟨data, hq⟩

end

-- ---------------------------------------------------------------------------
-- The contract
-- ---------------------------------------------------------------------------

/-- The clock reads less than `t`. -/
def lifeWorld (t : Time) : World Call Call.Reply Db (Before t) Unit where
  exec e := Call.exec e.val
  blank := ()
  observe _ _ _ _ := ()

theorem life_runs (t : Time) : Runs (lifeWorld t) Subtype.val := fun _ _ _ => rfl

def lifetime (t : Time) : Contract ApiRequest Call Response Db (Before t) Unit where
  inv := Db.RunsOut (t + leaseTtlMs)
  rely _ _ := True
  here _ _ _ _ := True
  guar _ _ _ _ _ _ _ db' := db'.RunsOut (t + leaseTtlMs)
  refl _ := trivial
  trans _ _ := trivial
  rely_of_guar _ := trivial

abbrev KeepsLifetime (t : Time) (req : ApiRequest) (prog : Prog Call Call.Reply Response) (db : Db) :
    Prop :=
  (lifetime t).Kept (lifeWorld t) req () prog db

section
variable {t : Time} {req : ApiRequest} {db : Db}

theorem keepsLifetime_done (r : Response) : KeepsLifetime t req (.done r) db := fun _ _ _ => trivial

theorem keepsLifetime_read {q : Query} {f : q.Reply → Handler Response} (hq : q.isRead = true)
    (hf : ∀ v db', KeepsLifetime t req (Handler.serve (f v)) db') :
    KeepsLifetime t req (Handler.serve (Handler.query q >>= f)) db :=
  kept_read (life_runs t) hq (fun _ _ _ => trivial) (fun _ _ _ _ _ hi => hi)
    (fun _ _ _ => keepsLifetime_done _) fun db' v _ _ _ => hf v db'

theorem keepsLifetime_now {f : Time → Handler Response}
    (hf : ∀ now, now < t → ∀ db', KeepsLifetime t req (Handler.serve (f now)) db') :
    KeepsLifetime t req (Handler.serve (Handler.now >>= f)) db :=
  kept_now (life_runs t) (fun _ _ _ => trivial) (fun _ _ _ _ _ hi => hi)
    fun db' e _ _ => hf e.val.now e.property db'

theorem keepsLifetime_audit {event : EventData} {r : Response} :
    KeepsLifetime t req (Handler.serve (audit event >>= fun _ => pure r)) db :=
  kept_audit (life_runs t) (fun _ _ _ => trivial) (fun _ _ _ _ _ _ hi => hi)
    fun _ _ _ _ _ => keepsLifetime_done r

theorem keepsLifetime_query {q : Query} {f : q.Reply → Handler Response}
    (hq : ∀ e (db' : Db), db'.RunsOut (t + leaseTtlMs) → (q.exec e db').1.RunsOut (t + leaseTtlMs))
    (hf : ∀ v db', KeepsLifetime t req (Handler.serve (f v)) db') :
    KeepsLifetime t req (Handler.serve (Handler.query q >>= f)) db :=
  kept_query (life_runs t) (fun _ _ _ => trivial) (fun db' e _ _ _ hi => hq e.val db' hi)
    (fun _ _ _ => keepsLifetime_done _) (fun _ _ v db'' _ _ _ _ => hf v db'')
    fun _ _ _ _ _ _ _ _ => keepsLifetime_done _

/-- The clock is read before the transaction, so what it creates has half an hour left. -/
theorem keepsLifetime_claimTransaction {userId : String} {vehicle : Vehicle} {session : Session}
    {now : Time} (hnow : now < t) {f : ClaimResult → Handler Response}
    (hf : ∀ v db', KeepsLifetime t req (Handler.serve (f v)) db') :
    KeepsLifetime t req
      (Handler.serve (Handler.transaction (claimTransaction userId vehicle session now) >>= f)) db := by
  refine kept_transaction (life_runs t) (fun _ _ _ => trivial) ?_ (fun _ _ _ => keepsLifetime_done _)
    (fun _ _ v db'' _ _ _ _ => hf v db'') fun _ _ _ _ _ _ _ _ => keepsLifetime_done _
  intro db' e _ _ _ hi
  rw [Call.exec_transaction]
  split
  · exact hi
  · exact hi.commit (Int.add_lt_add_right hnow leaseTtlMs) e.val.now

-- ---------------------------------------------------------------------------
-- The handlers
-- ---------------------------------------------------------------------------

theorem keepsLifetime_claim (lreq : LeaseRequest) : KeepsLifetime t req (claim lreq) db := by
  unfold claim
  refine kept_caller (fun _ => keepsLifetime_done _) fun ctx _ => ?_
  refine kept_orThrow (fun _ _ => keepsLifetime_done _) fun body _ => ?_
  simp only
  split
  · exact keepsLifetime_done _
  · refine keepsLifetime_read rfl fun vehicle? _ => ?_
    cases vehicle? with
    | none => exact keepsLifetime_done _
    | some vehicle =>
      refine keepsLifetime_read rfl fun permission _ => ?_
      split
      · exact keepsLifetime_done _
      · refine keepsLifetime_read rfl fun session? _ => ?_
        cases session? with
        | none => exact keepsLifetime_done _
        | some session =>
          refine keepsLifetime_now fun now hnow _ => keepsLifetime_claimTransaction hnow ?_
          intro result _
          cases result with
          | denied | created => exact keepsLifetime_audit

theorem runsOut_create {data : LeaseData} (hd : data.expiresAt < t + leaseTtlMs) (e : Choice)
    (h : db.RunsOut (t + leaseTtlMs)) :
    ((Query.leaseCreate data).exec e db).1.RunsOut (t + leaseTtlMs) := by
  cases hfails : e.fails with
  | true =>
    rw [Query.exec_of_fails hfails]
    exact h
  | false =>
    rw [Query.exec_of_not_fails hfails]
    simp only [Query.answer]
    split
    · exact h.append hd rfl
    · exact h

theorem runsOut_update {id : Nat} {data : LeaseUpdate} (hd : data.status ≠ .active) (e : Choice)
    (h : db.RunsOut (t + leaseTtlMs)) :
    ((Query.leaseUpdate id data).exec e db).1.RunsOut (t + leaseTtlMs) := by
  cases hfails : e.fails with
  | true =>
    rw [Query.exec_of_fails hfails]
    exact h
  | false =>
    rw [Query.exec_of_not_fails hfails]
    simp only [Query.answer]
    split
    · exact h.modify hd rfl
    · exact h

theorem keepsLifetime_takeoverAssign {lreq : LeaseRequest} {ctx : AuthContext} {body : TakeoverBody}
    {vehicle : Vehicle} {now : Time} (hnow : now < t) {oldOperatorId : Option String} :
    KeepsLifetime t req
      (Handler.serve (takeoverAssign lreq ctx body vehicle now oldOperatorId)) db := by
  unfold takeoverAssign
  refine keepsLifetime_read rfl fun user? _ => ?_
  cases user? with
  | none => exact keepsLifetime_done _
  | some user =>
    refine keepsLifetime_read rfl fun session? _ => ?_
    cases session? with
    | none => exact keepsLifetime_done _
    | some session =>
      refine keepsLifetime_query (fun e db' h => runsOut_create ?_ e h) fun _ _ => keepsLifetime_audit
      exact Int.add_lt_add_right hnow leaseTtlMs

theorem keepsLifetime_takeover (lreq : LeaseRequest) : KeepsLifetime t req (takeover lreq) db := by
  unfold takeover
  refine kept_caller (fun _ => keepsLifetime_done _) fun ctx _ => ?_
  refine kept_orThrow (fun _ _ => keepsLifetime_done _) fun body _ => ?_
  simp only
  split
  · exact keepsLifetime_done _
  · refine keepsLifetime_read rfl fun vehicle? _ => ?_
    cases vehicle? with
    | none => exact keepsLifetime_done _
    | some vehicle =>
      refine keepsLifetime_now fun now hnow _ => keepsLifetime_read rfl fun lease? _ => ?_
      cases lease? with
      | none => exact keepsLifetime_takeoverAssign hnow
      | some lease =>
        refine keepsLifetime_query (fun e db' h => runsOut_update (revoked_not_active now) e h) ?_
        exact fun _ _ => keepsLifetime_takeoverAssign hnow

theorem keepsLifetime_handler (srv : Server) (fmt : NumberFormat) (req : ApiRequest) :
    KeepsLifetime t req (req.handler srv fmt) db := by
  by_cases hclaim : ∃ lreq, req = .server (.lease (.claim lreq))
  · obtain ⟨lreq, rfl⟩ := hclaim
    exact keepsLifetime_claim lreq
  · by_cases htakeover : ∃ lreq, req = .server (.lease (.takeover lreq))
    · obtain ⟨lreq, rfl⟩ := htakeover
      exact keepsLifetime_takeover lreq
    · refine (mayCall_handler srv fmt req).kept (fun _ _ _ => trivial) ?_
      intro e _ c db' _ _ hc hi
      exact hi.exec hc (fun lreq h => hclaim ⟨lreq, h⟩) (fun lreq h => htakeover ⟨lreq, h⟩) e.val

end

-- ---------------------------------------------------------------------------
-- Half an hour later
-- ---------------------------------------------------------------------------

/-- Every route of the API, while the clock reads less than `t`. -/
abbrev apiBefore (srv : Server) (fmt : NumberFormat) (start : Db) (t : Time) :
    System (Pool ApiRequest Call Call.Reply Response Db Unit) (Event ApiRequest (Before t)) Unit :=
  pool (lifeWorld t) (ApiRequest.handler srv fmt) start

theorem runsOut_run (srv : Server) (fmt : NumberFormat) {start : Db} {t : Time}
    (h : start.RunsOut (t + leaseTtlMs)) (es : List (Event ApiRequest (Before t))) :
    ((apiBefore srv fmt start t).state ((apiBefore srv fmt start t).log es)).world.RunsOut
      (t + leaseTtlMs) :=
  (Pool.Kept.run (C := lifetime t) (fun request _ _ => keepsLifetime_handler srv fmt request)
    (fun _ hguar => hguar) h es).inv

theorem not_deniedBy {db : Db} {limit now : Time} (h : db.RunsOut limit) (hnow : limit ≤ now)
    (vehicleId userId : String) (lease : ControlLease) : ¬ db.DeniedBy vehicleId userId now lease := by
  rintro ⟨hl, hlt, -⟩
  obtain ⟨hrow, -, hs, -⟩ := activeLease?_row hl
  have hexpires := h lease.toLeaseRow (List.mem_of_getElem? hrow) hs
  exact absurd (hlt.trans hexpires) (not_lt.mpr hnow)

/-- What a claim has looked up by then, its lease may refer to. -/
theorem MayClaim.references {req : LeaseRequest} {db : Db} {ctx : AuthContext} {body : ClaimBody}
    {vehicle : Vehicle} {session : Session} (h : MayClaim req db ctx body vehicle session)
    (huser : (db.user? ctx.userId).isSome) (now : Time) :
    db.references (newLease vehicle.id ctx.userId session now) = true := by
  obtain ⟨user, huser⟩ := Option.isSome_iff_exists.mp huser
  have hvehicle : db.vehicles.any (·.id == vehicle.id) :=
    List.any_eq_true.mpr ⟨vehicle, (vehicle?_mem h.found).1, beq_self_eq_true _⟩
  have hoperator : db.users.any (·.id == ctx.userId) :=
    List.any_eq_true.mpr ⟨user, List.mem_of_find?_eq_some huser, beq_iff_eq.mpr (user?_id huser)⟩
  have hsession : db.sessions.any (·.id == session.id) :=
    List.any_eq_true.mpr ⟨session, List.mem_of_find?_eq_some h.resolved, beq_self_eq_true _⟩
  rw [Db.references, Bool.and_eq_true, Bool.and_eq_true]
  exact ⟨⟨hvehicle, hoperator⟩, hsession⟩

/-- A claim that nothing denies is granted. -/
theorem claim_granted {req : LeaseRequest} {db : Db} {ctx : AuthContext} {body : ClaimBody}
    {vehicle : Vehicle} {session : Session} (h : MayClaim req db ctx body vehicle session)
    (huser : (db.user? ctx.userId).isSome) (choices : Nat → Choice)
    (hup : ∀ n, (choices n).fails = false)
    (hfree : ∀ lease, ¬ db.DeniedBy vehicle.id ctx.userId (choices 3).now lease) :
    ((claim req).run Call.exec choices db).2.status = 201 := by
  have hout : ((claim req).run Call.exec choices db).2 = (Handler.alone _ choices db).2 := rfl
  rw [h.authenticated, getAuthContext, alone_pure_bind, h.valid, orThrow, alone_pure_bind] at hout
  simp only [h.role, Bool.not_true, Bool.false_eq_true, if_false] at hout
  rw [alone_query_ok _ (hup 0) rfl, h.found] at hout
  simp only at hout
  rw [alone_query_ok _ (hup 1) rfl] at hout
  simp only [h.permitted, Bool.not_true, Bool.false_eq_true, if_false] at hout
  rw [alone_query_ok _ (hup 2) rfl, h.resolved] at hout
  simp only at hout
  rw [alone_now_bind] at hout
  rcases commit_claimTransaction ctx.userId vehicle session (choices 3).now (choices 4).now db with
    ⟨lease, hdenied, -⟩ | ⟨-, ⟨-, hcommit⟩ | ⟨hdangling, -⟩⟩
  · exact absurd hdenied (hfree lease)
  · rw [alone_transaction _ (hup 4) hcommit] at hout
    rw [hout]
    rfl
  · exact absurd ((h.references huser _).symm.trans hdangling) Bool.false_ne_true.symm

/-- However the requests up to `t` interleave, no lease outlasts `t` by half an
hour, and from then on anyone who may claim a vehicle gets it. -/
theorem lock_runs_out (srv : Server) (fmt : NumberFormat) {start : Db} {t : Time}
    (h : start.RunsOut (t + leaseTtlMs)) (es : List (Event ApiRequest (Before t))) :
    let db := ((apiBefore srv fmt start t).state ((apiBefore srv fmt start t).log es)).world
    db.RunsOut (t + leaseTtlMs) ∧
      ∀ {req : LeaseRequest} {ctx : AuthContext} {body : ClaimBody} {vehicle : Vehicle}
        {session : Session}, MayClaim req db ctx body vehicle session → (db.user? ctx.userId).isSome →
        ∀ choices : Nat → Choice, (∀ n, (choices n).fails = false) → t + leaseTtlMs ≤ (choices 3).now →
          ((claim req).run Call.exec choices db).2.status = 201 := by
  intro db
  have hruns : db.RunsOut (t + leaseTtlMs) := runsOut_run srv fmt h es
  refine ⟨hruns, fun {req ctx body vehicle session} hmay huser choices hup hlate => ?_⟩
  exact claim_granted hmay huser choices hup (not_deniedBy hruns hlate vehicle.id ctx.userId)

/-- Carol's lease ran out long ago. -/
private def gravelPit : Db where
  users :=
    [⟨"carol", "carol@rvep.dev", "", .operator, 0, none, 0⟩,
      ⟨"dave", "dave@rvep.dev", "", .operator, 0, none, 0⟩]
  vehicles := [⟨"v7", "vehicle-107", "UGV 7", .wheeled, .online⟩]
  permissions := [⟨"carol", "v7", .operator, 1, none, 0⟩, ⟨"dave", "v7", .operator, 2, none, 0⟩]
  sessions :=
    [⟨"s7", "web-carol", "v7", "carol", 1, .active, 0, .control⟩,
      ⟨"s8", "web-dave", "v7", "dave", 1, .active, 0, .control⟩]
  leases := [⟨⟨"v7", "carol", "s7", 1, .active, 900⟩, 500, none, none⟩]
  events := []

private def asksFor (userId webSession : String) : LeaseRequest :=
  ⟨some ⟨userId, .operator⟩, "vehicle-107", some (.obj [("sessionId", .str webSession)])⟩

/-- Carol claims the vehicle once more, and is never heard of again. -/
private def carolClaims : List (Event ApiRequest (Before 5000)) :=
  List.replicate 6 (.step 0 ⟨⟨4000, false⟩, by decide⟩) ++
    [.spawn (.server (.lease (.claim (asksFor "carol" "web-carol"))))]

theorem lock_runs_out_dave :
    let db := ((apiBefore bareServer wholeNumbers gravelPit 5000).state
      ((apiBefore bareServer wholeNumbers gravelPit 5000).log carolClaims)).world
    (db.activeLease? "v7" (some 1803999)).map (·.operatorId) = some "carol" ∧
      ((claim (asksFor "dave" "web-dave")).run Call.exec (fun _ => ⟨1805000, false⟩) db).2.status =
        201 := by
  have hstart : gravelPit.RunsOut (5000 + leaseTtlMs) := by
    intro row hrow _
    rw [List.mem_singleton.mp hrow]
    decide
  refine ⟨rfl, ?_⟩
  exact (lock_runs_out bareServer wholeNumbers hstart carolClaims).2
    (⟨rfl, rfl, rfl, rfl, rfl, rfl⟩ : MayClaim _ _ ⟨"dave", .operator⟩ ⟨"web-dave"⟩ _ _) rfl
    (fun _ => ⟨1805000, false⟩) (fun _ => rfl) (by decide)

end Rvep.Backend
