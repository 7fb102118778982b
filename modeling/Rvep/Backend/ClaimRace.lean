import Rvep.Lib.Serializable
import Rvep.Backend.HeldLease

/-!
# Claims that race for a vehicle

Claims that run at once, their transactions statement by statement. A claim's
transaction takes its snapshot when it asks for the advisory lock, before it
is given the lock, so a claim that waits for another does not see the lease
the other creates.
-/

namespace Rvep.Backend

open Interleaving Reactive Serializable

-- ---------------------------------------------------------------------------
-- The server
-- ---------------------------------------------------------------------------

def Query.lock : Query → Option String
  | .advisoryLock key => some key
  | _ => none

/-- The query reads a range that an insert goes into. -/
def Query.reads : Query → Query → Bool
  | .leaseFindActive vehicleId _, .leaseCreate data
  | .leaseFindAny vehicleId _, .leaseCreate data
  | .leaseFindOperator vehicleId _, .leaseCreate data =>
    data.vehicleId == vehicleId && data.status == .active
  | _, _ => false

/-- The query writes leases, events, telemetry and assets at most. -/
def Query.keepsTables : Query → Bool
  | .userUpdate _ _ | .permissionUpsert _ _ _ _ | .permissionDelete _ => false
  | .userCreate _ | .sessionCreate _ => false
  | _ => true

def postgres : Engine Query (fun q => Except DbError q.Reply) Db Choice String where
  exec := Query.exec
  lock := Query.lock
  reads := Query.reads

abbrev ClaimTxn := Txn Query (fun q => Except DbError q.Reply) (Except DbError ClaimResult) Db Choice

-- ---------------------------------------------------------------------------
-- The race
-- ---------------------------------------------------------------------------

/-- An operator who may claim the vehicle, and the claim it sends. -/
structure Contender (start : Db) (vehicle : Vehicle) where
  req : LeaseRequest
  ctx : AuthContext
  body : ClaimBody
  session : Session
  may : MayClaim req start ctx body vehicle session
  user : (start.user? ctx.userId).isSome = true

inductive Stage
  | outside (prog : Prog Call Call.Reply Response)
  | inside (txn : ClaimTxn) (k : Except DbError ClaimResult → Prog Call Call.Reply Response)

def Stage.txn? : Stage → Option ClaimTxn
  | .outside _ => none
  | .inside txn _ => some txn

/-- A claim under way: its last reading of the clock, and whether its
transaction, once started, started on a database where nobody held the
vehicle at that reading. -/
structure Racer (start : Db) (vehicle : Vehicle) where
  contender : Contender start vehicle
  stage : Stage
  readAt : Time
  startedFree : Option Bool

structure Race (start : Db) (vehicle : Vehicle) where
  server : Server Query Db
  racers : List (Racer start vehicle)

variable {start : Db} {vehicle : Vehicle}

def Db.free (db : Db) (vehicleId : String) (now : Time) : Bool :=
  (db.activeLease? vehicleId (some now)).isNone

def Racer.act (t : Racer start vehicle) (s : Server Query Db) (others : List ClaimTxn) (now : Time) :
    Server Query Db × Racer start vehicle :=
  match t.stage with
  | .outside (.done _) => (s, t)
  | .outside (.call .now k) => (s, { t with stage := .outside (k now), readAt := now })
  | .outside (.call (.query q) k) =>
    let (db, r) := q.exec ⟨now, false⟩ s.db
    ({ s with db := db }, { t with stage := .outside (k r) })
  | .outside (.call (.transaction tx) k) =>
    (s, { t with
      stage := .inside (s.begin ⟨now, false⟩ (ExceptT.run tx)) k
      startedFree := some (s.db.free vehicle.id t.readAt) })
  | .inside txn k =>
    match txn.prog with
    | .call _ _ =>
      if txn.waits postgres others then (s, t)
      else (s, { t with stage := .inside (txn.step postgres) k })
    -- a transaction that throws is rolled back
    | .done (.error err) => (s, { t with stage := .outside (k (.error err)) })
    | .done (.ok result) =>
      if s.aborts postgres txn then (s, { t with stage := .outside (k (.error .serialization)) })
      else (s.commit postgres txn, { t with stage := .outside (k (.ok result)) })

/-- The open transactions of the other racers. -/
def Race.others (r : Race start vehicle) (i : Nat) : List ClaimTxn :=
  (r.racers.eraseIdx i).filterMap (·.stage.txn?)

def Race.step (r : Race start vehicle) (i : Nat) (now : Time) : Race start vehicle :=
  match r.racers[i]? with
  | none => r
  | some t =>
    let (s, t) := t.act r.server (r.others i) now
    { server := s, racers := r.racers.set i t }

def Contender.racer (c : Contender start vehicle) : Racer start vehicle where
  contender := c
  stage := .outside (claim c.req)
  readAt := 0
  startedFree := none

/-- Each event moves one racer, at the instant its clock then reads. -/
def claimRace (claims : List (Contender start vehicle)) :
    System (Race start vehicle) (Nat × Time) Unit where
  init := { server := ⟨start, []⟩, racers := claims.map (·.racer) }
  step r e := (r.step e.1 e.2, ())

-- ---------------------------------------------------------------------------
-- The program of a claim
-- ---------------------------------------------------------------------------

def deniedBy (operatorId sessionId : String) : Response :=
  fail "lease_taken" 409
    [("currentOperatorId", .text operatorId), ("currentSessionId", .text sessionId)]

/-- The answer that the transaction's result leads to. -/
def Answers (result : Except DbError ClaimResult) (r : Response) : Prop :=
  match result with
  | .ok (.denied operatorId sessionId) => r = deniedBy operatorId sessionId
  | .ok (.created _) => r.status = 201
  | .error _ => r.status = 500

/-- What is left to do is to write the audit log. -/
structure Concludes (result : Except DbError ClaimResult) (prog : Prog Call Call.Reply Response) :
    Prop where
  calls : prog.AllCalls fun c => ∃ event, c = .query (.eventLogCreate event)
  results : prog.AllResults (Answers result)

/-- What is left to do, on a database with the tables of `start`, is to read,
then to run the claim's transaction. -/
def Contender.Approaches (c : Contender start vehicle) :
    Time → Prog Call Call.Reply Response → Prop
  | _, .done _ => False
  | _, .call .now k => ∀ now, c.Approaches now (k now)
  | t, .call (.query q) k =>
    q.isRead = true ∧
      ∀ db v, start.SameTables db → (∀ now, q.answer now db = (db, .ok v)) → c.Approaches t (k (.ok v))
  | t, .call (.transaction tx) k =>
    tx = claimTransaction c.ctx.userId vehicle c.session t ∧ ∀ result, Concludes result (k result)

section
variable {c : Contender start vehicle} {t : Time}

theorem concludes_done {result : Except DbError ClaimResult} {r : Response} (h : Answers result r) :
    Concludes result (.done r) := ⟨trivial, h⟩

theorem concludes_audit {result : Except DbError ClaimResult} {event : EventData} {r : Response}
    (h : Answers result r) : Concludes result (Handler.serve (audit event >>= fun _ => pure r)) :=
  ⟨⟨⟨event, rfl⟩, fun _ => trivial⟩, fun _ => h⟩

theorem approaches_lookup {q : Query} {f : q.Reply → Handler Response} {value : Db → q.Reply}
    (hq : q.isRead = true) (hvalue : ∀ db, q.answer 0 db = (db, .ok (value db)))
    (hsame : ∀ db, start.SameTables db → value db = value start)
    (hf : c.Approaches t (Handler.serve (f (value start)))) :
    c.Approaches t (Handler.serve (Handler.query q >>= f)) := by
  rw [serve_query_bind]
  refine ⟨hq, fun db v htables hv => ?_⟩
  obtain rfl : value db = v := Query.value_eq hv (hvalue db)
  rw [hsame db htables]
  exact hf

theorem approaches_now {f : Time → Handler Response}
    (hf : ∀ now, c.Approaches now (Handler.serve (f now))) :
    c.Approaches t (Handler.serve (Handler.now >>= f)) := hf

theorem approaches_transaction {f : ClaimResult → Handler Response}
    (hf : ∀ result, Concludes (.ok result) (Handler.serve (f result))) :
    c.Approaches t (Handler.serve
      (Handler.transaction (claimTransaction c.ctx.userId vehicle c.session t) >>= f)) := by
  rw [serve_transaction_bind]
  refine ⟨rfl, fun result => ?_⟩
  cases result with
  | error err => exact concludes_done rfl
  | ok result => exact hf result

theorem approaches_claim (c : Contender start vehicle) (t : Time) : c.Approaches t (claim c.req) := by
  obtain ⟨hctx, hbody, hrole, hfound, hperm, hsession⟩ := c.may
  have hauth : ∀ f : AuthContext → Handler Response,
      Handler.serve (getAuthContext c.req.caller >>= f) = Handler.serve (f c.ctx) := by
    intro f
    rw [hctx]
    rfl
  have hvalid : ∀ f : ClaimBody → Handler Response,
      Handler.serve (orThrow (validateBody c.req.body claimLeaseSchema) >>= f) =
        Handler.serve (f c.body) := by
    intro f
    rw [hbody]
    rfl
  unfold claim
  rw [hauth, hvalid]
  simp only [hrole, Bool.not_true, Bool.false_eq_true, ↓reduceIte]
  refine approaches_lookup rfl (fun _ => rfl) (fun _ h => h.vehicle? _) ?_
  simp only [hfound]
  refine approaches_lookup rfl (fun _ => rfl) (fun _ h => h.permission? _ _) ?_
  simp only [hperm, Bool.not_true, Bool.false_eq_true, ↓reduceIte]
  refine approaches_lookup rfl (fun _ => rfl) (fun _ h => h.session? _) ?_
  simp only [hsession]
  refine approaches_now fun now => approaches_transaction fun result => ?_
  cases result with
  | denied operatorId sessionId => exact concludes_audit rfl
  | created lease => exact concludes_audit rfl

end

-- ---------------------------------------------------------------------------
-- The transaction of a claim
-- ---------------------------------------------------------------------------

theorem allCalls_txQuery {P : Query → Prop} {q : Query} {f : q.Reply → Tx ClaimResult} (h : P q)
    (hf : ∀ v, (ExceptT.run (f v)).AllCalls P) :
    (ExceptT.run (Tx.query q >>= f)).AllCalls P := by
  refine ⟨h, fun r => ?_⟩
  cases r with
  | error err => trivial
  | ok v => exact hf v

theorem calls_txQuery (now : Time) (q : Query) (f : q.Reply → Tx ClaimResult) (db : Db) :
    postgres.calls ⟨now, false⟩ (ExceptT.run (Tx.query q >>= f)) db =
      q :: match q.answer now db with
        | (db', .ok v) => postgres.calls ⟨now, false⟩ (ExceptT.run (f v)) db'
        | (_, .error _) => [] := by
  have hexec : q.exec ⟨now, false⟩ db = q.answer now db := Query.exec_of_not_fails rfl db
  change q :: (fun x : Db × Except DbError q.Reply =>
    postgres.calls ⟨now, false⟩ (Prog.bind (.done x.2) (ExceptT.bindCont f)) x.1)
      (q.exec ⟨now, false⟩ db) = _
  rw [hexec]
  cases hr : q.answer now db with
  | mk db' r => cases r <;> rfl

theorem commit_snd (now : Time) (tx : Tx ClaimResult) (db : Db) :
    (tx.commit now db).2 = (tx.run now db).2 := by
  unfold Tx.commit
  split
  next h => rw [h]
  next h => rw [h]

/-- Made again on its own snapshot, a transaction is the one step that `Call.exec` makes of it. -/
theorem redo_commit {now : Time} {tx : Tx ClaimResult} {db : Db} {result : ClaimResult}
    (h : (tx.run now db).2 = .ok result) :
    postgres.redo ⟨now, false⟩ (postgres.calls ⟨now, false⟩ (ExceptT.run tx) db) db =
      (tx.commit now db).1 := by
  have hrun : tx.run now db = ((tx.run now db).1, .ok result) := Prod.ext rfl h
  rw [redo_calls, Tx.commit, hrun]
  rfl

section
variable (userId : String) (session : Session) (now t : Time) {db : Db}

variable (vehicle) in
theorem claimTransaction_calls {P : Query → Prop} (hfind : P (.leaseFindActive vehicle.id none))
    (hupdate : ∀ id, P (.leaseUpdate id (released now)))
    (hcreate : P (.leaseCreate (newLease vehicle.id userId session now))) :
    ∃ k, ExceptT.run (claimTransaction userId vehicle session now) =
        .call (.advisoryLock vehicle.id) k ∧ ∀ r, (k r).AllCalls P := by
  have hlast : (ExceptT.run (createLease userId vehicle session now)).AllCalls P :=
    allCalls_txQuery hcreate fun _ => trivial
  refine ⟨_, rfl, fun r => ?_⟩
  cases r with
  | error err => trivial
  | ok u =>
    refine allCalls_txQuery hfind fun lease? => ?_
    cases lease? with
    | none => exact hlast
    | some lease =>
      simp only
      split
      · exact allCalls_txQuery (hupdate _) fun _ => hlast
      · split
        · trivial
        · exact allCalls_txQuery (hupdate _) fun _ => hlast

theorem locksFirst_claimTransaction :
    LocksFirst postgres (ExceptT.run (claimTransaction userId vehicle session now)) := by
  have hcalls := claimTransaction_calls vehicle userId session now
    (P := fun c => postgres.lock c = none) rfl (fun _ => rfl) rfl
  obtain ⟨k, hrun, hk⟩ := hcalls
  rw [hrun]
  exact hk

theorem reads_of_isRead {q : Query} (h : q.isRead = true) (q' : Query) : postgres.reads q' q = false := by
  cases q with
  | leaseCreate => simp [Query.isRead] at h
  | _ => cases q' <;> rfl

theorem sameTables_exec {q : Query} (h : q.keepsTables = true) (e : Choice) (db : Db) :
    db.SameTables (q.exec e db).1 := by
  unfold Query.exec
  split
  · exact .refl db
  · cases q with
    | userUpdate | permissionUpsert | permissionDelete | userCreate | sessionCreate =>
      simp [Query.keepsTables] at h
    | datasetAssetCreate =>
      simp only [Query.answer]
      split
      · exact .refl db
      · split <;> exact ⟨rfl, rfl, rfl, rfl⟩
    | leaseUpdate | leaseCreate | telemetryFrameCreate =>
      simp only [Query.answer]
      split <;> exact ⟨rfl, rfl, rfl, rfl⟩
    | _ => exact ⟨rfl, rfl, rfl, rfl⟩

/-- A claim is only denied where somebody holds the vehicle. -/
theorem free_of_denied {operatorId sessionId : String}
    (h : ((claimTransaction userId vehicle session now).run t db).2 =
      .ok (.denied operatorId sessionId)) : db.free vehicle.id now = false := by
  rw [← commit_snd] at h
  rcases commit_claimTransaction userId vehicle session now t db with
    ⟨lease, ⟨hl, hlt, -⟩, hout⟩ | ⟨-, ⟨-, hout⟩ | ⟨-, hout⟩⟩
  · obtain ⟨hrow, hv, hs, -⟩ := activeLease?_row hl
    have hheld : db.activeLease? vehicle.id (some now) ≠ none :=
      activeLease?_ne_none hrow hv hs fun t' ht' => Option.some.inj ht' ▸ hlt
    exact Option.isNone_eq_false_iff.mpr (Option.isSome_iff_ne_none.mpr hheld)
  · rw [hout] at h
    exact absurd h nofun
  · rw [hout] at h
    exact absurd h nofun

/-- A claim that is denied has only read. -/
theorem denied_claimTransaction {lease : ControlLease}
    (h : db.DeniedBy vehicle.id userId now lease) :
    ((claimTransaction userId vehicle session now).run t db).2 =
        .ok (.denied lease.operatorId lease.sessionId) ∧
      postgres.calls ⟨t, false⟩ (ExceptT.run (claimTransaction userId vehicle session now)) db =
        [.advisoryLock vehicle.id, .leaseFindActive vehicle.id none] := by
  obtain ⟨hl, hlt, hne⟩ := h
  have hdenied : (if lease.expiresAt ≤ now then
      (do Tx.query (.leaseUpdate lease.id (released now)); createLease userId vehicle session now)
    else if (lease.operatorId != userId) = true then
      return .denied lease.operatorId lease.sessionId
    else do Tx.query (.leaseUpdate lease.id (released now)); createLease userId vehicle session now :
      Tx ClaimResult) = return .denied lease.operatorId lease.sessionId := by
    rw [if_neg (not_le.mpr hlt), if_pos (by simpa using hne)]
  constructor
  · rw [claimTransaction, Tx.run_query_bind]
    simp only [Query.answer]
    rw [Tx.run_query_bind]
    simp only [Query.answer, hl]
    exact congrArg (fun tx => (Tx.run t tx db).2) hdenied
  · rw [claimTransaction, calls_txQuery]
    simp only [Query.answer]
    rw [calls_txQuery]
    simp only [Query.answer, hl]
    exact congrArg (fun tx => _ :: _ :: postgres.calls ⟨t, false⟩ (ExceptT.run tx) db) hdenied

end

/-- Nobody has a lease of the vehicle, so the claim gets one. -/
theorem Contender.created (c : Contender start vehicle)
    (hnone : ∀ i, ¬ start.ActiveAt vehicle.id i) (now t : Time) :
    let data := newLease vehicle.id c.ctx.userId c.session now
    (claimTransaction c.ctx.userId vehicle c.session now).commit t start =
      ({ start with leases := start.leases ++ [data.row t] },
        .ok (.created ⟨data.row t, start.leases.length⟩)) := by
  intro data
  have hnotActive : start.activeLease? vehicle.id none = none := by
    cases hl : start.activeLease? vehicle.id none with
    | none => rfl
    | some lease => exact absurd (activeLease?_some hl) (hnone lease.id)
  have hrefs : start.references data = true := by
    obtain ⟨-, -, -, hfound, -, hsession⟩ := c.may
    obtain ⟨user, huser⟩ := Option.isSome_iff_exists.mp c.user
    rw [Db.references, Bool.and_eq_true, Bool.and_eq_true]
    refine ⟨⟨List.any_eq_true.mpr ⟨vehicle, List.mem_of_find?_eq_some hfound, beq_self_eq_true _⟩,
      List.any_eq_true.mpr ⟨user, List.mem_of_find?_eq_some huser, ?_⟩⟩,
      List.any_eq_true.mpr ⟨c.session, List.mem_of_find?_eq_some hsession, beq_self_eq_true _⟩⟩
    exact beq_iff_eq.mpr (user?_id huser)
  rcases commit_claimTransaction c.ctx.userId vehicle c.session now t start with
    ⟨lease, ⟨hl, -⟩, -⟩ | ⟨-, ⟨-, hout⟩ | ⟨hdangling, -⟩⟩
  · exact absurd (hnotActive.symm.trans hl) nofun
  · rw [hout, retired_none hnotActive]
  · exact absurd (hrefs.symm.trans hdangling) nofun

-- ---------------------------------------------------------------------------
-- Where a claim stands
-- ---------------------------------------------------------------------------

inductive Standing
  | before
  /-- In the transaction, on a snapshot from when `since` others had committed. -/
  | inside (snapshot : Db) (since : Nat)
  | after (result : Except DbError ClaimResult)

def Contender.transaction (c : Contender start vehicle) (readAt : Time) : Tx ClaimResult :=
  claimTransaction c.ctx.userId vehicle c.session readAt

structure Racer.Inside (t : Racer start vehicle) (snapshot : Db) (since : Nat) (txn : ClaimTxn)
    (k : Except DbError ClaimResult → Prog Call Call.Reply Response) : Prop where
  stage : t.stage = .inside txn k
  startedFree : t.startedFree = some (snapshot.free vehicle.id t.readAt)
  concludes : ∀ result, Concludes result (k result)
  runs : txn.Runs postgres (ExceptT.run (t.contender.transaction t.readAt)) snapshot
  orderly : txn.Orderly postgres
  since : txn.since = since
  env : ∃ now, txn.env = ⟨now, false⟩

def Racer.At (t : Racer start vehicle) : Standing → Prop
  | .before =>
    ∃ prog, t.stage = .outside prog ∧ t.startedFree = none ∧ t.contender.Approaches t.readAt prog
  | .inside snapshot since => ∃ txn k, t.Inside snapshot since txn k
  | .after result =>
    ∃ prog free, t.stage = .outside prog ∧ t.startedFree = some free ∧ Concludes result prog ∧
      (free = true → ∀ operatorId sessionId, result ≠ .ok (.denied operatorId sessionId))

section
variable {t : Racer start vehicle} (s : Server Query Db) (others : List ClaimTxn) (now : Time)

theorem act_contender : (t.act s others now).2.contender = t.contender := by
  unfold Racer.act
  split <;> try rfl
  split
  · split <;> rfl
  · rfl
  · split <;> rfl

theorem act_before (h : t.At .before) (hs : start.SameTables s.db) :
    (t.act s others now).1 = s ∧
      ((t.act s others now).2.At .before ∨
        (t.act s others now).2.At (.inside s.db s.committed.length)) := by
  obtain ⟨prog, hstage, hfree, happroaches⟩ := h
  unfold Racer.act
  rw [hstage]
  cases prog with
  | done r => exact happroaches.elim
  | call c k =>
    cases c with
    | now => exact ⟨rfl, .inl ⟨k now, rfl, hfree, happroaches now⟩⟩
    | query q =>
      obtain ⟨hq, hk⟩ := happroaches
      obtain ⟨v, hv⟩ := Query.answer_isRead hq s.db
      have hexec : q.exec ⟨now, false⟩ s.db = (s.db, .ok v) :=
        (Query.exec_of_not_fails rfl s.db).trans (hv now)
      simp only [hexec]
      exact ⟨trivial, .inl ⟨k (.ok v), rfl, hfree, hk s.db v hs hv⟩⟩
    | transaction tx =>
      obtain ⟨rfl, hconcludes⟩ := happroaches
      refine ⟨rfl, .inr ⟨_, k, rfl, rfl, hconcludes, runs_begin, ?_, rfl, now, rfl⟩⟩
      exact orderly_begin (locksFirst_claimTransaction _ _ _)

theorem act_after {result : Except DbError ClaimResult} (h : t.At (.after result)) :
    (∃ events, (t.act s others now).1 = { s with db := { s.db with events := events } }) ∧
      (t.act s others now).2.At (.after result) ∧
        (t.act s others now).2.startedFree = t.startedFree := by
  obtain ⟨prog, free, hstage, hfree, ⟨hcalls, hresults⟩, hdenied⟩ := h
  unfold Racer.act
  rw [hstage]
  cases prog with
  | done r => exact ⟨⟨s.db.events, rfl⟩, ⟨_, free, hstage, hfree, ⟨hcalls, hresults⟩, hdenied⟩, rfl⟩
  | call c k =>
    obtain ⟨⟨event, rfl⟩, hk⟩ := hcalls
    exact ⟨⟨_, rfl⟩, ⟨_, free, rfl, hfree, ⟨hk _, hresults _⟩, hdenied⟩, rfl⟩

/-- How a transaction that began on `snapshot` at `began` fails: it throws, or it is aborted. -/
def Racer.Fails (t : Racer start vehicle) (s : Server Query Db) (snapshot : Db) (since : Nat)
    (began : Time) : Prop :=
  (∃ err, ((t.contender.transaction t.readAt).run began snapshot).2 = .error err) ∨
    s.crosses postgres since (postgres.calls ⟨began, false⟩
      (ExceptT.run (t.contender.transaction t.readAt)) snapshot) = true

/-- A transaction that began on `snapshot` at `began` commits, and leaves `s'`. -/
structure Racer.Commits (t : Racer start vehicle) (s : Server Query Db) (snapshot : Db)
    (began : Time) (result : ClaimResult) (s' : Server Query Db) : Prop where
  result : ((t.contender.transaction t.readAt).run began snapshot).2 = .ok result
  db : s'.db = postgres.redo ⟨began, false⟩ (postgres.calls ⟨began, false⟩
    (ExceptT.run (t.contender.transaction t.readAt)) snapshot) s.db

theorem act_inside {snapshot : Db} {since : Nat} (h : t.At (.inside snapshot since)) :
    (t.act s others now).2.startedFree = t.startedFree ∧
      ((t.act s others now).1 = s ∧ (t.act s others now).2.At (.inside snapshot since) ∨
        (∃ err began, (t.act s others now).1 = s ∧ t.Fails s snapshot since began ∧
          (t.act s others now).2.At (.after (.error err))) ∨
        ∃ result began, t.Commits s snapshot began result (t.act s others now).1 ∧
          (t.act s others now).2.At (.after (.ok result))) := by
  obtain ⟨txn, k, hstage, hfree, hconcludes, hruns, horderly, hsince, began, henv⟩ := h
  unfold Racer.act
  rw [hstage]
  cases hprog : txn.prog with
  | call c k' =>
    simp only [hprog]
    split
    next =>
      refine ⟨rfl, .inl ⟨rfl, txn, k, hstage, hfree, hconcludes, hruns, horderly, hsince, began, henv⟩⟩
    next =>
      refine ⟨rfl, .inl ⟨rfl, _, k, rfl, hfree, hconcludes, hruns.step, horderly.step, ?_, began, ?_⟩⟩
      · exact Txn.step_since.trans hsince
      · exact Txn.step_env.trans henv
  | done a =>
    obtain ⟨hresult, htrace⟩ := hruns.ended hprog
    rw [henv] at hresult htrace
    cases a with
    | error err =>
      simp only [hprog]
      refine ⟨trivial, .inr (.inl ⟨err, began, trivial, .inl ⟨err, hresult⟩, ?_⟩)⟩
      exact ⟨_, _, rfl, hfree, hconcludes _, fun _ _ _ => nofun⟩
    | ok result =>
      simp only [hprog]
      split
      next haborts =>
        refine ⟨rfl, .inr (.inl ⟨.serialization, began, rfl, .inr ?_, ?_⟩)⟩
        · rw [← haborts, Server.aborts, htrace, hsince]
        · exact ⟨_, _, rfl, hfree, hconcludes _, fun _ _ _ => nofun⟩
      next =>
        refine ⟨rfl, .inr (.inr ⟨result, began, ⟨hresult, ?_⟩, _, _, rfl, hfree, hconcludes _, ?_⟩)⟩
        · rw [Server.commit, htrace, henv]
        · intro hstarted operatorId sessionId heq
          have hnot := free_of_denied _ _ _ _ (hresult.trans heq)
          exact Bool.false_ne_true (hnot.symm.trans hstarted)

theorem act_startedFree (ha : ∃ a, t.At a) (h : t.startedFree = some true) :
    (t.act s others now).2.startedFree = some true := by
  obtain ⟨a, ha⟩ := ha
  cases a with
  | before =>
    obtain ⟨-, -, hfree, -⟩ := ha
    exact absurd (hfree.symm.trans h) nofun
  | inside snapshot since => exact (act_inside s others now ha).1.trans h
  | after result => exact (act_after s others now ha).2.2.trans h

/-- On a database where nobody has a lease of the vehicle, the transaction goes through. -/
theorem act_winner {since : Nat} (hnone : ∀ i, ¬ start.ActiveAt vehicle.id i)
    (h : t.At (.inside start since)) (hs : s = ⟨start, []⟩) :
    (t.act s others now).1 = s ∧ (t.act s others now).2.At (.inside start since) ∨
      ∃ began lease, (t.act s others now).1.db.leases = start.leases ++
          [(newLease vehicle.id t.contender.ctx.userId t.contender.session t.readAt).row began] ∧
        (t.act s others now).2.At (.after (.ok (.created lease))) := by
  have hcreated := t.contender.created hnone t.readAt
  obtain ⟨-, hstays | ⟨err, began, -, hfails, -⟩ | ⟨result, began, ⟨hresult, hdb⟩, hafter⟩⟩ :=
    act_inside s others now h
  · exact .inl hstays
  · rcases hfails with ⟨err', herr⟩ | hcrosses
    · rw [← commit_snd, Contender.transaction, hcreated began] at herr
      cases herr
    · rw [crosses_nothing (congrArg Server.committed hs)] at hcrosses
      exact absurd hcrosses Bool.false_ne_true
  · have hleases := redo_commit hresult
    rw [← commit_snd, Contender.transaction, hcreated began] at hresult
    obtain rfl := Except.ok.inj hresult
    refine .inr ⟨began, _, ?_, hafter⟩
    rw [hdb, hs, hleases, Contender.transaction, hcreated began]

/-- A transaction that finds somebody else in control is denied, and leaves no trace. -/
theorem act_loser {snapshot : Db} {since : Nat} {lease : ControlLease}
    (h : t.At (.inside snapshot since))
    (hdenied : snapshot.DeniedBy vehicle.id t.contender.ctx.userId t.readAt lease) :
    (t.act s others now).1.db = s.db ∧
      ((t.act s others now).2.At (.inside snapshot since) ∨
        (t.act s others now).2.At (.after (.ok (.denied lease.operatorId lease.sessionId)))) := by
  have hruns := fun began =>
    denied_claimTransaction _ t.contender.session _ began hdenied
  have hreads : ∀ c ∈ [Query.advisoryLock vehicle.id, .leaseFindActive vehicle.id none],
      c.isRead = true := by
    simp [Query.isRead]
  obtain ⟨-, ⟨hsame, hstays⟩ | ⟨err, began, -, hfails, -⟩ |
    ⟨result, began, ⟨hresult, hdb⟩, hafter⟩⟩ := act_inside s others now h
  · exact ⟨congrArg Server.db hsame, .inl hstays⟩
  · rcases hfails with ⟨err', herr⟩ | hcrosses
    · cases (hruns began).1.symm.trans herr
    · rw [Contender.transaction, (hruns began).2,
        crosses_unread fun c hc c' => reads_of_isRead (hreads c hc) c'] at hcrosses
      exact absurd hcrosses Bool.false_ne_true
  · obtain rfl := Except.ok.inj ((hruns began).1.symm.trans hresult)
    refine ⟨?_, .inr hafter⟩
    rw [hdb, Contender.transaction, (hruns began).2]
    exact redo_keeps (P := (· = s.db)) (fun c hc w hw => (Query.exec_isRead (hreads c hc) _ w).trans hw) rfl

end

end Rvep.Backend
