import Rvep.Backend.HandlerContracts
import Rvep.Backend.Holder

/-!
# Operator tokens and the lease

An operator token is checked against the lease once, and outlives it. No
operator is given a token while somebody else holds the vehicle; a token given
before the lease was created stays good until it expires.
-/

namespace Rvep.Backend

open Interleaving Reactive

-- ---------------------------------------------------------------------------
-- Leases only age
-- ---------------------------------------------------------------------------

/-- A lease that is there stays the lease it is, and is never activated. -/
structure Db.Ages (db db' : Db) : Prop where
  vehicles : db'.vehicles = db.vehicles
  length : db.leases.length ≤ db'.leases.length
  row : ∀ (i : Nat) (row' : LeaseRow), i < db.leases.length → db'.leases[i]? = some row' →
    ∃ row : LeaseRow, db.leases[i]? = some row ∧ row'.vehicleId = row.vehicleId ∧
      row'.operatorId = row.operatorId ∧ row'.expiresAt = row.expiresAt ∧
        (row'.status = .active → row.status = .active)

section
variable {db db' db'' : Db}

theorem Db.Ages.of_eq (hv : db'.vehicles = db.vehicles) (h : db'.leases = db.leases) :
    db.Ages db' := by
  refine ⟨hv, h ▸ le_refl _, fun i row _ hrow => ?_⟩
  rw [h] at hrow
  exact ⟨row, hrow, rfl, rfl, rfl, id⟩

theorem Db.Ages.trans (h : db.Ages db') (h' : db'.Ages db'') : db.Ages db'' := by
  refine ⟨h'.vehicles.trans h.vehicles, h.length.trans h'.length, fun i row'' hi hrow'' => ?_⟩
  obtain ⟨row', hrow', hv', ho', he', hs'⟩ := h'.row i row'' (hi.trans_le h.length) hrow''
  obtain ⟨row, hrow, hv, ho, he, hs⟩ := h.row i row' hi hrow'
  exact ⟨row, hrow, hv'.trans hv, ho'.trans ho, he'.trans he, hs ∘ hs'⟩

theorem ages_modify {id : Nat} {data : LeaseUpdate} (hd : data.status ≠ .active) :
    db.Ages { db with leases := db.leases.modify id (·.update data) } := by
  refine ⟨rfl, (List.length_modify ..).ge, fun i row' _ hrow' => ?_⟩
  by_cases hi : id = i
  · subst hi
    rw [List.getElem?_modify_eq] at hrow'
    obtain ⟨row, hrow, rfl⟩ := Option.map_eq_some_iff.mp hrow'
    exact ⟨row, hrow, rfl, rfl, rfl, fun hs => absurd hs hd⟩
  · rw [List.getElem?_modify_ne _ _ hi] at hrow'
    exact ⟨row', hrow', rfl, rfl, rfl, fun hs => hs⟩

theorem ages_append (row : LeaseRow) : db.Ages { db with leases := db.leases ++ [row] } := by
  refine ⟨rfl, ?_, fun i row' hi hrow' => ?_⟩
  · rw [List.length_append]
    exact Nat.le_add_right _ _
  · rw [List.getElem?_append_left hi] at hrow'
    exact ⟨row', hrow', rfl, rfl, rfl, id⟩

theorem Db.Retires.ages (h : db.Retires db') (hv : db'.vehicles = db.vehicles) : db.Ages db' := by
  rcases h with h | ⟨id, data, hd, h⟩
  · exact .of_eq hv h
  · exact (ages_modify hd).trans (.of_eq hv h)

theorem ages_commit (userId : String) (vehicle : Vehicle) (session : Session) (now t : Time) (db : Db) :
    db.Ages ((claimTransaction userId vehicle session now).commit t db).1 := by
  rcases commit_claimTransaction userId vehicle session now t db with
    ⟨_, -, hcommit⟩ | ⟨-, ⟨-, hcommit⟩ | ⟨-, hcommit⟩⟩
  · exact hcommit ▸ .of_eq rfl rfl
  · have hretired : db.Retires { db with leases := db.retired vehicle.id (released now) } :=
      retires_of_retired (released_not_active now) rfl
    rw [hcommit]
    exact (hretired.ages rfl).trans (ages_append _)
  · exact hcommit ▸ .of_eq rfl rfl

end

/-- Whatever the table, the call ages its leases and leaves one ACTIVE at most. -/
def Call.Safe (c : Call) : Prop :=
  ∀ e db, db.Exclusive → db.Ages (Call.exec e db c).1 ∧ (Call.exec e db c).1.Exclusive

theorem safe_of_eq {c : Call} (h : ∀ e db, (Call.exec e db c).1.vehicles = db.vehicles ∧
    (Call.exec e db c).1.leases = db.leases) : c.Safe := by
  intro e db he
  obtain ⟨hv, hl⟩ := h e db
  exact ⟨.of_eq hv hl, (Db.Exclusive.congr hl).mpr he⟩

theorem safe_quiet (c : Call) (h : c.isQuiet = true) : c.Safe := by
  refine safe_of_eq fun e db => ?_
  obtain ⟨events, hexec⟩ := Call.exec_isQuiet h e db
  rw [hexec]
  exact ⟨rfl, rfl⟩

theorem safe_update {id : Nat} {data : LeaseUpdate} (hd : data.status ≠ .active) :
    Call.Safe (.query (.leaseUpdate id data)) := by
  intro e db he
  simp only [Call.exec, Query.exec]
  split
  · exact ⟨.of_eq rfl rfl, he⟩
  · simp only [Query.answer]
    split
    · exact ⟨ages_modify hd, (deactivates_modify hd).exclusive he⟩
    · exact ⟨.of_eq rfl rfl, he⟩

theorem safe_transaction (userId : String) (vehicle : Vehicle) (session : Session) (now : Time) :
    Call.Safe (.transaction (claimTransaction userId vehicle session now)) := by
  intro e db he
  rw [Call.exec_transaction]
  split
  · exact ⟨.of_eq rfl rfl, he⟩
  · exact ⟨ages_commit userId vehicle session now e.now db, (commit_settles he).2⟩

theorem claim_safe (req : LeaseRequest) : (claim req).AllCalls Call.Safe :=
  claim_allCalls safe_quiet safe_transaction req

theorem release_safe (req : LeaseRequest) : (release req).AllCalls Call.Safe := by
  unfold release
  refine allCalls_caller fun ctx _ => allCalls_query (safe_quiet _ rfl) fun vehicle? => ?_
  cases vehicle? with
  | none => trivial
  | some vehicle =>
    refine allCalls_now (safe_quiet _ rfl) fun now => allCalls_query (safe_quiet _ rfl) fun lease? => ?_
    cases lease? with
    | none => trivial
    | some lease =>
      simp only
      split
      · trivial
      · refine allCalls_query (safe_update nofun) fun _ => ?_
        exact allCalls_audit (safe_quiet _ rfl) trivial

/-- Whoever is not an admin takes nothing over. -/
theorem takeover_safe {req : LeaseRequest} (h : ∀ ctx, req.caller = some ctx → ctx.role ≠ .admin) :
    (takeover req).AllCalls Call.Safe := by
  unfold takeover
  refine allCalls_caller fun ctx hctx => allCalls_orThrow fun body => ?_
  have hrole : (ctx.role != .admin) = true := by simpa using h ctx hctx
  simp only [hrole, if_true]
  trivial

-- ---------------------------------------------------------------------------
-- Requests
-- ---------------------------------------------------------------------------

inductive ControlRequest
  | lease (route : LeaseRoute)
  | token (req : TokenRequest)

def LeaseRoute.caller : LeaseRoute → Caller
  | .claim req | .takeover req | .release req => req.caller

def ControlRequest.caller : ControlRequest → Caller
  | .lease route => route.caller
  | .token req => req.caller

def ControlRequest.handler (lk : Livekit) : ControlRequest → Prog Call Call.Reply Response
  | .lease route => route.handler
  | .token req => livekitToken lk req

/-- A request of a user who is not an admin. -/
structure FieldRequest where
  request : ControlRequest
  notAdmin : ∀ ctx, request.caller = some ctx → ctx.role ≠ .admin

/-- Environments whose clock has not passed `t`. -/
abbrev UpTo (t : Time) := { e : Choice // e.now ≤ t }

/-- A request remembers its lease check: how long the table was, and the instant it asked about. -/
abbrev Check := Option (Nat × Time)

def tokenWorld (t : Time) : World Call Call.Reply Db (UpTo t) Check where
  exec e := Call.exec e.val
  blank := none
  observe n db c r :=
    match c, r with
    | .query (.leaseFindAny _ now), .ok _ => some (db.leases.length, now)
    | _, _ => n

abbrev ControlTask := Task FieldRequest Call Call.Reply Response Check

/-- The task was answered with an operator token of `userId` for the vehicle's room. -/
def OperatorToken (lk : Livekit) (task : ControlTask) (userId vehicleId : String) (expiresAt : Time) :
    Prop :=
  ∃ req ctx body r, task.request.request = .token req ∧ req.caller = some ctx ∧
    ctx.userId = userId ∧ validateBody req.body livekitTokenSchema = .ok body ∧
    body.role = .operator ∧ body.vehicleId = vehicleId ∧ task.prog = .done r ∧ r.status = 200 ∧
    r.field? "expiresAt" = some (.instant expiresAt) ∧
    ∃ config identity grant signedAt, r.field? "token" =
        some (.text (lk.toJwt config identity tokenTtlSeconds grant signedAt)) ∧
      grant.room = roomName vehicleId ∧ grant.canPublishData = true

/-- Of the first `length` leases, none that is ACTIVE on the vehicle and not
expired at `checkedAt` is another user's. -/
def Db.OthersOut (db : Db) (length : Nat) (checkedAt : Time) (vehicleId userId : String) : Prop :=
  ∀ (i : Nat) (row : LeaseRow), i < length → db.leases[i]? = some row → row.vehicleId = vehicleId →
    row.status = .active → checkedAt < row.expiresAt → row.operatorId = userId

/-- An operator token was given after a check that kept every other operator out. -/
def Checked (start : Db) (t : Time) (route : FieldRequest) (n : Check) (r : Response) (db : Db) :
    Prop :=
  ∀ req ctx body vehicle, route.request = .token req → req.caller = some ctx →
    validateBody req.body livekitTokenSchema = .ok body → body.role = .operator →
    start.vehicle? body.vehicleId = some vehicle → r.status = 200 →
      ∃ length checkedAt, n = some (length, checkedAt) ∧ length ≤ db.leases.length ∧ checkedAt ≤ t ∧
        db.OthersOut length checkedAt vehicle.id ctx.userId

def tokenExclusion (start : Db) (t : Time) :
    Contract FieldRequest Call Response Db (UpTo t) Check where
  inv db := db.Exclusive ∧ db.vehicles = start.vehicles
  rely := Db.Ages
  here route n q db := ∀ r, q = .finished r → Checked start t route n r db
  guar _ _ _ _ db _ _ db' := db.Ages db' ∧ db'.Exclusive
  refl _ := .of_eq rfl rfl
  trans h h' := h.trans h'
  rely_of_guar h := h.1

abbrev KeepsTokens (start : Db) (t : Time) (route : FieldRequest) (n : Check)
    (prog : Prog Call Call.Reply Response) (db : Db) : Prop :=
  (tokenExclusion start t).Kept (tokenWorld t) route n prog db

section
variable {start : Db} {t : Time} {route : FieldRequest} {n : Check} {db db' : Db}

theorem Db.OthersOut.ages {length : Nat} {checkedAt : Time} {vehicleId userId : String}
    (h : db.OthersOut length checkedAt vehicleId userId) (hl : length ≤ db.leases.length)
    (ha : db.Ages db') : db'.OthersOut length checkedAt vehicleId userId := by
  intro i row' hi hrow' hv hs hlt
  obtain ⟨row, hrow, hv', ho, he, hs'⟩ := ha.row i row' (hi.trans_le hl) hrow'
  rw [ho]
  exact h i row hi hrow (hv'.symm.trans hv) (hs' hs) (he ▸ hlt)

theorem Checked.ages {r : Response} (h : Checked start t route n r db) (ha : db.Ages db') :
    Checked start t route n r db' := by
  intro req ctx body vehicle hreq hctx hbody hrole hvehicle hok
  obtain ⟨length, checkedAt, hn, hl, ht, hout⟩ := h req ctx body vehicle hreq hctx hbody hrole hvehicle hok
  exact ⟨length, checkedAt, hn, hl.trans ha.length, ht, hout.ages hl ha⟩

theorem token_runs (t : Time) : Runs (tokenWorld t) Subtype.val := fun _ _ _ => rfl

theorem keepsTokens_done {r : Response} (h : Checked start t route n r db) :
    KeepsTokens start t route n (.done r) db := by
  refine kept_done fun db' ha _ r' hr => ?_
  obtain rfl : r = r' := by simpa using hr
  exact h.ages ha

theorem keepsTokens_refused {r : Response} (h : r.status ≠ 200) :
    KeepsTokens start t route n (.done r) db :=
  keepsTokens_done fun _ _ _ _ _ _ _ _ _ hok => absurd hok h

theorem keepsTokens_read {q : Query} {f : q.Reply → Handler Response} (hq : q.isRead = true)
    (hfind : ∀ v t, q ≠ .leaseFindAny v t)
    (hf : ∀ db' v, db'.vehicles = start.vehicles → (∀ now, q.answer now db' = (db', .ok v)) →
      KeepsTokens start t route n (Handler.serve (f v)) db') :
    KeepsTokens start t route n (Handler.serve (Handler.query q >>= f)) db := by
  refine kept_read (token_runs t) hq (fun _ _ _ => nofun) (fun _ _ _ _ _ hi => ⟨.of_eq rfl rfl, hi.1⟩)
    (fun _ _ _ => keepsTokens_refused nofun) fun db' v _ hi hv => ?_
  have hnote : (tokenWorld t).observe n db' (.query q) (.ok v) = n := by
    cases q with
    | leaseFindAny w now => exact absurd rfl (hfind w now)
    | _ => rfl
  rw [hnote]
  exact hf db' v hi.2 hv

theorem keepsTokens_now {f : Time → Handler Response}
    (hf : ∀ now db', now ≤ t → db.Ages db' → KeepsTokens start t route n (Handler.serve (f now)) db') :
    KeepsTokens start t route n (Handler.serve (Handler.now >>= f)) db :=
  kept_now (token_runs t) (fun _ _ _ => nofun) (fun _ _ _ _ _ hi => ⟨.of_eq rfl rfl, hi.1⟩)
    fun db' e ha _ => hf _ db' e.property ha

theorem keepsTokens_audit {event : EventData} {f : Unit → Handler Response}
    (hf : ∀ db', db.Ages db' → KeepsTokens start t route n (Handler.serve (f ())) db') :
    KeepsTokens start t route n (Handler.serve (audit event >>= f)) db := by
  refine kept_audit (token_runs t) (fun _ _ _ => nofun) ?_ ?_
  · intro db' events _ _ _ _ hi
    exact ⟨.of_eq rfl rfl, (Db.Exclusive.congr rfl).mpr hi.1⟩
  · intro db' events r ha hi
    exact hf _ (ha.trans (.of_eq rfl rfl))

theorem keepsTokens_find {v : String} {now : Time} {f : Option ControlLease → Handler Response}
    (hf : ∀ db', db'.Exclusive → KeepsTokens start t route (some (db'.leases.length, now))
      (Handler.serve (f (db'.anyLease? v now))) db') :
    KeepsTokens start t route n (Handler.serve (Handler.query (.leaseFindAny v now) >>= f)) db := by
  refine kept_read (token_runs t) rfl (fun _ _ _ => nofun)
    (fun _ _ _ _ _ hi => ⟨.of_eq rfl rfl, hi.1⟩) (fun _ _ _ => keepsTokens_refused nofun)
    fun db' lease? _ hi hl => ?_
  obtain rfl : db'.anyLease? v now = lease? := Query.value_eq hl rfl
  exact hf db' hi.1

/-- Once the check is passed, nothing until the answer undoes it. -/
theorem keepsTokens_issue {lk : Livekit} {userId vehicleId internalId : String} {role : LivekitRole}
    (h : ∀ r, Checked start t route n r db) :
    KeepsTokens start t route n
      (Handler.serve (issueAndRespond lk userId vehicleId internalId role)) db := by
  unfold issueAndRespond issueLivekitToken
  cases getLivekitConfig lk with
  | error err => exact keepsTokens_refused nofun
  | ok config =>
    simp only
    rw [bind_assoc]
    refine keepsTokens_now fun _ _ _ h₁ => ?_
    rw [bind_assoc]
    refine keepsTokens_now fun _ _ _ h₂ => ?_
    rw [pure_bind]
    exact keepsTokens_audit fun _ h₃ => keepsTokens_done ((h _).ages ((h₁.trans h₂).trans h₃))

theorem checked_of_role {r : Response} {req : TokenRequest} {body : LivekitTokenBody}
    (hreq : route.request = .token req)
    (hbody : validateBody req.body livekitTokenSchema = .ok body) (hrole : body.role ≠ .operator) :
    Checked start t route n r db := by
  intro req' ctx body' vehicle hreq' _ hbody' hrole'
  obtain rfl : req = req' := by simpa using hreq.symm.trans hreq'
  obtain rfl : body = body' := Except.ok.inj (hbody.symm.trans hbody')
  exact absurd hrole' hrole

theorem keepsTokens_operatorToken {lk : Livekit} {req : TokenRequest} {ctx : AuthContext}
    {body : LivekitTokenBody} {vehicle : Vehicle} (hreq : route.request = .token req)
    (hctx : req.caller = some ctx) (hbody : validateBody req.body livekitTokenSchema = .ok body)
    (hvehicle : start.vehicle? body.vehicleId = some vehicle) :
    KeepsTokens start t route n (Handler.serve (operatorToken lk ctx body vehicle)) db := by
  unfold operatorToken
  refine keepsTokens_now fun now _ hnow _ => keepsTokens_find fun db' he => ?_
  -- what the check found says who may hold an unexpired lease at `now`
  have hchecked (h : db'.OthersOut db'.leases.length now vehicle.id ctx.userId) (r : Response) :
      Checked start t route (some (db'.leases.length, now)) r db' := by
    intro req' ctx' body' vehicle' hreq' hctx' hbody' _ hvehicle' _
    obtain rfl : req = req' := by simpa using hreq.symm.trans hreq'
    obtain rfl : ctx = ctx' := Option.some.inj (hctx.symm.trans hctx')
    obtain rfl : body = body' := Except.ok.inj (hbody.symm.trans hbody')
    obtain rfl : vehicle = vehicle' := Option.some.inj (hvehicle.symm.trans hvehicle')
    exact ⟨_, _, rfl, le_refl _, hnow, h⟩
  have hfound {i : Nat} {row : LeaseRow} (hrow : db'.leases[i]? = some row)
      (hv : row.vehicleId = vehicle.id) (hs : row.status = .active) (hlt : now < row.expiresAt) :
      db'.activeLease? vehicle.id (some now) = some ⟨row, i⟩ := by
    have hheld : db'.Held i row := ⟨hrow, hs, fun j hj => he _ j i hj ⟨row, hrow, rfl, hs⟩⟩
    rw [← hv]
    exact hheld.activeLease? fun t ht => Option.some.inj ht ▸ hlt
  rw [anyLease?_eq he]
  cases hl : db'.activeLease? vehicle.id (some now) with
  | none =>
    refine keepsTokens_issue (hchecked fun i row _ hrow hv hs hlt => ?_)
    exact absurd (hl.symm.trans (hfound hrow hv hs hlt)) nofun
  | some lease =>
    simp only
    split
    next => exact keepsTokens_audit fun _ _ => keepsTokens_refused nofun
    next hmine =>
      refine keepsTokens_issue (hchecked fun i row _ hrow hv hs hlt => ?_)
      obtain rfl : lease = ⟨row, i⟩ := Option.some.inj (hl.symm.trans (hfound hrow hv hs hlt))
      simpa using hmine

theorem keepsTokens_token {lk : Livekit} {req : TokenRequest} (hreq : route.request = .token req) :
    KeepsTokens start t route n (livekitToken lk req) db := by
  unfold livekitToken
  refine kept_caller (fun _ => keepsTokens_refused nofun) fun ctx hctx => ?_
  refine kept_orThrow (fun err hbody => keepsTokens_done ?_) fun body hbody => ?_
  · intro req' ctx' body' vehicle hreq' _ hbody'
    obtain rfl : req = req' := by simpa using hreq.symm.trans hreq'
    exact absurd (hbody.symm.trans hbody') nofun
  refine keepsTokens_read rfl nofun fun db' vehicle? hvehicles hv => ?_
  obtain rfl : db'.vehicle? body.vehicleId = vehicle? := Query.value_eq hv rfl
  cases hvehicle : db'.vehicle? body.vehicleId with
  | none => exact keepsTokens_audit fun _ _ => keepsTokens_refused nofun
  | some vehicle =>
    have hfound : start.vehicle? body.vehicleId = some vehicle := by
      rw [← hvehicle, Db.vehicle?, Db.vehicle?, hvehicles]
    simp only
    split
    next hadmin =>
      have hrole : (ctx.role != .admin) = true := by
        have hcaller : route.request.caller = some ctx := by rw [hreq]; exact hctx
        simpa using route.notAdmin ctx hcaller
      simp only [adminToken, hrole, if_true]
      exact keepsTokens_audit fun _ _ => keepsTokens_refused nofun
    next =>
      refine keepsTokens_read rfl nofun fun _ permission? _ _ => ?_
      cases permission? with
      | none => exact keepsTokens_audit fun _ _ => keepsTokens_refused nofun
      | some permission =>
        simp only
        split
        · exact keepsTokens_audit fun _ _ => keepsTokens_refused nofun
        · split
          next => exact keepsTokens_operatorToken hreq hctx hbody hfound
          next hviewer =>
            exact keepsTokens_issue fun _ => checked_of_role hreq hbody (by simpa using hviewer)

theorem keepsTokens_lease {lease : LeaseRoute} (hreq : route.request = .lease lease) :
    KeepsTokens start t route n lease.handler db := by
  have hsafe : lease.handler.AllCalls Call.Safe := by
    have hadmin : ∀ ctx, lease.caller = some ctx → ctx.role ≠ .admin := by
      have hnot := route.notAdmin
      rwa [hreq] at hnot
    cases lease with
    | claim req => exact claim_safe req
    | takeover req => exact takeover_safe hadmin
    | release req => exact release_safe req
  refine hsafe.kept (fun n q db r _ => ?_) fun e _ c db _ _ hc hi => hc e.val db hi.1
  intro req _ _ _ hreq'
  exact absurd (hreq.symm.trans hreq') nofun

end

-- ---------------------------------------------------------------------------
-- Every interleaving
-- ---------------------------------------------------------------------------

abbrev ControlPool := Pool FieldRequest Call Call.Reply Response Db Check

/-- Lease and token requests at once, one call a step, while the clock reads up to `t`. -/
def controlSystem (lk : Livekit) (start : Db) (t : Time) :
    System ControlPool (Event FieldRequest (UpTo t)) Unit :=
  pool (tokenWorld t) (fun route => route.request.handler lk) start

/-- At `t`, an operator token for the vehicle of row `i`, still good, that is
not its operator's. -/
def ForeignToken (lk : Livekit) (t : Time) (p : ControlPool) (i : Nat) (task : ControlTask) : Prop :=
  ∃ row vehicle userId vehicleId expiresAt, p.world.leases[i]? = some row ∧
    row.status = .active ∧ t < row.expiresAt ∧ p.world.vehicle? vehicleId = some vehicle ∧
    row.vehicleId = vehicle.id ∧ task ∈ p.tasks ∧
    OperatorToken lk task userId vehicleId expiresAt ∧ t < expiresAt ∧ userId ≠ row.operatorId

/-- While an operator holds a vehicle, an operator token of anybody else that
is still good passed its check before that lease was created. -/
theorem foreign_token_checked_before_lease (lk : Livekit) (start : Db) (h : start.Exclusive)
    (t : Time) (es : List (Event FieldRequest (UpTo t))) :
    let p := (controlSystem lk start t).state ((controlSystem lk start t).log es)
    ∀ i task, ForeignToken lk t p i task →
      ∃ length checkedAt, task.note = some (length, checkedAt) ∧ length ≤ i := by
  rintro p i task ⟨row, vehicle, userId, vehicleId, expiresAt, hrow, hs, hlt, hvehicle, hv, htask,
    ⟨req, ctx, body, r, hreq, hctx, rfl, hbody, hrole, rfl, hdone, hok, -⟩, -, hforeign⟩
  have hkept : p.Kept (tokenWorld t) (tokenExclusion start t) := by
    have hstart : (tokenExclusion start t).inv start := ⟨h, rfl⟩
    refine Pool.Kept.run ?_ ?_ hstart es
    · intro route db _
      cases hroute : route.request with
      | lease lease => exact keepsTokens_lease hroute
      | token req => exact keepsTokens_token hroute
    · intro _ _ _ _ _ _ _ _ hi hguar
      exact ⟨hguar.2, hguar.1.vehicles.trans hi.2⟩
  have hfound : start.vehicle? body.vehicleId = some vehicle := by
    rw [← hvehicle, Db.vehicle?, Db.vehicle?, hkept.inv.2]
  have hfinished : task.prog.point = .finished r := by rw [hdone]; rfl
  obtain ⟨length, checkedAt, hn, -, ht, hout⟩ := (hkept.tasks task htask).here hkept.inv r hfinished
    req ctx body vehicle hreq hctx hbody hrole hfound hok
  refine ⟨length, checkedAt, hn, not_lt.mp fun hi => ?_⟩
  exact hforeign (hout i row hi hrow hv hs (lt_of_le_of_lt ht hlt)).symm

private def convoy : Db where
  users :=
    [⟨"alice", "alice@rvep.dev", "", .operator, 0, none, 0⟩,
      ⟨"bob", "bob@rvep.dev", "", .operator, 0, none, 0⟩]
  vehicles := [⟨"v1", "vehicle-001", "UGV 1", .wheeled, .online⟩]
  permissions := [⟨"alice", "v1", .operator, 1, none, 0⟩, ⟨"bob", "v1", .operator, 2, none, 0⟩]
  sessions := [⟨"s1", "web-alice", "v1", "alice", 1, .active, 0, .control⟩]
  leases := []
  events := []

private def cloud : Livekit where
  apiKey := some "devkey"
  apiSecret := some "secret"
  url := some "ws://localhost:7880"
  toJwt _ identity _ grant _ := identity ++ "@" ++ grant.room

private def bobToken : FieldRequest where
  request := .token ⟨some ⟨"bob", .operator⟩,
    some (.obj [("vehicleId", .str "vehicle-001"), ("role", .str "operator")])⟩
  notAdmin ctx hctx := by
    rw [← Option.some.inj hctx]
    decide

private def aliceLater : FieldRequest where
  request := .lease (.claim ⟨some ⟨"alice", .operator⟩, "vehicle-001",
    some (.obj [("sessionId", .str "web-alice")])⟩)
  notAdmin ctx hctx := by
    rw [← Option.some.inj hctx]
    decide

/-- Bob is given an operator token, then Alice claims the vehicle. Newest first. -/
private def bobThenAlice : List (Event FieldRequest (UpTo 3000)) :=
  List.replicate 6 (.step 1 ⟨⟨3000, false⟩, by decide⟩) ++
    List.replicate 7 (.step 0 ⟨⟨1000, false⟩, by decide⟩) ++ [.spawn aliceLater, .spawn bobToken]

private theorem convoy_exclusive : convoy.Exclusive := by
  rintro v i j ⟨row, hrow, -⟩
  exact absurd hrow nofun

theorem foreign_token_checked_before_lease_bob :
    convoy.Exclusive ∧
      let p := (controlSystem cloud convoy 3000).state ((controlSystem cloud convoy 3000).log bobThenAlice)
      ∀ i task, ForeignToken cloud 3000 p i task →
        ∃ length checkedAt, task.note = some (length, checkedAt) ∧ length ≤ i :=
  ⟨convoy_exclusive, foreign_token_checked_before_lease cloud convoy convoy_exclusive 3000 bobThenAlice⟩

/-- Alice holds the vehicle, and Bob a token to drive it. -/
theorem token_outlives_check :
    convoy.Exclusive ∧ ∃ i task, ForeignToken cloud 3000
      ((controlSystem cloud convoy 3000).state ((controlSystem cloud convoy 3000).log bobThenAlice))
      i task := by
  refine ⟨convoy_exclusive, 0, _, _, _, "bob", "vehicle-001", 3601000, rfl, rfl, by decide, rfl, rfl,
    List.mem_cons_self, ⟨_, _, _, _, rfl, rfl, rfl, rfl, rfl, rfl, rfl, rfl, rfl, ?_⟩, by decide, by decide⟩
  exact ⟨⟨"devkey", "secret", "ws://localhost:7880"⟩, "operator-bob",
    buildGrants (roomName "vehicle-001") .operator, 1000, rfl, rfl, rfl⟩

end Rvep.Backend
