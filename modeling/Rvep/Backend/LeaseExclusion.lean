import Rvep.Backend.ControlLease

/-!
# One ACTIVE lease per vehicle

Claims, takeovers and releases interleaved call by call. A claim keeps the
table exclusive by itself. A takeover inserts its lease some calls after it
looked for the one to revoke, and the table stays exclusive exactly when no
lease inserted in between is still ACTIVE.
-/

namespace Rvep.Backend

open Interleaving Reactive

-- ---------------------------------------------------------------------------
-- Active leases
-- ---------------------------------------------------------------------------

def Db.ActiveAt (db : Db) (vehicleId : String) (i : Nat) : Prop :=
  ∃ row, db.leases[i]? = some row ∧ row.vehicleId = vehicleId ∧ row.status = .active

def Db.Exclusive (db : Db) : Prop :=
  ∀ v i j, db.ActiveAt v i → db.ActiveAt v j → i = j

/-- Leases are only added, and one that is there is never activated. -/
structure Db.Settles (db db' : Db) : Prop where
  length : db.leases.length ≤ db'.leases.length
  active : ∀ v i, i < db.leases.length → db'.ActiveAt v i → db.ActiveAt v i

section
variable {db db' db'' : Db} {v : String} {i : Nat}

theorem Db.ActiveAt.lt (h : db.ActiveAt v i) : i < db.leases.length := by
  obtain ⟨row, hrow, -⟩ := h
  exact (List.getElem?_eq_some_iff.mp hrow).1

theorem Db.Settles.refl (db : Db) : db.Settles db := ⟨le_refl _, fun _ _ _ h => h⟩

theorem Db.Settles.trans (h : db.Settles db') (h' : db'.Settles db'') : db.Settles db'' :=
  ⟨h.length.trans h'.length,
    fun v i hi ha => h.active v i hi (h'.active v i (hi.trans_le h.length) ha)⟩

theorem Db.ActiveAt.congr (h : db'.leases = db.leases) : db'.ActiveAt v i ↔ db.ActiveAt v i := by
  unfold Db.ActiveAt
  rw [h]

theorem Db.Settles.of_eq (h : db'.leases = db.leases) : db.Settles db' :=
  ⟨h ▸ le_refl _, fun _ _ _ => (Db.ActiveAt.congr h).mp⟩

theorem Db.Exclusive.congr (h : db'.leases = db.leases) : db'.Exclusive ↔ db.Exclusive := by
  unfold Db.Exclusive
  simp only [Db.ActiveAt.congr h]

def Db.Deactivates (db : Db) (id : Nat) (db' : Db) : Prop :=
  db'.leases.length = db.leases.length ∧ ∀ v i, db'.ActiveAt v i ↔ db.ActiveAt v i ∧ i ≠ id

def Db.Inserts (db : Db) (v : String) (db' : Db) : Prop :=
  db'.leases.length = db.leases.length + 1 ∧
    ∀ v' i, db'.ActiveAt v' i ↔ db.ActiveAt v' i ∨ v' = v ∧ i = db.leases.length

theorem Db.Deactivates.settles {id : Nat} (h : db.Deactivates id db') : db.Settles db' :=
  ⟨h.1.ge, fun v i _ ha => ((h.2 v i).mp ha).1⟩

theorem Db.Deactivates.exclusive {id : Nat} (h : db.Deactivates id db') (he : db.Exclusive) :
    db'.Exclusive := by
  intro v i j hi hj
  exact he v i j ((h.2 v i).mp hi).1 ((h.2 v j).mp hj).1

theorem Db.Inserts.settles (h : db.Inserts v db') : db.Settles db' := by
  refine ⟨by rw [h.1]; exact Nat.le_succ _, ?_⟩
  intro v' i hi ha
  rcases (h.2 v' i).mp ha with ha | ⟨-, rfl⟩
  · exact ha
  · exact absurd hi (lt_irrefl _)

/-- An insert keeps an exclusive table exclusive just when the vehicle has no ACTIVE lease. -/
theorem Db.Inserts.exclusive_iff (h : db.Inserts v db') (he : db.Exclusive) :
    db'.Exclusive ↔ ∀ i, ¬ db.ActiveAt v i := by
  constructor
  · intro he' i hi
    have heq := he' v i db.leases.length ((h.2 v i).mpr (.inl hi)) ((h.2 v _).mpr (.inr ⟨rfl, rfl⟩))
    exact absurd hi.lt (heq ▸ lt_irrefl _)
  · intro hnone v' i j hi hj
    rcases (h.2 v' i).mp hi with hi | ⟨rfl, rfl⟩
    · rcases (h.2 v' j).mp hj with hj | ⟨rfl, -⟩
      · exact he v' i j hi hj
      · exact absurd hi (hnone i)
    · rcases (h.2 _ j).mp hj with hj | ⟨-, rfl⟩
      · exact absurd hj (hnone j)
      · rfl

-- ---------------------------------------------------------------------------
-- Reading and writing
-- ---------------------------------------------------------------------------

theorem mem_readLeases {l : ControlLease} :
    l ∈ db.readLeases ↔ db.leases[l.id]? = some l.toLeaseRow := by
  obtain ⟨row, id⟩ := l
  simp only [Db.readLeases, List.mem_map, Prod.exists, ControlLease.mk.injEq, ↓existsAndEq, and_true,
    List.mem_zipIdx_iff_getElem?, exists_eq_right_right]

theorem activeLease?_some {l : ControlLease} {expiresAfter : Option Time}
    (h : db.activeLease? v expiresAfter = some l) : db.ActiveAt v l.id := by
  have hmem := List.argmax_mem h
  rw [List.mem_filter, mem_readLeases] at hmem
  simp only [Bool.and_eq_true, beq_iff_eq] at hmem
  exact ⟨l.toLeaseRow, hmem.1, hmem.2.1.1, hmem.2.1.2⟩

theorem activeLease?_none (h : db.activeLease? v none = none) : ¬ db.ActiveAt v i := by
  rintro ⟨row, hrow, hv, hs⟩
  have hempty := List.argmax_eq_none.mp h
  have hmem : (⟨row, i⟩ : ControlLease) ∈ db.readLeases := mem_readLeases.mpr hrow
  have hnot := (List.filter_eq_nil_iff.mp hempty) _ hmem
  simp [hv, hs] at hnot

theorem deactivates_modify {id : Nat} {data : LeaseUpdate} (hd : data.status ≠ .active) :
    db.Deactivates id { db with leases := db.leases.modify id (·.update data) } := by
  refine ⟨List.length_modify .., ?_⟩
  intro v i
  by_cases hid : i = id
  · subst hid
    refine ⟨?_, fun h => absurd rfl h.2⟩
    rintro ⟨row, hrow, -, hs⟩
    rw [List.getElem?_modify_eq] at hrow
    obtain ⟨old, -, rfl⟩ := Option.map_eq_some_iff.mp hrow
    exact absurd hs hd
  · simp [Db.ActiveAt, List.getElem?_modify_ne _ _ (Ne.symm hid), hid]

theorem inserts_append {row : LeaseRow} (hs : row.status = .active) :
    db.Inserts row.vehicleId { db with leases := db.leases ++ [row] } := by
  refine ⟨List.length_append, ?_⟩
  intro v i
  simp only [Db.ActiveAt, List.getElem?_append, List.getElem?_singleton]
  split
  next hlt => simp [hlt.ne]
  next hge =>
    have hnone : db.leases[i]? = none := List.getElem?_eq_none (not_lt.mp hge)
    rw [hnone]
    split
    next h0 => simp [hs, eq_comm]; omega
    next h0 => simp; omega

theorem answer_leaseCreate (db : Db) {data : LeaseData} (now : Time) (hs : data.status = .active) :
    (db.references data = true ∧ ∃ db' lease, db.Inserts data.vehicleId db' ∧
        (Query.leaseCreate data).answer now db = (db', .ok lease)) ∨
      db.references data = false ∧
        (Query.leaseCreate data).answer now db = (db, .error .foreignKey) := by
  simp only [Query.answer]
  split
  next hr => exact .inl ⟨hr, _, _, inserts_append hs, rfl⟩
  next hr => exact .inr ⟨by simpa using hr, rfl⟩

theorem answer_leaseUpdate (db : Db) (id : Nat) {data : LeaseUpdate} (now : Time)
    (hd : data.status ≠ .active) :
    (id < db.leases.length ∧ ∃ leases, db.Deactivates id { db with leases := leases } ∧
        (Query.leaseUpdate id data).answer now db = ({ db with leases := leases }, .ok ())) ∨
      db.leases.length ≤ id ∧
        (Query.leaseUpdate id data).answer now db = (db, .error .recordNotFound) := by
  simp only [Query.answer]
  split
  next hlt => exact .inl ⟨hlt, _, deactivates_modify hd, rfl⟩
  next hge => exact .inr ⟨not_lt.mp hge, rfl⟩

-- ---------------------------------------------------------------------------
-- A claim's transaction
-- ---------------------------------------------------------------------------

theorem createLease_ensures {now t : Time} {userId : String} {vehicle : Vehicle} {session : Session}
    (he : db.Exclusive) (hnone : ∀ i, ¬ db.ActiveAt vehicle.id i) :
    Tx.Ensures t (do
        return .created (← Tx.query (.leaseCreate (newLease vehicle.id userId session now))))
      db fun (_ : ClaimResult) db' => db.Settles db' ∧ db'.Exclusive := by
  refine .query_bind ?_
  intro lease db' heq
  obtain ⟨-, db'', lease', hins, hok⟩ | ⟨-, herr⟩ :=
    answer_leaseCreate db t (newLease_active vehicle.id userId session now)
  · obtain ⟨rfl, -⟩ := Prod.mk.inj (heq.symm.trans hok)
    exact .pure ⟨hins.settles, (hins.exclusive_iff he).mpr hnone⟩
  · exact (outcome_error herr heq).elim

/-- A claim changes nothing, or retires the vehicle's ACTIVE lease, if it has
one, before it inserts another. -/
theorem claimTransaction_ensures {now t : Time} {userId : String} {vehicle : Vehicle}
    {session : Session} (he : db.Exclusive) :
    (claimTransaction userId vehicle session now).Ensures t db
      fun _ db' => db.Settles db' ∧ db'.Exclusive := by
  refine .query_bind ?_
  rintro ⟨⟩ db₁ ⟨⟩
  refine .query_bind ?_
  rintro existing db₂ heq
  obtain ⟨rfl, hfind⟩ := Prod.mk.inj heq
  obtain rfl : _ = existing := Except.ok.inj hfind
  cases hl : db.activeLease? vehicle.id none with
  | none => exact createLease_ensures he fun i => activeLease?_none hl
  | some l =>
    have hactive := activeLease?_some hl
    -- the lease to retire is the only one the vehicle has
    have hretire : Tx.Ensures t (do
        Tx.query (.leaseUpdate l.id (released now))
        return .created (← Tx.query (.leaseCreate (newLease vehicle.id userId session now))))
        db fun (_ : ClaimResult) db' => db.Settles db' ∧ db'.Exclusive := by
      refine .query_bind ?_
      intro _ mid hmid
      have hdown : db.Deactivates l.id mid := by
        obtain ⟨-, leases, hdown, hok⟩ | ⟨-, herr⟩ :=
          answer_leaseUpdate db l.id t (released_not_active now)
        · obtain ⟨rfl, -⟩ := Prod.mk.inj (hmid.symm.trans hok)
          exact hdown
        · exact (outcome_error herr hmid).elim
      have hnone : ∀ i, ¬ mid.ActiveAt vehicle.id i := by
        intro i hi
        obtain ⟨hi, hne⟩ := (hdown.2 vehicle.id i).mp hi
        exact hne (he vehicle.id i l.id hi hactive)
      intro a db' hrun
      obtain ⟨hset, hexc⟩ := createLease_ensures (hdown.exclusive he) hnone a db' hrun
      exact ⟨hdown.settles.trans hset, hexc⟩
    simp only
    split
    · exact hretire
    · split
      · exact .pure ⟨.refl db, he⟩
      · exact hretire

theorem commit_settles {now t : Time} {userId : String} {vehicle : Vehicle} {session : Session}
    (he : db.Exclusive) :
    let out := ((claimTransaction userId vehicle session now).commit t db).1
    db.Settles out ∧ out.Exclusive :=
  (claimTransaction_ensures he).commit (p := fun db' => db.Settles db' ∧ db'.Exclusive)
    (fun _ _ h => h) ⟨.refl db, he⟩

end

-- ---------------------------------------------------------------------------
-- The contract
-- ---------------------------------------------------------------------------

inductive LeaseRoute
  | claim (req : LeaseRequest)
  | takeover (req : LeaseRequest)
  | release (req : LeaseRequest)

def LeaseRoute.handler : LeaseRoute → Prog Call Call.Reply Response
  | .claim req => Backend.claim req
  | .takeover req => Backend.takeover req
  | .release req => Backend.release req

/-- A request remembers how long the lease table was when it last looked for
an ACTIVE lease. -/
def leaseWorld : World Call Call.Reply Db Choice Nat where
  exec := Call.exec
  blank := 0
  observe n db c _ :=
    match c with
    | .query (.leaseFindActive _ _) => db.leases.length
    | _ => n

/-- The call inserts a lease on a vehicle that has an ACTIVE one, inserted
since the request last looked. -/
def InsertsOver (e : Choice) (n : Nat) (c : Call) (db : Db) : Prop :=
  ∃ data i, c = .query (.leaseCreate data) ∧ e.fails = false ∧ db.references data = true ∧
    n ≤ i ∧ db.ActiveAt data.vehicleId i

def exclusion : Contract LeaseRoute Call Response Db Choice Nat where
  inv := Db.Exclusive
  rely := Db.Settles
  here _ _ _ _ := True
  guar _ e n c db _ _ db' := db.Settles db' ∧ (db'.Exclusive ↔ ¬ InsertsOver e n c db)
  refl := .refl
  trans := .trans
  rely_of_guar h := h.1

abbrev KeepsExclusion (route : LeaseRoute) (n : Nat) (prog : Prog Call Call.Reply Response)
    (db : Db) : Prop :=
  exclusion.Kept leaseWorld route n prog db

section
variable {route : LeaseRoute} {db : Db} {n : Nat}

theorem keepsExclusion_done (r : Response) : KeepsExclusion route n (.done r) db :=
  fun _ _ _ => trivial

theorem keepsExclusion_quiet {c : Call} {k : c.Reply → Prog Call Call.Reply Response}
    (hquiet : c.isQuiet = true)
    (hk : ∀ e db', db.Settles db' → db'.Exclusive →
      KeepsExclusion route (leaseWorld.observe n db' c (c.exec e db').2) (k (c.exec e db').2) db') :
    KeepsExclusion route n (.call c k) db := by
  intro db' hset hexc
  have hleases : ∀ e, (c.exec e db').1.leases = db'.leases := by
    intro e
    obtain ⟨events, hexec⟩ := Call.exec_isQuiet hquiet e db'
    rw [hexec]
  refine ⟨trivial, fun e => ⟨⟨.of_eq (hleases e), ?_⟩, fun _ => ?_⟩⟩
  · refine (Db.Exclusive.congr (hleases e)).trans ⟨fun _ => ?_, fun _ => hexc⟩
    rintro ⟨data, i, rfl, -⟩
    simp [Call.isQuiet, Query.isRead] at hquiet
  · exact (hk e db' hset hexc).mono (.of_eq (hleases e))

theorem keepsExclusion_read {q : Query} {f : q.Reply → Handler Response} (hq : q.isRead = true)
    (hfind : ∀ v t, q ≠ .leaseFindActive v t)
    (hf : ∀ v db', db.Settles db' → KeepsExclusion route n (Handler.serve (f v)) db') :
    KeepsExclusion route n (Handler.serve (Handler.query q >>= f)) db := by
  rw [serve_query_bind]
  refine keepsExclusion_quiet (isQuiet_read hq) fun e db' hset _ => ?_
  have hnote : leaseWorld.observe n db' (.query q) ((Call.query q).exec e db').2 = n := by
    cases q with
    | leaseFindActive v t => exact absurd rfl (hfind v t)
    | _ => rfl
  rw [hnote]
  cases ((Call.query q).exec e db').2 with
  | error err => exact keepsExclusion_done _
  | ok v => exact hf v db' hset

theorem keepsExclusion_now {f : Time → Handler Response}
    (hf : ∀ t db', db.Settles db' → KeepsExclusion route n (Handler.serve (f t)) db') :
    KeepsExclusion route n (Handler.serve (Handler.now >>= f)) db := by
  rw [serve_now_bind]
  exact keepsExclusion_quiet rfl fun e db' hset _ => hf e.now db' hset

theorem keepsExclusion_audit {event : EventData} {f : Unit → Handler Response}
    (hf : ∀ db', KeepsExclusion route n (Handler.serve (f ())) db') :
    KeepsExclusion route n (Handler.serve (audit event >>= f)) db := by
  rw [serve_audit_bind]
  exact keepsExclusion_quiet rfl fun e db' _ _ => hf db'

/-- No lease older than row `n` is ACTIVE on the vehicle. -/
def Db.Cleared (db : Db) (v : String) (n : Nat) : Prop :=
  n ≤ db.leases.length ∧ ∀ i, i < n → ¬ db.ActiveAt v i

theorem Db.Cleared.settles {db' : Db} {v : String} (h : db.Cleared v n) (hset : db.Settles db') :
    db'.Cleared v n :=
  ⟨h.1.trans hset.length, fun i hi ha => h.2 i hi (hset.active v i (hi.trans_le h.1) ha)⟩

theorem keepsExclusion_find {v : String} {t : Option Time}
    {f : (Query.leaseFindActive v t).Reply → Handler Response}
    (hf : ∀ db', db.Settles db' → db'.Exclusive →
      KeepsExclusion route db'.leases.length (Handler.serve (f (db'.activeLease? v t))) db') :
    KeepsExclusion route n (Handler.serve (Handler.query (.leaseFindActive v t) >>= f)) db := by
  rw [serve_query_bind]
  refine keepsExclusion_quiet rfl fun e db' hset hexc => ?_
  cases hfails : e.fails with
  | true =>
    rw [Call.exec, Query.exec_of_fails hfails]
    exact keepsExclusion_done _
  | false =>
    rw [Call.exec, Query.exec_of_not_fails hfails]
    exact hf db' hset hexc

/-- Retiring a lease keeps the table exclusive whatever the others did meanwhile. -/
theorem keepsExclusion_update {id : Nat} {data : LeaseUpdate}
    {f : (Query.leaseUpdate id data).Reply → Handler Response} (hd : data.status ≠ .active)
    (hf : ∀ db' db'', db.Settles db' → db'.Deactivates id db'' →
      KeepsExclusion route n (Handler.serve (f ())) db'') :
    KeepsExclusion route n (Handler.serve (Handler.query (.leaseUpdate id data) >>= f)) db := by
  rw [serve_query_bind]
  intro db' hset hexc
  refine ⟨trivial, fun e => ?_⟩
  have hnot : ¬ InsertsOver e n (.query (.leaseUpdate id data)) db' := by
    rintro ⟨_, _, ⟨⟩, -⟩
  have hsame : db'.Settles db' ∧
      (db'.Exclusive ↔ ¬ InsertsOver e n (.query (.leaseUpdate id data)) db') :=
    ⟨.refl db', fun _ => hnot, fun _ => hexc⟩
  cases hfails : e.fails with
  | true =>
    simp only [leaseWorld, Call.exec, Query.exec_of_fails hfails]
    exact ⟨hsame, fun _ => keepsExclusion_done _⟩
  | false =>
    simp only [leaseWorld, Call.exec, Query.exec_of_not_fails hfails]
    obtain ⟨-, leases, hdown, hok⟩ | ⟨-, herr⟩ := answer_leaseUpdate db' id e.now hd
    · rw [hok]
      refine ⟨⟨hdown.settles, fun _ => hnot, fun _ => hdown.exclusive hexc⟩, fun _ => ?_⟩
      exact hf db' _ hset hdown
    · rw [herr]
      exact ⟨hsame, fun _ => keepsExclusion_done _⟩

theorem keepsExclusion_create {data : LeaseData}
    {f : (Query.leaseCreate data).Reply → Handler Response}
    (hs : data.status = .active) (hclear : db.Cleared data.vehicleId n)
    (hf : ∀ lease db', KeepsExclusion route n (Handler.serve (f lease)) db') :
    KeepsExclusion route n (Handler.serve (Handler.query (.leaseCreate data) >>= f)) db := by
  rw [serve_query_bind]
  intro db' hset hexc
  refine ⟨trivial, fun e => ?_⟩
  -- unless the insert goes through, the table is the one it was
  have hsame (hno : e.fails = true ∨ db'.references data = false) : db'.Settles db' ∧
      (db'.Exclusive ↔ ¬ InsertsOver e n (.query (.leaseCreate data)) db') := by
    refine ⟨.refl db', fun _ => ?_, fun _ => hexc⟩
    rintro ⟨_, _, ⟨⟩, hfails, hrefs, -⟩
    rcases hno with hno | hno
    · exact absurd (hfails.symm.trans hno) nofun
    · exact absurd (hrefs.symm.trans hno) nofun
  cases hfails : e.fails with
  | true =>
    simp only [leaseWorld, Call.exec, Query.exec_of_fails hfails]
    exact ⟨hsame (.inl hfails), fun _ => keepsExclusion_done _⟩
  | false =>
    simp only [leaseWorld, Call.exec, Query.exec_of_not_fails hfails]
    obtain ⟨hrefs, db'', lease, hins, hok⟩ | ⟨hrefs, herr⟩ := answer_leaseCreate db' e.now hs
    · rw [hok]
      refine ⟨⟨hins.settles, ?_⟩, fun _ => hf lease db''⟩
      refine (hins.exclusive_iff hexc).trans ⟨?_, ?_⟩
      · rintro hnone ⟨_, i, ⟨⟩, -, -, -, hi⟩
        exact hnone i hi
      · intro hnot i hi
        -- an ACTIVE lease here is one inserted since the request looked
        have hge : n ≤ i := not_lt.mp fun hlt => (hclear.settles hset).2 i hlt hi
        exact hnot ⟨data, i, rfl, hfails, hrefs, hge, hi⟩
    · rw [herr]
      exact ⟨hsame (.inr hrefs), fun _ => keepsExclusion_done _⟩

-- ---------------------------------------------------------------------------
-- The handlers
-- ---------------------------------------------------------------------------

theorem keepsExclusion_caller {caller : Caller} {f : AuthContext → Handler Response}
    (hf : ∀ ctx, KeepsExclusion route n (Handler.serve (f ctx)) db) :
    KeepsExclusion route n (Handler.serve (getAuthContext caller >>= f)) db := by
  cases caller with
  | none => exact keepsExclusion_done _
  | some ctx => exact hf ctx

theorem keepsExclusion_orThrow {r : Except AppError β} {f : β → Handler Response}
    (hf : ∀ b, KeepsExclusion route n (Handler.serve (f b)) db) :
    KeepsExclusion route n (Handler.serve (orThrow r >>= f)) db := by
  cases r with
  | error err => exact keepsExclusion_done _
  | ok b => exact hf b

theorem keepsExclusion_claim (req : LeaseRequest) : KeepsExclusion route n (claim req) db := by
  have hcalls : (claim req).AllCalls fun c => (∀ data, c ≠ .query (.leaseCreate data)) ∧
      ∀ e db, db.Exclusive → db.Settles (c.exec e db).1 ∧ (c.exec e db).1.Exclusive := by
    refine claim_allCalls (fun c hc => ⟨?_, fun e db he => ?_⟩)
      (fun userId vehicle session now => ⟨fun _ => nofun, fun e db he => ?_⟩) req
    · rintro data rfl
      simp [Call.isQuiet, Query.isRead] at hc
    · obtain ⟨events, hexec⟩ := Call.exec_isQuiet hc e db
      have hleases := congrArg Db.leases hexec
      exact ⟨.of_eq hleases, (Db.Exclusive.congr hleases).mpr he⟩
    · rw [Call.exec_transaction]
      split
      · exact ⟨.refl db, he⟩
      · exact commit_settles he
  refine hcalls.kept (fun _ _ _ => trivial) fun e n c db _ _ hc he => ?_
  refine ⟨(hc.2 e db he).1, fun _ => ?_, fun _ => (hc.2 e db he).2⟩
  rintro ⟨data, i, rfl, -⟩
  exact hc.1 data rfl

theorem keepsExclusion_takeoverAssign {req : LeaseRequest} {ctx : AuthContext} {body : TakeoverBody}
    {vehicle : Vehicle} {now : Time} {oldOperatorId : Option String}
    (hclear : db.Cleared vehicle.id n) :
    KeepsExclusion route n
      (Handler.serve (takeoverAssign req ctx body vehicle now oldOperatorId)) db := by
  unfold takeoverAssign
  refine keepsExclusion_read rfl nofun fun user? db₁ h₁ => ?_
  cases user? with
  | none => exact keepsExclusion_done _
  | some user =>
    refine keepsExclusion_read rfl nofun fun session? db₂ h₂ => ?_
    cases session? with
    | none => exact keepsExclusion_done _
    | some session =>
      refine keepsExclusion_create rfl ((hclear.settles h₁).settles h₂) fun lease _ => ?_
      exact keepsExclusion_audit fun _ => keepsExclusion_done _

theorem keepsExclusion_takeoverVehicle {req : LeaseRequest} {ctx : AuthContext}
    {body : TakeoverBody} {vehicle : Vehicle} :
    KeepsExclusion route n (Handler.serve (takeoverVehicle req ctx body vehicle)) db := by
  unfold takeoverVehicle
  refine keepsExclusion_now fun now _ _ => keepsExclusion_find fun db₁ _ hexc => ?_
  cases hl : db₁.activeLease? vehicle.id none with
  | none => exact keepsExclusion_takeoverAssign ⟨le_refl _, fun i _ => activeLease?_none hl⟩
  | some l =>
    have hactive := activeLease?_some hl
    refine keepsExclusion_update nofun fun db₂ db₃ hset hdown => keepsExclusion_takeoverAssign ?_
    -- of the rows there were, only the lease just revoked was ACTIVE
    refine ⟨hset.length.trans hdown.1.ge, fun i hi ha => ?_⟩
    obtain ⟨ha, hne⟩ := (hdown.2 vehicle.id i).mp ha
    exact hne (hexc vehicle.id i l.id (hset.active _ i hi ha) hactive)

theorem keepsExclusion_takeover (req : LeaseRequest) : KeepsExclusion route n (takeover req) db := by
  unfold takeover
  refine keepsExclusion_caller fun ctx => keepsExclusion_orThrow fun body => ?_
  simp only
  split
  · exact keepsExclusion_done _
  · refine keepsExclusion_read rfl nofun fun vehicle? _ _ => ?_
    cases vehicle? with
    | none => exact keepsExclusion_done _
    | some vehicle => exact keepsExclusion_takeoverVehicle

theorem keepsExclusion_release (req : LeaseRequest) : KeepsExclusion route n (release req) db := by
  unfold release
  refine keepsExclusion_caller fun ctx => keepsExclusion_read rfl nofun fun vehicle? _ _ => ?_
  cases vehicle? with
  | none => exact keepsExclusion_done _
  | some vehicle =>
    refine keepsExclusion_now fun now _ _ => keepsExclusion_find fun db₁ _ _ => ?_
    cases db₁.activeLease? vehicle.id (some now) with
    | none => exact keepsExclusion_done _
    | some lease =>
      simp only
      split
      · exact keepsExclusion_done _
      · refine keepsExclusion_update nofun fun _ _ _ _ => ?_
        exact keepsExclusion_audit fun _ => keepsExclusion_done _

end

-- ---------------------------------------------------------------------------
-- Every interleaving
-- ---------------------------------------------------------------------------

abbrev LeasePool := Pool LeaseRoute Call Call.Reply Response Db Nat

/-- Any number of lease requests at once, one call a step. -/
def leaseSystem (db : Db) : System LeasePool (Event LeaseRoute Choice) Unit :=
  pool leaseWorld LeaseRoute.handler db

abbrev LeaseEntry := Entry LeasePool (Event LeaseRoute Choice) Unit
abbrev LeaseLog := Log LeasePool (Event LeaseRoute Choice) Unit

def StaysExclusive (x : LeaseEntry) (_ : LeaseLog) : Prop := x.after.world.Exclusive

/-- A takeover inserts its lease on a vehicle with an ACTIVE lease that was
inserted after the takeover looked for the one to revoke. -/
def InsertsLate (x : LeaseEntry) : Prop :=
  ∃ route e n c, x.before.call? x.event = some (route, e, n, c) ∧ InsertsOver e n c x.before.world

theorem keepsExclusion_handler (route : LeaseRoute) (n : Nat) (db : Db) :
    KeepsExclusion route n route.handler db := by
  cases route with
  | claim req => exact keepsExclusion_claim req
  | takeover req => exact keepsExclusion_takeover req
  | release req => exact keepsExclusion_release req

theorem stays_exclusive_iff (db : Db) (h : db.Exclusive) (es : List (Event LeaseRoute Choice)) :
    Always StaysExclusive ((leaseSystem db).log es) ↔
      Always (fun x _ => ¬ InsertsLate x) ((leaseSystem db).log es) := by
  refine System.always_iff
    (fun l => Pool.Kept leaseWorld exclusion ((leaseSystem db).state l)) ⟨h, nofun⟩ ?_ es
  intro past e hkept
  refine ⟨?_, fun hexc => ?_⟩
  case' refine_2 =>
    exact hkept.step LeaseRoute.handler (fun route w _ => keepsExclusion_handler route 0 w) e hexc
  cases hcall : ((leaseSystem db).state past).call? e with
  | none =>
    have hsame : ((leaseSystem db).step ((leaseSystem db).state past) e).1.world = _ :=
      Pool.world_of_no_call hcall
    refine ⟨fun _ => ?_, fun _ => (congrArg Db.Exclusive hsame).mpr hkept.inv⟩
    rintro ⟨route, e', n, c, hcall', -⟩
    exact absurd (hcall.symm.trans hcall') nofun
  | some call =>
    obtain ⟨route, choice, n, c⟩ := call
    obtain ⟨-, -, -, hiff⟩ := hkept.call LeaseRoute.handler hcall
    refine hiff.trans (not_congr ⟨fun hover => ⟨route, choice, n, c, hcall, hover⟩, ?_⟩)
    rintro ⟨route', e', n', c', hcall', hover⟩
    obtain ⟨rfl, rfl, rfl, rfl⟩ : route = route' ∧ choice = e' ∧ n = n' ∧ c = c' := by
      simpa using hcall.symm.trans hcall'
    exact hover

private def fleet : Db where
  users :=
    [⟨"alice", "alice@rvep.dev", "", .operator, 0, none, 0⟩,
      ⟨"bob", "bob@rvep.dev", "", .operator, 0, none, 0⟩]
  vehicles := [⟨"v1", "vehicle-001", "UGV 1", .wheeled, .online⟩]
  permissions := [⟨"alice", "v1", .operator, 1, none, 0⟩]
  sessions :=
    [⟨"s1", "web-alice", "v1", "alice", 1, .active, 0, .control⟩,
      ⟨"s2", "web-bob", "v1", "bob", 1, .active, 0, .control⟩]
  leases := []
  events := []

private def aliceClaims : LeaseRoute :=
  .claim ⟨some ⟨"alice", .operator⟩, "vehicle-001", some (.obj [("sessionId", .str "web-alice")])⟩

private def bobTakesOver : LeaseRoute :=
  .takeover ⟨some ⟨"root", .admin⟩, "vehicle-001",
    some (.obj [("reason", .str "shift change"), ("newOperatorId", .str "bob")])⟩

private def steps (task count : Nat) : List (Event LeaseRoute Choice) :=
  List.replicate count (.step task ⟨1000, false⟩)

private theorem fleet_exclusive : fleet.Exclusive := by
  rintro v i j ⟨row, hrow, -⟩
  exact absurd hrow nofun

/-- The takeover looks for the lease to revoke when the claim has created it. Newest first. -/
def takeoverAfterClaim : List (Event LeaseRoute Choice) :=
  steps 1 1 ++ steps 0 6 ++ steps 1 5 ++ steps 0 2 ++ [.spawn aliceClaims, .spawn bobTakesOver]

theorem stays_exclusive_claim :
    Always StaysExclusive ((leaseSystem fleet).log takeoverAfterClaim) := by
  refine (stays_exclusive_iff fleet fleet_exclusive _).mpr
    ⟨?_, ?_, ?_, ?_, ?_, ?_, ?_, ?_, ?_, ?_, ?_, ?_, ?_, ?_, ?_, ?_, trivial⟩ <;>
    · rintro ⟨route, e, n, c, hcall, data, i, rfl, -, -, hle, hactive⟩
      -- where the takeover inserts, it has seen every row there is
      cases hcall <;> exact absurd (hle.trans_lt hactive.lt) (by decide)

/-- The takeover finds no lease to revoke, the claim creates one, and the
takeover creates another. Newest first. -/
def takeoverRace : List (Event LeaseRoute Choice) :=
  steps 0 3 ++ steps 1 5 ++ steps 0 3 ++ [.spawn aliceClaims, .spawn bobTakesOver]

theorem takeover_race_two_active :
    fleet.Exclusive ∧ ¬ Always StaysExclusive ((leaseSystem fleet).log takeoverRace) := by
  refine ⟨fleet_exclusive, fun h => ?_⟩
  have htwo := h.1 "v1" 0 1 ⟨_, rfl, rfl, rfl⟩ ⟨_, rfl, rfl, rfl⟩
  exact absurd htwo nofun

end Rvep.Backend
