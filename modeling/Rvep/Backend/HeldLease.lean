import Rvep.Backend.HandlerContracts
import Rvep.Backend.LeaseEffects

/-!
# A granted lease holds

While a vehicle has a single ACTIVE lease, claims and releases of other users
that read clocks before it expires leave it as it is: the claims are denied and
the releases are forbidden.
-/

namespace Rvep.Backend

open Interleaving Reactive

/-- Row `i` is the only ACTIVE lease of its vehicle. -/
structure Db.Held (db : Db) (i : Nat) (row : LeaseRow) : Prop where
  here : db.leases[i]? = some row
  active : row.status = .active
  only : ∀ j, db.ActiveAt row.vehicleId j → j = i

section
variable {db : Db} {i : Nat} {row : LeaseRow}

theorem activeLease?_ne_none {v : String} {expiresAfter : Option Time} (hrow : db.leases[i]? = some row)
    (hv : row.vehicleId = v) (hs : row.status = .active)
    (ht : ∀ t ∈ expiresAfter, t < row.expiresAt) : db.activeLease? v expiresAfter ≠ none := by
  intro h
  have hempty := List.argmax_eq_none.mp h
  have hmem : (⟨row, i⟩ : ControlLease) ∈ db.readLeases := mem_readLeases.mpr hrow
  have hnot := List.filter_eq_nil_iff.mp hempty _ hmem
  cases expiresAfter with
  | none => simp [hv, hs] at hnot
  | some t =>
    have hlt : t < row.expiresAt := ht t rfl
    have hle : row.expiresAt ≤ t := by simpa [hv, hs] using hnot
    exact absurd hlt (not_lt.mpr hle)

theorem Db.Held.activeLease? (h : db.Held i row) {expiresAfter : Option Time}
    (ht : ∀ t ∈ expiresAfter, t < row.expiresAt) :
    db.activeLease? row.vehicleId expiresAfter = some ⟨row, i⟩ := by
  cases hl : db.activeLease? row.vehicleId expiresAfter with
  | none => exact absurd hl (activeLease?_ne_none h.here rfl h.active ht)
  | some l =>
    obtain ⟨l, id⟩ := l
    obtain rfl : id = i := h.only id (activeLease?_some hl)
    obtain rfl : row = l := Option.some.inj (h.here.symm.trans (activeLease?_row hl).1)
    rfl

/-- A lease of another vehicle is another row. -/
theorem Db.Held.other (h : db.Held i row) {v : String} (hv : v ≠ row.vehicleId) {l : ControlLease}
    {expiresAfter : Option Time} (hl : db.activeLease? v expiresAfter = some l) : l.id ≠ i := by
  rintro rfl
  obtain ⟨hrow, hlv, -⟩ := activeLease?_row hl
  obtain rfl : row = l.toLeaseRow := Option.some.inj (h.here.symm.trans hrow)
  exact hv hlv.symm

theorem Db.Held.update (h : db.Held i row) {id : Nat} (hid : id ≠ i) {data : LeaseUpdate}
    (hd : data.status ≠ .active) :
    Db.Held { db with leases := db.leases.modify id (·.update data) } i row where
  here := (List.getElem?_modify_ne _ _ hid).trans h.here
  active := h.active
  only j hj := h.only j (((deactivates_modify hd).2 _ j).mp hj).1

theorem Db.Held.append (h : db.Held i row) {row' : LeaseRow} (hs : row'.status = .active)
    (hv : row'.vehicleId ≠ row.vehicleId) :
    Db.Held { db with leases := db.leases ++ [row'] } i row where
  here := by rw [List.getElem?_append_left (List.getElem?_eq_some_iff.mp h.here).1, h.here]
  active := h.active
  only j hj := by
    rcases ((inserts_append hs).2 _ j).mp hj with hj | ⟨hv', -⟩
    · exact h.only j hj
    · exact absurd hv'.symm hv

theorem Db.Held.retired (h : db.Held i row) {v : String} (hv : v ≠ row.vehicleId)
    {data : LeaseUpdate} (hd : data.status ≠ .active) :
    Db.Held { db with leases := db.retired v data } i row := by
  cases hl : db.activeLease? v none with
  | none =>
    rw [retired_none hl]
    exact h
  | some l =>
    rw [retired_some hl]
    exact h.update (h.other hv hl) hd

/-- Before the lease expires, another user's claim is denied, or is about another vehicle. -/
theorem Db.Held.commit (h : db.Held i row) {userId : String} (hu : userId ≠ row.operatorId)
    {now : Time} (hnow : now < row.expiresAt) (vehicle : Vehicle) (session : Session) (t : Time) :
    let out := (claimTransaction userId vehicle session now).commit t db
    db.SameTables out.1 ∧ out.1.Held i row ∧
      (vehicle.id = row.vehicleId → out.2 = .ok (.denied row.operatorId row.sessionId)) := by
  intro out
  have hsame : db.SameTables db := .refl db
  have hfound : db.activeLease? row.vehicleId none = some ⟨row, i⟩ :=
    h.activeLease? fun t ht => absurd ht (Option.not_mem_none t)
  rcases commit_claimTransaction userId vehicle session now t db with
    ⟨lease, hdenied, hout⟩ | ⟨hnone, ⟨-, hout⟩ | ⟨-, hout⟩⟩
  · have hout : out = _ := hout
    rw [hout]
    refine ⟨hsame, h, fun hv => ?_⟩
    obtain rfl : (⟨row, i⟩ : ControlLease) = lease :=
      Option.some.inj (hfound.symm.trans (hv ▸ hdenied.1))
    rfl
  · have hv : vehicle.id ≠ row.vehicleId := fun hv => hnone ⟨row, i⟩ ⟨hv ▸ hfound, hnow, Ne.symm hu⟩
    have hretired := h.retired hv (released_not_active now)
    have hout : out = _ := hout
    rw [hout]
    exact ⟨⟨rfl, rfl, rfl, rfl⟩, hretired.append rfl hv, fun hv' => absurd hv' hv⟩
  · have hv : vehicle.id ≠ row.vehicleId := fun hv => hnone ⟨row, i⟩ ⟨hv ▸ hfound, hnow, Ne.symm hu⟩
    have hout : out = _ := hout
    rw [hout]
    exact ⟨hsame, h, fun hv' => absurd hv' hv⟩

end

-- ---------------------------------------------------------------------------
-- The requests of others
-- ---------------------------------------------------------------------------

structure OtherRequest (userId : String) where
  request : LeaseRequest
  other : ∀ ctx, request.caller = some ctx → ctx.userId ≠ userId

/-- Claims and releases of users other than `userId`. -/
inductive OtherRoute (userId : String)
  | claim (req : OtherRequest userId)
  | release (req : OtherRequest userId)

def OtherRoute.handler {userId : String} : OtherRoute userId → Prog Call Call.Reply Response
  | .claim req => Backend.claim req.request
  | .release req => Backend.release req.request

/-- Environments whose clock reads less than `expiry`. -/
abbrev Before (expiry : Time) := { e : Choice // e.now < expiry }

/-- A request remembers whether the database has failed it; a lost audit record is no failure. -/
def heldWorld (expiry : Time) : World Call Call.Reply Db (Before expiry) Bool where
  exec e := Call.exec e.val
  blank := false
  observe n _ c r :=
    match c, r with
    | .query (.eventLogCreate _), _ => n
    | .query _, r => n || !r.isOk
    | .transaction _, r => n || !r.isOk
    | .now, _ => n

/-- The answer `row`'s operator is owed: a claim that passes its checks is
denied in its favour, a release is forbidden. -/
def Refused (start : Db) (row : LeaseRow) : OtherRoute row.operatorId → Response → Prop
  | .claim req, r => ∀ ctx body vehicle session,
      MayClaim req.request start ctx body vehicle session → vehicle.id = row.vehicleId →
        r = fail "lease_taken" 409
          [("currentOperatorId", .text row.operatorId), ("currentSessionId", .text row.sessionId)]
  | .release req, r => ∀ ctx vehicle, req.request.caller = some ctx →
      start.vehicle? req.request.vehicleId = some vehicle → vehicle.id = row.vehicleId →
        r = fail "forbidden" 403

structure Holds (start : Db) (i : Nat) (row : LeaseRow) (db : Db) : Prop where
  tables : start.SameTables db
  held : db.Held i row

def holding (start : Db) (i : Nat) (row : LeaseRow) :
    Contract (OtherRoute row.operatorId) Call Response Db (Before row.expiresAt) Bool where
  inv := Holds start i row
  rely _ _ := True
  here route n q _ := ∀ r, q = .finished r → n = false → Refused start row route r
  guar _ _ _ _ _ _ _ db' := Holds start i row db'
  refl _ := trivial
  trans _ _ := trivial
  rely_of_guar _ := trivial

abbrev KeepsHolding (start : Db) (i : Nat) (row : LeaseRow) (route : OtherRoute row.operatorId)
    (n : Bool) (prog : Prog Call Call.Reply Response) (db : Db) : Prop :=
  (holding start i row).Kept (heldWorld row.expiresAt) route n prog db

section
variable {start : Db} {i : Nat} {row : LeaseRow} {route : OtherRoute row.operatorId} {n : Bool}
  {db : Db}

theorem held_runs (expiry : Time) : Runs (heldWorld expiry) Subtype.val := fun _ _ _ => rfl

theorem keepsHolding_done {r : Response} (h : n = false → Refused start row route r) :
    KeepsHolding start i row route n (.done r) db := by
  refine kept_done fun _ _ _ r' hr => ?_
  obtain rfl : r = r' := by simpa using hr
  exact h

theorem keepsHolding_failed (r : Response) : KeepsHolding start i row route true (.done r) db :=
  keepsHolding_done nofun

theorem keepsHolding_read {q : Query} {f : q.Reply → Handler Response} (hq : q.isRead = true)
    (hok : ∀ db' v, Holds start i row db' → (∀ now, q.answer now db' = (db', .ok v)) →
      KeepsHolding start i row route n (Handler.serve (f v)) db') :
    KeepsHolding start i row route n (Handler.serve (Handler.query q >>= f)) db := by
  have hnote : ∀ db' r, (heldWorld row.expiresAt).observe n db' (.query q) r = (n || !r.isOk) := by
    intro db' r
    cases q with
    | eventLogCreate => simp [Query.isRead] at hq
    | _ => rfl
  refine kept_read (held_runs _) hq ?_ (fun _ _ _ _ _ hi => hi) ?_ ?_
  · exact fun _ _ _ r hr => absurd hr (waiting_ne_finished _ r)
  · intro db' _ _
    rw [hnote, show (n || !(Except.error DbError.unavailable : Except DbError q.Reply).isOk) = true
      from Bool.or_true n]
    exact keepsHolding_failed _
  · intro db' v _ hi hv
    rw [hnote, show (n || !(Except.ok v : Except DbError q.Reply).isOk) = n from Bool.or_false n]
    exact hok db' v hi hv

/-- The other tables stay, and so does what is read from them. -/
theorem keepsHolding_lookup {q : Query} {f : q.Reply → Handler Response} {value : Db → q.Reply}
    (hq : q.isRead = true) (hvalue : ∀ db, q.answer 0 db = (db, .ok (value db)))
    (hsame : ∀ db', start.SameTables db' → value db' = value start)
    (hok : ∀ db', KeepsHolding start i row route n (Handler.serve (f (value start))) db') :
    KeepsHolding start i row route n (Handler.serve (Handler.query q >>= f)) db := by
  refine keepsHolding_read hq fun db' v hi hv => ?_
  obtain rfl : value db' = v := Query.value_eq hv (hvalue db')
  rw [hsame db' hi.tables]
  exact hok db'

theorem keepsHolding_now {f : Time → Handler Response}
    (hk : ∀ now db', now < row.expiresAt → Holds start i row db' →
      KeepsHolding start i row route n (Handler.serve (f now)) db') :
    KeepsHolding start i row route n (Handler.serve (Handler.now >>= f)) db :=
  kept_now (held_runs _) (fun _ _ _ => nofun) (fun _ _ _ _ _ hi => hi)
    fun db' e _ hi => hk e.val.now db' e.property hi

theorem keepsHolding_audit {event : EventData} {f : Unit → Handler Response}
    (hk : ∀ db', KeepsHolding start i row route n (Handler.serve (f ())) db') :
    KeepsHolding start i row route n (Handler.serve (audit event >>= f)) db := by
  refine kept_audit (held_runs _) (fun _ _ _ => nofun) ?_ fun db' events _ _ _ => hk _
  intro db' events _ _ _ _ hi
  exact ⟨⟨hi.tables.1, hi.tables.2, hi.tables.3, hi.tables.4⟩, ⟨hi.held.1, hi.held.2, hi.held.3⟩⟩

/-- Retiring another row, whatever has happened since it was found. -/
theorem keepsHolding_update {id : Nat} {data : LeaseUpdate} {f : Unit → Handler Response}
    (hid : id ≠ i) (hd : data.status ≠ .active)
    (hk : ∀ n db', KeepsHolding start i row route n (Handler.serve (f ())) db') :
    KeepsHolding start i row route n
      (Handler.serve (Handler.query (.leaseUpdate id data) >>= f)) db := by
  refine kept_query (held_runs _) (fun _ _ _ => nofun) ?_ ?_ ?_ ?_
  · intro db' e _ _ _ hi
    obtain ⟨htables, hheld⟩ := hi
    cases hf : e.val.fails with
    | true =>
      rw [Query.exec_of_fails hf]
      exact ⟨htables, hheld⟩
    | false =>
      rw [Query.exec_of_not_fails hf]
      simp only [Query.answer]
      split
      · exact ⟨⟨htables.1, htables.2, htables.3, htables.4⟩, hheld.update hid hd⟩
      · exact ⟨htables, hheld⟩
  · intro db' _ _
    rw [show (heldWorld row.expiresAt).observe n db' (.query (.leaseUpdate id data))
      (.error .unavailable) = true from Bool.or_true n]
    exact keepsHolding_failed _
  · exact fun db' now v db'' _ _ _ _ => hk _ db''
  · intro db' now err db'' _ _ _ _
    rw [show (heldWorld row.expiresAt).observe n db' (.query (.leaseUpdate id data)) (.error err) = true
      from Bool.or_true n]
    exact keepsHolding_failed _

theorem keepsHolding_transaction {ctx : AuthContext} {vehicle : Vehicle} {session : Session}
    {now : Time} {f : ClaimResult → Handler Response} (hu : ctx.userId ≠ row.operatorId)
    (hnow : now < row.expiresAt)
    (hk : ∀ result db', (vehicle.id = row.vehicleId →
      result = .denied row.operatorId row.sessionId) →
        KeepsHolding start i row route n (Handler.serve (f result)) db') :
    KeepsHolding start i row route n (Handler.serve
      (Handler.transaction (claimTransaction ctx.userId vehicle session now) >>= f)) db := by
  refine kept_transaction (held_runs _) (fun _ _ _ => nofun) ?_ ?_ ?_ ?_
  · intro db' e _ _ _ hi
    obtain ⟨⟨hu', hv', hp', hs'⟩, hheld⟩ := hi
    rw [Call.exec_transaction]
    split
    · exact ⟨⟨hu', hv', hp', hs'⟩, hheld⟩
    · obtain ⟨hsame, hheld', -⟩ := hheld.commit hu hnow vehicle session e.val.now
      exact ⟨⟨hsame.1.trans hu', hsame.2.trans hv', hsame.3.trans hp', hsame.4.trans hs'⟩, hheld'⟩
  · intro db' _ _
    rw [show (heldWorld row.expiresAt).observe n db' (.transaction _) (.error .unavailable) = true
      from Bool.or_true n]
    exact keepsHolding_failed _
  · intro db' t result db'' _ hi _ hcommit
    obtain ⟨-, -, hdenied⟩ := hi.held.commit hu hnow vehicle session t
    rw [show (heldWorld row.expiresAt).observe n db' (.transaction _) (.ok result) = n
      from Bool.or_false n]
    refine hk result db'' fun hv => ?_
    rw [hcommit] at hdenied
    exact Except.ok.inj (hdenied hv)
  · intro db' t err db'' _ _ _ _
    rw [show (heldWorld row.expiresAt).observe n db' (.transaction _) (.error err) = true
      from Bool.or_true n]
    exact keepsHolding_failed _

theorem keepsHolding_claim (req : OtherRequest row.operatorId) :
    KeepsHolding start i row (.claim req) n (claim req.request) db := by
  -- an exit before the transaction is one where the claim may not be made
  have hexit {n : Bool} {db : Db} {r : Response} (h : ∀ ctx body vehicle session,
      ¬ MayClaim req.request start ctx body vehicle session) :
      KeepsHolding start i row (.claim req) n (.done r) db :=
    keepsHolding_done fun _ ctx body vehicle session hmay => absurd hmay (h ctx body vehicle session)
  unfold claim
  refine kept_caller (fun hctx => ?_) fun ctx hctx => ?_
  · exact hexit fun _ _ _ _ hmay => absurd (hctx.symm.trans hmay.authenticated) nofun
  refine kept_orThrow (fun err hbody => ?_) fun body hbody => ?_
  · exact hexit fun _ _ _ _ hmay => absurd (hbody.symm.trans hmay.valid) nofun
  simp only
  split
  next hrole =>
    refine hexit fun ctx' _ _ _ hmay => ?_
    obtain rfl := Option.some.inj (hctx.symm.trans hmay.authenticated)
    simp [hmay.role] at hrole
  next hrole =>
    refine keepsHolding_lookup rfl (fun _ => rfl) (fun _ h => h.vehicle? _) fun _ => ?_
    cases hvehicle : start.vehicle? req.request.vehicleId with
    | none => exact hexit fun _ _ _ _ hmay => absurd (hvehicle.symm.trans hmay.found) nofun
    | some vehicle =>
      refine keepsHolding_lookup rfl (fun _ => rfl) (fun _ h => h.permission? _ _) fun _ => ?_
      split
      next hperm =>
        refine hexit fun ctx' _ vehicle' _ hmay => ?_
        obtain rfl := Option.some.inj (hctx.symm.trans hmay.authenticated)
        obtain rfl := Option.some.inj (hvehicle.symm.trans hmay.found)
        simp [hmay.permitted] at hperm
      next hperm =>
        refine keepsHolding_lookup rfl (fun _ => rfl) (fun _ h => h.session? _) fun _ => ?_
        cases hsession : start.session? body.sessionId with
        | none =>
          refine hexit fun _ body' _ _ hmay => ?_
          obtain rfl := Except.ok.inj (hbody.symm.trans hmay.valid)
          exact absurd (hsession.symm.trans hmay.resolved) nofun
        | some session =>
          refine keepsHolding_now fun now db₄ hnow _ => ?_
          refine keepsHolding_transaction (req.other ctx hctx) hnow fun result db₅ hdenied => ?_
          by_cases hv : vehicle.id = row.vehicleId
          · obtain rfl := hdenied hv
            refine keepsHolding_audit fun _ => keepsHolding_done fun _ _ _ _ _ _ _ => rfl
          · have hother {r : Response} : Refused start row (.claim req) r := by
              intro ctx' body' vehicle' session' hmay hv'
              obtain rfl := Option.some.inj (hvehicle.symm.trans hmay.found)
              exact absurd hv' hv
            cases result with
            | denied | created => exact keepsHolding_audit fun _ => keepsHolding_done fun _ => hother

theorem keepsHolding_release (req : OtherRequest row.operatorId) :
    KeepsHolding start i row (.release req) n (release req.request) db := by
  unfold release
  refine kept_caller (fun hctx => ?_) fun ctx hctx => ?_
  · exact keepsHolding_done fun _ _ _ hctx' => absurd (hctx.symm.trans hctx') nofun
  refine keepsHolding_lookup rfl (fun _ => rfl) (fun _ h => h.vehicle? _) fun _ => ?_
  cases hvehicle : start.vehicle? req.request.vehicleId with
  | none => exact keepsHolding_done fun _ _ _ _ hfound => absurd (hvehicle.symm.trans hfound) nofun
  | some vehicle =>
    refine keepsHolding_now fun now db₂ hnow _ => ?_
    refine keepsHolding_read rfl fun db₃ lease? h₃ hl => ?_
    obtain rfl : db₃.activeLease? vehicle.id (some now) = lease? :=
      Query.value_eq hl rfl
    by_cases hv : vehicle.id = row.vehicleId
    · have hfound : db₃.activeLease? vehicle.id (some now) = some ⟨row, i⟩ := by
        rw [hv]
        refine h₃.held.activeLease? fun t ht => ?_
        rwa [← Option.some.inj ht]
      have hop : (row.operatorId != ctx.userId) = true := by
        simpa using Ne.symm (req.other ctx hctx)
      rw [hfound]
      simp only [hop, ↓reduceIte]
      exact keepsHolding_done fun _ _ _ _ _ _ => rfl
    · have hother {r : Response} : Refused start row (.release req) r := by
        intro ctx' vehicle' _ hfound hv'
        obtain rfl := Option.some.inj (hvehicle.symm.trans hfound)
        exact absurd hv' hv
      cases hl : db₃.activeLease? vehicle.id (some now) with
      | none => exact keepsHolding_done fun _ => hother
      | some lease =>
        simp only
        split
        · exact keepsHolding_done fun _ => hother
        · refine keepsHolding_update (h₃.held.other hv hl) nofun fun n' _ => ?_
          exact keepsHolding_audit fun _ => keepsHolding_done fun _ => hother

end

-- ---------------------------------------------------------------------------
-- Every interleaving
-- ---------------------------------------------------------------------------

/-- Any number of claims and releases of users other than `row`'s operator,
call by call, while `row` has not expired. -/
def othersSystem (start : Db) (row : LeaseRow) :
    System (Pool (OtherRoute row.operatorId) Call Call.Reply Response Db Bool)
      (Event (OtherRoute row.operatorId) (Before row.expiresAt)) Unit :=
  pool (heldWorld row.expiresAt) OtherRoute.handler start

/-- Whatever others claim and release before it expires, the only ACTIVE lease
of a vehicle stays as it is, claims that pass their checks are denied in favour
of its operator, and releases are forbidden. -/
theorem held_lease_stays (start : Db) (i : Nat) (row : LeaseRow) (h : start.Held i row)
    (es : List (Event (OtherRoute row.operatorId) (Before row.expiresAt))) :
    let p := (othersSystem start row).state ((othersSystem start row).log es)
    p.world.leases[i]? = some row ∧ (∀ j, p.world.ActiveAt row.vehicleId j → j = i) ∧
      ∀ t ∈ p.tasks, ∀ r, t.prog = .done r → t.note = false → Refused start row t.request r := by
  intro p
  have hspawn : ∀ route db, Holds start i row db →
      KeepsHolding start i row route false route.handler db := by
    intro route db _
    cases route with
    | claim req => exact keepsHolding_claim req
    | release req => exact keepsHolding_release req
  have hstart : (holding start i row).inv start := ⟨.refl start, h⟩
  have hkept : p.Kept (heldWorld row.expiresAt) (holding start i row) :=
    Pool.Kept.run hspawn (fun _ hguar => hguar) hstart es
  refine ⟨hkept.inv.held.here, hkept.inv.held.only, fun t ht r hr hn => ?_⟩
  exact (hkept.tasks t ht).here hkept.inv r (by rw [hr]; rfl) hn

private def aliceHolds : LeaseRow :=
  ⟨⟨"v1", "alice", "s1", 1, .active, 1801000⟩, 1000, none, none⟩

private def patrol : Db where
  users :=
    [⟨"alice", "alice@rvep.dev", "", .operator, 0, none, 0⟩,
      ⟨"bob", "bob@rvep.dev", "", .operator, 0, none, 0⟩]
  vehicles := [⟨"v1", "vehicle-001", "UGV 1", .wheeled, .online⟩]
  permissions := [⟨"alice", "v1", .operator, 1, none, 0⟩, ⟨"bob", "v1", .operator, 2, none, 0⟩]
  sessions :=
    [⟨"s1", "web-alice", "v1", "alice", 1, .active, 0, .control⟩,
      ⟨"s2", "web-bob", "v1", "bob", 1, .active, 0, .control⟩]
  leases := [aliceHolds]
  events := []

private def bobAsks (body : Option Json) : OtherRequest aliceHolds.operatorId where
  request := ⟨some ⟨"bob", .operator⟩, "vehicle-001", body⟩
  other ctx hctx := by
    rw [← Option.some.inj hctx]
    decide

/-- Bob claims and, before he is answered, asks for a release. Newest first. -/
private def bobTries : List (Event (OtherRoute aliceHolds.operatorId) (Before aliceHolds.expiresAt)) :=
  let step (task : Nat) : Event (OtherRoute aliceHolds.operatorId) (Before aliceHolds.expiresAt) :=
    .step task ⟨⟨1800999, false⟩, by decide⟩
  [step 0, step 0, step 1, step 1, step 1, step 0, step 0, step 0, step 0,
    .spawn (.release (bobAsks none)),
    .spawn (.claim (bobAsks (some (.obj [("sessionId", .str "web-bob")]))))]

theorem held_lease_stays_bob :
    patrol.Held 0 aliceHolds ∧
      let p := (othersSystem patrol aliceHolds).state ((othersSystem patrol aliceHolds).log bobTries)
      p.world.leases[0]? = some aliceHolds ∧
        (∀ j, p.world.ActiveAt aliceHolds.vehicleId j → j = 0) ∧
        ∀ t ∈ p.tasks, ∀ r, t.prog = .done r → t.note = false →
          Refused patrol aliceHolds t.request r := by
  have hheld : patrol.Held 0 aliceHolds := by
    refine ⟨rfl, rfl, ?_⟩
    rintro j ⟨row, hrow, -⟩
    cases j with
    | zero => rfl
    | succ j => exact absurd hrow nofun
  exact ⟨hheld, held_lease_stays patrol 0 aliceHolds hheld bobTries⟩

/-- Both of Bob's requests have been answered. -/
example : ((othersSystem patrol aliceHolds).state
    ((othersSystem patrol aliceHolds).log bobTries)).tasks.map (·.prog.point) =
      [.finished (fail "lease_taken" 409
          [("currentOperatorId", .text "alice"), ("currentSessionId", .text "s1")]),
        .finished (fail "forbidden" 403)] := rfl

end Rvep.Backend
