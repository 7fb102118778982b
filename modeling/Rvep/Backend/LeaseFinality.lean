import Rvep.Backend.HandlerContracts
import Rvep.Backend.LeaseEffects

/-!
# A lease ends once

Releases and takeovers look a lease up and update it by id some calls later,
without looking again. A lease that has ended stays as it ended as long as no
such update is made of a lease that has changed since it was found.
-/

namespace Rvep.Backend

open Interleaving Reactive

-- ---------------------------------------------------------------------------
-- Ended leases
-- ---------------------------------------------------------------------------

def LeaseRow.Ended (l : LeaseRow) : Prop := l.status = .released ∨ l.status = .revoked

def LeaseRow.ending (l : LeaseRow) : LeaseStatus × Option Time × Option Time :=
  (l.status, l.releasedAt, l.revokedAt)

/-- At most one of `releasedAt` and `revokedAt` is set, as the status says. -/
def LeaseRow.EndMatches (l : LeaseRow) : Prop :=
  (l.releasedAt.isSome = true ↔ l.status = .released) ∧
    (l.revokedAt.isSome = true ↔ l.status = .revoked)

def Db.EndsMatch (db : Db) : Prop := ∀ (i : Nat) (row : LeaseRow), db.leases[i]? = some row → row.EndMatches

structure Db.KeepsEnded (db db' : Db) : Prop where
  stays : ∀ (i : Nat) (row : LeaseRow), db.leases[i]? = some row → row.Ended →
    ∃ row' : LeaseRow, db'.leases[i]? = some row' ∧ row'.ending = row.ending
  ends_match : db.EndsMatch → db'.EndsMatch

/-- The update ends a lease, one way or the other. -/
def LeaseUpdate.Ends (data : LeaseUpdate) : Prop :=
  ∃ now, data = released now ∨ data = revoked now

section
variable {db db' db'' : Db}

theorem LeaseRow.Ended.congr {l l' : LeaseRow} (h : l'.ending = l.ending) (hl : l.Ended) :
    l'.Ended := by
  have hs : l'.status = l.status := (Prod.mk.inj h).1
  unfold LeaseRow.Ended
  rwa [hs]

theorem Db.KeepsEnded.of_eq (h : db'.leases = db.leases) : db.KeepsEnded db' := by
  refine ⟨fun i row hrow _ => ⟨row, by rwa [h], rfl⟩, fun hm i row hrow => ?_⟩
  rw [h] at hrow
  exact hm i row hrow

theorem Db.KeepsEnded.trans (h : db.KeepsEnded db') (h' : db'.KeepsEnded db'') :
    db.KeepsEnded db'' := by
  refine ⟨fun i row hrow hended => ?_, fun hm => h'.ends_match (h.ends_match hm)⟩
  obtain ⟨row', hrow', he⟩ := h.stays i row hrow hended
  obtain ⟨row'', hrow'', he'⟩ := h'.stays i row' hrow' (hended.congr he)
  exact ⟨row'', hrow'', he'.trans he⟩

theorem endMatches_update {l : LeaseRow} {data : LeaseUpdate} (hs : l.status = .active)
    (hm : l.EndMatches) (hd : data.Ends) : (l.update data).EndMatches := by
  obtain ⟨hrel, hrev⟩ := hm
  obtain ⟨now, rfl | rfl⟩ := hd
  · simpa [LeaseRow.EndMatches, LeaseRow.update, released, hs] using hrev
  · simpa [LeaseRow.EndMatches, LeaseRow.update, revoked, hs] using hrel

theorem keepsEnded_modify {id : Nat} {row : LeaseRow} {data : LeaseUpdate}
    (hrow : db.leases[id]? = some row) (hs : row.status = .active) (hd : data.Ends) :
    db.KeepsEnded { db with leases := db.leases.modify id (·.update data) } := by
  refine ⟨fun i old hold hended => ?_, fun hm i new hnew => ?_⟩
  · have hne : id ≠ i := by
      rintro rfl
      obtain rfl := Option.some.inj (hrow.symm.trans hold)
      rcases hended with h | h
      · exact absurd (hs.symm.trans h) nofun
      · exact absurd (hs.symm.trans h) nofun
    exact ⟨old, (List.getElem?_modify_ne _ _ hne).trans hold, rfl⟩
  · by_cases hi : id = i
    · subst hi
      rw [List.getElem?_modify_eq, hrow] at hnew
      obtain rfl := Option.some.inj hnew
      exact endMatches_update hs (hm id row hrow) hd
    · rw [List.getElem?_modify_ne _ _ hi] at hnew
      exact hm i new hnew

theorem keepsEnded_append {data : LeaseData} {createdAt : Time} (hs : data.status = .active) :
    db.KeepsEnded { db with leases := db.leases ++ [data.row createdAt] } := by
  refine ⟨fun i old hold _ => ?_, fun hm i new hnew => ?_⟩
  · have hlt := (List.getElem?_eq_some_iff.mp hold).1
    exact ⟨old, by rw [List.getElem?_append_left hlt, hold], rfl⟩
  · rw [List.getElem?_append, List.getElem?_singleton] at hnew
    split at hnew
    · exact hm i new hnew
    · split at hnew
      · obtain rfl := Option.some.inj hnew
        simp [LeaseRow.EndMatches, LeaseData.row, hs]
      · exact absurd hnew nofun

theorem keepsEnded_retired {v : String} {data : LeaseUpdate} (hd : data.Ends) :
    db.KeepsEnded { db with leases := db.retired v data } := by
  cases hl : db.activeLease? v none with
  | none => exact .of_eq (retired_none hl)
  | some lease =>
    obtain ⟨hrow, -, hs, -⟩ := activeLease?_row hl
    rw [retired_some hl]
    exact keepsEnded_modify hrow hs hd

/-- A claim's transaction looks the lease up and retires it in one step. -/
theorem keepsEnded_commit (userId : String) (vehicle : Vehicle) (session : Session) (now t : Time)
    (db : Db) : db.KeepsEnded ((claimTransaction userId vehicle session now).commit t db).1 := by
  rcases commit_claimTransaction userId vehicle session now t db with
    ⟨_, -, hout⟩ | ⟨-, ⟨-, hout⟩ | ⟨-, hout⟩⟩
  · rw [hout]
    exact .of_eq rfl
  · rw [hout]
    have hretired : db.KeepsEnded { db with leases := db.retired vehicle.id (released now) } :=
      keepsEnded_retired ⟨now, .inl rfl⟩
    exact hretired.trans (keepsEnded_append rfl)
  · rw [hout]
    exact .of_eq rfl

end

-- ---------------------------------------------------------------------------
-- The contract
-- ---------------------------------------------------------------------------

/-- A request remembers the lease it last found. -/
def finalityWorld : World Call Call.Reply Db Choice (Option ControlLease) where
  exec := Call.exec
  blank := none
  observe n _ c r :=
    match c, r with
    | .query (.leaseFindActive _ _), .ok lease => lease
    | _, _ => n

/-- The call updates a lease that has changed since the request found it. -/
def UpdatesStale (e : Choice) (n : Option ControlLease) (c : Call) (db : Db) : Prop :=
  ∃ id data lease, c = .query (.leaseUpdate id data) ∧ e.fails = false ∧ n = some lease ∧
    db.leases[id]? ≠ some lease.toLeaseRow

def finality : Contract LeaseRoute Call Response Db Choice (Option ControlLease) where
  inv _ := True
  rely _ _ := True
  here _ _ _ _ := True
  guar _ e n c db _ _ db' := ¬ UpdatesStale e n c db → db.KeepsEnded db'
  refl _ := trivial
  trans _ _ := trivial
  rely_of_guar _ := trivial

abbrev KeepsFinal (route : LeaseRoute) (n : Option ControlLease)
    (prog : Prog Call Call.Reply Response) (db : Db) : Prop :=
  finality.Kept finalityWorld route n prog db

section
variable {route : LeaseRoute} {n : Option ControlLease} {db : Db}

theorem finality_runs : Runs finalityWorld id := fun _ _ _ => rfl

theorem keepsFinal_done (r : Response) : KeepsFinal route n (.done r) db := fun _ _ _ => trivial

theorem keepsFinal_read {q : Query} {f : q.Reply → Handler Response} (hq : q.isRead = true)
    (hf : ∀ v n db', KeepsFinal route n (Handler.serve (f v)) db') :
    KeepsFinal route n (Handler.serve (Handler.query q >>= f)) db :=
  kept_read finality_runs hq (fun _ _ _ => trivial) (fun _ _ _ _ _ _ _ => .of_eq rfl)
    (fun _ _ _ => keepsFinal_done _) fun _ v _ _ _ => hf v _ _

theorem keepsFinal_find {v : String} {t : Option Time}
    {f : (Query.leaseFindActive v t).Reply → Handler Response}
    (hf : ∀ db', KeepsFinal route (db'.activeLease? v t) (Handler.serve (f (db'.activeLease? v t))) db') :
    KeepsFinal route n (Handler.serve (Handler.query (.leaseFindActive v t) >>= f)) db := by
  refine kept_read finality_runs rfl (fun _ _ _ => trivial) (fun _ _ _ _ _ _ _ => .of_eq rfl)
    (fun _ _ _ => keepsFinal_done _) fun db' lease? _ _ hl => ?_
  obtain rfl : db'.activeLease? v t = lease? := Query.value_eq hl rfl
  exact hf db'

theorem keepsFinal_now {f : Time → Handler Response}
    (hf : ∀ now db', KeepsFinal route n (Handler.serve (f now)) db') :
    KeepsFinal route n (Handler.serve (Handler.now >>= f)) db :=
  kept_now finality_runs (fun _ _ _ => trivial) (fun _ _ _ _ _ _ _ => .of_eq rfl)
    fun _ _ _ _ => hf _ _

theorem keepsFinal_audit {event : EventData} {f : Unit → Handler Response}
    (hf : ∀ n db', KeepsFinal route n (Handler.serve (f ())) db') :
    KeepsFinal route n (Handler.serve (audit event >>= f)) db :=
  kept_audit finality_runs (fun _ _ _ => trivial) (fun _ _ _ _ _ _ _ _ => .of_eq rfl)
    fun _ _ _ _ _ => hf _ _

/-- The update is made of the lease the request found, unless that has changed. -/
theorem keepsFinal_update {lease : ControlLease} {data : LeaseUpdate} {f : Unit → Handler Response}
    (hs : lease.status = .active) (hd : data.Ends)
    (hf : ∀ n db', KeepsFinal route n (Handler.serve (f ())) db') :
    KeepsFinal route (some lease)
      (Handler.serve (Handler.query (.leaseUpdate lease.id data) >>= f)) db := by
  refine kept_query finality_runs (fun _ _ _ => trivial) ?_ (fun _ _ _ => keepsFinal_done _)
    (fun _ _ _ _ _ _ _ _ => hf _ _) fun _ _ _ _ _ _ _ _ => keepsFinal_done _
  intro db' e n' q _ _ hfresh
  cases hfails : e.fails with
  | true =>
    rw [id, Query.exec_of_fails hfails]
    exact .of_eq rfl
  | false =>
    rw [id, Query.exec_of_not_fails hfails]
    have hrow : db'.leases[lease.id]? = some lease.toLeaseRow := by
      by_contra hchanged
      exact hfresh ⟨lease.id, data, lease, rfl, hfails, rfl, hchanged⟩
    rw [Query.answer, if_pos (List.getElem?_eq_some_iff.mp hrow).1]
    exact keepsEnded_modify hrow hs hd

theorem keepsFinal_create {data : LeaseData} {f : (Query.leaseCreate data).Reply → Handler Response}
    (hs : data.status = .active)
    (hf : ∀ lease n db', KeepsFinal route n (Handler.serve (f lease)) db') :
    KeepsFinal route n (Handler.serve (Handler.query (.leaseCreate data) >>= f)) db := by
  refine kept_query finality_runs (fun _ _ _ => trivial) ?_ (fun _ _ _ => keepsFinal_done _)
    (fun _ _ _ _ _ _ _ _ => hf _ _ _) fun _ _ _ _ _ _ _ _ => keepsFinal_done _
  intro db' e n' q _ _ _
  cases hfails : e.fails with
  | true =>
    rw [id, Query.exec_of_fails hfails]
    exact .of_eq rfl
  | false =>
    rw [id, Query.exec_of_not_fails hfails]
    simp only [Query.answer]
    split
    · exact keepsEnded_append hs
    · exact .of_eq rfl

-- ---------------------------------------------------------------------------
-- The handlers
-- ---------------------------------------------------------------------------

theorem keepsFinal_claim (req : LeaseRequest) : KeepsFinal route n (claim req) db := by
  have hcalls : (claim req).AllCalls fun c => ∀ e (db : Db), db.KeepsEnded (Call.exec e db c).1 := by
    refine claim_allCalls (fun c hc e db => ?_) (fun userId vehicle session now e db => ?_) req
    · obtain ⟨events, hexec⟩ := Call.exec_isQuiet hc e db
      rw [hexec]
      exact .of_eq rfl
    · rw [Call.exec_transaction]
      split
      · exact .of_eq rfl
      · exact keepsEnded_commit userId vehicle session now _ db
  exact hcalls.kept (fun _ _ _ => trivial) fun e _ c db _ _ hc _ _ => hc e db

theorem keepsFinal_takeoverAssign {req : LeaseRequest} {ctx : AuthContext} {body : TakeoverBody}
    {vehicle : Vehicle} {now : Time} {oldOperatorId : Option String} :
    KeepsFinal route n (Handler.serve (takeoverAssign req ctx body vehicle now oldOperatorId)) db := by
  unfold takeoverAssign
  refine keepsFinal_read rfl fun user? _ _ => ?_
  cases user? with
  | none => exact keepsFinal_done _
  | some user =>
    refine keepsFinal_read rfl fun session? _ _ => ?_
    cases session? with
    | none => exact keepsFinal_done _
    | some session =>
      exact keepsFinal_create rfl fun _ _ _ => keepsFinal_audit fun _ _ => keepsFinal_done _

theorem keepsFinal_takeover (req : LeaseRequest) : KeepsFinal route n (takeover req) db := by
  unfold takeover
  refine kept_caller (fun _ => keepsFinal_done _) fun ctx _ => ?_
  refine kept_orThrow (fun _ _ => keepsFinal_done _) fun body _ => ?_
  simp only
  split
  · exact keepsFinal_done _
  · refine keepsFinal_read rfl fun vehicle? _ _ => ?_
    cases vehicle? with
    | none => exact keepsFinal_done _
    | some vehicle =>
      refine keepsFinal_now fun now _ => keepsFinal_find fun db' => ?_
      cases hl : db'.activeLease? vehicle.id none with
      | none => exact keepsFinal_takeoverAssign
      | some lease =>
        obtain ⟨-, -, hs, -⟩ := activeLease?_row hl
        exact keepsFinal_update hs ⟨now, .inr rfl⟩ fun _ _ => keepsFinal_takeoverAssign

theorem keepsFinal_release (req : LeaseRequest) : KeepsFinal route n (release req) db := by
  unfold release
  refine kept_caller (fun _ => keepsFinal_done _) fun ctx _ => ?_
  refine keepsFinal_read rfl fun vehicle? _ _ => ?_
  cases vehicle? with
  | none => exact keepsFinal_done _
  | some vehicle =>
    refine keepsFinal_now fun now _ => keepsFinal_find fun db' => ?_
    cases hl : db'.activeLease? vehicle.id (some now) with
    | none => exact keepsFinal_done _
    | some lease =>
      obtain ⟨-, -, hs, -⟩ := activeLease?_row hl
      simp only
      split
      · exact keepsFinal_done _
      · refine keepsFinal_update hs ⟨now, .inl rfl⟩ fun _ _ => ?_
        exact keepsFinal_audit fun _ _ => keepsFinal_done _

end

-- ---------------------------------------------------------------------------
-- Every interleaving
-- ---------------------------------------------------------------------------

abbrev FinalityPool := Pool LeaseRoute Call Call.Reply Response Db (Option ControlLease)

def finalitySystem (db : Db) : System FinalityPool (Event LeaseRoute Choice) Unit :=
  pool finalityWorld LeaseRoute.handler db

abbrev FinalityEntry := Entry FinalityPool (Event LeaseRoute Choice) Unit
abbrev FinalityLog := Log FinalityPool (Event LeaseRoute Choice) Unit

/-- A lease that has ended stays as it ended, and ended one way only. -/
def EndsOnce (x : FinalityEntry) (_ : FinalityLog) : Prop :=
  (∀ (i : Nat) (row : LeaseRow), x.before.world.leases[i]? = some row → row.Ended →
      ∃ row' : LeaseRow, x.after.world.leases[i]? = some row' ∧ row'.ending = row.ending) ∧
    x.after.world.EndsMatch

/-- A release or a takeover updates a lease that has changed since it found it. -/
def EndsStale (x : FinalityEntry) : Prop :=
  ∃ route e n c, x.before.call? x.event = some (route, e, n, c) ∧ UpdatesStale e n c x.before.world

theorem keepsFinal_handler (route : LeaseRoute) (n : Option ControlLease) (db : Db) :
    KeepsFinal route n route.handler db := by
  cases route with
  | claim req => exact keepsFinal_claim req
  | takeover req => exact keepsFinal_takeover req
  | release req => exact keepsFinal_release req

/-- From leases that have ended one way at most, in every run without such an
update, no lease ends again. -/
theorem ends_once (db : Db) (h : db.EndsMatch) (es : List (Event LeaseRoute Choice)) :
    Always (fun x _ => ¬ EndsStale x) ((finalitySystem db).log es) →
      Always EndsOnce ((finalitySystem db).log es) := by
  have hstart : Pool.Kept finalityWorld finality (finalitySystem db).init :=
    ⟨trivial, fun _ ht => absurd ht List.not_mem_nil⟩
  refine System.always_of_invariant (fun l =>
    Pool.Kept finalityWorld finality ((finalitySystem db).state l) ∧
      ((finalitySystem db).state l).world.EndsMatch) ⟨hstart, h⟩ ?_ es
  rintro past e ⟨hkept, hmatch⟩ hfresh
  have hkept' : Pool.Kept finalityWorld finality
      ((finalitySystem db).step ((finalitySystem db).state past) e).1 :=
    hkept.step LeaseRoute.handler (fun route w _ => keepsFinal_handler route none w) e trivial
  have hstep : ((finalitySystem db).state past).world.KeepsEnded
      ((finalitySystem db).step ((finalitySystem db).state past) e).1.world := by
    cases hcall : ((finalitySystem db).state past).call? e with
    | none => exact .of_eq (congrArg Db.leases (Pool.world_of_no_call hcall))
    | some call =>
      obtain ⟨route, choice, n, c⟩ := call
      obtain ⟨_, _, hguar⟩ := hkept.call LeaseRoute.handler hcall
      exact hguar fun hstale => hfresh ⟨route, choice, n, c, hcall, hstale⟩
  exact ⟨⟨hkept', hstep.ends_match hmatch⟩, hstep.stays, hstep.ends_match hmatch⟩

private def shift : Db where
  users :=
    [⟨"alice", "alice@rvep.dev", "", .operator, 0, none, 0⟩,
      ⟨"bob", "bob@rvep.dev", "", .operator, 0, none, 0⟩]
  vehicles := [⟨"v1", "vehicle-001", "UGV 1", .wheeled, .online⟩]
  permissions := [⟨"alice", "v1", .operator, 1, none, 0⟩]
  sessions :=
    [⟨"s1", "web-alice", "v1", "alice", 1, .active, 0, .control⟩,
      ⟨"s2", "web-bob", "v1", "bob", 1, .active, 0, .control⟩]
  leases := [⟨⟨"v1", "alice", "s1", 1, .active, 1800000⟩, 0, none, none⟩]
  events := []

private def aliceReleases : LeaseRoute :=
  .release ⟨some ⟨"alice", .operator⟩, "vehicle-001", none⟩

private def bobRelieves : LeaseRoute :=
  .takeover ⟨some ⟨"root", .admin⟩, "vehicle-001",
    some (.obj [("reason", .str "shift change"), ("newOperatorId", .str "bob")])⟩

private def advance (task count : Nat) (now : Time) : List (Event LeaseRoute Choice) :=
  List.replicate count (.step task ⟨now, false⟩)

private theorem shift_ends_match : shift.EndsMatch := by
  intro i row hrow
  obtain rfl : ⟨⟨"v1", "alice", "s1", 1, .active, 1800000⟩, 0, none, none⟩ = row :=
    List.mem_singleton.mp (List.mem_of_getElem? hrow) ▸ rfl
  unfold LeaseRow.EndMatches
  decide

theorem ends_once_release :
    shift.EndsMatch ∧
      Always EndsOnce ((finalitySystem shift).log (advance 0 4 1000 ++ [.spawn aliceReleases])) := by
  refine ⟨shift_ends_match, ends_once shift shift_ends_match _ ⟨?_, ?_, ?_, ?_, ?_, trivial⟩⟩
  case refine_1 =>
    rintro ⟨route, e, n, c, hcall, id, data, lease, rfl, -, hn, hchanged⟩
    cases hcall
    cases hn
    exact hchanged rfl
  all_goals
    rintro ⟨route, e, n, c, hcall, id, data, lease, rfl, -⟩
    exact absurd hcall nofun

/-- A release finds the lease, a takeover revokes it, and the release then
releases it. Newest first. -/
def releaseRace : List (Event LeaseRoute Choice) :=
  advance 0 1 2000 ++ advance 1 4 1500 ++ advance 0 3 1000 ++
    [.spawn bobRelieves, .spawn aliceReleases]

theorem release_race_ends_twice :
    shift.EndsMatch ∧ ¬ Always EndsOnce ((finalitySystem shift).log releaseRace) := by
  refine ⟨shift_ends_match, fun h => ?_⟩
  obtain ⟨row, hrow, hending⟩ := h.1.1 0 _ rfl (.inr rfl)
  cases hrow
  exact absurd hending (by decide)

end Rvep.Backend
