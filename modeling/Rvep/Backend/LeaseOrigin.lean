import Mathlib.Data.List.Nodup
import Rvep.Backend.LeaseEffects

/-!
# On whose session and with what permission a lease is created

A claim creates the lease of its caller, a takeover that of the operator it
names. A claim checks its caller's permission and takes the session it is
given; a takeover looks for a session of the new operator and takes the
permission as given.
-/

namespace Rvep.Backend

open Interleaving Reactive

def Db.NewLease (db db' : Db) (row : LeaseRow) : Prop :=
  ∃ i, db.leases.length ≤ i ∧ db'.leases[i]? = some row

/-- The user may operate the vehicle. -/
def Db.Permits (db : Db) (userId vehicleId : String) : Prop :=
  ∃ p ∈ db.permissions, p.userId = userId ∧ p.vehicleId = vehicleId ∧
    (p.role = .operator ∨ p.role = .admin)

/-- The lease is on an ACTIVE session of its operator on its vehicle. -/
def Db.OnLiveSession (db : Db) (row : LeaseRow) : Prop :=
  ∃ s ∈ db.sessions, s.id = row.sessionId ∧ s.status = .active ∧ s.userId = row.operatorId ∧
    s.vehicleId = row.vehicleId ∧ s.connectionEpoch = row.connectionEpoch

/-- `Session.id` is a key. -/
def Db.SessionKeys (db : Db) : Prop := (db.sessions.map (·.id)).Nodup

section
variable {db : Db}

theorem hasRole_operator {role : Role} (h : hasRole role .operator = true) :
    role = .operator ∨ role = .admin := by
  cases role with
  | admin => exact .inr rfl
  | operator => exact .inl rfl
  | viewer => exact absurd h (by decide)

theorem permits_of_permission {userId vehicleId : String}
    (h : (db.permission? userId vehicleId).any (hasRole ·.role .operator) = true) :
    db.Permits userId vehicleId := by
  obtain ⟨p, hp, hrole⟩ := (Option.any_eq_true ..).mp h
  have hkey := List.find?_some hp
  simp only [Bool.and_eq_true, beq_iff_eq] at hkey
  exact ⟨p, List.mem_of_find?_eq_some hp, hkey.1, hkey.2, hasRole_operator hrole⟩

theorem activeSession?_spec {vehicleId userId : String} {s : Session}
    (h : db.activeSession? vehicleId userId = some s) :
    s ∈ db.sessions ∧ s.vehicleId = vehicleId ∧ s.userId = userId ∧ s.status = .active := by
  have hmem := List.argmax_mem h
  rw [List.mem_filter] at hmem
  simpa [and_assoc] using hmem

theorem Db.SessionKeys.eq (h : db.SessionKeys) {s s' : Session} (hs : s ∈ db.sessions)
    (hs' : s' ∈ db.sessions) (hid : s.id = s'.id) : s = s' :=
  List.inj_on_of_nodup_map h hs hs' hid

/-- Whatever a request creates, it is the lease of a claim's caller or of a
takeover's new operator, after all its checks. -/
theorem new_lease_cases (route : LeaseRoute) (choices : Nat → Choice) (db : Db) :
    let out := route.handler.run Call.exec choices db
    db.SameTables out.1 ∧ (out.1.leases.length = db.leases.length ∨
      ∃ row, (∀ row', db.NewLease out.1 row' ↔ row' = row) ∧
        ((∃ req ctx body vehicle session now, route = .claim req ∧
            MayClaim req db ctx body vehicle session ∧
            row.toLeaseData = newLease vehicle.id ctx.userId session now) ∨
          ∃ req ctx body vehicle session now, route = .takeover req ∧
            MayTakeOver req db ctx body vehicle session ∧
            row.toLeaseData = newLease vehicle.id body.newOperatorId session now)) := by
  intro out
  have honly (base : List LeaseRow) (row : LeaseRow) (hb : base.length = db.leases.length)
      (hout : out.1.leases = base ++ [row]) (row' : LeaseRow) :
      db.NewLease out.1 row' ↔ row' = row := by
    constructor
    · rintro ⟨i, hi, hrow⟩
      rw [hout, List.getElem?_append_right (hb ▸ hi)] at hrow
      exact List.mem_singleton.mp (List.mem_of_getElem? hrow)
    · rintro rfl
      exact ⟨base.length, hb.ge, by rw [hout]; simp⟩
  cases route with
  | claim req =>
    obtain ⟨hsame, hkeep | ⟨ctx, body, vehicle, session, now, t, hmay, hnew⟩⟩ :=
      (claim_finishes req db).run choices
    · exact ⟨hsame, .inl (congrArg List.length hkeep)⟩
    · exact ⟨hsame, .inr ⟨_, honly _ _ length_retired hnew,
        .inl ⟨req, ctx, body, vehicle, session, now, rfl, hmay, rfl⟩⟩⟩
  | takeover req =>
    obtain ⟨hsame, hkeep | ⟨ctx, body, vehicle, session, now, t, hmay, hnew⟩⟩ :=
      (takeover_finishes req db).run choices
    · exact ⟨hsame, .inl hkeep.length⟩
    · exact ⟨hsame, .inr ⟨_, honly _ _ length_retired hnew,
        .inr ⟨req, ctx, body, vehicle, session, now, rfl, hmay, rfl⟩⟩⟩
  | release req =>
    obtain ⟨hsame, hkeep⟩ := (release_finishes req db).run choices
    exact ⟨hsame, .inl hkeep.length⟩

end

-- ---------------------------------------------------------------------------
-- Permissions
-- ---------------------------------------------------------------------------

/-- A takeover names an operator who may operate the vehicle. -/
def LeaseRoute.AssignsPermitted (db : Db) : LeaseRoute → Prop
  | .takeover req => ∀ body vehicle, validateBody req.body takeoverLeaseSchema = .ok body →
      db.vehicle? req.vehicleId = some vehicle → db.Permits body.newOperatorId vehicle.id
  | .claim _ | .release _ => True

theorem Db.SameTables.permits {db db' : Db} (h : db.SameTables db') {userId vehicleId : String} :
    db'.Permits userId vehicleId ↔ db.Permits userId vehicleId := by
  unfold Db.Permits
  rw [h.permissions]

/-- Run alone, a request that creates a lease creates it for a permitted
operator, unless it is a takeover that names another. -/
theorem new_lease_permitted_iff (route : LeaseRoute) (choices : Nat → Choice) (db : Db) :
    let out := route.handler.run Call.exec choices db
    db.leases.length < out.1.leases.length →
      ((∀ row, db.NewLease out.1 row → out.1.Permits row.operatorId row.vehicleId) ↔
        route.AssignsPermitted db) := by
  intro out hcreates
  obtain ⟨hsame, hkeep | ⟨row, honly, hcase⟩⟩ := new_lease_cases route choices db
  · exact absurd hkeep hcreates.ne'
  · simp only [out, honly, forall_eq, hsame.permits]
    rcases hcase with ⟨req, ctx, body, vehicle, session, now, rfl, hmay, hrow⟩ |
      ⟨req, ctx, body, vehicle, session, now, rfl, hmay, hrow⟩
    · refine iff_of_true ?_ trivial
      rw [hrow]
      exact permits_of_permission hmay.permitted
    · rw [hrow]
      constructor
      · intro hpermits body' vehicle' hbody hvehicle
        obtain rfl : body = body' := Except.ok.inj (hmay.valid.symm.trans hbody)
        obtain rfl : vehicle = vehicle' := Option.some.inj (hmay.found.symm.trans hvehicle)
        exact hpermits
      · intro h
        exact h body vehicle hmay.valid hmay.found

private def yard : Db where
  users :=
    [⟨"alice", "alice@rvep.dev", "", .operator, 0, none, 0⟩,
      ⟨"bob", "bob@rvep.dev", "", .operator, 0, none, 0⟩]
  vehicles := [⟨"v1", "vehicle-001", "UGV 1", .wheeled, .online⟩]
  permissions := [⟨"alice", "v1", .operator, 1, none, 0⟩]
  sessions :=
    [⟨"s1", "web-alice", "v1", "alice", 1, .active, 0, .control⟩,
      ⟨"s2", "web-bob", "v1", "bob", 1, .active, 0, .control⟩]
  leases := []
  events := []

private def calm : Nat → Choice := fun _ => ⟨1000, false⟩

/-- A caller claims the vehicle on a session. -/
private def claimsOn (userId sessionId : String) : LeaseRoute :=
  .claim ⟨some ⟨userId, .operator⟩, "vehicle-001", some (.obj [("sessionId", .str sessionId)])⟩

private def handsTo (userId : String) : LeaseRoute :=
  .takeover ⟨some ⟨"root", .admin⟩, "vehicle-001",
    some (.obj [("reason", .str "shift change"), ("newOperatorId", .str userId)])⟩

theorem new_lease_permitted_claim :
    let out := (claimsOn "alice" "web-alice").handler.run Call.exec calm yard
    yard.leases.length < out.1.leases.length ∧
      ∀ row, yard.NewLease out.1 row → out.1.Permits row.operatorId row.vehicleId := by
  have hcreates : yard.leases.length <
      ((claimsOn "alice" "web-alice").handler.run Call.exec calm yard).1.leases.length := by decide
  exact ⟨hcreates,
    (new_lease_permitted_iff (claimsOn "alice" "web-alice") calm yard hcreates).mpr trivial⟩

/-- A takeover creates a lease for an operator without permission on the vehicle. -/
theorem takeover_assigns_unpermitted :
    let out := (handsTo "bob").handler.run Call.exec calm yard
    yard.leases.length < out.1.leases.length ∧
      ∃ row, yard.NewLease out.1 row ∧ ¬ out.1.Permits row.operatorId row.vehicleId := by
  refine ⟨by decide, _, ⟨0, Nat.le_refl 0, rfl⟩, ?_⟩
  rintro ⟨p, hp, huser, -⟩
  have hp : p ∈ [(⟨"alice", "v1", .operator, 1, none, 0⟩ : VehiclePermission)] := hp
  rw [List.mem_singleton.mp hp] at huser
  exact absurd huser (by decide)

-- ---------------------------------------------------------------------------
-- Sessions
-- ---------------------------------------------------------------------------

/-- Lease requests one after another, each with the environment it meets. -/
def leaseSequence (db : Db) : System Db (LeaseRoute × (Nat → Choice)) Response where
  init := db
  step db request := request.1.handler.run Call.exec request.2 db

abbrev SequenceEntry := Entry Db (LeaseRoute × (Nat → Choice)) Response
abbrev SequenceLog := Log Db (LeaseRoute × (Nat → Choice)) Response

/-- The session a claim names is its caller's, on the vehicle, and ACTIVE. -/
def LeaseRoute.NamesLiveSession (db : Db) : LeaseRoute → Prop
  | .claim req => ∀ ctx body vehicle session, req.caller = some ctx →
      validateBody req.body claimLeaseSchema = .ok body → db.vehicle? req.vehicleId = some vehicle →
      db.session? body.sessionId = some session →
        session.status = .active ∧ session.userId = ctx.userId ∧ session.vehicleId = vehicle.id
  | .takeover _ | .release _ => True

def CreatesLease (x : SequenceEntry) : Prop := x.before.leases.length < x.after.leases.length

def CreatesOnLiveSession (x : SequenceEntry) (_ : SequenceLog) : Prop :=
  CreatesLease x → ∀ row, x.before.NewLease x.after row → x.after.OnLiveSession row

def ClaimsOnLiveSession (x : SequenceEntry) (_ : SequenceLog) : Prop :=
  CreatesLease x → x.event.1.NamesLiveSession x.before

theorem session?_mem {db : Db} {sessionId : String} {s : Session} (h : db.session? sessionId = some s) :
    s ∈ db.sessions := List.mem_of_find?_eq_some h

theorem creates_on_live_session_iff {db : Db} (h : db.SessionKeys) (start : Db)
    (request : LeaseRoute × (Nat → Choice)) (past : SequenceLog) :
    let x := (leaseSequence start).react db request
    x.after.sessions = db.sessions ∧
      (CreatesOnLiveSession x past ↔ ClaimsOnLiveSession x past) := by
  intro x
  obtain ⟨hsame, hkeep | ⟨row, honly, hcase⟩⟩ := new_lease_cases request.1 request.2 db
  · have hnone : ¬ CreatesLease x := fun hcreates => absurd hkeep hcreates.ne'
    exact ⟨hsame.sessions, iff_of_true (absurd · hnone) (absurd · hnone)⟩
  · refine ⟨hsame.sessions, imp_congr_right fun _ => ?_⟩
    have hlive : (∀ row', db.NewLease x.after row' → x.after.OnLiveSession row') ↔
        db.OnLiveSession row := by
      have hpoint : ∀ row', db.NewLease x.after row' ↔ row' = row := honly
      have hsessions : x.after.sessions = db.sessions := hsame.sessions
      simp only [hpoint, forall_eq, Db.OnLiveSession, hsessions]
    refine hlive.trans ?_
    rcases hcase with ⟨req, ctx, body, vehicle, session, now, hroute, hmay, hrow⟩ |
      ⟨req, ctx, body, vehicle, session, now, hroute, hmay, hrow⟩
    · have hevent : x.event.1 = .claim req := hroute
      have hmem := session?_mem hmay.resolved
      rw [hevent, Db.OnLiveSession, hrow]
      constructor
      · rintro ⟨s, hs, hid, hstatus, huser, hvehicle, -⟩ ctx' body' vehicle' session' hctx hbody hv hses
        obtain rfl : ctx = ctx' := Option.some.inj (hmay.authenticated.symm.trans hctx)
        obtain rfl : body = body' := Except.ok.inj (hmay.valid.symm.trans hbody)
        obtain rfl : vehicle = vehicle' := Option.some.inj (hmay.found.symm.trans hv)
        obtain rfl : session = session' := Option.some.inj (hmay.resolved.symm.trans hses)
        obtain rfl : s = session := h.eq hs hmem hid
        exact ⟨hstatus, huser, hvehicle⟩
      · intro hnames
        obtain ⟨hstatus, huser, hvehicle⟩ := hnames ctx body vehicle session hmay.authenticated
          hmay.valid hmay.found hmay.resolved
        exact ⟨session, hmem, rfl, hstatus, huser, hvehicle, rfl⟩
    · have hevent : x.event.1 = .takeover req := hroute
      obtain ⟨hmem, hvehicle, huser, hstatus⟩ := activeSession?_spec hmay.resolved
      rw [hevent, Db.OnLiveSession, hrow]
      exact iff_of_true ⟨session, hmem, rfl, hstatus, huser, hvehicle, rfl⟩ trivial

/-- In a run of requests, every lease is created on a live session of its
operator on its vehicle exactly when every claim that creates one names such a
session of its caller. -/
theorem created_on_live_session_iff (db : Db) (h : db.SessionKeys)
    (es : List (LeaseRoute × (Nat → Choice))) :
    Always CreatesOnLiveSession ((leaseSequence db).log es) ↔
      Always ClaimsOnLiveSession ((leaseSequence db).log es) := by
  refine System.always_iff
    (fun l => ((leaseSequence db).state l).sessions = db.sessions) rfl ?_ es
  intro past request hsessions
  have hkeys : ((leaseSequence db).state past).SessionKeys := by
    rw [Db.SessionKeys, hsessions]
    exact h
  obtain ⟨hsame, hiff⟩ := creates_on_live_session_iff hkeys db request past
  exact ⟨hiff, fun _ => hsame.trans hsessions⟩

theorem created_on_live_session_claim :
    yard.SessionKeys ∧ Always CreatesOnLiveSession
      ((leaseSequence yard).log [(claimsOn "alice" "web-alice", calm)]) := by
  have hkeys : yard.SessionKeys := by
    unfold Db.SessionKeys
    decide
  refine ⟨hkeys, (created_on_live_session_iff yard hkeys _).mpr ⟨?_, trivial⟩⟩
  intro _ ctx body vehicle session hctx hbody hvehicle hsession
  obtain rfl : (⟨"alice", .operator⟩ : AuthContext) = ctx := Option.some.inj hctx
  obtain rfl : (⟨"web-alice"⟩ : ClaimBody) = body := Except.ok.inj hbody
  obtain rfl : (⟨"v1", "vehicle-001", "UGV 1", .wheeled, .online⟩ : Vehicle) = vehicle := Option.some.inj hvehicle
  obtain rfl : (⟨"s1", "web-alice", "v1", "alice", 1, .active, 0, .control⟩ : Session) = session :=
    Option.some.inj hsession
  exact ⟨rfl, rfl, rfl⟩

/-- Alice claims the vehicle on the session of another operator. -/
theorem claim_on_other_session :
    ¬ Always CreatesOnLiveSession
      ((leaseSequence yard).log [(claimsOn "alice" "web-bob", calm)]) := by
  intro h
  have hcreates : CreatesLease
      ((leaseSequence yard).react yard (claimsOn "alice" "web-bob", calm)) := by
    unfold CreatesLease
    decide
  obtain ⟨s, hs, hid, -, huser, -⟩ := h.1 hcreates _ ⟨0, Nat.le_refl 0, rfl⟩
  have hs : s ∈ yard.sessions := hs
  have hid : s.id = "s2" := hid
  have huser : s.userId = "alice" := huser
  simp only [yard, List.mem_cons, List.not_mem_nil, or_false] at hs
  rcases hs with rfl | rfl
  · exact absurd hid (by decide)
  · exact absurd huser (by decide)

end Rvep.Backend
