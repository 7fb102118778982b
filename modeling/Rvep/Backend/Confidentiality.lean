import Rvep.Backend.Listings

/-!
# What a caller can learn of a vehicle

Two databases that differ only in one vehicle's leases, telemetry, events and
assets, read by a caller who has no permission on that vehicle. The listings
tell them apart for nobody; the two routes that only ask who the caller is do.
-/

namespace Rvep.Backend

open Interleaving

-- ---------------------------------------------------------------------------
-- Two databases
-- ---------------------------------------------------------------------------

/-- Ids are unique, and no vehicle's `vehicleId` is another's `id`. -/
structure Db.Keyed (db : Db) : Prop where
  vehicleId : ∀ v ∈ db.vehicles, ∀ w ∈ db.vehicles, v.vehicleId = w.vehicleId → v = w
  id : ∀ v ∈ db.vehicles, ∀ w ∈ db.vehicles, v.id = w.id → v = w
  apart : ∀ v ∈ db.vehicles, ∀ w ∈ db.vehicles, v.vehicleId = w.id → v = w

/-- The user has a permission on the vehicle, whatever its role. -/
def Db.HasPermission (db : Db) (userId : String) (v : Vehicle) : Prop :=
  ∃ p ∈ db.permissions, p.userId = userId ∧ p.vehicleId = v.id

/-- The databases differ in the vehicle's leases, telemetry, events and assets at most. -/
structure Db.AgreeOff (v : Vehicle) (db db' : Db) : Prop where
  users : db.users = db'.users
  vehicles : db.vehicles = db'.vehicles
  permissions : db.permissions = db'.permissions
  sessions : db.sessions = db'.sessions
  leases : db.leases.filter (·.vehicleId != v.id) = db'.leases.filter (·.vehicleId != v.id)
  telemetryFrames : db.telemetryFrames.filter (·.vehicleId != v.vehicleId) =
    db'.telemetryFrames.filter (·.vehicleId != v.vehicleId)
  events : db.events.filter (fun e => e.vehicleId != some v.id && e.vehicleId != some v.vehicleId) =
    db'.events.filter fun e => e.vehicleId != some v.id && e.vehicleId != some v.vehicleId
  datasetAssets : db.datasetAssets.filter (·.vehicleId != v.vehicleId) =
    db'.datasetAssets.filter (·.vehicleId != v.vehicleId)

theorem filter_of_filter {p q : α → Bool} {rows rows' : List α} (h : rows.filter p = rows'.filter p)
    (hqp : ∀ a, q a = true → p a = true) : rows.filter q = rows'.filter q := by
  have hboth : ∀ l : List α, (l.filter p).filter q = l.filter q := by
    intro l
    rw [List.filter_filter]
    refine List.filter_congr fun a _ => ?_
    cases hq : q a with
    | false => rfl
    | true => rw [hqp a hq, Bool.and_self]
  rw [← hboth, h, hboth]

section
variable {v w : Vehicle} {db db' : Db} (h : db.AgreeOff v db')
include h

theorem activeLease?_agree (hid : w.id ≠ v.id) (t : Option Time) :
    (db.activeLease? w.id t).map (·.toLeaseRow) = (db'.activeLease? w.id t).map (·.toLeaseRow) := by
  rw [Db.activeLease?_toLeaseRow, Db.activeLease?_toLeaseRow]
  refine congrArg _ (filter_of_filter h.leases fun l hl => ?_)
  simp only [Bool.and_eq_true, beq_iff_eq] at hl
  simpa [hl.1.1] using hid

theorem latestTelemetry?_agree {vehicleId : String} (hid : vehicleId ≠ v.vehicleId) :
    db.latestTelemetry? vehicleId = db'.latestTelemetry? vehicleId := by
  refine congrArg _ (filter_of_filter h.telemetryFrames fun f hf => ?_)
  simpa [beq_iff_eq.mp hf] using hid

theorem eventList_agree {key : String} (hid : key ≠ v.id) (hvehicleId : key ≠ v.vehicleId)
    (take : Nat) : db.eventList (some key) take = db'.eventList (some key) take := by
  refine congrArg _ (filter_of_filter h.events fun e he => ?_)
  simp only [Option.all_some, beq_iff_eq] at he
  simp [he, hid, hvehicleId]

theorem assetList_agree {vehicleId : String} (hid : vehicleId ≠ v.vehicleId) (take : Nat) :
    db.assetList (some vehicleId) take = db'.assetList (some vehicleId) take := by
  rw [Db.assetList, Db.assetList, h.sessions]
  refine congrArg (fun rows => (Ranking.top _ take rows).map _)
    (filter_of_filter h.datasetAssets fun a ha => ?_)
  simp only [Option.all_some, beq_iff_eq] at ha
  simpa [ha] using hid

end

-- ---------------------------------------------------------------------------
-- Two runs
-- ---------------------------------------------------------------------------

/-- Run alone on either database, the handlers answer the same. -/
def SameAnswer (db db' : Db) (handler handler' : Handler Response) : Prop :=
  ∀ choices, (handler.alone choices db).2 = (handler'.alone choices db').2

section
variable {db db' : Db}

theorem sameAnswer_done {handler : Handler Response} {r : Response}
    (h : handler.serve = .done r) : SameAnswer db db' handler handler := by
  intro choices
  rw [Handler.alone, Handler.alone, h]
  rfl

theorem sameAnswer_now {f f' : Time → Handler Response}
    (h : ∀ t, SameAnswer db db' (f t) (f' t)) :
    SameAnswer db db' (Handler.now >>= f) (Handler.now >>= f') := fun choices => by
  rw [alone_now_bind, alone_now_bind]
  exact h _ _

/-- A read fails on both databases, or is answered on both. -/
theorem sameAnswer_read {q : Query} {f f' : q.Reply → Handler Response} {v v' : q.Reply}
    (hv : ∀ now, q.answer now db = (db, .ok v)) (hv' : ∀ now, q.answer now db' = (db', .ok v'))
    (h : SameAnswer db db' (f v) (f' v')) :
    SameAnswer db db' (Handler.query q >>= f) (Handler.query q >>= f') := fun choices => by
  cases hfails : (choices 0).fails with
  | true => rw [alone_query_fails f hfails, alone_query_fails f' hfails]
  | false =>
    rw [alone_query_ok f hfails (hv _), alone_query_ok f' hfails (hv' _)]
    exact h _

theorem sameAnswer_same {q : Query} {f : q.Reply → Handler Response} {v : q.Reply}
    (hv : ∀ now, q.answer now db = (db, .ok v)) (hv' : ∀ now, q.answer now db' = (db', .ok v))
    (h : SameAnswer db db' (f v) (f v)) :
    SameAnswer db db' (Handler.query q >>= f) (Handler.query q >>= f) :=
  sameAnswer_read hv hv' h

end

-- ---------------------------------------------------------------------------
-- Requests
-- ---------------------------------------------------------------------------

inductive GetRequest
  | vehicles
  | status (vehicleId : String)
  | controlLease (vehicleId : String)
  | audit (query : ListingQuery)
  | datasets (query : ListingQuery)
  deriving DecidableEq, Repr

def GetRequest.program (caller : Caller) : GetRequest → Prog Call Call.Reply Response
  | .vehicles => vehiclesList caller
  | .status vehicleId => vehicleStatus caller vehicleId
  | .controlLease vehicleId => Backend.controlLease caller vehicleId
  | .audit query => auditList caller query
  | .datasets query => datasetsList caller query

/-- What the caller is told when nothing else runs. -/
def GetRequest.answer (req : GetRequest) (caller : Caller) (choices : Nat → Choice) (db : Db) :
    Response :=
  ((req.program caller).run Call.exec choices db).2

/-- The answer tells a caller without a permission on the vehicle nothing of it. -/
def Confidential (ctx : AuthContext) (v : Vehicle) (req : GetRequest) : Prop :=
  ∀ db db', db.Keyed → v ∈ db.vehicles → ¬ db.HasPermission ctx.userId v → db.AgreeOff v db' →
    ∀ choices, req.answer (some ctx) choices db = req.answer (some ctx) choices db'

section
variable {v : Vehicle} {db db' : Db} {ctx : AuthContext}

theorem vehicle?_mem {vehicleId : String} {w : Vehicle} (h : db.vehicle? vehicleId = some w) :
    w ∈ db.vehicles ∧ w.vehicleId = vehicleId :=
  ⟨List.mem_of_find?_eq_some h, by simpa using List.find?_some h⟩

theorem hasPermission_of_permission? {userId : String} {w : Vehicle} {p : VehiclePermission}
    (h : db.permission? userId w.id = some p) : db.HasPermission userId w := by
  refine ⟨p, List.mem_of_find?_eq_some h, ?_⟩
  simpa using List.find?_some h

theorem sameAnswer_vehicles (h : db.AgreeOff v db') (choices : Nat → Choice) :
    GetRequest.vehicles.answer (some ctx) choices db =
      GetRequest.vehicles.answer (some ctx) choices db' := by
  have hlist : ∀ permittedTo, db'.vehicleList permittedTo = db.vehicleList permittedTo := by
    intro permittedTo
    rw [Db.vehicleList, Db.vehicleList, h.vehicles, h.permissions]
  refine sameAnswer_same (fun _ => rfl) (fun _ => ?_) (sameAnswer_done rfl) choices
  exact congrArg (fun l => (db', Except.ok l)) (hlist _)

/-- The routes that look a vehicle up by its `vehicleId` find the same one. -/
theorem sameAnswer_vehicle {vehicleId : String} {f : Option Vehicle → Handler Response}
    (h : db.AgreeOff v db')
    (hnone : SameAnswer db db' (f none) (f none))
    (hsome : ∀ w ∈ db.vehicles, w.vehicleId = vehicleId → SameAnswer db db' (f (some w)) (f (some w))) :
    SameAnswer db db' (Handler.query (.vehicleFindUnique vehicleId) >>= f)
      (Handler.query (.vehicleFindUnique vehicleId) >>= f) := by
  have hsame : db'.vehicle? vehicleId = db.vehicle? vehicleId := by
    rw [Db.vehicle?, Db.vehicle?, h.vehicles]
  refine sameAnswer_same (v := db.vehicle? vehicleId) (fun _ => rfl) (fun _ => ?_) ?_
  · exact congrArg (fun l => (db', Except.ok l)) hsame
  · cases hw : db.vehicle? vehicleId with
    | none => exact hnone
    | some w => exact hsome w (vehicle?_mem hw).1 (vehicle?_mem hw).2

theorem Db.Keyed.id_ne (hk : db.Keyed) {w : Vehicle} (hv : v ∈ db.vehicles) (hw : w ∈ db.vehicles)
    (hne : w.vehicleId ≠ v.vehicleId) : w.id ≠ v.id :=
  fun hid => hne (congrArg Vehicle.vehicleId (hk.id w hw v hv hid))

theorem sameAnswer_controlLease (h : db.AgreeOff v db') (hk : db.Keyed) (hv : v ∈ db.vehicles)
    {vehicleId : String} (hne : vehicleId ≠ v.vehicleId) (choices : Nat → Choice) :
    (GetRequest.controlLease vehicleId).answer (some ctx) choices db =
      (GetRequest.controlLease vehicleId).answer (some ctx) choices db' := by
  refine sameAnswer_vehicle h (sameAnswer_done rfl) (fun w hw hwid => ?_) choices
  refine sameAnswer_now fun t => sameAnswer_read (fun _ => rfl) (fun _ => rfl) ?_
  have hlease := activeLease?_agree h (hk.id_ne hv hw (hwid ▸ hne)) (some t)
  cases hl : db.activeLease? w.id (some t) with
  | none =>
    cases hl' : db'.activeLease? w.id (some t) with
    | none => exact sameAnswer_done rfl
    | some l' => simp [hl, hl'] at hlease
  | some l =>
    cases hl' : db'.activeLease? w.id (some t) with
    | none => simp [hl, hl'] at hlease
    | some l' =>
      have hrow : l.toLeaseRow = l'.toLeaseRow := by simpa [hl, hl'] using hlease
      have hformat : formatLease l = formatLease l' := by simp only [formatLease, hrow]
      simp only [hformat]
      exact sameAnswer_done rfl

/-- The card of a lease does not show its place. -/
theorem leaseCard_agree (h : db.AgreeOff v db') {w : Vehicle} (hid : w.id ≠ v.id) (t : Time) :
    ((db.activeLease? w.id (some t)).map fun l => leaseCard l (db.user? l.operatorId)) =
      (db'.activeLease? w.id (some t)).map fun l => leaseCard l (db'.user? l.operatorId) := by
  have huser : db'.user? = db.user? := funext fun id => by rw [Db.user?, Db.user?, h.users]
  have hcard : ∀ lease : Option ControlLease,
      (lease.map fun l => leaseCard l (db.user? l.operatorId)) =
        (lease.map (·.toLeaseRow)).map fun row => leaseCard ⟨row, 0⟩ (db.user? row.operatorId) := by
    intro lease
    cases lease <;> rfl
  rw [huser, hcard, hcard, activeLease?_agree h hid]

theorem sameAnswer_status (h : db.AgreeOff v db') (hk : db.Keyed) (hv : v ∈ db.vehicles)
    {vehicleId : String} (hne : vehicleId ≠ v.vehicleId) (choices : Nat → Choice) :
    (GetRequest.status vehicleId).answer (some ctx) choices db =
      (GetRequest.status vehicleId).answer (some ctx) choices db' := by
  refine sameAnswer_vehicle h (sameAnswer_done rfl) (fun w hw hwid => ?_) choices
  refine sameAnswer_now fun t => sameAnswer_read (fun _ => rfl) (fun _ => rfl) ?_
  have hcard := leaseCard_agree h (hk.id_ne hv hw (hwid ▸ hne)) t
  have hstatus : ∀ frame ms,
      statusCard w ((db.activeLease? w.id (some t)).map fun l => (l, db.user? l.operatorId)) frame ms =
        statusCard w ((db'.activeLease? w.id (some t)).map fun l => (l, db'.user? l.operatorId))
          frame ms := by
    intro frame ms
    simp only [statusCard, Option.map_map, Function.comp_def, hcard]
  simp only [hstatus]
  refine sameAnswer_same (v := db.latestTelemetry? vehicleId) (fun _ => rfl) (fun _ => ?_) ?_
  · exact congrArg (fun f => (db', Except.ok f)) (latestTelemetry?_agree h hne).symm
  · cases db.latestTelemetry? vehicleId with
    | none => exact sameAnswer_done rfl
    | some frame => exact sameAnswer_now fun _ => sameAnswer_done rfl

/-- Past the check on the caller, the rows of a vehicle other than `v` are listed. -/
theorem sameAnswer_vehicleScoped (h : db.AgreeOff v db') (hrole : ctx.role ≠ .admin)
    (hperm : ¬ db.HasPermission ctx.userId v) (vehicleId : Option String) (list : Handler Response)
    (hlist : ∀ w ∈ db.vehicles, given vehicleId = some w.vehicleId → w ≠ v →
      SameAnswer db db' list list) :
    SameAnswer db db' (vehicleScoped ctx vehicleId list) (vehicleScoped ctx vehicleId list) := by
  have hrole' : (ctx.role == .admin) = false := by simpa using hrole
  simp only [vehicleScoped, hrole', Bool.false_eq_true, if_false]
  cases hgiven : given vehicleId with
  | none => exact sameAnswer_done rfl
  | some key =>
    refine sameAnswer_vehicle h (sameAnswer_done rfl) fun w hw hwid => ?_
    have hsame : db'.permission? ctx.userId w.id = db.permission? ctx.userId w.id := by
      rw [Db.permission?, Db.permission?, h.permissions]
    refine sameAnswer_same (v := db.permission? ctx.userId w.id) (fun _ => rfl) (fun _ => ?_) ?_
    · exact congrArg (fun p => (db', Except.ok p)) hsame
    · cases hp : db.permission? ctx.userId w.id with
      | none => exact sameAnswer_done rfl
      | some p =>
        refine hlist w hw (hwid ▸ hgiven) ?_
        rintro rfl
        exact hperm (hasPermission_of_permission? hp)

theorem sameAnswer_listing (h : db.AgreeOff v db') (hrole : ctx.role ≠ .admin)
    (hperm : ¬ db.HasPermission ctx.userId v) (query : ListingQuery)
    (list : Option String → Nat → Handler Response)
    (hlist : ∀ w ∈ db.vehicles, w ≠ v → ∀ limit,
      SameAnswer db db' (list (some w.vehicleId) limit) (list (some w.vehicleId) limit))
    (choices : Nat → Choice) :
    ((listing (some ctx) query list).run Call.exec choices db).2 =
      ((listing (some ctx) query list).run Call.exec choices db').2 := by
  cases hlimit : parseLimit query.limit with
  | error issues => rw [listing_error hlimit]; rfl
  | ok limit =>
    rw [listing_ok hlimit]
    refine sameAnswer_vehicleScoped h hrole hperm query.vehicleId _ (fun w hw hgiven hne => ?_) choices
    rw [hgiven]
    exact hlist w hw hne limit

theorem sameAnswer_audit (h : db.AgreeOff v db') (hk : db.Keyed) (hv : v ∈ db.vehicles)
    (hrole : ctx.role ≠ .admin) (hperm : ¬ db.HasPermission ctx.userId v) (query : ListingQuery)
    (choices : Nat → Choice) :
    (GetRequest.audit query).answer (some ctx) choices db =
      (GetRequest.audit query).answer (some ctx) choices db' := by
  refine sameAnswer_listing h hrole hperm query latestEvents (fun w hw hne limit => ?_) choices
  have hvehicleId : w.vehicleId ≠ v.vehicleId := fun hid => hne (hk.vehicleId w hw v hv hid)
  have hid : w.vehicleId ≠ v.id := fun hid => hne (hk.apart w hw v hv hid)
  refine sameAnswer_same (v := db.eventList (some w.vehicleId) limit) (fun _ => rfl) (fun _ => ?_)
    (sameAnswer_done rfl)
  exact congrArg (fun l => (db', Except.ok l)) (eventList_agree h hid hvehicleId limit).symm

theorem sameAnswer_datasets (h : db.AgreeOff v db') (hk : db.Keyed) (hv : v ∈ db.vehicles)
    (hrole : ctx.role ≠ .admin) (hperm : ¬ db.HasPermission ctx.userId v) (query : ListingQuery)
    (choices : Nat → Choice) :
    (GetRequest.datasets query).answer (some ctx) choices db =
      (GetRequest.datasets query).answer (some ctx) choices db' := by
  refine sameAnswer_listing h hrole hperm query latestAssets (fun w hw hne limit => ?_) choices
  have hvehicleId : w.vehicleId ≠ v.vehicleId := fun hid => hne (hk.vehicleId w hw v hv hid)
  refine sameAnswer_same (v := db.assetList (some w.vehicleId) limit) (fun _ => rfl) (fun _ => ?_)
    (sameAnswer_done rfl)
  exact congrArg (fun l => (db', Except.ok l)) (assetList_agree h hvehicleId limit).symm

end

-- ---------------------------------------------------------------------------
-- The requests that leak
-- ---------------------------------------------------------------------------

/-- A vehicle somebody else holds until 1, or nobody. -/
private def watched (v : Vehicle) (held : Bool) : Db where
  users := [⟨"holder", "holder@example.com", "", .operator, 0, none, 0⟩]
  vehicles := [v]
  permissions := []
  sessions := [⟨"s1", "web-holder", v.id, "holder", 1, .active, 0, .control⟩]
  leases := if held then [⟨⟨v.id, "holder", "s1", 1, .active, 1⟩, 0, none, none⟩] else []
  events := []

private theorem watched_keyed (v : Vehicle) (held : Bool) : (watched v held).Keyed := by
  have hsame : ∀ w ∈ (watched v held).vehicles, ∀ w' ∈ (watched v held).vehicles, w = w' := by
    intro w hw w' hw'
    rw [List.mem_singleton.mp hw, List.mem_singleton.mp hw']
  exact ⟨fun w hw w' hw' _ => hsame w hw w' hw', fun w hw w' hw' _ => hsame w hw w' hw',
    fun w hw w' hw' _ => hsame w hw w' hw'⟩

private theorem watched_agree (v : Vehicle) : (watched v false).AgreeOff v (watched v true) := by
  refine ⟨rfl, rfl, rfl, rfl, ?_, rfl, rfl, rfl⟩
  simp [watched]

private def dawn : Nat → Choice := fun _ => ⟨0, false⟩

theorem not_confidential {ctx : AuthContext} {v : Vehicle} {req : GetRequest}
    (h : req.answer (some ctx) dawn (watched v false) ≠ req.answer (some ctx) dawn (watched v true)) :
    ¬ Confidential ctx v req := fun hconf =>
  h (hconf _ _ (watched_keyed v false) List.mem_cons_self
    (fun ⟨_, hp, _⟩ => absurd hp List.not_mem_nil) (watched_agree v) dawn)

private theorem watched_vehicle (v : Vehicle) (held : Bool) :
    (watched v held).vehicle? v.vehicleId = some v := by
  simp [watched, Db.vehicle?]

private theorem watched_free (v : Vehicle) :
    (watched v false).activeLease? v.id (some 0) = none := rfl

private theorem watched_held (v : Vehicle) : (watched v true).activeLease? v.id (some 0) =
    some ⟨⟨⟨v.id, "holder", "s1", 1, .active, 1⟩, 0, none, none⟩, 0⟩ := by
  simp [watched, Db.activeLease?, Db.readLeases]

/-- With no telemetry, the card shows the vehicle and its lease. -/
private theorem watched_status (ctx : AuthContext) (v : Vehicle) (held : Bool) :
    (GetRequest.status v.vehicleId).answer (some ctx) dawn (watched v held) =
      ok (statusCard v (((watched v held).activeLease? v.id (some 0)).map fun l =>
        (l, (watched v held).user? l.operatorId)) none none) := by
  have hfound : (Query.vehicleFindUnique v.vehicleId).answer 0 (watched v held) =
      (watched v held, .ok (some v)) := congrArg (fun r => (_, Except.ok r)) (watched_vehicle v held)
  exact congrArg Prod.snd (alone_query_ok _ rfl hfound)

private theorem watched_controlLease (ctx : AuthContext) (v : Vehicle) (held : Bool) :
    (GetRequest.controlLease v.vehicleId).answer (some ctx) dawn (watched v held) =
      match (watched v held).activeLease? v.id (some 0) with
      | some lease => ok (formatLease lease)
      | none => fail "lease_not_found" 404 := by
  have hfound : (Query.vehicleFindUnique v.vehicleId).answer 0 (watched v held) =
      (watched v held, .ok (some v)) := congrArg (fun r => (_, Except.ok r)) (watched_vehicle v held)
  have hlease : (Query.leaseFindActive v.id (some 0)).answer 0 (watched v held) =
      (watched v held, .ok ((watched v held).activeLease? v.id (some 0))) := rfl
  refine (congrArg Prod.snd (alone_query_ok _ rfl hfound)).trans ?_
  simp only [alone_now_bind]
  refine (congrArg Prod.snd (alone_query_ok _ (by rfl) hlease)).trans ?_
  cases (watched v held).activeLease? v.id (some 0) <;> rfl

theorem status_leaks (ctx : AuthContext) (v : Vehicle) :
    ¬ Confidential ctx v (.status v.vehicleId) := by
  refine not_confidential fun hsame => ?_
  rw [watched_status, watched_status, watched_free, watched_held] at hsame
  have hlease := congrArg (·.field? "lease") hsame
  simp [ok, Response.field?, statusCard, nested, leaseCard, List.lookup_cons] at hlease

theorem controlLease_leaks (ctx : AuthContext) (v : Vehicle) :
    ¬ Confidential ctx v (.controlLease v.vehicleId) := by
  refine not_confidential fun hsame => ?_
  rw [watched_controlLease, watched_controlLease, watched_free, watched_held] at hsame
  have hstatus := congrArg Response.status hsame
  simp at hstatus

theorem confidential_iff (ctx : AuthContext) (hrole : ctx.role ≠ .admin) (v : Vehicle)
    (req : GetRequest) :
    Confidential ctx v req ↔ req ≠ .status v.vehicleId ∧ req ≠ .controlLease v.vehicleId := by
  constructor
  · intro hconf
    refine ⟨?_, ?_⟩
    · rintro rfl
      exact status_leaks ctx v hconf
    · rintro rfl
      exact controlLease_leaks ctx v hconf
  · rintro ⟨hstatus, hlease⟩ db db' hk hv hperm h choices
    cases req with
    | vehicles => exact sameAnswer_vehicles h choices
    | status vehicleId =>
      exact sameAnswer_status h hk hv (fun hid => hstatus (congrArg GetRequest.status hid)) choices
    | controlLease vehicleId =>
      exact sameAnswer_controlLease h hk hv (fun hid => hlease (congrArg GetRequest.controlLease hid))
        choices
    | audit query => exact sameAnswer_audit h hk hv hrole hperm query choices
    | datasets query => exact sameAnswer_datasets h hk hv hrole hperm query choices

private def rover : Vehicle := ⟨"v1", "ugv-001", "UGV 001", .wheeled, .online⟩

private def eve : AuthContext := ⟨"eve", .viewer⟩

theorem stranger_cannot_list_events :
    eve.role ≠ .admin ∧ Confidential eve rover (.audit ⟨some "ugv-001", none⟩) := by
  have hrole : eve.role ≠ .admin := by decide
  exact ⟨hrole, (confidential_iff eve hrole rover (.audit ⟨some "ugv-001", none⟩)).mpr (by simp)⟩

theorem stranger_sees_holder :
    (watched rover false).Keyed ∧ rover ∈ (watched rover false).vehicles ∧ eve.role ≠ .admin ∧
      ¬ (watched rover false).HasPermission eve.userId rover ∧
      (watched rover false).AgreeOff rover (watched rover true) ∧
      ((GetRequest.status "ugv-001").answer (some eve) dawn (watched rover false)).field? "lease" =
        some .null ∧
      ((GetRequest.status "ugv-001").answer (some eve) dawn (watched rover true)).field?
        "lease.operatorName" = some (.text "holder@example.com") := by
  refine ⟨watched_keyed rover false, List.mem_cons_self, by decide, ?_, watched_agree rover, ?_, ?_⟩
  · rintro ⟨p, hp, -⟩
    exact List.not_mem_nil hp
  · exact congrArg (·.field? "lease") (watched_status eve rover false)
  · exact congrArg (·.field? "lease.operatorName") (watched_status eve rover true)

end Rvep.Backend
