import Rvep.Backend.AuditTrail

/-!
# Which events the audit listing returns

An event that a handler has stored is returned to whoever may read it, as long
as the limit leaves room for it, only if it was stored under the vehicle's
`vehicleId`. The edge's events are; those of every other handler go by the
vehicle's row id.
-/

namespace Rvep.Backend

open Interleaving Reactive

abbrev ServerPool := Pool ServerRequest Call Call.Reply Response Db Unit
abbrev ServerEntry := Entry ServerPool (Event ServerRequest Choice) Unit

def serverSystem (srv : Server) (start : Db) : System ServerPool (Event ServerRequest Choice) Unit :=
  pool trailWorld (·.handler srv) start

/-- The entry is a request's insert of an event, and it succeeds. -/
def Audits (x : ServerEntry) (req : ServerRequest) (row : EventRow) : Prop :=
  ∃ choice data, x.before.call? x.event = some (req, choice, (), .query (.eventLogCreate data)) ∧
    choice.fails = false ∧ row = { data with id := x.before.world.nextEventId, ts := choice.now }

/-- The event is the vehicle's, by either name. -/
def EventRow.isAbout (v : Vehicle) (e : EventRow) : Bool :=
  e.vehicleId == some v.id || e.vehicleId == some v.vehicleId

/-- The reader may list the vehicle's events, with room for those that are as late as `row`. -/
structure MayList (db : Db) (reader : AuthContext) (v : Vehicle) (row : EventRow)
    (limit : Option String) : Prop where
  permitted : reader.role = .admin ∨ db.HasPermission reader.userId v
  room : ∃ k, parseLimit limit = .ok k ∧
    db.events.countP (fun e => e.isAbout v && decide (row.ts ≤ e.ts)) ≤ k

def Response.items (r : Response) : List Fields :=
  match r.body with
  | .list items => items
  | _ => []

-- ---------------------------------------------------------------------------
-- The listing
-- ---------------------------------------------------------------------------

section
variable {db : Db} {v : Vehicle} {reader : AuthContext} {choices : Nat → Choice}

theorem alone_latestEvents (key : Option String) (k : Nat) (hok : ∀ i, (choices i).fails = false) :
    ((latestEvents key k).alone choices db).2 = okList ((db.eventList key k).map auditEntry) :=
  congrArg Prod.snd (alone_query_ok _ (hok 0) rfl)

/-- Whoever may list a vehicle's rows gets past the check on the caller. -/
theorem listing_permitted (hv : db.vehicle? v.vehicleId = some v) (hname : v.vehicleId ≠ "")
    (hreader : reader.role = .admin ∨ db.HasPermission reader.userId v) {limit : Option String}
    {k : Nat} (hk : parseLimit limit = .ok k) (hok : ∀ i, (choices i).fails = false)
    (list : Option String → Nat → Handler Response) :
    ∃ n, (listing (some reader) ⟨some v.vehicleId, limit⟩ list).run Call.exec choices db =
      (list (some v.vehicleId) k).alone (fun i => choices (i + n)) db := by
  have hgiven : given (some v.vehicleId) = some v.vehicleId := by
    simp [given, hname]
  rw [listing_ok hk, hgiven]
  unfold vehicleScoped
  by_cases hadmin : reader.role = .admin
  · rw [if_pos (beq_iff_eq.mpr hadmin)]
    exact ⟨0, rfl⟩
  · rw [if_neg (fun h => hadmin (beq_iff_eq.mp h)), hgiven]
    have hpermits : db.HasPermission reader.userId v := hreader.resolve_left hadmin
    obtain ⟨p, hp⟩ : ∃ p, db.permission? reader.userId v.id = some p := by
      obtain ⟨p, hp, huser, hvehicle⟩ := hpermits
      refine Option.isSome_iff_exists.mp (List.find?_isSome.mpr ⟨p, hp, ?_⟩)
      simp [huser, hvehicle]
    have hfound : (Query.vehicleFindUnique v.vehicleId).answer (choices 0).now db =
        (db, .ok (some v)) := congrArg (fun r => (db, Except.ok r)) hv
    have hpermission : (Query.permissionFindUnique reader.userId v.id).answer (choices 1).now db =
        (db, .ok (some p)) := congrArg (fun r => (db, Except.ok r)) hp
    exact ⟨2, (alone_query_ok _ (hok 0) hfound).trans (alone_query_ok _ (hok 1) hpermission)⟩

theorem audit_answer (hv : db.vehicle? v.vehicleId = some v) (hname : v.vehicleId ≠ "")
    (hreader : reader.role = .admin ∨ db.HasPermission reader.userId v) {limit : Option String}
    {k : Nat} (hk : parseLimit limit = .ok k) (hok : ∀ i, (choices i).fails = false) :
    (GetRequest.audit ⟨some v.vehicleId, limit⟩).answer (some reader) choices db =
      okList ((db.eventList (some v.vehicleId) k).map auditEntry) := by
  obtain ⟨n, hrun⟩ := listing_permitted hv hname hreader hk hok latestEvents
  exact (congrArg Prod.snd hrun).trans (alone_latestEvents _ k fun i => hok (i + n))

theorem auditEntry_vehicleId {e e' : EventRow} (h : auditEntry e = auditEntry e') {key key' : String}
    (he : e.vehicleId = some key) (he' : e'.vehicleId = some key') : key = key' := by
  have hkey := congrArg (·.lookup "vehicleId") h
  simpa [auditEntry, he, he', List.lookup_cons] using hkey

/-- A stored event is in the answer just if it goes by the vehicle's `vehicleId`. -/
theorem listed_iff {row : EventRow} {key : String} {limit : Option String}
    (hv : db.vehicle? v.vehicleId = some v) (hname : v.vehicleId ≠ "")
    (hread : MayList db reader v row limit) (hrow : row ∈ db.events)
    (hkey : row.vehicleId = some key) (hok : ∀ i, (choices i).fails = false) :
    auditEntry row ∈
        ((GetRequest.audit ⟨some v.vehicleId, limit⟩).answer (some reader) choices db).items ↔
      key = v.vehicleId := by
  obtain ⟨k, hk, hroom⟩ := hread.room
  rw [audit_answer hv hname hread.permitted hk hok]
  change auditEntry row ∈ (db.eventList (some v.vehicleId) k).map auditEntry ↔ _
  constructor
  · intro hmem
    obtain ⟨e, he, hentry⟩ := List.mem_map.mp hmem
    have hlisted := (List.mem_filter.mp (Ranking.top_subset k _ he)).2
    simp only [Option.all_some, beq_iff_eq] at hlisted
    exact auditEntry_vehicleId hentry.symm hkey hlisted
  · rintro rfl
    refine List.mem_map_of_mem (Ranking.mem_top (List.mem_filter.mpr ⟨hrow, by simp [hkey]⟩) ?_)
    refine le_trans ?_ hroom
    rw [List.countP_filter]
    refine List.countP_mono_left fun e _ he => ?_
    simp only [Option.all_some, Bool.and_eq_true, beq_iff_eq, decide_eq_true_eq] at he ⊢
    exact ⟨by simp [EventRow.isAbout, he.2], he.1⟩

end

-- ---------------------------------------------------------------------------
-- Runs
-- ---------------------------------------------------------------------------

theorem key_eq_vehicleId (req : ServerRequest) (v : Vehicle) :
    req.key v = v.vehicleId ↔ req.isControlEvent = true ∨ v.id = v.vehicleId := by
  unfold ServerRequest.key
  cases req.isControlEvent <;> simp

/-- What a request audits about a vehicle stays in the database under the name the request uses. -/
theorem audited_row (srv : Server) (start : Db) (es : List (Event ServerRequest Choice))
    {x : ServerEntry} (hx : x ∈ (serverSystem srv start).log es) {req : ServerRequest} {row : EventRow}
    (hrow : Audits x req row) {v : Vehicle} (habout : req.about start = some v) :
    row ∈ ((serverSystem srv start).state ((serverSystem srv start).log es)).world.events ∧
      row.vehicleId = some (req.key v) := by
  obtain ⟨choice, data, hcall, hok, rfl⟩ := hrow
  obtain ⟨hkept, hafter, hextends⟩ := Pool.Kept.of_mem (C := trail start)
    (fun _ _ _ => keepsTrail_handler srv _) (fun hi hguar => hguar.1.vehicles.trans hi) rfl es hx
  obtain ⟨_, _, hguar⟩ := hkept.call (·.handler srv) hcall
  refine ⟨hextends.events.subset ?_, hguar.2 v data habout rfl⟩
  obtain ⟨i, k, -, -, hstep⟩ := Pool.call_cases trailWorld (·.handler srv) hcall
  rw [hafter, hstep]
  simp only [trailWorld, Call.exec, Query.exec_of_not_fails hok]
  exact List.mem_append_right _ List.mem_cons_self

theorem vehicles_kept (srv : Server) (start : Db) (es : List (Event ServerRequest Choice)) :
    ((serverSystem srv start).state ((serverSystem srv start).log es)).world.vehicles =
      start.vehicles :=
  (Pool.Kept.run (C := trail start) (fun _ _ _ => keepsTrail_handler srv _)
    (fun hi hguar => hguar.1.vehicles.trans hi) rfl es).inv

theorem audits_listed_iff (srv : Server) (start : Db) (es : List (Event ServerRequest Choice))
    {x : ServerEntry} (hx : x ∈ (serverSystem srv start).log es) {req : ServerRequest} {row : EventRow}
    (hrow : Audits x req row) {v : Vehicle} (habout : req.about start = some v)
    (hname : v.vehicleId ≠ "") {db : Db}
    (hdb : db = ((serverSystem srv start).state ((serverSystem srv start).log es)).world)
    {reader : AuthContext} {limit : Option String} (hread : MayList db reader v row limit)
    {choices : Nat → Choice} (hok : ∀ i, (choices i).fails = false) :
    auditEntry row ∈
        ((GetRequest.audit ⟨some v.vehicleId, limit⟩).answer (some reader) choices db).items ↔
      req.isControlEvent = true ∨ v.id = v.vehicleId := by
  obtain ⟨hmem, hkey⟩ := audited_row srv start es hx hrow habout
  have hv : db.vehicle? v.vehicleId = some v := by
    obtain ⟨name, -, hfound⟩ := Option.bind_eq_some_iff.mp habout
    rw [(vehicle?_mem hfound).2, Db.vehicle?, hdb, vehicles_kept]
    exact hfound
  rw [listed_iff hv hname hread (hdb ▸ hmem) hkey hok]
  exact key_eq_vehicleId req v

private def crawler : Vehicle := ⟨"v1", "vehicle-001", "UGV 1", .wheeled, .online⟩

private def quarry : Db where
  users := [⟨"alice", "alice@rvep.dev", "", .operator, 0, none, 0⟩]
  vehicles := [crawler]
  permissions := [⟨"alice", "v1", .operator, 1, none, 0⟩]
  sessions := [⟨"s1", "web-alice", "v1", "alice", 1, .active, 0, .control⟩]
  leases := []
  events := []

private def root : AuthContext := ⟨"root", .admin⟩

private def noon : Choice := ⟨1000, false⟩

/-- The edge reports that it has locked itself. -/
private def safeModeEntered : ServerRequest :=
  .controlEvent ⟨some "internal-dev-token",
    some (.obj [("vehicleId", .str "vehicle-001"), ("eventName", .str "safe_mode_entered")])⟩

private def aliceIsGranted : ServerRequest :=
  .lease (.claim ⟨some ⟨"alice", .operator⟩, "vehicle-001",
    some (.obj [("sessionId", .str "web-alice")])⟩)

/-- The entry that stores the event of a request that has made `calls` calls before, alone. -/
private def stored (req : ServerRequest) (calls : Nat) : ServerEntry :=
  (serverSystem bareServer quarry).react ((serverSystem bareServer quarry).state
    ((serverSystem bareServer quarry).log (List.replicate calls (.step 0 noon) ++ [.spawn req])))
    (.step 0 noon)

private def safeModeRow : EventRow where
  eventName := "safe_mode_entered"
  vehicleId := some "vehicle-001"
  sessionId := none
  userId := none
  payload := some []
  id := 1
  ts := 1000

private def grantedRow : EventRow where
  eventName := "control_granted"
  vehicleId := some "v1"
  sessionId := some "s1"
  userId := some "alice"
  payload := some [("leaseId", .number 0), ("connectionEpoch", .text "1"),
    ("expiresAt", .instant 1801000)]
  id := 1
  ts := 1000

theorem safe_mode_listed :
    auditEntry safeModeRow ∈ ((GetRequest.audit ⟨some "vehicle-001", none⟩).answer (some root)
      (fun _ => noon) (stored safeModeEntered 1).after.world).items := by
  have hx : stored safeModeEntered 1 ∈ (serverSystem bareServer quarry).log
      (.step 0 noon :: (List.replicate 1 (.step 0 noon) ++ [.spawn safeModeEntered])) :=
    List.mem_cons_self
  have hrow : Audits (stored safeModeEntered 1) safeModeEntered safeModeRow := ⟨noon, _, rfl, rfl, rfl⟩
  have hread : MayList (stored safeModeEntered 1).after.world root crawler safeModeRow none :=
    ⟨.inl rfl, 100, rfl, by decide⟩
  exact (audits_listed_iff bareServer quarry _ hx hrow rfl (by decide) rfl hread fun _ => rfl).mpr (.inl rfl)

/-- Alice is granted the vehicle, and no admin finds it in the vehicle's log. -/
theorem granted_not_listed :
    let x := stored aliceIsGranted 5
    Audits x aliceIsGranted grantedRow ∧ aliceIsGranted.about quarry = some crawler ∧
      MayList x.after.world root crawler grantedRow none ∧
      ((GetRequest.audit ⟨some "vehicle-001", none⟩).answer (some root) (fun _ => noon)
        x.after.world).items = [] := by
  refine ⟨⟨noon, _, rfl, rfl, rfl⟩, rfl, ⟨.inl rfl, 100, rfl, by decide⟩, rfl⟩

end Rvep.Backend
