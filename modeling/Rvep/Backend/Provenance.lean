import Rvep.Backend.Footprint

/-!
# Where permissions come from

A permission on a vehicle is written by the grant route alone, for an admin, as
the request says. So every permission there ever is was there from the start or
was granted, and who has lost one is refused until an admin grants it again.
-/

namespace Rvep.Backend

open Interleaving Reactive

-- ---------------------------------------------------------------------------
-- The vehicle of a grant
-- ---------------------------------------------------------------------------

/-- A grant writes on the row of the vehicle it names. -/
def OnVehicle (start : Db) (req : ApiRequest) (c : Call) : Prop :=
  ∀ greq userId rowId role grantedBy, req = .server (.grant greq) →
    c = .query (.permissionUpsert userId rowId role grantedBy) →
      ∃ v, start.vehicle? greq.vehicleId = some v ∧ rowId = v.id

def footprint (start : Db) : Contract ApiRequest Call Response Db Choice Unit where
  inv db := db.vehicles = start.vehicles
  rely := Db.Extends
  here _ _ _ _ := True
  guar req _ _ c db _ _ db' := db.Extends db' ∧ req.MayCall c ∧ OnVehicle start req c
  refl := .refl
  trans := .trans
  rely_of_guar h := h.1

abbrev KeepsFootprint (start : Db) (req : ApiRequest) (prog : Prog Call Call.Reply Response) (db : Db) :
    Prop :=
  (footprint start).Kept trailWorld req () prog db

section
variable {start db : Db}

theorem keepsFootprint_done {req : ApiRequest} (r : Response) :
    KeepsFootprint start req (.done r) db :=
  fun _ _ _ => trivial

theorem keepsFootprint_allCalls {req : ApiRequest} {prog : Prog Call Call.Reply Response}
    (h : prog.AllCalls fun c => req.MayCall c ∧ OnVehicle start req c) :
    KeepsFootprint start req prog db :=
  h.kept (fun _ _ _ => trivial) fun e _ c db' _ _ hc _ => ⟨Call.exec_extends e db' c, hc⟩

theorem onVehicle_quiet {req : ApiRequest} {c : Call} (h : c.isQuiet = true) : OnVehicle start req c := by
  rintro greq userId rowId role grantedBy - rfl
  cases h

theorem keepsFootprint_grant (req : GrantRequest) :
    KeepsFootprint start (.server (.grant req)) (grantPermission req) db := by
  refine kept_caller (fun _ => keepsFootprint_done _) fun ctx hctx => ?_
  refine kept_orThrow (fun _ _ => keepsFootprint_done _) fun body hbody => ?_
  simp only
  by_cases hadmin : ctx.role = .admin
  · simp only [bne_iff_ne, ne_eq, hadmin, not_true_eq_false, if_false]
    refine kept_read trail_runs rfl (fun _ _ _ => trivial)
      (fun db' _ _ _ _ _ => ⟨.refl db', .inl rfl, onVehicle_quiet rfl⟩)
      (fun _ _ _ => keepsFootprint_done _) fun db' found _ hvehicles hfound => ?_
    obtain rfl : db'.vehicle? req.vehicleId = found := Query.value_eq hfound rfl
    refine keepsFootprint_allCalls ?_
    cases hv : db'.vehicle? req.vehicleId with
    | none => trivial
    | some v =>
      have hstart : start.vehicle? req.vehicleId = some v := by
        rw [Db.vehicle?, ← hvehicles]
        exact hv
      refine allCalls_query ⟨.inl rfl, onVehicle_quiet rfl⟩ fun user => ?_
      cases user with
      | none => trivial
      | some user =>
        refine allCalls_query ⟨.inr ⟨req, rfl, ctx, body, hctx, hadmin, hbody, rfl, rfl⟩, ?_⟩ fun _ =>
          allCalls_audit ⟨.inl rfl, onVehicle_quiet rfl⟩ trivial
        rintro greq userId rowId role grantedBy hreq hc
        cases hreq
        cases hc
        exact ⟨v, hstart, rfl⟩
  · simp only [bne_iff_ne, ne_eq, hadmin, not_false_eq_true, if_true]
    exact keepsFootprint_done _

theorem keepsFootprint_handler (srv : Server) (fmt : NumberFormat) (req : ApiRequest) :
    KeepsFootprint start req (req.handler srv fmt) db := by
  by_cases hgrant : ∃ greq, req = .server (.grant greq)
  · obtain ⟨greq, rfl⟩ := hgrant
    exact keepsFootprint_grant greq
  · refine keepsFootprint_allCalls ((mayCall_handler srv fmt req).imp fun c hc => ⟨hc, ?_⟩)
    rintro greq userId rowId role grantedBy rfl -
    exact absurd ⟨greq, rfl⟩ hgrant

end

-- ---------------------------------------------------------------------------
-- What a step does to the permissions
-- ---------------------------------------------------------------------------

/-- The step grants: the upsert of an admin's request, as that request says. -/
def Granted (start : Db) (x : ApiEntry) (userId vehicleId : String) (role : Role) : Prop :=
  ∃ req choice grantedBy, x.before.call? x.event = some (.server (.grant req), choice, (),
      .query (.permissionUpsert userId vehicleId role grantedBy)) ∧
    choice.fails = false ∧ req.Gives userId role ∧
      ∃ v, start.vehicle? req.vehicleId = some v ∧ vehicleId = v.id

def Db.Gives (db : Db) (userId vehicleId : String) (role : Role) : Prop :=
  ∃ p ∈ db.permissions, p.userId = userId ∧ p.vehicleId = vehicleId ∧ p.role = role

theorem gives_found {db : Db} {userId vehicleId : String} {p : VehiclePermission}
    (h : db.permission? userId vehicleId = some p) : db.Gives userId vehicleId p.role := by
  have hp := List.find?_some h
  simp only [Bool.and_eq_true, beq_iff_eq] at hp
  exact ⟨p, List.mem_of_find?_eq_some h, hp.1, hp.2, rfl⟩

theorem permission?_none {db : Db} {userId vehicleId : String} :
    db.permission? userId vehicleId = none ↔ ∀ role, ¬ db.Gives userId vehicleId role := by
  rw [Db.permission?, List.find?_eq_none]
  constructor
  · rintro h role ⟨p, hp, rfl, rfl, -⟩
    exact h p hp (by simp)
  · intro h p hp hmatch
    simp only [Bool.and_eq_true, beq_iff_eq] at hmatch
    exact h p.role ⟨p, hp, hmatch.1, hmatch.2, rfl⟩

theorem gives_upsert {db : Db} {now : Time} {userId vehicleId grantedBy : String} {role : Role}
    {u v : String} {r : Role}
    (h : ((Query.permissionUpsert userId vehicleId role grantedBy).answer now db).1.Gives u v r) :
    db.Gives u v r ∨ (u = userId ∧ v = vehicleId ∧ r = role) := by
  obtain ⟨p, hp, rfl, rfl, rfl⟩ := h
  simp only [Query.answer] at hp
  cases hfound : db.permission? userId vehicleId with
  | none =>
    simp only [hfound] at hp
    split at hp
    · rcases List.mem_append.mp hp with hp | hp
      · exact .inl ⟨p, hp, rfl, rfl, rfl⟩
      · rw [List.mem_singleton.mp hp]
        exact .inr ⟨rfl, rfl, rfl⟩
    · exact .inl ⟨p, hp, rfl, rfl, rfl⟩
  | some old =>
    simp only [hfound, List.mem_map] at hp
    obtain ⟨q, hq, rfl⟩ := hp
    have hold := List.find?_some hfound
    simp only [Bool.and_eq_true, beq_iff_eq] at hold
    split
    · exact .inr ⟨hold.1, hold.2, rfl⟩
    · exact .inl ⟨q, hq, rfl, rfl, rfl⟩

theorem gives_answer {db : Db} {now : Time} {q : Query} {u v : String} {r : Role}
    (h : (q.answer now db).1.Gives u v r) :
    db.Gives u v r ∨ ∃ grantedBy, q = .permissionUpsert u v r grantedBy := by
  have hsame (hpermissions : (q.answer now db).1.permissions = db.permissions) : db.Gives u v r := by
    obtain ⟨p, hp, hrow⟩ := h
    exact ⟨p, hpermissions ▸ hp, hrow⟩
  cases q with
  | permissionUpsert userId vehicleId role grantedBy =>
    rcases gives_upsert h with h | ⟨rfl, rfl, rfl⟩
    · exact .inl h
    · exact .inr ⟨grantedBy, rfl⟩
  | permissionDelete id =>
    obtain ⟨p, hp, hrow⟩ := h
    simp only [Query.answer] at hp
    split at hp
    · exact .inl ⟨p, (List.mem_filter.mp hp).1, hrow⟩
    · exact .inl ⟨p, hp, hrow⟩
  | userUpdate | leaseUpdate | leaseCreate | telemetryFrameCreate =>
    refine .inl (hsame ?_)
    simp only [Query.answer]
    split <;> rfl
  | userCreate | datasetAssetCreate =>
    refine .inl (hsame ?_)
    simp only [Query.answer]
    split
    · rfl
    · split <;> rfl
  | sessionCreate =>
    refine .inl (hsame ?_)
    simp only [Query.answer]
    split
    · rfl
    · split
      · rfl
      · split <;> rfl
  | _ => exact .inl (hsame rfl)

/-- The permissions after a call that its request may make were there, or it grants them. -/
theorem gives_exec {db : Db} {req : ApiRequest} {c : Call} {e : Choice}
    (hc : req.MayCall c) {u v : String} {r : Role}
    (h : (Call.exec e db c).1.Gives u v r) :
    db.Gives u v r ∨ ∃ greq grantedBy, req = .server (.grant greq) ∧
      c = .query (.permissionUpsert u v r grantedBy) ∧ e.fails = false ∧ greq.Gives u r := by
  cases c with
  | now => exact .inl h
  | transaction tx =>
    obtain hquiet | ⟨-, userId, vehicle, session, now, rfl⟩ := hc
    · cases hquiet
    · rw [Call.exec_transaction] at h
      split at h
      · exact .inl h
      · rcases commit_claimTransaction userId vehicle session now e.now db with
          ⟨_, -, hcommit⟩ | ⟨-, ⟨-, hcommit⟩ | ⟨-, hcommit⟩⟩
        all_goals rw [hcommit] at h; exact .inl h
  | query q =>
    simp only [Call.exec] at h
    cases hfails : e.fails with
    | true =>
      rw [Query.exec_of_fails hfails] at h
      exact .inl h
    | false =>
      rw [Query.exec_of_not_fails hfails] at h
      refine (gives_answer h).imp_right ?_
      rintro ⟨grantedBy, rfl⟩
      obtain hquiet | ⟨greq, rfl, hgives⟩ := hc
      · cases hquiet
      · exact ⟨greq, grantedBy, rfl, rfl, rfl, hgives⟩

-- ---------------------------------------------------------------------------
-- Runs
-- ---------------------------------------------------------------------------

/-- The permission was there from the start, or one of these steps granted it. -/
def Backed (start : Db) (userId vehicleId : String) (role : Role) (l : ApiLog) : Prop :=
  start.Gives userId vehicleId role ∨ ∃ x ∈ l, Granted start x userId vehicleId role

section
variable {srv : Server} {fmt : NumberFormat} {start : Db} {es : List ApiEvent} {u v : String} {r : Role}

theorem gives_step {x : ApiEntry} (hx : x ∈ (apiSystem srv fmt start).log es)
    (h : x.after.world.Gives u v r) : x.before.world.Gives u v r ∨ Granted start x u v r := by
  obtain ⟨hkept, hafter, -⟩ := Pool.Kept.of_mem (C := footprint start)
    (fun req _ _ => keepsFootprint_handler srv fmt req) (fun hi hguar => hguar.1.vehicles.trans hi)
    rfl es hx
  rw [hafter] at h
  cases hcall : x.before.call? x.event with
  | none =>
    rw [Pool.world_of_no_call hcall] at h
    exact .inl h
  | some call =>
    obtain ⟨req, choice, ⟨⟩, c⟩ := call
    obtain ⟨_, _, _, hmay, hvehicle⟩ := hkept.call (ApiRequest.handler srv fmt) hcall
    obtain ⟨i, k, -, -, hstep⟩ := Pool.call_cases trailWorld (ApiRequest.handler srv fmt) hcall
    rw [hstep] at h
    refine (gives_exec hmay h).imp_right ?_
    rintro ⟨greq, grantedBy, rfl, rfl, hok, hgives⟩
    exact ⟨greq, choice, grantedBy, hcall, hok, hgives, hvehicle greq u v r grantedBy rfl rfl⟩

theorem Backed.mono {l l' : ApiLog} (h : Backed start u v r l) (hl : l ⊆ l') : Backed start u v r l' :=
  h.imp_right fun ⟨x, hx, hgranted⟩ => ⟨x, hl hx, hgranted⟩

/-- No permission comes from anywhere else. -/
theorem backed_of_gives
    (h : ((apiSystem srv fmt start).state ((apiSystem srv fmt start).log es)).world.Gives u v r) :
    Backed start u v r ((apiSystem srv fmt start).log es) := by
  induction es with
  | nil => exact .inl h
  | cons e es ih =>
    have hlast : _ ∈ (apiSystem srv fmt start).log (e :: es) := List.mem_cons_self
    rcases gives_step hlast h with h | hgranted
    · exact (ih h).mono (List.subset_cons_self _ _)
    · exact .inr ⟨_, List.mem_cons_self, hgranted⟩

theorem backed_of_mem {x : ApiEntry} (hx : x ∈ (apiSystem srv fmt start).log es)
    (h : x.before.world.Gives u v r) : Backed start u v r ((apiSystem srv fmt start).log es) := by
  induction es with
  | nil => exact absurd hx List.not_mem_nil
  | cons e es ih =>
    rw [System.log_cons] at hx
    rcases List.mem_cons.mp hx with rfl | hx
    · exact (backed_of_gives h).mono (List.subset_cons_self _ _)
    · exact (ih hx).mono (List.subset_cons_self _ _)

end

-- ---------------------------------------------------------------------------
-- Requests that need a permission
-- ---------------------------------------------------------------------------

/-- The task has been answered with success, or has written. -/
def Acted (t : Task ApiRequest Call Call.Reply Response Unit) (steps : ApiLog) : Prop :=
  (∃ r, t.prog.point = .finished r ∧ r.isError = false) ∨ ∃ x ∈ steps, Writing t x

section
variable {srv : Server} {fmt : NumberFormat} {start : Db} {es : List ApiEvent} {i : Nat}
  {t : Task ApiRequest Call Call.Reply Response Unit} {userId vehicleId : String} {role : Role}

/-- Who has acted by a permission has seen it. -/
theorem permission_seen
    (h : ((apiSystem srv fmt start).state ((apiSystem srv fmt start).log es)).tasks[i]? = some t)
    (hneed : t.request.authority srv = .permission userId vehicleId role)
    (hacted : Acted t (turns i ((apiSystem srv fmt start).log es))) :
    ∃ y ∈ turns i ((apiSystem srv fmt start).log es), ∃ v p, start.vehicle? vehicleId = some v ∧
      y.before.world.permission? userId v.id = some p ∧ hasRole p.role role = true := by
  have hauthorized : Authorized srv start t.request (turns i ((apiSystem srv fmt start).log es)) := by
    rcases hacted with ⟨r, hr, hok⟩ | ⟨x, hx, hwriting⟩
    · exact authorized_result h hr hok
    · exact authorized_write h hx hwriting
  rcases hauthorized with hgranted | ⟨y, hy, choice, c, -, -, hshown⟩
  · rw [hneed] at hgranted
    cases hgranted
  · rw [hneed] at hshown
    obtain ⟨v, p, hv, -, hp, hrole⟩ := hshown
    exact ⟨y, hy, v, p, hv, hp, hrole⟩

end

/-- Who acts by a permission has had it from the start, or from an admin. -/
theorem backed_by_admin (srv : Server) (fmt : NumberFormat) (start : Db) (es : List ApiEvent) {i : Nat}
    {t : Task ApiRequest Call Call.Reply Response Unit} {userId vehicleId : String} {role : Role}
    (h : ((apiSystem srv fmt start).state ((apiSystem srv fmt start).log es)).tasks[i]? = some t)
    (hneed : t.request.authority srv = .permission userId vehicleId role)
    (hacted : Acted t (turns i ((apiSystem srv fmt start).log es))) :
    ∃ v r, start.vehicle? vehicleId = some v ∧ hasRole r role = true ∧
      Backed start userId v.id r ((apiSystem srv fmt start).log es) := by
  obtain ⟨y, hy, v, p, hv, hp, hrole⟩ := permission_seen h hneed hacted
  exact ⟨v, p.role, hv, hrole, backed_of_mem (mem_of_mem_turns hy) (gives_found hp)⟩

/-- Bob's permissions are these; he has a session on the vehicle. -/
private def bobsDepot (permissions : List VehiclePermission) : Db where
  users := [⟨"bob", "bob@rvep.dev", "", .operator, 0, none, 0⟩]
  vehicles := [⟨"v1", "vehicle-001", "UGV 1", .wheeled, .online⟩]
  permissions := permissions
  sessions := [⟨"s1", "web-bob", "v1", "bob", 1, .active, 0, .control⟩]
  leases := []
  events := []

private def bobClaims : ApiRequest :=
  .server (.lease (.claim ⟨some ⟨"bob", .operator⟩, "vehicle-001",
    some (.obj [("sessionId", .str "web-bob")])⟩))

private def bobHolds : Response :=
  ok [("vehicleId", .text "vehicle-001"), ("operatorId", .text "bob"), ("sessionId", .text "web-bob"),
    ("connectionEpoch", .text "1"), ("status", .text "active"), ("expiresAt", .instant 1801000)] 201

/-- An admin grants Bob the vehicle, and he claims it. -/
private def grantedClaim : List ApiEvent :=
  List.replicate 6 (.step 1 ⟨1000, false⟩) ++ .spawn bobClaims ::
    (List.replicate 4 (.step 0 ⟨1000, false⟩) ++ [.spawn (.server (.grant ⟨some ⟨"root", .admin⟩,
      "vehicle-001", some (.obj [("userId", .str "bob"), ("role", .str "OPERATOR")])⟩))])

private abbrev grantedRun := apiSystem bareServer wholeNumbers (bobsDepot [])

theorem bob_backed :
    ∃ v r, (bobsDepot []).vehicle? "vehicle-001" = some v ∧ hasRole r .operator = true ∧
      Backed (bobsDepot []) "bob" v.id r (grantedRun.log grantedClaim) := by
  obtain ⟨t, ht, hpoint⟩ := Option.map_eq_some_iff.mp (show Option.map (fun t => (t.request, t.prog.point))
    (grantedRun.state (grantedRun.log grantedClaim)).tasks[1]? = some (bobClaims, .finished bobHolds)
      from rfl)
  obtain ⟨hrequest, hfinished⟩ := Prod.mk.inj hpoint
  exact backed_by_admin bareServer wholeNumbers (bobsDepot []) grantedClaim ht
    (by rw [hrequest]; rfl) (.inl ⟨bobHolds, hfinished, rfl⟩)

-- ---------------------------------------------------------------------------
-- Lost permissions
-- ---------------------------------------------------------------------------

/-- The user has lost the permission before task `i` started, and no step since grants another. -/
def LostBefore (start : Db) (i : Nat) (userId rowId : String) : ApiLog → Prop :=
  Since (fun x _ => ∀ role, ¬ Granted start x userId rowId role)
    fun x _ => x.after.world.permission? userId rowId = none ∧ x.before.tasks[i]? = none

theorem LostBefore.absent {srv : Server} {fmt : NumberFormat} {start : Db} {es : List ApiEvent}
    {i : Nat} {userId rowId : String}
    (h : LostBefore start i userId rowId ((apiSystem srv fmt start).log es)) :
    ((apiSystem srv fmt start).state ((apiSystem srv fmt start).log es)).world.permission? userId rowId =
        none ∧
      ∀ y ∈ turns i ((apiSystem srv fmt start).log es), y.before.world.permission? userId rowId = none := by
  induction es with
  | nil => exact absurd h since_nil
  | cons e es ih =>
    rcases since_cons.mp h with ⟨hlost, hfresh⟩ | ⟨hnone, hpast⟩
    · refine ⟨hlost, fun y hy => ?_⟩
      rw [turns_idle (Pool.isTurn_absent hfresh e), turns_absent hfresh] at hy
      exact absurd hy List.not_mem_nil
    · obtain ⟨hbefore, hturns⟩ := ih hpast
      refine ⟨permission?_none.mpr fun role hgives => ?_, fun y hy => ?_⟩
      · have hlast : _ ∈ (apiSystem srv fmt start).log (e :: es) := List.mem_cons_self
        rcases gives_step hlast hgives with hgives | hgranted
        · exact permission?_none.mp hbefore role hgives
        · exact hnone role hgranted
      · rw [System.log_cons, turns, List.filter_cons] at hy
        split at hy
        · rcases List.mem_cons.mp hy with rfl | hy
          · exact hbefore
          · exact hturns y hy
        · exact hturns y hy

/-- Who has lost a permission gets nothing by it, until it is granted again. -/
theorem lost_is_refused (srv : Server) (fmt : NumberFormat) (start : Db) (es : List ApiEvent) {i : Nat}
    {t : Task ApiRequest Call Call.Reply Response Unit} {userId vehicleId : String} {role : Role}
    {v : Vehicle}
    (h : ((apiSystem srv fmt start).state ((apiSystem srv fmt start).log es)).tasks[i]? = some t)
    (hneed : t.request.authority srv = .permission userId vehicleId role)
    (hv : start.vehicle? vehicleId = some v)
    (hlost : LostBefore start i userId v.id ((apiSystem srv fmt start).log es)) :
    ¬ Acted t (turns i ((apiSystem srv fmt start).log es)) := by
  intro hacted
  obtain ⟨y, hy, v', p, hv', hp, -⟩ := permission_seen h hneed hacted
  obtain rfl := Option.some.inj (hv.symm.trans hv')
  exact absurd (hp.symm.trans (hlost.absent.2 y hy)) (Option.some_ne_none p)

private def bobMayOperate : VehiclePermission := ⟨"bob", "v1", .operator, 1, some "root", 0⟩

/-- Bob's permission is revoked, and he claims the vehicle. -/
private def revokedClaim : List ApiEvent :=
  List.replicate 2 (.step 1 ⟨1000, false⟩) ++ .spawn bobClaims ::
    (List.replicate 3 (.step 0 ⟨1000, false⟩) ++ [.spawn (.server (.revoke ⟨some ⟨"root", .admin⟩,
      "vehicle-001", "bob"⟩))])

private abbrev revokedRun := apiSystem bareServer wholeNumbers (bobsDepot [bobMayOperate])

private theorem claim_grants_nothing {start : Db} {x : ApiEntry}
    (h : (x.before.call? x.event).elim bobClaims (·.1) = bobClaims) (role : Role) :
    ¬ Granted start x "bob" "v1" role := by
  rintro ⟨req, choice, grantedBy, hcall, -⟩
  rw [hcall] at h
  cases h

theorem bob_refused :
    ∃ t, (revokedRun.state (revokedRun.log revokedClaim)).tasks[1]? = some t ∧ t.request = bobClaims ∧
      ¬ Acted t (turns 1 (revokedRun.log revokedClaim)) := by
  obtain ⟨t, ht, hrequest⟩ := Option.map_eq_some_iff.mp (show Option.map (·.request)
    (revokedRun.state (revokedRun.log revokedClaim)).tasks[1]? = some bobClaims from rfl)
  have hlost : LostBefore (bobsDepot [bobMayOperate]) 1 "bob" "v1" (revokedRun.log revokedClaim) :=
    .inr ⟨claim_grants_nothing rfl, .inr ⟨claim_grants_nothing rfl,
      .inr ⟨claim_grants_nothing rfl, .inl ⟨rfl, rfl⟩⟩⟩⟩
  exact ⟨t, ht, hrequest, lost_is_refused bareServer wholeNumbers (bobsDepot [bobMayOperate]) revokedClaim
    ht (by rw [hrequest]; rfl) rfl hlost⟩

end Rvep.Backend
