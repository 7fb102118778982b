import Rvep.Backend.HandlerContracts
import Rvep.Backend.DatasetAsset

/-!
# Registrations that interleave

Any number of dataset assets are registered at once. A registration looks for
the system user and for its session, and creates what it does not find, in two
steps: it fails where another has created the same in between.
-/

namespace Rvep.Backend

open Interleaving Reactive

-- ---------------------------------------------------------------------------
-- The system
-- ---------------------------------------------------------------------------

/-- What a registration has stored, and whether a call of it has failed. -/
structure Ledger where
  stored : List DatasetAsset
  failed : Bool
  deriving DecidableEq, Repr

def Call.stores : (c : Call) → c.Reply → List DatasetAsset
  | .query (.datasetAssetCreate _), .ok asset => [asset]
  | _, _ => []

def Call.throws : (c : Call) → c.Reply → Bool
  | .query _, .error _ => true
  | .transaction _, .error _ => true
  | _, _ => false

/-- The database is up, and its clock reads what an event says. -/
def registrationWorld : World Call Call.Reply Db Time Ledger where
  exec now := Call.exec ⟨now, false⟩
  blank := ⟨[], false⟩
  observe n _ c r := ⟨n.stored ++ c.stores r, n.failed || c.throws r⟩

theorem registration_runs : Runs registrationWorld fun now => ⟨now, false⟩ := fun _ _ _ => rfl

abbrev RegistrationPool := Pool DatasetAssetRequest Call Call.Reply Response Db Ledger
abbrev RegistrationEntry := Entry RegistrationPool (Interleaving.Event DatasetAssetRequest Time) Unit

def registrations (fmt : NumberFormat) (INTERNAL_TOKEN : String) (start : Db) :
    System RegistrationPool (Interleaving.Event DatasetAssetRequest Time) Unit :=
  pool registrationWorld (datasetAsset fmt INTERNAL_TOKEN) start

/-- The call creates a row whose unique key is taken. -/
def Call.keyTaken : Call → Db → Bool
  | .query (.userCreate data), db => db.users.any (·.email == data.email)
  | .query (.sessionCreate data), db => db.sessions.any (·.sessionId == data.sessionId)
  | _, _ => false

/-- The step is such a call. -/
def collides (x : RegistrationEntry) : Bool :=
  (x.before.call? x.event).any fun (_, _, _, c) => c.keyTaken x.before.world

-- ---------------------------------------------------------------------------
-- A registration that is stored
-- ---------------------------------------------------------------------------

/-- No NUL in a string, and every number within its column. -/
def DatasetAssetBody.isStorable (body : DatasetAssetBody) : Bool :=
  isText body.vehicleId && isText body.sessionId && body.cameraId.all isText && isText body.path &&
    body.sizeBytes.all (fun n => decide (n < 2 ^ 63)) &&
    body.durationMs.all (fun n => decide (n < 2 ^ 63)) && body.sha256.all isText &&
    body.metadata.all Json.isStorable

/-- The request passes the token check and the schema. -/
structure Submits (fmt : NumberFormat) (INTERNAL_TOKEN : String) (req : DatasetAssetRequest)
    (body : DatasetAssetBody) : Prop where
  presented : req.presented = some INTERNAL_TOKEN
  accepted : validateBody req.body (datasetAssetSchema fmt) = .ok body

/-- It is one for a vehicle there is, and the database can store it. -/
structure Registers (fmt : NumberFormat) (INTERNAL_TOKEN : String) (start : Db)
    (req : DatasetAssetRequest) (body : DatasetAssetBody) : Prop
    extends Submits fmt INTERNAL_TOKEN req body where
  vehicle : (start.vehicle? body.vehicleId).isSome = true
  storable : body.isStorable = true

/-- The asset is the one row that was stored for the body, and the answer tells of it. -/
structure StoresOnce (body : DatasetAssetBody) (n : Ledger) (r : Response) (db : Db)
    (vehicle : Vehicle) (session : Session) (asset : DatasetAsset) : Prop where
  answer : r = registered asset session
  stored : n.stored = [asset]
  row : asset = (body.data vehicle session).row asset.id asset.createdAt
  mem : asset ∈ db.datasetAssets
  once : db.datasetAssets.countP (·.id == asset.id) = 1
  vehicle : db.vehicle? body.vehicleId = some vehicle
  session : db.session? body.sessionId = some session

-- ---------------------------------------------------------------------------
-- What a call adds
-- ---------------------------------------------------------------------------

/-- Assets are only added, each under an id that no asset has. -/
structure Db.AddsAssets (db db' : Db) : Prop where
  vehicles : db'.vehicles = db.vehicles
  datasetAssets : ∃ rows, db'.datasetAssets = db.datasetAssets ++ rows ∧
    ∀ a ∈ db.datasetAssets, ∀ b ∈ rows, b.id ≠ a.id

theorem Db.AddsAssets.of_eq {db db' : Db} (hvehicles : db'.vehicles = db.vehicles)
    (hassets : db'.datasetAssets = db.datasetAssets) : db.AddsAssets db' := by
  refine ⟨hvehicles, [], ?_, fun _ _ _ hb => absurd hb List.not_mem_nil⟩
  rw [hassets, List.append_nil]

theorem Db.AddsAssets.refl (db : Db) : db.AddsAssets db := .of_eq rfl rfl

theorem Db.AddsAssets.trans {db db' db'' : Db} (h : db.AddsAssets db') (h' : db'.AddsAssets db'') :
    db.AddsAssets db'' := by
  obtain ⟨rows, hrows, hnew⟩ := h.datasetAssets
  obtain ⟨rows', hrows', hnew'⟩ := h'.datasetAssets
  refine ⟨h'.vehicles.trans h.vehicles, rows ++ rows', ?_, ?_⟩
  · rw [hrows', hrows, List.append_assoc]
  · intro a ha b hb
    rcases List.mem_append.mp hb with hb | hb
    · exact hnew a ha b hb
    · exact hnew' a (hrows ▸ List.mem_append_left _ ha) b hb

/-- An asset that is there once stays so. -/
theorem Db.AddsAssets.once {db db' : Db} {asset : DatasetAsset} (h : db.AddsAssets db')
    (hmem : asset ∈ db.datasetAssets) (honce : db.datasetAssets.countP (·.id == asset.id) = 1) :
    asset ∈ db'.datasetAssets ∧ db'.datasetAssets.countP (·.id == asset.id) = 1 := by
  obtain ⟨rows, hrows, hnew⟩ := h.datasetAssets
  have hrest : rows.countP (·.id == asset.id) = 0 := by
    refine List.countP_eq_zero.mpr fun b hb => ?_
    simpa using hnew asset hmem b hb
  rw [hrows, List.countP_append, honce, hrest]
  exact ⟨List.mem_append_left _ hmem, rfl⟩

/-- So are users and sessions. -/
structure Db.Grows (db db' : Db) : Prop extends Db.AddsAssets db db' where
  users : db.users <+: db'.users
  sessions : db.sessions <+: db'.sessions

theorem Db.Grows.refl (db : Db) : db.Grows db := ⟨.refl db, List.prefix_rfl, List.prefix_rfl⟩

theorem Db.Grows.trans {db db' db'' : Db} (h : db.Grows db') (h' : db'.Grows db'') :
    db.Grows db'' :=
  ⟨h.toAddsAssets.trans h'.toAddsAssets, h.users.trans h'.users, h.sessions.trans h'.sessions⟩

theorem StoresOnce.grows {body : DatasetAssetBody} {n : Ledger} {r : Response} {db db' : Db}
    {vehicle : Vehicle} {session : Session} {asset : DatasetAsset}
    (h : StoresOnce body n r db vehicle session asset) (hgrows : db.Grows db') :
    StoresOnce body n r db' vehicle session asset := by
  obtain ⟨hmem, honce⟩ := hgrows.toAddsAssets.once h.mem h.once
  refine ⟨h.answer, h.stored, h.row, hmem, honce, ?_, hgrows.sessions.find?_eq_some h.session⟩
  rw [Db.vehicle?, hgrows.vehicles]
  exact h.vehicle

section
variable (now : Time) (db : Db)

/-- The system user is created unless its address is taken. -/
theorem userCreate_cases :
    (db.users.any (·.email == SYSTEM_EMAIL) = true ∧
        (Query.userCreate systemUser).answer now db = (db, .error .uniqueConstraint)) ∨
      (db.users.any (·.email == SYSTEM_EMAIL) = false ∧ ∃ user,
        (Query.userCreate systemUser).answer now db =
          ({ db with users := db.users ++ [user] }, .ok user)) := by
  have hemail : systemUser.email = SYSTEM_EMAIL := rfl
  simp only [Query.answer, hemail]
  cases htaken : db.users.any (·.email == SYSTEM_EMAIL) with
  | true => exact .inl ⟨rfl, rfl⟩
  | false => exact .inr ⟨rfl, _, rfl⟩

theorem sessionCreate_cases (data : SessionData) :
    (isText data.sessionId = false ∧
        (Query.sessionCreate data).answer now db = (db, .error .invalidValue)) ∨
      (db.sessions.any (·.sessionId == data.sessionId) = true ∧
        (Query.sessionCreate data).answer now db = (db, .error .uniqueConstraint)) ∨
      db.sessions.any (·.sessionId == data.sessionId) = false ∧
        (((db.vehicles.any (·.id == data.vehicleId) && db.users.any (·.id == data.userId)) = false ∧
          (Query.sessionCreate data).answer now db = (db, .error .foreignKey)) ∨
        ∃ session : Session, session.sessionId = data.sessionId ∧
          (Query.sessionCreate data).answer now db =
            ({ db with sessions := db.sessions ++ [session] }, .ok session)) := by
  simp only [Query.answer]
  cases htext : isText data.sessionId with
  | false => exact .inl ⟨rfl, rfl⟩
  | true =>
    cases htaken : db.sessions.any (·.sessionId == data.sessionId) with
    | true => exact .inr (.inl ⟨rfl, rfl⟩)
    | false =>
      refine .inr (.inr ⟨rfl, ?_⟩)
      cases hrefs : (db.vehicles.any (·.id == data.vehicleId) &&
          db.users.any (·.id == data.userId)) with
      | false => exact .inl ⟨rfl, rfl⟩
      | true => exact .inr ⟨_, rfl, rfl⟩

theorem datasetAssetCreate_cases (data : DatasetAssetData) :
    ((data.isStorable && (db.vehicles.any (·.vehicleId == data.vehicleId) &&
        db.sessions.any (·.id == data.sessionId))) = false ∧
        ∃ err, (Query.datasetAssetCreate data).answer now db = (db, .error err)) ∨
      ∃ id, id ∉ db.datasetAssets.map (·.id) ∧ (Query.datasetAssetCreate data).answer now db =
        ({ db with datasetAssets := db.datasetAssets ++ [data.row id now] }, .ok (data.row id now)) := by
  simp only [Query.answer]
  cases hstorable : data.isStorable with
  | false => exact .inl ⟨rfl, _, rfl⟩
  | true =>
    cases hrefs : (db.vehicles.any (·.vehicleId == data.vehicleId) &&
        db.sessions.any (·.id == data.sessionId)) with
    | false => exact .inl ⟨rfl, _, rfl⟩
    | true => exact .inr ⟨_, Db.newId_notMem _, rfl⟩

theorem grows_userCreate : db.Grows ((Query.userCreate systemUser).answer now db).1 := by
  rcases userCreate_cases now db with ⟨-, hout⟩ | ⟨-, user, hout⟩
  · rw [hout]
    exact .refl db
  · rw [hout]
    exact ⟨.of_eq rfl rfl, List.prefix_append _ _, List.prefix_rfl⟩

theorem grows_sessionCreate (data : SessionData) :
    db.Grows ((Query.sessionCreate data).answer now db).1 := by
  rcases sessionCreate_cases now db data with
    ⟨-, hout⟩ | ⟨-, hout⟩ | ⟨-, ⟨-, hout⟩ | ⟨session, -, hout⟩⟩
  · rw [hout]
    exact .refl db
  · rw [hout]
    exact .refl db
  · rw [hout]
    exact .refl db
  · rw [hout]
    exact ⟨.of_eq rfl rfl, List.prefix_rfl, List.prefix_append _ _⟩

theorem grows_datasetAssetCreate (data : DatasetAssetData) :
    db.Grows ((Query.datasetAssetCreate data).answer now db).1 := by
  rcases datasetAssetCreate_cases now db data with ⟨-, err, hout⟩ | ⟨id, hnew, hout⟩
  · rw [hout]
    exact .refl db
  · rw [hout]
    refine ⟨⟨rfl, _, rfl, ?_⟩, List.prefix_rfl, List.prefix_rfl⟩
    rintro a ha b hb hid
    obtain rfl := List.mem_singleton.mp hb
    exact hnew (List.mem_map.mpr ⟨a, ha, hid.symm⟩)

end

-- ---------------------------------------------------------------------------
-- The contract
-- ---------------------------------------------------------------------------

/-- Where a registration ends: its asset is stored, or it has stored nothing. -/
inductive Settled (fmt : NumberFormat) (INTERNAL_TOKEN : String) (start : Db)
    (req : DatasetAssetRequest) (n : Ledger) (r : Response) (db : Db) : Prop
  | stored {body : DatasetAssetBody} {vehicle : Vehicle} {session : Session} {asset : DatasetAsset} :
    Submits fmt INTERNAL_TOKEN req body → n.failed = false →
    StoresOnce body n r db vehicle session asset → Settled fmt INTERNAL_TOKEN start req n r db
  | refused : n.stored = [] → r.status ≠ 200 →
    (∀ body, Registers fmt INTERNAL_TOKEN start req body → n.failed = true) →
    Settled fmt INTERNAL_TOKEN start req n r db

/-- Of a registration that the database can store, the calls that fail are those that collide. -/
def registrationContract (fmt : NumberFormat) (INTERNAL_TOKEN : String) (start : Db) :
    Contract DatasetAssetRequest Call Response Db Time Ledger where
  inv db := db.vehicles = start.vehicles
  rely := Db.Grows
  here req n q db := ∀ r, q = .finished r → Settled fmt INTERNAL_TOKEN start req n r db
  guar req now _ c db _ _ db' := db.Grows db' ∧ ∀ body, Registers fmt INTERNAL_TOKEN start req body →
    c.throws (c.exec ⟨now, false⟩ db).2 = c.keyTaken db
  refl := .refl
  trans := .trans
  rely_of_guar h := h.1

section
variable {fmt : NumberFormat} {INTERNAL_TOKEN : String} {start : Db} {req : DatasetAssetRequest}
  {n : Ledger} {db : Db}

variable (fmt INTERNAL_TOKEN start req n db) in
abbrev KeepsRegistration (prog : Prog Call Call.Reply Response) : Prop :=
  (registrationContract fmt INTERNAL_TOKEN start).Kept registrationWorld req n prog db

theorem stores_error (q : Query) (err : DbError) : (Call.query q).stores (.error err) = [] := by
  cases q <;> rfl

theorem stores_read {q : Query} (hq : q.isRead = true) (v : q.Reply) :
    (Call.query q).stores (.ok v) = [] := by
  cases q with
  | datasetAssetCreate => simp [Query.isRead] at hq
  | _ => rfl

theorem keyTaken_read {q : Query} (hq : q.isRead = true) (db : Db) :
    (Call.query q).keyTaken db = false := by
  cases q with
  | userCreate | sessionCreate => simp [Query.isRead] at hq
  | _ => rfl

theorem keepsRegistration_refused {r : Response} (hstored : n.stored = []) (hr : r.status ≠ 200)
    (hfailed : ∀ body, Registers fmt INTERNAL_TOKEN start req body → n.failed = true) :
    KeepsRegistration fmt INTERNAL_TOKEN start req n db (.done r) := by
  rintro db' - - r' heq
  cases heq
  exact .refused hstored hr hfailed

/-- A call that fails ends the registration. -/
theorem keepsRegistration_failed (hstored : n.stored = []) (q : Query) (err : DbError) {db' : Db} :
    KeepsRegistration fmt INTERNAL_TOKEN start req
      (registrationWorld.observe n db' (.query q) (.error err)) db
      (.done (fail "internal_error" 500)) := by
  refine keepsRegistration_refused ?_ (by decide) fun _ _ => Bool.or_true _
  change n.stored ++ (Call.query q).stores (.error err) = []
  rw [hstored, stores_error, List.nil_append]

theorem observe_read {q : Query} (hq : q.isRead = true) (v : q.Reply) :
    registrationWorld.observe ⟨[], false⟩ db (.query q) (.ok v) = ⟨[], false⟩ := by
  change Ledger.mk ([] ++ (Call.query q).stores (.ok v)) (false || false) = _
  rw [stores_read hq]
  rfl

theorem keepsRegistration_read {q : Query} {f : q.Reply → Handler Response} (hq : q.isRead = true)
    (hok : ∀ db' v, db.Grows db' → db'.vehicles = start.vehicles →
      (∀ now, q.answer now db' = (db', .ok v)) →
        KeepsRegistration fmt INTERNAL_TOKEN start req ⟨[], false⟩ db' (Handler.serve (f v))) :
    KeepsRegistration fmt INTERNAL_TOKEN start req ⟨[], false⟩ db
      (Handler.serve (Handler.query q >>= f)) := by
  refine kept_read registration_runs hq (fun _ _ _ _ h => absurd h nofun) ?_
    (fun _ _ _ => keepsRegistration_failed rfl q _) ?_
  · intro db' now n' p _ _
    refine ⟨.refl db', fun body _ => ?_⟩
    obtain ⟨v, hv⟩ := Query.answer_isRead hq db'
    have hexec : (Call.query q).exec ⟨now, false⟩ db' = (db', .ok v) :=
      (Query.exec_of_not_fails rfl db').trans (hv now)
    rw [hexec, keyTaken_read hq]
    rfl
  · intro db' v hgrows hvehicles hv
    rw [observe_read hq]
    exact hok db' v hgrows hvehicles hv

theorem keepsRegistration_create {q : Query} {f : q.Reply → Handler Response}
    (hgrows : ∀ now (db' : Db), db'.Grows (q.answer now db').1)
    (hthrows : ∀ now db', db.Grows db' → db'.vehicles = start.vehicles →
      ∀ body, Registers fmt INTERNAL_TOKEN start req body →
        (Call.query q).throws (q.answer now db').2 = (Call.query q).keyTaken db')
    (hok : ∀ db' now v db'', db.Grows db' → db'.vehicles = start.vehicles → db'.Grows db'' →
      q.answer now db' = (db'', .ok v) →
        KeepsRegistration fmt INTERNAL_TOKEN start req
          (registrationWorld.observe ⟨[], false⟩ db' (.query q) (.ok v)) db'' (Handler.serve (f v))) :
    KeepsRegistration fmt INTERNAL_TOKEN start req ⟨[], false⟩ db
      (Handler.serve (Handler.query q >>= f)) := by
  refine kept_query registration_runs (fun _ _ _ _ h => absurd h nofun) ?_
    (fun _ _ _ => keepsRegistration_failed rfl q _) ?_
    (fun _ _ _ _ _ _ _ _ => keepsRegistration_failed rfl q _)
  · intro db' now n' p hrely hvehicles
    have hexec : q.exec ⟨now, false⟩ db' = q.answer now db' := Query.exec_of_not_fails rfl db'
    refine ⟨?_, fun body hreg => ?_⟩
    · rw [hexec]
      exact hgrows now db'
    · have hcall : (Call.query q).exec ⟨now, false⟩ db' = q.answer now db' := hexec
      rw [hcall]
      exact hthrows now db' hrely hvehicles body hreg
  · intro db' now v db'' hrely hvehicles _ hq
    have hgrows' := hgrows now db'
    rw [hq] at hgrows'
    exact hok db' now v db'' hrely hvehicles hgrows' hq

-- ---------------------------------------------------------------------------
-- The handler keeps it
-- ---------------------------------------------------------------------------

theorem getOrCreate_bind (find : Handler (Option α)) (create : Handler α) (f : α → Handler Response) :
    getOrCreate find create >>= f = find >>= fun found =>
      match found with
      | some existing => f existing
      | none => create >>= f := by
  rw [getOrCreate, bind_assoc]
  refine congrArg _ (funext fun found => ?_)
  cases found with
  | none => rfl
  | some existing => exact pure_bind existing f

theorem keepsRegistration_user {f : User → Handler Response}
    (hf : ∀ db' user, db.Grows db' → user ∈ db'.users →
      KeepsRegistration fmt INTERNAL_TOKEN start req ⟨[], false⟩ db' (Handler.serve (f user))) :
    KeepsRegistration fmt INTERNAL_TOKEN start req ⟨[], false⟩ db
      (Handler.serve (getOrCreateSystemUser >>= f)) := by
  rw [getOrCreateSystemUser, getOrCreate_bind]
  refine keepsRegistration_read rfl fun db₁ found hgrows₁ _ hfound => ?_
  obtain rfl : db₁.users.find? (·.email == SYSTEM_EMAIL) = found := Query.value_eq hfound rfl
  cases huser : db₁.users.find? (·.email == SYSTEM_EMAIL) with
  | some user => exact hf db₁ user hgrows₁ (List.mem_of_find?_eq_some huser)
  | none =>
    refine keepsRegistration_create grows_userCreate ?_ ?_
    · rintro now db' - - body -
      rcases userCreate_cases now db' with ⟨htaken, hout⟩ | ⟨hfree, user, hout⟩
      · rw [hout]
        exact htaken.symm
      · rw [hout]
        exact hfree.symm
    · intro db' now user db'' hgrows' _ hgrows'' hcreated
      refine hf db'' user (hgrows₁.trans (hgrows'.trans hgrows'')) ?_
      rcases userCreate_cases now db' with ⟨-, hout⟩ | ⟨-, user', hout⟩
      · exact (outcome_error hout hcreated).elim
      · obtain ⟨rfl, rfl⟩ := outcome_ok hout hcreated
        exact List.mem_append_right _ List.mem_cons_self

theorem keepsRegistration_session {vehicle : Vehicle} {user : User} {body : DatasetAssetBody}
    {f : Session → Handler Response} (hvehicle : vehicle ∈ start.vehicles) (huser : user ∈ db.users)
    (hbody : ∀ body', Registers fmt INTERNAL_TOKEN start req body' → isText body.sessionId = true)
    (hf : ∀ db' session, db.Grows db' → db'.vehicles = start.vehicles →
      db'.session? body.sessionId = some session →
        KeepsRegistration fmt INTERNAL_TOKEN start req ⟨[], false⟩ db' (Handler.serve (f session))) :
    KeepsRegistration fmt INTERNAL_TOKEN start req ⟨[], false⟩ db
      (Handler.serve (getOrCreateSession vehicle.id body.sessionId user.id >>= f)) := by
  rw [getOrCreateSession, getOrCreate_bind]
  refine keepsRegistration_read rfl fun db₁ found hgrows₁ hvehicles hfound => ?_
  obtain rfl : db₁.session? body.sessionId = found := Query.value_eq hfound rfl
  cases hsession : db₁.session? body.sessionId with
  | some session => exact hf db₁ session hgrows₁ hvehicles hsession
  | none =>
    refine keepsRegistration_create (fun now db' => grows_sessionCreate now db' _) ?_ ?_
    · intro now db' hgrows' hvehicles' body' hreg
      rcases sessionCreate_cases now db' (datasetSession vehicle.id body.sessionId user.id) with
        ⟨hnul, -⟩ | ⟨htaken, hout⟩ | ⟨hfree, ⟨hdangling, -⟩ | ⟨session, -, hout⟩⟩
      · exact absurd ((hbody body' hreg).symm.trans hnul) nofun
      · rw [hout]
        exact htaken.symm
      · have huser' : user ∈ db'.users := (hgrows₁.trans hgrows').users.subset huser
        have hrefs : (db'.vehicles.any (·.id == vehicle.id) &&
            db'.users.any (·.id == user.id)) = true := by
          rw [Bool.and_eq_true, hvehicles']
          exact ⟨List.any_eq_true.mpr ⟨vehicle, hvehicle, beq_self_eq_true _⟩,
            List.any_eq_true.mpr ⟨user, huser', beq_self_eq_true _⟩⟩
        exact absurd (hrefs.symm.trans hdangling) nofun
      · rw [hout]
        exact hfree.symm
    · intro db' now session db'' hgrows' hvehicles' hgrows'' hcreated
      refine hf db'' session (hgrows₁.trans (hgrows'.trans hgrows''))
        (hgrows''.vehicles.trans hvehicles') ?_
      rcases sessionCreate_cases now db' (datasetSession vehicle.id body.sessionId user.id) with
        ⟨-, hout⟩ | ⟨-, hout⟩ | ⟨hfree, ⟨-, hout⟩ | ⟨session', hname, hout⟩⟩
      · exact (outcome_error hout hcreated).elim
      · exact (outcome_error hout hcreated).elim
      · exact (outcome_error hout hcreated).elim
      · obtain ⟨rfl, rfl⟩ := outcome_ok hout hcreated
        have hnone : db'.sessions.find? (·.sessionId == body.sessionId) = none :=
          List.find?_eq_none.mpr (List.any_eq_false.mp hfree)
        have hlast : (session'.sessionId == body.sessionId) = true := beq_iff_eq.mpr hname
        simp [Db.session?, List.find?_append, hnone, hlast]

theorem isBigInt_natCast {n : Nat} (h : n < 2 ^ 63) : isBigInt n = true := by
  rw [isBigInt, Bool.and_eq_true, decide_eq_true_eq, decide_eq_true_eq]
  omega

theorem all_isBigInt {n? : Option Nat} (h : n?.all (fun n => decide (n < 2 ^ 63)) = true) :
    (n?.map Int.ofNat).all isBigInt = true := by
  cases n? with
  | none => rfl
  | some n =>
    rw [Option.all_some, decide_eq_true_eq] at h
    rw [Option.map_some, Option.all_some]
    exact isBigInt_natCast h

theorem data_isStorable {body : DatasetAssetBody} (h : body.isStorable = true) (vehicle : Vehicle)
    (session : Session) : (body.data vehicle session).isStorable = true := by
  simp only [DatasetAssetBody.isStorable, Bool.and_eq_true] at h
  obtain ⟨⟨⟨⟨⟨⟨⟨-, -⟩, hcamera⟩, hpath⟩, hsize⟩, hduration⟩, hsha⟩, hmetadata⟩ := h
  simp only [DatasetAssetData.isStorable, DatasetAssetBody.data, Bool.and_eq_true]
  exact ⟨⟨⟨⟨⟨hcamera, hpath⟩, all_isBigInt hsize⟩, all_isBigInt hduration⟩, hsha⟩, hmetadata⟩

theorem Registers.unique {body body' : DatasetAssetBody} (hsubmits : Submits fmt INTERNAL_TOKEN req body)
    (h : Registers fmt INTERNAL_TOKEN start req body') : body' = body :=
  Except.ok.inj (h.accepted.symm.trans hsubmits.accepted)

theorem keepsRegistration_asset {body : DatasetAssetBody} {vehicle : Vehicle} {session : Session}
    (hsubmits : Submits fmt INTERNAL_TOKEN req body)
    (hvehicle : start.vehicle? body.vehicleId = some vehicle)
    (hsession : db.session? body.sessionId = some session) :
    KeepsRegistration fmt INTERNAL_TOKEN start req ⟨[], false⟩ db
      (Handler.serve (Handler.query (.datasetAssetCreate (body.data vehicle session)) >>= fun asset =>
        pure (registered asset session))) := by
  have hfound : ∀ {db' : Db}, db'.vehicles = start.vehicles →
      db'.vehicle? body.vehicleId = some vehicle := fun hvehicles => by
    rw [Db.vehicle?, hvehicles]
    exact hvehicle
  refine keepsRegistration_create (fun now db' => grows_datasetAssetCreate now db' _) ?_ ?_
  · intro now db' hgrows hvehicles body' hreg
    rcases datasetAssetCreate_cases now db' (body.data vehicle session) with ⟨hbad, -⟩ | ⟨id, -, hout⟩
    · obtain rfl := hreg.unique hsubmits
      have hmem := List.mem_of_find?_eq_some (hfound hvehicles)
      have hmem' := List.mem_of_find?_eq_some (hgrows.sessions.find?_eq_some hsession)
      rw [data_isStorable hreg.storable, Bool.true_and, Bool.and_eq_false_iff] at hbad
      rcases hbad with hbad | hbad
      · exact absurd (beq_self_eq_true _) (List.any_eq_false.mp hbad vehicle hmem)
      · exact absurd (beq_self_eq_true _) (List.any_eq_false.mp hbad session hmem')
    · rw [hout]
      rfl
  · intro db' now asset db'' hgrows hvehicles hgrows' hcreated
    rcases datasetAssetCreate_cases now db' (body.data vehicle session) with
      ⟨-, err, hout⟩ | ⟨id, hnew, hout⟩
    · exact (outcome_error hout hcreated).elim
    · obtain ⟨rfl, rfl⟩ := outcome_ok hout hcreated
      have honce : (db'.datasetAssets ++ [(body.data vehicle session).row id now]).countP (·.id == id) =
          1 := by
        have hold : db'.datasetAssets.countP (·.id == id) = 0 := by
          refine List.countP_eq_zero.mpr fun a ha hid => ?_
          exact hnew (List.mem_map.mpr ⟨a, ha, beq_iff_eq.mp hid⟩)
        rw [List.countP_append, hold]
        simp [DatasetAssetData.row]
      have hstores : StoresOnce body ⟨[(body.data vehicle session).row id now], false⟩
          (registered ((body.data vehicle session).row id now) session)
          { db' with datasetAssets := db'.datasetAssets ++ [(body.data vehicle session).row id now] }
          vehicle session ((body.data vehicle session).row id now) :=
        ⟨rfl, rfl, rfl, List.mem_append_right _ List.mem_cons_self, honce, hfound hvehicles,
          hgrows.sessions.find?_eq_some hsession⟩
      rintro db₃ hgrows₃ - r heq
      cases heq
      exact .stored hsubmits rfl (hstores.grows hgrows₃)

theorem keepsRegistration_datasetAsset (req : DatasetAssetRequest) (db : Db) :
    KeepsRegistration fmt INTERNAL_TOKEN start req ⟨[], false⟩ db
      (datasetAsset fmt INTERNAL_TOKEN req) := by
  unfold datasetAsset
  split
  next htoken =>
    refine keepsRegistration_refused rfl (by decide) fun body hreg => ?_
    simp [hreg.presented] at htoken
  next htoken =>
    refine kept_orThrow ?_ ?_
    · intro err herr
      have hstatus : err.status ≠ 200 := by
        rw [validateBody_status herr]
        decide
      refine keepsRegistration_refused rfl hstatus fun body hreg => ?_
      exact absurd (herr.symm.trans hreg.accepted) nofun
    · intro body hbody
      have hsubmits : Submits fmt INTERNAL_TOKEN req body := ⟨by simpa using htoken, hbody⟩
      refine keepsRegistration_read rfl fun db₁ found _ hvehicles hfound => ?_
      obtain rfl : db₁.vehicle? body.vehicleId = found := Query.value_eq hfound rfl
      rw [Db.vehicle?, hvehicles]
      cases hvehicle : start.vehicles.find? (·.vehicleId == body.vehicleId) with
      | none =>
        refine keepsRegistration_refused rfl (by decide) fun body' hreg => ?_
        have hsome := hreg.vehicle
        rw [hreg.unique hsubmits, Db.vehicle?, hvehicle] at hsome
        cases hsome
      | some vehicle =>
        refine keepsRegistration_user fun db₂ user _ huser => ?_
        refine keepsRegistration_session (List.mem_of_find?_eq_some hvehicle) huser ?_
          fun db₃ session _ _ hsession => keepsRegistration_asset hsubmits hvehicle hsession
        intro body' hreg
        have hstorable := hreg.storable
        rw [hreg.unique hsubmits, DatasetAssetBody.isStorable] at hstorable
        simp only [Bool.and_eq_true] at hstorable
        exact hstorable.1.1.1.1.1.1.2

-- ---------------------------------------------------------------------------
-- Runs
-- ---------------------------------------------------------------------------

theorem costs_user {f : User → Handler Response} {m : Nat}
    (hf : ∀ user, (Handler.serve (f user)).Costs callCost m) :
    (Handler.serve (getOrCreateSystemUser >>= f)).Costs callCost (m + 2) := by
  rw [getOrCreateSystemUser, getOrCreate_bind]
  refine costs_query fun found => ?_
  cases found with
  | some existing => exact (hf existing).mono (Nat.le_succ m)
  | none => exact costs_query hf

theorem costs_session {f : Session → Handler Response} {m : Nat}
    (hf : ∀ session, (Handler.serve (f session)).Costs callCost m)
    (vehicleId sessionId userId : String) :
    (Handler.serve (getOrCreateSession vehicleId sessionId userId >>= f)).Costs callCost (m + 2) := by
  rw [getOrCreateSession, getOrCreate_bind]
  refine costs_query fun found => ?_
  cases found with
  | some existing => exact (hf existing).mono (Nat.le_succ m)
  | none => exact costs_query hf

variable (fmt INTERNAL_TOKEN) in
/-- A registration makes six calls at most. -/
theorem costs_datasetAsset (req : DatasetAssetRequest) :
    (datasetAsset fmt INTERNAL_TOKEN req).Costs callCost 6 := by
  unfold datasetAsset
  split
  · trivial
  · cases validateBody req.body (datasetAssetSchema fmt) with
    | error err => trivial
    | ok body =>
      refine costs_query fun found => ?_
      cases found with
      | none => trivial
      | some vehicle =>
        refine costs_user fun user => costs_session (fun session => ?_) _ _ _
        exact costs_query fun asset => trivial

variable {es : List (Interleaving.Event DatasetAssetRequest Time)} {i : Nat}
  {t : Task DatasetAssetRequest Call Call.Reply Response Ledger} {body : DatasetAssetBody}

variable (fmt INTERNAL_TOKEN start es) in
abbrev registrationLog : PoolLog DatasetAssetRequest Call Call.Reply Response Db Time Ledger :=
  (registrations fmt INTERNAL_TOKEN start).log es

variable (fmt INTERNAL_TOKEN start es) in
abbrev afterRegistrations : RegistrationPool :=
  (registrations fmt INTERNAL_TOKEN start).state ((registrations fmt INTERNAL_TOKEN start).log es)

variable (fmt INTERNAL_TOKEN start es) in
theorem registrations_kept : (afterRegistrations fmt INTERNAL_TOKEN start es).Kept registrationWorld
    (registrationContract fmt INTERNAL_TOKEN start) :=
  Pool.Kept.run (fun req w _ => keepsRegistration_datasetAsset req w)
    (fun hi hguar => hguar.1.vehicles.trans hi) rfl es

theorem settled_of_finished
    (ht : (afterRegistrations fmt INTERNAL_TOKEN start es).tasks[i]? = some t) {r : Response}
    (hr : t.prog.point = .finished r) :
    Settled fmt INTERNAL_TOKEN start t.request t.note r
      (afterRegistrations fmt INTERNAL_TOKEN start es).world := by
  have hkept := registrations_kept fmt INTERNAL_TOKEN start es
  exact (hkept.tasks t (List.mem_of_getElem? ht)).here hkept.inv r hr

/-- A call of a registration that the database can store fails where it collides. -/
theorem throws_eq_collides {x : RegistrationEntry}
    (hx : x ∈ registrationLog fmt INTERNAL_TOKEN start es) {now : Time} {c : Call}
    (hcall : x.before.call? x.event = some (req, now, n, c))
    (hreg : Registers fmt INTERNAL_TOKEN start req body) :
    c.throws (c.exec ⟨now, false⟩ x.before.world).2 = collides x := by
  obtain ⟨hkept, -, -⟩ := Pool.Kept.of_mem (C := registrationContract fmt INTERNAL_TOKEN start)
    (fun req w _ => keepsRegistration_datasetAsset req w)
    (fun hi hguar => hguar.1.vehicles.trans hi) rfl es hx
  obtain ⟨_, _, -, hguar⟩ := hkept.call (datasetAsset fmt INTERNAL_TOKEN) hcall
  rw [hguar body hreg, collides, hcall, Option.any_some]

theorem failed_iff_collides
    (ht : (afterRegistrations fmt INTERNAL_TOKEN start es).tasks[i]? = some t)
    (hreg : Registers fmt INTERNAL_TOKEN start t.request body) :
    t.note.failed = true ↔
      ∃ x ∈ turns i (registrationLog fmt INTERNAL_TOKEN start es), collides x = true := by
  have hflag := flag_iff (·.failed) (fun _ c r => c.throws r) rfl
    (fun _ _ _ _ => rfl) ht
  refine hflag.trans ⟨?_, ?_⟩
  · rintro ⟨x, hx, req, now, n, c, hcall, hthrows⟩
    obtain rfl := request_of_turn ht hx hcall
    exact ⟨x, hx, (throws_eq_collides (mem_of_mem_turns hx) hcall hreg).symm.trans hthrows⟩
  · rintro ⟨x, hx, hcollides⟩
    have hcall := hcollides
    rw [collides, Option.any_eq_true] at hcall
    obtain ⟨⟨req, now, n, c⟩, hcall, -⟩ := hcall
    obtain rfl := request_of_turn ht hx hcall
    exact ⟨x, hx, _, now, n, c, hcall,
      (throws_eq_collides (mem_of_mem_turns hx) hcall hreg).trans hcollides⟩

/-- The registration is answered with 200, and its asset is in the database exactly once. -/
def RegisteredOnce (t : Task DatasetAssetRequest Call Call.Reply Response Ledger)
    (body : DatasetAssetBody) (db : Db) : Prop :=
  ∃ r vehicle session asset, t.prog.point = .finished r ∧ r.status = 200 ∧
    StoresOnce body t.note r db vehicle session asset

/-- Six turns are enough for an answer, and the answer is 200, for an asset
stored once, just if the registration has not collided. -/
theorem registered_once_iff
    (ht : (afterRegistrations fmt INTERNAL_TOKEN start es).tasks[i]? = some t)
    (hreg : Registers fmt INTERNAL_TOKEN start t.request body) :
    (6 ≤ (turns i (registrationLog fmt INTERNAL_TOKEN start es)).length →
        ∃ r, t.prog.point = .finished r) ∧
      ∀ r, t.prog.point = .finished r →
        (RegisteredOnce t body (afterRegistrations fmt INTERNAL_TOKEN start es).world ↔
          ∀ x ∈ turns i (registrationLog fmt INTERNAL_TOKEN start es), collides x = false) := by
  refine ⟨finished_of_turns (fun _ _ => callCost_pos) (costs_datasetAsset fmt INTERNAL_TOKEN) ht,
    fun r hr => ?_⟩
  have hfailed := failed_iff_collides ht hreg
  constructor
  · rintro ⟨r', vehicle, session, asset, -, -, hstores⟩ x hx
    cases settled_of_finished ht hr with
    | stored _ hcalm _ =>
      refine Bool.eq_false_iff.mpr fun hcollides => ?_
      exact absurd (hcalm.symm.trans (hfailed.mpr ⟨x, hx, hcollides⟩)) nofun
    | refused hstored _ _ => exact absurd (hstored.symm.trans hstores.stored) nofun
  · intro hcalm
    cases settled_of_finished ht hr with
    | stored hsubmits _ hstores =>
      obtain rfl := hreg.unique hsubmits
      exact ⟨r, _, _, _, hr, hstores.answer ▸ rfl, hstores⟩
    | refused _ _ hfails =>
      obtain ⟨x, hx, hcollides⟩ := hfailed.mp (hfails body hreg)
      exact absurd ((hcalm x hx).symm.trans hcollides) nofun

end

private def orin : Vehicle := ⟨"v1", "ugv-001", "UGV 001", .wheeled, .online⟩

/-- A vehicle, and neither a session nor a user. -/
private def freshSite : Db where
  users := []
  vehicles := [orin]
  permissions := []
  sessions := []
  leases := []
  events := []

private def chunk (path : String) : DatasetAssetRequest where
  presented := some "internal-dev-token"
  body := some (.obj [("vehicleId", .str "ugv-001"), ("sessionId", .str "drive-7"),
    ("kind", .str "RAW"), ("source", .str "ORIN_LOCAL"), ("path", .str path)])

private def chunkBody (path : String) : DatasetAssetBody :=
  ⟨"ugv-001", "drive-7", none, .raw, .orinLocal, path, none, none, none, none⟩

/-- Two registrations of one session, of which the first creates the user and the
session before the second looks for them; newest first. -/
private def lookInTurn : List (Interleaving.Event DatasetAssetRequest Time) :=
  List.replicate 2 (.step 1 1000) ++ .step 0 1000 :: List.replicate 2 (.step 1 1000) ++
    List.replicate 2 (.step 0 1000) ++ .step 1 1000 :: List.replicate 3 (.step 0 1000) ++
    [.step 1 1000, .spawn (chunk "/data/1.mp4"), .spawn (chunk "/data/0.mp4")]

theorem chunk_registered_once :
    let run := afterRegistrations wholeNumbers "internal-dev-token" freshSite lookInTurn
    (∃ t, run.tasks[0]? = some t ∧ RegisteredOnce t (chunkBody "/data/0.mp4") run.world) ∧
      ∃ t, run.tasks[1]? = some t ∧ RegisteredOnce t (chunkBody "/data/1.mp4") run.world := by
  intro run
  have hregistered {i : Nat} {path : String}
      (htask : run.tasks[i]?.map (·.request) = some (chunk path))
      (hreg : Registers wholeNumbers "internal-dev-token" freshSite (chunk path) (chunkBody path))
      (hturns : 6 ≤
        (turns i (registrationLog wholeNumbers "internal-dev-token" freshSite lookInTurn)).length)
      (hcalm : (turns i (registrationLog wholeNumbers "internal-dev-token" freshSite lookInTurn)).all
        (!collides ·) = true) :
      ∃ t, run.tasks[i]? = some t ∧ RegisteredOnce t (chunkBody path) run.world := by
    obtain ⟨t, ht, hrequest⟩ := Option.map_eq_some_iff.mp htask
    have honce := registered_once_iff ht (hrequest ▸ hreg)
    obtain ⟨r, hr⟩ := honce.1 hturns
    refine ⟨t, ht, (honce.2 r hr).mpr fun x hx => ?_⟩
    simpa using List.all_eq_true.mp hcalm x hx
  exact ⟨hregistered rfl ⟨⟨rfl, rfl⟩, rfl, by decide⟩ (by decide) rfl,
    hregistered rfl ⟨⟨rfl, rfl⟩, rfl, by decide⟩ (by decide) rfl⟩

/-- Both look for the session before either creates it; newest first. -/
private def bothLook : List (Interleaving.Event DatasetAssetRequest Time) :=
  .step 1 1000 :: List.replicate 2 (.step 0 1000) ++ (List.replicate 3 (.step 1 1000) ++
    (List.replicate 4 (.step 0 1000) ++ [.spawn (chunk "/data/1.mp4"), .spawn (chunk "/data/0.mp4")]))

theorem second_chunk_lost :
    let s := afterRegistrations wholeNumbers "internal-dev-token" freshSite bothLook
    Registers wholeNumbers "internal-dev-token" freshSite (chunk "/data/1.mp4")
        (chunkBody "/data/1.mp4") ∧
      s.tasks.map (·.request) = [chunk "/data/0.mp4", chunk "/data/1.mp4"] ∧
      s.tasks[1]?.map (·.prog.point) = some (.finished (fail "internal_error" 500)) ∧
      s.tasks[1]?.map (·.note.stored) = some [] ∧
      s.world.datasetAssets.map (·.path) = ["/data/0.mp4"] :=
  ⟨⟨⟨rfl, rfl⟩, rfl, by decide⟩, rfl, rfl, rfl, rfl⟩

end Rvep.Backend
