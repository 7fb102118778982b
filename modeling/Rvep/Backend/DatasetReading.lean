import Rvep.Backend.AuditReading
import Rvep.Backend.Registration

/-!
# Which registrations the dataset listing shows as they were made

An accepted registration is listed to whoever may read it, as long as the limit
leaves room for it. Its numbers are shown as they were registered, except for a
zero: the listing takes it for an absent value.
-/

namespace Rvep.Backend

open Interleaving Reactive

-- ---------------------------------------------------------------------------
-- Whatever happens after
-- ---------------------------------------------------------------------------

/-- Any calls of any requests bring the database from one state to the other. -/
def Db.Later (db db' : Db) : Prop :=
  Relation.ReflTransGen (fun db db' => ∃ e c, db' = (Call.exec e db c).1) db db'

theorem Query.exec_addsAssets (e : Choice) (db : Db) (q : Query) : db.AddsAssets (q.exec e db).1 := by
  unfold Query.exec
  split
  · exact .refl db
  · cases q with
    | datasetAssetCreate data => exact (grows_datasetAssetCreate e.now db data).toAddsAssets
    | sessionCreate data => exact (grows_sessionCreate e.now db data).toAddsAssets
    | userUpdate | leaseUpdate | leaseCreate | telemetryFrameCreate | permissionDelete =>
      simp only [Query.answer]
      split <;> exact .of_eq rfl rfl
    | permissionUpsert | userCreate =>
      simp only [Query.answer]
      split
      · exact .of_eq rfl rfl
      · split <;> exact .of_eq rfl rfl
    | _ => exact .of_eq rfl rfl

theorem Call.exec_addsAssets (e : Choice) (db : Db) (c : Call) :
    db.AddsAssets (c.exec e db).1 := by
  cases c with
  | query q => exact Query.exec_addsAssets e db q
  | now => exact .refl db
  | transaction tx =>
    rw [Call.exec_transaction]
    split
    · exact .refl db
    · unfold Tx.commit
      split
      next db' result hrun =>
        have hrel := Prog.run_rel Db.AddsAssets.refl Db.AddsAssets.trans Query.exec_addsAssets
          (ExceptT.run tx) (fun _ => ⟨e.now, false⟩) db
        change db.AddsAssets (tx.run e.now db).1 at hrel
        rwa [hrun] at hrel
      next => exact .refl db

theorem Db.Later.addsAssets {db db' : Db} (h : db.Later db') : db.AddsAssets db' := by
  induction h with
  | refl => exact .refl db
  | tail _ hcall ih =>
    obtain ⟨e, c, rfl⟩ := hcall
    exact ih.trans (Call.exec_addsAssets e _ c)

-- ---------------------------------------------------------------------------
-- The listing
-- ---------------------------------------------------------------------------

/-- The vehicle's assets that are as late as `row`, beside `row` itself. -/
def Db.followers (db : Db) (row : DatasetAsset) : Nat :=
  db.datasetAssets.countP fun a =>
    a.vehicleId == row.vehicleId && decide (row.createdAt ≤ a.createdAt) && a.id != row.id

/-- The reader may list the vehicle's assets, and fewer than the limit follow `row`. -/
structure MayListAsset (db : Db) (reader : AuthContext) (v : Vehicle) (row : DatasetAsset)
    (limit : Option String) : Prop where
  permitted : reader.role = .admin ∨ db.HasPermission reader.userId v
  room : ∃ k, parseLimit limit = .ok k ∧ db.followers row < k

def countField (n : Option Nat) : Field := n.elim .null fun n => .number n

/-- The entry has the values of the body. -/
structure Shows (body : DatasetAssetBody) (entry : Fields) : Prop where
  path : entry.lookup "path" = some (.text body.path)
  kind : entry.lookup "kind" = some (.text body.kind.name)
  source : entry.lookup "source" = some (.text body.source.name)
  sizeBytes : entry.lookup "sizeBytes" = some (countField body.sizeBytes)
  durationMs : entry.lookup "durationMs" = some (countField body.durationMs)

/-- The listing's null guard is one on truth: it shows no zero. -/
theorem countOrNull_ne_zero (n : Option Int) : countOrNull n ≠ .number 0 := by
  rintro h
  cases n with
  | none => cases h
  | some n =>
    by_cases hn : n = 0
    · subst hn
      cases h
    · simp [countOrNull, Option.filter, hn] at h

theorem countOrNull_natCast {n : Option Nat} (hn : n ≠ some 0) :
    countOrNull (n.map Int.ofNat) = countField n := by
  cases n with
  | none => rfl
  | some n =>
    have hpos : n ≠ 0 := fun hzero => hn (congrArg some hzero)
    simp [countOrNull, countField, Option.filter, hpos]

section
variable {db : Db} {v : Vehicle} {reader : AuthContext} {choices : Nat → Choice}

theorem alone_latestAssets (key : Option String) (k : Nat) (hok : ∀ i, (choices i).fails = false) :
    ((latestAssets key k).alone choices db).2 =
      okList ((db.assetList key k).map fun (a, session) => assetEntry a session) :=
  congrArg Prod.snd (alone_query_ok _ (hok 0) rfl)

theorem datasets_answer (hv : db.vehicle? v.vehicleId = some v) (hname : v.vehicleId ≠ "")
    (hreader : reader.role = .admin ∨ db.HasPermission reader.userId v) {limit : Option String}
    {k : Nat} (hk : parseLimit limit = .ok k) (hok : ∀ i, (choices i).fails = false) :
    (GetRequest.datasets ⟨some v.vehicleId, limit⟩).answer (some reader) choices db =
      okList ((db.assetList (some v.vehicleId) k).map fun (a, session) => assetEntry a session) := by
  obtain ⟨n, hrun⟩ := listing_permitted hv hname hreader hk hok latestAssets
  exact (congrArg Prod.snd hrun).trans (alone_latestAssets _ k fun i => hok (i + n))

/-- An asset that fewer than the limit follow is among the listed. -/
theorem mem_assetList {row : DatasetAsset} {k : Nat} (hrow : row ∈ db.datasetAssets)
    (honce : db.datasetAssets.countP (·.id == row.id) = 1) (hroom : db.followers row < k) :
    ∃ session, (row, session) ∈ db.assetList (some row.vehicleId) k := by
  refine ⟨_, List.mem_map_of_mem (Ranking.mem_top (List.mem_filter.mpr ⟨hrow, by simp⟩) ?_)⟩
  rw [List.countP_filter, List.countP_eq_countP_filter_add _ _ (·.id == row.id), List.countP_filter,
    List.countP_filter]
  have hself : db.datasetAssets.countP (fun a => (decide (row.createdAt ≤ a.createdAt) &&
      (some row.vehicleId).all fun id => a.vehicleId == id) && a.id == row.id) ≤ 1 := by
    rw [← honce]
    refine List.countP_mono_left fun a _ ha => ?_
    simp only [Bool.and_eq_true] at ha
    exact ha.2
  have hothers : db.datasetAssets.countP (fun a => (decide (row.createdAt ≤ a.createdAt) &&
      (some row.vehicleId).all fun id => a.vehicleId == id) && !(a.id == row.id)) ≤
        db.followers row := by
    refine List.countP_mono_left fun a _ ha => ?_
    simpa [and_comm] using ha
  omega

/-- A listed entry shows no zero. -/
theorem shows_nonzero {body : DatasetAssetBody} {a : DatasetAsset} {session : Option Session}
    (h : Shows body (assetEntry a session)) : body.sizeBytes ≠ some 0 ∧ body.durationMs ≠ some 0 := by
  have hsize : countOrNull a.sizeBytes = countField body.sizeBytes := Option.some.inj h.sizeBytes
  have hduration : countOrNull a.durationMs = countField body.durationMs :=
    Option.some.inj h.durationMs
  constructor
  · intro hzero
    rw [hzero] at hsize
    exact countOrNull_ne_zero _ hsize
  · intro hzero
    rw [hzero] at hduration
    exact countOrNull_ne_zero _ hduration

theorem shows_assetEntry {body : DatasetAssetBody} {v : Vehicle} {s : Session} {row : DatasetAsset}
    (hrow : row = (body.data v s).row row.id row.createdAt) (hsize : body.sizeBytes ≠ some 0)
    (hduration : body.durationMs ≠ some 0) (session : Option Session) :
    Shows body (assetEntry row session) := by
  rw [hrow]
  exact ⟨rfl, rfl, rfl, congrArg some (countOrNull_natCast hsize),
    congrArg some (countOrNull_natCast hduration)⟩

end

-- ---------------------------------------------------------------------------
-- Runs
-- ---------------------------------------------------------------------------

/-- The registration is answered with 200, and `row` is what it has stored. -/
structure Accepted (fmt : NumberFormat) (INTERNAL_TOKEN : String)
    (t : Task DatasetAssetRequest Call Call.Reply Response Ledger) (body : DatasetAssetBody)
    (row : DatasetAsset) : Prop where
  submits : Submits fmt INTERNAL_TOKEN t.request body
  answered : ∃ r, t.prog.point = .finished r ∧ r.status = 200
  stored : row ∈ t.note.stored

section
variable {fmt : NumberFormat} {INTERNAL_TOKEN : String} {start : Db}
  {es : List (Interleaving.Event DatasetAssetRequest Time)} {i : Nat}
  {t : Task DatasetAssetRequest Call Call.Reply Response Ledger} {body : DatasetAssetBody}
  {row : DatasetAsset}

theorem Accepted.storesOnce
    (ht : (afterRegistrations fmt INTERNAL_TOKEN start es).tasks[i]? = some t)
    (h : Accepted fmt INTERNAL_TOKEN t body row) :
    ∃ r vehicle session, StoresOnce body t.note r
      (afterRegistrations fmt INTERNAL_TOKEN start es).world vehicle session row := by
  obtain ⟨r, hr, hstatus⟩ := h.answered
  cases settled_of_finished ht hr with
  | refused _ hne _ => exact absurd hstatus hne
  | @stored body' vehicle session asset hsubmits _ hstores =>
    obtain rfl : body' = body := Except.ok.inj (hsubmits.accepted.symm.trans h.submits.accepted)
    obtain rfl : row = asset := List.mem_singleton.mp (hstores.stored ▸ h.stored)
    exact ⟨r, vehicle, session, hstores⟩

theorem registration_listed_iff
    (ht : (afterRegistrations fmt INTERNAL_TOKEN start es).tasks[i]? = some t)
    (haccepted : Accepted fmt INTERNAL_TOKEN t body row) {db : Db}
    (hlater : (afterRegistrations fmt INTERNAL_TOKEN start es).world.Later db) {v : Vehicle}
    (hv : db.vehicle? body.vehicleId = some v) {reader : AuthContext} {limit : Option String}
    (hread : MayListAsset db reader v row limit) {choices : Nat → Choice}
    (hok : ∀ i, (choices i).fails = false) :
    (∃ entry ∈ ((GetRequest.datasets ⟨some body.vehicleId, limit⟩).answer (some reader) choices
        db).items, Shows body entry) ↔
      body.sizeBytes ≠ some 0 ∧ body.durationMs ≠ some 0 := by
  obtain ⟨r, vehicle, session, hstores⟩ := haccepted.storesOnce ht
  have hadds := hlater.addsAssets
  obtain ⟨hmem, honce⟩ := hadds.once hstores.mem hstores.once
  obtain ⟨k, hk, hroom⟩ := hread.room
  have hname : v.vehicleId = body.vehicleId := (vehicle?_mem hv).2
  have hempty : v.vehicleId ≠ "" := by
    obtain ⟨fields, -, hschema⟩ := validateBody_ok haccepted.submits.accepted
    rw [hname]
    exact vehicleId_ne_empty hschema
  have hkey : row.vehicleId = v.vehicleId := by
    have hvehicle := (vehicle?_mem hstores.vehicle).2
    rw [hstores.row, hname, ← hvehicle]
    rfl
  rw [← hname] at hv ⊢
  rw [datasets_answer hv hempty hread.permitted hk hok]
  constructor
  · rintro ⟨entry, hentry, hshows⟩
    obtain ⟨⟨a, session⟩, -, rfl⟩ := List.mem_map.mp hentry
    exact shows_nonzero hshows
  · rintro ⟨hsize, hduration⟩
    obtain ⟨session, hlisted⟩ := mem_assetList hmem honce hroom
    rw [hkey] at hlisted
    exact ⟨assetEntry row session, List.mem_map.mpr ⟨_, hlisted, rfl⟩,
      shows_assetEntry hstores.row hsize hduration session⟩

end

private def tram : Vehicle := ⟨"v1", "tram-001", "Tram 1", .custom, .online⟩

private def tramDepot : Db where
  users := []
  vehicles := [tram]
  permissions := []
  sessions := []
  leases := []
  events := []

private def logFile (sizeBytes : ℚ) : DatasetAssetRequest where
  presented := some "internal-dev-token"
  body := some (.obj [("vehicleId", .str "tram-001"), ("sessionId", .str "run-1"), ("kind", .str "LOG"),
    ("source", .str "ORIN_LOCAL"), ("path", .str "/data/run.log"), ("sizeBytes", .num sizeBytes)])

private def logBody (sizeBytes : Nat) : DatasetAssetBody :=
  ⟨"tram-001", "run-1", none, .log, .orinLocal, "/data/run.log", some sizeBytes, none, none, none⟩

private def logSession : Session := ⟨"0", "run-1", "v1", "0", 1, .active, 2000, .dataset⟩

private def logRow (sizeBytes : Nat) : DatasetAsset :=
  ((logBody sizeBytes).data tram logSession).row "0" 2000

private def inspector : AuthContext := ⟨"inspector", .admin⟩

private def at2s : Choice := ⟨2000, false⟩

/-- The file is registered, alone. -/
private abbrev afterLog (sizeBytes : ℚ) : RegistrationPool :=
  afterRegistrations wholeNumbers "internal-dev-token" tramDepot
    (List.replicate 6 (.step 0 2000) ++ [.spawn (logFile sizeBytes)])

private theorem log_accepted {sizeBytes : Nat}
    {t : Task DatasetAssetRequest Call Call.Reply Response Ledger}
    (hbody : validateBody (logFile sizeBytes).body (datasetAssetSchema wholeNumbers) =
      .ok (logBody sizeBytes))
    (ht : (t.request, t.prog.point, t.note.stored) = (logFile sizeBytes,
      .finished (registered (logRow sizeBytes) logSession), [logRow sizeBytes])) :
    Accepted wholeNumbers "internal-dev-token" t (logBody sizeBytes) (logRow sizeBytes) := by
  obtain ⟨hrequest, hrest⟩ := Prod.mk.inj ht
  obtain ⟨hpoint, hstored⟩ := Prod.mk.inj hrest
  refine ⟨?_, ⟨_, hpoint, rfl⟩, by simp [hstored]⟩
  rw [hrequest]
  exact ⟨rfl, hbody⟩

theorem log_listed : ∃ entry ∈ ((GetRequest.datasets ⟨some "tram-001", none⟩).answer (some inspector)
    (fun _ => at2s) (afterLog 4096).world).items, Shows (logBody 4096) entry := by
  obtain ⟨t, ht, hfacts⟩ := Option.map_eq_some_iff.mp (show
    (afterLog 4096).tasks[0]?.map (fun t => (t.request, t.prog.point, t.note.stored)) =
      some (logFile 4096, .finished (registered (logRow 4096) logSession), [logRow 4096]) from rfl)
  have hread : MayListAsset (afterLog 4096).world inspector tram (logRow 4096) none :=
    ⟨.inl rfl, 100, rfl, by decide⟩
  exact (registration_listed_iff ht (log_accepted rfl hfacts) .refl rfl hread fun _ => rfl).mpr
    ⟨by decide, by decide⟩

/-- An empty file is listed as one of unknown size. -/
theorem empty_log_misread :
    (∃ t, (afterLog 0).tasks[0]? = some t ∧
        Accepted wholeNumbers "internal-dev-token" t (logBody 0) (logRow 0)) ∧
      MayListAsset (afterLog 0).world inspector tram (logRow 0) none ∧
      ¬ ∃ entry ∈ ((GetRequest.datasets ⟨some "tram-001", none⟩).answer (some inspector)
        (fun _ => at2s) (afterLog 0).world).items, Shows (logBody 0) entry := by
  obtain ⟨t, ht, hfacts⟩ := Option.map_eq_some_iff.mp (show
    (afterLog 0).tasks[0]?.map (fun t => (t.request, t.prog.point, t.note.stored)) =
      some (logFile 0, .finished (registered (logRow 0) logSession), [logRow 0]) from rfl)
  have hitems : ((GetRequest.datasets ⟨some "tram-001", none⟩).answer (some inspector) (fun _ => at2s)
      (afterLog 0).world).items.map (·.lookup "sizeBytes") = [some .null] := rfl
  refine ⟨⟨t, ht, log_accepted rfl hfacts⟩, ⟨.inl rfl, 100, rfl, by decide⟩, ?_⟩
  rintro ⟨entry, hentry, hshows⟩
  have hsize := List.mem_map_of_mem (f := fun entry : Fields => entry.lookup "sizeBytes") hentry
  rw [hitems, List.mem_singleton, hshows.sizeBytes] at hsize
  cases hsize

end Rvep.Backend
