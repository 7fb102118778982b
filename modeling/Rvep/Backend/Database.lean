import Mathlib.Data.List.MinMax
import Mathlib.Algebra.Order.Ring.Int
import Rvep.Lib.Interleaving
import Rvep.Lib.Ranking
import Rvep.Shared.Json

/-!
# The database behind the API

The tables of `apps/backend/prisma/schema.prisma` that the route handlers
read and write, and the Prisma calls they make. Each call is one atomic step
on the database and may fail; a claim's transaction is a program of such calls
that runs as one.
-/

namespace Rvep.Backend

open Interleaving

abbrev Time := Int

-- ---------------------------------------------------------------------------
-- Rows
-- ---------------------------------------------------------------------------

inductive Role | admin | operator | viewer
  deriving DecidableEq, Repr

inductive SessionPurpose | control | monitor | dataset | raw
  deriving DecidableEq, Repr

inductive SessionStatus | active | closed | fatal
  deriving DecidableEq, Repr

inductive LeaseStatus | active | locked | reconnectedLocked | released | revoked
  deriving DecidableEq, Repr

structure User where
  id : String
  email : String
  passwordHash : String
  role : Role
  failedLoginCount : Int
  lockedUntil : Option Time
  refreshTokenVersion : Int
  deriving DecidableEq, Repr

inductive VehicleType | quadruped | wheeled | wheeledQuadruped | rcCar | drone | custom
  deriving DecidableEq, Repr

inductive VehicleStatus | online | offline | safeMode | disconnected | unknown
  deriving DecidableEq, Repr

structure Vehicle where
  id : String
  vehicleId : String
  displayName : String
  vehicleType : VehicleType
  status : VehicleStatus
  deriving DecidableEq, Repr

structure VehiclePermission where
  userId : String
  vehicleId : String
  role : Role
  id : Nat
  grantedBy : Option String
  createdAt : Time
  deriving DecidableEq, Repr

structure Session where
  id : String
  sessionId : String
  vehicleId : String
  userId : String
  connectionEpoch : Int
  status : SessionStatus
  createdAt : Time
  purpose : SessionPurpose
  deriving DecidableEq, Repr

structure LeaseData where
  vehicleId : String
  operatorId : String
  sessionId : String
  connectionEpoch : Int
  status : LeaseStatus
  expiresAt : Time
  deriving DecidableEq, Repr

structure LeaseRow extends LeaseData where
  createdAt : Time
  releasedAt : Option Time
  revokedAt : Option Time
  deriving DecidableEq, Repr

/-- A lease as it is read; its id is its place in the table. -/
structure ControlLease extends LeaseRow where
  id : Nat
  deriving DecidableEq, Repr

/-- A frame names its vehicle by `Vehicle.vehicleId`. -/
structure TelemetryFrame where
  vehicleId : String
  sessionId : String
  ts : Time
  gps : Option Json
  battery : Option Json
  network : Option Json
  mode : Option String
  monotonicNs : Option Int := none
  connectionEpoch : Int := 0
  imu : Option Json := none

/-- A value of a JSON record; a date stays an instant. -/
inductive Field
  | null
  | text (s : String)
  | texts (items : List String)
  | number (n : Int)
  | decimal (q : ℚ)
  | flag (b : Bool)
  | instant (t : Time)
  | json (value : Json)
  deriving DecidableEq, Repr

abbrev Fields := List (String × Field)

structure EventData where
  eventName : String
  vehicleId : Option String
  sessionId : Option String
  userId : Option String
  payload : Option Fields
  deriving DecidableEq, Repr

structure EventRow extends EventData where
  id : Nat
  ts : Time
  deriving DecidableEq, Repr

inductive DatasetAssetKind | raw | annotated | egressPerTrack | egressComposite | metadata | log
  deriving DecidableEq, Repr

inductive DatasetAssetSource | orinLocal | orinRsync | livekitEgress | manualUpload
  deriving DecidableEq, Repr

inductive RetentionTier | ephemeral | rolling30d | rolling90d | permanent
  deriving DecidableEq, Repr

/-- An asset names its vehicle by `Vehicle.vehicleId`, and its session by `Session.id`. -/
structure DatasetAsset where
  id : String
  vehicleId : String
  sessionId : String
  cameraId : Option String
  kind : DatasetAssetKind
  source : DatasetAssetSource
  path : String
  sizeBytes : Option Int
  durationMs : Option Int
  sha256 : Option String
  createdAt : Time
  syncedAt : Option Time
  retentionTier : RetentionTier
  metadata : Option Json
  deriving DecidableEq, Repr

structure Db where
  users : List User
  vehicles : List Vehicle
  permissions : List VehiclePermission
  sessions : List Session
  leases : List LeaseRow
  events : List EventRow
  telemetryFrames : List TelemetryFrame := []
  datasetAssets : List DatasetAsset := []

-- ---------------------------------------------------------------------------
-- Calls
-- ---------------------------------------------------------------------------

/-- Why a call throws: the database cannot be reached, an update finds no
record (P2025), a reference dangles (P2003), a unique key is taken (P2002), a
value fits no column, or a transaction is aborted (P2034). -/
inductive DbError
  | unavailable | recordNotFound | foreignKey | serialization | uniqueConstraint | invalidValue
  deriving DecidableEq, Repr

/-- Fields to set; an absent one is left as it is. -/
structure UserUpdate where
  failedLoginCount : Option Int := none
  lockedUntil : Option (Option Time) := none
  refreshTokenVersionIncrement : Int := 0
  deriving DecidableEq, Repr

structure LeaseUpdate where
  status : LeaseStatus
  releasedAt : Option Time := none
  revokedAt : Option Time := none
  deriving DecidableEq, Repr

structure UserData where
  email : String
  passwordHash : String
  role : Role
  deriving DecidableEq, Repr

structure SessionData where
  sessionId : String
  vehicleId : String
  userId : String
  purpose : SessionPurpose
  status : SessionStatus
  deriving DecidableEq, Repr

structure DatasetAssetData where
  vehicleId : String
  sessionId : String
  cameraId : Option String
  kind : DatasetAssetKind
  source : DatasetAssetSource
  path : String
  sizeBytes : Option Int
  durationMs : Option Int
  sha256 : Option String
  retentionTier : RetentionTier
  metadata : Option Json
  deriving DecidableEq, Repr

inductive Query
  | userFindUnique (id : String)
  | userFindByEmail (email : String)
  | userUpdate (id : String) (data : UserUpdate)
  | vehicleFindUnique (vehicleId : String)
  | permissionFindUnique (userId vehicleId : String)
  | sessionFindUnique (sessionId : String)
  /-- The latest ACTIVE session of a user on a vehicle. -/
  | sessionFindActive (vehicleId userId : String)
  /-- The latest ACTIVE lease on a vehicle, if asked for one that expires after `expiresAt`. -/
  | leaseFindActive (vehicleId : String) (expiresAfter : Option Time)
  /-- An ACTIVE lease on a vehicle that expires after `expiresAfter`, in no order. -/
  | leaseFindAny (vehicleId : String) (expiresAfter : Time)
  /-- The latest of those, with the operator its foreign key names. -/
  | leaseFindOperator (vehicleId : String) (expiresAfter : Time)
  | leaseUpdate (id : Nat) (data : LeaseUpdate)
  | leaseCreate (data : LeaseData)
  /-- `pg_advisory_xact_lock`. -/
  | advisoryLock (key : String)
  | eventLogCreate (data : EventData)
  | telemetryFrameCreate (data : TelemetryFrame)
  /-- The latest frame of a vehicle. -/
  | telemetryFindLatest (vehicleId : String)
  /-- The vehicles, or those a user has a permission on, by `vehicleId`. -/
  | vehicleFindMany (permittedTo : Option String)
  /-- The latest events, or those stored under `vehicleId`. -/
  | eventLogFindMany (vehicleId : Option String) (take : Nat)
  /-- The latest assets, or those of a vehicle, with the session each is from. -/
  | datasetAssetFindMany (vehicleId : Option String) (take : Nat)
  /-- The permissions on a vehicle, the oldest first. -/
  | permissionFindByVehicle (vehicleId : String)
  /-- The permissions of a user, in no order. -/
  | permissionFindByUser (userId : String)
  | permissionUpsert (userId vehicleId : String) (role : Role) (grantedBy : String)
  | permissionDelete (id : Nat)
  | userCreate (data : UserData)
  | sessionCreate (data : SessionData)
  | datasetAssetCreate (data : DatasetAssetData)

@[reducible] def Query.Reply : Query → Type
  | userFindUnique _ => Option User
  | userFindByEmail _ => Option User
  | userUpdate _ _ => User
  | vehicleFindUnique _ => Option Vehicle
  | permissionFindUnique _ _ => Option VehiclePermission
  | sessionFindUnique _ => Option Session
  | sessionFindActive _ _ => Option Session
  | leaseFindActive _ _ => Option ControlLease
  | leaseFindAny _ _ => Option ControlLease
  | leaseFindOperator _ _ => Option (ControlLease × Option User)
  | leaseUpdate _ _ => Unit
  | leaseCreate _ => ControlLease
  | advisoryLock _ => Unit
  | eventLogCreate _ => Unit
  | telemetryFrameCreate _ => Unit
  | telemetryFindLatest _ => Option TelemetryFrame
  | vehicleFindMany _ => List Vehicle
  | eventLogFindMany _ _ => List EventRow
  | datasetAssetFindMany _ _ => List (DatasetAsset × Option Session)
  | permissionFindByVehicle _ => List VehiclePermission
  | permissionFindByUser _ => List VehiclePermission
  | permissionUpsert _ _ _ _ => VehiclePermission
  | permissionDelete _ => Unit
  | userCreate _ => User
  | sessionCreate _ => Session
  | datasetAssetCreate _ => DatasetAsset

/-- The database's clock and whether it can be reached. -/
structure Choice where
  now : Time
  fails : Bool
  deriving DecidableEq, Repr

namespace Db

-- the computable order, whatever else is imported
local instance : Preorder Time := Int.instLinearOrder.toPreorder
local instance : LinearOrder Time := Int.instLinearOrder

def user? (db : Db) (id : String) : Option User := db.users.find? (·.id == id)

def vehicle? (db : Db) (vehicleId : String) : Option Vehicle :=
  db.vehicles.find? (·.vehicleId == vehicleId)

def permission? (db : Db) (userId vehicleId : String) : Option VehiclePermission :=
  db.permissions.find? fun p => p.userId == userId && p.vehicleId == vehicleId

def session? (db : Db) (sessionId : String) : Option Session :=
  db.sessions.find? (·.sessionId == sessionId)

/-- `findFirst` by `createdAt` descending; the database leaves ties open, here
the older row wins them. -/
def activeSession? (db : Db) (vehicleId userId : String) : Option Session :=
  (db.sessions.filter fun s =>
    s.vehicleId == vehicleId && s.userId == userId && s.status == .active).argmax (·.createdAt)

def readLeases (db : Db) : List ControlLease := db.leases.zipIdx.map fun (row, id) => ⟨row, id⟩

def activeLease? (db : Db) (vehicleId : String) (expiresAfter : Option Time) : Option ControlLease :=
  (db.readLeases.filter fun l =>
    l.vehicleId == vehicleId && l.status == .active &&
      expiresAfter.all fun t => decide (t < l.expiresAt)).argmax (·.createdAt)

theorem readLeases_rows (db : Db) : db.readLeases.map (·.toLeaseRow) = db.leases := by
  rw [readLeases, List.map_map]
  exact List.zipIdx_map_fst 0 db.leases

/-- Which lease is current does not depend on the places of the leases. -/
theorem activeLease?_toLeaseRow (db : Db) (vehicleId : String) (t : Option Time) :
    (db.activeLease? vehicleId t).map (·.toLeaseRow) =
      (db.leases.filter fun l => l.vehicleId == vehicleId && l.status == .active &&
        t.all fun t => decide (t < l.expiresAt)).argmax (·.createdAt) := by
  rw [← readLeases_rows db, List.filter_map, Ranking.argmax_map]
  rfl

/-- `findFirst` in no order; the database leaves the choice open, here it is the oldest row. -/
def anyLease? (db : Db) (vehicleId : String) (expiresAfter : Time) : Option ControlLease :=
  db.readLeases.find? fun l =>
    l.vehicleId == vehicleId && l.status == .active && decide (expiresAfter < l.expiresAt)

def latestTelemetry? (db : Db) (vehicleId : String) : Option TelemetryFrame :=
  (db.telemetryFrames.filter (·.vehicleId == vehicleId)).argmax (·.ts)

/-- Ids grow with every row. -/
def nextId (ids : List Nat) : Nat := ids.foldl max 0 + 1

def nextEventId (db : Db) : Nat := nextId (db.events.map (·.id))

def nextPermissionId (db : Db) : Nat := nextId (db.permissions.map (·.id))

def vehicleList (db : Db) (permittedTo : Option String) : List Vehicle :=
  (db.vehicles.filter fun v => permittedTo.all fun userId => (db.permissions.any fun p =>
    p.userId == userId && p.vehicleId == v.id)).insertionSort (·.vehicleId ≤ ·.vehicleId)

/-- The oldest row comes first; the database leaves ties open. -/
def permissionsOn (db : Db) (vehicleId : String) : List VehiclePermission :=
  (db.permissions.filter (·.vehicleId == vehicleId)).insertionSort (·.createdAt ≤ ·.createdAt)

/-- The latest rows come first; the database leaves ties open, here the older row does. -/
def eventList (db : Db) (vehicleId : Option String) (take : Nat) : List EventRow :=
  Ranking.top (·.ts) take (db.events.filter fun e => vehicleId.all fun id => e.vehicleId == some id)

def assetList (db : Db) (vehicleId : Option String) (take : Nat) :
    List (DatasetAsset × Option Session) :=
  (Ranking.top (·.createdAt) take
    (db.datasetAssets.filter fun a => vehicleId.all fun id => a.vehicleId == id)).map
      fun a => (a, db.sessions.find? (·.id == a.sessionId))

def references (db : Db) (data : LeaseData) : Bool :=
  db.vehicles.any (·.id == data.vehicleId) && db.users.any (·.id == data.operatorId) &&
    db.sessions.any (·.id == data.sessionId)

/-- `uuid()`: an id that no row has. -/
def newId (ids : List String) : String :=
  String.ofList (List.replicate (nextId (ids.map (·.length))) '0')

end Db

-- ---------------------------------------------------------------------------
-- What a column holds
-- ---------------------------------------------------------------------------

/-- A text column holds no NUL. -/
def isText (s : String) : Bool := !s.toList.contains (Char.ofNat 0)

def isBigInt (n : Int) : Bool := decide (-2 ^ 63 ≤ n) && decide (n < 2 ^ 63)

mutual

/-- A JSON column holds no NUL, in a key or in a string. -/
def Json.isStorable : Json → Bool
  | .null | .bool _ | .num _ => true
  | .str s => isText s
  | .arr items => itemsStorable items
  | .obj fields => fieldsStorable fields

def Json.itemsStorable : List Json → Bool
  | [] => true
  | v :: items => Json.isStorable v && itemsStorable items

def Json.fieldsStorable : List (String × Json) → Bool
  | [] => true
  | (key, v) :: fields => isText key && Json.isStorable v && fieldsStorable fields

end

/-- The foreign keys are left to the rows they must match. -/
def DatasetAssetData.isStorable (data : DatasetAssetData) : Bool :=
  data.cameraId.all isText && isText data.path && data.sizeBytes.all isBigInt &&
    data.durationMs.all isBigInt && data.sha256.all isText && data.metadata.all Json.isStorable

/-- The row of new data. -/
def DatasetAssetData.row (data : DatasetAssetData) (id : String) (now : Time) : DatasetAsset where
  id := id
  vehicleId := data.vehicleId
  sessionId := data.sessionId
  cameraId := data.cameraId
  kind := data.kind
  source := data.source
  path := data.path
  sizeBytes := data.sizeBytes
  durationMs := data.durationMs
  sha256 := data.sha256
  createdAt := now
  syncedAt := none
  retentionTier := data.retentionTier
  metadata := data.metadata

def User.update (data : UserUpdate) (u : User) : User :=
  { u with
    failedLoginCount := data.failedLoginCount.getD u.failedLoginCount
    lockedUntil := data.lockedUntil.getD u.lockedUntil
    refreshTokenVersion := u.refreshTokenVersion + data.refreshTokenVersionIncrement }

def LeaseRow.update (data : LeaseUpdate) (l : LeaseRow) : LeaseRow :=
  { l with
    status := data.status
    releasedAt := data.releasedAt.or l.releasedAt
    revokedAt := data.revokedAt.or l.revokedAt }

namespace Query

def answer (now : Time) (db : Db) : (q : Query) → Db × Except DbError q.Reply
  | userFindUnique id => (db, .ok (db.user? id))
  | userFindByEmail email => (db, .ok (db.users.find? (·.email == email)))
  | userUpdate id data =>
    match db.user? id with
    | none => (db, .error .recordNotFound)
    | some u =>
      ({ db with users := db.users.map fun v => if v.id == id then v.update data else v },
        .ok (u.update data))
  | vehicleFindUnique vehicleId => (db, .ok (db.vehicle? vehicleId))
  | permissionFindUnique userId vehicleId => (db, .ok (db.permission? userId vehicleId))
  | sessionFindUnique sessionId => (db, .ok (db.session? sessionId))
  | sessionFindActive vehicleId userId => (db, .ok (db.activeSession? vehicleId userId))
  | leaseFindActive vehicleId expiresAfter => (db, .ok (db.activeLease? vehicleId expiresAfter))
  | leaseFindAny vehicleId expiresAfter => (db, .ok (db.anyLease? vehicleId expiresAfter))
  | leaseFindOperator vehicleId expiresAfter =>
    (db, .ok ((db.activeLease? vehicleId (some expiresAfter)).map fun l => (l, db.user? l.operatorId)))
  | leaseUpdate id data =>
    if id < db.leases.length then
      ({ db with leases := db.leases.modify id (·.update data) }, .ok ())
    else (db, .error .recordNotFound)
  | leaseCreate data =>
    if db.references data then
      let row : LeaseRow := { data with createdAt := now, releasedAt := none, revokedAt := none }
      ({ db with leases := db.leases ++ [row] }, .ok ⟨row, db.leases.length⟩)
    else (db, .error .foreignKey)
  | advisoryLock _ => (db, .ok ())
  | eventLogCreate data =>
    ({ db with events := db.events ++ [{ data with id := db.nextEventId, ts := now }] }, .ok ())
  | telemetryFrameCreate data =>
    if db.vehicles.any (·.vehicleId == data.vehicleId) then
      ({ db with telemetryFrames := db.telemetryFrames ++ [data] }, .ok ())
    else (db, .error .foreignKey)
  | telemetryFindLatest vehicleId => (db, .ok (db.latestTelemetry? vehicleId))
  | vehicleFindMany permittedTo => (db, .ok (db.vehicleList permittedTo))
  | eventLogFindMany vehicleId take => (db, .ok (db.eventList vehicleId take))
  | datasetAssetFindMany vehicleId take => (db, .ok (db.assetList vehicleId take))
  | permissionFindByVehicle vehicleId => (db, .ok (db.permissionsOn vehicleId))
  | permissionFindByUser userId => (db, .ok (db.permissions.filter (·.userId == userId)))
  | permissionUpsert userId vehicleId role grantedBy =>
    match db.permission? userId vehicleId with
    | some permission =>
      let permission := { permission with role := role, grantedBy := some grantedBy }
      ({ db with permissions := db.permissions.map fun p =>
          if p.userId == userId && p.vehicleId == vehicleId then permission else p }, .ok permission)
    | none =>
      if db.users.any (·.id == userId) && db.vehicles.any (·.id == vehicleId) then
        let permission := ⟨userId, vehicleId, role, db.nextPermissionId, some grantedBy, now⟩
        ({ db with permissions := db.permissions ++ [permission] }, .ok permission)
      else (db, .error .foreignKey)
  | permissionDelete id =>
    if db.permissions.any (·.id == id) then
      ({ db with permissions := db.permissions.filter (·.id != id) }, .ok ())
    else (db, .error .recordNotFound)
  | userCreate data =>
    if !isText data.email || !isText data.passwordHash then (db, .error .invalidValue)
    else if db.users.any (·.email == data.email) then (db, .error .uniqueConstraint)
    else
      let user : User :=
        ⟨Db.newId (db.users.map (·.id)), data.email, data.passwordHash, data.role, 0, none, 0⟩
      ({ db with users := db.users ++ [user] }, .ok user)
  | sessionCreate data =>
    if !isText data.sessionId then (db, .error .invalidValue)
    else if db.sessions.any (·.sessionId == data.sessionId) then (db, .error .uniqueConstraint)
    else if db.vehicles.any (·.id == data.vehicleId) && db.users.any (·.id == data.userId) then
      let session : Session :=
        ⟨Db.newId (db.sessions.map (·.id)), data.sessionId, data.vehicleId, data.userId, 1,
          data.status, now, data.purpose⟩
      ({ db with sessions := db.sessions ++ [session] }, .ok session)
    else (db, .error .foreignKey)
  | datasetAssetCreate data =>
    if !data.isStorable then (db, .error .invalidValue)
    else if db.vehicles.any (·.vehicleId == data.vehicleId) &&
        db.sessions.any (·.id == data.sessionId) then
      let asset := data.row (Db.newId (db.datasetAssets.map (·.id))) now
      ({ db with datasetAssets := db.datasetAssets ++ [asset] }, .ok asset)
    else (db, .error .foreignKey)

def exec (e : Choice) (db : Db) (q : Query) : Db × Except DbError q.Reply :=
  if e.fails then (db, .error .unavailable) else q.answer e.now db

end Query

/-- A program of Prisma calls, thrown out of by a failing one. -/
abbrev Tx (α : Type) := ExceptT DbError (Prog Query fun q => Except DbError q.Reply) α

def Tx.query (q : Query) : Tx q.Reply := ExceptT.mk (.call q .done)

def Tx.run (now : Time) (tx : Tx α) (db : Db) : Db × Except DbError α :=
  Prog.run Query.exec (ExceptT.run tx) (fun _ => ⟨now, false⟩) db

/-- Run a transaction as one step: all of it, or nothing. -/
def Tx.commit (now : Time) (tx : Tx α) (db : Db) : Db × Except DbError α :=
  match tx.run now db with
  | (db', .ok a) => (db', .ok a)
  | (_, .error e) => (db, .error e)

inductive ClaimResult
  | denied (currentOperatorId : String) (currentSessionId : String)
  | created (lease : ControlLease)
  deriving DecidableEq, Repr

inductive Call
  | query (q : Query)
  | transaction (tx : Tx ClaimResult)
  | now

@[reducible] def Call.Reply : Call → Type
  | query q => Except DbError q.Reply
  | transaction _ => Except DbError ClaimResult
  | now => Time

def Call.exec (e : Choice) (db : Db) : (c : Call) → Db × c.Reply
  | query q => q.exec e db
  | transaction tx => if e.fails then (db, .error .unavailable) else tx.commit e.now db
  | now => (db, e.now)

-- ---------------------------------------------------------------------------
-- Laws
-- ---------------------------------------------------------------------------

/-- A call that is answered is answered once. -/
theorem outcome_ok {x : Db × Except DbError α} {db db' : Db} {v v' : α} (h : x = (db, .ok v))
    (h' : x = (db', .ok v')) : db = db' ∧ v = v' := by
  obtain ⟨hdb, hr⟩ := Prod.mk.inj (h.symm.trans h')
  exact ⟨hdb, Except.ok.inj hr⟩

theorem outcome_error {x : Db × Except DbError α} {db db' : Db} {err : DbError} {v : α}
    (h : x = (db, .error err)) (h' : x = (db', .ok v)) : False := by
  cases (Prod.mk.inj (h.symm.trans h')).2

def Query.isRead : Query → Bool
  | userUpdate _ _ | leaseUpdate _ _ | leaseCreate _ | eventLogCreate _ => false
  | telemetryFrameCreate _ => false
  | permissionUpsert _ _ _ _ | permissionDelete _ => false
  | userCreate _ | sessionCreate _ | datasetAssetCreate _ => false
  | _ => true

theorem Query.exec_isRead {q : Query} (h : q.isRead = true) (e : Choice) (db : Db) :
    (q.exec e db).1 = db := by
  unfold Query.exec
  split
  · rfl
  · cases q with
    | userUpdate | leaseUpdate | leaseCreate | eventLogCreate | telemetryFrameCreate
    | permissionUpsert | permissionDelete | userCreate | sessionCreate | datasetAssetCreate =>
      simp [isRead] at h
    | _ => rfl

theorem Query.answer_isRead {q : Query} (h : q.isRead = true) (db : Db) :
    ∃ v, ∀ now, q.answer now db = (db, .ok v) := by
  cases q with
  | userUpdate | leaseUpdate | leaseCreate | eventLogCreate | telemetryFrameCreate
  | permissionUpsert | permissionDelete | userCreate | sessionCreate | datasetAssetCreate =>
    simp [isRead] at h
  | _ => exact ⟨_, fun _ => rfl⟩

theorem Db.le_foldl_max (ids : List Nat) (b : Nat) :
    b ≤ ids.foldl max b ∧ ∀ n ∈ ids, n ≤ ids.foldl max b := by
  induction ids generalizing b with
  | nil => simp
  | cons m ids ih =>
    obtain ⟨hb, hids⟩ := ih (max b m)
    simp only [List.foldl_cons, List.mem_cons]
    refine ⟨(Nat.le_max_left b m).trans hb, ?_⟩
    rintro n (rfl | hn)
    · exact (Nat.le_max_right b n).trans hb
    · exact hids n hn

/-- No row has the id of the next one. -/
theorem Db.newId_notMem (ids : List String) : newId ids ∉ ids := by
  intro h
  have hlength : (newId ids).length = nextId (ids.map (·.length)) := by
    simp [newId]
  have hle := (Db.le_foldl_max (ids.map (·.length)) 0).2 _ (List.mem_map_of_mem h)
  rw [hlength, nextId] at hle
  exact Nat.not_succ_le_self _ hle

/-- The call reads, or writes to the audit log. -/
def Call.isQuiet : Call → Bool
  | query (.eventLogCreate _) => true
  | query q => q.isRead
  | transaction _ => false
  | now => true

theorem isQuiet_read {q : Query} (h : q.isRead = true) : (Call.query q).isQuiet = true := by
  cases q with
  | eventLogCreate => rfl
  | _ => exact h

theorem Call.exec_isQuiet {c : Call} (h : c.isQuiet = true) (e : Choice) (db : Db) :
    ∃ events, (c.exec e db).1 = { db with events := events } := by
  cases c with
  | transaction tx => simp [isQuiet] at h
  | now => exact ⟨db.events, rfl⟩
  | query q =>
    by_cases hq : q.isRead = true
    · exact ⟨db.events, Query.exec_isRead hq e db⟩
    · cases q with
      | eventLogCreate data =>
        simp only [Call.exec, Query.exec]
        split
        · exact ⟨db.events, rfl⟩
        · exact ⟨_, rfl⟩
      | _ => exact absurd h hq

/-- A read has one answer. -/
theorem Query.value_eq {q : Query} {db : Db} {v v' : q.Reply}
    (h : ∀ now, q.answer now db = (db, .ok v)) (h' : q.answer 0 db = (db, .ok v')) : v' = v :=
  (outcome_ok h' (h 0)).2

theorem user?_id {db : Db} {id : String} {u : User} (h : db.user? id = some u) : u.id = id := by
  have hfound := List.find?_some h
  simpa using hfound

/-- A lookup that an update cannot affect finds the same row, updated if it is the one named. -/
theorem find?_userUpdate (key : User → Bool) (id : String) (data : UserUpdate) (users : List User)
    (hkey : ∀ v, key (v.update data) = key v) :
    (users.map fun v => if v.id == id then v.update data else v).find? key =
      (users.find? key).map fun v => if v.id == id then v.update data else v := by
  have hsame : ∀ v : User, key (if v.id == id then v.update data else v) = key v := by
    intro v
    split
    · exact hkey v
    · rfl
  rw [List.find?_map]
  simp only [Function.comp_def, hsame]

theorem Query.exec_of_fails {q : Query} {e : Choice} (h : e.fails = true) (db : Db) :
    q.exec e db = (db, .error .unavailable) := if_pos h

theorem Call.exec_fails (e : Choice) (h : e.fails = true) {q : Query} {db : Db} :
    Call.exec e db (.query q) = (db, .error .unavailable) := Query.exec_of_fails h db

theorem Query.exec_of_not_fails {q : Query} {e : Choice} (h : e.fails = false) (db : Db) :
    q.exec e db = q.answer e.now db := by
  rw [Query.exec, h, if_neg Bool.false_ne_true]

theorem Tx.run_pure (now : Time) (a : α) (db : Db) : Tx.run now (pure a) db = (db, .ok a) := rfl

theorem Tx.run_query_bind (now : Time) (q : Query) (f : q.Reply → Tx α) (db : Db) :
    Tx.run now (Tx.query q >>= f) db =
      match q.answer now db with
      | (db', .ok v) => (f v).run now db'
      | (db', .error e) => (db', .error e) := by
  have hexec : q.exec ⟨now, false⟩ db = q.answer now db := Query.exec_of_not_fails rfl db
  change Prog.run Query.exec _ _ (q.exec ⟨now, false⟩ db).1 = _
  rw [hexec]
  cases hr : q.answer now db with
  | mk db' r => cases r <;> rfl

theorem Call.exec_transaction (e : Choice) (db : Db) (tx : Tx ClaimResult) :
    (Call.exec e db (.transaction tx)).1 = if e.fails then db else (tx.commit e.now db).1 := by
  simp only [Call.exec]
  cases e.fails <;> rfl

/-- If the transaction commits, it ends in `post`. -/
def Tx.Ensures (now : Time) (tx : Tx α) (db : Db) (post : α → Db → Prop) : Prop :=
  ∀ a db', tx.run now db = (db', .ok a) → post a db'

theorem Tx.Ensures.pure {now : Time} {a : α} {db : Db} {post : α → Db → Prop} (h : post a db) :
    Tx.Ensures now (Pure.pure a) db post := by
  intro a' db' heq
  obtain ⟨rfl, rfl⟩ := outcome_ok (Tx.run_pure now a db) heq
  exact h

theorem Tx.Ensures.query_bind {now : Time} {q : Query} {f : q.Reply → Tx α} {db : Db}
    {post : α → Db → Prop}
    (h : ∀ v db', q.answer now db = (db', .ok v) → (f v).Ensures now db' post) :
    Tx.Ensures now (Tx.query q >>= f) db post := by
  intro a db' heq
  rw [Tx.run_query_bind] at heq
  cases hr : q.answer now db with
  | mk mid r =>
    rw [hr] at heq
    cases r with
    | error e => exact absurd (Prod.mk.inj heq).2 nofun
    | ok v => exact h v mid hr a db' heq

theorem Tx.Ensures.commit {now : Time} {tx : Tx α} {db : Db} {post : α → Db → Prop}
    {p : Db → Prop} (h : tx.Ensures now db post) (hpost : ∀ a db', post a db' → p db')
    (hkeep : p db) : p (tx.commit now db).1 := by
  unfold Tx.commit
  split
  next db' a heq => exact hpost a db' (h a db' heq)
  next => exact hkeep

end Rvep.Backend
