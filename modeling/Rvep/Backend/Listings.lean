import Rvep.Backend.VehicleStatus

/-!
# Listings

`GET vehicles`, `GET audit` and `GET datasets`: the vehicles a caller may see,
the latest events and the latest assets. Of events and assets, a caller who is
no admin sees those of one vehicle it has a permission on.
-/

namespace Rvep.Backend

open Interleaving

-- ---------------------------------------------------------------------------
-- Query parameters
-- ---------------------------------------------------------------------------

/-- What `searchParams.get` finds. -/
structure ListingQuery where
  vehicleId : Option String
  limit : Option String
  deriving DecidableEq, Repr

/-- White space and line terminators, which `parseInt` skips. -/
def isWhiteSpace (c : Char) : Bool :=
  [0x9, 0xA, 0xB, 0xC, 0xD, 0x20, 0xA0, 0x1680, 0x2028, 0x2029, 0x202F, 0x205F, 0x3000, 0xFEFF].contains
    c.toNat || (decide (0x2000 ≤ c.toNat) && decide (c.toNat ≤ 0x200A))

def readDigits (n : Nat) : List Char → Nat
  | [] => n
  | c :: rest => if c.isDigit then readDigits (10 * n + (c.toNat - 48)) rest else n

def readUnsigned : List Char → Option Int
  | [] => none
  | c :: rest => if c.isDigit then some (readDigits 0 (c :: rest)) else none

/-- `parseInt(v, 10)`; `none` is NaN. -/
def parseInt (v : String) : Option Int :=
  match v.toList.dropWhile isWhiteSpace with
  | '-' :: digits => (readUnsigned digits).map fun n => -n
  | '+' :: digits => readUnsigned digits
  | digits => readUnsigned digits

/-- From here on the nearest double is infinite. -/
def isInfinite (n : Int) : Bool := decide (2 ^ 1024 - 2 ^ 970 ≤ n.natAbs)

/-- `z.number().int().positive().max(500)` -/
def limitIssues (n : Int) : List String :=
  (if isInfinite n then ["Expected integer, received float"] else []) ++
  (if n ≤ 0 then ["Number must be greater than 0"] else []) ++
  (if 500 < n then ["Number must be less than or equal to 500"] else [])

/-- The value of a parameter that is given and not empty. -/
def given (parameter : Option String) : Option String := parameter.filter (· != "")

def defaultLimit : Nat := 100

def parseLimit (limit : Option String) : Except (List String) Nat :=
  match given limit with
  | none => .ok defaultLimit
  | some v =>
    match parseInt v with
    | none => .error ["Expected number, received nan"]
    | some n =>
      match limitIssues n with
      | [] => .ok n.toNat
      | issues => .error issues

def invalidQuery (issues : List String) : Response :=
  fail "invalid_query" 400
    (nested "issues" (some [("formErrors", .texts []), ("fieldErrors.limit", .texts issues)]))

/-- A limit that passes is at least 1 and at most 500. -/
theorem parseLimit_bounds {limit : Option String} {n : Nat} (h : parseLimit limit = .ok n) :
    1 ≤ n ∧ n ≤ 500 := by
  unfold parseLimit at h
  split at h
  next =>
    obtain rfl := Except.ok.inj h
    decide
  next v _ =>
    split at h
    next => cases h
    next m _ =>
      split at h
      next hissues =>
        obtain rfl := Except.ok.inj h
        simp only [limitIssues, List.append_eq_nil_iff] at hissues
        have hpos : ¬ m ≤ 0 := fun hm => by simp [hm] at hissues
        have hmax : ¬ 500 < m := fun hm => by simp [hm] at hissues
        omega
      next => cases h

-- ---------------------------------------------------------------------------
-- Rows
-- ---------------------------------------------------------------------------

def SessionPurpose.name : SessionPurpose → String
  | .control => "CONTROL"
  | .monitor => "MONITOR"
  | .dataset => "DATASET"
  | .raw => "RAW"

def SessionStatus.name : SessionStatus → String
  | .active => "ACTIVE"
  | .closed => "CLOSED"
  | .fatal => "FATAL"

def DatasetAssetKind.name : DatasetAssetKind → String
  | .raw => "RAW"
  | .annotated => "ANNOTATED"
  | .egressPerTrack => "EGRESS_PER_TRACK"
  | .egressComposite => "EGRESS_COMPOSITE"
  | .metadata => "METADATA"
  | .log => "LOG"

def DatasetAssetSource.name : DatasetAssetSource → String
  | .orinLocal => "ORIN_LOCAL"
  | .orinRsync => "ORIN_RSYNC"
  | .livekitEgress => "LIVEKIT_EGRESS"
  | .manualUpload => "MANUAL_UPLOAD"

def RetentionTier.name : RetentionTier → String
  | .ephemeral => "EPHEMERAL"
  | .rolling30d => "ROLLING_30D"
  | .rolling90d => "ROLLING_90D"
  | .permanent => "PERMANENT"

def vehicleSelect (vehicle : Vehicle) : Fields :=
  [("vehicleId", .text vehicle.vehicleId), ("displayName", .text vehicle.displayName),
    ("vehicleType", .text vehicle.vehicleType.name), ("status", .text vehicle.status.name)]

def auditEntry (e : EventRow) : Fields :=
  [("id", .text (toString e.id)), ("vehicleId", e.vehicleId.elim .null .text),
    ("sessionId", e.sessionId.elim .null .text), ("userId", e.userId.elim .null .text),
    ("eventName", .text e.eventName), ("ts", .instant e.ts)] ++
  nested "payload" e.payload

/-- `n ? Number(n) : null` -/
def countOrNull (n : Option Int) : Field := (n.filter (· != 0)).elim .null .number

def assetEntry (a : DatasetAsset) (session : Option Session) : Fields :=
  [("id", .text a.id), ("vehicleId", .text a.vehicleId),
    ("sessionId", session.elim .null fun s => .text s.sessionId),
    ("sessionPurpose", session.elim .null fun s => .text s.purpose.name),
    ("sessionStatus", session.elim .null fun s => .text s.status.name),
    ("cameraId", a.cameraId.elim .null .text), ("kind", .text a.kind.name),
    ("source", .text a.source.name), ("path", .text a.path),
    ("sizeBytes", countOrNull a.sizeBytes), ("durationMs", countOrNull a.durationMs),
    ("sha256", a.sha256.elim .null .text), ("retentionTier", .text a.retentionTier.name),
    ("createdAt", .instant a.createdAt), ("syncedAt", a.syncedAt.elim .null .instant),
    ("metadata", a.metadata.elim .null .json)]

-- ---------------------------------------------------------------------------
-- The routes
-- ---------------------------------------------------------------------------

def vehiclesList (caller : Caller) : Prog Call Call.Reply Response := Handler.serve do
  let ctx ← getAuthContext caller
  let vehicles ← Handler.query (.vehicleFindMany (if ctx.role == .admin then none else some ctx.userId))
  return okList (vehicles.map vehicleSelect)

/-- Who is no admin must name a vehicle and have a permission on it. -/
def vehicleScoped (ctx : AuthContext) (vehicleId : Option String) (list : Handler Response) :
    Handler Response :=
  if ctx.role == .admin then list
  else
    match given vehicleId with
    | none => throw (.app (Forbidden "vehicle_scope_required"))
    | some vehicleId => do
      let some vehicle ← Handler.query (.vehicleFindUnique vehicleId)
        | return fail "vehicle_not_found" 404
      match ← Handler.query (.permissionFindUnique ctx.userId vehicle.id) with
      | none => throw (.app (Forbidden "no_vehicle_permission"))
      | some _ => list

def listing (caller : Caller) (query : ListingQuery)
    (list : Option String → Nat → Handler Response) : Prog Call Call.Reply Response :=
  Handler.serve do
    let ctx ← getAuthContext caller
    match parseLimit query.limit with
    | .error issues => return invalidQuery issues
    | .ok limit => vehicleScoped ctx query.vehicleId (list (given query.vehicleId) limit)

theorem listing_error {ctx : AuthContext} {query : ListingQuery} {issues : List String}
    (h : parseLimit query.limit = .error issues) (list : Option String → Nat → Handler Response) :
    listing (some ctx) query list = Handler.serve (pure (invalidQuery issues)) := by
  simp only [listing, h]
  rfl

theorem listing_ok {ctx : AuthContext} {query : ListingQuery} {limit : Nat}
    (h : parseLimit query.limit = .ok limit) (list : Option String → Nat → Handler Response) :
    listing (some ctx) query list =
      Handler.serve (vehicleScoped ctx query.vehicleId (list (given query.vehicleId) limit)) := by
  simp only [listing, h]
  rfl

def latestEvents (vehicleId : Option String) (limit : Nat) : Handler Response := do
  let entries ← Handler.query (.eventLogFindMany vehicleId limit)
  return okList (entries.map auditEntry)

def auditList (caller : Caller) (query : ListingQuery) : Prog Call Call.Reply Response :=
  listing caller query latestEvents

def latestAssets (vehicleId : Option String) (limit : Nat) : Handler Response := do
  let assets ← Handler.query (.datasetAssetFindMany vehicleId limit)
  return okList (assets.map fun (a, session) => assetEntry a session)

def datasetsList (caller : Caller) (query : ListingQuery) : Prog Call Call.Reply Response :=
  listing caller query latestAssets

end Rvep.Backend
