import Rvep.Shared.JsonText
import Rvep.Backend.Listings
import Rvep.Backend.TelemetryFrame

/-!
# Dataset assets

`POST internal/dataset-asset`: an edge agent registers a file it has recorded.
A session that the backend does not know yet is created first, and so is the
system user who owns it.
-/

namespace Rvep.Backend

open Interleaving

-- ---------------------------------------------------------------------------
-- The body
-- ---------------------------------------------------------------------------

structure DatasetAssetBody where
  vehicleId : String
  sessionId : String
  cameraId : Option String
  kind : DatasetAssetKind
  source : DatasetAssetSource
  path : String
  sizeBytes : Option Nat
  durationMs : Option Nat
  sha256 : Option String
  metadata : Option Json
  deriving DecidableEq, Repr

def DatasetAssetKind.all : List DatasetAssetKind :=
  [.raw, .annotated, .egressPerTrack, .egressComposite, .metadata, .log]

def DatasetAssetSource.all : List DatasetAssetSource :=
  [.orinLocal, .orinRsync, .livekitEgress, .manualUpload]

/-- `.nullable().optional()`; an absent value and null are one. -/
def nullishKey (key : String) (value : Json → Except (List String) α)
    (fields : List (String × Json)) : Except (List String) (Option α) :=
  match fields.lookup key with
  | some .null => .ok none
  | _ => optionalKey key value fields

/-- What `z.number().int().nonnegative()` passes is a natural number. -/
def countValue (v : Json) : Except (List String) Nat :=
  (numberValue countChecks v).map (·.num.toNat)

def isHexDigit (c : Char) : Bool :=
  c.isDigit || (decide ('a' ≤ c) && decide (c ≤ 'f')) || (decide ('A' ≤ c) && decide (c ≤ 'F'))

/-- `/^[0-9a-f]{64}$/i`, and the message of a mismatch. -/
def sha256Value : Json → Except (List String) String
  | .str s => if s.length = 64 ∧ s.toList.all isHexDigit then .ok s else .error ["Invalid"]
  | v => .error (expected "string" v)

def joinValues (names : List String) : String :=
  " | ".intercalate (names.map fun name => "'" ++ name ++ "'")

def invalidEnum (names : List String) (received : String) : String :=
  "Invalid enum value. Expected " ++ joinValues names ++ ", received '" ++ received ++ "'"

/-- `z.nativeEnum`. A number is compared with the members too, and is none of them. -/
def enumKey (fmt : NumberFormat) (key : String) (name : α → String) (members : List α)
    (fields : List (String × Json)) : Except (List String) α :=
  match fields.lookup key with
  | none => .error [issue key "Required"]
  | some (.str s) =>
    match members.find? (name · == s) with
    | some a => .ok a
    | none => .error [issue key (invalidEnum (members.map name) s)]
  | some (.num q) =>
    .error [issue key (invalidEnum (members.map name) (String.ofList (fmt.write q).chars))]
  | some v => .error ((expected (joinValues (members.map name)) v).map (issue key))

def datasetAssetSchema (fmt : NumberFormat) (fields : List (String × Json)) :
    Except (List String) DatasetAssetBody :=
  Except.ok DatasetAssetBody.mk
    |> checked (stringKey "vehicleId" (minOne tooShort) fields)
    |> checked (stringKey "sessionId" (minOne tooShort) fields)
    |> checked (nullishKey "cameraId" stringValue fields)
    |> checked (enumKey fmt "kind" DatasetAssetKind.name DatasetAssetKind.all fields)
    |> checked (enumKey fmt "source" DatasetAssetSource.name DatasetAssetSource.all fields)
    |> checked (stringKey "path" (minOne tooShort) fields)
    |> checked (nullishKey "sizeBytes" countValue fields)
    |> checked (nullishKey "durationMs" countValue fields)
    |> checked (nullishKey "sha256" sha256Value fields)
    |> checked (nullishKey "metadata" recordValue fields)

theorem checked_ok {value : Except (List String) α} {body : Except (List String) (α → β)} {b : β}
    (h : checked value body = .ok b) : ∃ f a, body = .ok f ∧ value = .ok a ∧ b = f a := by
  cases body with
  | error issues => cases value <;> cases h
  | ok f =>
    cases value with
    | error issues => cases h
    | ok a => exact ⟨f, a, rfl, rfl, (Except.ok.inj h).symm⟩

theorem stringKey_ok {key : String} {checks : String → List String} {fields : List (String × Json)}
    {s : String} (h : stringKey key checks fields = .ok s) : checks s = [] := by
  unfold stringKey at h
  split at h
  next => cases h
  next s' _ =>
    split at h
    next hchecks =>
      cases h
      exact hchecks
    next => cases h
  next => cases h

theorem ne_empty_of_minOne {message s : String} (h : minOne message s = []) : s ≠ "" := by
  rintro rfl
  cases h

/-- A body that passes names a vehicle. -/
theorem vehicleId_ne_empty {fmt : NumberFormat} {fields : List (String × Json)}
    {body : DatasetAssetBody} (h : datasetAssetSchema fmt fields = .ok body) : body.vehicleId ≠ "" := by
  obtain ⟨_, metadata, h₉, -, rfl⟩ := checked_ok h
  obtain ⟨_, sha256, h₈, -, rfl⟩ := checked_ok h₉
  obtain ⟨_, durationMs, h₇, -, rfl⟩ := checked_ok h₈
  obtain ⟨_, sizeBytes, h₆, -, rfl⟩ := checked_ok h₇
  obtain ⟨_, path, h₅, -, rfl⟩ := checked_ok h₆
  obtain ⟨_, source, h₄, -, rfl⟩ := checked_ok h₅
  obtain ⟨_, kind, h₃, -, rfl⟩ := checked_ok h₄
  obtain ⟨_, cameraId, h₂, -, rfl⟩ := checked_ok h₃
  obtain ⟨_, sessionId, h₁, -, rfl⟩ := checked_ok h₂
  obtain ⟨_, vehicleId, hmk, hvehicleId, rfl⟩ := checked_ok h₁
  cases hmk
  exact ne_empty_of_minOne (stringKey_ok hvehicleId)

-- ---------------------------------------------------------------------------
-- The route
-- ---------------------------------------------------------------------------

def SYSTEM_EMAIL : String := "system@edge.local"

/-- Nobody's password has this hash. -/
def systemUser : UserData := ⟨SYSTEM_EMAIL, "system-no-login", .admin⟩

/-- Find the record; if there is none, create it. These are two steps. -/
def getOrCreate (find : Handler (Option α)) (create : Handler α) : Handler α := do
  match ← find with
  | some existing => return existing
  | none => create

def getOrCreateSystemUser : Handler User :=
  getOrCreate (Handler.query (.userFindByEmail SYSTEM_EMAIL)) (Handler.query (.userCreate systemUser))

def datasetSession (vehicleInternalId sessionIdString systemUserId : String) : SessionData :=
  ⟨sessionIdString, vehicleInternalId, systemUserId, .dataset, .active⟩

def getOrCreateSession (vehicleInternalId sessionIdString systemUserId : String) : Handler Session :=
  getOrCreate (Handler.query (.sessionFindUnique sessionIdString))
    (Handler.query (.sessionCreate (datasetSession vehicleInternalId sessionIdString systemUserId)))

/-- `BigInt(n)` of a natural number is that number. -/
def DatasetAssetBody.data (body : DatasetAssetBody) (vehicle : Vehicle) (session : Session) :
    DatasetAssetData where
  vehicleId := vehicle.vehicleId
  sessionId := session.id
  cameraId := body.cameraId
  kind := body.kind
  source := body.source
  path := body.path
  sizeBytes := body.sizeBytes.map Int.ofNat
  durationMs := body.durationMs.map Int.ofNat
  sha256 := body.sha256
  retentionTier := .rolling30d
  metadata := body.metadata

def registered (asset : DatasetAsset) (session : Session) : Response :=
  ok [("id", .text asset.id), ("sessionId", .text session.sessionId), ("kind", .text asset.kind.name),
    ("path", .text asset.path), ("registeredAt", .instant asset.createdAt)]

/-- What the route does with a body that is valid. -/
def registerAsset (body : DatasetAssetBody) : Handler Response := do
  let some vehicle ← Handler.query (.vehicleFindUnique body.vehicleId)
    | return fail "vehicle_not_found" 404
  let systemUser ← getOrCreateSystemUser
  let session ← getOrCreateSession vehicle.id body.sessionId systemUser.id
  let asset ← Handler.query (.datasetAssetCreate (body.data vehicle session))
  return registered asset session

structure DatasetAssetRequest where
  /-- The header `x-internal-token`. -/
  presented : Option String
  body : Option Json

def datasetAsset (fmt : NumberFormat) (INTERNAL_TOKEN : String) (req : DatasetAssetRequest) :
    Prog Call Call.Reply Response :=
  Handler.serve (
    if req.presented != some INTERNAL_TOKEN then return fail "unauthorized_internal" 401
    else do
      let body ← orThrow (validateBody req.body (datasetAssetSchema fmt))
      registerAsset body)

end Rvep.Backend
