import Rvep.Backend.Api

/-!
# LiveKit tokens

`POST livekit/token` and `lib/livekit.ts`: a room token for an operator, a
viewer or an admin. Only the operator's is checked against the vehicle's lease,
once, before it is signed.
-/

namespace Rvep.Backend

open Interleaving

inductive LivekitRole | operator | viewer | admin
  deriving DecidableEq, Repr

def LivekitRole.name : LivekitRole → String
  | .operator => "operator"
  | .viewer => "viewer"
  | .admin => "admin"

structure LivekitTokenBody where
  vehicleId : String
  role : LivekitRole
  deriving DecidableEq, Repr

/-- `z.enum`, whose error map gives every issue the one message. -/
def livekitRoleKey (fields : List (String × Json)) : Except (List String) LivekitRole :=
  match fields.lookup "role" with
  | some (.str "operator") => .ok .operator
  | some (.str "viewer") => .ok .viewer
  | some (.str "admin") => .ok .admin
  | _ => .error [issue "role" "role must be operator | viewer | admin"]

def livekitTokenSchema (fields : List (String × Json)) : Except (List String) LivekitTokenBody :=
  match stringKey "vehicleId" (minOne "vehicleId is required") fields, livekitRoleKey fields with
  | .ok vehicleId, .ok role => .ok ⟨vehicleId, role⟩
  | .ok _, .error issues => .error issues
  | .error issues, .ok _ => .error issues
  | .error issues₁, .error issues₂ => .error (issues₁ ++ issues₂)

-- ---------------------------------------------------------------------------
-- Signing
-- ---------------------------------------------------------------------------

structure VideoGrant where
  roomJoin : Bool
  room : String
  canSubscribe : Bool
  canPublish : Bool
  canPublishData : Bool
  deriving DecidableEq, Repr

def buildGrants (roomName : String) (role : LivekitRole) : VideoGrant :=
  match role with
  | .operator => ⟨true, roomName, true, true, true⟩
  | .viewer => ⟨true, roomName, true, false, false⟩
  | .admin => ⟨true, roomName, true, true, true⟩

structure LivekitConfig where
  apiKey : String
  apiSecret : String
  url : String
  deriving DecidableEq, Repr

/-- The process's environment, and `AccessToken.toJwt` of `livekit-server-sdk`:
the identity, the ttl in seconds, the grant, and the clock it reads. -/
structure Livekit where
  apiKey : Option String
  apiSecret : Option String
  url : Option String
  toJwt : LivekitConfig → String → Int → VideoGrant → Time → String

variable (lk : Livekit)

def tokenTtlSeconds : Int := 60 * 60

def getLivekitConfig : Except Thrown LivekitConfig :=
  match lk.apiKey.filter (· != ""), lk.apiSecret.filter (· != ""), lk.url.filter (· != "") with
  | some apiKey, some apiSecret, some url => .ok ⟨apiKey, apiSecret, url⟩
  | _, _, _ =>
    .error (.error
      "Missing LiveKit environment variables: LIVEKIT_API_KEY, LIVEKIT_API_SECRET, LIVEKIT_URL")

structure LivekitTokenResult where
  token : String
  url : String
  roomName : String
  identity : String
  expiresAt : Time
  deriving DecidableEq, Repr

def roomName (vehicleId : String) : String := "ugv-" ++ vehicleId

def issueLivekitToken (userId vehicleId : String) (role : LivekitRole) :
    Handler (Except Thrown LivekitTokenResult) := do
  match getLivekitConfig lk with
  | .error err => return .error err
  | .ok config =>
    let identity := role.name ++ "-" ++ userId
    let expiresAt := (← Handler.now) + tokenTtlSeconds * 1000
    let signedAt ← Handler.now
    let token :=
      lk.toJwt config identity tokenTtlSeconds (buildGrants (roomName vehicleId) role) signedAt
    return .ok { token := token, url := config.url, roomName := roomName vehicleId,
                 identity := identity, expiresAt := expiresAt }

-- ---------------------------------------------------------------------------
-- The route
-- ---------------------------------------------------------------------------

/-- The route returns this promise without an `await`, so what it throws is not caught there. -/
def issueAndRespond (userId vehicleBusinessId vehicleInternalId : String) (role : LivekitRole) :
    Handler Response := do
  match ← issueLivekitToken lk userId vehicleBusinessId role with
  | .error _ => return uncaught
  | .ok result =>
    audit
      { eventName := "livekit_token_issued", userId := some userId,
        vehicleId := some vehicleInternalId, sessionId := none,
        payload := some [("role", .text role.name), ("roomName", .text result.roomName),
          ("identity", .text result.identity)] }
    return ok
      [("token", .text result.token), ("url", .text result.url), ("roomName", .text result.roomName),
        ("identity", .text result.identity), ("expiresAt", .instant result.expiresAt)]

def tokenDenied (ctx : AuthContext) (vehicle : Option Vehicle) (payload : Fields) : EventData :=
  { eventName := "livekit_token_denied", userId := some ctx.userId, vehicleId := vehicle.map (·.id),
    sessionId := none, payload := some payload }

variable (ctx : AuthContext) (body : LivekitTokenBody) (vehicle : Vehicle)

/-- Step 5: no operator token while somebody else holds the lease. -/
def operatorToken : Handler Response := do
  let now ← Handler.now
  match ← Handler.query (.leaseFindAny vehicle.id now) with
  | none => issueAndRespond lk ctx.userId body.vehicleId vehicle.id body.role
  | some activeLease =>
    if activeLease.operatorId != ctx.userId then
      audit (tokenDenied ctx (some vehicle)
        [("vehicleId", .text body.vehicleId), ("role", .text body.role.name),
          ("reason", .text "control_lease_taken"),
          ("currentOperatorId", .text activeLease.operatorId)])
      return fail "control_lease_taken" 409 [("currentOperatorId", .text activeLease.operatorId)]
    else issueAndRespond lk ctx.userId body.vehicleId vehicle.id body.role

/-- Steps 3 to 5. -/
def permittedToken : Handler Response := do
  match ← Handler.query (.permissionFindUnique ctx.userId vehicle.id) with
  | none =>
    audit (tokenDenied ctx (some vehicle)
      [("vehicleId", .text body.vehicleId), ("role", .text body.role.name),
        ("reason", .text "forbidden_vehicle")])
    return fail "forbidden_vehicle" 403
  | some permission =>
    if body.role == .operator && permission.role != .operator && permission.role != .admin then
      audit (tokenDenied ctx (some vehicle)
        [("vehicleId", .text body.vehicleId), ("role", .text body.role.name),
          ("reason", .text "forbidden_role")])
      return fail "forbidden_vehicle" 403
    else if body.role == .operator then operatorToken lk ctx body vehicle
    else issueAndRespond lk ctx.userId body.vehicleId vehicle.id body.role

/-- Step 2: an admin's token skips the permission and the lease. -/
def adminToken : Handler Response := do
  if ctx.role != .admin then
    audit (tokenDenied ctx (some vehicle)
      [("vehicleId", .text body.vehicleId), ("role", .text body.role.name),
        ("reason", .text "forbidden_role")])
    return fail "forbidden_vehicle" 403
  else issueAndRespond lk ctx.userId body.vehicleId vehicle.id body.role

structure TokenRequest where
  caller : Caller
  body : Option Json

def livekitToken (req : TokenRequest) : Prog Call Call.Reply Response := Handler.serve do
  let ctx ← getAuthContext req.caller
  let body ← orThrow (validateBody req.body livekitTokenSchema)
  match ← Handler.query (.vehicleFindUnique body.vehicleId) with
  | none =>
    audit (tokenDenied ctx none
      [("vehicleId", .text body.vehicleId), ("reason", .text "vehicle_not_found")])
    return fail "vehicle_not_found" 404
  | some vehicle =>
    if body.role == .admin then adminToken lk ctx body vehicle else permittedToken lk ctx body vehicle

end Rvep.Backend
