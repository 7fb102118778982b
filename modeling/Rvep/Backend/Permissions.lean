import Rvep.Backend.Api

/-!
# Vehicle permissions

Under `vehicles/[vehicleId]/permissions` an admin lists who has a role on a
vehicle, grants a user one, or revokes it; `GET permissions/me` tells callers
their own.
-/

namespace Rvep.Backend

open Interleaving

structure GrantPermissionBody where
  userId : String
  role : Role
  deriving DecidableEq, Repr

/-- `z.enum`, whose error map gives every issue the one message. -/
def roleKey (fields : List (String × Json)) : Except (List String) Role :=
  match fields.lookup "role" with
  | some (.str "OPERATOR") => .ok .operator
  | some (.str "VIEWER") => .ok .viewer
  | some (.str "ADMIN") => .ok .admin
  | _ => .error [issue "role" "role must be OPERATOR | VIEWER | ADMIN"]

def grantPermissionSchema (fields : List (String × Json)) :
    Except (List String) GrantPermissionBody :=
  match stringKey "userId" (minOne "userId is required") fields, roleKey fields with
  | .ok userId, .ok role => .ok ⟨userId, role⟩
  | .ok _, .error issues => .error issues
  | .error issues, .ok _ => .error issues
  | .error issues₁, .error issues₂ => .error (issues₁ ++ issues₂)

/-- A role is spelled as the schema reads it. -/
theorem roleKey_name (role : Role) : roleKey [("role", .str role.name)] = .ok role := by
  cases role <;> rfl

def permissionPayload (targetUserId : String) (role : Role) (permissionId : Nat) : Fields :=
  [("targetUserId", .text targetUserId), ("role", .text role.name),
    ("permissionId", .number permissionId)]

structure GrantRequest where
  caller : Caller
  vehicleId : String
  body : Option Json

/-- What `grantPermission` does once it has found the vehicle. -/
def grantOn (req : GrantRequest) (ctx : AuthContext) (body : GrantPermissionBody)
    (vehicle : Vehicle) : Handler Response := do
  let some _ ← Handler.query (.userFindUnique body.userId)
    | return fail "user_not_found" 404
  let permission ← Handler.query (.permissionUpsert body.userId vehicle.id body.role ctx.userId)
  audit
    { eventName := "permission_granted", userId := some ctx.userId, vehicleId := some vehicle.id,
      sessionId := none, payload := some (permissionPayload body.userId body.role permission.id) }
  return ok
    [("id", .number permission.id), ("userId", .text permission.userId),
      ("vehicleId", .text req.vehicleId), ("role", .text permission.role.name),
      ("grantedBy", permission.grantedBy.elim .null .text),
      ("createdAt", .instant permission.createdAt)] 201

def grantPermission (req : GrantRequest) : Prog Call Call.Reply Response := Handler.serve do
  let ctx ← getAuthContext req.caller
  let body ← orThrow (validateBody req.body grantPermissionSchema)
  if ctx.role != .admin then throw (.app (Forbidden))
  let some vehicle ← Handler.query (.vehicleFindUnique req.vehicleId)
    | return fail "vehicle_not_found" 404
  grantOn req ctx body vehicle

structure RevokeRequest where
  caller : Caller
  vehicleId : String
  userId : String

/-- What `revokePermission` does once it has found the vehicle. -/
def revokeOn (req : RevokeRequest) (ctx : AuthContext) (vehicle : Vehicle) : Handler Response := do
  let some permission ← Handler.query (.permissionFindUnique req.userId vehicle.id)
    | throw (.app (NotFound "permission_not_found"))
  Handler.query (.permissionDelete permission.id)
  audit
    { eventName := "permission_revoked", userId := some ctx.userId, vehicleId := some vehicle.id,
      sessionId := none, payload := some (permissionPayload req.userId permission.role permission.id) }
  return ok [("ok", .flag true)]

def revokePermission (req : RevokeRequest) : Prog Call Call.Reply Response := Handler.serve do
  let ctx ← getAuthContext req.caller
  if ctx.role != .admin then throw (.app (Forbidden))
  let some vehicle ← Handler.query (.vehicleFindUnique req.vehicleId)
    | return fail "vehicle_not_found" 404
  revokeOn req ctx vehicle

-- ---------------------------------------------------------------------------
-- Reading them
-- ---------------------------------------------------------------------------

/-- Unlike the answer to a grant, it names the vehicle by `Vehicle.id`. -/
def permissionEntry (p : VehiclePermission) : Fields :=
  [("id", .number p.id), ("userId", .text p.userId), ("vehicleId", .text p.vehicleId),
    ("role", .text p.role.name), ("grantedBy", p.grantedBy.elim .null .text),
    ("createdAt", .instant p.createdAt)]

def permissionsList (caller : Caller) (vehicleId : String) : Prog Call Call.Reply Response :=
  Handler.serve do
    let ctx ← getAuthContext caller
    if ctx.role != .admin then throw (.app (Forbidden))
    let some vehicle ← Handler.query (.vehicleFindUnique vehicleId)
      | return fail "vehicle_not_found" 404
    let permissions ← Handler.query (.permissionFindByVehicle vehicle.id)
    return okList (permissions.map permissionEntry)

def vehicleRole (p : VehiclePermission) : Json :=
  .obj [("vehicleId", .str p.vehicleId), ("role", .str p.role.name)]

def myPermissions (caller : Caller) : Prog Call Call.Reply Response := Handler.serve do
  let ctx ← getAuthContext caller
  let vehiclePermissions ← Handler.query (.permissionFindByUser ctx.userId)
  return ok
    [("userId", .text ctx.userId), ("role", .text ctx.role.name),
      ("vehiclePermissions", .json (.arr (vehiclePermissions.map vehicleRole)))]

end Rvep.Backend
