import Rvep.Backend.Api
import Rvep.Shared.ControlCommand

/-!
# Events from the edge

`POST internal/control-event`: an edge agent reports a safety or control event.
The route knows its callers by a shared secret.
-/

namespace Rvep.Backend

open Interleaving

structure ControlEventBody where
  vehicleId : String
  eventName : String
  payload : Option Json
  deriving DecidableEq, Repr

/-- The message of `.min(1)` when it is given none. -/
def tooShort : String := "String must contain at least 1 character(s)"

/-- `.datetime().optional()` -/
def tsIssues (fields : List (String × Json)) : List String :=
  match fields.lookup "ts" with
  | none => []
  | some _ =>
    match stringKey "ts" (fun s => if isDatetime s then [] else ["Invalid datetime"]) fields with
    | .ok _ => []
    | .error issues => issues

def eventSchema (fields : List (String × Json)) : Except (List String) ControlEventBody :=
  match stringKey "vehicleId" (minOne tooShort) fields, stringKey "eventName" (minOne tooShort) fields,
    tsIssues fields with
  | .ok vehicleId, .ok eventName, [] => .ok ⟨vehicleId, eventName, fields.lookup "payload"⟩
  | .ok _, .ok _, issues => .error issues
  | .ok _, .error issues, issues' => .error (issues ++ issues')
  | .error issues, .ok _, issues' => .error (issues ++ issues')
  | .error issues, .error issues', issues'' => .error (issues ++ issues' ++ issues'')

def isTruthy : Json → Bool
  | .null => false
  | .bool b => b
  | .num q => q != 0
  | .str s => s != ""
  | .arr _ | .obj _ => true

/-- What `audit` stores of `body.payload ?? {}`. A payload that is no object is
stored as it is; here it stands under the empty key. -/
def eventPayload (payload : Option Json) : Option Fields :=
  match payload with
  | none | some .null => some []
  | some (.obj fields) => some (fields.map fun (key, value) => (key, .json value))
  | some value => if isTruthy value then some [("", .json value)] else none

structure ControlEventRequest where
  /-- The header `x-internal-token`. -/
  presented : Option String
  body : Option Json

/-- What the route does with a body that is valid. The event is stored under
the vehicle's `vehicleId`. -/
def recordEvent (body : ControlEventBody) : Handler Response := do
  let some _ ← Handler.query (.vehicleFindUnique body.vehicleId)
    | return fail "vehicle_not_found" 404
  audit
    { eventName := body.eventName, vehicleId := some body.vehicleId, sessionId := none,
      userId := none, payload := eventPayload body.payload }
  return ok [("recorded", .flag true)]

/-- Whatever is thrown, by `validateBody` too, is answered with `internal_error`. -/
def controlEvent (INTERNAL_TOKEN : String) (req : ControlEventRequest) :
    Prog Call Call.Reply Response :=
  Handler.serve (
    if req.presented != some INTERNAL_TOKEN then return fail "unauthorized_internal" 401
    else
      match validateBody req.body eventSchema with
      | .error _ => return fail "internal_error" 500
      | .ok body => recordEvent body)

end Rvep.Backend
