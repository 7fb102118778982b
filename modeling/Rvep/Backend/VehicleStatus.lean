import Rvep.Backend.ControlLease

/-!
# The vehicle's card

`GET vehicles/[vehicleId]/status`: the vehicle, its current lease and its latest
telemetry in one answer.
-/

namespace Rvep.Backend

open Interleaving

def VehicleType.name : VehicleType → String
  | .quadruped => "QUADRUPED"
  | .wheeled => "WHEELED"
  | .wheeledQuadruped => "WHEELED_QUADRUPED"
  | .rcCar => "RC_CAR"
  | .drone => "DRONE"
  | .custom => "CUSTOM"

def VehicleStatus.name : VehicleStatus → String
  | .online => "ONLINE"
  | .offline => "OFFLINE"
  | .safeMode => "SAFE_MODE"
  | .disconnected => "DISCONNECTED"
  | .unknown => "UNKNOWN"

/-- A record under a key: null, or its fields, each with the key before its own. -/
def nested (key : String) (record : Option Fields) : Fields :=
  match record with
  | none => [(key, .null)]
  | some fields => fields.map fun (name, value) => (key ++ "." ++ name, value)

/-- `column[key]`, if it is a number. -/
def numberIn (column : Option Json) (key : String) : Option ℚ :=
  match column with
  | some (.obj fields) =>
    match fields.lookup key with
    | some (.num q) => some q
    | _ => none
  | _ => none

def leaseCard (lease : ControlLease) (operator : Option User) : Fields :=
  [("operatorId", .text lease.operatorId),
    ("operatorName", operator.elim .null fun user => .text user.email),
    ("sessionId", .text lease.sessionId), ("status", .text lease.status.toLowerCase),
    ("expiresAt", .instant lease.expiresAt)]

def gpsCard (gps : Option Json) : Option Fields :=
  match numberIn gps "lat", numberIn gps "lng" with
  | some lat, some lng => some [("lat", .decimal lat), ("lng", .decimal lng)]
  | _, _ => none

def telemetryCard (frame : TelemetryFrame) : Fields :=
  [("ts", .instant frame.ts), ("sessionId", .text frame.sessionId),
    ("mode", frame.mode.elim .null .text),
    ("batteryPct", (numberIn frame.battery "pct").elim .null .decimal),
    ("networkRttMs", (numberIn frame.network "rttMs").elim .null .decimal)] ++
  nested "gps" (gpsCard frame.gps)

/-- Telemetry older than this, in ms, is that of a vehicle that is offline. -/
def onlineWithinMs : Int := 5000

def statusCard (vehicle : Vehicle) (lease : Option (ControlLease × Option User))
    (latestTelemetry : Option TelemetryFrame) (lastSeenMs : Option Int) : Fields :=
  [("vehicleId", .text vehicle.vehicleId), ("displayName", .text vehicle.displayName),
    ("vehicleType", .text vehicle.vehicleType.name), ("status", .text vehicle.status.name)] ++
  nested "lease" (lease.map fun (l, operator) => leaseCard l operator) ++
  nested "telemetry" (latestTelemetry.map telemetryCard) ++
  [("lastSeenMs", lastSeenMs.elim .null .number),
    ("online", .flag (lastSeenMs.any fun ms => decide (ms < onlineWithinMs)))]

/-- The clock is read again only if there is a frame to compare it with. -/
def lastSeen (latestTelemetry : Option TelemetryFrame) : Handler (Option Int) :=
  match latestTelemetry with
  | none => return none
  | some frame => return some ((← Handler.now) - frame.ts)

def vehicleStatus (caller : Caller) (vehicleId : String) : Prog Call Call.Reply Response :=
  Handler.serve do
    let _ ← getAuthContext caller
    let some vehicle ← Handler.query (.vehicleFindUnique vehicleId)
      | return fail "vehicle_not_found" 404
    let now ← Handler.now
    let lease ← Handler.query (.leaseFindOperator vehicle.id now)
    let latestTelemetry ← Handler.query (.telemetryFindLatest vehicleId)
    let lastSeenMs ← lastSeen latestTelemetry
    return ok (statusCard vehicle lease latestTelemetry lastSeenMs)

end Rvep.Backend
