import Rvep.Backend.ControlEvent

/-!
# Telemetry frames

`POST internal/telemetry-frame`: once a second an edge agent has a frame of its
telemetry stored, under the instant that the agent gives it.
-/

namespace Rvep.Backend

open Interleaving

-- ---------------------------------------------------------------------------
-- Dates
-- ---------------------------------------------------------------------------

/-- How many of the years 0 to `year - 1` are leap years. -/
def leapYearsBefore (year : Nat) : Nat := (year + 3) / 4 - (year + 99) / 100 + (year + 399) / 400

/-- Days since 1970-01-01. -/
def dayNumber (year month day : Nat) : Int :=
  let months := (List.range month).foldl (fun n m => n + daysInMonth year m) 0
  (365 * year + leapYearsBefore year + months + day : Nat) - 719529

/-- The first three digits of a fraction; the rest is dropped. -/
def fractionMs (chars : List Char) : Nat :=
  ((chars.takeWhile (·.isDigit) ++ ['0', '0']).take 3).foldl (fun n c => 10 * n + (c.toNat - 48)) 0

def secondsMs : List Char → Nat
  | ':' :: s₁ :: s₂ :: rest =>
    (twoDigits s₁ s₂).getD 0 * 1000 +
      match rest with
      | '.' :: fraction => fractionMs fraction
      | _ => 0
  | _ => 0

def dateMs? (s : String) : Option Time :=
  match s.toList with
  | y₁ :: y₂ :: y₃ :: y₄ :: '-' :: m₁ :: m₂ :: '-' :: d₁ :: d₂ :: 'T' ::
      h₁ :: h₂ :: ':' :: n₁ :: n₂ :: rest => do
    let century ← twoDigits y₁ y₂
    let year ← twoDigits y₃ y₄
    let month ← twoDigits m₁ m₂
    let day ← twoDigits d₁ d₂
    let hours ← twoDigits h₁ h₂
    let minutes ← twoDigits n₁ n₂
    return dayNumber (century * 100 + year) month day * 86400000 +
      (hours * 3600000 + minutes * 60000 + secondsMs rest : Nat)
  | _ => none

theorem isSome_of_any {o : Option Nat} {q : Nat → Bool} (h : o.any q = true) : o.isSome = true := by
  cases o with
  | none => cases h
  | some n => rfl

theorem isDate_digits {y₁ y₂ y₃ y₄ m₁ m₂ d₁ d₂ : Char} (h : isDate y₁ y₂ y₃ y₄ m₁ m₂ d₁ d₂ = true) :
    (twoDigits y₁ y₂).isSome ∧ (twoDigits y₃ y₄).isSome ∧ (twoDigits m₁ m₂).isSome ∧
      (twoDigits d₁ d₂).isSome := by
  unfold isDate at h
  split at h
  next hcentury hyear hmonth hday => simp [hcentury, hyear, hmonth, hday]
  next => cases h

/-- Every instant that the schema accepts is a valid date. -/
theorem dateMs?_isSome {s : String} (h : isDatetime s = true) : (dateMs? s).isSome = true := by
  unfold isDatetime at h
  unfold dateMs?
  generalize s.toList = cs at h ⊢
  split at h
  next =>
    simp only [Bool.and_eq_true] at h
    obtain ⟨⟨⟨hdate, hhours⟩, hminutes⟩, -⟩ := h
    obtain ⟨hcentury, hyear, hmonth, hday⟩ := isDate_digits hdate
    obtain ⟨century, hcentury⟩ := Option.isSome_iff_exists.mp hcentury
    obtain ⟨year, hyear⟩ := Option.isSome_iff_exists.mp hyear
    obtain ⟨month, hmonth⟩ := Option.isSome_iff_exists.mp hmonth
    obtain ⟨day, hday⟩ := Option.isSome_iff_exists.mp hday
    obtain ⟨hours, hhours⟩ := Option.isSome_iff_exists.mp (isSome_of_any hhours)
    obtain ⟨minutes, hminutes⟩ := Option.isSome_iff_exists.mp (isSome_of_any hminutes)
    simp [hcentury, hyear, hmonth, hday, hhours, hminutes]
  next => cases h

/-- `new Date(ts).getTime()` -/
def newDate (ts : IsoInstant) : Time := (dateMs? ts.val).get (dateMs?_isSome ts.property)

example : dateMs? "1970-01-01T00:00Z" = some 0 := by decide
example : dateMs? "2024-02-29T23:59:07.1209Z" = some 1709251147120 := by decide

-- ---------------------------------------------------------------------------
-- The body
-- ---------------------------------------------------------------------------

structure TelemetryBody where
  vehicleId : String
  sessionId : String
  connectionEpoch : Option ℚ
  ts : IsoInstant
  monotonicNs : Option ℚ
  gps : Option Json
  imu : Option Json
  battery : Option Json
  network : Option Json
  mode : Option String

def expected (type : String) (v : Json) : List String :=
  ["Expected " ++ type ++ ", received " ++ v.typeName]

def stringValue : Json → Except (List String) String
  | .str s => .ok s
  | v => .error (expected "string" v)

def numberValue (checks : ℚ → List String) : Json → Except (List String) ℚ
  | .num q =>
    match checks q with
    | [] => .ok q
    | messages => .error messages
  | v => .error (expected "number" v)

/-- `.int().nonnegative()` -/
def countChecks (q : ℚ) : List String :=
  (if q.den = 1 then [] else ["Expected integer, received float"]) ++
    if 0 ≤ q then [] else ["Number must be greater than or equal to 0"]

def recordValue : Json → Except (List String) Json
  | .obj fields => .ok (.obj fields)
  | v => .error (expected "object" v)

/-- `.optional()` -/
def optionalKey (key : String) (value : Json → Except (List String) α)
    (fields : List (String × Json)) : Except (List String) (Option α) :=
  match fields.lookup key with
  | none => .ok none
  | some v =>
    match value v with
    | .ok a => .ok (some a)
    | .error messages => .error (messages.map (issue key))

/-- `z.string().datetime()` -/
def instantKey (key : String) (fields : List (String × Json)) : Except (List String) IsoInstant :=
  match fields.lookup key with
  | none => .error [issue key "Required"]
  | some (.str s) =>
    if h : isDatetime s = true then .ok ⟨s, h⟩ else .error [issue key "Invalid datetime"]
  | some v => .error ((expected "string" v).map (issue key))

/-- The next key, with its issues after those there are. -/
def checked (value : Except (List String) α) (body : Except (List String) (α → β)) :
    Except (List String) β :=
  match body, value with
  | .ok f, .ok a => .ok (f a)
  | .ok _, .error issues => .error issues
  | .error issues, .ok _ => .error issues
  | .error issues, .error issues' => .error (issues ++ issues')

def telemetrySchema (fields : List (String × Json)) : Except (List String) TelemetryBody :=
  Except.ok TelemetryBody.mk
    |> checked (stringKey "vehicleId" (minOne tooShort) fields)
    |> checked (stringKey "sessionId" (minOne tooShort) fields)
    |> checked (optionalKey "connectionEpoch" (numberValue countChecks) fields)
    |> checked (instantKey "ts" fields)
    |> checked (optionalKey "monotonicNs" (numberValue fun _ => []) fields)
    |> checked (optionalKey "gps" recordValue fields)
    |> checked (optionalKey "imu" recordValue fields)
    |> checked (optionalKey "battery" recordValue fields)
    |> checked (optionalKey "network" recordValue fields)
    |> checked (optionalKey "mode" stringValue fields)

-- ---------------------------------------------------------------------------
-- The route
-- ---------------------------------------------------------------------------

/-- `BigInt(q)`; `none` is a RangeError. -/
def toBigInt (q : ℚ) : Option Int := if q.den = 1 then some q.num else none

/-- The row of a body; a zero `monotonicNs` is stored as null. -/
def TelemetryBody.data (body : TelemetryBody) : Option TelemetryFrame := do
  let monotonicNs ←
    match body.monotonicNs with
    | none => pure none
    | some q => if q = 0 then pure none else (toBigInt q).map some
  let connectionEpoch ← toBigInt (body.connectionEpoch.getD 0)
  pure
    { vehicleId := body.vehicleId, sessionId := body.sessionId, ts := newDate body.ts
      gps := body.gps, battery := body.battery, network := body.network, mode := body.mode
      monotonicNs := monotonicNs, connectionEpoch := connectionEpoch, imu := body.imu }

structure TelemetryFrameRequest where
  /-- The header `x-internal-token`. -/
  presented : Option String
  body : Option Json

def recordFrame (body : TelemetryBody) : Handler Response := do
  let some _ ← Handler.query (.vehicleFindUnique body.vehicleId)
    | return fail "vehicle_not_found" 404
  match body.data with
  | none => throw (.error "RangeError")
  | some data =>
    Handler.query (.telemetryFrameCreate data)
    return ok [("recorded", .flag true)]

def telemetryFrame (INTERNAL_TOKEN : String) (req : TelemetryFrameRequest) :
    Prog Call Call.Reply Response :=
  Handler.serve (
    if req.presented != some INTERNAL_TOKEN then return fail "unauthorized_internal" 401
    else do
      let body ← orThrow (validateBody req.body telemetrySchema)
      recordFrame body)

end Rvep.Backend
