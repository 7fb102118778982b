import Rvep.Shared.Json

/-!
# Universal control commands

The commands an operator sends to a vehicle, as
`packages/shared/src/control-commands.ts` declares them. A command travels as
the JSON text of its fields; here it travels as the fields themselves, and
`decodeCommand` is the schema check the receiver makes on them.
-/

namespace Rvep

-- ---------------------------------------------------------------------------
-- ISO 8601 instants
-- ---------------------------------------------------------------------------

def twoDigits (a b : Char) : Option Nat :=
  if a.isDigit && b.isDigit then some ((a.toNat - 48) * 10 + (b.toNat - 48)) else none

def isLeapYear (year : Nat) : Bool := (year % 4 == 0 && year % 100 != 0) || year % 400 == 0

def daysInMonth (year : Nat) : Nat → Nat
  | 1 | 3 | 5 | 7 | 8 | 10 | 12 => 31
  | 4 | 6 | 9 | 11 => 30
  | 2 => if isLeapYear year then 29 else 28
  | _ => 0

def isDate (y₁ y₂ y₃ y₄ m₁ m₂ d₁ d₂ : Char) : Bool :=
  match twoDigits y₁ y₂, twoDigits y₃ y₄, twoDigits m₁ m₂, twoDigits d₁ d₂ with
  | some century, some year, some month, some day =>
    decide (1 ≤ day) && decide (day ≤ daysInMonth (century * 100 + year) month)
  | _, _, _, _ => false

def isFraction : List Char → Bool
  | ['Z'] => false
  | [c, 'Z'] => c.isDigit
  | c :: rest => c.isDigit && isFraction rest
  | [] => false

/-- Optional seconds with an optional fraction, then `Z`. -/
def isSecondsZ : List Char → Bool
  | ['Z'] => true
  | ':' :: s₁ :: s₂ :: rest =>
    (twoDigits s₁ s₂).any (· ≤ 59) &&
      match rest with
      | ['Z'] => true
      | '.' :: fraction => isFraction fraction
      | _ => false
  | _ => false

/-- `z.string().datetime()`: a UTC instant in ISO 8601. -/
def isDatetime (s : String) : Bool :=
  match s.toList with
  | y₁ :: y₂ :: y₃ :: y₄ :: '-' :: m₁ :: m₂ :: '-' :: d₁ :: d₂ :: 'T' ::
      h₁ :: h₂ :: ':' :: n₁ :: n₂ :: rest =>
    isDate y₁ y₂ y₃ y₄ m₁ m₂ d₁ d₂ && (twoDigits h₁ h₂).any (· ≤ 23) &&
      (twoDigits n₁ n₂).any (· ≤ 59) && isSecondsZ rest
  | _ => false

example : isDatetime "2026-02-28T23:59:07.120Z" = true := by decide
example : isDatetime "2026-02-29T23:59:07.120Z" = false := by decide

/-- What `new Date().toISOString()` returns. -/
abbrev IsoInstant := { s : String // isDatetime s = true }

-- ---------------------------------------------------------------------------
-- Commands
-- ---------------------------------------------------------------------------

structure Axes where
  forward : ℚ
  lateral : ℚ
  yaw : ℚ
  deriving DecidableEq, Repr

def Axes.zero : Axes := ⟨0, 0, 0⟩

inductive ConfigValue where
  | string (s : String)
  | number (q : ℚ)
  | boolean (b : Bool)
  deriving DecidableEq, Repr

structure BaseFields where
  vehicleId : String
  sessionId : String
  connectionEpoch : Nat
  seq : Nat
  timestamp : String
  deriving DecidableEq, Repr

/-- The fields of each command type, by its `type` discriminator. -/
inductive CommandBody where
  | movement (axes : Axes)
  | emergencyStop
  | heartbeat
  | resumeControl (acknowledgement : String)
  | action (name : String) (params : Option (List (String × Json)))
  | config (key : String) (value : ConfigValue)

@[simp] def CommandBody.isHeartbeat : CommandBody → Bool
  | .heartbeat => true
  | _ => false

@[simp] def CommandBody.isEmergencyStop : CommandBody → Bool
  | .emergencyStop => true
  | _ => false

@[simp] def CommandBody.isConfirmedResume : CommandBody → Bool
  | .resumeControl acknowledgement => acknowledgement == "operator_confirmed"
  | _ => false

structure ControlCommand extends BaseFields where
  body : CommandBody

def BaseFields.accepted (f : BaseFields) : Bool :=
  f.vehicleId != "" && f.sessionId != "" && isDatetime f.timestamp

def Axes.accepted (a : Axes) : Bool :=
  let inRange (x : ℚ) : Bool := decide (-1 ≤ x) && decide (x ≤ 1)
  inRange a.forward && inRange a.lateral && inRange a.yaw

def CommandBody.accepted : CommandBody → Bool
  | .movement axes => axes.accepted
  | .emergencyStop => true
  | .heartbeat => true
  | .resumeControl acknowledgement => acknowledgement == "operator_confirmed"
  | .action name _ => name != ""
  | .config key _ => key != ""

/-- `ControlCommand.safeParse` on the fields of a payload. -/
def decodeCommand (payload : ControlCommand) : Option ControlCommand :=
  if payload.toBaseFields.accepted && payload.body.accepted then some payload else none

theorem decodeCommand_eq_some {payload cmd : ControlCommand} :
    decodeCommand payload = some cmd ↔
      cmd = payload ∧ payload.toBaseFields.accepted = true ∧ payload.body.accepted = true := by
  cases hb : payload.toBaseFields.accepted <;> cases hp : payload.body.accepted <;>
    simp [decodeCommand, hb, hp, eq_comm]

end Rvep
