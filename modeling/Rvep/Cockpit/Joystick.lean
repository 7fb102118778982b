import Rvep.Lib.Reactive
import Rvep.Shared.ControlCommand

/-!
# The joystick

`apps/web/src/components/control/Joystick.tsx`. The component renders after
every event, so the handlers, the refs and the interval of an event are those
of the state before it. The press state and the interval know nothing of the
`disabled` prop, which only takes the handlers away.
-/

namespace Rvep.Cockpit

open Reactive

structure Point where
  x : ℚ
  y : ℚ
  deriving DecidableEq, Repr

structure Rect where
  left : ℚ
  top : ℚ
  width : ℚ
  height : ℚ

abbrev PointerId := Nat

def radius : ℚ := 56

def deadZone : ℚ := 8

/-- The component's state, refs and `disabled` prop. Of `pressed` it knows
nothing: the pointers that went down on it and are not yet up. -/
structure Joystick where
  active : Bool
  knob : Point
  wasInDeadZone : Bool
  disabled : Bool
  mounted : Bool
  pressed : List PointerId

def Joystick.mount (disabled : Bool) : Joystick where
  active := false
  knob := ⟨0, 0⟩
  wasInDeadZone := true
  disabled := disabled
  mounted := true
  pressed := []

inductive JoystickEffect where
  | onChange (axes : Axes)
  | onRelease
  | vibrate
  deriving DecidableEq, Repr

def JoystickEffect.movement? : JoystickEffect → Option Axes
  | .onChange axes => some axes
  | .onRelease => some .zero
  | .vibrate => none

/-- `pointerDown` says whether `setPointerCapture` succeeds; where it throws,
the handler ends there. -/
inductive JoystickEvent where
  | pointerDown (pointer : PointerId) (captured : Bool) (client : Point) (rect : Rect)
  | pointerMove (client : Point) (rect : Rect)
  | pointerUp (pointer : PointerId)
  | pointerCancel (pointer : PointerId)
  | setDisabled (disabled : Bool)
  | tick
  | unmount

-- ---------------------------------------------------------------------------
-- Handlers
-- ---------------------------------------------------------------------------

def clamp (v : ℚ) : ℚ := max (-1) (min 1 v)

-- `Math.hypot`; nothing here depends on how it rounds
variable (hypot : ℚ → ℚ → ℚ)

namespace Joystick

def axesOf (k : Point) : Axes :=
  let dist := hypot k.x k.y
  if dist < deadZone then .zero
  else
    let usable := max 0 (radius - deadZone)
    let scale := (dist - deadZone) / usable / dist
    ⟨clamp (-k.y * scale), 0, clamp (k.x * scale)⟩

/-- The pointer's offset from the centre, drawn back onto the ring. -/
def knobAt (client : Point) (rect : Rect) : Point :=
  let cx := rect.left + rect.width / 2
  let cy := rect.top + rect.height / 2
  let dx := client.x - cx
  let dy := client.y - cy
  let dist := hypot dx dy
  if radius < dist then ⟨dx / dist * radius, dy / dist * radius⟩ else ⟨dx, dy⟩

def haptic (wasInDeadZone inside : Bool) : List JoystickEffect :=
  if wasInDeadZone && !inside then [.vibrate] else []

def update (client : Point) (rect : Rect) (j : Joystick) : Joystick × List JoystickEffect :=
  -- the element is there whenever a handler runs
  let knob := knobAt hypot client rect
  let inside := decide (hypot knob.x knob.y < deadZone)
  ({ j with wasInDeadZone := inside, knob := knob }, haptic j.wasInDeadZone inside)

def start (client : Point) (rect : Rect) (j : Joystick) : Joystick × List JoystickEffect :=
  update hypot client rect { j with active := true, wasInDeadZone := true }

/-- `end`. -/
def finish (j : Joystick) : Joystick × List JoystickEffect :=
  ({ j with active := false, knob := ⟨0, 0⟩ }, [.onRelease])

/-- Pointer handlers are attached to a mounted joystick that is not disabled. -/
def listens (j : Joystick) : Bool := j.mounted && !j.disabled

def press (pointer : PointerId) (j : Joystick) : Joystick :=
  { j with pressed := pointer :: j.pressed }

def release (pointer : PointerId) (j : Joystick) : Joystick :=
  { j with pressed := j.pressed.filter (· != pointer) }

def onPointerDown (captured : Bool) (client : Point) (rect : Rect) (j : Joystick) :
    Joystick × List JoystickEffect :=
  if j.listens && captured then start hypot client rect j else (j, [])

def onPointerMove (client : Point) (rect : Rect) (j : Joystick) : Joystick × List JoystickEffect :=
  if j.listens && j.active then update hypot client rect j else (j, [])

def onPointerUp (j : Joystick) : Joystick × List JoystickEffect :=
  if j.listens then finish j else (j, [])

/-- The 125 ms interval, which lives as long as the press state of a mounted joystick. -/
def onInterval (j : Joystick) : List JoystickEffect :=
  if j.mounted && j.active then [.onChange (axesOf hypot j.knob)] else []

def step (j : Joystick) : JoystickEvent → Joystick × List JoystickEffect
  | .pointerDown pointer captured client rect =>
    onPointerDown hypot captured client rect (j.press pointer)
  | .pointerMove client rect => onPointerMove hypot client rect j
  | .pointerUp pointer => onPointerUp (j.release pointer)
  | .pointerCancel pointer => onPointerUp (j.release pointer)
  | .setDisabled disabled => ({ j with disabled := disabled }, [])
  | .tick => (j, onInterval hypot j)
  | .unmount => ({ j with mounted := false }, [])

end Joystick

-- ---------------------------------------------------------------------------
-- Runs
-- ---------------------------------------------------------------------------

def joystick (disabled : Bool) : System Joystick JoystickEvent (List JoystickEffect) where
  init := .mount disabled
  step := Joystick.step hypot

abbrev JoystickEntry := Entry Joystick JoystickEvent (List JoystickEffect)
abbrev JoystickLog := Log Joystick JoystickEvent (List JoystickEffect)

def movements (out : List JoystickEffect) : List Axes := out.filterMap JoystickEffect.movement?

def lastMovement : JoystickLog → Option Axes := latest fun x => movements x.output

def Joystick.Held (j : Joystick) : Prop := j.listens = true ∧ j.pressed ≠ []

def JoystickEvent.isPointerDown : JoystickEvent → Bool
  | .pointerDown .. => true
  | _ => false

def Presses (x : JoystickEntry) : Prop :=
  x.event.isPointerDown = true ∧ x.before.listens = true

def HeldSincePress : JoystickLog → Prop := Since (fun y _ => y.after.Held) fun y _ => Presses y

/-- A joystick that is not held has come to rest, and it drives only while it
has been held since a press. -/
structure Rests (x : JoystickEntry) (past : JoystickLog) : Prop where
  last : x.after.Held ∨ ∀ axes, lastMovement (x :: past) = some axes → axes = .zero
  driving : ∀ axes ∈ movements x.output, axes = .zero ∨ HeldSincePress (x :: past)

def JoystickEvent.takesAway : JoystickEvent → Bool
  | .setDisabled disabled => disabled
  | .unmount => true
  | _ => false

def Interrupts (x : JoystickEntry) : Prop :=
  x.event.takesAway = true ∧ x.before.active = true

/-- The press state tells the truth: an active joystick is held, and one that
is not has come to rest. -/
structure Grips (l : JoystickLog) (j : Joystick) : Prop where
  held : j.active = true → j.Held ∧ HeldSincePress l
  rest : j.active = false → ∀ axes, lastMovement l = some axes → axes = .zero

section
variable {hypot} {j : Joystick} {l : JoystickLog} {x : JoystickEntry}

namespace Joystick

theorem movements_haptic (wasInDeadZone inside : Bool) :
    movements (haptic wasInDeadZone inside) = [] := by
  unfold haptic
  split <;> rfl

theorem movements_update (client : Point) (rect : Rect) (j : Joystick) :
    movements (update hypot client rect j).2 = [] := movements_haptic _ _

theorem Held.press (h : j.Held) (pointer : PointerId) : (j.press pointer).Held :=
  ⟨h.1, List.cons_ne_nil _ _⟩

end Joystick

theorem Grips.quiet (h : Grips l j) (hout : movements x.output = [])
    (hactive : x.after.active = j.active) (hheld : j.active = true → j.Held → x.after.Held) :
    Grips (x :: l) x.after := by
  have hlast : lastMovement (x :: l) = lastMovement l := latest_cons_of_nil hout
  refine ⟨fun ha => ?_, fun ha => ?_⟩
  · rw [hactive] at ha
    obtain ⟨hj, hsince⟩ := h.held ha
    have hx := hheld ha hj
    exact ⟨hx, .inr ⟨hx, hsince⟩⟩
  · rw [hlast]
    exact h.rest (hactive.symm.trans ha)

theorem Grips.rests (h : Grips (x :: l) x.after)
    (hdrive : ∀ axes ∈ movements x.output, axes = .zero ∨ x.after.active = true) : Rests x l where
  last := by
    cases ha : x.after.active with
    | true => exact .inl (h.held ha).1
    | false => exact .inr (h.rest ha)
  driving axes hmem := (hdrive axes hmem).imp_right fun ha => (h.held ha).2

theorem Grips.pointerDown (h : Grips l j) (pointer : PointerId) (captured : Bool) (client : Point)
    (rect : Rect) (disabled : Bool) :
    let x := (joystick hypot disabled).react j (.pointerDown pointer captured client rect)
    Grips (x :: l) x.after ∧ movements x.output = [] := by
  intro x
  by_cases hstart : ((j.press pointer).listens && captured) = true
  · have hx : (x.after, x.output) = Joystick.start hypot client rect (j.press pointer) :=
      if_pos hstart
    obtain ⟨hafter, hout⟩ := Prod.mk.inj hx
    have hlistens : j.listens = true := (Bool.and_eq_true_iff.mp hstart).1
    have hpress : Presses x := ⟨rfl, hlistens⟩
    have hheld : x.after.Held := by
      rw [hafter]
      exact ⟨hlistens, List.cons_ne_nil _ _⟩
    have hactive : x.after.active = true := by rw [hafter]
    refine ⟨⟨fun _ => ⟨hheld, .inl hpress⟩, fun ha => absurd (ha.symm.trans hactive) nofun⟩, ?_⟩
    exact (congrArg movements hout).trans (Joystick.movements_update client rect _)
  · have hx : (x.after, x.output) = (j.press pointer, []) := if_neg hstart
    obtain ⟨hafter, hout⟩ := Prod.mk.inj hx
    have hquiet : movements x.output = [] := by rw [hout]; rfl
    refine ⟨h.quiet hquiet (by rw [hafter]; rfl) fun _ hj => ?_, hquiet⟩
    rw [hafter]
    exact hj.press pointer

theorem Grips.pointerMove (h : Grips l j) (client : Point) (rect : Rect) (disabled : Bool) :
    let x := (joystick hypot disabled).react j (.pointerMove client rect)
    Grips (x :: l) x.after ∧ movements x.output = [] := by
  intro x
  by_cases hmove : (j.listens && j.active) = true
  · have hx : (x.after, x.output) = Joystick.update hypot client rect j := if_pos hmove
    obtain ⟨hafter, hout⟩ := Prod.mk.inj hx
    have hquiet := (congrArg movements hout).trans (Joystick.movements_update client rect j)
    refine ⟨h.quiet hquiet (by rw [hafter]) fun _ hj => ?_, hquiet⟩
    rw [hafter]
    exact hj
  · have hx : (x.after, x.output) = (j, []) := if_neg hmove
    obtain ⟨hafter, hout⟩ := Prod.mk.inj hx
    have hquiet : movements x.output = [] := by rw [hout]; rfl
    refine ⟨h.quiet hquiet (by rw [hafter]) fun _ hj => ?_, hquiet⟩
    rw [hafter]
    exact hj

theorem Grips.pointerUp (h : Grips l j) (pointer : PointerId)
    (hx : (x.after, x.output) = (j.release pointer).onPointerUp) :
    Grips (x :: l) x.after ∧ ∀ axes ∈ movements x.output, axes = .zero := by
  by_cases hlistens : j.listens = true
  · obtain ⟨hafter, hout⟩ := Prod.mk.inj (hx.trans (if_pos hlistens))
    have hzero : movements x.output = [.zero] := by rw [hout]; rfl
    refine ⟨⟨fun ha => ?_, fun _ axes haxes => ?_⟩, fun axes hmem => ?_⟩
    · rw [hafter] at ha
      exact absurd ha nofun
    · have hlast : lastMovement (x :: l) = some .zero :=
        latest_cons_of_getLast (congrArg List.getLast? hzero)
      exact Option.some.inj (haxes.symm.trans hlast)
    · rw [hzero] at hmem
      exact List.mem_singleton.mp hmem
  · -- without a handler there was no press to end
    have hactive : j.active = false := by
      by_contra ha
      exact hlistens (h.held (Bool.eq_true_of_not_eq_false ha)).1.1
    obtain ⟨hafter, hout⟩ := Prod.mk.inj (hx.trans (if_neg hlistens))
    have hquiet : movements x.output = [] := by rw [hout]; rfl
    refine ⟨h.quiet hquiet (by rw [hafter]; rfl) fun ha => ?_, fun axes hmem => ?_⟩
    · exact absurd (ha.symm.trans hactive) nofun
    · rw [hquiet] at hmem
      exact absurd hmem List.not_mem_nil

theorem Grips.takeAway (h : Grips l j) (hactive : j.active = false) (hout : x.output = [])
    (hafter : x.after.active = j.active) :
    Grips (x :: l) x.after := by
  refine h.quiet (by rw [hout]; rfl) hafter fun ha => ?_
  exact absurd (ha.symm.trans hactive) nofun

theorem Grips.step (h : Grips l j) (disabled : Bool) (e : JoystickEvent)
    (hcalm : ¬ Interrupts ((joystick hypot disabled).react j e)) :
    let x := (joystick hypot disabled).react j e
    Grips (x :: l) x.after ∧ Rests x l := by
  intro x
  suffices hnext : Grips (x :: l) x.after ∧
      ∀ axes ∈ movements x.output, axes = .zero ∨ x.after.active = true from
    ⟨hnext.1, hnext.1.rests hnext.2⟩
  have hsilent (hgrips : Grips (x :: l) x.after) (hout : movements x.output = []) :
      Grips (x :: l) x.after ∧ ∀ axes ∈ movements x.output, axes = .zero ∨ x.after.active = true := by
    refine ⟨hgrips, fun axes hmem => ?_⟩
    rw [hout] at hmem
    exact absurd hmem List.not_mem_nil
  cases e with
  | pointerDown pointer captured client rect =>
    obtain ⟨hgrips, hout⟩ := h.pointerDown pointer captured client rect disabled
    exact hsilent hgrips hout
  | pointerMove client rect =>
    obtain ⟨hgrips, hout⟩ := h.pointerMove client rect disabled
    exact hsilent hgrips hout
  | pointerUp pointer =>
    obtain ⟨hgrips, hzero⟩ := h.pointerUp (x := x) pointer rfl
    exact ⟨hgrips, fun axes hmem => .inl (hzero axes hmem)⟩
  | pointerCancel pointer =>
    obtain ⟨hgrips, hzero⟩ := h.pointerUp (x := x) pointer rfl
    exact ⟨hgrips, fun axes hmem => .inl (hzero axes hmem)⟩
  | setDisabled value =>
    cases value with
    | true =>
      have hactive : j.active = false := by simpa using fun ha => hcalm ⟨rfl, ha⟩
      exact hsilent (h.takeAway hactive rfl rfl) rfl
    | false =>
      refine hsilent (h.quiet rfl rfl fun _ hj => ?_) rfl
      have hmounted : j.mounted = true := (Bool.and_eq_true_iff.mp hj.1).1
      exact ⟨Bool.and_eq_true_iff.mpr ⟨hmounted, rfl⟩, hj.2⟩
  | tick =>
    by_cases hon : (j.mounted && j.active) = true
    · have hactive : j.active = true := (Bool.and_eq_true_iff.mp hon).2
      obtain ⟨hheld, hsince⟩ := h.held hactive
      refine ⟨⟨fun _ => ⟨hheld, .inr ⟨hheld, hsince⟩⟩, fun ha => ?_⟩, fun _ _ => .inr hactive⟩
      exact absurd (hactive.symm.trans ha) nofun
    · have hout : x.output = [] := if_neg hon
      exact hsilent (h.quiet (by rw [hout]; rfl) rfl fun _ hj => hj) (by rw [hout]; rfl)
  | unmount =>
    have hactive : j.active = false := by simpa using fun ha => hcalm ⟨rfl, ha⟩
    exact hsilent (h.takeAway hactive rfl rfl) rfl

end

/-- As long as no press is interrupted, the joystick rests whenever it is not held. -/
theorem rests_unless_interrupted (disabled : Bool) (es : List JoystickEvent)
    (h : Always (fun x _ => ¬ Interrupts x) ((joystick hypot disabled).log es)) :
    Always Rests ((joystick hypot disabled).log es) := by
  refine System.always_of_invariant
    (fun l => Grips l ((joystick hypot disabled).state l)) ⟨nofun, fun _ => nofun⟩ ?_ es h
  intro past e hgrips hcalm
  exact hgrips.step disabled e hcalm

/-- A 112 px square at the origin; the second point is the top of the ring. -/
private def pad : Rect := ⟨0, 0, 112, 112⟩

private def drag : List JoystickEvent :=
  [.tick, .pointerMove ⟨56, 0⟩ pad, .pointerDown 1 true ⟨56, 56⟩ pad]

/-- `Math.hypot` on the axes. -/
private def axialHypot (x y : ℚ) : ℚ := |x| + |y|

theorem rests_after_release :
    Always Rests
      ((joystick axialHypot false).log ([.setDisabled true, .tick, .pointerUp 1] ++ drag)) := by
  refine rests_unless_interrupted axialHypot false _ ⟨?_, ?_, ?_, ?_, ?_, ?_, trivial⟩
  -- the pointer has gone up before the joystick is disabled
  · exact fun h => absurd h.2 (by decide)
  all_goals exact fun h => absurd h.1 nofun

/-- Safe mode takes the handlers away in the middle of a drag; the release
passes unseen and the interval drives on, also after the recovery. Newest first. -/
def interruptedDrag : List JoystickEvent :=
  [.tick, .setDisabled false, .pointerUp 1, .setDisabled true] ++ drag

theorem interrupted_drag_drives :
    ¬ Always Rests ((joystick axialHypot false).log interruptedDrag) := by
  intro h
  have hfull : lastMovement ((joystick axialHypot false).log interruptedDrag) = some ⟨1, 0, 0⟩ := by
    decide +kernel
  rcases h.1.last with hheld | hzero
  · exact hheld.2 rfl
  · exact absurd (hzero _ hfull) (by decide)

end Rvep.Cockpit
