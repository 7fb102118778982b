import Mathlib.Algebra.Order.Group.Abs
import Rvep.Lib.Reactive
import Rvep.Cockpit.ControlChannel

/-!
# The gamepad

`apps/web/src/lib/hooks/useGamepad.ts`, while it is enabled and has a channel:
every animation frame polls the pad, and at most every 33 ms the sticks become a
movement. A movement of three zeros is never sent.
-/

namespace Rvep.Cockpit

open Reactive

def DEAD_ZONE : ℚ := 1 / 10
def SEND_THROTTLE_MS : ℚ := 33

/-- A `Gamepad` of the browser, its buttons by whether they are pressed. -/
structure Pad where
  name : String
  connected : Bool
  axes : List ℚ
  buttons : List Bool

/-- What an animation frame finds; an entry of `getGamepads()` may be null. -/
structure Frame where
  pads : List (Option Pad)
  performanceNow : ℚ
  instant : Instant

structure GamepadState where
  connected : Bool
  gamepadName : String
  axes : ℚ × ℚ × ℚ × ℚ

/-- The hook's state and refs, and its channel. -/
structure UseGamepad where
  state : GamepadState
  lastSend : ℚ
  lastBtn1 : Bool
  channel : ControlChannel

def Frame.pad? (f : Frame) : Option Pad :=
  (f.pads.find? fun p => p.any (·.connected)).join

/-- `gp.axes[i] ?? 0` -/
def Pad.axis (i : Nat) (gp : Pad) : ℚ := gp.axes.getD i 0

/-- The dead zone and the signs: the stick's axes fall as it goes up or left. -/
def Pad.movement (gp : Pad) : Axes where
  forward := if DEAD_ZONE < |gp.axis 1| then -gp.axis 1 else 0
  lateral := if DEAD_ZONE < |gp.axis 0| then gp.axis 0 else 0
  yaw := if DEAD_ZONE < |gp.axis 2| then -gp.axis 2 else 0

namespace UseGamepad

def throttleOpen (now : ℚ) (g : UseGamepad) : Bool := decide (SEND_THROTTLE_MS ≤ now - g.lastSend)

/-- The movement of a frame, if the throttle is open. -/
def sendAxes (f : Frame) (gp : Pad) (g : UseGamepad) : UseGamepad × List Publication :=
  if g.throttleOpen f.performanceNow then
    let g := { g with lastSend := f.performanceNow }
    let axes := gp.movement
    if axes.forward ≠ 0 ∨ axes.yaw ≠ 0 ∨ axes.lateral ≠ 0 then
      let (channel, sent) := g.channel.sendMovement f.instant axes
      ({ g with channel := channel }, [sent])
    else (g, [])
  else (g, [])

/-- The emergency stop on the rising edge of button 1. -/
def sendButton (f : Frame) (gp : Pad) (g : UseGamepad) : UseGamepad × List Publication :=
  let btn1 := gp.buttons.getD 1 false
  if btn1 && !g.lastBtn1 then
    let (channel, sent) := g.channel.sendEmergencyStop f.instant
    ({ g with channel := channel, lastBtn1 := btn1 }, [sent])
  else ({ g with lastBtn1 := btn1 }, [])

def tick (g : UseGamepad) (f : Frame) : UseGamepad × List Publication :=
  match f.pad? with
  | none => ({ g with state := { g.state with connected := false } }, [])
  | some gp =>
    let g := { g with
      state :=
        { connected := true, gamepadName := gp.name
          axes := (gp.axis 0, gp.axis 1, gp.axis 2, gp.axis 3) } }
    let (g, moved) := sendAxes f gp g
    let (g, stopped) := sendButton f gp g
    (g, moved ++ stopped)

end UseGamepad

/-- The hook from the moment it is enabled; its refs are as they were left. -/
def gamepad (start : UseGamepad) : System UseGamepad Frame (List Publication) where
  init := start
  step := UseGamepad.tick

-- ---------------------------------------------------------------------------
-- Movements
-- ---------------------------------------------------------------------------

abbrev GamepadEntry := Entry UseGamepad Frame (List Publication)
abbrev GamepadLog := Log UseGamepad Frame (List Publication)

def Publication.movement? (p : Publication) : Option Axes :=
  match p.payload.body with
  | .movement axes => some axes
  | _ => none

def movementsSent (x : GamepadEntry) : List Axes := x.output.filterMap Publication.movement?

def lastSent : GamepadLog → Option Axes := latest movementsSent

/-- A driven axis is out of the dead zone. -/
def Pad.OutOfZone (gp : Pad) : Prop :=
  DEAD_ZONE < |gp.axis 0| ∨ DEAD_ZONE < |gp.axis 1| ∨ DEAD_ZONE < |gp.axis 2|

instance (gp : Pad) : Decidable gp.OutOfZone := inferInstanceAs (Decidable (_ ∨ _ ∨ _))

/-- A connected pad has the three driven axes within the dead zone. -/
def Centred (x : GamepadEntry) : Prop :=
  ∃ gp, x.event.pad? = some gp ∧ |gp.axis 0| ≤ DEAD_ZONE ∧ |gp.axis 1| ≤ DEAD_ZONE ∧
    |gp.axis 2| ≤ DEAD_ZONE

/-- The throttle is open at the poll. -/
def Opens (x : GamepadEntry) : Prop := x.before.throttleOpen x.event.performanceNow = true

/-- At a poll with an open throttle a driven axis is out of the dead zone. -/
def Drives (x : GamepadEntry) : Prop :=
  Opens x ∧ ∃ gp, x.event.pad? = some gp ∧ gp.OutOfZone

/-- The sticks have stayed in the dead zone since a poll with an open throttle. -/
def Released : GamepadLog → Prop :=
  Since (fun y _ => Centred y) fun y _ => Centred y ∧ Opens y

/-- A released stick has stopped the vehicle. -/
def StopsReleased (x : GamepadEntry) (past : GamepadLog) : Prop :=
  Released (x :: past) → ∀ axes, lastSent (x :: past) = some axes → axes = .zero

/-- Nothing had driven the vehicle when the stick was released. -/
def ReleasedAtRest (x : GamepadEntry) (past : GamepadLog) : Prop :=
  Released (x :: past) → ¬ Once (fun y _ => Drives y) (x :: past)

-- ---------------------------------------------------------------------------
-- What a poll sends
-- ---------------------------------------------------------------------------

section
variable {start g : UseGamepad} {f : Frame} {gp : Pad} {l : GamepadLog}

theorem ne_zero_of_outOfZone {q : ℚ} (h : DEAD_ZONE < |q|) : q ≠ 0 := by
  rintro rfl
  rw [abs_zero] at h
  exact absurd h (by decide +kernel)

theorem Pad.movement_ne_zero :
    (gp.movement.forward ≠ 0 ∨ gp.movement.yaw ≠ 0 ∨ gp.movement.lateral ≠ 0) ↔ gp.OutOfZone := by
  have out (i : Nat) : DEAD_ZONE < |gp.axis i| → gp.axis i ≠ 0 := ne_zero_of_outOfZone
  simp only [movement, OutOfZone, ne_eq, ite_eq_right_iff, neg_eq_zero, Classical.not_imp]
  constructor
  · rintro (⟨h, -⟩ | ⟨h, -⟩ | ⟨h, -⟩)
    · exact .inr (.inl h)
    · exact .inr (.inr h)
    · exact .inl h
  · rintro (h | h | h)
    · exact .inr (.inr ⟨h, out 0 h⟩)
    · exact .inl ⟨h, out 1 h⟩
    · exact .inr (.inl ⟨h, out 2 h⟩)

theorem movements_sendButton (f : Frame) (gp : Pad) (g : UseGamepad) :
    (g.sendButton f gp).2.filterMap Publication.movement? = [] := by
  unfold UseGamepad.sendButton
  simp only
  split <;> rfl

theorem movements_sendAxes (f : Frame) (gp : Pad) (g : UseGamepad) :
    (g.sendAxes f gp).2.filterMap Publication.movement? =
      if g.throttleOpen f.performanceNow = true ∧ gp.OutOfZone then [gp.movement] else [] := by
  unfold UseGamepad.sendAxes
  by_cases hopen : g.throttleOpen f.performanceNow = true
  · by_cases hout : gp.OutOfZone
    · simp only [hopen, if_true, if_pos (Pad.movement_ne_zero.mpr hout), hout, and_self]
      rfl
    · simp only [hopen, if_true, if_neg (mt Pad.movement_ne_zero.mp hout), hout, and_false, if_false]
      rfl
  · simp [hopen]

/-- A poll sends a movement just when it drives, and never the zero movement. -/
structure SendsWhenDriving (x : GamepadEntry) : Prop where
  driving : Drives x → movementsSent x ≠ []
  moving : ∀ axes ∈ movementsSent x, Drives x ∧ axes ≠ .zero

theorem tick_sends (start g : UseGamepad) (f : Frame) :
    SendsWhenDriving ((gamepad start).react g f) := by
  cases hpad : f.pad? with
  | none =>
    have hout : movementsSent ((gamepad start).react g f) = [] := by
      simp [movementsSent, gamepad, UseGamepad.tick, hpad]
    refine ⟨fun ⟨_, gp, hgp, _⟩ => ?_, fun axes hmem => ?_⟩
    · cases hpad.symm.trans hgp
    · rw [hout] at hmem
      cases hmem
  | some gp =>
    have hout : movementsSent ((gamepad start).react g f) =
        if g.throttleOpen f.performanceNow = true ∧ gp.OutOfZone then [gp.movement] else [] := by
      simp only [movementsSent, gamepad, System.react_output, UseGamepad.tick, hpad,
        List.filterMap_append, movements_sendButton, movements_sendAxes, List.append_nil]
      rfl
    refine ⟨fun ⟨hopen, gp', hgp, hzone⟩ => ?_, fun axes hmem => ?_⟩
    · cases hpad.symm.trans hgp
      rw [hout, if_pos ⟨hopen, hzone⟩]
      exact List.cons_ne_nil _ _
    · rw [hout] at hmem
      split at hmem
      next h =>
        cases List.mem_singleton.mp hmem
        refine ⟨⟨h.1, gp, hpad, h.2⟩, fun hzero => ?_⟩
        rcases Pad.movement_ne_zero.mpr h.2 with hne | hne | hne <;> exact hne (by rw [hzero]; rfl)
      next => cases hmem

-- ---------------------------------------------------------------------------
-- What a run has sent
-- ---------------------------------------------------------------------------

theorem lastSent_ne_zero (h : Always (fun x _ => SendsWhenDriving x) l) {axes : Axes}
    (hlast : lastSent l = some axes) : axes ≠ .zero ∧ Once (fun y _ => Drives y) l := by
  have hsent := Since.and_always (once_of_latest hlast) h
  refine ⟨?_, hsent.imp (fun _ _ _ => trivial) fun _ _ hy => (hy.2.moving axes hy.1).1⟩
  induction l with
  | nil => cases hsent
  | cons x past ih =>
    rcases Option.or_eq_some_iff.mp hlast with hx | ⟨-, hpast⟩
    · exact (h.1.moving axes (List.mem_of_getLast? hx)).2
    · exact ih h.2 hpast (Since.and_always (once_of_latest hpast) h.2)

theorem lastSent_of_drives (h : Always (fun x _ => SendsWhenDriving x) l)
    (hdrives : Once (fun y _ => Drives y) l) : ∃ axes, lastSent l = some axes :=
  latest_of_once ((Since.and_always hdrives h).imp (fun _ _ _ => trivial)
    fun _ _ hy => hy.2.driving hy.1)

/-- A released stick has stopped the vehicle just when nothing had moved it. -/
theorem stopsReleased_iff {x : GamepadEntry} {past : GamepadLog}
    (h : Always (fun x _ => SendsWhenDriving x) (x :: past)) :
    StopsReleased x past ↔ ReleasedAtRest x past := by
  constructor
  · intro hstops hreleased hdrives
    obtain ⟨axes, hlast⟩ := lastSent_of_drives h hdrives
    exact (lastSent_ne_zero h hlast).1 (hstops hreleased axes hlast)
  · intro hrest hreleased axes hlast
    exact absurd (lastSent_ne_zero h hlast).2 (hrest hreleased)

end

/-- Released sticks stop the vehicle in exactly those runs in which, whenever
they are released, no poll has driven it before. -/
theorem stops_released_iff (start : UseGamepad) (es : List Frame) :
    Always StopsReleased ((gamepad start).log es) ↔ Always ReleasedAtRest ((gamepad start).log es) := by
  refine System.always_iff (fun l => Always (fun x _ => SendsWhenDriving x) l) trivial
    (fun past f hsends => ?_) es
  have hnext : Always (fun x _ => SendsWhenDriving x)
      ((gamepad start).react ((gamepad start).state past) f :: past) :=
    ⟨tick_sends start _ f, hsends⟩
  exact ⟨stopsReleased_iff hnext, fun _ => hnext⟩

/-- The left stick at `ly`, at time `t`. -/
private def stickAt (ly t : ℚ) : Frame where
  pads := [none, some ⟨"Xbox Wireless Controller", true, [0, ly, 0, 0], []⟩]
  performanceNow := t
  instant := ⟨1779096600000, ⟨"2026-05-18T09:30:00.000Z", by decide⟩⟩

private def justEnabled : UseGamepad where
  state := ⟨false, "", 0, 0, 0, 0⟩
  lastSend := 0
  lastBtn1 := false
  channel := .new ⟨"r2-001", "web-1779096600000", 1, by decide, by decide⟩

/-- The stick is pushed up and let go; no zero follows. -/
theorem released_stick_drives_on :
    ∃ es, ¬ Always StopsReleased ((gamepad justEnabled).log es) := by
  refine ⟨[stickAt 0 200, stickAt (-1) 100], fun h => ?_⟩
  have hlast : lastSent ((gamepad justEnabled).log [stickAt 0 200, stickAt (-1) 100]) =
      some ⟨1, 0, 0⟩ := by decide +kernel
  have hcentred : Centred ((gamepad justEnabled).react
      ((gamepad justEnabled).state ((gamepad justEnabled).log [stickAt (-1) 100]))
      (stickAt 0 200)) :=
    ⟨_, rfl, by decide +kernel, by decide +kernel, by decide +kernel⟩
  have hopen : Opens ((gamepad justEnabled).react
      ((gamepad justEnabled).state ((gamepad justEnabled).log [stickAt (-1) 100]))
      (stickAt 0 200)) := by
    unfold Opens
    decide +kernel
  exact absurd (h.1 (.inl ⟨hcentred, hopen⟩) _ hlast) (by decide)

end Rvep.Cockpit
