import Mathlib.Algebra.Order.Ring.Abs
import Mathlib.Tactic.NormNum
import Rvep.R2Bridge.Stops

/-!
# Speed limits

The adapter scales axes that its docstring takes to be normalised, and the
bridge passes on what `float()` reads from the packet. A Twist keeps within the
limits just when the operator's page has kept the axes in range.
-/

namespace Rvep.R2Bridge

-- ---------------------------------------------------------------------------
-- Limits
-- ---------------------------------------------------------------------------

def PyFloat.Within (limit : ℚ) : PyFloat → Prop
  | .finite q => |q| ≤ limit
  | .inf _ => False
  | .nan => False

instance (limit : ℚ) : (x : PyFloat) → Decidable (x.Within limit)
  | .finite q => inferInstanceAs (Decidable (|q| ≤ limit))
  | .inf _ => inferInstanceAs (Decidable False)
  | .nan => inferInstanceAs (Decidable False)

/-- `|linear.x|` and `|linear.y|` within one limit, `|angular.z|` within the other. -/
structure Twist.Within (linear angular : ℚ) (msg : Twist) : Prop where
  x : msg.linear.x.Within linear
  y : msg.linear.y.Within linear
  z : msg.angular.z.Within angular

/-- Every Twist that is published keeps within the limits. -/
def TwistsWithin (linear angular : ℚ) (out : List Effect) : Prop :=
  ∀ topic msg, .twist topic msg ∈ out → msg.Within linear angular

/-- An axis that its limit can scale: a number from -1 to 1, or any number
where the limit is 0. -/
def PyFloat.Normalised (limit : ℚ) : PyFloat → Prop
  | .finite q => |q| ≤ 1 ∨ limit = 0
  | .inf _ => False
  | .nan => False

-- ---------------------------------------------------------------------------
-- The axes of a packet
-- ---------------------------------------------------------------------------

/-- An axis of a packet, as `float()` reads it. -/
def axis (key : String) (cmd : PyValue) : Except PyError PyFloat := do
  let axes ← cmd.get "axes" .none
  let axes := if axes.truthy then axes else .dict []
  (← axes.get key (.int 0)).toFloat

/-- If all three axes of a movement can be read, each is normalised. -/
def NormalisedAxes (linear angular : ℚ) : Packet → Prop
  | .error _ => True
  | .ok cmd => Packet.kind? (.ok cmd) = some .movement → ∀ fwd lat yaw, axis "forward" cmd = .ok fwd →
      axis "lateral" cmd = .ok lat → axis "yaw" cmd = .ok yaw →
      fwd.Normalised linear ∧ lat.Normalised linear ∧ yaw.Normalised angular

theorem movementAxes_eq (cmd : PyValue) : movementAxes cmd = (do
    let fwd ← axis "forward" cmd
    let lat ← axis "lateral" cmd
    let yaw ← axis "yaw" cmd
    return (fwd, lat, yaw)) := by
  cases h : cmd.get "axes" .none with
  | error err => simp only [movementAxes, axis, h, bind, Except.bind]
  | ok axes =>
    have h : cmd.get "axes" .none = pure axes := h
    simp only [movementAxes, axis, h, pure_bind, bind_assoc]

theorem movementAxes_eq_ok {cmd : PyValue} {fwd lat yaw : PyFloat} :
    movementAxes cmd = .ok (fwd, lat, yaw) ↔
      axis "forward" cmd = .ok fwd ∧ axis "lateral" cmd = .ok lat ∧ axis "yaw" cmd = .ok yaw := by
  rw [movementAxes_eq]
  cases axis "forward" cmd <;> cases axis "lateral" cmd <;> cases axis "yaw" cmd <;>
    simp [bind, Except.bind, pure, Except.pure]

-- ---------------------------------------------------------------------------
-- Scaling
-- ---------------------------------------------------------------------------

/-- A limit scales an axis into its range just when the axis is normalised. -/
theorem PyFloat.mul_within {limit : ℚ} (h : 0 ≤ limit) (x : PyFloat) :
    (x.mul (.finite limit)).Within limit ↔ x.Normalised limit := by
  cases x with
  | nan => exact Iff.rfl
  | inf negative =>
    refine iff_of_false ?_ id
    simp only [mul]
    split <;> exact id
  | finite q =>
    change |q * limit| ≤ limit ↔ |q| ≤ 1 ∨ limit = 0
    rw [abs_mul, abs_of_nonneg h]
    rcases h.eq_or_lt with rfl | hpos
    · simp
    · rw [mul_le_iff_le_one_left hpos, or_iff_left (ne_of_gt hpos)]

theorem Twist.zero_within {linear angular : ℚ} (hl : 0 ≤ linear) (ha : 0 ≤ angular) :
    Twist.zero.Within linear angular where
  x := by simpa [Twist.zero, PyFloat.Within] using hl
  y := by simpa [Twist.zero, PyFloat.Within] using hl
  z := by simpa [Twist.zero, PyFloat.Within] using ha

theorem motorTopics_ne_nil (a : WheeltecAMRAdapter) : a.motorTopics ≠ [] := by
  unfold WheeltecAMRAdapter.motorTopics
  cases a.publishMode <;> simp

/-- What the adapter publishes for a movement is bounded just when the axes are
normalised. -/
theorem publishMovement_within (a : WheeltecAMRAdapter) {linear angular : ℚ} (hl : 0 ≤ linear)
    (ha : 0 ≤ angular) (hlinear : a.maxLinearMs = .finite linear)
    (hangular : a.maxAngularRads = .finite angular) (fwd lat yaw : PyFloat) :
    TwistsWithin linear angular (a.publishMovement fwd lat yaw) ↔
      fwd.Normalised linear ∧ lat.Normalised linear ∧ yaw.Normalised angular := by
  have hwithin : (a.twistOf fwd lat yaw).Within linear angular ↔
      fwd.Normalised linear ∧ lat.Normalised linear ∧ yaw.Normalised angular := by
    rw [← PyFloat.mul_within hl, ← PyFloat.mul_within hl, ← PyFloat.mul_within ha]
    simp only [WheeltecAMRAdapter.twistOf, hlinear, hangular]
    exact ⟨fun h => ⟨h.x, h.y, h.z⟩, fun ⟨hx, hy, hz⟩ => ⟨hx, hy, hz⟩⟩
  rw [← hwithin]
  constructor
  · intro h
    obtain ⟨topic, topics, htopics⟩ := List.exists_cons_of_ne_nil (motorTopics_ne_nil a)
    refine h topic _ (List.mem_map.mpr ⟨topic, ?_, rfl⟩)
    rw [htopics]
    exact List.mem_cons_self
  · intro h topic msg hmem
    obtain ⟨t, -, ht⟩ := List.mem_map.mp hmem
    cases ht
    exact h

-- ---------------------------------------------------------------------------
-- Packets
-- ---------------------------------------------------------------------------

section
variable {cfg : Config} {linear angular : ℚ}

theorem onMovement_within (hl : 0 ≤ linear) (ha : 0 ≤ angular)
    (hlinear : cfg.adapter.maxLinearMs = .finite linear)
    (hangular : cfg.adapter.maxAngularRads = .finite angular) (cmd : PyValue) :
    TwistsWithin linear angular (onMovement cfg cmd) ↔
      ∀ fwd lat yaw, axis "forward" cmd = .ok fwd → axis "lateral" cmd = .ok lat →
        axis "yaw" cmd = .ok yaw →
        fwd.Normalised linear ∧ lat.Normalised linear ∧ yaw.Normalised angular := by
  unfold onMovement
  split
  next err herr =>
    refine iff_of_true (fun topic msg hmem => ?_) fun fwd lat yaw hf hlat hy => ?_
    · cases List.mem_singleton.mp hmem
    · rw [movementAxes_eq_ok.mpr ⟨hf, hlat, hy⟩] at herr
      cases herr
  next fwd lat yaw haxes =>
    obtain ⟨hf, hlat, hy⟩ := movementAxes_eq_ok.mp haxes
    rw [publishMovement_within _ hl ha hlinear hangular]
    constructor
    · intro h fwd' lat' yaw' hf' hlat' hy'
      cases hf.symm.trans hf'
      cases hlat.symm.trans hlat'
      cases hy.symm.trans hy'
      exact h
    · exact fun h => h fwd lat yaw hf hlat hy

/-- Every Twist a packet causes keeps within the limits just when the packet is
no movement, or one whose axes cannot all be read or are all normalised. -/
theorem twists_within_iff (hl : 0 ≤ linear) (ha : 0 ≤ angular)
    (hlinear : cfg.adapter.maxLinearMs = .finite linear)
    (hangular : cfg.adapter.maxAngularRads = .finite angular) (r : Reading) (packet : Packet)
    (b : Bridge) :
    TwistsWithin linear angular (onData cfg r packet b).2 ↔ NormalisedAxes linear angular packet := by
  rcases onData_twists cfg r packet b with
    ⟨hkind, hout⟩ | ⟨hkind, cmd, rfl, hout⟩ | ⟨-, hmove, hquiet⟩
  · rw [hout]
    refine iff_of_true (fun topic msg hmem => ?_) ?_
    · rw [zero_of_publishEmergencyStop hmem]
      exact Twist.zero_within hl ha
    · cases packet with
      | error err => trivial
      | ok cmd => exact fun hmoves => by cases hkind.symm.trans hmoves
  · rw [hout, onMovement_within hl ha hlinear hangular]
    exact ⟨fun h _ => h, fun h => h hkind⟩
  · refine iff_of_true (fun topic msg hmem => absurd hmem (hquiet.not_mem topic msg)) ?_
    cases packet with
    | error err => trivial
    | ok cmd => exact fun hmoves => absurd hmoves hmove

end

/-- Full stick on every axis, as the page sends it. -/
private def fullStick : Packet :=
  .ok (.dict [("type", .str "movement"),
    ("axes", .dict [("forward", .int 1), ("lateral", .int (-1)), ("yaw", .str "1.0")])])

private theorem fullStick_normalised : NormalisedAxes (3 / 10) (4 / 5) fullStick := by
  intro _ fwd lat yaw hf hlat hy
  cases (show axis "forward" _ = .ok (.finite 1) by decide +kernel).symm.trans hf
  cases (show axis "lateral" _ = .ok (.finite (-1)) by decide +kernel).symm.trans hlat
  cases (show axis "yaw" _ = .ok (.finite 1) by decide +kernel).symm.trans hy
  exact ⟨.inl (by norm_num), .inl (by norm_num), .inl (by norm_num)⟩

theorem full_stick_within : TwistsWithin (3 / 10) (4 / 5) (onData r2 ⟨0, 0⟩ fullStick {}).2 :=
  (@twists_within_iff r2 _ _ (by norm_num) (by norm_num) rfl rfl ⟨0, 0⟩ fullStick {}).mpr
    fullStick_normalised

/-- Twenty times full stick, as a number and as a string. -/
theorem axes_unchecked :
    ∃ packet, ¬ TwistsWithin (3 / 10) (4 / 5) (onData r2 ⟨0, 0⟩ packet {}).2 := by
  refine ⟨.ok (.dict [("type", .str "movement"),
      ("axes", .dict [("forward", .int 20), ("yaw", .str "-20")])]), fun h => ?_⟩
  have hdrives := h .cmdVel { linear := { x := .finite 6 }, angular := { z := .finite (-16) } }
    (by decide +kernel)
  exact absurd hdrives.x (by decide +kernel)

end Rvep.R2Bridge
