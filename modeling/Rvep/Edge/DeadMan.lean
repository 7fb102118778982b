import Rvep.Edge.Laws

/-!
# The heartbeat contract over runs

Nothing the edge agent makes the vehicle do is older than its authority: an
execution is covered by a resume that no entry into safe mode has revoked, and
by a heartbeat recent enough for the watcher not to have stopped the vehicle.
-/

namespace Rvep.Edge

open Reactive

abbrev EdgeEntry := Entry Agent Stamped (List Effect)
abbrev EdgeLog := Log Agent Stamped (List Effect)

variable (vehicle : VehicleId)

def entryMs (x : EdgeEntry) : Int := x.event.clock.nowMs

def nowMs (start : Int) : EdgeLog → Int
  | [] => start
  | x :: _ => entryMs x

def Clocked (start : Int) (x : EdgeEntry) (past : EdgeLog) : Prop := nowMs start past ≤ entryMs x

def Beats (x : EdgeEntry) : Prop := acceptsHeartbeat vehicle x.before x.event = true

def Resumes (x : EdgeEntry) : Prop := acceptsResume vehicle x.before x.event = true

instance (start : Int) (x : EdgeEntry) (past : EdgeLog) : Decidable (Clocked start x past) :=
  inferInstanceAs (Decidable (_ ≤ _))
instance (x : EdgeEntry) : Decidable (Beats vehicle x) := inferInstanceAs (Decidable (_ = _))
instance (x : EdgeEntry) : Decidable (Resumes vehicle x) := inferInstanceAs (Decidable (_ = _))

def LastBeatAt (t : Int) : EdgeLog → Prop :=
  Since (fun z _ => ¬ Beats vehicle z) (fun z _ => Beats vehicle z ∧ entryMs z = t)

/-- A resume was accepted while a heartbeat was at most 1000 ms old, and safe
mode has not been entered since. -/
def Authorised : EdgeLog → Prop :=
  Since (fun y _ => entersSafeMode y.output = false) fun y earlier =>
    Resumes vehicle y ∧ Once (fun z _ => Beats vehicle z ∧ entryMs y - entryMs z ≤ 1000) earlier

/-- The agent's memory of the run: what its clock and mode say about the log. -/
structure Remembers (start : Int) (l : EdgeLog) (a : Agent) : Prop where
  late : 1000 < nowMs start l
  beat : a.state.lastHeartbeatAt = 0 ∨
    1000 < a.state.lastHeartbeatAt ∧ LastBeatAt vehicle a.state.lastHeartbeatAt l
  past : a.state.lastHeartbeatAt ≤ nowMs start l
  authorised : a.state.safeMode = false → Authorised vehicle l

section
variable {vehicle} {start : Int} (sessionId : String)

theorem remembers_boot (hs : 1000 < start) : Remembers vehicle start [] (Agent.boot sessionId) where
  late := hs
  beat := .inl rfl
  past := by simp [Agent.boot, nowMs]; omega
  authorised := by simp [Agent.boot]

/-- The clock lies past 1000 ms, so the sentinel 0 never looks fresh. -/
theorem Remembers.beat_of_fresh {l : EdgeLog} {a : Agent} {now : Int}
    (h : Remembers vehicle start l a) (hn : nowMs start l ≤ now)
    (hfresh : now - a.state.lastHeartbeatAt ≤ 1000) :
    1000 < a.state.lastHeartbeatAt ∧ LastBeatAt vehicle a.state.lastHeartbeatAt l := by
  rcases h.beat with h0 | hb
  · have := h.late
    omega
  · exact hb

theorem Remembers.beat_step {l : EdgeLog} {a : Agent} {e : Stamped}
    (h : Remembers vehicle start l a) (hn : nowMs start l ≤ e.clock.nowMs) :
    let x := (agent vehicle sessionId).react a e
    x.after.state.lastHeartbeatAt = 0 ∨
      1000 < x.after.state.lastHeartbeatAt ∧
        LastBeatAt vehicle x.after.state.lastHeartbeatAt (x :: l) := by
  intro x
  have hlast : x.after.state.lastHeartbeatAt = _ := (step_spec vehicle a e).last
  by_cases hbeat : acceptsHeartbeat vehicle a e = true
  · rw [if_pos hbeat] at hlast
    exact .inr ⟨hlast ▸ lt_of_lt_of_le h.late hn, .inl ⟨hbeat, hlast.symm⟩⟩
  · rw [if_neg hbeat] at hlast
    rw [hlast]
    exact h.beat.imp id fun hb => ⟨hb.1, .inr ⟨hbeat, hb.2⟩⟩

theorem fresh_of_resumes {a : Agent} {e : Stamped} (h : acceptsResume vehicle a e = true) :
    e.clock.nowMs - a.state.lastHeartbeatAt ≤ 1000 := by
  simp only [acceptsResume, Bool.and_eq_true, Bool.not_eq_true', decide_eq_false_iff_not] at h
  exact not_lt.mp h.2

theorem Authorised.step {l : EdgeLog} {a : Agent} {e : Stamped}
    (h : Remembers vehicle start l a) (hn : nowMs start l ≤ e.clock.nowMs) :
    let x := (agent vehicle sessionId).react a e
    x.after.state.safeMode = false → Authorised vehicle (x :: l) := by
  intro x hsafe
  rcases (step_spec vehicle a e).change with
    ⟨hres, -, -, -⟩ | ⟨htrue, -⟩ | ⟨hmode, henters, -⟩
  · have hfresh := fresh_of_resumes hres
    refine .inl ⟨hres, (h.beat_of_fresh hn hfresh).2.once.imp (fun _ _ _ => trivial) ?_⟩
    rintro z _ ⟨hz, hat⟩
    exact ⟨hz, by rw [hat]; exact hfresh⟩
  · exact absurd (hsafe.symm.trans htrue) (by decide)
  · exact .inr ⟨henters, h.authorised (hmode.symm.trans hsafe)⟩

theorem Remembers.step {l : EdgeLog} {a : Agent} {e : Stamped} (h : Remembers vehicle start l a)
    (hn : nowMs start l ≤ e.clock.nowMs) :
    let x := (agent vehicle sessionId).react a e
    Remembers vehicle start (x :: l) x.after := by
  intro x
  have hlast : x.after.state.lastHeartbeatAt = _ := (step_spec vehicle a e).last
  refine ⟨lt_of_lt_of_le h.late hn, h.beat_step sessionId hn, ?_, Authorised.step sessionId h hn⟩
  rw [hlast]
  show (if _ then _ else _) ≤ e.clock.nowMs
  split
  · exact le_refl _
  · exact h.past.trans hn

end

/-- Every movement or action the agent executes was preceded by a
`resume_control` accepted after the latest entry into safe mode, and a
heartbeat had been accepted at most 1000 ms before that acceptance. -/
theorem execution_authorised (sessionId : String) (start : Int) (hs : 1000 < start)
    (es : List Stamped) (h : Always (Clocked start) ((agent vehicle sessionId).log es)) :
    Always (fun x past => executes x.output = true → Authorised vehicle past)
      ((agent vehicle sessionId).log es) := by
  refine System.always_of_invariant
    (fun l => Remembers vehicle start l ((agent vehicle sessionId).state l))
    (remembers_boot sessionId hs) ?_ es h
  intro past e hinv hclock
  refine ⟨hinv.step sessionId hclock, ?_⟩
  intro hexec
  rcases (step_spec vehicle ((agent vehicle sessionId).state past) e).change with
    ⟨-, -, -, hno⟩ | ⟨-, hno⟩ | ⟨-, -, hsafe⟩
  · exact absurd (hexec.symm.trans hno) (by decide)
  · exact absurd (hexec.symm.trans hno) (by decide)
  · exact hinv.authorised (hsafe hexec)

private def driveBase (epoch seq : Nat) : BaseFields where
  vehicleId := "vehicle-001"
  sessionId := "web-1"
  connectionEpoch := epoch
  seq := seq
  timestamp := "2026-05-22T08:00:00.000Z"

/-- A heartbeat, a resume 100 ms later, then a movement; newest first. -/
def drive : List Stamped :=
  [⟨⟨2200, 0⟩, .command ⟨driveBase 7 3, .movement ⟨1, 0, 0⟩⟩⟩,
   ⟨⟨2100, 0⟩, .command ⟨driveBase 7 2, .resumeControl "operator_confirmed"⟩⟩,
   ⟨⟨2000, 0⟩, .command ⟨driveBase 7 1, .heartbeat⟩⟩]

theorem execution_authorised_drive :
    ∃ x past, (agent "vehicle-001" "edge-1").log drive = x :: past ∧
      executes x.output = true ∧ Authorised "vehicle-001" past :=
  ⟨_, _, rfl, by decide,
    (execution_authorised "vehicle-001" "edge-1" 1500 (by decide) drive (by decide)).1 (by decide)⟩

-- ---------------------------------------------------------------------------
-- The dead-man bound
-- ---------------------------------------------------------------------------

def Event.isTick : Event → Bool
  | .tick => true
  | _ => false

def lastTickMs (start : Int) : EdgeLog → Int
  | [] => start
  | x :: past => if x.event.event.isTick then entryMs x else lastTickMs start past

def Punctual (start : Int) (x : EdgeEntry) (past : EdgeLog) : Prop :=
  Clocked start x past ∧ entryMs x ≤ lastTickMs start past + heartbeatCheckIntervalMs

instance (start : Int) (x : EdgeEntry) (past : EdgeLog) : Decidable (Punctual start x past) :=
  inferInstanceAs (Decidable (_ ∧ _))

def executesMovement (out : List Effect) : Bool :=
  out.any fun
    | .movement _ => true
    | _ => false

theorem executes_of_movement {out : List Effect} (h : executesMovement out = true) :
    executes out = true := by
  simp only [executesMovement, executes, List.any_eq_true] at h ⊢
  obtain ⟨f, hf, hm⟩ := h
  refine ⟨f, hf, ?_⟩
  cases f <;> simp_all [Effect.isExecution]

def Covered (x : EdgeEntry) : EdgeLog → Prop :=
  Once fun z _ => Beats vehicle z ∧ entryMs x - 3500 ≤ entryMs z ∧ entryMs z ≤ entryMs x

def Fresh (x : EdgeEntry) : EdgeLog → Prop :=
  Since (fun z _ => ¬ Beats vehicle z) fun z _ =>
    Beats vehicle z ∧ entryMs x - entryMs z ≤ heartbeatTimeoutMs

/-- Out of safe mode, the last heartbeat is at most 3000 ms older than the last tick. -/
structure Watched (start : Int) (l : EdgeLog) (a : Agent) : Prop where
  remembers : Remembers vehicle start l a
  ticked : lastTickMs start l ≤ nowMs start l
  age : a.state.safeMode = false →
    1000 < a.state.lastHeartbeatAt ∧ LastBeatAt vehicle a.state.lastHeartbeatAt l ∧
      lastTickMs start l - heartbeatTimeoutMs ≤ a.state.lastHeartbeatAt

section
variable {vehicle} {start : Int} (sessionId : String)

theorem not_beats_of_tick {a : Agent} {e : Stamped} (h : e.event.isTick = true) :
    acceptsHeartbeat vehicle a e = false := by
  obtain ⟨r, ev⟩ := e
  cases ev with
  | tick => exact acceptsHeartbeat_eq_false rfl
  | _ => simp [Event.isTick] at h

theorem watched_boot (hs : 1000 < start) : Watched vehicle start [] (Agent.boot sessionId) where
  remembers := remembers_boot sessionId hs
  ticked := le_refl _
  age := by simp [Agent.boot]

theorem Watched.tick_age {l : EdgeLog} {a : Agent} {e : Stamped} (h : Watched vehicle start l a)
    (hsafe : a.state.safeMode = false) (hafter : (step vehicle a e).1.state.safeMode = false)
    (htick : e.event.isTick = true) :
    e.clock.nowMs - heartbeatTimeoutMs ≤ a.state.lastHeartbeatAt := by
  obtain ⟨r, ev⟩ := e
  cases ev with
  | tick =>
    have hseen : a.state.lastHeartbeatAt ≠ 0 := by
      have := (h.age hsafe).1
      omega
    rcases tick_fresh vehicle a r hseen with hs | hage
    · exact absurd (hafter.symm.trans hs) (by decide)
    · simp only
      omega
  | _ => simp [Event.isTick] at htick

theorem Watched.step {l : EdgeLog} {a : Agent} {e : Stamped} (h : Watched vehicle start l a)
    (hp : nowMs start l ≤ e.clock.nowMs) :
    let x := (agent vehicle sessionId).react a e
    Watched vehicle start (x :: l) x.after := by
  intro x
  have hrem := h.remembers.step sessionId hp
  have hlast : x.after.state.lastHeartbeatAt = _ := (step_spec vehicle a e).last
  have htick : lastTickMs start (x :: l) =
    if e.event.isTick then e.clock.nowMs else lastTickMs start l := rfl
  have hle : lastTickMs start (x :: l) ≤ e.clock.nowMs := by
    rw [htick]
    split
    · exact le_refl _
    · exact h.ticked.trans hp
  refine ⟨hrem, hle, ?_⟩
  intro hsafe
  have hbeat : x.after.state.lastHeartbeatAt ≠ 0 →
      1000 < x.after.state.lastHeartbeatAt ∧
        LastBeatAt vehicle x.after.state.lastHeartbeatAt (x :: l) := fun h0 => hrem.beat.resolve_left h0
  suffices hage : lastTickMs start (x :: l) - heartbeatTimeoutMs ≤ x.after.state.lastHeartbeatAt ∧
      x.after.state.lastHeartbeatAt ≠ 0 from ⟨(hbeat hage.2).1, (hbeat hage.2).2, hage.1⟩
  have hlate := h.remembers.late
  by_cases hb : acceptsHeartbeat vehicle a e = true
  · rw [hlast, if_pos hb]
    simp only [heartbeatTimeoutMs]
    omega
  · rw [hlast, if_neg hb]
    rcases (step_spec vehicle a e).change with
      ⟨hres, -, -, -⟩ | ⟨htrue, -⟩ | ⟨hmode, -, -⟩
    · have hfresh := fresh_of_resumes hres
      simp only [heartbeatTimeoutMs]
      omega
    · exact absurd (hsafe.symm.trans htrue) (by decide)
    · have hbefore : a.state.safeMode = false := hmode.symm.trans hsafe
      obtain ⟨hpos, -, hage⟩ := h.age hbefore
      rw [htick]
      refine ⟨?_, by omega⟩
      split
      next ht => exact h.tick_age hbefore hsafe ht
      next => exact hage

theorem LastBeatAt.fresh {l : EdgeLog} {t : Int} {x : EdgeEntry} (h : LastBeatAt vehicle t l)
    (hage : entryMs x - t ≤ heartbeatTimeoutMs) : Fresh vehicle x l := by
  refine h.imp (fun _ _ hn => hn) ?_
  rintro z _ ⟨hz, rfl⟩
  exact ⟨hz, hage⟩

theorem Watched.fresh_of_tick {l : EdgeLog} {a : Agent} {e : Stamped}
    (h : Watched vehicle start l a) (hp : nowMs start l ≤ e.clock.nowMs)
    (htick : e.event.isTick = true) :
    let x := (agent vehicle sessionId).react a e
    x.after.state.safeMode = true ∨ Fresh vehicle x l := by
  intro x
  cases hsafe : x.after.state.safeMode with
  | true => exact .inl rfl
  | false =>
    obtain ⟨-, hbeat, hage⟩ := (h.step sessionId hp).age hsafe
    have hnow : lastTickMs start (x :: l) = entryMs x := if_pos htick
    rcases hbeat with ⟨hz, -⟩ | ⟨-, hpast⟩
    · exact absurd (hz.symm.trans (not_beats_of_tick htick)) (by decide)
    · rw [hnow] at hage
      refine .inr (LastBeatAt.fresh hpast ?_)
      omega

end

/-- With a watcher that ticks at most 500 ms apart, every movement is covered
by a heartbeat of the last 3500 ms, and after every tick the agent is in safe
mode or its last heartbeat is at most 3000 ms old. -/
theorem movement_covered (sessionId : String) (start : Int) (hs : 1000 < start)
    (es : List Stamped) (h : Always (Punctual start) ((agent vehicle sessionId).log es)) :
    Always (fun x past => executesMovement x.output = true → Covered vehicle x past)
        ((agent vehicle sessionId).log es) ∧
      Always (fun x past => x.event.event.isTick = true →
          x.after.state.safeMode = true ∨ Fresh vehicle x past)
        ((agent vehicle sessionId).log es) := by
  suffices hboth : Always (fun x past =>
      (executesMovement x.output = true → Covered vehicle x past) ∧
        (x.event.event.isTick = true → x.after.state.safeMode = true ∨ Fresh vehicle x past))
      ((agent vehicle sessionId).log es) from
    ⟨hboth.imp fun _ _ hx => hx.1, hboth.imp fun _ _ hx => hx.2⟩
  refine System.always_of_invariant
    (fun l => Watched vehicle start l ((agent vehicle sessionId).state l))
    (watched_boot sessionId hs) ?_ es h
  rintro past e hinv ⟨hclock, hpunctual⟩
  have hnext := hinv.step sessionId hclock
  refine ⟨hnext, ?_, ?_⟩
  · intro hmove
    rcases (step_spec vehicle ((agent vehicle sessionId).state past) e).change with
      ⟨-, -, -, hno⟩ | ⟨-, hno⟩ | ⟨-, -, hsafe⟩
    · exact absurd ((executes_of_movement hmove).symm.trans hno) (by decide)
    · exact absurd ((executes_of_movement hmove).symm.trans hno) (by decide)
    · obtain ⟨-, hbeat, hage⟩ := hinv.age (hsafe (executes_of_movement hmove))
      have hpast := hinv.remembers.past
      refine hbeat.once.imp (fun _ _ _ => trivial) ?_
      rintro z _ ⟨hz, hat⟩
      refine ⟨hz, ?_, ?_⟩
      · rw [hat]
        simp only [heartbeatTimeoutMs, heartbeatCheckIntervalMs] at hage hpunctual
        omega
      · rw [hat]
        exact hpast.trans hclock
  · intro htick
    exact hinv.fresh_of_tick sessionId hclock htick

theorem movement_covered_drive :
    ∃ x past, (agent "vehicle-001" "edge-1").log drive = x :: past ∧
      executesMovement x.output = true ∧ Covered "vehicle-001" x past :=
  ⟨_, _, rfl, by decide,
    (movement_covered "vehicle-001" "edge-1" 1900 (by decide) drive (by decide)).1.1 (by decide)⟩

end Rvep.Edge
