import Rvep.Publisher.Laws

/-!
# Consecutive failures

The restart policy counts consecutive failures: a session that ran and was
heard from ends the count, and the back-off starts again at its first step.
The manager never takes its counter back, so it keeps the policy in just those
runs in which only the first session is healthy.
-/

namespace Rvep.Publisher

open Reactive

-- ---------------------------------------------------------------------------
-- Sessions
-- ---------------------------------------------------------------------------

/-- The publisher exits and `stop()` has not been called. -/
def Crashes (x : ManagerEntry) : Prop :=
  match x.event.event with
  | .childExit child _ _ => child ∈ x.before.node.live ∧ x.before.stopRequested = false
  | _ => False

def Spawns (x : ManagerEntry) : Prop := x.output.any Effect.isSpawn = true

def Accepts (socket : Nat) (x : ManagerEntry) : Prop :=
  x.event.event = .connect ∧ x.before.server = true ∧ x.before.node.accepted = socket

def Effect.isHeartbeat : Effect → Bool
  | .heartbeat _ => true
  | _ => false

/-- A session lasts from a spawn to the exit of the process. -/
def InSession (p : ManagerEntry → ManagerLog → Prop) : ManagerLog → Prop :=
  Since (fun x _ => ¬ Spawns x) p

/-- A heartbeat arrives on a connection of the session. -/
def Beats (x : ManagerEntry) (earlier : ManagerLog) : Prop :=
  match x.event.event with
  | .line socket _ =>
    x.output.any Effect.isHeartbeat = true ∧ InSession (fun y _ => Accepts socket y) earlier
  | _ => False

/-- The session reached `running` and delivered a heartbeat. -/
def Healthy (l : ManagerLog) : Prop :=
  InSession (fun x _ => x.after.state = .running) l ∧ InSession Beats l

instance (x : ManagerEntry) : Decidable (Crashes x) := by
  unfold Crashes
  split <;> infer_instance

instance (x : ManagerEntry) : Decidable (Spawns x) := inferInstanceAs (Decidable (_ = _))

instance (socket : Nat) (x : ManagerEntry) : Decidable (Accepts socket x) :=
  inferInstanceAs (Decidable (_ ∧ _ ∧ _))

instance (p : ManagerEntry → ManagerLog → Prop) [∀ x l, Decidable (p x l)] (l : ManagerLog) :
    Decidable (InSession p l) :=
  inferInstanceAs (Decidable (Since _ _ l))

instance (x : ManagerEntry) (earlier : ManagerLog) : Decidable (Beats x earlier) := by
  unfold Beats
  split <;> infer_instance

instance (l : ManagerLog) : Decidable (Healthy l) := inferInstanceAs (Decidable (_ ∧ _))

/-- The crashes with no healthy session between the first and the last. -/
def streak : ManagerLog → Nat
  | [] => 0
  | x :: past =>
    if Crashes x then if Healthy past then 1 else streak past + 1 else streak past

/-- The manager has given up only after a streak of failures. -/
def GivesUpOnStreak (x : ManagerEntry) (past : ManagerLog) : Prop :=
  x.after.state = .failed → MAX_RESTART_ATTEMPTS < streak (x :: past)

/-- The restart after a healthy session waits for the first back-off step. -/
def StartsOver (x : ManagerEntry) (past : ManagerLog) : Prop :=
  Crashes x → Healthy past → ∀ timer delay, .restartIn timer delay ∈ x.output → delay = 1000

def KeepsPolicy (x : ManagerEntry) (past : ManagerLog) : Prop :=
  GivesUpOnStreak x past ∧ StartsOver x past

/-- A healthy session that crashes is the run's first. -/
def HealthyFirst (x : ManagerEntry) (past : ManagerLog) : Prop :=
  Crashes x → Healthy past → ¬ Once (fun y _ => Crashes y) past

-- ---------------------------------------------------------------------------
-- The counter
-- ---------------------------------------------------------------------------

variable {cfg : Config} {m : Manager} {e : Stamped} {past : ManagerLog}

theorem backoffMs_eq_first {attempt : Nat} : backoffMs attempt = 1000 ↔ attempt = 0 := by
  constructor
  · intro h
    rcases attempt with _ | _ | _ | _ | _ | n
    · rfl
    all_goals simp [backoffMs, BACKOFF_STEPS_MS] at h
  · rintro rfl
    rfl

theorem crashes_iff : Crashes ((manager cfg).react m e) ↔ ∃ child code signal,
    e.event = .childExit child code signal ∧ child ∈ m.node.live ∧ m.stopRequested = false := by
  cases he : e.event <;> simp [Crashes, he]

/-- Only a crash counts, and only a crash can end in `failed`. -/
theorem step_of_not_crashes (hm : Coherent m.supervision) (h : ¬ Crashes ((manager cfg).react m e)) :
    (step cfg m e).1.consecutiveFailures = m.consecutiveFailures ∧
      ((step cfg m e).1.state = .failed → m.state = .failed) := by
  have hmoves := step_moves cfg e hm.stopped
  change (step cfg m e).1.supervision.consecutiveFailures = _ ∧
    ((step cfg m e).1.supervision.state = .failed → _)
  rw [crashes_iff] at h
  generalize (step cfg m e).1.supervision = n, e.event = event at hmoves h ⊢
  cases hmoves with
  | idles | opens | lapses => exact ⟨rfl, id⟩
  | starts | stopped | connects | runs | respawns => exact ⟨rfl, fun hf => by cases hf⟩
  | stops hstate =>
    refine ⟨rfl, fun hf => ?_⟩
    rcases hstate with rfl | rfl <;> cases hf
  | ends hc hs hstate =>
    refine ⟨rfl, fun hf => ?_⟩
    rcases hstate with rfl | rfl
    · exact hf
    · cases hf
  | givesUp hc hs | restarts hc hs => exact absurd ⟨_, _, _, rfl, hc, hs⟩ h

/-- A crash counts one failure, and schedules the restart that its number
calls for unless there have been too many. -/
theorem step_of_crashes (hm : Coherent m.supervision) (h : Crashes ((manager cfg).react m e)) :
    (step cfg m e).1.consecutiveFailures = m.consecutiveFailures + 1 ∧
      ((step cfg m e).1.state = .failed ↔ MAX_RESTART_ATTEMPTS < m.consecutiveFailures + 1) ∧
      ∀ delay, (∃ timer, .restartIn timer delay ∈ (step cfg m e).2) ↔
        m.consecutiveFailures < MAX_RESTART_ATTEMPTS ∧ delay = backoffMs m.consecutiveFailures := by
  have hmoves := step_moves cfg e hm.stopped
  obtain ⟨child, code, signal, he, hc, hs⟩ := crashes_iff.mp h
  have hout : (step cfg m e).2 = (onExit child code signal m).2 := by simp [step, he, hc]
  have delays {delay : Nat} (hd : ∃ timer, .restartIn timer delay ∈ (onExit child code signal m).2) :
      m.consecutiveFailures < MAX_RESTART_ATTEMPTS ∧ delay = backoffMs m.consecutiveFailures := by
    obtain ⟨timer, hd⟩ := hd
    rcases mem_onExit hd with hx | ⟨s, hx⟩ | ⟨-, hx⟩ | ⟨hf, t, hx⟩ <;> cases hx
    exact ⟨hf, rfl⟩
  change (step cfg m e).1.supervision.consecutiveFailures = _ ∧
    ((step cfg m e).1.supervision.state = .failed ↔ _) ∧ _
  rw [he] at hmoves
  rw [hout]
  generalize (step cfg m e).1.supervision = n at hmoves ⊢
  cases hmoves with
  | idles hidle => exact absurd hc hidle
  | ends _ hstopped => exact absurd (hs.symm.trans hstopped) Bool.false_ne_true
  | givesUp _ _ hf =>
    refine ⟨rfl, iff_of_true rfl hf, fun delay => ⟨delays, fun hd => ?_⟩⟩
    omega
  | restarts _ _ hf =>
    refine ⟨rfl, iff_of_false (by simp) hf, fun delay => ⟨delays, ?_⟩⟩
    rintro ⟨-, rfl⟩
    exact ⟨_, restartIn_mem_onExit hs hf⟩

-- ---------------------------------------------------------------------------
-- The policy over runs
-- ---------------------------------------------------------------------------

/-- While the policy is kept, the manager's counter is the streak. -/
structure Counts (l : ManagerLog) (m : Manager) : Prop where
  coherent : Coherent m.supervision
  streak : m.consecutiveFailures = streak l
  first : m.consecutiveFailures = 0 ↔ ¬ Once (fun x _ => Crashes x) l
  failed : m.state = .failed → MAX_RESTART_ATTEMPTS < m.consecutiveFailures

theorem counts_init : Counts [] Manager.init where
  coherent := coherent_init
  streak := rfl
  first := by simp [Manager.init, Manager.constructed]
  failed h := by cases h

theorem streak_crash (past : ManagerLog) {x : ManagerEntry} (h : Crashes x) :
    Publisher.streak (x :: past) = if Healthy past then 1 else Publisher.streak past + 1 :=
  if_pos h

theorem streak_other (past : ManagerLog) {x : ManagerEntry} (h : ¬ Crashes x) :
    Publisher.streak (x :: past) = Publisher.streak past :=
  if_neg h

theorem Counts.other (hm : Counts past m) (h : ¬ Crashes ((manager cfg).react m e)) :
    let x := (manager cfg).react m e
    (KeepsPolicy x past ↔ HealthyFirst x past) ∧ (KeepsPolicy x past → Counts (x :: past) x.after) := by
  obtain ⟨hcount, hfailed⟩ := step_of_not_crashes hm.coherent h
  have hstreak := (streak_other past h).trans hm.streak.symm
  intro x
  refine ⟨iff_of_true ⟨fun hf => ?_, fun hc => absurd hc h⟩ fun hc => absurd hc h, fun _ =>
    ⟨hm.coherent.step e, hcount.trans hstreak.symm, ?_, fun hf => ?_⟩⟩
  · rw [hstreak]
    exact hm.failed (hfailed hf)
  · rw [show x.after.consecutiveFailures = _ from hcount, hm.first, once_cons]
    simp [x, h]
  · rw [show x.after.consecutiveFailures = _ from hcount]
    exact hm.failed (hfailed hf)

theorem Counts.crash (hm : Counts past m) (h : Crashes ((manager cfg).react m e)) :
    let x := (manager cfg).react m e
    (KeepsPolicy x past ↔ HealthyFirst x past) ∧ (KeepsPolicy x past → Counts (x :: past) x.after) := by
  obtain ⟨hcount, hfailed, hdelay⟩ := step_of_crashes hm.coherent h
  intro x
  have hcount : x.after.consecutiveFailures = m.consecutiveFailures + 1 := hcount
  have hstreak : (Healthy past → m.consecutiveFailures = 0) →
      Publisher.streak (x :: past) = x.after.consecutiveFailures := by
    intro hfirst
    rw [streak_crash past h, hcount]
    split
    next hh => rw [hfirst hh]
    next => rw [hm.streak]
  have hfirst : HealthyFirst x past ↔ (Healthy past → m.consecutiveFailures = 0) := by
    simp only [HealthyFirst, hm.first]
    exact ⟨fun hp => hp h, fun hp _ => hp⟩
  have hkeeps : KeepsPolicy x past ↔ (Healthy past → m.consecutiveFailures = 0) := by
    constructor
    · rintro ⟨hstate, hrestart⟩ hh
      rcases Nat.lt_or_ge m.consecutiveFailures MAX_RESTART_ATTEMPTS with hlt | hge
      · obtain ⟨timer, ht⟩ := (hdelay _).mpr ⟨hlt, rfl⟩
        exact backoffMs_eq_first.mp (hrestart h hh timer _ ht)
      · have := hstate (hfailed.mpr (Nat.lt_succ_of_le hge))
        rw [streak_crash past h, if_pos hh] at this
        exact absurd this (by decide)
    · intro hp
      refine ⟨fun hf => ?_, fun _ hh timer delay ht => ?_⟩
      · rw [hstreak hp, hcount]
        exact hfailed.mp hf
      · obtain ⟨-, rfl⟩ := (hdelay delay).mp ⟨timer, ht⟩
        exact backoffMs_eq_first.mpr (hp hh)
  refine ⟨hkeeps.trans hfirst.symm, fun hp => ⟨hm.coherent.step e, ?_, ?_, fun hf => ?_⟩⟩
  · exact (hstreak (hkeeps.mp hp)).symm
  · rw [hcount, once_cons]
    simp [x, h]
  · rw [hcount]
    exact hfailed.mp hf

/-- The restart policy is kept in exactly those runs in which no healthy
session but the first ends in a crash. -/
theorem restart_policy_iff (cfg : Config) (es : List Stamped) :
    Always KeepsPolicy ((manager cfg).log es) ↔ Always HealthyFirst ((manager cfg).log es) := by
  refine System.always_iff (fun l => Counts l ((manager cfg).state l)) counts_init
    (fun past e hm => ?_) es
  by_cases h : Crashes ((manager cfg).react ((manager cfg).state past) e)
  · exact hm.crash h
  · exact hm.other h

-- ---------------------------------------------------------------------------
-- Healthy sessions that are counted
-- ---------------------------------------------------------------------------

/-- A session that runs, is heard from and crashes. -/
private def session (n : Nat) (past : List Stamped) : List Stamped :=
  [ at10h (.childExit n (some 1) none),
    at10h (.line n (some heartbeatLine)),
    at10h (.minted "livekit-token"),
    at10h (.line n (some helloLine)),
    at10h .connect ] ++ past

private def sessions : Nat → List Stamped
  | 0 => session 0 [at10h (.listening true)]
  | n + 1 => session (n + 1) (at10h (.restartTimeout n true) :: sessions n)

set_option maxRecDepth 20000 in
/-- The second healthy session is restarted after two seconds, and the
eleventh not at all. -/
theorem healthy_sessions_counted :
    (∃ es, ¬ Always StartsOver ((manager frontCamera).log es)) ∧
      ∃ es, ¬ Always GivesUpOnStreak ((manager frontCamera).log es) := by
  refine ⟨⟨sessions 1, fun h => ?_⟩, ⟨sessions 10, fun h => ?_⟩⟩
  · have healthy : Healthy ((manager frontCamera).log (sessions 1)).tail := by decide
    exact absurd (h.1 (by decide) healthy 1 2000 (by decide)) (by decide)
  · have streak : streak ((manager frontCamera).log (sessions 10)) = 1 := by decide
    have gaveUp := h.1 (by decide)
    exact absurd (streak ▸ gaveUp) (by decide)

end Rvep.Publisher
