import Rvep.Cockpit.PageLife

/-!
# What a control page shows

Of all the runs of the connect effect only the last one counts: the others were
cancelled by their cleanup, and their timers are off. `Screen` is the page
without them, and the page does on each event what its screen says.
-/

namespace Rvep.Cockpit

open Reactive

-- ---------------------------------------------------------------------------
-- What is on the screen
-- ---------------------------------------------------------------------------

/-- How far the page on the screen has come. -/
inductive Phase | fetching | connecting | failed | driving
  deriving DecidableEq, Repr

structure Showing where
  vehicleId : String
  phase : Phase
  deriving DecidableEq, Repr

/-- The page as its operator sees it: only the last run counts. -/
structure Screen where
  runs : Nat
  showing : Option Showing
  deriving DecidableEq, Repr

namespace Screen

def blank : Screen := ⟨0, none⟩

/-- What run `i` shows; an earlier run shows nothing. -/
def current (s : Screen) (i : Nat) : Option Showing := if i + 1 = s.runs then s.showing else none

/-- The last run moves from one phase to another. -/
def move (s : Screen) (i : Nat) (source target : Phase) : Screen :=
  match s.current i with
  | some ⟨v, phase⟩ => if phase = source then ⟨s.runs, some ⟨v, target⟩⟩ else s
  | none => s

/-- The vehicle that run `i` sends heartbeats to. -/
def beatsFor (s : Screen) (i : Nat) : List String :=
  match s.current i with
  | some ⟨v, .driving⟩ => [v]
  | _ => []

def step (s : Screen) : PageEvent → Screen × List String
  | .mount v => (if v = "" then ⟨s.runs, none⟩ else ⟨s.runs + 1, some ⟨v, .fetching⟩⟩, [])
  | .unmount => (⟨s.runs, none⟩, [])
  | .tokenSettled i (.ok ()) => (s.move i .fetching .connecting, [])
  | .tokenSettled i (.error _) => (s.move i .fetching .failed, [])
  | .connectSettled i (.ok ()) _ =>
    match s.current i with
    | some ⟨v, .connecting⟩ => (⟨s.runs, some ⟨v, .driving⟩⟩, [v])
    | _ => (s, [])
  | .connectSettled i (.error _) _ => (s.move i .connecting .failed, [])
  | .interval i _ => (s, s.beatsFor i)
  | .press _ _ | .gamepad _ _ | .render => (s, [])

end Screen

/-- The vehicles that the heartbeats among a step's effects are for. -/
def heartbeats (out : List PageEffect) : List String :=
  out.filterMap fun
    | .publish m => if m.payload.body.isHeartbeat then some m.payload.vehicleId else none
    | .replace _ => none

-- ---------------------------------------------------------------------------
-- The page shows its last run
-- ---------------------------------------------------------------------------

def EffectRun.beating (run : EffectRun) : Bool := run.driver.any (·.heartbeatTimer)

def EffectRun.In (run : EffectRun) : Phase → Prop
  | .fetching => run.stage = .getLivekitToken ∧ run.driver = none
  | .connecting => run.stage = .connect ∧ run.driver = none
  | .failed => run.stage = .settled ∧ run.driver = none
  | .driving => run.stage = .settled ∧ run.beating = true

/-- A run's channel is for the run's vehicle. -/
def EffectRun.Own (run : EffectRun) : Prop :=
  ∀ d ∈ run.driver, d.channel.identity.vehicleId = run.vehicleId

def EffectRun.Shows (run : EffectRun) : Option Showing → Prop
  | some showing =>
    run.vehicleId = showing.vehicleId ∧ run.cancelled = false ∧ run.In showing.phase
  | none => run.cancelled = true ∧ run.beating = false

structure Refines (p : PageLife) (s : Screen) : Prop where
  length : p.runs.length = s.runs
  blank : s.runs = 0 → s.showing = none
  mounted : p.mounted = s.showing.map fun _ => s.runs - 1
  channelRef : p.channelRef =
    (s.showing.filter fun showing => showing.phase = .driving).map fun _ => s.runs - 1
  runs : ∀ i (run : EffectRun), p.runs[i]? = some run → run.Shows (s.current i) ∧ run.Own

def drivingRef (runs : Nat) (showing : Option Showing) : Option Nat :=
  (showing.filter fun showing => showing.phase = .driving).map fun _ => runs - 1

section
variable {p p' : PageLife} {s : Screen} {i : Nat} {run run' : EffectRun}

theorem refines_new : Refines .new .blank where
  length := rfl
  blank _ := rfl
  mounted := rfl
  channelRef := rfl
  runs i run h := by simp [PageLife.new] at h

/-- One run is replaced; only the last one may change what is on the screen. -/
theorem Refines.set (h : Refines p s) {showing : Option Showing}
    (hruns : p'.runs = p.runs.set i run') (hmounted : p'.mounted = p.mounted)
    (hsome : showing.isSome = s.showing.isSome) (hlast : i + 1 ≠ s.runs → showing = s.showing)
    (href : p'.channelRef = drivingRef s.runs showing)
    (hrun : run'.Shows ((⟨s.runs, showing⟩ : Screen).current i) ∧ run'.Own) :
    Refines p' ⟨s.runs, showing⟩ where
  length := by rw [hruns, List.length_set, h.length]
  blank hzero := by
    rw [h.blank hzero, Option.isSome_none, Option.isSome_eq_false_iff] at hsome
    exact Option.isNone_iff_eq_none.mp hsome
  mounted := by
    rw [hmounted, h.mounted]
    cases hs : s.showing <;> cases hs' : showing <;> simp_all
  channelRef := href
  runs j r hr := by
    rw [hruns] at hr
    by_cases hij : i = j
    · subst hij
      obtain ⟨_, -, rfl⟩ : ∃ before, p.runs[i]? = some before ∧ run' = r := by
        simpa [List.getElem?_set_self', Option.map_eq_some_iff] using hr
      exact hrun
    · rw [List.getElem?_set_ne hij] at hr
      obtain ⟨hshows, hown⟩ := h.runs j r hr
      refine ⟨?_, hown⟩
      by_cases hj : j + 1 = s.runs
      · have hi : i + 1 ≠ s.runs := by omega
        rw [hlast hi]
        exact hshows
      · simpa [Screen.current, hj] using hshows

theorem current_eq_some {showing : Showing} :
    s.current i = some showing ↔ i + 1 = s.runs ∧ s.showing = some showing := by
  simp [Screen.current]

/-- A run is replaced by one that shows the same. -/
theorem Refines.keep (h : Refines p s) (hruns : p'.runs = p.runs.set i run')
    (hmounted : p'.mounted = p.mounted) (href : p'.channelRef = p.channelRef)
    (hrun : run'.Shows (s.current i) ∧ run'.Own) : Refines p' s :=
  h.set hruns hmounted rfl (fun _ => rfl) (href.trans h.channelRef) hrun

/-- The run on the screen enters another phase. -/
theorem Refines.move (h : Refines p s) {showing : Showing} {phase : Phase}
    (hc : s.current i = some showing) (hruns : p'.runs = p.runs.set i run')
    (hmounted : p'.mounted = p.mounted)
    (href : p'.channelRef = if phase = .driving then some i else none)
    (hvehicle : run'.vehicleId = showing.vehicleId) (hcancelled : run'.cancelled = false)
    (hphase : run'.In phase) (hown : run'.Own) :
    Refines p' ⟨s.runs, some ⟨showing.vehicleId, phase⟩⟩ := by
  obtain ⟨hi, hs⟩ := current_eq_some.mp hc
  refine h.set hruns hmounted (by rw [hs]; rfl) (fun hne => absurd hi hne) ?_ ?_
  · rw [href, ← hi]
    by_cases hd : phase = .driving <;> simp [drivingRef, Option.filter, hd]
  · have hnew : (⟨s.runs, some ⟨showing.vehicleId, phase⟩⟩ : Screen).current i =
        some ⟨showing.vehicleId, phase⟩ := current_eq_some.mpr ⟨hi, rfl⟩
    rw [hnew]
    exact ⟨⟨hvehicle, hcancelled, hphase⟩, hown⟩

theorem Refines.of_current (h : Refines p s) (hi : p.runs[i]? = some run) {showing : Showing}
    (hc : s.current i = some showing) :
    run.vehicleId = showing.vehicleId ∧ run.cancelled = false ∧ run.In showing.phase := by
  have hshows := (h.runs i run hi).1
  rw [hc] at hshows
  exact hshows

theorem Refines.of_past (h : Refines p s) (hi : p.runs[i]? = some run) (hc : s.current i = none) :
    run.cancelled = true ∧ run.beating = false := by
  have hshows := (h.runs i run hi).1
  rw [hc] at hshows
  exact hshows

theorem Refines.of_other (h : Refines p s) (hi : p.runs[i]? = some run) (hne : i + 1 ≠ s.runs) :
    run.cancelled = true ∧ run.beating = false :=
  h.of_past hi (if_neg hne)

theorem EffectRun.In.stage {phase : Phase} (h : run.In phase) :
    (run.stage = .getLivekitToken ↔ phase = .fetching) ∧
      (run.stage = .connect ↔ phase = .connecting) := by
  cases phase <;> simp [EffectRun.In] at h <;> simp [h.1]

theorem EffectRun.In.not_beating {phase : Phase} (h : run.In phase) (hp : phase ≠ .driving) :
    run.beating = false := by
  cases phase with
  | driving => exact absurd rfl hp
  | fetching | connecting | failed => rw [EffectRun.beating, h.2]; rfl

@[simp] theorem stopDriver_cancelled : (PageLife.stopDriver run).cancelled = run.cancelled := rfl

@[simp] theorem stopDriver_beating : (PageLife.stopDriver run).beating = false := by
  unfold EffectRun.beating PageLife.stopDriver
  cases run.driver <;> rfl

theorem EffectRun.Own.stopDriver (h : run.Own) : (PageLife.stopDriver run).Own := by
  intro d hd
  obtain ⟨d₀, hd₀, rfl⟩ := Option.map_eq_some_iff.mp hd
  exact h d₀ hd₀

-- ---------------------------------------------------------------------------
-- One step
-- ---------------------------------------------------------------------------

/-- The run that the cleanup leaves in the place of another one. -/
theorem cleanup_run (h : Refines p s) {showing : Showing} (hs : s.showing = some showing)
    (hi : p.cleanup.runs[i]? = some run) : run.cancelled = true ∧ run.beating = false ∧ run.Own := by
  have hpos : s.runs ≠ 0 := fun hzero => by simp [h.blank hzero] at hs
  have hm : p.mounted = some (s.runs - 1) := by rw [h.mounted, hs]; rfl
  have href : p.channelRef = drivingRef s.runs (some showing) := hs ▸ h.channelRef
  simp only [PageLife.cleanup, hm, href] at hi
  by_cases hd : showing.phase = .driving
  · simp only [drivingRef, Option.filter, hd, decide_true, if_true, Option.map_some,
      Option.elim_some, List.getElem?_modify, Option.map_eq_map, Option.map_map,
      Option.map_eq_some_iff] at hi
    obtain ⟨r, hr, rfl⟩ := hi
    by_cases hlast : s.runs - 1 = i
    · simp only [Function.comp_apply, hlast, if_true]
      exact ⟨rfl, stopDriver_beating, EffectRun.Own.stopDriver (h.runs i r hr).2⟩
    · simp only [Function.comp_apply, hlast, if_false]
      obtain ⟨hcancelled, hbeating⟩ := h.of_other hr (by omega)
      exact ⟨hcancelled, hbeating, (h.runs i r hr).2⟩
  · simp only [drivingRef, Option.filter, hd, decide_false, Bool.false_eq_true, if_false,
      Option.map_none, Option.elim_none, List.getElem?_modify, Option.map_eq_map,
      Option.map_eq_some_iff] at hi
    obtain ⟨r, hr, rfl⟩ := hi
    by_cases hlast : s.runs - 1 = i
    · simp only [hlast, if_true]
      obtain ⟨-, -, hin⟩ := h.of_current hr (current_eq_some.mpr ⟨by omega, hs⟩)
      exact ⟨rfl, hin.not_beating hd, (h.runs i r hr).2⟩
    · simp only [hlast, if_false]
      obtain ⟨hcancelled, hbeating⟩ := h.of_other hr (by omega)
      exact ⟨hcancelled, hbeating, (h.runs i r hr).2⟩

theorem Refines.cleanup (h : Refines p s) : Refines p.cleanup ⟨s.runs, none⟩ := by
  cases hs : s.showing with
  | none =>
    have hm : p.mounted = none := by rw [h.mounted, hs]; rfl
    rw [show p.cleanup = p by simp [PageLife.cleanup, hm],
      show (⟨s.runs, none⟩ : Screen) = s by rw [← hs]]
    exact h
  | some showing =>
    have hm : p.mounted = some (s.runs - 1) := by rw [h.mounted, hs]; rfl
    refine ⟨?_, fun _ => rfl, ?_, ?_, ?_⟩
    · simp only [PageLife.cleanup, hm]
      cases p.channelRef <;> simp [h.length]
    · simp [PageLife.cleanup, hm]
    · simp [PageLife.cleanup, hm]
    · intro i run hi
      obtain ⟨hcancelled, hbeating, hown⟩ := cleanup_run h hs hi
      refine ⟨?_, hown⟩
      rw [show (⟨s.runs, none⟩ : Screen).current i = none by simp [Screen.current]]
      exact ⟨hcancelled, hbeating⟩

theorem Refines.mount (h : Refines p s) (vehicleId : String) :
    Refines (p.mount vehicleId)
      (if vehicleId = "" then ⟨s.runs, none⟩ else ⟨s.runs + 1, some ⟨vehicleId, .fetching⟩⟩) := by
  have hclean := h.cleanup
  have hlength : p.cleanup.runs.length = s.runs := hclean.length
  unfold PageLife.mount
  by_cases hv : vehicleId = ""
  · simp only [hv, dite_true, if_true]
    exact hclean
  · simp only [hv, dite_false, if_false]
    refine ⟨by simp [hlength], nofun, by simp [hlength], ?_, ?_⟩
    · exact hclean.channelRef
    · intro i run hi
      rcases Nat.lt_trichotomy i s.runs with hlt | rfl | hgt
      · rw [List.getElem?_append_left (by omega)] at hi
        obtain ⟨hshows, hown⟩ := hclean.runs i run hi
        simp only [Screen.current, ite_self] at hshows ⊢
        rw [if_neg (by omega)]
        exact ⟨hshows, hown⟩
      · rw [← hlength, List.getElem?_concat_length] at hi
        obtain rfl := Option.some.inj hi
        simp [Screen.current, EffectRun.Shows, EffectRun.In, EffectRun.Own]
      · rw [List.getElem?_eq_none (by simp; omega)] at hi
        exact absurd hi nofun

theorem heartbeats_failed (err : ConnectError) : heartbeats (p.failed i run err).2 = [] := by
  unfold PageLife.failed
  simp only
  split
  · rfl
  · split
    · split <;> rfl
    · rfl

theorem failed_page (run : EffectRun) (err : ConnectError) :
    (p.failed i run err).1.runs = p.runs.set i { run with stage := .settled } ∧
      (p.failed i run err).1.mounted = p.mounted ∧
      (p.failed i run err).1.channelRef = p.channelRef := by
  unfold PageLife.failed
  simp only
  split
  · exact ⟨rfl, rfl, rfl⟩
  · split
    · split <;> exact ⟨rfl, rfl, rfl⟩
    · exact ⟨rfl, rfl, rfl⟩

theorem drivingRef_eq_none {showing : Showing} (h : showing.phase ≠ .driving) (runs : Nat) :
    drivingRef runs (some showing) = none := by
  simp [drivingRef, Option.filter, h]

/-- A run that is not driving goes on to a stage without a channel. -/
theorem Refines.goes (h : Refines p s) (hi : p.runs[i]? = some run) {source target : Phase}
    {stage : Stage} (hsource : ∀ phase, run.In phase → phase = source)
    (hs : source ≠ .driving) (ht : target ≠ .driving)
    (htarget : run.driver = none → ({ run with stage := stage } : EffectRun).In target)
    (hruns : p'.runs = p.runs.set i { run with stage := stage })
    (hmounted : p'.mounted = p.mounted) (href : p'.channelRef = p.channelRef) :
    Refines p' (s.move i source target) := by
  have hown : ({ run with stage := stage } : EffectRun).Own := (h.runs i run hi).2
  unfold Screen.move
  cases hc : s.current i with
  | none =>
    refine h.keep hruns hmounted href ⟨?_, hown⟩
    rw [hc]
    have hpast := h.of_past hi hc
    exact hpast
  | some showing =>
    obtain ⟨hvehicle, hcancelled, hin⟩ := h.of_current hi hc
    obtain ⟨v, phase⟩ := showing
    obtain rfl : phase = source := hsource phase hin
    simp only [if_true]
    have hnone : run.driver = none := by
      cases phase with
      | driving => exact absurd rfl hs
      | fetching | connecting | failed => exact hin.2
    refine h.move hc hruns hmounted ?_ hvehicle hcancelled (htarget hnone) hown
    rw [if_neg ht, href, h.channelRef, (current_eq_some.mp hc).2]
    exact drivingRef_eq_none hs s.runs

/-- A run that is not waiting for `source` is not in the phase that does. -/
theorem Refines.move_eq (h : Refines p s) {source target : Phase}
    (hnot : ∀ run, p.runs[i]? = some run → ¬ run.In source) : s.move i source target = s := by
  unfold Screen.move
  cases hc : s.current i with
  | none => rfl
  | some showing =>
    obtain ⟨hi, hs⟩ := current_eq_some.mp hc
    have hlt : i < p.runs.length := by rw [h.length]; omega
    have hget : p.runs[i]? = some p.runs[i] := List.getElem?_eq_getElem hlt
    obtain ⟨-, -, hin⟩ := h.of_current hget hc
    refine if_neg fun heq => hnot _ hget ?_
    rw [← heq]
    exact hin

theorem Refines.tokenSettled (h : Refines p s) (result : Except ConnectError Unit) :
    Refines (p.tokenSettled i result).1 (s.step (.tokenSettled i result)).1 ∧
      heartbeats (p.tokenSettled i result).2 = [] := by
  unfold PageLife.tokenSettled
  cases hi : p.runs[i]? with
  | none =>
    have hstay (target : Phase) : s.move i .fetching target = s :=
      h.move_eq fun run hr => absurd (hi.symm.trans hr) nofun
    cases result <;> exact ⟨by simpa [Screen.step, hstay] using h, rfl⟩
  | some run =>
    simp only
    by_cases hstage : run.stage = .getLivekitToken
    · have hsource (phase : Phase) (hin : run.In phase) : phase = .fetching :=
        hin.stage.1.mp hstage
      simp only [hstage, ne_eq, not_true_eq_false, if_false]
      cases result with
      | error err =>
        obtain ⟨hruns, hmounted, href⟩ := failed_page (p := p) (i := i) run err
        exact ⟨h.goes hi hsource nofun nofun (fun hd => ⟨rfl, hd⟩) hruns hmounted href,
          heartbeats_failed err⟩
      | ok =>
        refine ⟨?_, rfl⟩
        cases hc : s.current i with
        | none =>
          rw [show (s.step (.tokenSettled i (.ok ()))).1 = s by simp [Screen.step, Screen.move, hc]]
          refine h.keep rfl rfl rfl ⟨?_, (h.runs i run hi).2⟩
          have hpast := h.of_past hi hc
          rw [hc]
          exact hpast
        | some showing =>
          have hruns : p.runs.set i { run with
                stage := if run.cancelled then .settled else .connect } =
              p.runs.set i { run with stage := .connect } := by
            simp [(h.of_current hi hc).2.1]
          exact h.goes hi hsource nofun nofun (fun hd => ⟨rfl, hd⟩) hruns rfl rfl
    · have hstay (target : Phase) : s.move i .fetching target = s := by
        refine h.move_eq fun r hr hin => hstage ?_
        obtain rfl := Option.some.inj (hi.symm.trans hr)
        exact hin.1
      rw [if_pos hstage]
      cases result <;> exact ⟨by simpa [Screen.step, hstay] using h, rfl⟩

/-- The channel of a run starts with one heartbeat for the run's vehicle. -/
theorem startHeartbeat_openChannel (run : EffectRun) (clock : JoinClock) :
    let d := Driver.startHeartbeat clock.heartbeat ⟨PageLife.openChannel run clock, false⟩
    d.1.heartbeatTimer = true ∧ d.1.channel.identity.vehicleId = run.vehicleId ∧
      heartbeats (d.2.map .publish) = [run.vehicleId] :=
  ⟨rfl, rfl, rfl⟩

theorem Refines.connectSettled (h : Refines p s) (result : Except ConnectError Unit)
    (clock : JoinClock) :
    Refines (p.connectSettled i result clock).1 (s.step (.connectSettled i result clock)).1 ∧
      heartbeats (p.connectSettled i result clock).2 =
        (s.step (.connectSettled i result clock)).2 := by
  -- nothing happens where the screen shows no page that joins as run `i`
  have hidle (hnot : ∀ run, p.runs[i]? = some run → ¬ run.In .connecting) :
      s.step (.connectSettled i result clock) = (s, []) := by
    cases result with
    | error err => simp [Screen.step, h.move_eq hnot]
    | ok =>
      simp only [Screen.step]
      split
      next v hc =>
        obtain ⟨hlast, -⟩ := current_eq_some.mp hc
        have hget := List.getElem?_eq_getElem (show i < p.runs.length by rw [h.length]; omega)
        exact absurd (h.of_current hget hc).2.2 (hnot _ hget)
      next => rfl
  unfold PageLife.connectSettled
  cases hi : p.runs[i]? with
  | none =>
    rw [hidle fun run hr => absurd (hi.symm.trans hr) nofun]
    exact ⟨h, rfl⟩
  | some run =>
    simp only
    by_cases hstage : run.stage = .connect
    · have hsource (phase : Phase) (hin : run.In phase) : phase = .connecting :=
        hin.stage.2.mp hstage
      simp only [hstage, ne_eq, not_true_eq_false, if_false]
      cases result with
      | error err =>
        obtain ⟨hruns, hmounted, href⟩ := failed_page (p := p) (i := i) run err
        exact ⟨h.goes hi hsource nofun nofun (fun hd => ⟨rfl, hd⟩) hruns hmounted href,
          heartbeats_failed err⟩
      | ok =>
        cases hc : s.current i with
        | none =>
          obtain ⟨hcancelled, hbeating⟩ := h.of_past hi hc
          simp only [hcancelled, if_true, Screen.step, hc]
          refine ⟨h.keep rfl rfl rfl ⟨?_, (h.runs i run hi).2⟩, rfl⟩
          rw [hc]
          exact ⟨rfl, hbeating⟩
        | some showing =>
          obtain ⟨hvehicle, hcancelled, hin⟩ := h.of_current hi hc
          obtain ⟨v, phase⟩ := showing
          obtain rfl : phase = .connecting := hsource phase hin
          obtain ⟨htimer, hown, hbeats⟩ := startHeartbeat_openChannel run clock
          simp only [hcancelled, Bool.false_eq_true, if_false, Screen.step, hc]
          refine ⟨h.move hc rfl rfl rfl hvehicle rfl ⟨rfl, htimer⟩ ?_, hbeats.trans (by rw [hvehicle])⟩
          intro d hd
          obtain rfl := Option.some.inj hd
          exact hown
    · rw [if_pos hstage, hidle]
      · exact ⟨h, rfl⟩
      · intro r hr hin
        obtain rfl := Option.some.inj (hi.symm.trans hr)
        exact hstage hin.1

/-- Using a channel neither starts nor stops its timer. -/
theorem Refines.onDriver (h : Refines p s) {act : Driver → Driver × List Publication}
    (htimer : ∀ d, (act d).1.heartbeatTimer = d.heartbeatTimer)
    (hidentity : ∀ d, (act d).1.channel.identity = d.channel.identity) :
    Refines (p.onDriver i act).1 s := by
  unfold PageLife.onDriver
  cases hi : p.runs[i]? with
  | none => exact h
  | some run =>
    cases hd : run.driver with
    | none => simpa [hd] using h
    | some d =>
      simp only [hd]
      obtain ⟨hshows, hown⟩ := h.runs i run hi
      have hbeating : ({ run with driver := some (act d).1 } : EffectRun).beating = run.beating := by
        simp [EffectRun.beating, hd, htimer]
      refine h.keep rfl rfl rfl ⟨?_, ?_⟩
      · cases hc : s.current i with
        | none =>
          obtain ⟨hcancelled, hstopped⟩ := h.of_past hi hc
          exact ⟨hcancelled, hbeating.trans hstopped⟩
        | some showing =>
          obtain ⟨hvehicle, hcancelled, hin⟩ := h.of_current hi hc
          obtain ⟨v, phase⟩ := showing
          refine ⟨hvehicle, hcancelled, ?_⟩
          cases phase with
          | driving => exact ⟨hin.1, hbeating.trans hin.2⟩
          | fetching | connecting | failed => exact absurd (hin.2.symm.trans hd) nofun
      · intro d' hd'
        obtain rfl := Option.some.inj hd'
        rw [hidentity]
        exact hown d (by simp [hd])

theorem sendOn_spec (what : Press) (now : Instant) (d : Driver) :
    (PageLife.sendOn what now d).1.heartbeatTimer = d.heartbeatTimer ∧
      (PageLife.sendOn what now d).1.channel.identity = d.channel.identity ∧
      heartbeats ((PageLife.sendOn what now d).2.map .publish) = [] := by
  refine ⟨rfl, (what.toSend.run_spec now d.channel).1, ?_⟩
  cases what <;> rfl

theorem heartbeats_onDriver {act : Driver → Driver × List Publication}
    (hact : ∀ d, heartbeats ((act d).2.map .publish) = []) :
    heartbeats (p.onDriver i act).2 = [] := by
  unfold PageLife.onDriver
  split
  · rfl
  · split
    · rfl
    · exact hact _

theorem Refines.sendOn (h : Refines p s) (what : Press) (now : Instant) :
    Refines (p.onDriver i (PageLife.sendOn what now)).1 s ∧
      heartbeats (p.onDriver i (PageLife.sendOn what now)).2 = [] :=
  ⟨h.onDriver (fun d => (sendOn_spec what now d).1) fun d => (sendOn_spec what now d).2.1,
    heartbeats_onDriver fun d => (sendOn_spec what now d).2.2⟩

theorem onInterval_spec (now : Instant) (d : Driver) :
    (d.onInterval now).1.heartbeatTimer = d.heartbeatTimer ∧
      (d.onInterval now).1.channel.identity = d.channel.identity ∧
      heartbeats ((d.onInterval now).2.map .publish) =
        if d.heartbeatTimer then [d.channel.identity.vehicleId] else [] := by
  unfold Driver.onInterval
  cases ht : d.heartbeatTimer with
  | true => exact ⟨rfl, rfl, rfl⟩
  | false => exact ⟨ht, rfl, rfl⟩

theorem Refines.interval (h : Refines p s) (now : Instant) :
    Refines (p.onDriver i (Driver.onInterval now)).1 s ∧
      heartbeats (p.onDriver i (Driver.onInterval now)).2 = s.beatsFor i := by
  refine ⟨h.onDriver (fun d => (onInterval_spec now d).1) fun d => (onInterval_spec now d).2.1, ?_⟩
  unfold PageLife.onDriver
  cases hi : p.runs[i]? with
  | none =>
    have hc : s.current i = none := by
      refine if_neg fun hlast => ?_
      have := List.getElem?_eq_none_iff.mp hi
      rw [h.length] at this
      omega
    simp [Screen.beatsFor, hc, heartbeats]
  | some run =>
    obtain ⟨hshows, hown⟩ := h.runs i run hi
    cases hc : s.current i with
    | none =>
      obtain ⟨-, hstopped⟩ := h.of_past hi hc
      cases hd : run.driver with
      | none => simp [Screen.beatsFor, hc, hd, heartbeats]
      | some d =>
        have hoff : d.heartbeatTimer = false := by simpa [EffectRun.beating, hd] using hstopped
        simp only [hd]
        rw [(onInterval_spec now d).2.2, hoff]
        simp [Screen.beatsFor, hc]
    | some showing =>
      obtain ⟨hvehicle, -, hin⟩ := h.of_current hi hc
      obtain ⟨v, phase⟩ := showing
      cases phase with
      | fetching | connecting | failed => simp [Screen.beatsFor, hc, hin.2, heartbeats]
      | driving =>
        obtain ⟨d, hd, hon⟩ := (Option.any_eq_true _ _).mp hin.2
        simp only [hd]
        rw [(onInterval_spec now d).2.2, hon, if_pos rfl, hown d (by simp [hd])]
        simp [Screen.beatsFor, hc, hvehicle]

/-- The page does on each event what its screen says. -/
theorem Refines.step (h : Refines p s) (e : PageEvent) :
    Refines (controlPage.step p e).1 (s.step e).1 ∧
      heartbeats (controlPage.step p e).2 = (s.step e).2 := by
  cases e with
  | mount vehicleId => exact ⟨h.mount vehicleId, rfl⟩
  | unmount => exact ⟨h.cleanup, rfl⟩
  | tokenSettled i result =>
    refine ⟨(h.tokenSettled result).1, (h.tokenSettled result).2.trans ?_⟩
    cases result <;> rfl
  | connectSettled i result clock => exact h.connectSettled result clock
  | interval i now => exact h.interval now
  | press what now =>
    simp only [controlPage, PageLife.step, PageLife.press]
    split
    · split
      · exact ⟨⟨h.length, h.blank, h.mounted, h.channelRef, h.runs⟩, rfl⟩
      · exact ⟨h, rfl⟩
    · exact h.sendOn what now
  | gamepad what now =>
    simp only [controlPage, PageLife.step, PageLife.gamepad]
    split
    · exact ⟨h, rfl⟩
    · exact h.sendOn what now
  | render => exact ⟨⟨h.length, h.blank, h.mounted, h.channelRef, h.runs⟩, rfl⟩

end

end Rvep.Cockpit
