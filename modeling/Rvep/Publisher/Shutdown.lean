import Rvep.Publisher.Laws

/-!
# After `stop()`

The callbacks that are still to come when `stop()` is called go on writing the
manager's state. Two of them undo the stop: a connection the server still
accepts, and a token that is minted for a publisher that has said hello.
-/

namespace Rvep.Publisher

open Reactive

-- ---------------------------------------------------------------------------
-- Start messages
-- ---------------------------------------------------------------------------

variable {cfg : Config} {m : Manager} {e : Stamped}

theorem isStart_of_routine {y : Effect} (h : y.isRoutine = true) : y.isStart = false := by
  cases y <;> first | rfl | cases h

/-- `start` is sent when a token has been minted, and at no other time. -/
theorem minted_of_start {y : Effect} (hy : y ∈ (step cfg m e).2) (hstart : y.isStart = true) :
    0 < m.node.mints ∧ ∃ token, e.event = .minted token := by
  have hdoes := mem_step hy
  generalize e.event = event at hdoes ⊢
  cases hdoes with
  | routine h => exact absurd ((isStart_of_routine h).symm.trans hstart) Bool.false_ne_true
  | sendsStart h => exact ⟨h, _, rfl⟩
  | sendsStop h => exact absurd (h.symm.trans hstart) Bool.false_ne_true
  | _ => cases hstart

-- ---------------------------------------------------------------------------
-- The stopped manager
-- ---------------------------------------------------------------------------

/-- `stop()` is called after `start()` has resolved. -/
def StopCalled (x : ManagerEntry) : Prop :=
  x.event.event = .stop ∧ x.before.node.startCall = .resolved

/-- Since `stop()` was called the manager is `stopping` or `idle`, has no
watcher and sends no `start`. -/
def StaysStopped (x : ManagerEntry) (past : ManagerLog) : Prop :=
  Once (fun y _ => StopCalled y) (x :: past) →
    (x.after.state = .stopping ∨ x.after.state = .idle) ∧ x.after.heartbeatTimer = false ∧
      ∀ y ∈ x.output, y.isStart = false

def Connects (x : ManagerEntry) : Prop := x.event.event = .connect ∧ x.before.server = true

/-- Once `stop()` was called no connection is accepted and no token minted. -/
def LeftAlone (x : ManagerEntry) (past : ManagerLog) : Prop :=
  Once (fun y _ => StopCalled y) past → ¬ Connects x ∧ ¬ Mints x

structure Stopped (s : Supervision) : Prop where
  requested : s.stopRequested = true
  state : s.state = .stopping ∨ s.state = .idle
  unwatched : s.heartbeatTimer = false
  started : s.started = true

theorem Stopped.of_stop (hm : Coherent m.supervision) (he : e.event = .stop)
    (h : m.node.startCall = .resolved) : Stopped (step cfg m e).1.supervision := by
  have hmoves := step_moves cfg e hm.stopped
  rw [he] at hmoves
  generalize (Publisher.step cfg m e).1.supervision = n at hmoves ⊢
  cases hmoves with
  | idles hidle => exact absurd trivial hidle
  | stops hstate => exact ⟨rfl, hstate, rfl, by simp [Manager.supervision, h]⟩

theorem Stopped.step (hm : Coherent m.supervision) (h : Stopped m.supervision)
    (hc : ¬ Connects ((manager cfg).react m e)) (hmint : ¬ Mints ((manager cfg).react m e)) :
    Stopped (step cfg m e).1.supervision := by
  have hs : m.stopRequested = true := h.requested
  have requested {p : Prop} (hfalse : m.stopRequested = false) : p :=
    absurd (hfalse.symm.trans hs) Bool.false_ne_true
  have resolved {p : Prop} (hw : m.node.startCall = .awaiting) : p := by
    have := h.started
    simp [Manager.supervision, hw] at this
  have hmoves := step_moves cfg e hm.stopped
  simp only [Connects, Mints, System.react_event, System.react_before] at hc hmint
  generalize (Publisher.step cfg m e).1.supervision = n, e.event = event at hmoves hc hmint ⊢
  cases hmoves with
  | idles => exact h
  | opens hw | starts hw => exact resolved hw
  | stops hstate => exact ⟨rfl, hstate, rfl, h.started⟩
  | stopped => exact ⟨h.requested, .inr rfl, h.unwatched, h.started⟩
  | connects hserver => exact absurd ⟨rfl, hserver⟩ hc
  | runs hp => exact absurd ⟨hp, _, rfl⟩ hmint
  | ends _ _ hstate =>
    refine ⟨h.requested, ?_, rfl, h.started⟩
    rcases hstate with rfl | rfl
    · exact h.state
    · exact .inr rfl
  | givesUp _ hrun | restarts _ hrun | respawns _ hrun => exact requested hrun
  | lapses => exact ⟨h.requested, h.state, h.unwatched, h.started⟩

/-- A connection that is accepted makes the manager shake hands again. -/
theorem state_of_connects (h : Connects ((manager cfg).react m e)) :
    (step cfg m e).1.state = .handshaking := by
  obtain ⟨he, hserver⟩ := h
  have he : e.event = .connect := he
  have hserver : m.server = true := hserver
  simp [step, he, hserver, onPublisherConnected]

theorem state_of_mints (h : Mints ((manager cfg).react m e)) :
    (step cfg m e).1.state = .running := by
  obtain ⟨hp, token, he⟩ := h
  have he : e.event = .minted token := he
  have hp : 0 < m.node.mints := hp
  simp [step, he, hp, onTokenMinted, startHeartbeatWatcher]

variable (cfg e) in
theorem Stopped.stays (hm : Coherent m.supervision) (h : Stopped m.supervision) :
    let x := (manager cfg).react m e
    ((x.after.state = .stopping ∨ x.after.state = .idle) ∧ x.after.heartbeatTimer = false ∧
      ∀ y ∈ x.output, y.isStart = false) ↔ ¬ Connects x ∧ ¬ Mints x := by
  intro x
  constructor
  · rintro ⟨hstate, -⟩
    refine ⟨fun hc => ?_, fun hmint => ?_⟩
    · rw [show x.after.state = _ from state_of_connects hc] at hstate
      exact absurd hstate (by decide)
    · rw [show x.after.state = _ from state_of_mints hmint] at hstate
      exact absurd hstate (by decide)
  · rintro ⟨hc, hmint⟩
    have hx : Stopped x.after.supervision := h.step hm hc hmint
    refine ⟨hx.state, hx.unwatched, fun y hy => ?_⟩
    exact Bool.eq_false_iff.mpr fun hstart => hmint (minted_of_start hy hstart)

-- ---------------------------------------------------------------------------
-- Finality over runs
-- ---------------------------------------------------------------------------

/-- A stop stays final in exactly those runs in which, after it, no publisher
connects and no token is minted. -/
theorem stop_final_iff (cfg : Config) (es : List Stamped) :
    Always StaysStopped ((manager cfg).log es) ↔ Always LeftAlone ((manager cfg).log es) := by
  refine System.always_iff
    (fun l => Coherent ((manager cfg).state l).supervision ∧
      (Once (fun y _ => StopCalled y) l → Stopped ((manager cfg).state l).supervision))
    ⟨coherent_init, fun h => absurd h once_nil⟩ (fun past e hm => ?_) es
  obtain ⟨hcoherent, hm⟩ := hm
  let x := (manager cfg).react ((manager cfg).state past) e
  by_cases hpast : Once (fun y _ => StopCalled y) past
  · have stays := (hm hpast).stays cfg e hcoherent
    have hx : Once (fun y _ => StopCalled y) (x :: past) := once_cons.mpr (.inr hpast)
    refine ⟨⟨fun hp _ => stays.mp (hp hx), fun hp _ => stays.mpr (hp hpast)⟩,
      fun hp => ⟨hcoherent.step e, fun _ => ?_⟩⟩
    obtain ⟨hc, hmint⟩ := stays.mp (hp hx)
    exact (hm hpast).step hcoherent hc hmint
  · have stopped (hx : Once (fun y _ => StopCalled y) (x :: past)) :
        Stopped x.after.supervision ∧ ∀ y ∈ x.output, y.isStart = false := by
      obtain ⟨he, hstart⟩ := (once_cons.mp hx).resolve_right hpast
      refine ⟨.of_stop hcoherent he hstart, fun y hy => Bool.eq_false_iff.mpr fun hs => ?_⟩
      obtain ⟨-, token, ht⟩ := minted_of_start hy hs
      cases Eq.trans (Eq.symm he) ht
    refine ⟨iff_of_true (fun hx => ?_) fun hp => absurd hp hpast,
      fun _ => ⟨hcoherent.step e, fun hx => (stopped hx).1⟩⟩
    obtain ⟨hs, hout⟩ := stopped hx
    exact ⟨hs.state, hs.unwatched, hout⟩

/-- The hello that `stop()` overtakes. -/
private def overtaken : List Stamped :=
  [ at10h (.minted "livekit-token"),
    at10h .stop,
    at10h (.line 0 (some helloLine)),
    at10h .connect,
    at10h (.listening true) ]

/-- The token is minted while the manager waits for the exit: it sends `start`
after `stop`, runs again and arms its watcher. -/
theorem stop_undone :
    ∃ es, ¬ Always StaysStopped ((manager frontCamera).log es) ∧
      ((manager frontCamera).state ((manager frontCamera).log es)).state = .running ∧
      ((manager frontCamera).state ((manager frontCamera).log es)).heartbeatTimer = true := by
  refine ⟨overtaken, fun h => ?_, by decide, by decide⟩
  obtain ⟨-, -, quiet⟩ := h.1 (.inr ⟨trivial, .inl ⟨rfl, rfl⟩⟩)
  have started : ((manager frontCamera).log overtaken).head?.any (·.output.any Effect.isStart) := by
    decide
  obtain ⟨y, hy, hstart⟩ := List.any_eq_true.mp started
  exact Bool.false_ne_true ((quiet y hy).symm.trans hstart)

end Rvep.Publisher
