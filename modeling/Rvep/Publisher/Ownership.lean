import Rvep.Publisher.Laws

/-!
# One publisher at a time

The camera has one owner. `start()` spawns a publisher and so does the restart
timer, which `stop()` may or may not cancel in time; a spawned process counts
until it exits, also one whose binary could not be run and that never will.
-/

namespace Rvep.Publisher

open Reactive

-- ---------------------------------------------------------------------------
-- Spawned processes
-- ---------------------------------------------------------------------------

def Effect.spawn? : Effect → Option Nat
  | .spawn child .. => some child
  | _ => none

def spawned (x : ManagerEntry) : List Nat := x.output.filterMap Effect.spawn?

def exited (x : ManagerEntry) : List Nat :=
  match x.event.event with
  | .childExit child _ _ => if child ∈ x.before.node.live then [child] else []
  | _ => []

def everSpawned (l : ManagerLog) : List Nat := l.flatMap spawned

/-- The processes that were spawned and have not exited. -/
def unexited : ManagerLog → List Nat
  | [] => []
  | x :: past => spawned x ++ (unexited past).filter (· ∉ exited x)

def CallsStop (x : ManagerEntry) : Prop := x.event.event = .stop

def EmitsFailed (x : ManagerEntry) : Prop := .failed ∈ x.output

/-- At most one publisher, a bounded number of them, and none after the end. -/
structure OwnsCamera (x : ManagerEntry) (past : ManagerLog) : Prop where
  single : (unexited (x :: past)).length ≤ 1
  bounded : (everSpawned (x :: past)).length ≤ 1 + MAX_RESTART_ATTEMPTS
  timers : x.after.node.pending.length ≤ 1
  final : Once (fun y _ => CallsStop y ∨ EmitsFailed y) (x :: past) → spawned x = []

-- ---------------------------------------------------------------------------
-- What a callback spawns
-- ---------------------------------------------------------------------------

variable {cfg : Config} {m : Manager} {e : Stamped} {past : ManagerLog}

theorem spawn?_of_routine {y : Effect} (h : y.isRoutine = true) : y.spawn? = none := by
  cases y <;> first | rfl | cases h

theorem spawn?_setState {s : ManagerState} : (setState s m).2.filterMap Effect.spawn? = [] := by
  unfold setState
  split <;> rfl

theorem spawned_spawnPublisher {b : Bool} (h : m.stopRequested = false) :
    (spawnPublisher cfg b m).2.filterMap Effect.spawn? = [m.node.spawns] := by
  simp [spawnPublisher, h, spawn?_setState, Effect.spawn?]

theorem spawned_onRestartTimeout {b : Bool} (h : m.stopRequested = false) :
    (onRestartTimeout cfg b m).2.filterMap Effect.spawn? = [m.node.spawns] := by
  have hout : (onRestartTimeout cfg b m).2 = .restarted m.consecutiveFailures ::
      (spawnPublisher cfg b { m with restartTimer := none }).2 := by
    simp [onRestartTimeout, h]
  rw [hout, List.filterMap_cons_none rfl]
  exact spawned_spawnPublisher h

/-- The events on which a manager that was not stopped spawns a publisher. -/
def Respawns (m : Manager) : Event → Prop
  | .listening _ => m.node.startCall = .awaiting
  | .restartTimeout timer _ => timer ∈ m.node.pending
  | _ => False

theorem spawned_of_respawns (hs : m.stopRequested = false) (h : Respawns m e.event) :
    spawned ((manager cfg).react m e) = [m.node.spawns] := by
  change (step cfg m e).2.filterMap Effect.spawn? = _
  cases he : e.event <;> simp only [he, Respawns] at h
  case listening b =>
    simp only [step, he, h, if_true]
    exact spawned_spawnPublisher (by exact hs)
  case restartTimeout timer b =>
    simp only [step, he, h, if_true]
    exact spawned_onRestartTimeout (by exact hs)

theorem spawned_eq_nil (h : m.stopRequested = true ∨ ¬ Respawns m e.event) :
    spawned ((manager cfg).react m e) = [] := by
  refine List.filterMap_eq_nil_iff.mpr fun y hy => ?_
  have hdoes := mem_step hy
  generalize e.event = event at hdoes h
  cases hdoes with
  | routine hr => exact spawn?_of_routine hr
  | spawns hw hs | respawns hw hs =>
    rcases h with hstopped | hnot
    · exact absurd (hs.symm.trans hstopped) Bool.false_ne_true
    · exact absurd hw hnot
  | _ => rfl

theorem gives_up_of_failed (h : EmitsFailed ((manager cfg).react m e)) :
    MAX_RESTART_ATTEMPTS < m.consecutiveFailures + 1 ∧
      ∃ child code signal, e.event = .childExit child code signal ∧ child ∈ m.node.live := by
  have hdoes := mem_step h
  generalize e.event = event at hdoes ⊢
  cases hdoes with
  | routine hr => cases hr
  | failed hc hf => exact ⟨hf, _, _, _, rfl, hc⟩

-- ---------------------------------------------------------------------------
-- Ownership
-- ---------------------------------------------------------------------------

/-- The log agrees with what the manager holds: a process or a restart, and one
failure for each spawn but the last. -/
structure Owns (l : ManagerLog) (s : Supervision) : Prop where
  coherent : Coherent s
  single : (unexited l).length + s.pending.length ≤ 1
  live : ∀ child ∈ s.live, child ∈ unexited l
  unstarted : s.started = false → everSpawned l = [] ∧ unexited l = []
  counted : (everSpawned l).length + s.pending.length ≤
    min s.consecutiveFailures MAX_RESTART_ATTEMPTS + 1
  stopped : Once (fun y _ => CallsStop y) l → s.stopRequested = true
  failed : Once (fun y _ => EmitsFailed y) l →
    s.started = true ∧ unexited l = [] ∧ s.pending = []

theorem owns_init : Owns [] Manager.init.supervision where
  coherent := coherent_init
  single := Nat.zero_le _
  live child hc := by cases hc
  unstarted _ := ⟨rfl, rfl⟩
  counted := Nat.zero_le _
  stopped h := absurd h once_nil
  failed h := absurd h once_nil

section
variable {l : ManagerLog} {s : Supervision}

/-- A process that runs is the only one there is. -/
theorem Owns.alone (h : Owns l s) {child : Nat} (hc : child ∈ s.live) :
    unexited l = [child] ∧ s.live = [child] ∧ s.pending = [] := by
  obtain ⟨hlive, hpending, -⟩ := h.coherent.alone_live hc
  have hmem := h.live child hc
  have hlen := h.single
  have hpos := List.length_pos_of_mem hmem
  obtain ⟨c, hsingle⟩ := List.length_eq_one_iff.mp (show (unexited l).length = 1 by omega)
  rw [hsingle] at hmem
  exact ⟨List.mem_singleton.mp hmem ▸ hsingle, hlive, hpending⟩

theorem Owns.alone_timer (h : Owns l s) {timer : Nat} (ht : timer ∈ s.pending) :
    unexited l = [] ∧ s.pending = [timer] := by
  obtain ⟨hpending, -⟩ := h.coherent.alone_pending ht
  have hlen := h.single
  rw [hpending] at hlen
  exact ⟨List.length_eq_zero_iff.mp (by simpa using hlen), hpending⟩

end

-- ---------------------------------------------------------------------------
-- One callback
-- ---------------------------------------------------------------------------

theorem unexited_cons (x : ManagerEntry) (past : ManagerLog) :
    unexited (x :: past) = spawned x ++ (unexited past).filter (· ∉ exited x) := rfl

theorem everSpawned_cons (x : ManagerEntry) (past : ManagerLog) :
    everSpawned (x :: past) = spawned x ++ everSpawned past := rfl

/-- A callback that spawns nothing and ends no process. -/
theorem unexited_quiet {x : ManagerEntry} (hs : spawned x = []) (he : exited x = []) :
    unexited (x :: past) = unexited past := by
  simp [unexited_cons, hs, he]

theorem exited_eq_nil (h : ∀ child code signal, e.event ≠ .childExit child code signal) :
    exited ((manager cfg).react m e) = [] := by
  cases he : e.event <;> simp [exited, he]
  exact absurd he (h _ _ _)

theorem exited_childExit {child : Nat} {code : Option Int} {signal : Option String}
    (he : e.event = .childExit child code signal) (hc : child ∈ m.node.live) :
    exited ((manager cfg).react m e) = [child] := by
  simp [exited, he, hc]

theorem exited_idle (h : ¬ Acts m e.event) : exited ((manager cfg).react m e) = [] := by
  cases he : e.event <;> simp only [exited, he, System.react_event, System.react_before]
  rw [he] at h
  exact if_neg h

/-- The parts of `Owns` that look back at a stop or at a failure. -/
theorem Owns.stopped_step (h : Owns past m.supervision) (e : Stamped) :
    let x := (manager cfg).react m e
    Once (fun y _ => CallsStop y) (x :: past) → x.after.supervision.stopRequested = true := by
  intro x hx
  have hmoves := step_moves cfg e h.coherent.stopped
  change (step cfg m e).1.supervision.stopRequested = true
  rcases once_cons.mp hx with hcalls | hpast
  · have he : e.event = .stop := hcalls
    rw [he] at hmoves
    generalize (step cfg m e).1.supervision = n at hmoves ⊢
    cases hmoves with
    | idles hidle => exact absurd trivial hidle
    | stops => rfl
  · have hs : m.stopRequested = true := h.stopped hpast
    generalize (step cfg m e).1.supervision = n, e.event = event at hmoves ⊢
    cases hmoves <;> first | exact hs | rfl

/-- A callback that spawns nothing and ends no process leaves ownership to the
supervision. -/
theorem Owns.quiet (h : Owns past m.supervision) (e : Stamped)
    (hspawned : spawned ((manager cfg).react m e) = [])
    (hexited : exited ((manager cfg).react m e) = [])
    (hlive : (step cfg m e).1.supervision.live = m.node.live)
    (hpending : (step cfg m e).1.supervision.pending.Sublist m.node.pending)
    (hstarted : (step cfg m e).1.supervision.started = false → m.supervision.started = false)
    (hfailures : (step cfg m e).1.supervision.consecutiveFailures = m.consecutiveFailures)
    (hfailed : ¬ EmitsFailed ((manager cfg).react m e)) :
    let x := (manager cfg).react m e
    Owns (x :: past) x.after.supervision := by
  intro x
  have hun : unexited (x :: past) = unexited past := unexited_quiet hspawned hexited
  have hever : everSpawned (x :: past) = everSpawned past := by
    rw [everSpawned_cons, hspawned, List.nil_append]
  have hlen := hpending.length_le
  change (step cfg m e).1.supervision.pending.length ≤ m.supervision.pending.length at hlen
  refine ⟨h.coherent.step e, ?_, ?_, fun hs => ?_, ?_, h.stopped_step e, fun hf => ?_⟩
  · have hsingle := h.single
    rw [hun]
    exact (Nat.add_le_add_left hlen _).trans hsingle
  · intro child hc
    have hc : child ∈ (step cfg m e).1.supervision.live := hc
    rw [hlive] at hc
    rw [hun]
    exact h.live child hc
  · rw [hun, hever]
    exact h.unstarted (hstarted hs)
  · have hcounted := h.counted
    rw [hever, show x.after.supervision.consecutiveFailures = _ from hfailures]
    exact (Nat.add_le_add_left hlen _).trans hcounted
  · obtain ⟨hs, hnone, hp⟩ := h.failed ((once_cons.mp hf).resolve_left hfailed)
    rw [hun]
    refine ⟨?_, hnone, List.sublist_nil.mp (hp ▸ hpending)⟩
    by_contra hnot
    exact absurd (hstarted (Bool.eq_false_iff.mpr hnot)) (by simp [hs])

/-- After the exit of the process nothing runs, and at most a restart is due. -/
theorem Owns.exit (h : Owns past m.supervision) (e : Stamped) {child : Nat} {code : Option Int}
    {signal : Option String} (he : e.event = .childExit child code signal)
    (hc : child ∈ m.node.live) (hlive : (step cfg m e).1.supervision.live = m.node.live.filter (· ≠ child))
    (hstarted : (step cfg m e).1.supervision.started = m.supervision.started)
    (hcounted : (step cfg m e).1.supervision.pending.length +
      min m.consecutiveFailures MAX_RESTART_ATTEMPTS ≤
        min (step cfg m e).1.supervision.consecutiveFailures MAX_RESTART_ATTEMPTS)
    (hfailed : EmitsFailed ((manager cfg).react m e) →
      (step cfg m e).1.supervision.pending = []) :
    let x := (manager cfg).react m e
    Owns (x :: past) x.after.supervision := by
  intro x
  obtain ⟨hun, hmlive, hmpending⟩ := h.alone hc
  obtain ⟨-, -, hmstarted, -⟩ := h.coherent.alone_live hc
  have hspawned : spawned x = [] := spawned_eq_nil (.inr (by rw [he]; exact id))
  have hexited : exited x = [child] := exited_childExit he hc
  have hnone : unexited (x :: past) = [] := by
    simp [unexited_cons, hspawned, hexited, hun]
  have hever : everSpawned (x :: past) = everSpawned past := by
    rw [everSpawned_cons, hspawned, List.nil_append]
  have hsame : x.after.supervision.started = m.supervision.started := hstarted
  have hcoherent : Coherent x.after.supervision := h.coherent.step e
  refine ⟨hcoherent, ?_, fun c hcl => ?_, fun hs => ?_, ?_, h.stopped_step e, fun hf => ?_⟩
  · have hsingle := hcoherent.single
    rw [hnone, List.length_nil]
    omega
  · have hmlive : m.node.live = [child] := hmlive
    have hnil : x.after.supervision.live = [] := by
      rw [show x.after.supervision.live = _ from hlive, hmlive]
      simp
    rw [hnil] at hcl
    cases hcl
  · exact absurd (hsame ▸ hs) hmstarted
  · have hpast := h.counted
    rw [hmpending, List.length_nil] at hpast
    have hcounted : x.after.supervision.pending.length +
      min m.consecutiveFailures MAX_RESTART_ATTEMPTS ≤
        min x.after.supervision.consecutiveFailures MAX_RESTART_ATTEMPTS := hcounted
    have hpast : (everSpawned past).length + 0 ≤
      min m.consecutiveFailures MAX_RESTART_ATTEMPTS + 1 := hpast
    rw [hever]
    omega
  · refine ⟨hsame.trans (Bool.of_not_eq_false hmstarted), hnone, ?_⟩
    rcases once_cons.mp hf with hnow | hpast
    · exact hfailed hnow
    · obtain ⟨-, hgone, -⟩ := h.failed hpast
      rw [hgone] at hun
      cases hun

/-- A spawn takes the place of nothing, or of the restart that was due. -/
theorem Owns.spawn (h : Owns past m.supervision) (e : Stamped)
    (hs : m.stopRequested = false) (hr : Respawns m e.event) (hnone : unexited past = [])
    (hlive : ∀ child ∈ (step cfg m e).1.supervision.live, child = m.node.spawns)
    (hpending : (step cfg m e).1.supervision.pending = [])
    (hstarted : (step cfg m e).1.supervision.started = true)
    (hfailures : (step cfg m e).1.supervision.consecutiveFailures = m.consecutiveFailures)
    (hcounted : (everSpawned past).length ≤ min m.consecutiveFailures MAX_RESTART_ATTEMPTS)
    (hfailed : ¬ Once (fun y _ => EmitsFailed y) past) :
    let x := (manager cfg).react m e
    Owns (x :: past) x.after.supervision := by
  intro x
  have hspawned : spawned x = [m.node.spawns] := spawned_of_respawns hs hr
  have hun : unexited (x :: past) = [m.node.spawns] := by
    rw [unexited_cons, hspawned, hnone]
    rfl
  have hever : everSpawned (x :: past) = m.node.spawns :: everSpawned past := by
    rw [everSpawned_cons, hspawned]
    rfl
  have hnil : x.after.supervision.pending = [] := hpending
  refine ⟨h.coherent.step e, ?_, fun c hc => ?_, fun hu => ?_, ?_, h.stopped_step e, fun hf => ?_⟩
  · rw [hun, hnil]
    exact Nat.le_refl 1
  · rw [hun]
    exact List.mem_singleton.mpr (hlive c hc)
  · exact absurd (hu.symm.trans hstarted) Bool.false_ne_true
  · rw [hever, hnil, show x.after.supervision.consecutiveFailures = _ from hfailures]
    simpa using hcounted
  · rcases once_cons.mp hf with hnow | hpast
    · obtain ⟨-, child, code, signal, he, -⟩ := gives_up_of_failed hnow
      rw [he] at hr
      exact hr.elim
    · exact absurd hpast hfailed

/-- A move by which no process exits. -/
theorem Owns.passes (h : Owns past m.supervision) (e : Stamped) {n : Supervision}
    (hn : (step cfg m e).1.supervision = n) (hspawned : spawned ((manager cfg).react m e) = [])
    (hexit : ∀ child code signal, e.event ≠ .childExit child code signal)
    (hlive : n.live = m.node.live) (hpending : n.pending.Sublist m.node.pending)
    (hstarted : n.started = false → m.supervision.started = false)
    (hfailures : n.consecutiveFailures = m.consecutiveFailures) :
    let x := (manager cfg).react m e
    Owns (x :: past) x.after.supervision := by
  subst hn
  refine h.quiet e hspawned (exited_eq_nil hexit) hlive hpending hstarted hfailures fun hf => ?_
  obtain ⟨-, child, code, signal, hexited, -⟩ := gives_up_of_failed hf
  exact hexit child code signal hexited

theorem Owns.step (h : Owns past m.supervision) (e : Stamped) :
    let x := (manager cfg).react m e
    Owns (x :: past) x.after.supervision := by
  by_cases hacts : Acts m e.event
  case neg =>
    have hsame : (Publisher.step cfg m e).1.supervision = m.supervision := (step_idle hacts).same
    have hspawned : spawned ((manager cfg).react m e) = [] := by
      refine spawned_eq_nil (.inr fun hr => hacts ?_)
      cases he : e.event <;> simp only [he, Respawns] at hr <;> exact hr
    refine h.quiet e hspawned (exited_idle hacts) ?_ ?_ ?_ ?_ fun hf => ?_
    · rw [hsame]
      rfl
    · rw [hsame]
      exact List.Sublist.refl _
    · rw [hsame]
      exact id
    · rw [hsame]
      rfl
    · obtain ⟨-, child, code, signal, hexit, hc⟩ := gives_up_of_failed hf
      rw [hexit] at hacts
      exact hacts hc
  have hmoves := step_moves cfg e h.coherent.stopped
  generalize hn : (Publisher.step cfg m e).1.supervision = n, he : e.event = event at hmoves
  cases hmoves with
  | idles hidle => exact absurd (he ▸ hacts) hidle
  | opens hw hs =>
    exact h.passes e hn (spawned_eq_nil (.inl hs)) (by simp [he]) rfl (.refl _) nofun rfl
  | @starts spawned hw hs =>
    have hunstarted : m.supervision.started = false := by simp [Manager.supervision, hw]
    obtain ⟨hever, hun⟩ := h.unstarted hunstarted
    obtain ⟨hlive, hpending, -⟩ := h.coherent.unstarted hunstarted
    have hlive : m.node.live = [] := hlive
    refine h.spawn e hs (by rw [he]; exact hw) hun ?_ (by rw [hn]; exact hpending) (by rw [hn])
      (by rw [hn]; rfl) (by simp [hever]) fun hf => ?_
    · rw [hn]
      cases spawned <;> simp [hlive]
    · exact absurd (hunstarted.symm.trans (h.failed hf).1) Bool.false_ne_true
  | stops hstate hp =>
    exact h.passes e hn (spawned_eq_nil (.inr (by rw [he]; exact id))) (by simp [he]) rfl hp id rfl
  | stopped | connects | runs =>
    exact h.passes e hn (spawned_eq_nil (.inr (by rw [he]; exact id))) (by simp [he]) rfl (.refl _)
      id rfl
  | ends hc hs hstate =>
    have hpending : m.node.pending = [] := (h.alone hc).2.2
    exact h.exit e he hc (by rw [hn]) (by rw [hn]) (by rw [hn]; simp [Manager.supervision, hpending])
      fun _ => by rw [hn]; exact hpending
  | givesUp hc hs hf =>
    have hpending : m.node.pending = [] := (h.alone hc).2.2
    exact h.exit e he hc (by rw [hn]) (by rw [hn])
      (by rw [hn]; simp only [Manager.supervision, hpending, List.length_nil]; omega)
      fun _ => by rw [hn]; exact hpending
  | restarts hc hs hf =>
    have hpending : m.node.pending = [] := (h.alone hc).2.2
    refine h.exit e he hc (by rw [hn]) (by rw [hn]) ?_ fun hfailed => ?_
    · simp only [hn, hpending, List.length_cons, List.length_nil]
      omega
    · exact absurd (gives_up_of_failed hfailed).1 hf
  | lapses ht hs =>
    exact h.passes e hn (spawned_eq_nil (.inl hs)) (by simp [he]) rfl List.filter_sublist id rfl
  | @respawns timer spawned ht hs =>
    obtain ⟨hun, hpending⟩ := h.alone_timer ht
    obtain ⟨-, hlive, hstarted, -⟩ := h.coherent.alone_pending ht
    have hlive : m.node.live = [] := hlive
    have hpending : m.node.pending = [timer] := hpending
    have hcounted : (everSpawned past).length + m.node.pending.length ≤ _ := h.counted
    rw [hpending, List.length_singleton] at hcounted
    refine h.spawn e hs (by rw [he]; exact ht) hun ?_ (by simp [hn, hpending])
      (by rw [hn]; exact Bool.of_not_eq_false hstarted) (by rw [hn]; rfl)
      (Nat.le_of_succ_le_succ hcounted) fun hf => ?_
    · rw [hn]
      cases spawned <;> simp [hlive]
    · have hgone : m.node.pending = [] := (h.failed hf).2.2
      rw [hpending] at hgone
      cases hgone

-- ---------------------------------------------------------------------------
-- Ownership over runs
-- ---------------------------------------------------------------------------

variable (cfg) in
theorem Owns.ownsCamera (h : Owns past m.supervision) (e : Stamped) :
    OwnsCamera ((manager cfg).react m e) past := by
  have hnext : Owns ((manager cfg).react m e :: past) (Publisher.step cfg m e).1.supervision := h.step e
  refine ⟨?_, ?_, ?_, fun hx => ?_⟩
  · exact (Nat.le_add_right _ _).trans hnext.single
  · have hcounted := hnext.counted
    omega
  · exact (Nat.le_add_left _ _).trans hnext.single
  refine spawned_eq_nil ?_
  by_cases hr : Respawns m e.event
  case neg => exact .inr hr
  -- a stop leaves `stopRequested` behind, a failure nothing that could spawn
  rcases hx with hnow | ⟨-, hpast⟩
  · rcases hnow with hcalls | hfailed
    · have he : e.event = .stop := hcalls
      rw [he] at hr
      exact hr.elim
    · obtain ⟨-, child, code, signal, he, -⟩ := gives_up_of_failed hfailed
      rw [he] at hr
      exact hr.elim
  · rcases Once.of_or hpast with hcalled | hfailed
    · exact .inl (h.stopped hcalled)
    · obtain ⟨hstarted, -, hpending⟩ := h.failed hfailed
      have hresolved : m.node.startCall = .resolved := of_decide_eq_true hstarted
      have hpending : m.node.pending = [] := hpending
      cases he : e.event <;> simp [he, Respawns, hresolved, hpending] at hr

/-- In every run: at most one spawned publisher has not exited, eleven are ever
spawned, one restart is pending, and none is spawned after `stop()` has been
called or `failed` emitted. -/
theorem owns_camera (cfg : Config) (es : List Stamped) :
    Always OwnsCamera ((manager cfg).log es) := by
  suffices h : Owns ((manager cfg).log es) ((manager cfg).state ((manager cfg).log es)).supervision ∧
      Always OwnsCamera ((manager cfg).log es) from h.2
  induction es with
  | nil => exact ⟨owns_init, trivial⟩
  | cons e es ih =>
    obtain ⟨howns, hpast⟩ := ih
    exact ⟨howns.step e, howns.ownsCamera cfg e, hpast⟩

end Rvep.Publisher
