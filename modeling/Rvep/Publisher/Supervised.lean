import Rvep.Publisher.Laws

/-!
# No publisher is forgotten

A manager that has started, was not stopped and has not given up should be
waiting for a process to exit or for a restart. It restarts on `exit` only, and
a binary that cannot be run never exits.
-/

namespace Rvep.Publisher

open Reactive

/-- A started manager that was not stopped and has not given up has a restart
pending or a process that runs. -/
def Supervised (s : Supervision) : Prop :=
  s.started = true → s.stopRequested = false → s.state ≠ .failed → s.pending ≠ [] ∨ s.live ≠ []

/-- The manager spawns the publisher, and the binary cannot be run. -/
def SpawnFails (x : ManagerEntry) : Prop :=
  x.before.stopRequested = false ∧
    match x.event.event with
    | .listening spawned => x.before.node.startCall = .awaiting ∧ spawned = false
    | .restartTimeout timer spawned => timer ∈ x.before.node.pending ∧ spawned = false
    | _ => False

/-- Every spawn succeeds, and no token is minted after the manager gave up. -/
def NothingFails (x : ManagerEntry) : Prop :=
  ¬ SpawnFails x ∧ (Mints x → x.before.state = .failed → x.before.stopRequested = true)

section
variable {s : Supervision}

theorem Supervised.of_stopped (h : s.stopRequested = true) : Supervised s :=
  fun _ hs => absurd (hs.symm.trans h) Bool.false_ne_true

theorem Supervised.of_failed (h : s.state = .failed) : Supervised s :=
  fun _ _ hf => absurd h hf

theorem Supervised.of_pending (h : s.pending ≠ []) : Supervised s := fun _ _ _ => .inl h

theorem Supervised.of_live (h : s.live ≠ []) : Supervised s := fun _ _ _ => .inr h

end

-- ---------------------------------------------------------------------------
-- One callback
-- ---------------------------------------------------------------------------

variable {cfg : Config} {m : Manager} {e : Stamped}

/-- Nothing fails in a callback that does nothing. -/
theorem nothingFails_of_idle (h : ¬ Acts m e.event) : NothingFails ((manager cfg).react m e) := by
  refine ⟨fun ⟨hs, hspawn⟩ => ?_, fun ⟨hp, token, he⟩ => ?_⟩
  · cases he : e.event <;> simp only [System.react_event, System.react_before, he] at hspawn <;>
      simp_all [Acts]
  · have he : e.event = .minted token := he
    rw [he] at h
    exact absurd hp h

theorem Supervised.step (hm : Coherent m.supervision) (h : Supervised m.supervision) :
    Supervised (step cfg m e).1.supervision ↔ NothingFails ((manager cfg).react m e) := by
  by_cases hacts : Acts m e.event
  case neg => exact iff_of_true ((step_idle hacts).same ▸ h) (nothingFails_of_idle hacts)
  have hmoves := step_moves cfg e hm.stopped
  simp only [NothingFails, SpawnFails, Mints, System.react_event, System.react_before]
  generalize (Publisher.step cfg m e).1.supervision = n, e.event = event at hmoves hacts ⊢
  cases hmoves with
  | idles hidle => exact absurd hacts hidle
  | opens hw hs => exact iff_of_true (.of_stopped hs) (by simp [hs])
  | @starts spawned hw hs =>
    obtain ⟨hlive, hpending, -⟩ := hm.unstarted (by simp [Manager.supervision, hw])
    have hlive : m.node.live = [] := hlive
    cases spawned with
    | true => exact iff_of_true (.of_live (by simp)) (by simp)
    | false =>
      refine iff_of_false (fun hp => ?_) (by simp [hw, hs])
      simpa [hlive, hpending] using hp rfl hs (by simp)
  | stops => exact iff_of_true (.of_stopped rfl) (by simp)
  | stopped hw => exact iff_of_true (.of_stopped (hm.stopped (List.ne_nil_of_mem hw))) (by simp)
  | connects hserver =>
    refine iff_of_true (fun hstarted hs _ => h hstarted hs fun hf => ?_) (by simp)
    exact Bool.false_ne_true ((hm.given_up hf).1.symm.trans hserver)
  | runs hp =>
    by_cases hf : m.state = .failed
    · obtain ⟨-, hlive, hpending⟩ := hm.given_up hf
      have hstarted : m.supervision.started = true :=
        Bool.of_not_eq_false fun hu => (hm.unstarted hu).2.2 hf
      rcases Bool.eq_false_or_eq_true m.stopRequested with hs | hs
      · exact iff_of_true (.of_stopped hs) (by simp [hs])
      · refine iff_of_false (fun hsup => ?_) (by simp [hf, hs, hp])
        simpa [hlive, hpending] using hsup hstarted hs (by simp)
    · exact iff_of_true (fun hstarted hs _ => h hstarted hs hf) (by simp [hf])
  | ends hc hs => exact iff_of_true (.of_stopped hs) (by simp)
  | givesUp => exact iff_of_true (.of_failed rfl) (by simp)
  | restarts => exact iff_of_true (.of_pending (List.cons_ne_nil _ _)) (by simp)
  | lapses ht hs => exact iff_of_true (.of_stopped hs) (by simp [hs])
  | @respawns timer spawned ht hs =>
    obtain ⟨hpending, hlive, hstarted, -⟩ := hm.alone_pending ht
    have hlive : m.node.live = [] := hlive
    have hpending : m.node.pending = [timer] := hpending
    cases spawned with
    | true => exact iff_of_true (.of_live (by simp)) (by simp)
    | false =>
      refine iff_of_false (fun hp => ?_) (by simp [ht, hs])
      simpa [hlive, hpending] using hp (Bool.of_not_eq_false hstarted) hs (by simp)

-- ---------------------------------------------------------------------------
-- Supervision over runs
-- ---------------------------------------------------------------------------

/-- The publisher is never forgotten in exactly those runs in which every spawn
succeeds and no token is minted after the manager has given up. -/
theorem supervised_iff (cfg : Config) (es : List Stamped) :
    Always (fun x _ => Supervised x.after.supervision) ((manager cfg).log es) ↔
      Always (fun x _ => NothingFails x) ((manager cfg).log es) := by
  refine System.always_iff
    (fun l => Coherent ((manager cfg).state l).supervision ∧
      Supervised ((manager cfg).state l).supervision)
    ⟨coherent_init, fun h => by cases h⟩ (fun past e hm => ?_) es
  obtain ⟨hc, hs⟩ := hm
  exact ⟨hs.step hc, fun hp => ⟨hc.step e, hp⟩⟩

/-- The binary is missing: `start()` resolves, the manager stays `starting`,
and nothing will ever wake it. -/
theorem missing_binary_forgotten :
    ∃ es, ¬ Always (fun x _ => Supervised x.after.supervision) ((manager frontCamera).log es) :=
  ⟨[at10h (.childError "spawn /usr/local/bin/rvep-publisher ENOENT"), at10h (.listening false)],
    fun h => absurd (h.1 rfl rfl (by decide)) (by decide)⟩

end Rvep.Publisher
