import Rvep.Lib.Interleaving

/-!
# Mediated programs

A program is mediated when every way through it that makes a guarded call, or
ends in a guarded result, has made a call before that earned it: a lookup in a
world that grants what is needed. In a pool, where the world changes between
any two calls, the grant is one that was there at some step of the task's own.
-/

namespace Interleaving

open Reactive

variable {τ : Type t} {κ : Type u} {ρ : κ → Type v} {α : Type w} {ω : Type w} {ε : Type x} {ν : Type y}

theorem Prog.AllCalls.imp {p q : κ → Prop} {prog : Prog κ ρ α} (h : prog.AllCalls p)
    (hpq : ∀ c, p c → q c) : prog.AllCalls q := by
  induction prog with
  | done a => trivial
  | call c k ih => exact ⟨hpq c h.1, fun r => ih r (h.2 r)⟩

theorem Prog.AllCalls.and {p q : κ → Prop} {prog : Prog κ ρ α} (hp : prog.AllCalls p)
    (hq : prog.AllCalls q) : prog.AllCalls fun c => p c ∧ q c := by
  induction prog with
  | done a => trivial
  | call c k ih => exact ⟨⟨hp.1, hq.1⟩, fun r => ih r (hp.2 r) (hq.2 r)⟩

/-- What a request must earn, and which calls of which worlds earn it. `inv` is
assumed of every world. -/
structure Policy (τ : Type t) (κ : Type u) (α : Type w) (ω : Type w) (ε : Type x) where
  inv : ω → Prop
  earned : τ → ε → κ → ω → Prop
  freeCall : τ → κ → Prop
  freeResult : τ → α → Prop

def Prog.Mediated (exec : ε → ω → (c : κ) → ω × ρ c) (P : Policy τ κ α ω ε) (request : τ) :
    Prog κ ρ α → Prop
  | .done a => P.freeResult request a
  | .call c k => P.freeCall request c ∧
      ∀ e w, P.inv w → P.earned request e c w ∨ (k (exec e w c).2).Mediated exec P request

section
variable {exec : ε → ω → (c : κ) → ω × ρ c} {P : Policy τ κ α ω ε} {request : τ}

/-- A request for which nothing is guarded is mediated, whatever it does. -/
theorem Prog.Mediated.of_free (hcall : ∀ c, P.freeCall request c)
    (hresult : ∀ a, P.freeResult request a) (p : Prog κ ρ α) : p.Mediated exec P request := by
  induction p with
  | done a => exact hresult a
  | call c k ih => exact ⟨hcall c, fun e w _ => .inr (ih _)⟩

end

section
variable {world : World κ ρ ω ε ν} {program : τ → Prog κ ρ α} {start : ω} {P : Policy τ κ α ω ε}
  {t : Task τ κ ρ α ν} {i : Nat} {es : List (Event τ ε)}

/-- In this entry a call of `request` was made that earned what it needs. -/
def Policy.EarnedIn (P : Policy τ κ α ω ε) (request : τ)
    (x : Entry (Pool τ κ ρ α ω ν) (Event τ ε) Unit) : Prop :=
  ∃ e n c, x.before.call? x.event = some (request, e, n, c) ∧ P.earned request e c x.before.world

/-- Every guarded call of these turns comes after one that earned it. -/
def Policy.CallsEarned (P : Policy τ κ α ω ε) (request : τ) : PoolLog τ κ ρ α ω ε ν → Prop :=
  Always fun x past => ∀ r e n c, x.before.call? x.event = some (r, e, n, c) →
    P.freeCall request c ∨ ∃ y ∈ past, P.EarnedIn request y

/-- The task has earned what it needs, or what is left of its program is mediated. -/
structure Policy.Accounts (P : Policy τ κ α ω ε) (exec : ε → ω → (c : κ) → ω × ρ c)
    (t : Task τ κ ρ α ν) (l : PoolLog τ κ ρ α ω ε ν) : Prop where
  calls : P.CallsEarned t.request l
  rest : (∃ y ∈ l, P.EarnedIn t.request y) ∨ t.prog.Mediated exec P t.request

theorem Policy.Accounts.turn {l : PoolLog τ κ ρ α ω ε ν} {choice : ε}
    {x : Entry (Pool τ κ ρ α ω ν) (Event τ ε) Unit} (h : P.Accounts world.exec t l)
    (hevent : x.event = .step i choice) (hget : x.before.tasks[i]? = some t)
    (hinv : P.inv x.before.world) :
    P.Accounts world.exec (t.advance world choice x.before.world).2 (x :: l) := by
  obtain ⟨request, prog, note⟩ := t
  have hcall := hevent ▸ Pool.call?_step hget choice
  cases prog with
  | done a =>
    refine ⟨⟨fun r e n c hc => ?_, h.calls⟩, h.rest.imp ?_ id⟩
    · exact absurd (hcall.symm.trans hc) nofun
    · rintro ⟨y, hy, hearned⟩
      exact ⟨y, List.mem_cons_of_mem _ hy, hearned⟩
  | call c k =>
    rcases h.rest with ⟨y, hy, hearned⟩ | ⟨hfree, hnext⟩
    · exact ⟨⟨fun _ _ _ _ _ => .inr ⟨y, hy, hearned⟩, h.calls⟩,
        .inl ⟨y, List.mem_cons_of_mem _ hy, hearned⟩⟩
    · refine ⟨⟨fun r e n c' hc => .inl ?_, h.calls⟩, ?_⟩
      · cases hcall.symm.trans hc
        exact hfree
      · rcases hnext choice x.before.world hinv with hearned | hrest
        · exact .inl ⟨x, List.mem_cons_self, choice, note, c, hcall, hearned⟩
        · exact .inr hrest

/-- In a run whose worlds all keep the policy's invariant, a task whose program
is mediated has earned every guarded call it made, and its result if that is
guarded. -/
theorem Policy.accounts (hprogram : ∀ request, (program request).Mediated world.exec P request)
    (hinv : ∀ x ∈ (pool world program start).log es, P.inv x.before.world)
    (h : ((pool world program start).state ((pool world program start).log es)).tasks[i]? = some t) :
    P.Accounts world.exec t (turns i ((pool world program start).log es)) := by
  refine turns_induction
    (P := fun t l => (∀ x ∈ l, P.inv x.before.world) → P.Accounts world.exec t l) ?_ ?_ h
    fun x hx => hinv x (mem_of_mem_turns hx)
  · exact fun request _ => ⟨trivial, .inr (hprogram request)⟩
  · intro x choice t l hevent hget ih hl
    exact (ih fun y hy => hl y (List.mem_cons_of_mem _ hy)).turn hevent hget
      (hl x List.mem_cons_self)

theorem Policy.CallsEarned.of_mem {request r : τ} {e : ε} {n : ν} {c : κ} :
    ∀ {l : PoolLog τ κ ρ α ω ε ν}, P.CallsEarned request l →
      ∀ {x}, x ∈ l → x.before.call? x.event = some (r, e, n, c) → ¬ P.freeCall request c →
        ∃ y ∈ l, P.EarnedIn request y
  | _ :: _, ⟨hx, hpast⟩, x, hmem, hcall, hguarded => by
    rcases List.mem_cons.mp hmem with rfl | hmem
    · obtain ⟨y, hy, hearned⟩ := (hx r e n c hcall).resolve_left hguarded
      exact ⟨y, List.mem_cons_of_mem _ hy, hearned⟩
    · obtain ⟨y, hy, hearned⟩ := CallsEarned.of_mem hpast hmem hcall hguarded
      exact ⟨y, List.mem_cons_of_mem _ hy, hearned⟩

theorem Policy.Accounts.result {l : PoolLog τ κ ρ α ω ε ν} {a : α} (h : P.Accounts world.exec t l)
    (hfinished : t.prog.point = .finished a) (hguarded : ¬ P.freeResult t.request a) :
    ∃ y ∈ l, P.EarnedIn t.request y := by
  obtain ⟨request, prog, note⟩ := t
  cases prog with
  | call c k => exact absurd hfinished (waiting_ne_finished c a)
  | done a' =>
    cases hfinished
    exact h.rest.resolve_right hguarded

end

end Interleaving
