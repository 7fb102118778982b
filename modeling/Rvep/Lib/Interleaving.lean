import Rvep.Lib.Reactive

/-!
# Interleaved programs

Programs that act on a shared world through calls, waiting for each reply. A
pool runs any number of them, one call a step in any order, so what one
program learns from a reply may be out of date at its next call. A program is
verified alone, against the interference it relies on; a pool of such programs
is then verified step by step.
-/

namespace Interleaving

inductive Prog (κ : Type u) (ρ : κ → Type v) (α : Type w)
  | done (a : α)
  | call (c : κ) (k : ρ c → Prog κ ρ α)

/-- Where a program stands: at its next call, or at its result. -/
inductive Point (κ : Type u) (α : Type w)
  | waiting (c : κ)
  | finished (a : α)
  deriving DecidableEq

/-- How the world answers. The environment makes a choice at every call; what
a task remembers (its note) has no part in any answer. -/
structure World (κ : Type u) (ρ : κ → Type v) (ω : Type w) (ε : Type x) (ν : Type y) where
  exec : ε → ω → (c : κ) → ω × ρ c
  blank : ν
  observe : ν → ω → (c : κ) → ρ c → ν

theorem waiting_ne_finished {κ : Type u} {α : Type w} (c : κ) (a : α) : Point.waiting c ≠ .finished a :=
  nofun

namespace Prog

variable {κ : Type u} {ρ : κ → Type v} {α β : Type w}

def bind : Prog κ ρ α → (α → Prog κ ρ β) → Prog κ ρ β
  | .done a, f => f a
  | .call c k, f => .call c fun r => (k r).bind f

instance : Monad (Prog κ ρ) where
  pure := .done
  bind := Prog.bind

@[simp] theorem pure_eq (a : α) : (pure a : Prog κ ρ α) = .done a := rfl
@[simp] theorem done_bind (a : α) (f : α → Prog κ ρ β) : (.done a : Prog κ ρ α) >>= f = f a := rfl
@[simp] theorem call_bind (c : κ) (k : ρ c → Prog κ ρ α) (f : α → Prog κ ρ β) :
    (.call c k : Prog κ ρ α) >>= f = .call c fun r => k r >>= f := rfl

theorem bind_done (p : Prog κ ρ α) : p >>= .done = p := by
  induction p with
  | done a => rfl
  | call c k ih =>
    rw [call_bind]
    exact congrArg (Prog.call c) (funext ih)

theorem bind_assoc {γ : Type w} (p : Prog κ ρ α) (f : α → Prog κ ρ β) (g : β → Prog κ ρ γ) :
    p >>= f >>= g = p >>= fun a => f a >>= g := by
  induction p with
  | done a => rfl
  | call c k ih =>
    rw [call_bind, call_bind, call_bind]
    exact congrArg (Prog.call c) (funext ih)

instance : LawfulMonad (Prog κ ρ) := LawfulMonad.mk' _ bind_done (fun _ _ => rfl) bind_assoc

def point : Prog κ ρ α → Point κ α
  | .done a => .finished a
  | .call c _ => .waiting c

@[simp] theorem point_done (a : α) : (.done a : Prog κ ρ α).point = .finished a := rfl
@[simp] theorem point_call (c : κ) (k : ρ c → Prog κ ρ α) : (Prog.call c k).point = .waiting c := rfl

def AllCalls (p : κ → Prop) : Prog κ ρ α → Prop
  | .done _ => True
  | .call c k => p c ∧ ∀ r, (k r).AllCalls p

def AllResults (p : α → Prop) : Prog κ ρ α → Prop
  | .done a => p a
  | .call _ k => ∀ r, (k r).AllResults p

/-- Whatever the replies, the calls that are left cost `n` at most. -/
def Costs (cost : κ → Nat → Prop) : Prog κ ρ α → Nat → Prop
  | .done _, _ => True
  | .call c k, n => ∃ m rest, n = m + rest ∧ cost c m ∧ ∀ r, (k r).Costs cost rest

theorem Costs.mono {cost : κ → Nat → Prop} {p : Prog κ ρ α} {n n' : Nat} (h : p.Costs cost n)
    (hn : n ≤ n') : p.Costs cost n' := by
  induction p generalizing n n' with
  | done a => trivial
  | call c k ih =>
    obtain ⟨m, rest, rfl, hm, hk⟩ := h
    refine ⟨m, n' - m, by omega, hm, fun r => ih r (hk r) (by omega)⟩

/-- Run alone: the n-th call meets the n-th choice. -/
def run (exec : ε → ω → (c : κ) → ω × ρ c) : Prog κ ρ α → (Nat → ε) → ω → ω × α
  | .done a, _, w => (w, a)
  | .call c k, choices, w =>
    (k (exec (choices 0) w c).2).run exec (fun n => choices (n + 1)) (exec (choices 0) w c).1

@[simp] theorem run_done (exec : ε → ω → (c : κ) → ω × ρ c) (a : α) (choices : Nat → ε) (w : ω) :
    (.done a : Prog κ ρ α).run exec choices w = (w, a) := rfl
@[simp] theorem run_call (exec : ε → ω → (c : κ) → ω × ρ c) (c : κ) (k : ρ c → Prog κ ρ α)
    (choices : Nat → ε) (w : ω) :
    (Prog.call c k).run exec choices w =
      (k (exec (choices 0) w c).2).run exec (fun n => choices (n + 1)) (exec (choices 0) w c).1 := rfl

/-- What every call does to the world, a run does. -/
theorem run_rel {exec : ε → ω → (c : κ) → ω × ρ c} {R : ω → ω → Prop} (hrefl : ∀ w, R w w)
    (htrans : ∀ {w₁ w₂ w₃}, R w₁ w₂ → R w₂ w₃ → R w₁ w₃) (hexec : ∀ e w c, R w (exec e w c).1)
    (p : Prog κ ρ α) (choices : Nat → ε) (w : ω) : R w (p.run exec choices w).1 := by
  induction p generalizing choices w with
  | done a => exact hrefl w
  | call c k ih => exact htrans (hexec (choices 0) w c) (ih _ _ _)

/-- Run alone from `w`, whatever the environment chooses, the program ends in `post`. -/
def Ends (exec : ε → ω → (c : κ) → ω × ρ c) (post : α → ω → Prop) : Prog κ ρ α → ω → Prop
  | .done a, w => post a w
  | .call c k, w => ∀ e, (k (exec e w c).2).Ends exec post (exec e w c).1

theorem Ends.imp {exec : ε → ω → (c : κ) → ω × ρ c} {post post' : α → ω → Prop} {p : Prog κ ρ α}
    {w : ω} (h : p.Ends exec post w) (hpost : ∀ a w, post a w → post' a w) :
    p.Ends exec post' w := by
  induction p generalizing w with
  | done a => exact hpost a w h
  | call c k ih => exact fun e => ih _ (h e)

theorem Ends.run {exec : ε → ω → (c : κ) → ω × ρ c} {post : α → ω → Prop} {p : Prog κ ρ α} {w : ω}
    (h : p.Ends exec post w) (choices : Nat → ε) :
    post (p.run exec choices w).2 (p.run exec choices w).1 := by
  induction p generalizing choices w with
  | done a => exact h
  | call c k ih => exact ih _ (h (choices 0)) _

end Prog

-- ---------------------------------------------------------------------------
-- Pools
-- ---------------------------------------------------------------------------

variable {τ : Type t} {κ : Type u} {ρ : κ → Type v} {α : Type w} {ω : Type w} {ε : Type x} {ν : Type y}

structure Task (τ : Type t) (κ : Type u) (ρ : κ → Type v) (α : Type w) (ν : Type y) where
  request : τ
  prog : Prog κ ρ α
  note : ν

structure Pool (τ : Type t) (κ : Type u) (ρ : κ → Type v) (α : Type w) (ω : Type w) (ν : Type y) where
  world : ω
  tasks : List (Task τ κ ρ α ν)

inductive Event (τ : Type t) (ε : Type x)
  | spawn (request : τ)
  | step (task : Nat) (choice : ε)

variable (world : World κ ρ ω ε ν) (program : τ → Prog κ ρ α)

def Task.advance (choice : ε) (w : ω) (t : Task τ κ ρ α ν) : ω × Task τ κ ρ α ν :=
  match t.prog with
  | .done _ => (w, t)
  | .call c k =>
    let (w', r) := world.exec choice w c
    (w', { t with prog := k r, note := world.observe t.note w c r })

def Pool.step (p : Pool τ κ ρ α ω ν) : Event τ ε → Pool τ κ ρ α ω ν
  | .spawn request => { p with tasks := p.tasks ++ [⟨request, program request, world.blank⟩] }
  | .step i choice =>
    match p.tasks[i]? with
    | none => p
    | some t =>
      let (w, t) := t.advance world choice p.world
      { world := w, tasks := p.tasks.set i t }

/-- The call an event makes: the request, the environment's choice, the task's note, the call. -/
def Pool.call? (p : Pool τ κ ρ α ω ν) : Event τ ε → Option (τ × ε × ν × κ)
  | .spawn _ => none
  | .step i choice =>
    p.tasks[i]?.bind fun t =>
      match t.prog with
      | .done _ => none
      | .call c _ => some (t.request, choice, t.note, c)

def pool (start : ω) : Reactive.System (Pool τ κ ρ α ω ν) (Event τ ε) Unit where
  init := { world := start, tasks := [] }
  step p e := (p.step world program e, ())

-- ---------------------------------------------------------------------------
-- Rely and guarantee
-- ---------------------------------------------------------------------------

/-- What the program of a request may rely on and what it owes. `inv` is
assumed of every world it meets; `here` is owed wherever it stands, however
long it is kept waiting; `guar` is owed of every call it makes. -/
structure Contract (τ : Type t) (κ : Type u) (α : Type w) (ω : Type w) (ε : Type x) (ν : Type y) where
  inv : ω → Prop
  rely : ω → ω → Prop
  here : τ → ν → Point κ α → ω → Prop
  guar : τ → ε → ν → κ → ω → ν → Point κ α → ω → Prop
  refl : ∀ w, rely w w
  trans : ∀ {w₁ w₂ w₃}, rely w₁ w₂ → rely w₂ w₃ → rely w₁ w₃
  rely_of_guar : ∀ {request e n c w n' q w'}, guar request e n c w n' q w' → rely w w'

def Contract.Kept (C : Contract τ κ α ω ε ν) (request : τ) : ν → Prog κ ρ α → ω → Prop
  | n, .done a, w => ∀ w', C.rely w w' → C.inv w' → C.here request n (.finished a) w'
  | n, .call c k, w => ∀ w', C.rely w w' → C.inv w' →
      C.here request n (.waiting c) w' ∧
        ∀ e, let x := world.exec e w' c
          C.guar request e n c w' (world.observe n w' c x.2) (k x.2).point x.1 ∧
            (C.inv x.1 → Contract.Kept C request (world.observe n w' c x.2) (k x.2) x.1)

structure Pool.Kept (C : Contract τ κ α ω ε ν) (p : Pool τ κ ρ α ω ν) : Prop where
  inv : C.inv p.world
  tasks : ∀ t ∈ p.tasks, C.Kept world t.request t.note t.prog p.world

section
variable {world} {program} {C : Contract τ κ α ω ε ν} {p : Pool τ κ ρ α ω ν} {t : Task τ κ ρ α ν}

@[simp] theorem Task.advance_request (choice : ε) (w : ω) :
    (t.advance world choice w).2.request = t.request := by
  unfold Task.advance
  split <;> rfl

theorem Task.advance_finished {a : α} (h : t.prog.point = .finished a) (choice : ε) (w : ω) :
    t.advance world choice w = (w, t) := by
  obtain ⟨request, prog, note⟩ := t
  cases prog with
  | done a => rfl
  | call c k => exact absurd h (waiting_ne_finished c a)

theorem Contract.Kept.mono {request : τ} {n : ν} {w w' : ω} {prog : Prog κ ρ α}
    (h : C.Kept world request n prog w) (hw : C.rely w w') : C.Kept world request n prog w' := by
  cases prog with
  | done a => exact fun w'' hw' hi => h w'' (C.trans hw hw') hi
  | call c k => exact fun w'' hw' hi => h w'' (C.trans hw hw') hi

theorem Contract.Kept.here {request : τ} {n : ν} {w : ω} {prog : Prog κ ρ α}
    (h : C.Kept world request n prog w) (hi : C.inv w) : C.here request n prog.point w := by
  cases prog with
  | done a => exact h w (C.refl w) hi
  | call c k => exact (h w (C.refl w) hi).1

/-- Calls that owe nothing but what they always do keep a contract that asks
nothing of where the program stands. -/
theorem Prog.AllCalls.kept {P : κ → Prop} {request : τ} {n : ν} {w : ω} {prog : Prog κ ρ α}
    (h : prog.AllCalls P) (hhere : ∀ n q w, C.here request n q w)
    (hguar : ∀ e n c w n' q, P c → C.inv w →
      C.guar request e n c w n' q (world.exec e w c).1) :
    C.Kept world request n prog w := by
  induction prog generalizing n w with
  | done a => exact fun _ _ _ => hhere _ _ _
  | call c k ih =>
    obtain ⟨hc, hk⟩ := h
    intro w' _ hi
    exact ⟨hhere _ _ _, fun e => ⟨hguar _ _ _ _ _ _ hc hi, fun _ => ih _ (hk _)⟩⟩

theorem Contract.Kept.guar {w : ω} {c : κ} (h : C.Kept world t.request t.note t.prog w) (hi : C.inv w)
    (hc : t.prog.point = .waiting c) (choice : ε) :
    C.guar t.request choice t.note c w (t.advance world choice w).2.note
      (t.advance world choice w).2.prog.point
      (t.advance world choice w).1 := by
  obtain ⟨request, prog, note⟩ := t
  cases prog with
  | done a => simp at hc
  | call c' k =>
    obtain rfl : c' = c := by simpa using hc
    exact ((h w (C.refl w) hi).2 choice).1

theorem Contract.Kept.advance {w : ω} (h : C.Kept world t.request t.note t.prog w) (hi : C.inv w)
    (choice : ε) :
    C.rely w (t.advance world choice w).1 ∧
      (C.inv (t.advance world choice w).1 →
        C.Kept world t.request (t.advance world choice w).2.note
          (t.advance world choice w).2.prog (t.advance world choice w).1) := by
  obtain ⟨request, prog, note⟩ := t
  cases prog with
  | done a => exact ⟨C.refl w, fun _ => h⟩
  | call c k =>
    obtain ⟨hguar, hnext⟩ := (h w (C.refl w) hi).2 choice
    exact ⟨C.rely_of_guar hguar, hnext⟩

variable (program) in
theorem Pool.Kept.step (h : p.Kept world C)
    (hspawn : ∀ request w, C.inv w → C.Kept world request world.blank (program request) w)
    (e : Event τ ε)
    (hi : C.inv (p.step world program e).world) : (p.step world program e).Kept world C := by
  refine ⟨hi, ?_⟩
  cases e with
  | spawn request =>
    intro t ht
    rcases List.mem_append.mp ht with ht | ht
    · exact h.tasks t ht
    · rw [List.mem_singleton.mp ht]
      exact hspawn request p.world h.inv
  | step i choice =>
    simp only [Pool.step] at hi ⊢
    cases hget : p.tasks[i]? with
    | none => exact h.tasks
    | some t =>
      simp only [hget] at hi ⊢
      obtain ⟨hrely, hnext⟩ := (h.tasks t (List.mem_of_getElem? hget)).advance h.inv choice
      intro t' ht'
      rcases List.mem_or_eq_of_mem_set ht' with ht' | rfl
      · exact (h.tasks t' ht').mono hrely
      · rw [Task.advance_request]
        exact hnext hi

theorem Pool.task_origin {e : Event τ ε} {i : Nat} (h : (p.step world program e).tasks[i]? = some t) :
    p.tasks[i]? = some t ∨
      (∃ request, e = .spawn request ∧ t = ⟨request, program request, world.blank⟩) ∨
      ∃ choice t₀, e = .step i choice ∧ p.tasks[i]? = some t₀ ∧
        t = (t₀.advance world choice p.world).2 ∧
          (p.step world program e).world = (t₀.advance world choice p.world).1 := by
  cases e with
  | spawn request =>
    simp only [Pool.step, List.getElem?_append] at h
    split at h
    · exact .inl h
    · rw [List.getElem?_singleton] at h
      split at h
      · exact .inr (.inl ⟨request, rfl, (Option.some.inj h).symm⟩)
      · exact absurd h nofun
  | step j choice =>
    simp only [Pool.step] at h ⊢
    cases hget : p.tasks[j]? with
    | none => simp only [hget] at h; exact .inl h
    | some t₀ =>
      simp only [hget] at h ⊢
      by_cases hij : j = i
      · subst hij
        rw [List.getElem?_set_self (List.getElem?_eq_some_iff.mp hget).1] at h
        exact .inr (.inr ⟨choice, t₀, rfl, hget, (Option.some.inj h).symm, rfl⟩)
      · rw [List.getElem?_set_ne hij] at h
        exact .inl h

theorem Pool.world_of_no_call {e : Event τ ε} (h : p.call? e = none) :
    (p.step world program e).world = p.world := by
  cases e with
  | spawn request => rfl
  | step i choice =>
    simp only [Pool.call?, Pool.step] at h ⊢
    cases hget : p.tasks[i]? with
    | none => rfl
    | some t =>
      obtain ⟨request, prog, note⟩ := t
      cases prog with
      | done a => rfl
      | call c k => simp [hget] at h

variable (world program) in
/-- An event idles, starts a request, or makes the call a task waits at. -/
theorem Pool.step_cases (p : Pool τ κ ρ α ω ν) (e : Event τ ε) :
    p.step world program e = p ∨
      (∃ request, p.step world program e =
        { p with tasks := p.tasks ++ [⟨request, program request, world.blank⟩] }) ∨
      ∃ i choice request c k n, p.tasks[i]? = some ⟨request, .call c k, n⟩ ∧
        p.call? e = some (request, choice, n, c) ∧
        p.step world program e =
          { world := (world.exec choice p.world c).1
            tasks := p.tasks.set i ⟨request, k (world.exec choice p.world c).2,
              world.observe n p.world c (world.exec choice p.world c).2⟩ } := by
  cases e with
  | spawn request => exact .inr (.inl ⟨request, rfl⟩)
  | step i choice =>
    simp only [Pool.step, Pool.call?]
    cases hget : p.tasks[i]? with
    | none => exact .inl rfl
    | some t =>
      obtain ⟨request, prog, n⟩ := t
      cases prog with
      | done a =>
        obtain ⟨hlt, hself⟩ := List.getElem?_eq_some_iff.mp hget
        refine .inl (congrArg (Pool.mk p.world) ?_)
        exact (congrArg (p.tasks.set i) hself.symm).trans (List.set_getElem_self hlt)
      | call c k => exact .inr (.inr ⟨i, choice, request, c, k, n, hget, rfl, rfl⟩)

theorem Pool.task_of_call {e : Event τ ε} {request : τ} {choice : ε} {n : ν} {c : κ}
    (h : p.call? e = some (request, choice, n, c)) :
    ∃ i k, e = .step i choice ∧ p.tasks[i]? = some ⟨request, .call c k, n⟩ := by
  cases e with
  | spawn request' => exact absurd h.symm (Option.some_ne_none _)
  | step i choice' =>
    simp only [Pool.call?] at h
    cases hget : p.tasks[i]? with
    | none => simp [hget] at h
    | some t =>
      obtain ⟨request', prog, note⟩ := t
      cases prog with
      | done a => simp [hget] at h
      | call c' k =>
        obtain ⟨rfl, rfl, rfl, rfl⟩ : request' = request ∧ choice' = choice ∧ note = n ∧ c' = c := by
          simpa [hget] using h
        exact ⟨i, k, rfl, hget⟩

variable (world program) in
theorem Pool.call_cases {e : Event τ ε} {request : τ} {choice : ε} {n : ν} {c : κ}
    (h : p.call? e = some (request, choice, n, c)) :
    ∃ i k, e = .step i choice ∧ p.tasks[i]? = some ⟨request, .call c k, n⟩ ∧
      p.step world program e =
        { world := (world.exec choice p.world c).1
          tasks := p.tasks.set i ⟨request, k (world.exec choice p.world c).2,
            world.observe n p.world c (world.exec choice p.world c).2⟩ } := by
  obtain ⟨i, k, rfl, hget⟩ := Pool.task_of_call h
  refine ⟨i, k, rfl, hget, ?_⟩
  simp only [Pool.step, hget]
  rfl

/-- A call moves one task: what is counted of the tasks changes as that task does. -/
theorem countP_set_task (f : Task τ κ ρ α ν → Bool) {tasks : List (Task τ κ ρ α ν)} {i : Nat}
    {t : Task τ κ ρ α ν} (t' : Task τ κ ρ α ν) (h : tasks[i]? = some t) :
    (tasks.set i t').countP f + (f t).toNat = tasks.countP f + (f t').toNat := by
  obtain ⟨hlt, rfl⟩ := List.getElem?_eq_some_iff.mp h
  have hpos : f tasks[i] = true → 0 < tasks.countP f := fun hf =>
    List.countP_pos_iff.mpr ⟨_, List.getElem_mem hlt, hf⟩
  rw [List.countP_set hlt]
  cases hf : f tasks[i] with
  | false => cases f t' <;> simp
  | true =>
    have hsome := hpos hf
    cases f t' <;> simp <;> omega

variable (program) in
theorem Pool.Kept.call (h : p.Kept world C) {e : Event τ ε} {request : τ} {choice : ε}
    {n : ν} {c : κ} (hc : p.call? e = some (request, choice, n, c)) :
    ∃ n' q, C.guar request choice n c p.world n' q (p.step world program e).world := by
  cases e with
  | spawn request => exact absurd hc nofun
  | step i choice' =>
    simp only [Pool.call?] at hc
    cases hget : p.tasks[i]? with
    | none => simp [hget] at hc
    | some t =>
      obtain ⟨request', prog, note⟩ := t
      cases prog with
      | done a => simp [hget] at hc
      | call c' k =>
        obtain ⟨rfl, rfl, rfl, rfl⟩ : request' = request ∧ choice' = choice ∧ note = n ∧ c' = c := by
          simpa [hget] using hc
        have hguar := (h.tasks _ (List.mem_of_getElem? hget)).guar h.inv rfl choice'
        simp only [Pool.step, hget]
        exact ⟨_, _, hguar⟩

/-- Where every call owes the invariant, a pool of programs that keep the
contract keeps it in every run. -/
theorem Pool.Kept.run {program : τ → Prog κ ρ α}
    (hspawn : ∀ request w, C.inv w → C.Kept world request world.blank (program request) w)
    (hinv : ∀ {request e n c w n' q w'}, C.inv w → C.guar request e n c w n' q w' → C.inv w')
    {start : ω} (hstart : C.inv start) (es : List (Event τ ε)) :
    ((pool world program start).state ((pool world program start).log es)).Kept world C := by
  induction es with
  | nil => exact ⟨hstart, nofun⟩
  | cons e es ih =>
    refine ih.step program hspawn e ?_
    cases hc : ((pool world program start).state ((pool world program start).log es)).call? e with
    | none => exact (Pool.world_of_no_call hc).symm ▸ ih.inv
    | some call =>
      obtain ⟨_, _, hguar⟩ := ih.call program hc
      exact hinv ih.inv hguar

variable (program) in
theorem Pool.Kept.step_rely (h : p.Kept world C) (e : Event τ ε) :
    C.rely p.world (p.step world program e).world := by
  cases hc : p.call? e with
  | none => exact (Pool.world_of_no_call hc).symm ▸ C.refl p.world
  | some call =>
    obtain ⟨_, _, hguar⟩ := h.call program hc
    exact C.rely_of_guar hguar

/-- Every entry of such a run is a step of a pool that keeps the contract, and
what happens after it is what the contract lets happen. -/
theorem Pool.Kept.of_mem {program : τ → Prog κ ρ α}
    (hspawn : ∀ request w, C.inv w → C.Kept world request world.blank (program request) w)
    (hinv : ∀ {request e n c w n' q w'}, C.inv w → C.guar request e n c w n' q w' → C.inv w')
    {start : ω} (hstart : C.inv start) (es : List (Event τ ε))
    {x : Reactive.Entry (Pool τ κ ρ α ω ν) (Event τ ε) Unit}
    (hx : x ∈ (pool world program start).log es) :
    x.before.Kept world C ∧ x.after = x.before.step world program x.event ∧
      C.rely x.after.world ((pool world program start).state ((pool world program start).log es)).world := by
  induction es with
  | nil => exact absurd hx List.not_mem_nil
  | cons e es ih =>
    rw [Reactive.System.log_cons] at hx ⊢
    have hkept := Pool.Kept.run hspawn hinv hstart es
    rcases List.mem_cons.mp hx with rfl | hx
    · exact ⟨hkept, rfl, C.refl _⟩
    · obtain ⟨hbefore, hafter, hrely⟩ := ih hx
      exact ⟨hbefore, hafter, C.trans hrely (hkept.step_rely program e)⟩

end

-- ---------------------------------------------------------------------------
-- The turns of one task
-- ---------------------------------------------------------------------------

abbrev PoolLog (τ : Type t) (κ : Type u) (ρ : κ → Type v) (α : Type w) (ω : Type w) (ε : Type x)
    (ν : Type y) :=
  Reactive.Log (Pool τ κ ρ α ω ν) (Event τ ε) Unit

/-- The event gives task `i`, which there is, a turn. -/
def Pool.isTurn (p : Pool τ κ ρ α ω ν) (i : Nat) : Event τ ε → Bool
  | .spawn _ => false
  | .step j _ => j == i && p.tasks[i]?.isSome

def turns (i : Nat) (l : PoolLog τ κ ρ α ω ε ν) : PoolLog τ κ ρ α ω ε ν :=
  l.filter fun x => x.before.isTurn i x.event

section
variable {world} {program} {start : ω} {p : Pool τ κ ρ α ω ν} {t : Task τ κ ρ α ν} {i : Nat}
  {e : Event τ ε} {es : List (Event τ ε)}

theorem mem_of_mem_turns {l : PoolLog τ κ ρ α ω ε ν} {x} (hx : x ∈ turns i l) : x ∈ l :=
  (List.mem_filter.mp hx).1

theorem Pool.isTurn_iff :
    p.isTurn i e = true ↔ ∃ choice t, e = .step i choice ∧ p.tasks[i]? = some t := by
  cases e with
  | spawn request => simp [Pool.isTurn]
  | step j choice =>
    simp only [Pool.isTurn, Bool.and_eq_true, beq_iff_eq, Option.isSome_iff_exists]
    constructor
    · rintro ⟨rfl, t, ht⟩
      exact ⟨choice, t, rfl, ht⟩
    · rintro ⟨choice', t, he, ht⟩
      cases he
      exact ⟨rfl, t, ht⟩

theorem Pool.call?_step (h : p.tasks[i]? = some t) (choice : ε) :
    p.call? (.step i choice) = match t.prog with
      | .done _ => none
      | .call c _ => some (t.request, choice, t.note, c) := by
  simp only [Pool.call?, h]
  rfl

variable (program) in
theorem Pool.step_turn (h : p.tasks[i]? = some t) (choice : ε) :
    (p.step world program (.step i choice)).tasks[i]? = some (t.advance world choice p.world).2 := by
  simp only [Pool.step, h]
  exact List.getElem?_set_self (List.getElem?_eq_some_iff.mp h).1

variable (program) in
theorem Pool.step_other (h : p.tasks[i]? = some t) (he : p.isTurn i e = false) :
    (p.step world program e).tasks[i]? = some t := by
  cases e with
  | spawn request =>
    simp only [Pool.step]
    rw [List.getElem?_append_left (List.getElem?_eq_some_iff.mp h).1, h]
  | step j choice =>
    have hne : j ≠ i := by simpa [Pool.isTurn, h] using he
    simp only [Pool.step]
    split
    · exact h
    · simp only [List.getElem?_set_ne hne, h]

theorem Pool.step_fresh (h : p.tasks[i]? = none) (h' : (p.step world program e).tasks[i]? = some t) :
    ∃ request, t = ⟨request, program request, world.blank⟩ := by
  rcases Pool.task_origin h' with hsame | ⟨request, -, rfl⟩ | ⟨choice, t₀, -, hget, -⟩
  · simp [h] at hsame
  · exact ⟨request, rfl⟩
  · simp [h] at hget

theorem turns_idle
    (h : ((pool world program start).state ((pool world program start).log es)).isTurn i e = false) :
    turns i ((pool world program start).log (e :: es)) = turns i ((pool world program start).log es) :=
  List.filter_cons_of_neg fun hturn => Bool.false_ne_true (h.symm.trans hturn)

theorem turns_given
    (h : ((pool world program start).state ((pool world program start).log es)).isTurn i e = true) :
    turns i ((pool world program start).log (e :: es)) =
      (pool world program start).react ((pool world program start).state
        ((pool world program start).log es)) e :: turns i ((pool world program start).log es) :=
  List.filter_cons_of_pos h

theorem Pool.isTurn_absent (h : p.tasks[i]? = none) (e : Event τ ε) : p.isTurn i e = false := by
  cases e with
  | spawn request => rfl
  | step j choice => simp [Pool.isTurn, h]

theorem turns_absent
    (h : ((pool world program start).state ((pool world program start).log es)).tasks[i]? = none) :
    turns i ((pool world program start).log es) = [] := by
  induction es with
  | nil => rfl
  | cons e es ih =>
    cases hget : ((pool world program start).state ((pool world program start).log es)).tasks[i]? with
    | none =>
      rw [turns_idle (Pool.isTurn_absent hget e)]
      exact ih hget
    | some t =>
      cases hgiven : Pool.isTurn _ i e with
      | false => exact absurd ((Pool.step_other program hget hgiven).symm.trans h) nofun
      | true =>
        obtain ⟨choice, -, rfl, -⟩ := Pool.isTurn_iff.mp hgiven
        exact absurd ((Pool.step_turn program hget choice).symm.trans h) nofun

/-- What holds of every request as it starts, with no turn taken, and is kept
by each turn, holds of a task and the turns it has taken. -/
theorem turns_induction {P : Task τ κ ρ α ν → PoolLog τ κ ρ α ω ε ν → Prop}
    (hspawn : ∀ request, P ⟨request, program request, world.blank⟩ [])
    (hturn : ∀ x choice t l, x.event = .step i choice → x.before.tasks[i]? = some t → P t l →
      P (t.advance world choice x.before.world).2 (x :: l))
    (h : ((pool world program start).state ((pool world program start).log es)).tasks[i]? = some t) :
    P t (turns i ((pool world program start).log es)) := by
  induction es generalizing t with
  | nil => exact absurd h nofun
  | cons e es ih =>
    cases hget : ((pool world program start).state ((pool world program start).log es)).tasks[i]? with
    | none =>
      obtain ⟨request, rfl⟩ := Pool.step_fresh hget h
      rw [turns_idle (Pool.isTurn_absent hget e), turns_absent hget]
      exact hspawn request
    | some t₀ =>
      have hbefore := ih hget
      cases hgiven : Pool.isTurn _ i e with
      | false =>
        obtain rfl := Option.some.inj ((Pool.step_other program hget hgiven).symm.trans h)
        rw [turns_idle hgiven]
        exact hbefore
      | true =>
        rw [turns_given hgiven]
        obtain ⟨choice, -, rfl, -⟩ := Pool.isTurn_iff.mp hgiven
        obtain rfl := Option.some.inj ((Pool.step_turn program hget choice).symm.trans h)
        exact hturn ((pool world program start).react _ (.step i choice)) choice t₀ _ rfl hget hbefore

/-- A task makes all its calls for one request. -/
theorem request_of_turn {x request choice n c}
    (h : ((pool world program start).state ((pool world program start).log es)).tasks[i]? = some t)
    (hx : x ∈ turns i ((pool world program start).log es))
    (hcall : x.before.call? x.event = some (request, choice, n, c)) : request = t.request := by
  refine turns_induction
    (P := fun t l => ∀ x ∈ l, ∀ request choice n c,
      x.before.call? x.event = some (request, choice, n, c) → request = t.request)
    ?_ ?_ h x hx request choice n c hcall
  · exact fun _ _ hx => absurd hx List.not_mem_nil
  · rintro y choice ⟨request, prog, note⟩ l hevent hget ih x hx request' choice' n c hcall
    rw [Task.advance_request]
    rcases List.mem_cons.mp hx with rfl | hx
    · rw [hevent, Pool.call?_step hget] at hcall
      cases prog with
      | done a => cases hcall
      | call c k => cases hcall; rfl
    · exact ih x hx request' choice' n c hcall

/-- What a note records of any call, it records of the calls its task has made. -/
theorem flag_iff (flag : ν → Bool) (raises : ω → (c : κ) → ρ c → Bool)
    (hblank : flag world.blank = false)
    (hobserve : ∀ n w c r, flag (world.observe n w c r) = (flag n || raises w c r))
    (h : ((pool world program start).state ((pool world program start).log es)).tasks[i]? = some t) :
    flag t.note = true ↔ ∃ x ∈ turns i ((pool world program start).log es), ∃ request choice n c,
      x.before.call? x.event = some (request, choice, n, c) ∧
        raises x.before.world c (world.exec choice x.before.world c).2 = true := by
  refine turns_induction
    (P := fun t l => flag t.note = true ↔ ∃ x ∈ l, ∃ request choice n c,
      x.before.call? x.event = some (request, choice, n, c) ∧
        raises x.before.world c (world.exec choice x.before.world c).2 = true)
    ?_ ?_ h
  · simp [hblank]
  · rintro x choice ⟨request, prog, note⟩ l hevent hget ih
    have hcall := hevent ▸ Pool.call?_step hget choice
    simp only [List.mem_cons, exists_eq_or_imp]
    rw [← ih]
    cases prog with
    | done a => simp [hcall, Task.advance]
    | call c k =>
      change flag (world.observe note x.before.world c _) = true ↔ _
      rw [hobserve, Bool.or_eq_true, or_comm]
      refine or_congr_left ⟨fun hr => ⟨request, choice, note, c, hcall, hr⟩, ?_⟩
      rintro ⟨request', choice', n, c', hcall', hr⟩
      cases Option.some.inj (hcall.symm.trans hcall')
      exact hr

/-- A task that has taken as many turns as its program has calls is finished. -/
theorem finished_of_turns {cost : κ → Nat → Prop} (hcost : ∀ c n, cost c n → 0 < n) {b : Nat}
    (hprogram : ∀ request, (program request).Costs cost b)
    (h : ((pool world program start).state ((pool world program start).log es)).tasks[i]? = some t)
    (hturns : b ≤ (turns i ((pool world program start).log es)).length) :
    ∃ a, t.prog.point = .finished a := by
  have hleft := turns_induction
    (P := fun t l => ∃ n, t.prog.Costs cost n ∧ ((∃ a, t.prog = .done a) ∨ n + l.length ≤ b))
    (fun request => ⟨b, hprogram request, .inr (Nat.le_refl b)⟩) ?_ h
  · obtain ⟨n, hleft, ⟨a, ha⟩ | hn⟩ := hleft
    · exact ⟨a, by rw [ha]; rfl⟩
    · obtain ⟨request, prog, note⟩ := t
      cases prog with
      | done a => exact ⟨a, rfl⟩
      | call c k =>
        obtain ⟨m, rest, rfl, hm, -⟩ := hleft
        have hpos := hcost c m hm
        omega
  · rintro x choice ⟨request, prog, note⟩ l - - ⟨n, hleft, hn⟩
    cases prog with
    | done a => exact ⟨n, hleft, .inl ⟨a, rfl⟩⟩
    | call c k =>
      obtain ⟨m, rest, rfl, hm, hk⟩ := hleft
      have hpos := hcost c m hm
      refine ⟨rest, hk _, .inr ?_⟩
      obtain ⟨a, ha⟩ | hn := hn
      · cases ha
      · simp only [List.length_cons]
        omega

end

end Interleaving
