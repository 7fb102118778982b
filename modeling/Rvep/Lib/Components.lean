import Rvep.Lib.Reactive

/-!
# Components of a reactive system

A component is a smaller system whose state is part of the whole's: each step
of the whole is one step of the component, or leaves it alone. What the whole's
log says about the component is then a log of the component, so a property
proved of the component's runs is a property of the whole's.
-/

namespace Reactive

variable {σ : Type u} {ε : Type v} {ω : Type w} {σ' : Type u'} {ε' : Type v'} {ω' : Type w'}

-- ---------------------------------------------------------------------------
-- More on the connectives
-- ---------------------------------------------------------------------------

theorem Always.of_forall {α : Type u} {ι : Type v} {p : ι → α → List α → Prop} :
    ∀ {l : List α}, (∀ i, Always (p i) l) → Always (fun x past => ∀ i, p i x past) l
  | [], _ => trivial
  | _ :: _, h => ⟨fun i => (h i).1, Always.of_forall fun i => (h i).2⟩

/-- What always held had always held before. -/
theorem Always.before {α : Type u} {p : α → List α → Prop} :
    ∀ {l : List α}, Always p l → Always (fun _ past => Always p past) l
  | [], _ => trivial
  | _ :: _, h => ⟨h.2, h.2.before⟩

/-- What once had been so, has been so. -/
theorem Once.flatten {α : Type u} {q : α → List α → Prop} :
    ∀ {l : List α}, Once (fun _ past => Once q past) l → Once q l
  | _ :: _, .inl h => .inr ⟨trivial, h⟩
  | _ :: _, .inr ⟨_, h⟩ => .inr ⟨trivial, Once.flatten h⟩

-- ---------------------------------------------------------------------------
-- Components
-- ---------------------------------------------------------------------------

/-- `event` is what a step of the whole asks of the component, if it does. -/
structure Component (whole : System σ ε ω) (part : System σ' ε' ω') where
  state : σ → σ'
  event : σ → ε → Option ε'
  init : state whole.init = part.init
  step : ∀ s e, state (whole.step s e).1 =
    (event s e).elim (state s) fun e' => (part.step (state s) e').1

namespace Component

variable {whole : System σ ε ω} {part : System σ' ε' ω'} (c : Component whole part)

def entry (x : Entry σ ε ω) : Option (Entry σ' ε' ω') :=
  (c.event x.before x.event).map (part.react (c.state x.before))

/-- The component's own log. -/
def trace (l : Log σ ε ω) : Log σ' ε' ω' := l.filterMap c.entry

@[simp] theorem trace_nil : c.trace [] = [] := rfl

variable {c} in
theorem trace_cons_none {x : Entry σ ε ω} {l : Log σ ε ω} (h : c.entry x = none) :
    c.trace (x :: l) = c.trace l :=
  List.filterMap_cons_none h

variable {c} in
theorem trace_cons_some {x : Entry σ ε ω} {l : Log σ ε ω} {y : Entry σ' ε' ω'}
    (h : c.entry x = some y) : c.trace (x :: l) = y :: c.trace l :=
  List.filterMap_cons_some h

theorem state_trace (es : List ε) :
    part.state (c.trace (whole.log es)) = c.state (whole.state (whole.log es)) := by
  induction es with
  | nil => exact c.init.symm
  | cons e es ih =>
    rw [System.log_cons, System.state_cons, System.react_after, c.step]
    cases he : c.event (whole.state (whole.log es)) e with
    | none =>
      rw [trace_cons_none (by simp [entry, he])]
      exact ih
    | some e' =>
      rw [trace_cons_some (y := part.react (c.state (whole.state (whole.log es))) e')
        (by simp [entry, he])]
      rfl

/-- The component's log is the log of a run of the component. -/
theorem trace_log (es : List ε) : ∃ es', c.trace (whole.log es) = part.log es' := by
  induction es with
  | nil => exact ⟨[], rfl⟩
  | cons e es ih =>
    obtain ⟨es', htrace⟩ := ih
    rw [System.log_cons]
    cases he : c.event (whole.state (whole.log es)) e with
    | none => exact ⟨es', (trace_cons_none (by simp [entry, he])).trans htrace⟩
    | some e' =>
      refine ⟨e' :: es', ?_⟩
      rw [System.log_cons, ← htrace, c.state_trace]
      exact trace_cons_some (by simp [entry, he])

section
variable {c} {p q : Entry σ' ε' ω' → Log σ' ε' ω' → Prop}

theorem always_trace : ∀ {l : Log σ ε ω},
    Always p (c.trace l) ↔ Always (fun x past => ∀ y ∈ c.entry x, p y (c.trace past)) l
  | [] => Iff.rfl
  | x :: l => by
    rw [always_cons, ← always_trace]
    cases hx : c.entry x with
    | none => simp [trace_cons_none hx]
    | some y => simp [trace_cons_some hx]

theorem since_trace : ∀ {l : Log σ ε ω}, Since p q (c.trace l) ↔
    Since (fun x past => ∀ y ∈ c.entry x, p y (c.trace past))
      (fun x past => ∃ y ∈ c.entry x, q y (c.trace past)) l
  | [] => Iff.rfl
  | x :: l => by
    rw [since_cons, ← since_trace]
    cases hx : c.entry x with
    | none => simp [trace_cons_none hx]
    | some y => simp [trace_cons_some hx]

theorem once_trace {l : Log σ ε ω} :
    Once q (c.trace l) ↔ Once (fun x past => ∃ y ∈ c.entry x, q y (c.trace past)) l := by
  unfold Once
  rw [since_trace]
  simp

/-- What every run of the component has, the component has in every run of the whole. -/
theorem always_of_part (h : ∀ es', Always p (part.log es')) (es : List ε) :
    Always (fun x past => ∀ y ∈ c.entry x, p y (c.trace past)) (whole.log es) := by
  obtain ⟨es', htrace⟩ := c.trace_log es
  exact always_trace.mp (htrace ▸ h es')

/-- As `always_of_part`, for the runs whose environment keeps to `ok`. -/
theorem always_of_part_ok {ok : Entry σ' ε' ω' → Log σ' ε' ω' → Prop}
    (h : ∀ es', Always ok (part.log es') → Always p (part.log es')) (es : List ε)
    (hok : Always (fun x past => ∀ y ∈ c.entry x, ok y (c.trace past)) (whole.log es)) :
    Always (fun x past => ∀ y ∈ c.entry x, p y (c.trace past)) (whole.log es) := by
  obtain ⟨es', htrace⟩ := c.trace_log es
  exact always_trace.mp (htrace ▸ h es' (htrace ▸ always_trace.mpr hok))

end

end Component

end Reactive
