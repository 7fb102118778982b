/-!
# Reactive systems and their logs

A reactive system takes one event at a time and answers each with an output.
Its log is the list of everything that happened, newest entry first, so that
the tail of a log is the past of its head and a statement about a run is a
recursion over the log. `Always`, `Once` and `Since` are the past-time
connectives such statements are written with.
-/

namespace Reactive

/-- Every choice the environment makes (which message arrives, what the clock
reads) is part of the event, so one event has one outcome. -/
structure System (σ : Type u) (ε : Type v) (ω : Type w) where
  init : σ
  step : σ → ε → σ × ω

structure Entry (σ : Type u) (ε : Type v) (ω : Type w) where
  before : σ
  event : ε
  after : σ
  output : ω
  deriving DecidableEq, Repr

abbrev Log (σ : Type u) (ε : Type v) (ω : Type w) := List (Entry σ ε ω)

namespace System

variable {σ : Type u} {ε : Type v} {ω : Type w} (sys : System σ ε ω)

def react (s : σ) (e : ε) : Entry σ ε ω := ⟨s, e, (sys.step s e).1, (sys.step s e).2⟩

def state : Log σ ε ω → σ
  | [] => sys.init
  | x :: _ => x.after

/-- The log of a schedule; like the log, the schedule is newest first. -/
def log : List ε → Log σ ε ω
  | [] => []
  | e :: past => sys.react (sys.state (log past)) e :: log past

@[simp] theorem react_before (s : σ) (e : ε) : (sys.react s e).before = s := rfl
@[simp] theorem react_event (s : σ) (e : ε) : (sys.react s e).event = e := rfl
@[simp] theorem react_after (s : σ) (e : ε) : (sys.react s e).after = (sys.step s e).1 := rfl
@[simp] theorem react_output (s : σ) (e : ε) : (sys.react s e).output = (sys.step s e).2 := rfl
@[simp] theorem state_nil : sys.state ([] : Log σ ε ω) = sys.init := rfl
@[simp] theorem state_cons (x : Entry σ ε ω) (l : Log σ ε ω) : sys.state (x :: l) = x.after := rfl
@[simp] theorem log_nil : sys.log [] = [] := rfl
theorem log_cons (e : ε) (past : List ε) :
    sys.log (e :: past) = sys.react (sys.state (sys.log past)) e :: sys.log past := rfl

theorem length_log (es : List ε) : (sys.log es).length = es.length := by
  induction es with
  | nil => rfl
  | cons e es ih => exact congrArg (· + 1) ih

end System

-- ---------------------------------------------------------------------------
-- Past-time connectives
-- ---------------------------------------------------------------------------

variable {α : Type u}

/-- `p` held at every entry, each judged against its own past. -/
def Always (p : α → List α → Prop) : List α → Prop
  | [] => True
  | x :: past => p x past ∧ Always p past

/-- `q` held at some entry, and `p` at every entry after it. -/
def Since (p q : α → List α → Prop) : List α → Prop
  | [] => False
  | x :: past => q x past ∨ (p x past ∧ Since p q past)

def Once (q : α → List α → Prop) : List α → Prop := Since (fun _ _ => True) q

instance Always.decidable (p : α → List α → Prop) [∀ x l, Decidable (p x l)] :
    (l : List α) → Decidable (Always p l)
  | [] => inferInstanceAs (Decidable True)
  | x :: past =>
    have := Always.decidable p past
    inferInstanceAs (Decidable (p x past ∧ Always p past))

instance Since.decidable (p q : α → List α → Prop) [∀ x l, Decidable (p x l)]
    [∀ x l, Decidable (q x l)] : (l : List α) → Decidable (Since p q l)
  | [] => inferInstanceAs (Decidable False)
  | x :: past =>
    have := Since.decidable p q past
    inferInstanceAs (Decidable (q x past ∨ (p x past ∧ Since p q past)))

instance Once.decidable (q : α → List α → Prop) [∀ x l, Decidable (q x l)] (l : List α) :
    Decidable (Once q l) :=
  inferInstanceAs (Decidable (Since (fun _ _ => True) q l))

section
variable {p p' q q' : α → List α → Prop} {x : α} {past l : List α}

@[simp] theorem always_nil : Always p [] := trivial
@[simp] theorem always_cons : Always p (x :: past) ↔ p x past ∧ Always p past := Iff.rfl
@[simp] theorem since_nil : ¬ Since p q [] := id
@[simp] theorem since_cons : Since p q (x :: past) ↔ q x past ∨ (p x past ∧ Since p q past) := Iff.rfl
@[simp] theorem once_nil : ¬ Once q [] := id
@[simp] theorem once_cons : Once q (x :: past) ↔ q x past ∨ Once q past := by
  simp [Once]

theorem Always.imp (h : ∀ x past, p x past → p' x past) : ∀ {l : List α}, Always p l → Always p' l
  | [], _ => trivial
  | x :: past, hl => ⟨h x past hl.1, hl.2.imp h⟩

theorem Always.and : ∀ {l : List α}, Always p l → Always q l →
    Always (fun x past => p x past ∧ q x past) l
  | [], _, _ => trivial
  | _ :: _, hp, hq => ⟨⟨hp.1, hq.1⟩, hp.2.and hq.2⟩

theorem Since.imp (hp : ∀ x past, p x past → p' x past) (hq : ∀ x past, q x past → q' x past) :
    ∀ {l : List α}, Since p q l → Since p' q' l
  | _ :: _, .inl h => .inl (hq _ _ h)
  | _ :: _, .inr ⟨h, hs⟩ => .inr ⟨hp _ _ h, hs.imp hp hq⟩

theorem Since.once (h : Since p q l) : Once q l := h.imp (fun _ _ _ => trivial) (fun _ _ h => h)

theorem Once.of_or : ∀ {l : List α}, Once (fun x past => p x past ∨ q x past) l → Once p l ∨ Once q l
  | _ :: _, .inl h => h.imp .inl .inl
  | _ :: _, .inr ⟨_, hs⟩ => (Once.of_or hs).imp (fun h => .inr ⟨trivial, h⟩) fun h => .inr ⟨trivial, h⟩

/-- What holds of every entry may be assumed of those a `Since` speaks of. -/
theorem Since.and_always {r : α → List α → Prop} : ∀ {l : List α}, Since p q l → Always r l →
    Since (fun x past => p x past ∧ r x past) (fun x past => q x past ∧ r x past) l
  | _ :: _, .inl h, ha => .inl ⟨h, ha.1⟩
  | _ :: _, .inr ⟨h, hs⟩, ha => .inr ⟨⟨h, ha.1⟩, hs.and_always ha.2⟩

end

-- ---------------------------------------------------------------------------
-- The last value of a log
-- ---------------------------------------------------------------------------

def latest (f : α → List β) : List α → Option β
  | [] => none
  | x :: past => (f x).getLast?.or (latest f past)

section
variable {β : Type v} {f : α → List β} {p q : α → List α → Prop} {b : β}

@[simp] theorem latest_nil : latest f [] = none := rfl
theorem latest_cons : latest f (x :: past) = (f x).getLast?.or (latest f past) := rfl

theorem latest_cons_of_nil (h : f x = []) : latest f (x :: past) = latest f past := by
  simp [latest_cons, h]

theorem latest_cons_of_getLast (h : (f x).getLast? = some b) : latest f (x :: past) = some b := by
  simp [latest_cons, h]

/-- What `q` sets and `p` leaves alone, or sets again, is still there. -/
theorem Since.latest (hq : ∀ x past, q x past → (f x).getLast? = some b)
    (hp : ∀ x past, p x past → f x = [] ∨ (f x).getLast? = some b) :
    ∀ {l : List α}, Since p q l → latest f l = some b
  | x :: past, .inl h => latest_cons_of_getLast (hq x past h)
  | x :: past, .inr ⟨h, hs⟩ => by
    rcases hp x past h with h | h
    · exact (latest_cons_of_nil h).trans (hs.latest hq hp)
    · exact latest_cons_of_getLast h

theorem once_of_latest (h : Reactive.latest f l = some b) : Once (fun x _ => b ∈ f x) l := by
  induction l with
  | nil => exact absurd h nofun
  | cons x past ih =>
    rw [once_cons]
    rcases Option.or_eq_some_iff.mp h with h | ⟨-, h⟩
    · exact .inl (List.mem_of_getLast? h)
    · exact .inr (ih h)

theorem latest_of_once : ∀ {l : List α}, Once (fun x _ => f x ≠ []) l →
    ∃ b, Reactive.latest f l = some b
  | x :: past, .inl h => ⟨_, latest_cons_of_getLast (List.getLast?_eq_some_getLast h)⟩
  | x :: past, .inr ⟨_, hs⟩ => by
    obtain ⟨b, hb⟩ := latest_of_once hs
    cases hx : (f x).getLast? with
    | none => exact ⟨b, by simp [latest_cons, hx, hb]⟩
    | some c => exact ⟨c, latest_cons_of_getLast hx⟩

end

/-- What the entries contribute, oldest first. -/
def collected (f : α → List β) (l : List α) : List β := l.reverse.flatMap f

@[simp] theorem collected_nil {f : α → List β} : collected f [] = [] := rfl

@[simp] theorem collected_cons {f : α → List β} :
    collected f (x :: past) = collected f past ++ f x := by
  simp [collected]

-- ---------------------------------------------------------------------------
-- Induction over runs
-- ---------------------------------------------------------------------------

namespace System

variable {σ : Type u} {ε : Type v} {ω : Type w} {sys : System σ ε ω}

/-- Induction over the log of a run whose entries all meet `ok`: the
environment assumption (clock order, a schedule that avoids a race) is
available at every step. -/
theorem log_induction {ok : Entry σ ε ω → Log σ ε ω → Prop} {motive : Log σ ε ω → Prop}
    (start : motive [])
    (next : ∀ past e, motive past → Always ok past → ok (sys.react (sys.state past) e) past →
      motive (sys.react (sys.state past) e :: past)) :
    ∀ es, Always ok (sys.log es) → motive (sys.log es)
  | [], _ => start
  | e :: es, h => next (sys.log es) e (log_induction start next es h.2) h.2 h.1

theorem always_of_invariant {ok p : Entry σ ε ω → Log σ ε ω → Prop} (inv : Log σ ε ω → Prop)
    (start : inv [])
    (next : ∀ past e, inv past → ok (sys.react (sys.state past) e) past →
      inv (sys.react (sys.state past) e :: past) ∧ p (sys.react (sys.state past) e) past)
    (es : List ε) (h : Always ok (sys.log es)) : Always p (sys.log es) :=
  (log_induction (motive := fun l => inv l ∧ Always p l) ⟨start, trivial⟩
    (fun past e hm _ hok => by
      obtain ⟨hi, hp⟩ := next past e hm.1 hok
      exact ⟨hi, hp, hm.2⟩) es h).2

/-- Two properties hold of the same runs if an invariant that the first
maintains makes them agree. -/
theorem always_iff {p q : Entry σ ε ω → Log σ ε ω → Prop} (inv : Log σ ε ω → Prop)
    (start : inv [])
    (next : ∀ past e, inv past →
      (p (sys.react (sys.state past) e) past ↔ q (sys.react (sys.state past) e) past) ∧
        (p (sys.react (sys.state past) e) past → inv (sys.react (sys.state past) e :: past)))
    (es : List ε) : Always p (sys.log es) ↔ Always q (sys.log es) := by
  suffices h : (Always p (sys.log es) ↔ Always q (sys.log es)) ∧
      (Always p (sys.log es) → inv (sys.log es)) from h.1
  induction es with
  | nil => exact ⟨Iff.rfl, fun _ => start⟩
  | cons e es ih =>
    obtain ⟨hiff, hinv⟩ := ih
    rw [log_cons, always_cons, always_cons]
    refine ⟨⟨?_, ?_⟩, fun ⟨hp, hpast⟩ => (next _ e (hinv hpast)).2 hp⟩
    · rintro ⟨hp, hpast⟩
      exact ⟨(next _ e (hinv hpast)).1.mp hp, hiff.mp hpast⟩
    · rintro ⟨hq, hpast⟩
      have hpast := hiff.mpr hpast
      exact ⟨(next _ e (hinv hpast)).1.mpr hq, hpast⟩

theorem always_react {p : Entry σ ε ω → Prop} (h : ∀ s e, p (sys.react s e)) (es : List ε) :
    Always (fun x _ => p x) (sys.log es) := by
  induction es with
  | nil => trivial
  | cons e es ih => exact ⟨h _ e, ih⟩

end System

end Reactive
