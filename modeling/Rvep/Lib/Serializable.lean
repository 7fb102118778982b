import Rvep.Lib.Interleaving

/-!
# Serializable transactions

A transaction is a program that reads a snapshot of the database, taken when
its first statement starts, and its own writes. A statement that asks for an
advisory lock waits until no other open transaction holds it. A transaction
that ends is aborted if it and one that committed since its snapshot have each
missed a write of the other; else its calls are made again on the database as
it is by then.
-/

namespace Serializable

open Interleaving

variable {κ : Type u} {ρ : κ → Type v} {α ω : Type w} {ε : Type x} {χ : Type y}

structure Engine (κ : Type u) (ρ : κ → Type v) (ω : Type w) (ε : Type x) (χ : Type y) where
  exec : ε → ω → (c : κ) → ω × ρ c
  /-- The advisory lock a call asks for. -/
  lock : κ → Option χ
  /-- The first call reads a range that the second writes to. -/
  reads : κ → κ → Bool

/-- The database, and the calls of each transaction committed so far. -/
structure Server (κ : Type u) (ω : Type w) where
  db : ω
  committed : List (List κ)

/-- An open transaction: its snapshot with its own writes, how many had
committed when the snapshot was taken, and the calls it has made. -/
structure Txn (κ : Type u) (ρ : κ → Type v) (α ω : Type w) (ε : Type x) where
  env : ε
  view : ω
  since : Nat
  trace : List κ
  prog : Prog κ ρ α

def Server.begin (s : Server κ ω) (env : ε) (prog : Prog κ ρ α) : Txn κ ρ α ω ε where
  env := env
  view := s.db
  since := s.committed.length
  trace := []
  prog := prog

variable (E : Engine κ ρ ω ε χ)

def Txn.holds [BEq χ] (t : Txn κ ρ α ω ε) (key : χ) : Bool := t.trace.any fun c => E.lock c == some key

def Txn.waits [BEq χ] (t : Txn κ ρ α ω ε) (others : List (Txn κ ρ α ω ε)) : Bool :=
  match t.prog with
  | .done _ => false
  | .call c _ => (E.lock c).any fun key => others.any (·.holds E key)

def Txn.step (t : Txn κ ρ α ω ε) : Txn κ ρ α ω ε :=
  match t.prog with
  | .done _ => t
  | .call c k =>
    let (view, r) := E.exec t.env t.view c
    { t with view := view, trace := t.trace ++ [c], prog := k r }

def Engine.missed (mine other : List κ) : Bool := mine.any fun c => other.any (E.reads c)

/-- These calls, on a snapshot from when `since` transactions had committed,
and a later transaction have each missed a write of the other. -/
def Server.crosses (s : Server κ ω) (since : Nat) (calls : List κ) : Bool :=
  (s.committed.drop since).any fun other => E.missed calls other && E.missed other calls

def Server.aborts (s : Server κ ω) (t : Txn κ ρ α ω ε) : Bool := s.crosses E t.since t.trace

def Engine.redo (env : ε) (calls : List κ) (w : ω) : ω :=
  calls.foldl (fun w c => (E.exec env w c).1) w

def Server.commit (s : Server κ ω) (t : Txn κ ρ α ω ε) : Server κ ω where
  db := E.redo t.env t.trace s.db
  committed := s.committed ++ [t.trace]

/-- The calls a program makes when it runs alone. -/
def Engine.calls (env : ε) : Prog κ ρ α → ω → List κ
  | .done _, _ => []
  | .call c k, w => c :: Engine.calls env (k (E.exec env w c).2) (E.exec env w c).1

-- ---------------------------------------------------------------------------
-- A transaction runs alone on its snapshot
-- ---------------------------------------------------------------------------

/-- The transaction runs `prog` from the snapshot `w`. -/
structure Txn.Runs (t : Txn κ ρ α ω ε) (prog : Prog κ ρ α) (w : ω) : Prop where
  outcome : t.prog.run E.exec (fun _ => t.env) t.view = prog.run E.exec (fun _ => t.env) w
  script : t.trace ++ E.calls t.env t.prog t.view = E.calls t.env prog w

section
variable {E} {t : Txn κ ρ α ω ε} {s : Server κ ω} {prog : Prog κ ρ α} {w : ω} {env : ε}

theorem Txn.step_env : (t.step E).env = t.env := by
  unfold Txn.step
  split <;> rfl

theorem Txn.step_since : (t.step E).since = t.since := by
  unfold Txn.step
  split <;> rfl

theorem runs_begin : (s.begin env prog).Runs E prog s.db := ⟨rfl, rfl⟩

theorem Txn.Runs.step (h : t.Runs E prog w) : (t.step E).Runs E prog w := by
  obtain ⟨houtcome, hscript⟩ := h
  obtain ⟨env, view, since, trace, p⟩ := t
  cases p with
  | done a => exact ⟨houtcome, hscript⟩
  | call c k =>
    refine ⟨houtcome, ?_⟩
    simp only [Txn.step, List.append_assoc]
    exact hscript

theorem Txn.Runs.ended (h : t.Runs E prog w) {a : α} (ha : t.prog = .done a) :
    (prog.run E.exec (fun _ => t.env) w).2 = a ∧ t.trace = E.calls t.env prog w := by
  obtain ⟨houtcome, hscript⟩ := h
  rw [ha] at houtcome hscript
  exact ⟨(congrArg Prod.snd houtcome).symm, (List.append_nil _).symm.trans hscript⟩

/-- What every call of a program keeps, making the calls again keeps. -/
theorem redo_keeps {P : ω → Prop} {calls : List κ}
    (h : ∀ c ∈ calls, ∀ w, P w → P (E.exec env w c).1) (hw : P w) : P (E.redo env calls w) := by
  induction calls generalizing w with
  | nil => exact hw
  | cons c calls ih =>
    exact ih (fun c' hc' => h c' (List.mem_cons_of_mem c hc')) (h c List.mem_cons_self w hw)

/-- On the snapshot itself, the calls come to what the program came to. -/
theorem redo_calls (env : ε) (prog : Prog κ ρ α) (w : ω) :
    E.redo env (E.calls env prog w) w = (prog.run E.exec (fun _ => env) w).1 := by
  induction prog generalizing w with
  | done a => rfl
  | call c k ih => exact ih _ _

theorem calls_of_allCalls {P : κ → Prop} (h : prog.AllCalls P) : ∀ c ∈ E.calls env prog w, P c := by
  induction prog generalizing w with
  | done a => exact nofun
  | call c k ih =>
    intro c' hc'
    rcases List.mem_cons.mp hc' with rfl | hc'
    · exact h.1
    · exact ih _ (h.2 _) c' hc'

-- ---------------------------------------------------------------------------
-- Who is aborted
-- ---------------------------------------------------------------------------

theorem crosses_nothing (h : s.committed = []) (since : Nat) (calls : List κ) :
    s.crosses E since calls = false := by
  rw [Server.crosses, h, List.drop_nil]
  rfl

/-- A transaction that writes nothing others read is never aborted. -/
theorem crosses_unread {calls : List κ} (h : ∀ c ∈ calls, ∀ c', E.reads c' c = false) (since : Nat) :
    s.crosses E since calls = false := by
  have hmissed : ∀ other, E.missed other calls = false := by
    intro other
    rw [Engine.missed, List.any_eq_false]
    intro c' _ hany
    obtain ⟨c, hc, hreads⟩ := List.any_eq_true.mp hany
    exact Bool.false_ne_true ((h c hc c').symm.trans hreads)
  rw [Server.crosses, List.any_eq_false]
  intro other _
  rw [hmissed other, Bool.and_false]
  exact Bool.false_ne_true

-- ---------------------------------------------------------------------------
-- Who waits
-- ---------------------------------------------------------------------------

variable (E) in
/-- Locks are asked for in the first statement, if at all. -/
def LocksFirst : Prog κ ρ α → Prop
  | .done _ => True
  | .call _ k => ∀ r, (k r).AllCalls fun c => E.lock c = none

variable (E) in
/-- The transaction stands at its first statement, or asks for no more locks. -/
def Txn.Orderly (t : Txn κ ρ α ω ε) : Prop :=
  t.trace = [] ∧ LocksFirst E t.prog ∨ t.prog.AllCalls fun c => E.lock c = none

theorem orderly_begin (h : LocksFirst E prog) : (s.begin env prog).Orderly E := .inl ⟨rfl, h⟩

theorem Txn.Orderly.step (h : t.Orderly E) : (t.step E).Orderly E := by
  obtain ⟨env, view, since, trace, p⟩ := t
  cases p with
  | done a => exact h
  | call c k =>
    rcases h with ⟨-, hfirst⟩ | hrest
    · exact .inr (hfirst _)
    · exact .inr (hrest.2 _)

/-- Whoever holds a lock waits for none, so no two transactions wait for each other. -/
theorem Txn.Orderly.not_waits [BEq χ] (h : t.Orderly E) {key : χ} (hkey : t.holds E key = true)
    (others : List (Txn κ ρ α ω ε)) : t.waits E others = false := by
  obtain ⟨env, view, since, trace, p⟩ := t
  cases p with
  | done a => rfl
  | call c k =>
    rcases h with ⟨htrace, -⟩ | hrest
    · obtain rfl : trace = [] := htrace
      exact absurd hkey Bool.false_ne_true
    · have hnone : E.lock c = none := hrest.1
      rw [Txn.waits]
      simp only [hnone, Option.any_none]

end

end Serializable
