import Mathlib.Data.List.Basic

/-!
# Buffered channels

A channel of bounded capacity, as Go has them: a send that would wait may give
up instead, a receive from a closed channel goes through once the buffer is
empty, and to send on a closed channel or to close it again is a panic.
-/

/-- `buffer` is what was sent and has not been received, oldest first. -/
structure Chan (α : Type u) where
  capacity : Nat
  buffer : List α
  closed : Bool
  fits : buffer.length ≤ capacity
  deriving DecidableEq

namespace Chan

variable {α : Type u} {ch ch' : Chan α} {a : α}

def make (capacity : Nat) : Chan α := ⟨capacity, [], false, Nat.zero_le capacity⟩

/-- A send in a `select` with a `default`, which is what a full channel leads to. -/
def trySend (ch : Chan α) (a : α) : Except String (Chan α) :=
  if ch.closed then .error "send on closed channel"
  else if h : ch.buffer.length < ch.capacity then
    .ok { ch with buffer := ch.buffer ++ [a], fits := List.length_append ▸ h }
  else .ok ch

def close (ch : Chan α) : Except String (Chan α) :=
  if ch.closed then .error "close of closed channel" else .ok { ch with closed := true }

/-- What a receive gets, and what it leaves; `none` if it has to wait. -/
def recv? (ch : Chan α) : Option (Option α × Chan α) :=
  match ch with
  | ⟨capacity, a :: buffer, closed, fits⟩ =>
    some (some a, ⟨capacity, buffer, closed, Nat.le_of_succ_le fits⟩)
  | ⟨_, [], true, _⟩ => some (none, ch)
  | ⟨_, [], false, _⟩ => none

@[simp] theorem make_buffer (capacity : Nat) : (make capacity : Chan α).buffer = [] := rfl
@[simp] theorem make_closed (capacity : Nat) : (make capacity : Chan α).closed = false := rfl
@[simp] theorem make_recv? (capacity : Nat) : (make capacity : Chan α).recv? = none := rfl

theorem close_open (h : ch.closed = false) : ch.close = .ok { ch with closed := true } := by
  rw [close, h, if_neg Bool.false_ne_true]

theorem trySend_room (h : ch.closed = false) (hroom : ch.buffer.length < ch.capacity) :
    ∃ fits, ch.trySend a = .ok { ch with buffer := ch.buffer ++ [a], fits := fits } := by
  rw [trySend, h, if_neg Bool.false_ne_true, dif_pos hroom]
  exact ⟨_, rfl⟩

theorem trySend_full (h : ch.closed = false) (hfull : ch.capacity ≤ ch.buffer.length) :
    ch.trySend a = .ok ch := by
  rw [trySend, h, if_neg Bool.false_ne_true, dif_neg (Nat.not_lt.mpr hfull)]

theorem trySend_open (h : ch.closed = false) (a : α) :
    ∃ ch', ch.trySend a = .ok ch' ∧ ch'.closed = false := by
  by_cases hroom : ch.buffer.length < ch.capacity
  · obtain ⟨fits, hsent⟩ := trySend_room (a := a) h hroom
    exact ⟨_, hsent, h⟩
  · exact ⟨ch, trySend_full h (Nat.not_lt.mp hroom), h⟩

/-- What a send leaves keeps its capacity and its order. -/
theorem trySend_ok (h : ch.trySend a = .ok ch') : ch'.capacity = ch.capacity ∧ ch'.closed = false ∧
    (ch.buffer.length < ch.capacity ∧ ch'.buffer = ch.buffer ++ [a] ∨
      ch.buffer.length = ch.capacity ∧ ch' = ch) := by
  cases hclosed : ch.closed with
  | true =>
    rw [trySend, hclosed, if_pos rfl] at h
    cases h
  | false =>
    by_cases hroom : ch.buffer.length < ch.capacity
    · obtain ⟨fits, hsent⟩ := trySend_room (a := a) hclosed hroom
      obtain rfl := Except.ok.inj (hsent.symm.trans h)
      exact ⟨rfl, hclosed, .inl ⟨hroom, rfl⟩⟩
    · rw [trySend_full hclosed (Nat.not_lt.mp hroom)] at h
      obtain rfl := Except.ok.inj h
      exact ⟨rfl, hclosed, .inr ⟨Nat.le_antisymm ch.fits (Nat.not_lt.mp hroom), rfl⟩⟩

theorem recv?_some (h : ch.recv? = some (some a, ch')) :
    ch.buffer = a :: ch'.buffer ∧ ch'.capacity = ch.capacity ∧ ch'.closed = ch.closed := by
  obtain ⟨capacity, buffer, closed, fits⟩ := ch
  cases buffer with
  | nil => cases closed <;> cases h
  | cons b buffer =>
    cases h
    exact ⟨rfl, rfl, rfl⟩

theorem recv?_end (h : ch.recv? = some (none, ch')) : ch.buffer = [] ∧ ch.closed = true ∧ ch' = ch := by
  obtain ⟨capacity, buffer, closed, fits⟩ := ch
  cases buffer with
  | nil =>
    cases closed with
    | false => cases h
    | true =>
      cases h
      exact ⟨rfl, rfl, rfl⟩
  | cons b buffer => cases h

theorem recv?_closed {r : Option α} (h : ch.recv? = some (r, ch')) : ch'.closed = ch.closed := by
  cases r with
  | none => rw [(recv?_end h).2.2]
  | some a => exact (recv?_some h).2.2

end Chan
