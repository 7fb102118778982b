import Mathlib.Data.Prod.Lex
import Mathlib.Order.MinMax

/-!
# Two-counter watermarks

A receiver that orders messages by an epoch and, inside an epoch, a sequence
number, and keeps both counters of the last message it accepted. The pair is
a single watermark in the lexicographic order: offering a message moves it to
the maximum of the two, and a message is accepted when it lies above it.
-/

namespace Watermark

section
variable {γ : Type u} [LinearOrder γ] {bot x : γ} {offered : List γ}

def highest (bot : γ) (offered : List γ) : γ := offered.foldr max bot

@[simp] theorem highest_nil : highest bot [] = bot := rfl

@[simp] theorem highest_cons : highest bot (x :: offered) = max x (highest bot offered) := rfl

theorem highest_lt_iff : highest bot offered < x ↔ bot < x ∧ ∀ y ∈ offered, y < x := by
  induction offered with
  | nil => simp
  | cons y ys ih =>
    rw [highest_cons, max_lt_iff, ih, List.forall_mem_cons]
    tauto

end

structure Counters (α : Type u) (β : Type v) where
  epoch : α
  seq : β

namespace Counters

variable {α : Type u} {β : Type v} [LinearOrder α] [LinearOrder β] [OrderBot β]

def mark (c : Counters α β) : α ×ₗ β := toLex (c.epoch, c.seq)

/-- Drop an older epoch; on a newer one restart the sequence; then accept what
is above the sequence counter. A newer epoch is remembered even when its
message is not accepted. -/
def advance (c : Counters α β) (epoch : α) (seq : β) : Counters α β × Bool :=
  if epoch < c.epoch then (c, false)
  else
    let c := if c.epoch < epoch then ⟨epoch, ⊥⟩ else c
    if seq ≤ c.seq then (c, false) else ({ c with seq := seq }, true)

theorem mark_advance (c : Counters α β) (epoch : α) (seq : β) :
    (c.advance epoch seq).1.mark = max c.mark (toLex (epoch, seq)) := by
  rcases lt_trichotomy epoch c.epoch with h | rfl | h
  · have hlt : toLex (epoch, seq) < c.mark := Prod.Lex.toLex_lt_toLex.mpr (.inl h)
    simp [advance, h, max_eq_left hlt.le]
  · by_cases hs : seq ≤ c.seq
    · have hle : toLex (c.epoch, seq) ≤ c.mark := Prod.Lex.toLex_le_toLex.mpr (.inr ⟨rfl, hs⟩)
      simp [advance, hs, max_eq_left hle]
    · have hle : c.mark ≤ toLex (c.epoch, seq) :=
        Prod.Lex.toLex_le_toLex.mpr (.inr ⟨rfl, (not_le.mp hs).le⟩)
      rw [max_eq_right hle]
      simp [advance, hs, mark]
  · have hlt : c.mark < toLex (epoch, seq) := Prod.Lex.toLex_lt_toLex.mpr (.inl h)
    rw [max_eq_right hlt.le]
    by_cases hs : seq ≤ ⊥
    · simp [advance, h, not_lt.mpr h.le, mark, le_bot_iff.mp hs]
    · have hpos : ⊥ < seq := bot_lt_iff_ne_bot.mpr (mt le_bot_iff.mpr hs)
      simp [advance, h, not_lt.mpr h.le, mark, not_le.mpr hpos]

/-- Accepted is above the watermark, except that `⊥` is never accepted. -/
theorem accepts_iff (c : Counters α β) (epoch : α) (seq : β) :
    (c.advance epoch seq).2 = true ↔ ⊥ < seq ∧ c.mark < toLex (epoch, seq) := by
  rw [mark, Prod.Lex.toLex_lt_toLex]
  rcases lt_trichotomy epoch c.epoch with h | rfl | h
  · simp [advance, h, h.ne', not_lt.mpr h.le]
  · by_cases hs : seq ≤ c.seq
    · simp [advance, hs, not_lt.mpr hs]
    · have hlt := not_le.mp hs
      simp [advance, hs, hlt, lt_of_le_of_lt bot_le hlt]
  · by_cases hs : seq ≤ ⊥
    · simp [advance, h, not_lt.mpr h.le, le_bot_iff.mp hs]
    · simp [advance, h, not_lt.mpr h.le, not_le.mp hs, bot_lt_iff_ne_bot.mp (not_le.mp hs)]

end Counters

end Watermark
