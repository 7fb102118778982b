import Mathlib.Data.List.MinMax
import Mathlib.Data.List.Sort

/-!
# Rows by rank

The first row of a table by a key, largest key first, and the first `k` rows.
-/

namespace Ranking

variable {α β γ : Type*} [LinearOrder γ] {key : α → γ}

/-- The first `k` rows; of rows with one key the earlier comes first. -/
def top (key : α → γ) (k : Nat) (rows : List α) : List α :=
  (rows.insertionSort fun a b => key b ≤ key a).take k

theorem top_subset (k : Nat) (rows : List α) : top key k rows ⊆ rows := fun _ ha =>
  (List.mem_insertionSort _).mp (List.mem_of_mem_take ha)

theorem sorted_rows (key : α → γ) (rows : List α) :
    (rows.insertionSort fun a b => key b ≤ key a).Pairwise fun a b => key b ≤ key a :=
  haveI : Std.Total fun a b : α => key b ≤ key a := ⟨fun a b => le_total (key b) (key a)⟩
  haveI : IsTrans α fun a b => key b ≤ key a := ⟨fun _ _ _ hab hbc => le_trans hbc hab⟩
  List.pairwise_insertionSort _ rows

/-- A row is among the first `k` if no more than `k` rows rank as high as it does. -/
theorem mem_top {a : α} {k : Nat} {rows : List α} (ha : a ∈ rows)
    (hk : rows.countP (fun b => decide (key a ≤ key b)) ≤ k) : a ∈ top key k rows := by
  obtain ⟨before, after, hsplit⟩ := List.append_of_mem
    ((List.mem_insertionSort fun b c => key c ≤ key b).mpr ha)
  have hsorted := sorted_rows key rows
  rw [hsplit, List.pairwise_append] at hsorted
  have hbefore : before.countP (fun b => decide (key a ≤ key b)) = before.length :=
    List.countP_eq_length.mpr fun b hb =>
      decide_eq_true (hsorted.2.2 b hb a List.mem_cons_self)
  rw [← (List.perm_insertionSort (fun b c => key c ≤ key b) rows).countP_eq, hsplit,
    List.countP_append, hbefore, List.countP_cons, if_pos (decide_eq_true le_rfl)] at hk
  have hplace : before.length < k := by omega
  rw [top, hsplit, List.take_append, List.take_of_length_le hplace.le]
  obtain ⟨n, hn⟩ : ∃ n, k - before.length = n + 1 := ⟨k - before.length - 1, by omega⟩
  rw [hn, List.take_succ_cons]
  exact List.mem_append_right before List.mem_cons_self

theorem argmax_map (key : β → γ) (f : α → β) (rows : List α) :
    (rows.map f).argmax key = (rows.argmax fun a => key (f a)).map f := by
  induction rows with
  | nil => rfl
  | cons a rows ih =>
    rw [List.map_cons, List.argmax_cons, List.argmax_cons, ih]
    cases rows.argmax fun a => key (f a) with
    | none => rfl
    | some b =>
      simp only [Option.map_some]
      split <;> rfl

/-- Of the rows with the largest key the first is found. -/
theorem argmax_cons_greatest {rows : List α} {a : α} (h : ∀ b ∈ rows, key b ≤ key a) :
    (a :: rows).argmax key = some a := by
  rw [List.argmax_cons]
  cases hrest : rows.argmax key with
  | none => rfl
  | some b => exact if_neg (h b (List.argmax_mem hrest)).not_gt

end Ranking
