import Mathlib.Algebra.Order.Ring.Int
import Mathlib.Algebra.Order.Ring.Nat
import Mathlib.Algebra.Order.Ring.Rat
import Mathlib.Order.WithBot

/-!
# Numbers of IEEE 754 binary64

Finite numbers are counted in units of the smallest one, so that sums and
differences are those of integers until they are rounded. Zero has no sign
here. Comparators that return such a number, as those of JavaScript do, and
the stable sort by one.
-/

-- ---------------------------------------------------------------------------
-- Numbers
-- ---------------------------------------------------------------------------

namespace Binary64

/-- The low bits that a significand of 53 bits has no room for. -/
def dropped (n : Nat) : Nat := n.log2 + 1 - 53

/-- 2^1024 in units of 2^-1074. -/
def overflow : Nat := 2 ^ 2098

theorem overflow_pos : 0 < overflow := pow_pos Nat.two_pos 2098

theorem pow_le_overflow {k : Nat} (hk : k ≤ 2098) : 2 ^ k ≤ overflow :=
  pow_le_pow_right₀ (by decide) hk

def isExact (n : Nat) : Bool := n % 2 ^ dropped n == 0 && decide (n < overflow)

structure Finite where
  units : Int
  exact : isExact units.natAbs = true
  deriving DecidableEq

def Finite.value (x : Finite) : ℚ := x.units / 2 ^ 1074

end Binary64

inductive Binary64
  | finite (x : Binary64.Finite)
  | infinite (negative : Bool)
  | nan
  deriving DecidableEq

namespace Binary64

def IsFinite : Binary64 → Prop
  | finite _ => True
  | _ => False

/-- `n / d` to the nearest integer, ties to the even one. -/
def halfEven (n d : Nat) : Nat :=
  if 2 * (n % d) < d then n / d
  else if d < 2 * (n % d) then n / d + 1
  else n / d + n / d % 2

/-- A magnitude with 53 bits at most. -/
def significant (n : Nat) : Nat := halfEven n (2 ^ dropped n) * 2 ^ dropped n

theorem div_le_halfEven (n d : Nat) : n / d ≤ halfEven n d := by
  unfold halfEven
  split
  · rfl
  · split <;> omega

theorem halfEven_le (n d : Nat) : halfEven n d ≤ n / d + 1 := by
  unfold halfEven
  split
  · omega
  · split <;> omega

theorem pow_dropped_le {n : Nat} (hn : n ≠ 0) : 2 ^ dropped n ≤ n := by
  refine le_trans (Nat.pow_le_pow_right (by decide) ?_) (Nat.log2_self_le hn)
  unfold dropped
  omega

theorem significant_pos {n : Nat} (hn : n ≠ 0) : 0 < significant n := by
  have hpow : 0 < 2 ^ dropped n := Nat.two_pow_pos _
  have hquotient : 0 < n / 2 ^ dropped n := Nat.div_pos (pow_dropped_le hn) hpow
  exact Nat.mul_pos (lt_of_lt_of_le hquotient (div_le_halfEven _ _)) hpow

@[simp] theorem significant_zero : significant 0 = 0 := by decide

theorem mul_pow_lt {h : Nat} (hh : h < 2 ^ 53) (k : Nat) : h * 2 ^ k < 2 ^ (53 + k) := by
  rw [Nat.pow_add]
  exact Nat.mul_lt_mul_of_pos_right hh (Nat.two_pow_pos k)

theorem dropped_mul_pow {h k : Nat} (hh : h < 2 ^ 53) : dropped (h * 2 ^ k) ≤ k := by
  by_cases hzero : h * 2 ^ k = 0
  · rw [hzero]
    exact Nat.zero_le k
  · have hlog : (h * 2 ^ k).log2 < 53 + k := (Nat.log2_lt hzero).mpr (mul_pow_lt hh k)
    unfold dropped
    omega

/-- Rounding leaves no bits to drop. -/
theorem significant_mod (n : Nat) : significant n % 2 ^ dropped (significant n) = 0 := by
  have hquotient : n / 2 ^ dropped n < 2 ^ 53 := by
    by_cases hn : n = 0
    · subst hn
      decide
    · refine Nat.div_lt_of_lt_mul (lt_of_lt_of_le Nat.lt_log2_self ?_)
      rw [← Nat.pow_add]
      refine Nat.pow_le_pow_right (by decide) ?_
      unfold dropped
      omega
  rcases Nat.lt_or_eq_of_le (le_trans (halfEven_le n (2 ^ dropped n)) hquotient) with hlt | heq
  · refine Nat.mod_eq_zero_of_dvd (Nat.dvd_trans (Nat.pow_dvd_pow 2 (dropped_mul_pow hlt)) ?_)
    exact Nat.dvd_mul_left _ _
  · have hpow : significant n = 2 ^ (53 + dropped n) := by rw [significant, heq, Nat.pow_add]
    have hdropped : dropped (2 ^ (53 + dropped n)) = dropped n + 1 := by
      unfold dropped
      rw [Nat.log2_two_pow]
      omega
    rw [hpow, hdropped]
    exact Nat.mod_eq_zero_of_dvd (Nat.pow_dvd_pow 2 (by omega))

theorem natAbs_sign_mul (n : Int) : (n.sign * (significant n.natAbs : Int)).natAbs =
    significant n.natAbs := by
  by_cases hn : n = 0
  · subst hn
    decide
  · rw [Int.natAbs_mul, Int.natAbs_sign_of_ne_zero hn, Int.natAbs_natCast, Nat.one_mul]

/-- The nearest number to `n` units. -/
def round (n : Int) : Binary64 :=
  if h : significant n.natAbs < overflow then
    .finite ⟨n.sign * significant n.natAbs, by
      rw [natAbs_sign_mul, isExact, significant_mod, decide_eq_true h]
      rfl⟩
  else .infinite (decide (n < 0))

def sub : Binary64 → Binary64 → Binary64
  | finite x, finite y => round (x.units - y.units)
  | finite _, infinite negative => .infinite (!negative)
  | infinite negative, finite _ => .infinite negative
  | infinite negative, infinite negative' =>
    if negative = negative' then .nan else .infinite negative
  | _, _ => .nan

/-- How a number compares with zero; NaN counts as zero. -/
def sign : Binary64 → Ordering
  | finite x => compare x.units 0
  | infinite true => .lt
  | infinite false => .gt
  | nan => .eq

theorem sign_round (n : Int) : (round n).sign = compare n 0 := by
  unfold round
  split
  next h =>
    change compare (n.sign * (significant n.natAbs : Int)) 0 = compare n 0
    rcases lt_trichotomy n 0 with hn | rfl | hn
    · have hpos := significant_pos (Int.natAbs_ne_zero.mpr hn.ne)
      rw [Int.compare_eq_lt.mpr hn, Int.compare_eq_lt, Int.sign_eq_neg_one_of_neg hn]
      omega
    · simp
    · have hpos := significant_pos (Int.natAbs_ne_zero.mpr hn.ne')
      rw [Int.compare_eq_gt.mpr hn, Int.compare_eq_gt, Int.sign_eq_one_of_pos hn]
      omega
  next h =>
    rcases lt_trichotomy n 0 with hn | rfl | hn
    · rw [Int.compare_eq_lt.mpr hn, decide_eq_true hn]
      rfl
    · exact absurd (by rw [Int.natAbs_zero, significant_zero]; exact overflow_pos) h
    · rw [Int.compare_eq_gt.mpr hn, decide_eq_false (by omega)]
      rfl

theorem round_ne_nan (n : Int) : round n ≠ .nan := by
  unfold round
  split <;> simp

theorem isExact_mul_pow {n k : Nat} (h : n < 2 ^ 53) (hk : 53 + k ≤ 2098) :
    isExact (n * 2 ^ k) = true := by
  have hdropped : 2 ^ dropped (n * 2 ^ k) ∣ n * 2 ^ k :=
    Nat.dvd_trans (Nat.pow_dvd_pow 2 (dropped_mul_pow h)) (Nat.dvd_mul_left _ _)
  have hlt : n * 2 ^ k < overflow := lt_of_lt_of_le (mul_pow_lt h k) (pow_le_overflow hk)
  rw [isExact, Nat.mod_eq_zero_of_dvd hdropped, decide_eq_true hlt]
  rfl

theorem isExact_natAbs_mul_pow {n : Int} {k : Nat} (h : n.natAbs < 2 ^ 53) (hk : 53 + k ≤ 2098) :
    isExact (n * 2 ^ k).natAbs = true := by
  rw [Int.natAbs_mul, Int.natAbs_pow]
  exact isExact_mul_pow h hk

/-- The integers that have 53 bits at most. -/
def ofInt (n : Int) (h : n.natAbs < 2 ^ 53) : Binary64 :=
  .finite ⟨n * 2 ^ 1074, isExact_natAbs_mul_pow (k := 1074) h (by decide)⟩

theorem ofInt_ne_nan (n : Int) (h : n.natAbs < 2 ^ 53) : ofInt n h ≠ .nan := by
  rintro ⟨⟩

theorem sign_mul_pow (n : Int) (k : Nat) : compare (n * 2 ^ k) 0 = compare n 0 := by
  have hpow : (0 : Int) < 2 ^ k := pow_pos (by decide) k
  rcases lt_trichotomy n 0 with hn | rfl | hn
  · rw [Int.compare_eq_lt.mpr hn, Int.compare_eq_lt.mpr (mul_neg_of_neg_of_pos hn hpow)]
  · rw [zero_mul]
  · rw [Int.compare_eq_gt.mpr hn, Int.compare_eq_gt.mpr (mul_pos hn hpow)]

theorem sign_ofInt (n : Int) (h : n.natAbs < 2 ^ 53) : (ofInt n h).sign = compare n 0 :=
  sign_mul_pow n 1074

/-- `===`, which NaN is not even with itself. -/
def strictEq : Binary64 → Binary64 → Bool
  | nan, _ => false
  | x, y => x == y

instance : LE Finite := ⟨fun x y => x.units ≤ y.units⟩

-- the computable order, whatever else is imported
local instance rankOrder : LinearOrder (WithTop Int) := WithTop.linearOrder
local instance rankOrd : Ord (WithTop Int) := rankOrder.toOrd

/-- Where a number stands, from the finite ones up to infinity. -/
def rank : Binary64 → WithTop Int
  | finite x => x.units
  | _ => ⊤

/-- A number that is finite, or positive infinity. -/
inductive IsTimely : Binary64 → Prop
  | finite (x : Finite) : IsTimely (.finite x)
  | infinity : IsTimely (.infinite false)

theorem compare_sub (m n : Int) : compare (m - n) 0 = compare (m : WithTop Int) n := by
  rcases lt_trichotomy m n with h | rfl | h
  · rw [Int.compare_eq_lt.mpr (by omega), compare_lt_iff_lt.mpr (WithTop.coe_lt_coe.mpr h)]
  · simp
  · rw [Int.compare_eq_gt.mpr (by omega), compare_gt_iff_gt.mpr (WithTop.coe_lt_coe.mpr h)]

/-- The sign of a difference is how the numbers compare: none is rounded to zero. -/
theorem sign_sub {x y : Binary64} (hx : x.IsTimely) (hy : y.IsTimely) (hne : x ≠ y) :
    (x.sub y).sign = compare x.rank y.rank := by
  cases hx with
  | finite x =>
    cases hy with
    | finite y => exact (sign_round _).trans (compare_sub _ _)
    | infinity => exact (compare_lt_iff_lt.mpr (WithTop.coe_lt_top x.units)).symm
  | infinity =>
    cases hy with
    | finite y => exact (compare_gt_iff_gt.mpr (WithTop.coe_lt_top y.units)).symm
    | infinity => exact absurd rfl hne

theorem sub_ne_nan {x y : Binary64} (hx : x.IsTimely) (hy : y.IsTimely) (hne : x ≠ y) :
    x.sub y ≠ .nan := by
  cases hx with
  | finite x =>
    cases hy with
    | finite y => exact round_ne_nan _
    | infinity => simp [sub]
  | infinity =>
    cases hy with
    | finite y => simp [sub]
    | infinity => exact absurd rfl hne

theorem rank_inj {x y : Binary64} (hx : x.IsTimely) (hy : y.IsTimely) (h : x.rank = y.rank) :
    x = y := by
  cases hx with
  | finite x =>
    cases hy with
    | finite y =>
      obtain ⟨m, hm⟩ := x
      obtain ⟨n, hn⟩ := y
      obtain rfl : m = n := WithTop.coe_injective h
      rfl
    | infinity => exact absurd h (WithTop.coe_ne_top (a := x.units))
  | infinity =>
    cases hy with
    | finite y => exact absurd h.symm (WithTop.coe_ne_top (a := y.units))
    | infinity => rfl

-- ---------------------------------------------------------------------------
-- Comparators
-- ---------------------------------------------------------------------------

variable {α : Type u}

/-- A comparator that orders what it compares. -/
structure Consistent (cmp : α → α → Binary64) : Prop where
  never_nan : ∀ a b, cmp a b ≠ .nan
  transCmp : Std.TransCmp fun a b => (cmp a b).sign

/-- The stable sort by a comparator. -/
def sort (cmp : α → α → Binary64) (l : List α) : List α :=
  l.mergeSort fun a b => (cmp a b).sign.isLE

theorem sort_perm (cmp : α → α → Binary64) (l : List α) : (sort cmp l).Perm l :=
  List.mergeSort_perm l _

theorem Consistent.sort_ordered {cmp : α → α → Binary64} (h : Consistent cmp) (l : List α) :
    (sort cmp l).Pairwise fun a b => (cmp a b).sign.isLE = true := by
  refine List.pairwise_mergeSort ?_ ?_ l
  · intro a b c hab hbc
    exact h.transCmp.isLE_trans hab hbc
  · intro a b
    have hswap : (cmp b a).sign = (cmp a b).sign.swap := h.transCmp.toOrientedCmp.eq_swap
    rw [hswap]
    cases (cmp a b).sign <;> rfl

end Binary64
