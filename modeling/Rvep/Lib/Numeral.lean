import Mathlib.Data.List.TakeWhile

/-!
# JSON numerals

The grammar of numbers in JSON texts, and the numerals of the integers.
-/

namespace JsonText

-- ---------------------------------------------------------------------------
-- Numerals
-- ---------------------------------------------------------------------------

/-- The characters a number is written with. -/
def isNumeralChar (c : Char) : Bool :=
  c.isDigit || c == '-' || c == '+' || c == '.' || c == 'e' || c == 'E'

def isDigits (cs : List Char) : Bool := !cs.isEmpty && cs.all Char.isDigit

def isExponent : List Char → Bool
  | [] => true
  | e :: '+' :: cs => (e == 'e' || e == 'E') && isDigits cs
  | e :: '-' :: cs => (e == 'e' || e == 'E') && isDigits cs
  | e :: cs => (e == 'e' || e == 'E') && isDigits cs

def isFraction : List Char → Bool
  | '.' :: cs => !(cs.takeWhile Char.isDigit).isEmpty && isExponent (cs.dropWhile Char.isDigit)
  | cs => isExponent cs

def isUnsigned : List Char → Bool
  | '0' :: cs => isFraction cs
  | c :: cs => c.isDigit && isFraction (cs.dropWhile Char.isDigit)
  | [] => false

def isSigned : List Char → Bool
  | '-' :: cs => isUnsigned cs
  | cs => isUnsigned cs

/-- The grammar of a JSON number. -/
def isNumeral (cs : List Char) : Bool := cs.all isNumeralChar && isSigned cs

structure Numeral where
  chars : List Char
  valid : isNumeral chars = true
  deriving DecidableEq, Repr

theorem not_control_of_isNumeralChar {c : Char} (h : isNumeralChar c = true) : ¬ c < ' ' := by
  simp only [isNumeralChar, Bool.or_eq_true, beq_iff_eq] at h
  rcases h with ((((hdigit | rfl) | rfl) | rfl) | rfl) | rfl
  · have hle : '0' ≤ c := by
      simp only [Char.isDigit, Bool.and_eq_true, decide_eq_true_eq] at hdigit
      exact hdigit.1
    have hspace : ' ' ≤ '0' := by decide
    exact Char.not_lt.mpr (Char.le_trans hspace hle)
  all_goals decide

-- ---------------------------------------------------------------------------
-- Integers
-- ---------------------------------------------------------------------------

def intChars (n : Int) : List Char :=
  if n < 0 then '-' :: Nat.toDigits 10 n.natAbs else Nat.toDigits 10 n.natAbs

/-- The number a run of digits stands for. -/
def nat? (cs : List Char) : Option Nat :=
  if isDigits cs then some (Nat.ofDigitChars 10 cs 0) else none

/-- The integer a numeral stands for, if it is written without fraction and exponent. -/
def Numeral.toInt? (n : Numeral) : Option Int :=
  match n.chars with
  | '-' :: cs => (nat? cs).map fun m => -Int.ofNat m
  | cs => (nat? cs).map Int.ofNat

section
variable {n : Nat}

theorem isDigits_toDigits (n : Nat) : isDigits (Nat.toDigits 10 n) = true := by
  rw [isDigits, Bool.and_eq_true, List.all_eq_true]
  refine ⟨by simp, fun c hc => ?_⟩
  exact Nat.isDigit_of_mem_toDigits (by decide) (by decide) hc

theorem nat?_toDigits (n : Nat) : nat? (Nat.toDigits 10 n) = some n := by
  rw [nat?, if_pos (isDigits_toDigits n), Nat.ofDigitChars_ten_toDigits]

/-- No number but 0 begins with a 0. -/
theorem head_toDigits (hn : n ≠ 0) : (Nat.toDigits 10 n).head? ≠ some '0' := by
  induction n using Nat.strongRecOn with
  | ind n ih =>
    rw [Nat.toDigits_eq_if (by decide)]
    split
    next hlt =>
      have hdigit : ∀ d < 10, d ≠ 0 → d.digitChar ≠ '0' := by decide
      simpa using hdigit n hlt hn
    next hge =>
      have hhead := ih (n / 10) (by omega) (by omega)
      cases hcs : Nat.toDigits 10 (n / 10) with
      | nil => exact absurd hcs Nat.toDigits_ne_nil
      | cons c cs =>
        rw [hcs] at hhead
        exact hhead

theorem isUnsigned_toDigits (n : Nat) : isUnsigned (Nat.toDigits 10 n) = true := by
  by_cases hn : n = 0
  · subst hn
    rfl
  · have hhead := head_toDigits hn
    have hdigits := isDigits_toDigits n
    cases hcs : Nat.toDigits 10 n with
    | nil => exact absurd hcs Nat.toDigits_ne_nil
    | cons c cs =>
      rw [hcs] at hhead hdigits
      have hne : c ≠ '0' := by simpa using hhead
      rw [isDigits, Bool.and_eq_true, List.all_eq_true, List.forall_mem_cons] at hdigits
      obtain ⟨-, hc, hall⟩ := hdigits
      have hrest : cs.dropWhile Char.isDigit = [] := List.dropWhile_eq_nil_iff.mpr hall
      unfold isUnsigned
      split
      next heq => exact absurd (List.cons.inj heq).1 hne
      next heq =>
        obtain ⟨rfl, rfl⟩ := List.cons.inj heq
        rw [hc, hrest]
        rfl
      next heq => cases heq

theorem ne_minus_of_isDigits {c : Char} {cs : List Char} (h : isDigits (c :: cs) = true) : c ≠ '-' := by
  rintro rfl
  rw [isDigits, Bool.and_eq_true, List.all_eq_true, List.forall_mem_cons] at h
  exact absurd h.2.1 (by decide)

theorem isSigned_toDigits (n : Nat) : isSigned (Nat.toDigits 10 n) = true := by
  have hunsigned := isUnsigned_toDigits n
  have hdigits := isDigits_toDigits n
  cases hcs : Nat.toDigits 10 n with
  | nil => exact absurd hcs Nat.toDigits_ne_nil
  | cons c cs =>
    rw [hcs] at hunsigned hdigits
    unfold isSigned
    split
    next heq => exact absurd (List.cons.inj heq).1 (ne_minus_of_isDigits hdigits)
    next => exact hunsigned

theorem isNumeralChar_toDigits (n : Nat) : (Nat.toDigits 10 n).all isNumeralChar = true := by
  refine List.all_eq_true.mpr fun c hc => ?_
  have hdigit := Nat.isDigit_of_mem_toDigits (by decide) (by decide) hc
  simp [isNumeralChar, hdigit]

end

theorem isNumeral_intChars (n : Int) : isNumeral (intChars n) = true := by
  unfold isNumeral intChars
  split
  · rw [List.all_cons, isNumeralChar_toDigits, isSigned, isUnsigned_toDigits]
    rfl
  · rw [isNumeralChar_toDigits, isSigned_toDigits]
    rfl

def Numeral.ofInt (n : Int) : Numeral := ⟨intChars n, isNumeral_intChars n⟩

theorem toInt?_ofInt (n : Int) : (Numeral.ofInt n).toInt? = some n := by
  unfold Numeral.toInt? Numeral.ofInt intChars
  by_cases hn : n < 0
  · simp only [hn, if_true, nat?_toDigits, Option.map_some, Int.ofNat_eq_natCast]
    congr 1
    omega
  · have hdigits := isDigits_toDigits n.natAbs
    simp only [hn, if_false]
    cases hcs : Nat.toDigits 10 n.natAbs with
    | nil => exact absurd hcs Nat.toDigits_ne_nil
    | cons c cs =>
      rw [hcs] at hdigits
      split
      next heq => exact absurd (List.cons.inj heq).1 (ne_minus_of_isDigits hdigits)
      next =>
        rw [← hcs, nat?_toDigits, Option.map_some, Int.ofNat_eq_natCast]
        congr 1
        omega

end JsonText
