import Rvep.Backend.DatasetAsset

/-!
# What the schemas pass

One lemma a kind of key: the value that it reads.
-/

namespace Rvep.Backend

section
variable {key : String} {fields : List (String × Json)}

theorem stringKey_of_lookup {s : String} {checks : String → List String}
    (h : fields.lookup key = some (.str s)) (hs : checks s = []) :
    stringKey key checks fields = .ok s := by
  rw [stringKey, h]
  simp only [hs]

theorem minOne_of_ne_empty {message s : String} (h : s ≠ "") : minOne message s = [] :=
  if_neg fun hlt => h (String.length_eq_zero_iff.mp (Nat.lt_one_iff.mp hlt))

theorem countValue_natCast (n : Nat) : countValue (.num n) = .ok n := by
  have hchecks : countChecks (n : ℚ) = [] := by
    rw [countChecks, if_pos (Rat.den_natCast n), if_pos Rat.natCast_nonneg]
    rfl
  rw [countValue, numberValue, hchecks]
  exact congrArg Except.ok (congrArg Int.toNat (Rat.num_natCast n))

theorem countValue_negative {n : Int} (h : n < 0) :
    countValue (.num (n : ℚ)) = .error ["Number must be greater than or equal to 0"] := by
  have hchecks : countChecks (n : ℚ) = ["Number must be greater than or equal to 0"] := by
    rw [countChecks, if_pos (Rat.den_intCast n),
      if_neg (mt Rat.intCast_nonneg.mp (Int.not_le.mpr h))]
    rfl
  rw [countValue, numberValue, hchecks]
  rfl

theorem nullishKey_of_lookup {value : Json → Except (List String) α} {v : Json}
    (h : fields.lookup key = some v) (hv : v ≠ .null) :
    nullishKey key value fields =
      match value v with
      | .ok a => .ok (some a)
      | .error messages => .error (messages.map (issue key)) := by
  unfold nullishKey optionalKey
  rw [h]
  cases v <;> first | exact absurd rfl hv | rfl

theorem tsIssues_of_lookup {s : String} (h : fields.lookup "ts" = some (.str s))
    (hs : isDatetime s = true) : tsIssues fields = [] := by
  have hkey : stringKey "ts" (fun s => if isDatetime s then [] else ["Invalid datetime"]) fields =
      .ok s :=
    stringKey_of_lookup h (if_pos hs)
  rw [tsIssues, h]
  simp only [hkey]

end

end Rvep.Backend
