import Mathlib.Data.List.Basic
import Rvep.H264.AnnexB

/-!
# What the conversion accepts and what it keeps

`AVCCToAnnexB` over arbitrary buffers. The loop is run once more with what Go
checks at every slice made visible; a decoder then reads the output back.
-/

namespace Rvep.H264

open Framing

-- ---------------------------------------------------------------------------
-- The run with its bounds checks
-- ---------------------------------------------------------------------------

inductive Outcome where
  | outOfFuel
  | panics
  | returns (result : Except Error (List UInt8))

/-- A value as a Go `int`, of 64 bits. -/
def goInt (n : Nat) : Int := Int.bmod n (2 ^ 64)

/-- `s[lo:hi]`, which panics outside of the slice. -/
def slice? (s : List UInt8) (lo hi : Int) : Option (List UInt8) :=
  if 0 ≤ lo ∧ lo ≤ hi ∧ hi ≤ s.length then some ((s.take hi.toNat).drop lo.toNat) else none

/-- `binary.BigEndian.Uint32`, which reads `b[3]` first. -/
def uint32? (b : List UInt8) : Option Nat :=
  if 3 < b.length then some (bigEndianUint32 (b.take 4)) else none

inductive Round where
  | ends
  | fails (e : Error)
  | panics
  | unit (nalu remaining : List UInt8)

/-- The body of the loop behind the length field, up to its two appends. -/
def checkedUnit (naluLen : Int) (remaining : List UInt8) : Round :=
  if naluLen < 1 then .fails .zeroLength
  else if remaining.length < naluLen then .fails (.overrun naluLen.toNat remaining.length)
  else
    match slice? remaining 0 naluLen, slice? remaining naluLen remaining.length with
    | some nalu, some remaining => .unit nalu remaining
    | _, _ => .panics

def checkedRound (remaining : List UInt8) : Round :=
  if remaining.isEmpty then .ends
  else if remaining.length < 4 then .fails (.truncatedLength remaining.length)
  else
    match (slice? remaining 0 4).bind uint32?, slice? remaining 4 remaining.length with
    | some length, some remaining => checkedUnit (goInt length) remaining
    | _, _ => .panics

def checkedLoop : Nat → List UInt8 → List UInt8 → Outcome
  | 0, _, _ => .outOfFuel
  | fuel + 1, out, remaining =>
    match checkedRound remaining with
    | .ends => .returns (.ok out)
    | .fails e => .returns (.error e)
    | .panics => .panics
    | .unit nalu remaining => checkedLoop fuel (out ++ annexBStartCode ++ nalu) remaining

def checkedAVCCToAnnexB (fuel : Nat) (avcc : List UInt8) : Outcome :=
  if avcc.isEmpty then .returns (.error .emptyAVCC)
  else
    match checkedLoop fuel [] avcc with
    | .returns (.ok out) => .returns (if out.isEmpty then .error .noNALUs else .ok out)
    | outcome => outcome

theorem bigEndianUint32_eq (b0 b1 b2 b3 : UInt8) :
    bigEndianUint32 [b0, b1, b2, b3] =
      b0.toNat * 2 ^ 24 + b1.toNat * 2 ^ 16 + b2.toNat * 2 ^ 8 + b3.toNat := by
  simp only [bigEndianUint32, List.foldl_cons, List.foldl_nil]
  omega

theorem lengthField_onto : lengthField.Onto := by
  intro header hlength
  obtain ⟨b0, b1, b2, b3, rfl⟩ : ∃ b0 b1 b2 b3, header = [b0, b1, b2, b3] :=
    List.length_eq_four.mp hlength
  have h0 := b0.toNat_lt
  have h1 := b1.toNat_lt
  have h2 := b2.toNat_lt
  have h3 := b3.toNat_lt
  change bigEndianUint32 [b0, b1, b2, b3] < 2 ^ 32 ∧
    bigEndianPutUint32 (bigEndianUint32 [b0, b1, b2, b3]) = [b0, b1, b2, b3]
  rw [bigEndianUint32_eq]
  refine ⟨by omega, ?_⟩
  simp only [bigEndianPutUint32, List.cons.injEq, ← UInt8.toNat_inj, UInt8.toNat_ofNat', and_true]
  refine ⟨?_, ?_, ?_, ?_⟩
  · omega
  · omega
  · omega
  · omega

theorem goInt_of_lt {n : Nat} (h : n < 2 ^ 32) : goInt n = n := by
  have hsize : ((2 ^ 64 : Nat) : Int) = 18446744073709551616 := rfl
  refine Int.bmod_eq_of_le_mul_two ?_ ?_
  · rw [hsize]
    omega
  · rw [hsize]
    omega

theorem slice?_take {s : List UInt8} {n : Nat} (h : n ≤ s.length) :
    slice? s 0 n = some (s.take n) := by
  rw [slice?, if_pos ⟨Int.le_refl 0, Int.natCast_nonneg n, Int.ofNat_le.mpr h⟩]
  rfl

theorem slice?_drop {s : List UInt8} {n : Nat} (h : n ≤ s.length) :
    slice? s n s.length = some (s.drop n) := by
  rw [slice?, if_pos ⟨Int.natCast_nonneg n, Int.ofNat_le.mpr h, Int.le_refl _⟩]
  simp

theorem readLength_eq {s : List UInt8} (h : 4 ≤ s.length) :
    (slice? s 0 4).bind uint32? = some (bigEndianUint32 (s.take 4)) := by
  have hhead : slice? s 0 4 = some (s.take 4) := slice?_take h
  rw [hhead, Option.bind_some, uint32?, List.length_take_of_le h, if_pos (by omega), List.take_take]
  rfl

theorem checkedRound_eq {remaining : List UInt8} (hne : ¬ remaining.isEmpty)
    (h : ¬ remaining.length < 4) :
    checkedRound remaining =
      checkedUnit (bigEndianUint32 (remaining.take 4) : Nat) (remaining.drop 4) := by
  have hlt : bigEndianUint32 (remaining.take 4) < 2 ^ 32 :=
    (lengthField_onto (remaining.take 4) (List.length_take_of_le (Nat.le_of_not_lt h))).1
  have hrest : slice? remaining 4 remaining.length = some (remaining.drop 4) :=
    slice?_drop (Nat.le_of_not_lt h)
  rw [checkedRound, if_neg hne, if_neg h, readLength_eq (Nat.le_of_not_lt h), hrest, ← goInt_of_lt hlt]

theorem checkedUnit_eq {n : Nat} {remaining : List UInt8} (hpos : ¬ n < 1)
    (hfits : ¬ remaining.length < n) :
    checkedUnit n remaining = .unit (remaining.take n) (remaining.drop n) := by
  rw [checkedUnit, if_neg (by omega), if_neg (by omega), slice?_take (Nat.le_of_not_lt hfits),
    slice?_drop (Nat.le_of_not_lt hfits)]

/-- The run ends and no slice of it is out of bounds, whatever the length fields say. -/
theorem checkedLoop_eq {fuel : Nat} {out remaining : List UInt8} (h : remaining.length < fuel) :
    checkedLoop fuel out remaining = .returns (convertLoop out remaining) := by
  induction fuel generalizing out remaining with
  | zero => exact absurd h (Nat.not_lt_zero _)
  | succ fuel ih =>
    rw [checkedLoop, convertLoop]
    by_cases hnil : remaining.isEmpty
    · rw [checkedRound, if_pos hnil, if_pos hnil]
    by_cases hwidth : remaining.length < 4
    · rw [checkedRound, if_neg hnil, if_neg hnil, if_pos hwidth, if_pos hwidth]
    rw [checkedRound_eq hnil hwidth, if_neg hnil, if_neg hwidth]
    by_cases hzero : bigEndianUint32 (remaining.take 4) < 1
    · rw [checkedUnit, if_pos hzero, if_pos (by omega)]
    by_cases hover : (remaining.drop 4).length < bigEndianUint32 (remaining.take 4)
    · rw [checkedUnit, if_neg hzero, if_pos hover, if_neg (by omega), if_pos (Int.ofNat_lt.mpr hover)]
      rfl
    rw [checkedUnit_eq hzero hover, if_neg hzero, if_neg hover]
    refine ih ?_
    simp only [List.length_drop] at hover ⊢
    omega

-- ---------------------------------------------------------------------------
-- Acceptance
-- ---------------------------------------------------------------------------

namespace AccessUnit

@[ext] theorem ext_nalus {au au' : AccessUnit} (h : au.nalus = au'.nalus) : au = au' := by
  have hbytes {x y : NALU} (h : x.bytes = y.bytes) : x = y := by
    cases x
    cases y
    cases h
    rfl
  obtain ⟨first, rest⟩ := au
  obtain ⟨first', rest'⟩ := au'
  obtain ⟨hfirst, hrest⟩ := List.cons.inj h
  obtain rfl := hbytes hfirst
  obtain rfl := (List.map_inj_right fun _ _ => hbytes).mp hrest
  rfl

theorem avcc_injective {au au' : AccessUnit} (h : au.avcc = au'.avcc) : au = au' :=
  ext_nalus (frame_injective au.fits au'.fits h)

/-- The access unit of a non-empty list of units that fit their length fields. -/
theorem exists_of_fits {units : List (List UInt8)} (hne : units ≠ [])
    (h : ∀ u ∈ units, Fits lengthField u) : ∃ au : AccessUnit, au.nalus = units := by
  induction units with
  | nil => exact absurd rfl hne
  | cons u us ih =>
    obtain ⟨⟨hu, hlt⟩, hus⟩ := List.forall_mem_cons.mp h
    cases us with
    | nil => exact ⟨⟨⟨u, hu, hlt⟩, []⟩, rfl⟩
    | cons v us =>
      obtain ⟨au, hau⟩ := ih (List.cons_ne_nil v us) hus
      refine ⟨⟨⟨u, hu, hlt⟩, au.first :: au.rest⟩, ?_⟩
      exact congrArg (u :: ·) hau

end AccessUnit

theorem exists_avcc_of_ok {b out : List UInt8} (h : AVCCToAnnexB b = .ok out) :
    ∃ au : AccessUnit, au.avcc = b := by
  rw [AVCCToAnnexB] at h
  split at h
  next => cases h
  next hne =>
    rw [convertLoop_eq] at h
    cases hread : unframe lengthField b with
    | error e =>
      rw [hread] at h
      cases h
    | ok units =>
      obtain ⟨hframe, hfits⟩ := frame_of_unframe lengthField_onto hread
      have hunits : units ≠ [] := by
        rintro rfl
        exact hne (List.isEmpty_iff.mpr hframe.symm)
      obtain ⟨au, rfl⟩ := AccessUnit.exists_of_fits hunits hfits
      exact ⟨au, hframe⟩

theorem checkedAVCCToAnnexB_eq {fuel : Nat} {b : List UInt8} (h : b.length < fuel) :
    checkedAVCCToAnnexB fuel b = .returns (AVCCToAnnexB b) := by
  rw [checkedAVCCToAnnexB, AVCCToAnnexB]
  split
  next => rfl
  next =>
    rw [checkedLoop_eq h]
    cases convertLoop [] b with
    | error e => rfl
    | ok out => rfl

/-- The buffers accepted are the encodings of access units, each of one access
unit; what comes out is its Annex B form, of the same length. The run itself
ends on every buffer, with every slice within its bounds. -/
theorem AVCCToAnnexB_exact (b : List UInt8) :
    ((∃ out, AVCCToAnnexB b = .ok out) ↔ ∃ au : AccessUnit, au.avcc = b) ∧
      (∀ au au' : AccessUnit, au.avcc = b → au'.avcc = b → au = au') ∧
      (∀ au : AccessUnit, au.avcc = b →
        AVCCToAnnexB b = .ok (annexB au.nalus) ∧ (annexB au.nalus).length = b.length) ∧
      ((¬ ∃ au : AccessUnit, au.avcc = b) → ∃ e, AVCCToAnnexB b = .error e) ∧
      ∀ fuel, b.length < fuel → checkedAVCCToAnnexB fuel b = .returns (AVCCToAnnexB b) := by
  refine ⟨⟨?_, ?_⟩, ?_, ?_, ?_, fun fuel => checkedAVCCToAnnexB_eq⟩
  · rintro ⟨out, hout⟩
    exact exists_avcc_of_ok hout
  · rintro ⟨au, rfl⟩
    exact ⟨_, au.AVCCToAnnexB_avcc⟩
  · rintro au au' rfl hau'
    exact (AccessUnit.avcc_injective hau').symm
  · rintro au rfl
    exact ⟨au.AVCCToAnnexB_avcc, length_mark rfl⟩
  · intro hnone
    cases hresult : AVCCToAnnexB b with
    | error e => exact ⟨e, rfl⟩
    | ok out => exact absurd (exists_avcc_of_ok hresult) hnone

-- ---------------------------------------------------------------------------
-- Reading the output back
-- ---------------------------------------------------------------------------

def startCode : List UInt8 := [0x00, 0x00, 0x01]

/-- What emulation prevention leaves of a NALU. -/
structure EmulationPrevented (u : List UInt8) : Prop where
  noZeros : ¬ [0x00, 0x00, 0x00] <:+: u
  noStartCode : ¬ startCode <:+: u
  noTrailingZero : u.getLast? ≠ some 0x00

def AccessUnit.EmulationPrevented (au : AccessUnit) : Prop :=
  ∀ u ∈ au.nalus, H264.EmulationPrevented u

def dropZero (piece : List UInt8) : List UInt8 :=
  if piece.getLast? = some 0x00 then piece.dropLast else piece

/-- Every piece but the last stands before a start code. -/
def dropZeros : List (List UInt8) → List (List UInt8)
  | [] => []
  | [last] => [last]
  | piece :: next :: rest => dropZero piece :: dropZeros (next :: rest)

/-- The NALUs of a byte stream, for a decoder that looks for 00 00 01; what
stands before the first start code is skipped. -/
def scanNALUs (stream : List UInt8) : List (List UInt8) := (dropZeros (pieces startCode stream)).tail

/-- The pieces between the 3-byte start codes when every code has a fourth byte. -/
def padded : List (List UInt8) → List (List UInt8)
  | [] => []
  | [last] => [last]
  | u :: next :: rest => (u ++ [0x00]) :: padded (next :: rest)

theorem startCode_unbordered : Unbordered startCode := by
  intro border hne hbegin hend
  rcases List.suffix_cons_iff.mp hend with rfl | hend
  · rfl
  rcases List.suffix_cons_iff.mp hend with rfl | hend
  · exact absurd hbegin (by decide)
  rcases List.suffix_cons_iff.mp hend with rfl | hend
  · exact absurd hbegin (by decide)
  · exact absurd (List.suffix_nil.mp hend) hne

theorem startCode_not_infix_concat {u : List UInt8} (h : ¬ startCode <:+: u) :
    ¬ startCode <:+: u ++ [0x00] := by
  intro hinfix
  rcases List.infix_concat_iff.mp hinfix with hsuffix | hinfix
  · obtain ⟨front, hfront⟩ := hsuffix
    have hlast := congrArg List.getLast? hfront
    simp [startCode] at hlast
  · exact h hinfix

@[simp] theorem dropZero_concat (u : List UInt8) : dropZero (u ++ [0x00]) = u := by
  rw [dropZero, List.getLast?_concat, if_pos rfl, List.dropLast_concat]

theorem padded_ne_nil (u : List UInt8) (us : List (List UInt8)) : padded (u :: us) ≠ [] := by
  cases us with
  | nil => exact List.cons_ne_nil _ _
  | cons v us => exact List.cons_ne_nil _ _

theorem dropZeros_cons (piece : List UInt8) {rest : List (List UInt8)} (h : rest ≠ []) :
    dropZeros (piece :: rest) = dropZero piece :: dropZeros rest := by
  cases rest with
  | nil => exact absurd rfl h
  | cons next rest => rfl

theorem dropZeros_padded (us : List (List UInt8)) : dropZeros (padded us) = us := by
  induction us with
  | nil => rfl
  | cons u us ih =>
    cases us with
    | nil => rfl
    | cons v us => rw [padded, dropZeros_cons _ (padded_ne_nil v us), dropZero_concat, ih]

theorem padded_free {us : List (List UInt8)} (h : ∀ u ∈ us, ¬ startCode <:+: u) :
    ∀ piece ∈ padded us, ¬ startCode <:+: piece := by
  induction us with
  | nil => exact h
  | cons u us ih =>
    obtain ⟨hu, hus⟩ := List.forall_mem_cons.mp h
    cases us with
    | nil => exact h
    | cons v us => exact List.forall_mem_cons.mpr ⟨startCode_not_infix_concat hu, ih hus⟩

/-- The 4-byte start codes are 3-byte ones behind pieces with one more zero. -/
theorem annexB_eq_mark (u : List UInt8) (us : List (List UInt8)) :
    annexB (u :: us) = [0x00] ++ mark startCode (padded (u :: us)) := by
  induction us generalizing u with
  | nil => rfl
  | cons v us ih =>
    have htail := ih v
    rw [annexB] at htail ⊢
    rw [mark_cons, htail, padded, mark_cons]
    simp [annexBStartCode, startCode]

theorem scanNALUs_annexB {us : List (List UInt8)} (hne : us ≠ [])
    (h : ∀ u ∈ us, ¬ startCode <:+: u) : scanNALUs (annexB us) = us := by
  cases us with
  | nil => exact absurd rfl hne
  | cons u us =>
    have hpieces : pieces startCode (annexB (u :: us)) = [0x00] :: padded (u :: us) := by
      rw [annexB_eq_mark]
      exact pieces_mark startCode_unbordered (List.cons_ne_nil _ _) (by decide) (padded_free h)
    rw [scanNALUs, hpieces, dropZeros_cons _ (padded_ne_nil u us), List.tail_cons, dropZeros_padded]

/-- A decoder reads back the NALUs of the access unit, so that no two access
units have the same output. -/
theorem scanNALUs_AVCCToAnnexB (au au' : AccessUnit) (h : au.EmulationPrevented)
    (h' : au'.EmulationPrevented) :
    (∃ out, AVCCToAnnexB au.avcc = .ok out ∧ scanNALUs out = au.nalus) ∧
      (AVCCToAnnexB au.avcc = AVCCToAnnexB au'.avcc → au = au') := by
  have hread {au : AccessUnit} (h : au.EmulationPrevented) : scanNALUs (annexB au.nalus) = au.nalus :=
    scanNALUs_annexB (List.cons_ne_nil _ _) fun u hu => (h u hu).noStartCode
  refine ⟨⟨_, au.AVCCToAnnexB_avcc, hread h⟩, fun hsame => ?_⟩
  rw [au.AVCCToAnnexB_avcc, au'.AVCCToAnnexB_avcc] at hsame
  have hnalus := congrArg scanNALUs (Except.ok.inj hsame)
  rw [hread h, hread h'] at hnalus
  exact AccessUnit.ext_nalus hnalus

namespace AccessUnit

/-- Parameter sets and an IDR slice. -/
def keyframe : AccessUnit where
  first := ⟨[0x67, 0x42, 0x00, 0x00, 0x03, 0x01], List.cons_ne_nil _ _, by decide⟩
  rest :=
    [⟨[0x68, 0xCE], List.cons_ne_nil _ _, by decide⟩,
      ⟨[0x65, 0x00, 0x88], List.cons_ne_nil _ _, by decide⟩]

theorem keyframe_prevented : keyframe.EmulationPrevented := by
  intro u hu
  simp only [nalus, keyframe, List.map_cons, List.map_nil, List.mem_cons, List.not_mem_nil,
    or_false] at hu
  rcases hu with rfl | rfl | rfl
  · exact ⟨by decide, by decide, by decide⟩
  · exact ⟨by decide, by decide, by decide⟩
  · exact ⟨by decide, by decide, by decide⟩

theorem keyframe_read_back :
    (∃ out, AVCCToAnnexB keyframe.avcc = .ok out ∧ scanNALUs out = keyframe.nalus) ∧
      (AVCCToAnnexB keyframe.avcc = AVCCToAnnexB keyframe.avcc → keyframe = keyframe) :=
  scanNALUs_AVCCToAnnexB keyframe keyframe keyframe_prevented keyframe_prevented

end AccessUnit

end Rvep.H264
