import Mathlib.Algebra.Ring.Nat
import Rvep.Lib.Framing

/-!
# H.264 access units in Annex B form

`apps/edge-publisher-go/internal/h264/avcc_to_annexb.go`: the publisher's
input is Annex B or AVCC, and which of the two is guessed from its first
bytes. A Go `int` holds every 32-bit length, so lengths are natural numbers.
-/

namespace Rvep.H264

open Framing

inductive Error where
  | emptyBuffer
  | emptyAVCC
  | truncatedLength (remaining : Nat)
  | zeroLength
  | overrun (naluLen remaining : Nat)
  | noNALUs
  deriving DecidableEq, Repr

def Error.message : Error → String
  | .emptyBuffer => "h264: empty buffer"
  | .emptyAVCC => "h264: empty AVCC buffer"
  | .truncatedLength remaining =>
    "h264: truncated AVCC length field: " ++ toString remaining ++ " bytes remaining"
  | .zeroLength => "h264: AVCC NALU length is zero"
  | .overrun naluLen remaining =>
    "h264: AVCC NALU length " ++ toString naluLen ++ " exceeds buffer (" ++
      toString remaining ++ " bytes remaining)"
  | .noNALUs => "h264: no NALUs found in AVCC buffer"

def annexBStartCode : List UInt8 := [0x00, 0x00, 0x00, 0x01]

/-- `binary.BigEndian.Uint32`, on a slice of four bytes. -/
def bigEndianUint32 (b : List UInt8) : Nat :=
  b.foldl (fun n byte => n * 256 + byte.toNat) 0

def bigEndianPutUint32 (n : Nat) : List UInt8 :=
  [UInt8.ofNat (n / 2 ^ 24), UInt8.ofNat (n / 2 ^ 16), UInt8.ofNat (n / 2 ^ 8), UInt8.ofNat n]

theorem bigEndianUint32_put (n : Nat) (h : n < 2 ^ 32) :
    bigEndianUint32 (bigEndianPutUint32 n) = n := by
  simp only [bigEndianUint32, bigEndianPutUint32, List.foldl_cons, List.foldl_nil, UInt8.toNat_ofNat']
  omega

def lengthField : LengthCodec UInt8 where
  width := 4
  limit := 2 ^ 32
  write := bigEndianPutUint32
  read := bigEndianUint32
  length_write _ := rfl
  read_write := bigEndianUint32_put

/-- The loop of `AVCCToAnnexB`, with its two variables. -/
def convertLoop (out remaining : List UInt8) : Except Error (List UInt8) :=
  if remaining.isEmpty then .ok out
  else if remaining.length < 4 then .error (.truncatedLength remaining.length)
  else
    let naluLen := bigEndianUint32 (remaining.take 4)
    let remaining := remaining.drop 4
    if naluLen < 1 then .error .zeroLength
    else if remaining.length < naluLen then .error (.overrun naluLen remaining.length)
    else
      let nalu := remaining.take naluLen
      let remaining := remaining.drop naluLen
      convertLoop (out ++ annexBStartCode ++ nalu) remaining
termination_by remaining.length
decreasing_by
  simp only [List.length_drop] at *
  omega

def AVCCToAnnexB (avcc : List UInt8) : Except Error (List UInt8) :=
  if avcc.isEmpty then .error .emptyAVCC
  else
    match convertLoop [] avcc with
    | .error e => .error e
    | .ok out => if out.isEmpty then .error .noNALUs else .ok out

def isAnnexB (data : List UInt8) : Bool :=
  [0x00, 0x00, 0x00, 0x01].isPrefixOf data || [0x00, 0x00, 0x01].isPrefixOf data

def ToAnnexB (data : List UInt8) : Except Error (List UInt8) :=
  if data.isEmpty then .error .emptyBuffer
  else if isAnnexB data then .ok data
  else AVCCToAnnexB data

-- ---------------------------------------------------------------------------
-- The loop is the reader of length-prefixed frames
-- ---------------------------------------------------------------------------

def Error.ofFraming : Framing.Error → Error
  | .truncatedHeader remaining => .truncatedLength remaining
  | .emptyUnit => .zeroLength
  | .overrun length remaining => .overrun length remaining

def annexB (nalus : List (List UInt8)) : List UInt8 := mark annexBStartCode nalus

theorem unframe_lengthField (stream : List UInt8) :
    unframe lengthField stream =
      if stream.isEmpty then .ok []
      else if stream.length < 4 then .error (.truncatedHeader stream.length)
      else if bigEndianUint32 (stream.take 4) < 1 then .error .emptyUnit
      else if (stream.drop 4).length < bigEndianUint32 (stream.take 4) then
        .error (.overrun (bigEndianUint32 (stream.take 4)) (stream.drop 4).length)
      else
        (unframe lengthField ((stream.drop 4).drop (bigEndianUint32 (stream.take 4)))).map
          ((stream.drop 4).take (bigEndianUint32 (stream.take 4)) :: ·) := by
  rw [unframe]
  rfl

theorem convertLoop_eq (out remaining : List UInt8) :
    convertLoop out remaining =
      match unframe lengthField remaining with
      | .error e => .error (.ofFraming e)
      | .ok nalus => .ok (out ++ annexB nalus) := by
  induction out, remaining using convertLoop.induct with
  | case1 out remaining hnil =>
    rw [convertLoop, unframe_lengthField, if_pos hnil, if_pos hnil]
    simp [annexB]
  | case2 out remaining hne hshort =>
    rw [convertLoop, unframe_lengthField, if_neg hne, if_neg hne, if_pos hshort, if_pos hshort]
    rfl
  | case3 out remaining hne hlen naluLen hzero =>
    rw [convertLoop, unframe_lengthField, if_neg hne, if_neg hne, if_neg hlen, if_neg hlen,
      if_pos hzero, if_pos hzero]
    rfl
  | case4 out remaining hne hlen naluLen rest hpos hover =>
    rw [convertLoop, unframe_lengthField, if_neg hne, if_neg hne, if_neg hlen, if_neg hlen,
      if_neg hpos, if_neg hpos, if_pos hover, if_pos hover]
    rfl
  | case5 out remaining hne hlen naluLen rest hpos hfits nalu rest' ih =>
    rw [convertLoop, unframe_lengthField, if_neg hne, if_neg hne, if_neg hlen, if_neg hlen,
      if_neg hpos, if_neg hpos, if_neg hfits, if_neg hfits]
    change convertLoop (out ++ annexBStartCode ++ nalu) rest' =
      match (unframe lengthField rest').map (nalu :: ·) with
      | .error e => .error (.ofFraming e)
      | .ok nalus => .ok (out ++ annexB nalus)
    rw [ih]
    cases unframe lengthField rest' with
    | error e => rfl
    | ok nalus => simp [Except.map, annexB]

-- ---------------------------------------------------------------------------
-- Access units
-- ---------------------------------------------------------------------------

/-- The lengths whose length field begins with a start code: 00 00 00 01 or 00 00 01. -/
def SpellsStartCode (length : Nat) : Prop := length = 1 ∨ 256 ≤ length ∧ length < 512

structure NALU where
  bytes : List UInt8
  nonempty : bytes ≠ []
  lt : bytes.length < 2 ^ 32

structure AccessUnit where
  first : NALU
  rest : List NALU

namespace AccessUnit

def nalus (au : AccessUnit) : List (List UInt8) := au.first.bytes :: au.rest.map NALU.bytes

def avcc (au : AccessUnit) : List UInt8 := frame lengthField au.nalus

theorem fits (au : AccessUnit) : ∀ u ∈ au.nalus, Fits lengthField u := by
  intro u hu
  rcases List.mem_cons.mp hu with rfl | hu
  · exact ⟨au.first.nonempty, au.first.lt⟩
  · obtain ⟨nalu, -, rfl⟩ := List.mem_map.mp hu
    exact ⟨nalu.nonempty, nalu.lt⟩

theorem avcc_eq (au : AccessUnit) :
    au.avcc = bigEndianPutUint32 au.first.bytes.length ++
      (au.first.bytes ++ frame lengthField (au.rest.map NALU.bytes)) := frame_cons

theorem AVCCToAnnexB_avcc (au : AccessUnit) : AVCCToAnnexB au.avcc = .ok (annexB au.nalus) := by
  have hloop : convertLoop [] au.avcc = .ok (annexB au.nalus) := by
    rw [convertLoop_eq, avcc, unframe_frame au.fits]
    rfl
  have hne : au.avcc.isEmpty = false := by
    rw [avcc_eq]
    rfl
  have hout : (annexB au.nalus).isEmpty = false := rfl
  rw [AVCCToAnnexB, hne, hloop]
  simp [hout]

theorem isAnnexB_avcc (au : AccessUnit) :
    isAnnexB au.avcc = true ↔ SpellsStartCode au.first.bytes.length := by
  have hlt := au.first.lt
  have hbyte (n : Nat) (b : UInt8) : (b == UInt8.ofNat n) = true ↔ b.toNat = n % 256 := by
    rw [beq_iff_eq, ← UInt8.toNat_inj, UInt8.toNat_ofNat']
  rw [avcc_eq]
  simp only [isAnnexB, bigEndianPutUint32, List.cons_append, List.isPrefixOf_cons_cons,
    List.isPrefixOf_nil_left, Bool.and_true, Bool.or_eq_true, Bool.and_eq_true, hbyte,
    SpellsStartCode, UInt8.toNat_zero, Nat.reducePow, UInt8.reduceToNat]
  omega

/-- On AVCC input the guess is right exactly when the first length field does
not spell a start code, or every length field spells the 4-byte one. -/
theorem ToAnnexB_avcc_iff (au : AccessUnit) :
    ToAnnexB au.avcc = .ok (annexB au.nalus) ↔
      (∀ u ∈ au.nalus, u.length = 1) ∨ ¬ SpellsStartCode au.first.bytes.length := by
  have hne : au.avcc.isEmpty = false := by
    rw [avcc_eq]
    rfl
  have hone : ∀ u ∈ au.nalus, bigEndianPutUint32 u.length = annexBStartCode ↔ u.length = 1 := by
    intro u hu
    constructor
    · intro h
      rw [← bigEndianUint32_put u.length (au.fits u hu).2, h]
      rfl
    · intro h
      rw [h]
      rfl
  have hself : au.avcc = annexB au.nalus ↔ ∀ u ∈ au.nalus, u.length = 1 :=
    (frame_eq_mark_iff rfl).trans (forall₂_congr hone)
  unfold ToAnnexB
  rw [hne, if_neg Bool.false_ne_true]
  split
  next hguess =>
    have hspells := au.isAnnexB_avcc.mp hguess
    simp [hspells, hself]
  next hguess =>
    have hplain := mt au.isAnnexB_avcc.mpr hguess
    simp [hplain, au.AVCCToAnnexB_avcc]

/-- An IDR slice of 256 bytes, behind the length field 00 00 01 00. -/
def slice256 : AccessUnit where
  first := ⟨List.replicate 256 0x65, List.cons_ne_nil 0x65 (List.replicate 255 0x65), by
    rw [List.length_replicate]
    decide⟩
  rest := []

theorem slice256_not_converted : ToAnnexB slice256.avcc ≠ .ok (annexB slice256.nalus) := by
  decide +kernel

end AccessUnit

end Rvep.H264
