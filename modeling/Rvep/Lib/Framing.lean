import Mathlib.Order.Basic

/-!
# Framing a list of units

Two ways to put units of symbols into one stream: each preceded by its length
in a fixed-width header, or each preceded by a marker. A reader of the first
kind needs nothing but the header codec; `unframe` is that reader, with the
three ways it can fail. A reader of the second kind, `pieces`, splits at the
marker, and is right about units in which the marker does not occur.
-/

namespace Framing

/-- A fixed-width header for lengths below `limit`. -/
structure LengthCodec (β : Type u) where
  width : Nat
  limit : Nat
  write : Nat → List β
  read : List β → Nat
  length_write : ∀ n, (write n).length = width
  read_write : ∀ n, n < limit → read (write n) = n

inductive Error where
  | truncatedHeader (remaining : Nat)
  | emptyUnit
  | overrun (length remaining : Nat)
  deriving DecidableEq, Repr

def frame (c : LengthCodec β) (units : List (List β)) : List β :=
  units.flatMap fun u => c.write u.length ++ u

def mark (marker : List β) (units : List (List β)) : List β :=
  units.flatMap (marker ++ ·)

def unframe (c : LengthCodec β) (stream : List β) : Except Error (List (List β)) :=
  if stream.isEmpty then .ok []
  else if stream.length < c.width then .error (.truncatedHeader stream.length)
  else
    let n := c.read (stream.take c.width)
    let rest := stream.drop c.width
    if n < 1 then .error .emptyUnit
    else if rest.length < n then .error (.overrun n rest.length)
    else (unframe c (rest.drop n)).map (rest.take n :: ·)
termination_by stream.length
decreasing_by
  simp only [rest, List.length_drop] at *
  omega

variable {c : LengthCodec β} {u marker : List β} {units : List (List β)}

@[simp] theorem frame_nil : frame c [] = [] := rfl

@[simp] theorem frame_cons : frame c (u :: units) = c.write u.length ++ (u ++ frame c units) := by
  simp [frame]

@[simp] theorem mark_nil : mark marker [] = [] := rfl

@[simp] theorem mark_cons : mark marker (u :: units) = marker ++ (u ++ mark marker units) := by
  simp [mark]

def Fits (c : LengthCodec β) (u : List β) : Prop := u ≠ [] ∧ u.length < c.limit

theorem unframe_nil : unframe c [] = .ok [] := by
  rw [unframe, List.isEmpty_nil, if_pos rfl]

theorem unframe_frame_cons (hu : Fits c u) (stream : List β) :
    unframe c (c.write u.length ++ (u ++ stream)) = (unframe c stream).map (u :: ·) := by
  obtain ⟨hne, hlt⟩ := hu
  have hpos : 0 < u.length := List.length_pos_iff.mpr hne
  have htake : (c.write u.length ++ (u ++ stream)).take c.width = c.write u.length :=
    List.take_left' (c.length_write _)
  have hdrop : (c.write u.length ++ (u ++ stream)).drop c.width = u ++ stream :=
    List.drop_left' (c.length_write _)
  have hnil : (c.write u.length ++ (u ++ stream)).isEmpty = false := by simp [hne]
  have hwidth : ¬ (c.write u.length ++ (u ++ stream)).length < c.width := by
    rw [List.length_append, c.length_write]
    omega
  rw [unframe, hnil, if_neg Bool.false_ne_true, if_neg hwidth]
  simp only [htake, hdrop, c.read_write _ hlt, List.take_left, List.drop_left]
  rw [if_neg (by omega), if_neg (by simp)]

/-- Every list of units that fit is read back from its frames. -/
theorem unframe_frame (h : ∀ u ∈ units, Fits c u) : unframe c (frame c units) = .ok units := by
  induction units with
  | nil => exact unframe_nil
  | cons u us ih =>
    rw [frame_cons, unframe_frame_cons (h u List.mem_cons_self),
      ih fun v hv => h v (List.mem_cons_of_mem u hv)]
    rfl

/-- Every header of the codec's width is one that it writes. -/
def LengthCodec.Onto (c : LengthCodec β) : Prop :=
  ∀ header : List β, header.length = c.width →
    c.read header < c.limit ∧ c.write (c.read header) = header

theorem unframe_ok_cases {stream : List β} (h : unframe c stream = .ok units) :
    stream = [] ∧ units = [] ∨
      ∃ header unit rest us, stream = header ++ (unit ++ rest) ∧ header.length = c.width ∧
        c.read header = unit.length ∧ unit ≠ [] ∧ unframe c rest = .ok us ∧
        units = unit :: us := by
  rw [unframe] at h
  simp only at h
  split at h
  next hnil => exact .inl ⟨List.isEmpty_iff.mp hnil, (Except.ok.inj h).symm⟩
  next hne =>
    split at h
    next => cases h
    next hwidth =>
      split at h
      next => cases h
      next hpos =>
        split at h
        next => cases h
        next hfits =>
          have hunit : ((stream.drop c.width).take (c.read (stream.take c.width))).length =
              c.read (stream.take c.width) := List.length_take_of_le (by omega)
          cases hrest : unframe c ((stream.drop c.width).drop (c.read (stream.take c.width))) with
          | error e =>
            rw [hrest] at h
            cases h
          | ok us =>
            rw [hrest] at h
            refine .inr ⟨_, _, _, us, ?_, List.length_take_of_le (by omega), hunit.symm, ?_, hrest,
              (Except.ok.inj h).symm⟩
            · rw [List.take_append_drop, List.take_append_drop]
            · rw [← List.length_pos_iff, hunit]
              omega

/-- What is read is what was framed. -/
theorem frame_of_unframe (hc : c.Onto) {stream : List β} (h : unframe c stream = .ok units) :
    frame c units = stream ∧ ∀ u ∈ units, Fits c u := by
  induction units generalizing stream with
  | nil =>
    obtain ⟨rfl, -⟩ | ⟨_, _, _, _, _, _, _, _, _, hunits⟩ := unframe_ok_cases h
    · exact ⟨rfl, nofun⟩
    · cases hunits
  | cons u us ih =>
    obtain ⟨-, hunits⟩ | ⟨header, unit, rest, us', rfl, hwidth, hlength, hne, hrest, hunits⟩ :=
      unframe_ok_cases h
    · cases hunits
    · obtain ⟨rfl, rfl⟩ := List.cons.inj hunits
      obtain ⟨hframe, hall⟩ := ih hrest
      obtain ⟨hlt, hwrite⟩ := hc header hwidth
      rw [hlength] at hlt hwrite
      refine ⟨?_, List.forall_mem_cons.mpr ⟨⟨hne, hlt⟩, hall⟩⟩
      rw [frame_cons, hwrite, hframe]

theorem frame_injective {units' : List (List β)} (hu : ∀ u ∈ units, Fits c u)
    (hu' : ∀ u ∈ units', Fits c u) (h : frame c units = frame c units') : units = units' := by
  have hread := unframe_frame hu
  rw [h, unframe_frame hu'] at hread
  exact (Except.ok.inj hread).symm

theorem length_mark (hm : marker.length = c.width) :
    (mark marker units).length = (frame c units).length := by
  induction units with
  | nil => rfl
  | cons u us ih =>
    rw [mark_cons, frame_cons, List.length_append, List.length_append, List.length_append,
      List.length_append, ih, hm, c.length_write]

/-- Frames and marks agree on a list exactly when every header spells the marker. -/
theorem frame_eq_mark_iff (hm : marker.length = c.width) :
    frame c units = mark marker units ↔ ∀ u ∈ units, c.write u.length = marker := by
  induction units with
  | nil => simp
  | cons u us ih =>
    rw [frame_cons, mark_cons, List.forall_mem_cons, ← ih]
    constructor
    · intro h
      obtain ⟨hhead, hrest⟩ := List.append_inj h ((c.length_write _).trans hm.symm)
      exact ⟨hhead, List.append_cancel_left hrest⟩
    · rintro ⟨hhead, hrest⟩
      rw [hhead, hrest]

-- ---------------------------------------------------------------------------
-- Reading marked units
-- ---------------------------------------------------------------------------

/-- The pieces between the markers, taken from the left: `skip` symbols of a
marker are still to come, `piece` is what was read since the last one. -/
def scan [BEq β] (marker : List β) : Nat → List β → List β → List (List β)
  | _, piece, [] => [piece]
  | skip + 1, piece, _ :: stream => scan marker skip piece stream
  | 0, piece, b :: stream =>
    if marker.isPrefixOf (b :: stream) then piece :: scan marker (marker.length - 1) [] stream
    else scan marker 0 (piece ++ [b]) stream

def pieces [BEq β] (marker stream : List β) : List (List β) := scan marker 0 [] stream

/-- No proper end of the marker is also a beginning of it. -/
def Unbordered (marker : List β) : Prop :=
  ∀ border, border ≠ [] → border <+: marker → border <:+ marker → border = marker

/-- A marker that does not occur in `u` occurs in `u ++ marker` at its end only. -/
theorem not_prefix_of_unbordered (hb : Unbordered marker) {v rest : List β} (hv : v ≠ [])
    (hfree : ¬ marker <:+: v) : ¬ marker <+: v ++ (marker ++ rest) := by
  intro hprefix
  rcases Nat.lt_or_ge v.length marker.length with hlt | hge
  · obtain ⟨border, hborder⟩ : v <+: marker :=
      List.prefix_of_prefix_length_le (List.prefix_append v _) hprefix (Nat.le_of_lt hlt)
    have hne : border ≠ [] := by
      rintro rfl
      rw [List.append_nil] at hborder
      exact absurd (congrArg List.length hborder) (Nat.ne_of_lt hlt)
    have hbegin : border <+: marker := by
      rw [← hborder] at hprefix
      have htail := (List.prefix_append_right_inj v).mp hprefix
      rw [hborder] at htail
      exact List.prefix_of_prefix_length_le htail (List.prefix_append marker rest)
        (hborder ▸ (List.length_append ▸ Nat.le_add_left _ _))
    have hall := hb border hne hbegin ⟨v, hborder⟩
    rw [hall] at hborder
    exact hv (List.append_left_eq_self.mp hborder)
  · exact hfree (List.prefix_of_prefix_length_le hprefix (List.prefix_append v _) hge).isInfix

variable [BEq β]

theorem scan_skip {skipped stream : List β} (piece : List β) :
    scan marker skipped.length piece (skipped ++ stream) = scan marker 0 piece stream := by
  induction skipped with
  | nil => rfl
  | cons b skipped ih => exact ih

variable [LawfulBEq β]

theorem scan_marker (hm : marker ≠ []) (piece stream : List β) :
    scan marker 0 piece (marker ++ stream) = piece :: scan marker 0 [] stream := by
  cases marker with
  | nil => exact absurd rfl hm
  | cons b tail =>
    have hfound : (b :: tail).isPrefixOf (b :: (tail ++ stream)) = true :=
      List.isPrefixOf_iff_prefix.mpr (List.prefix_append (b :: tail) stream)
    rw [List.cons_append, scan, if_pos hfound]
    exact congrArg (piece :: ·) (scan_skip [])

theorem scan_piece (hb : Unbordered marker) (hm : marker ≠ []) (hfree : ¬ marker <:+: u)
    (piece rest : List β) :
    scan marker 0 piece (u ++ (marker ++ rest)) = (piece ++ u) :: scan marker 0 [] rest := by
  induction u generalizing piece with
  | nil => rw [List.nil_append, List.append_nil, scan_marker hm]
  | cons b u ih =>
    have hnot : ¬ marker.isPrefixOf (b :: (u ++ (marker ++ rest))) = true := fun h =>
      not_prefix_of_unbordered hb (List.cons_ne_nil b u) hfree (List.isPrefixOf_iff_prefix.mp h)
    rw [List.cons_append, scan, if_neg hnot,
      ih fun h => hfree (h.trans (List.suffix_cons b u).isInfix), List.append_assoc,
      List.singleton_append]

theorem scan_last (hfree : ¬ marker <:+: u) (piece : List β) :
    scan marker 0 piece u = [piece ++ u] := by
  induction u generalizing piece with
  | nil => rw [scan, List.append_nil]
  | cons b u ih =>
    have hnot : ¬ marker.isPrefixOf (b :: u) = true := fun h =>
      hfree (List.isPrefixOf_iff_prefix.mp h).isInfix
    rw [scan, if_neg hnot, ih fun h => hfree (h.trans (List.suffix_cons b u).isInfix),
      List.append_assoc, List.singleton_append]

/-- Units without the marker are read back from the marked stream. -/
theorem pieces_mark (hb : Unbordered marker) (hm : marker ≠ []) (hfree : ¬ marker <:+: u)
    (hall : ∀ v ∈ units, ¬ marker <:+: v) :
    pieces marker (u ++ mark marker units) = u :: units := by
  induction units generalizing u with
  | nil =>
    rw [mark_nil, List.append_nil]
    exact scan_last hfree []
  | cons v units ih =>
    obtain ⟨hv, hrest⟩ := List.forall_mem_cons.mp hall
    rw [mark_cons]
    exact (scan_piece hb hm hfree [] _).trans (congrArg (u :: ·) (ih hv hrest))

end Framing
