import Rvep.Lib.Reactive

/-!
# Push to talk

`handlePTTStart` and `handlePTTEnd` of
`apps/web/src/app/control/[vehicleId]/page.tsx`, on the pointer events of the
button in `components/control/CockpitToolbar.tsx`. The two share
`pttTrackRef` over the awaits of three LiveKit calls, whose completions are
events too. Tracks are numbered in the order in which they were created.
-/

namespace Rvep.Cockpit.PushToTalk

open Reactive

-- ---------------------------------------------------------------------------
-- The handlers
-- ---------------------------------------------------------------------------

/-- `room` and `track` are the refs, `creating`, `publishing` and
`unpublishing` the calls that are pending; of the tracks it is known which are
stopped and which the room has published. -/
structure Ptt where
  room : Bool
  track : Option Nat
  pttActive : Bool
  created : Nat
  stopped : List Nat
  published : List Nat
  creating : Nat
  publishing : List Nat
  unpublishing : List Nat
  deriving DecidableEq

/-- The toolbar is enabled by its `disabled` prop and sees `pttActive` as last
rendered, so both come with the event. -/
inductive Event where
  | connected
  | pointerDown (disabled : Bool)
  | pointerUp
  | pointerCancel
  | pointerLeave (pttActive : Bool)
  | created
  | createFails
  | published (track : Nat)
  | publishFails (track : Nat)
  | unpublished (track : Nat)
  | unpublishFails (track : Nat)
  deriving DecidableEq

namespace Ptt

variable (s : Ptt)

/-- `handlePTTStart` up to its first await. -/
def handlePTTStart : Ptt :=
  if s.track.isSome then s
  else if s.room then { s with creating := s.creating + 1 }
  else s

/-- Between its awaits. -/
def trackCreated : Ptt :=
  { s with
    creating := s.creating - 1
    created := s.created + 1
    track := some s.created
    publishing := s.created :: s.publishing }

/-- Its `catch`, which stops the track that is in the ref by then. -/
def startFailed : Ptt :=
  { s with stopped := s.track.toList ++ s.stopped, track := none, pttActive := false }

def handlePTTEnd : Ptt :=
  match s.track with
  | none => { s with pttActive := false }
  | some track =>
    if s.room then
      { s with pttActive := false, track := none, unpublishing := track :: s.unpublishing }
    else { s with pttActive := false, track := none, stopped := track :: s.stopped }

def step : Event → Ptt
  | .connected => { s with room := true }
  | .pointerDown disabled => if disabled then s else s.handlePTTStart
  | .pointerUp | .pointerCancel => s.handlePTTEnd
  | .pointerLeave pttActive => if pttActive then s.handlePTTEnd else s
  | .created => if 0 < s.creating then s.trackCreated else s
  | .createFails => if 0 < s.creating then { s with creating := s.creating - 1 }.startFailed else s
  | .published track =>
    if track ∈ s.publishing then
      { s with
        publishing := s.publishing.filter (· ≠ track)
        published := track :: s.published
        pttActive := true }
    else s
  | .publishFails track =>
    if track ∈ s.publishing then
      { s with publishing := s.publishing.filter (· ≠ track) }.startFailed
    else s
  | .unpublished track =>
    if track ∈ s.unpublishing then
      { s with
        unpublishing := s.unpublishing.filter (· ≠ track)
        published := s.published.filter (· ≠ track)
        stopped := track :: s.stopped }
    else s
  | .unpublishFails track =>
    if track ∈ s.unpublishing then
      { s with
        unpublishing := s.unpublishing.filter (· ≠ track)
        stopped := track :: s.stopped }
    else s

end Ptt

/-- The cockpit as the page is opened. -/
def pushToTalk : System Ptt Event Unit where
  init :=
    { room := false, track := none, pttActive := false, created := 0, stopped := [], published := []
      creating := 0, publishing := [], unpublishing := [] }
  step s e := (s.step e, ())

abbrev PttEntry := Entry Ptt Event Unit
abbrev PttLog := Log Ptt Event Unit

-- ---------------------------------------------------------------------------
-- Hot microphones
-- ---------------------------------------------------------------------------

inductive Gesture where
  | press
  | release
  deriving DecidableEq

def gesture? : Event → Option Gesture
  | .pointerDown false => some .press
  | .pointerUp | .pointerCancel | .pointerLeave true => some .release
  | _ => none

def lastGesture (l : PttLog) : Option Gesture := latest (fun x => (gesture? x.event).toList) l

def Ptt.Idle (s : Ptt) : Prop := s.creating = 0 ∧ s.publishing = [] ∧ s.unpublishing = []

/-- Behind a release with no call pending nothing is published and all is stopped. -/
def NotHot (x : PttEntry) (past : PttLog) : Prop :=
  lastGesture (x :: past) = some .release → x.after.Idle →
    x.after.published = [] ∧ ∀ track < x.after.created, track ∈ x.after.stopped

/-- A track is created while the button is held and no other track is in the
ref; what fails finds no published track, there or to unpublish; and no track
is published once it is stopped. -/
def CompletesInTime (s : Ptt) (last : Option Gesture) : Event → Prop
  | .created => 0 < s.creating → last = some .press ∧ s.track = none
  | .createFails => 0 < s.creating → ∀ held ∈ s.track, held ∉ s.published
  | .published track => track ∈ s.publishing → track ∉ s.stopped
  | .publishFails track => track ∈ s.publishing → ∀ held ∈ s.track, held ∉ s.published
  | .unpublishFails track => track ∈ s.unpublishing → track ∉ s.published
  | _ => True

instance (s : Ptt) : Decidable s.Idle := inferInstanceAs (Decidable (_ ∧ _))

instance (x : PttEntry) (past : PttLog) : Decidable (NotHot x past) :=
  inferInstanceAs (Decidable (_ → _))

instance (s : Ptt) (last : Option Gesture) : (e : Event) → Decidable (CompletesInTime s last e)
  | .created | .createFails | .published _ | .publishFails _ | .unpublishFails _ =>
    inferInstanceAs (Decidable (_ → _))
  | .connected | .pointerDown _ | .pointerUp | .pointerCancel | .pointerLeave _ | .unpublished _ =>
    .isTrue trivial

/-- Every track is stopped, in the ref or being unpublished, and a published
one is in the ref or being unpublished. -/
structure Kept (s : Ptt) (last : Option Gesture) : Prop where
  joined : s.track ≠ none ∨ 0 < s.creating → s.room = true
  numbered : ∀ track ∈ s.publishing, track < s.created
  known : ∀ track < s.created,
    track ∈ s.stopped ∨ s.track = some track ∨ track ∈ s.unpublishing
  held : ∀ track ∈ s.published, s.track = some track ∨ track ∈ s.unpublishing
  released : last = some .release → s.track = none

variable {s : Ptt} {last : Option Gesture}

theorem Kept.quiet (h : Kept s (some .release)) (hidle : s.Idle) :
    s.published = [] ∧ ∀ track < s.created, track ∈ s.stopped := by
  obtain ⟨-, -, hunpublishing⟩ := hidle
  have htrack := h.released rfl
  constructor
  · refine List.eq_nil_iff_forall_not_mem.mpr fun track htaken => ?_
    simpa [htrack, hunpublishing] using h.held track htaken
  · intro track hlt
    simpa [htrack, hunpublishing] using h.known track hlt

theorem Kept.start (h : Kept s last) : Kept s.handlePTTStart (some .press) := by
  unfold Ptt.handlePTTStart
  split
  next => exact ⟨h.joined, h.numbered, h.known, h.held, nofun⟩
  next =>
    split
    next hroom => exact ⟨fun _ => hroom, h.numbered, h.known, h.held, nofun⟩
    next => exact ⟨h.joined, h.numbered, h.known, h.held, nofun⟩

theorem Kept.release (h : Kept s last) : Kept s.handlePTTEnd (some .release) := by
  obtain ⟨hjoined, hnumbered, hknown, hheld, -⟩ := h
  unfold Ptt.handlePTTEnd
  split
  next htrack => exact ⟨hjoined, hnumbered, hknown, hheld, fun _ => htrack⟩
  next track htrack =>
    have hroom : s.room = true := hjoined (.inl (by simp [htrack]))
    simp only [hroom, if_true]
    refine ⟨fun _ => rfl, hnumbered, ?_, ?_, fun _ => rfl⟩
    · intro other hlt
      rcases hknown other hlt with hstopped | hother | hpending
      · exact .inl hstopped
      · obtain rfl := Option.some.inj (htrack.symm.trans hother)
        exact .inr (.inr List.mem_cons_self)
      · exact .inr (.inr (List.mem_cons_of_mem _ hpending))
    · intro other hpublished
      rcases hheld other hpublished with hother | hpending
      · obtain rfl := Option.some.inj (htrack.symm.trans hother)
        exact .inr List.mem_cons_self
      · exact .inr (List.mem_cons_of_mem _ hpending)

theorem Kept.startFailed (h : Kept s last) (hfree : ∀ held ∈ s.track, held ∉ s.published) :
    Kept s.startFailed last := by
  obtain ⟨hjoined, hnumbered, hknown, hheld, -⟩ := h
  refine ⟨?_, hnumbered, ?_, ?_, fun _ => rfl⟩
  · rintro (hnone | hcreating)
    · exact absurd rfl hnone
    · exact hjoined (.inr hcreating)
  · intro track hlt
    simp only [Ptt.startFailed, List.mem_append, Option.mem_toList]
    rcases hknown track hlt with hstopped | htrack | hpending
    · exact .inl (.inr hstopped)
    · exact .inl (.inl htrack)
    · exact .inr (.inr hpending)
  · intro track hpublished
    rcases hheld track hpublished with htrack | hpending
    · exact absurd hpublished (hfree track htrack)
    · exact .inr hpending

theorem Kept.trackCreated (h : Kept s last) (hpress : last = some .press) (hfree : s.track = none)
    (hcreating : 0 < s.creating) : Kept s.trackCreated last := by
  obtain ⟨hjoined, hnumbered, hknown, hheld, -⟩ := h
  refine ⟨fun _ => hjoined (.inr hcreating), ?_, ?_, ?_, ?_⟩
  · intro track hpublishing
    rcases List.mem_cons.mp hpublishing with rfl | hpublishing
    · exact Nat.lt_succ_self _
    · exact Nat.lt_succ_of_lt (hnumbered track hpublishing)
  · intro track hlt
    rcases Nat.lt_succ_iff_lt_or_eq.mp hlt with hlt | rfl
    · rcases hknown track hlt with hstopped | htrack | hpending
      · exact .inl hstopped
      · exact absurd (hfree.symm.trans htrack) nofun
      · exact .inr (.inr hpending)
    · exact .inr (.inl rfl)
  · intro track hpublished
    rcases hheld track hpublished with htrack | hpending
    · exact absurd (hfree.symm.trans htrack) nofun
    · exact .inr hpending
  · rw [hpress]
    exact nofun

theorem Kept.completed (h : Kept s last) (track : Nat) (stopped : List Nat)
    (hstopped : ∀ other, other ∈ s.stopped ∨ other = track → other ∈ stopped)
    (published : List Nat)
    (hpublished : ∀ other ∈ published, other ∈ s.published ∧ other ≠ track) :
    Kept { s with
      unpublishing := s.unpublishing.filter (· ≠ track)
      published := published
      stopped := stopped } last := by
  obtain ⟨hjoined, hnumbered, hknown, hheld, hreleased⟩ := h
  refine ⟨hjoined, hnumbered, ?_, ?_, hreleased⟩
  · intro other hlt
    rcases hknown other hlt with hother | hother | hpending
    · exact .inl (hstopped other (.inl hother))
    · exact .inr (.inl hother)
    · rcases Decidable.em (other = track) with rfl | hne
      · exact .inl (hstopped other (.inr rfl))
      · exact .inr (.inr (by simp [hpending, hne]))
  · intro other hother
    obtain ⟨hother, hne⟩ := hpublished other hother
    rcases hheld other hother with htrack | hpending
    · exact .inl htrack
    · exact .inr (by simp [hpending, hne])

theorem Kept.publish (h : Kept s last) {track : Nat} (hpublishing : track ∈ s.publishing)
    (hlive : track ∉ s.stopped) :
    Kept (s.step (.published track)) last := by
  obtain ⟨hjoined, hnumbered, hknown, hheld, hreleased⟩ := h
  simp only [Ptt.step, hpublishing, if_true]
  refine ⟨hjoined, fun other hother => hnumbered other (List.mem_filter.mp hother).1, hknown, ?_,
    hreleased⟩
  intro other hother
  rcases List.mem_cons.mp hother with rfl | hother
  · exact (hknown other (hnumbered other hpublishing)).resolve_left hlive
  · exact hheld other hother

/-- One case an event: the handlers by their lemmas, the rest on its own. -/
theorem Kept.step (h : Kept s last) {e : Event} (hok : CompletesInTime s last e) :
    Kept (s.step e) ((gesture? e).or last) := by
  cases e with
  | connected => exact ⟨fun _ => rfl, h.numbered, h.known, h.held, h.released⟩
  | pointerDown disabled =>
    cases disabled with
    | true => exact h
    | false => exact h.start
  | pointerUp => exact h.release
  | pointerCancel => exact h.release
  | pointerLeave pttActive =>
    cases pttActive with
    | true => exact h.release
    | false => exact h
  | created =>
    simp only [Ptt.step]
    split
    next hcreating =>
      obtain ⟨hpress, hfree⟩ := hok hcreating
      exact h.trackCreated hpress hfree hcreating
    next => exact h
  | createFails =>
    simp only [Ptt.step]
    split
    next hcreating =>
      refine Kept.startFailed ⟨?_, h.numbered, h.known, h.held, h.released⟩ (hok hcreating)
      exact fun _ => h.joined (.inr hcreating)
    next => exact h
  | published track =>
    rcases Decidable.em (track ∈ s.publishing) with hpublishing | hpublishing
    · exact h.publish hpublishing (hok hpublishing)
    · simpa [Ptt.step, hpublishing, gesture?] using h
  | publishFails track =>
    simp only [Ptt.step]
    split
    next hpublishing =>
      refine Kept.startFailed ⟨h.joined, ?_, h.known, h.held, h.released⟩ (hok hpublishing)
      exact fun other hother => h.numbered other (List.mem_filter.mp hother).1
    next => exact h
  | unpublished track =>
    simp only [Ptt.step]
    split
    next => exact h.completed track _ (by simp [or_comm]) _ (by simp)
    next => exact h
  | unpublishFails track =>
    simp only [Ptt.step]
    split
    next hpending =>
      refine h.completed track _ (by simp [or_comm]) _ fun other hother => ⟨hother, ?_⟩
      rintro rfl
      exact hok hpending hother
    next => exact h

theorem lastGesture_cons (x : PttEntry) (past : PttLog) :
    lastGesture (x :: past) = (gesture? x.event).or (lastGesture past) := by
  cases hgesture : gesture? x.event <;> simp [lastGesture, latest_cons, hgesture]

theorem released_silent (es : List Event)
    (hintime : Always (fun x past => CompletesInTime x.before (lastGesture past) x.event)
      (pushToTalk.log es)) :
    Always NotHot (pushToTalk.log es) := by
  refine System.always_of_invariant (fun l => Kept (pushToTalk.state l) (lastGesture l)) ?_ ?_ es
    hintime
  · exact ⟨by simp [pushToTalk], nofun, nofun, nofun, nofun⟩
  · intro past e hkept hok
    have hstep : Kept ((pushToTalk.state past).step e) ((gesture? e).or (lastGesture past)) :=
      hkept.step hok
    have hlast := lastGesture_cons (pushToTalk.react (pushToTalk.state past) e) past
    refine ⟨hlast ▸ hstep, fun hrelease hidle => ?_⟩
    rw [System.react_event] at hlast
    rw [← hlast, hrelease] at hstep
    exact hstep.quiet hidle

/-- Pressed, spoken and let go. -/
theorem released_silent_after_call :
    Always NotHot (pushToTalk.log [.unpublished 0, .pointerUp, .published 0, .created,
      .pointerDown false, .connected]) :=
  released_silent _ (by decide)

/-- Let go before the microphone is open: the track is created and published
with nobody left to stop it. -/
theorem quick_tap_stays_hot :
    ¬ Always NotHot (pushToTalk.log [.published 0, .created, .pointerUp, .pointerDown false,
      .connected]) := by
  decide

end Rvep.Cockpit.PushToTalk
