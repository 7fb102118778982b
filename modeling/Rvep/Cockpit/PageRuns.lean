import Rvep.Cockpit.PageScreen

/-!
# Heartbeats of a control page

What a page's log of events says about the page it shows, and when that page
sends heartbeats: from the moment it has joined its room until it is left.
-/

namespace Rvep.Cockpit

open Reactive

-- ---------------------------------------------------------------------------
-- What has happened on the page
-- ---------------------------------------------------------------------------

abbrev PageEntry := Entry PageLife PageEvent (List PageEffect)
abbrev PageLog := Log PageLife PageEvent (List PageEffect)

def PageEvent.leaves : PageEvent → Bool
  | .mount _ | .unmount => true
  | _ => false

def PageEvent.opens : PageEvent → Bool
  | .mount v => v != ""
  | _ => false

def Stays (x : PageEntry) (_ : PageLog) : Prop := x.event.leaves = false

/-- The runs of the effect before now; the next one has this number. -/
def mounts (l : PageLog) : Nat := l.countP (·.event.opens)

/-- The page shows vehicle `v`, in run `i` of the effect. -/
def MountedAs (i : Nat) (v : String) : PageLog → Prop :=
  Since Stays fun x past => x.event = .mount v ∧ v ≠ "" ∧ mounts past = i

def Fetched (i : Nat) (v : String) : PageLog → Prop :=
  Since Stays fun x past => x.event = .tokenSettled i (.ok ()) ∧ MountedAs i v past

/-- The page shows vehicle `v` and has joined its room for it. -/
def Connected (i : Nat) (v : String) : PageLog → Prop :=
  Since Stays fun x past => (∃ clock, x.event = .connectSettled i (.ok ()) clock) ∧ Fetched i v past

/-- A first heartbeat went out when run `i` joined, and the page has not been left since. -/
def Started (i : Nat) : PageLog → Prop :=
  Since Stays fun x _ =>
    (∃ clock, x.event = .connectSettled i (.ok ()) clock) ∧ heartbeats x.output ≠ []

namespace Screen

variable {s : Screen} {e : PageEvent} {i j : Nat} {v : String} {showing : Showing}

theorem current_move {source target : Phase} (h : (s.move i source target).current j = some showing) :
    s.current j = some showing ∨
      i = j ∧ s.current j = some ⟨showing.vehicleId, source⟩ ∧ showing.phase = target := by
  unfold move at h
  split at h
  next v phase hc =>
    split at h
    next hp =>
      obtain ⟨hj, hs⟩ := current_eq_some.mp h
      obtain ⟨hi, -⟩ := current_eq_some.mp hc
      obtain rfl : i = j := by simp only at hj; omega
      obtain rfl := Option.some.inj hs
      exact .inr ⟨rfl, hp ▸ hc, rfl⟩
    next => exact .inl h
  next => exact .inl h

theorem move_driving {source target : Phase} (hs : source ≠ .driving)
    (h : s.current j = some ⟨v, .driving⟩) : (s.move i source target).current j = some ⟨v, .driving⟩ := by
  unfold move
  split
  next w phase hc =>
    split
    next hp =>
      obtain ⟨hi, hw⟩ := current_eq_some.mp hc
      obtain ⟨-, hv⟩ := current_eq_some.mp h
      have heq := Option.some.inj (hw.symm.trans hv)
      cases heq
      exact absurd hp.symm hs
    next => exact h
  next => exact h

/-- How a page that stays comes to show what it shows. -/
theorem step_current (hstay : e.leaves = false) (h : (s.step e).1.current j = some showing) :
    s.current j = some showing ∨
      (e = .tokenSettled j (.ok ()) ∧ s.current j = some ⟨showing.vehicleId, .fetching⟩ ∧
        showing.phase = .connecting) ∨
      ((∃ clock, e = .connectSettled j (.ok ()) clock) ∧
        s.current j = some ⟨showing.vehicleId, .connecting⟩ ∧ showing.phase = .driving) ∨
      showing.phase = .failed ∧ ∃ phase, s.current j = some ⟨showing.vehicleId, phase⟩ := by
  cases e with
  | mount _ | unmount => exact absurd hstay.symm Bool.false_ne_true
  | interval _ _ | press _ _ | gamepad _ _ | render => exact .inl h
  | tokenSettled i result =>
    cases result with
    | ok =>
      obtain h | ⟨rfl, hc, hp⟩ := current_move h
      · exact .inl h
      · exact .inr (.inl ⟨rfl, hc, hp⟩)
    | error err =>
      obtain h | ⟨rfl, hc, hp⟩ := current_move h
      · exact .inl h
      · exact .inr (.inr (.inr ⟨hp, _, hc⟩))
  | connectSettled i result clock =>
    cases result with
    | ok =>
      simp only [step] at h
      split at h
      next w hc =>
        obtain ⟨hj, hs⟩ := current_eq_some.mp h
        obtain ⟨hi, -⟩ := current_eq_some.mp hc
        obtain rfl : i = j := by simp only at hj; omega
        obtain rfl := Option.some.inj hs
        exact .inr (.inr (.inl ⟨⟨clock, rfl⟩, hc, rfl⟩))
      next => exact .inl h
    | error err =>
      obtain h | ⟨rfl, hc, hp⟩ := current_move h
      · exact .inl h
      · exact .inr (.inr (.inr ⟨hp, _, hc⟩))

theorem step_driving (hstay : e.leaves = false) (h : s.current j = some ⟨v, .driving⟩) :
    (s.step e).1.current j = some ⟨v, .driving⟩ := by
  cases e with
  | mount _ | unmount => exact absurd hstay.symm Bool.false_ne_true
  | interval _ _ | press _ _ | gamepad _ _ | render => exact h
  | tokenSettled i result => cases result <;> exact move_driving (by decide) h
  | connectSettled i result clock =>
    cases result with
    | error err => exact move_driving (by decide) h
    | ok =>
      simp only [step]
      split
      next w hc =>
        have heq := Option.some.inj
          ((current_eq_some.mp hc).2.symm.trans (current_eq_some.mp h).2)
        cases heq
      next => exact h

/-- A heartbeat goes out where the screen, then, shows a page that drives. -/
theorem step_beats (h : v ∈ (s.step e).2) :
    (s.step e).2 = [v] ∧ e.leaves = false ∧ ∃ i, (s.step e).1.current i = some ⟨v, .driving⟩ ∧
      ((∃ now, e = .interval i now) ∨ ∃ clock, e = .connectSettled i (.ok ()) clock) := by
  cases e with
  | mount _ | unmount | press _ _ | gamepad _ _ | render => exact absurd h List.not_mem_nil
  | tokenSettled i result => cases result <;> exact absurd h List.not_mem_nil
  | interval i now =>
    simp only [step, beatsFor] at h ⊢
    split at h
    next w hc =>
      obtain rfl := List.mem_singleton.mp h
      exact ⟨rfl, rfl, i, hc, .inl ⟨now, rfl⟩⟩
    next => exact absurd h List.not_mem_nil
  | connectSettled i result clock =>
    cases result with
    | error err => exact absurd h List.not_mem_nil
    | ok =>
      simp only [step] at h ⊢
      split at h
      next w hc =>
        obtain rfl := List.mem_singleton.mp h
        obtain ⟨hi, -⟩ := current_eq_some.mp hc
        exact ⟨rfl, rfl, i, current_eq_some.mpr ⟨hi, rfl⟩, .inr ⟨clock, rfl⟩⟩
      next => exact absurd h List.not_mem_nil

end Screen

/-- The screen at the end of a log, told from its events alone. -/
structure Explains (l : PageLog) (s : Screen) : Prop where
  runs : s.runs = mounts l
  mounted : ∀ i showing, s.current i = some showing → MountedAs i showing.vehicleId l
  fetched : ∀ i v, s.current i = some ⟨v, .connecting⟩ → Fetched i v l
  connected : ∀ i v, s.current i = some ⟨v, .driving⟩ → Connected i v l
  started : ∀ i, Started i l ↔ ∃ v, s.current i = some ⟨v, .driving⟩

section
variable {l : PageLog} {p : PageLife} {s : Screen} {e : PageEvent}

theorem explains_blank : Explains [] .blank where
  runs := rfl
  mounted i showing h := by simp [Screen.current, Screen.blank] at h
  fetched i v h := by simp [Screen.current, Screen.blank] at h
  connected i v h := by simp [Screen.current, Screen.blank] at h
  started i := by simp [Screen.current, Screen.blank, Started]

theorem mounts_react :
    mounts (controlPage.react p e :: l) = mounts l + if e.opens then 1 else 0 :=
  List.countP_cons

theorem not_started_of_leaves {i : Nat} (h : e.leaves = true) :
    ¬ Started i (controlPage.react p e :: l) := by
  rintro (⟨⟨clock, he⟩, -⟩ | ⟨hstay, -⟩)
  · have he : e = _ := he
    rw [he] at h
    exact absurd h nofun
  · exact absurd (h.symm.trans hstay) nofun

theorem Explains.leave (h : Explains l s) (hleaves : e.leaves = true) (hopens : e.opens = false) :
    Explains (controlPage.react p e :: l) ⟨s.runs, none⟩ where
  runs := by rw [mounts_react, hopens, h.runs]; rfl
  mounted i showing hc := by simp [Screen.current] at hc
  fetched i v hc := by simp [Screen.current] at hc
  connected i v hc := by simp [Screen.current] at hc
  started i := iff_of_false (not_started_of_leaves hleaves) (by simp [Screen.current])

theorem Explains.open (h : Explains l s) {v : String} (hv : v ≠ "") :
    Explains (controlPage.react p (.mount v) :: l) ⟨s.runs + 1, some ⟨v, .fetching⟩⟩ where
  runs := by rw [mounts_react, h.runs]; simp [PageEvent.opens, hv]
  mounted i showing hc := by
    obtain ⟨hi, hs⟩ := current_eq_some.mp hc
    obtain rfl := Option.some.inj hs
    exact .inl ⟨rfl, hv, by rw [← h.runs]; simp only at hi; omega⟩
  fetched i w hc := absurd (congrArg Showing.phase (Option.some.inj (current_eq_some.mp hc).2)) nofun
  connected i w hc :=
    absurd (congrArg Showing.phase (Option.some.inj (current_eq_some.mp hc).2)) nofun
  started i := by
    refine iff_of_false (not_started_of_leaves rfl) ?_
    rintro ⟨w, hc⟩
    exact absurd (congrArg Showing.phase (Option.some.inj (current_eq_some.mp hc).2)) nofun

theorem Explains.stay (h : Explains l s) (href : Refines p s) (hstay : e.leaves = false) :
    Explains (controlPage.react p e :: l) (s.step e).1 := by
  have hruns : (s.step e).1.runs = s.runs := by
    cases e with
    | mount _ | unmount => exact absurd hstay.symm Bool.false_ne_true
    | interval _ _ | press _ _ | gamepad _ _ | render => rfl
    | tokenSettled i result =>
      cases result <;>
      · simp only [Screen.step, Screen.move]
        split
        · split <;> rfl
        · rfl
    | connectSettled i result clock =>
      cases result with
      | ok =>
        simp only [Screen.step]
        split <;> rfl
      | error err =>
        simp only [Screen.step, Screen.move]
        split
        · split <;> rfl
        · rfl
  have hopens : e.opens = false := by
    cases e with
    | mount _ => exact absurd hstay.symm Bool.false_ne_true
    | _ => rfl
  refine ⟨?_, ?_, ?_, ?_, ?_⟩
  · rw [hruns, mounts_react, hopens, h.runs]
    rfl
  · intro i showing hc
    refine .inr ⟨hstay, ?_⟩
    rcases Screen.step_current hstay hc with hc | ⟨-, hc, -⟩ | ⟨-, hc, -⟩ | ⟨-, phase, hc⟩
    · exact h.mounted i showing hc
    · exact h.mounted i ⟨showing.vehicleId, .fetching⟩ hc
    · exact h.mounted i ⟨showing.vehicleId, .connecting⟩ hc
    · exact h.mounted i ⟨showing.vehicleId, phase⟩ hc
  · intro i v hc
    rcases Screen.step_current hstay hc with hc | ⟨he, hc, -⟩ | ⟨-, -, hp⟩ | ⟨hp, -⟩
    · exact .inr ⟨hstay, h.fetched i v hc⟩
    · exact .inl ⟨he, h.mounted i ⟨v, .fetching⟩ hc⟩
    · cases hp
    · cases hp
  · intro i v hc
    rcases Screen.step_current hstay hc with hc | ⟨-, -, hp⟩ | ⟨he, hc, -⟩ | ⟨hp, -⟩
    · exact .inr ⟨hstay, h.connected i v hc⟩
    · cases hp
    · exact .inl ⟨he, h.fetched i v hc⟩
    · cases hp
  · intro i
    constructor
    · rintro (⟨⟨clock, he⟩, hout⟩ | ⟨-, hstarted⟩)
      · have hbeats : heartbeats (controlPage.react p e).output = (s.step e).2 := (href.step e).2
        rw [hbeats] at hout
        obtain ⟨v, hv⟩ := List.exists_mem_of_ne_nil _ hout
        obtain ⟨-, -, j, hc, ⟨now, hj⟩ | ⟨clock', hj⟩⟩ := Screen.step_beats hv
        · cases hj.symm.trans he
        · cases hj.symm.trans he
          exact ⟨v, hc⟩
      · obtain ⟨v, hc⟩ := (h.started i).mp hstarted
        exact ⟨v, Screen.step_driving hstay hc⟩
    · rintro ⟨v, hc⟩
      rcases Screen.step_current hstay hc with hc | ⟨-, -, hp⟩ | ⟨⟨clock, he⟩, hc, -⟩ | ⟨hp, -⟩
      · exact .inr ⟨hstay, (h.started i).mpr ⟨v, hc⟩⟩
      · cases hp
      · refine .inl ⟨⟨clock, he⟩, ?_⟩
        have hbeats : heartbeats (controlPage.react p e).output = (s.step e).2 := (href.step e).2
        rw [hbeats, he]
        simp [Screen.step, hc]
      · cases hp

theorem Explains.step (h : Explains l s) (href : Refines p s) :
    Explains (controlPage.react p e :: l) (s.step e).1 := by
  cases hleaves : e.leaves with
  | false => exact h.stay href hleaves
  | true =>
    cases e with
    | unmount => exact h.leave rfl rfl
    | mount v =>
      by_cases hv : v = ""
      · simp only [Screen.step, hv, if_true]
        exact h.leave rfl rfl
      · simp only [Screen.step, hv, if_false]
        exact h.open hv
    | _ => exact absurd hleaves Bool.false_ne_true

end

/-- The page has a screen that its events explain. -/
def Explained (l : PageLog) : Prop :=
  ∃ s, Refines (controlPage.state l) s ∧ Explains l s

section
variable {past : PageLog} (h : Explained past) (e : PageEvent)
include h

theorem Explained.step : Explained (controlPage.react (controlPage.state past) e :: past) := by
  obtain ⟨s, href, hexplains⟩ := h
  exact ⟨_, (href.step e).1, hexplains.step href⟩

theorem Explained.connected {v : String}
    (hv : v ∈ heartbeats (controlPage.react (controlPage.state past) e).output) :
    ∃ i, Connected i v (controlPage.react (controlPage.state past) e :: past) := by
  obtain ⟨s, href, hexplains⟩ := h
  rw [System.react_output, (href.step e).2] at hv
  obtain ⟨-, -, i, hc, -⟩ := Screen.step_beats hv
  exact ⟨i, (hexplains.step href).connected i v hc⟩

theorem Explained.length_le :
    (heartbeats (controlPage.react (controlPage.state past) e).output).length ≤ 1 := by
  obtain ⟨s, href, -⟩ := h
  rw [System.react_output, (href.step e).2]
  cases hout : (s.step e).2 with
  | nil => simp
  | cons v rest =>
    rw [← hout, (Screen.step_beats (by rw [hout]; exact .head _)).1]
    exact le_refl 1

theorem Explained.interval (i : Nat) (now : Instant) :
    heartbeats (controlPage.react (controlPage.state past) (.interval i now)).output ≠ [] ↔
      Started i past := by
  obtain ⟨s, href, hexplains⟩ := h
  rw [System.react_output, (href.step _).2, hexplains.started]
  simp only [Screen.step, Screen.beatsFor]
  split
  next v hc => exact iff_of_true (List.cons_ne_nil _ _) ⟨v, hc⟩
  next hnot => exact iff_of_false (fun hnil => hnil rfl) (not_exists.mpr hnot)

end

theorem explained_nil : Explained [] := ⟨.blank, refines_new, explains_blank⟩

theorem heartbeats_connected (es : List PageEvent) :
    Always (fun x past => ∀ v ∈ heartbeats x.output, ∃ i, Connected i v (x :: past))
      (controlPage.log es) := by
  have hfree : Always (fun _ _ => True) (controlPage.log es) :=
    System.always_react (fun _ _ => trivial) es
  refine System.always_of_invariant Explained explained_nil ?_ es hfree
  intro past e h _
  exact ⟨h.step e, fun v hv => h.connected e hv⟩

/-- Heartbeats are for the vehicle of a page that is shown and has joined its
room: a step sends at most one, the interval of run `i` sends one exactly when
run `i` has started and the page has not been left since, and no page that was
left before its token or its room came starts any. -/
theorem heartbeat_iff_shown (es : List PageEvent) :
    Always (fun x past =>
      (heartbeats x.output).length ≤ 1 ∧
        (∀ v ∈ heartbeats x.output, ∃ i, Connected i v (x :: past)) ∧
        ∀ i now, x.event = .interval i now → (heartbeats x.output ≠ [] ↔ Started i past))
      (controlPage.log es) := by
  have hfree : Always (fun _ _ => True) (controlPage.log es) :=
    System.always_react (fun _ _ => trivial) es
  refine System.always_of_invariant Explained explained_nil ?_ es hfree
  intro past e h _
  refine ⟨h.step e, h.length_le e, fun v hv => h.connected e hv, ?_⟩
  rintro i now rfl
  exact h.interval i now

end Rvep.Cockpit
