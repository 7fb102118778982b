import Rvep.Publisher.Sidecar

/-!
# A stop gets through

What first tells the publisher to stop, the agent's message or the end of the
socket, waits in a channel of one place until the main goroutine comes to its
next `select`. No other send or close of that channel is ever reached, so none
panics, and the main goroutine waits for nothing any more.
-/

namespace Rvep.Publisher.Go.Sidecar

open Reactive

-- ---------------------------------------------------------------------------
-- What a run is asked
-- ---------------------------------------------------------------------------

/-- The reader finds a stop message, or the end of the socket. -/
def stops? : Event → Option (Option StopMsg)
  | .line line =>
    match decodeLine line with
    | some (.stop msg) => some (some msg)
    | _ => none
  | .eof => some none
  | _ => none

def firstStop (l : SidecarLog) : Option (Option StopMsg) :=
  (collected (fun x => (stops? x.event).toList) l).head?

def Event.isMain : Event → Bool
  | .main _ _ => true
  | _ => false

/-- The turns of the main goroutine after the first stop. -/
def turnsSince : SidecarLog → Nat
  | [] => 0
  | x :: past => if (firstStop past).isSome then turnsSince past + x.event.isMain.toNat else 0

/-- The turns that are left once nothing has to be waited for. -/
def Phase.left : Phase → Nat
  | .hello => 11
  | .awaitStart => 10
  | .newPipeline _ => 9
  | .startPipeline _ => 8
  | .connect _ => 7
  | .eventLoop => 6
  | .stopPipeline => 5
  | .destroyPipeline => 4
  | .disconnect => 3
  | .closeConn => 2
  | .returning => 1
  | .exited _ => 0

def Effect.gst? : Effect → Option GstCall
  | .gst call => some call
  | _ => none

def gstCalls (l : SidecarLog) : List GstCall := collected (fun x => x.output.filterMap Effect.gst?) l

/-- The life of a pipeline. -/
def lifeOf (pipelineStr : String) : List GstCall := [.create pipelineStr, .start, .stop, .destroy]

theorem firstStop_cons (x : SidecarEntry) (past : SidecarLog) :
    firstStop (x :: past) = (firstStop past).or (stops? x.event) := by
  rw [firstStop, collected_cons, List.head?_append, Option.head?_toList]
  rfl

theorem turnsSince_unstopped {l : SidecarLog} (h : firstStop l = none) : turnsSince l = 0 := by
  cases l with
  | nil => rfl
  | cons x past =>
    rw [firstStop_cons, Option.or_eq_none_iff] at h
    rw [turnsSince, h.1]
    rfl

theorem turnsSince_cons (x : SidecarEntry) (past : SidecarLog) :
    turnsSince (x :: past) ≤ turnsSince past + x.event.isMain.toNat := by
  rw [turnsSince]
  split
  · exact Nat.le_refl _
  · exact Nat.zero_le _

-- ---------------------------------------------------------------------------
-- The channel
-- ---------------------------------------------------------------------------

/-- Nothing was sent or closed yet, or a receive gets what was first. -/
def StopCh.Holds (c : StopCh) : Option (Option StopMsg) → Prop
  | none => c.once = false
  | some msg => c.once = true ∧ ∃ rest, c.ch.recv? = some (msg, rest)

def StopCh.Guarded (c : StopCh) : Prop := c.once = false → c.ch = .make 1

section
variable {c : StopCh} {f : Chan StopMsg → Except String (Chan StopMsg)} {msg : Option StopMsg}

/-- What the `once` lets through finds the channel as it was made. -/
theorem StopCh.Guarded.do (h : c.Guarded) {ch rest : Chan StopMsg} (hf : f (.make 1) = .ok ch)
    (hrecv : ch.recv? = some (msg, rest)) :
    ∃ c', c.do f = .ok c' ∧ c'.once = true ∧ (c.once = true → c' = c) ∧
      (c.once = false → c'.Holds (some msg)) := by
  cases honce : c.once with
  | true =>
    refine ⟨c, if_pos honce, honce, fun _ => rfl, fun hne => absurd hne.symm Bool.false_ne_true⟩
  | false =>
    refine ⟨⟨ch, true⟩, ?_, rfl, fun hne => absurd hne Bool.false_ne_true, fun _ => ⟨rfl, rest, hrecv⟩⟩
    rw [StopCh.do, honce, if_neg Bool.false_ne_true, h honce, hf]
    rfl

theorem StopCh.Guarded.trySend (h : c.Guarded) (msg : StopMsg) :
    ∃ c', c.do (·.trySend msg) = .ok c' ∧ c'.once = true ∧ (c.once = true → c' = c) ∧
      (c.once = false → c'.Holds (some (some msg))) := h.do rfl rfl

theorem StopCh.Guarded.close (h : c.Guarded) :
    ∃ c', c.do (·.close) = .ok c' ∧ c'.once = true ∧ (c.once = true → c' = c) ∧
      (c.once = false → c'.Holds (some none)) := h.do rfl rfl

/-- The first to come is held, whoever comes after. -/
theorem StopCh.Holds.or {c c' : StopCh} {first : Option (Option StopMsg)} (h : c.Holds first)
    (hkept : c.once = true → c' = c) (hnew : c.once = false → c'.Holds (some msg)) :
    c'.Holds (first.or (some msg)) := by
  cases first with
  | none => exact hnew h
  | some first =>
    rw [hkept h.1]
    exact h

end

-- ---------------------------------------------------------------------------
-- A turn of the main goroutine
-- ---------------------------------------------------------------------------

/-- What no turn of the main goroutine touches. -/
structure Frame (p q : Process) : Prop where
  reading : q.reading = p.reading
  signals : q.sigCh.closed = p.sigCh.closed
  errors : q.publishErrCh.closed = p.publishErrCh.closed

theorem Frame.refl (p : Process) : Frame p p := ⟨rfl, rfl, rfl⟩

theorem Frame.trans {p q r : Process} (h : Frame p q) (h' : Frame q r) : Frame p r :=
  ⟨h'.reading.trans h.reading, h'.signals.trans h.signals, h'.errors.trans h.errors⟩

/-- Neither receives from `stopCh` nor panics. -/
def Effect.isQuiet : Effect → Bool
  | .took _ | .panic _ => false
  | _ => true

/-- What a turn of the main goroutine does about stops. -/
inductive Turns (p : Process) : Outcome → Prop
  | waits : 5 < p.phase.left → p.stopCh.ch.recv? = none → Turns p (p, [])
  | moves (q : Process) (effects : List Effect) : Frame p q → q.stopCh = p.stopCh →
    q.phase.left < p.phase.left → effects.all Effect.isQuiet = true → Turns p (q, effects)
  | takes (q : Process) (msg : Option StopMsg) (ch : Chan StopMsg) : Frame p q →
    p.stopCh.ch.recv? = some (msg, ch) → q.stopCh = ⟨ch, p.stopCh.once⟩ → 5 < p.phase.left →
    q.phase.left ≤ 5 → Turns p (q, [.took msg])
  | closes (q : Process) (effects : List Effect) (c : StopCh) : Frame p q →
    p.stopCh.do (·.close) = .ok c → q.stopCh = c → p.phase.left ≤ 5 → q.phase.left < p.phase.left →
    effects.all Effect.isQuiet = true → Turns p (q, effects)

section
variable {setup : Setup} {p : Process}

theorem mem_of_select {ready : List (Wake × Process)} {pick : Nat} {w : Wake × Process}
    (h : Process.select ready pick = some w) : w ∈ ready := List.mem_of_getElem? h

theorem nil_of_select {ready : List (Wake × Process)} {pick : Nat}
    (h : Process.select ready pick = none) : ready = [] := by
  cases ready with
  | nil => rfl
  | cons w ready =>
    have hlt : pick % (w :: ready).length < (w :: ready).length :=
      Nat.mod_lt pick (Nat.succ_pos ready.length)
    exact absurd ((List.getElem?_eq_getElem hlt).symm.trans h) (Option.some_ne_none _)

/-- What a case that does not receive from `stopCh` leaves. -/
structure Woken (p q : Process) : Prop extends Frame p q where
  stopCh : q.stopCh = p.stopCh
  phase : q.phase = p.phase

/-- A case of a `select` receives from `stopCh`, or has nothing to do with it. -/
def Case (p : Process) (w : Wake) (q : Process) : Prop :=
  (∃ msg ch, w = .stop msg ∧ p.stopCh.ch.recv? = some (msg, ch) ∧
      q = { p with stopCh := { p.stopCh with ch := ch } }) ∨
    (∀ msg, w ≠ .stop msg) ∧ Woken p q

theorem Case.stop {msg : Option StopMsg} {q : Process} (h : Case p (.stop msg) q) :
    ∃ ch, p.stopCh.ch.recv? = some (msg, ch) ∧ q = { p with stopCh := { p.stopCh with ch := ch } } := by
  rcases h with ⟨msg', ch, hmsg, hrecv, hq⟩ | ⟨hother, -⟩
  · cases hmsg
    exact ⟨ch, hrecv, hq⟩
  · exact absurd rfl (hother msg)

theorem Case.woken {w : Wake} {q : Process} (h : Case p w q) (hw : ∀ msg, w ≠ .stop msg) :
    Woken p q := by
  rcases h with ⟨msg, ch, hmsg, -⟩ | ⟨-, hwoken⟩
  · exact absurd hmsg (hw msg)
  · exact hwoken

theorem case_of_wakes {w : Wake} {q : Process} (h : (w, q) ∈ p.wakes) : Case p w q := by
  rw [Process.wakes, List.mem_append, List.mem_append] at h
  rcases h with (h | h) | h
  · obtain ⟨⟨sig, ch⟩, hrecv, hw⟩ := Option.map_eq_some_iff.mp (Option.mem_toList.mp h)
    cases hw
    exact .inr ⟨nofun, ⟨rfl, Chan.recv?_closed hrecv, rfl⟩, rfl, rfl⟩
  · obtain ⟨⟨msg, ch⟩, hrecv, hw⟩ := Option.map_eq_some_iff.mp (Option.mem_toList.mp h)
    cases hw
    exact .inl ⟨msg, ch, rfl, hrecv, rfl⟩
  · split at h
    next =>
      cases List.mem_singleton.mp h
      exact .inr ⟨nofun, .refl p, rfl, rfl⟩
    next => exact absurd h List.not_mem_nil

theorem case_of_startCases {w : Wake} {q : Process} (h : (w, q) ∈ p.startCases) : Case p w q := by
  rcases List.mem_append.mp h with h | h
  · exact case_of_wakes h
  · split at h
    next =>
      cases List.mem_singleton.mp h
      exact .inr ⟨nofun, .refl p, rfl, rfl⟩
    next => exact absurd h List.not_mem_nil

theorem case_of_loopCases {w : Wake} {q : Process} (h : (w, q) ∈ p.loopCases) : Case p w q := by
  rcases List.mem_append.mp h with h | h
  · exact case_of_wakes h
  · obtain ⟨⟨err, ch⟩, hrecv, hw⟩ := Option.map_eq_some_iff.mp (Option.mem_toList.mp h)
    cases hw
    exact .inr ⟨nofun, ⟨rfl, rfl, Chan.recv?_closed hrecv⟩, rfl, rfl⟩

theorem recv?_of_wakes_nil {rest : List (Wake × Process)} (h : p.wakes ++ rest = []) :
    p.stopCh.ch.recv? = none := by
  obtain ⟨h, -⟩ := List.append_eq_nil_iff.mp h
  obtain ⟨h, -⟩ := List.append_eq_nil_iff.mp h
  obtain ⟨-, h⟩ := List.append_eq_nil_iff.mp h
  exact Option.map_eq_none_iff.mp (Option.toList_eq_nil_iff.mp h)

theorem Case.moves {w : Wake} {q : Process} {o : Outcome} (h : Case p w q)
    (hw : ∀ msg, w ≠ .stop msg) (hframe : Frame q o.1) (hstop : o.1.stopCh = q.stopCh)
    (hless : o.1.phase.left < p.phase.left) (hquiet : o.2.all Effect.isQuiet = true) : Turns p o :=
  have hwoken := h.woken hw
  .moves o.1 o.2 (hwoken.toFrame.trans hframe) (hstop.trans hwoken.stopCh) hless hquiet

theorem turns_awaitStart (h : p.phase = .awaitStart) (pick : Nat) : Turns p (p.awaitStart pick) := by
  have hleft : p.phase.left = 10 := by rw [h]; rfl
  unfold Process.awaitStart
  split
  next hselect => exact .waits (by omega) (recv?_of_wakes_nil (nil_of_select hselect))
  next msg q hselect =>
    obtain ⟨ch, hrecv, rfl⟩ := (case_of_startCases (mem_of_select hselect)).stop
    exact .takes _ msg ch ⟨rfl, rfl, rfl⟩ hrecv rfl (by omega) (by simp [Phase.left])
  next q hselect =>
    have hcase := case_of_startCases (mem_of_select hselect)
    split
    next =>
      refine hcase.moves nofun ⟨rfl, rfl, rfl⟩ rfl ?_ rfl
      simp [Process.fatal, Process.exit, Phase.left, h]
    next start _ =>
      exact hcase.moves nofun ⟨rfl, rfl, rfl⟩ rfl (by simp [Phase.left, h]) rfl
  next w q hother _ hselect =>
    refine (case_of_startCases (mem_of_select hselect)).moves hother ⟨rfl, rfl, rfl⟩ rfl ?_ rfl
    simp [Phase.left, h]

theorem turns_eventLoop (h : p.phase = .eventLoop) (pick : Nat) : Turns p (p.eventLoop pick) := by
  have hleft : p.phase.left = 6 := by rw [h]; rfl
  unfold Process.eventLoop
  split
  next hselect => exact .waits (by omega) (recv?_of_wakes_nil (nil_of_select hselect))
  next msg q hselect =>
    obtain ⟨ch, hrecv, rfl⟩ := (case_of_loopCases (mem_of_select hselect)).stop
    exact .takes _ msg ch ⟨rfl, rfl, rfl⟩ hrecv rfl (by omega) (by simp [Phase.left])
  next err q hselect =>
    refine (case_of_loopCases (mem_of_select hselect)).moves nofun ⟨rfl, rfl, rfl⟩ rfl ?_
      rfl
    simp [Phase.left, h]
  next w q hother _ hselect =>
    refine (case_of_loopCases (mem_of_select hselect)).moves hother ⟨rfl, rfl, rfl⟩ rfl ?_ rfl
    simp [Phase.left, h]

theorem setStopCh_ok {c : StopCh} {r : Except String StopCh} (h : r = .ok c) :
    p.setStopCh r = ({ p with stopCh := c }, []) := by
  rw [h]
  rfl

/-- `Close` of a channel that is guarded. -/
theorem close_ok {c : StopCh} (h : p.stopCh.do (·.close) = .ok c) :
    p.Close = ({ p with stopCh := c }, [.closeConn]) := by
  rw [Process.Close, setStopCh_ok h]
  rfl

theorem turns_main (hguarded : p.stopCh.Guarded) (pick : Nat) (err : Option String)
    (hlive : ∀ code, p.phase ≠ .exited code) : Turns p (p.main setup pick err) := by
  have hmoves {o : Outcome} (hframe : Frame p o.1) (hstop : o.1.stopCh = p.stopCh)
      (hless : o.1.phase.left < p.phase.left) (hquiet : o.2.all Effect.isQuiet = true) : Turns p o :=
    .moves o.1 o.2 hframe hstop hless hquiet
  obtain ⟨c, hclose, -⟩ := hguarded.close
  unfold Process.main
  split
  next h =>
    split
    next => exact hmoves ⟨rfl, rfl, rfl⟩ rfl (by simp [Process.fatal, Process.exit, Phase.left, h]) rfl
    next => exact hmoves ⟨rfl, rfl, rfl⟩ rfl (by simp [Phase.left, h]) rfl
  next h => exact turns_awaitStart h pick
  next start h =>
    split
    next => exact hmoves ⟨rfl, rfl, rfl⟩ rfl (by simp [Process.failWith, Process.exit, Phase.left, h]) rfl
    next => exact hmoves ⟨rfl, rfl, rfl⟩ rfl (by simp [Phase.left, h]) rfl
  next start h =>
    split
    next => exact hmoves ⟨rfl, rfl, rfl⟩ rfl (by simp [Process.failWith, Process.exit, Phase.left, h]) rfl
    next => exact hmoves ⟨rfl, rfl, rfl⟩ rfl (by simp [Phase.left, h]) rfl
  next start h =>
    split
    next => exact hmoves ⟨rfl, rfl, rfl⟩ rfl (by simp [Process.failWith, Process.exit, Phase.left, h]) rfl
    next => exact hmoves ⟨rfl, rfl, rfl⟩ rfl (by simp [Phase.left, h]) rfl
  next h => exact turns_eventLoop h pick
  next h => exact hmoves ⟨rfl, rfl, rfl⟩ rfl (by simp [Phase.left, h]) rfl
  next h => exact hmoves ⟨rfl, rfl, rfl⟩ rfl (by simp [Phase.left, h]) rfl
  next h => exact hmoves ⟨rfl, rfl, rfl⟩ rfl (by simp [Phase.left, h]) rfl
  next h =>
    rw [close_ok (p := { p with phase := .returning }) hclose]
    exact .closes _ _ c ⟨rfl, rfl, rfl⟩ hclose rfl (by simp [Phase.left, h]) (by simp [Phase.left, h]) rfl
  next h =>
    rw [close_ok hclose]
    simp only [h, if_true]
    exact .closes _ _ c ⟨rfl, rfl, rfl⟩ hclose rfl (by simp [Phase.left, h])
      (by simp [Phase.left, h]) rfl
  next code h => exact absurd h (hlive code)

end

-- ---------------------------------------------------------------------------
-- Runs
-- ---------------------------------------------------------------------------

/-- The process after a run, and what was asked of it. -/
structure Steady (l : SidecarLog) (p : Process) : Prop where
  guarded : p.stopCh.Guarded
  heard : 5 < p.phase.left → p.stopCh.Holds (firstStop l)
  reads : p.reading = false → p.stopCh.once = true
  signals : p.sigCh.closed = false
  errors : p.publishErrCh.closed = false
  left : (firstStop l).isSome → p.phase.left = 0 ∨ p.phase.left + turnsSince l ≤ 11

theorem steady_start : Steady [] {} where
  guarded _ := rfl
  heard _ := rfl
  reads h := absurd h.symm Bool.false_ne_true
  signals := rfl
  errors := rfl
  left h := absurd h Bool.false_ne_true

section
variable {setup : Setup} {past : SidecarLog} {x : SidecarEntry}

theorem left_le (phase : Phase) : phase.left ≤ 11 := by
  cases phase <;> simp [Phase.left]

variable (past) in
theorem turnsSince_of_idle (h : x.event.isMain = false) :
    turnsSince (x :: past) ≤ turnsSince past := by
  have hle := turnsSince_cons x past
  rwa [h] at hle

/-- A turn of another goroutine that neither reads a stop nor ends the process. -/
theorem Steady.idle (h : Steady past x.before) (hmain : x.event.isMain = false)
    (hstops : stops? x.event = none) (hframe : Frame x.before x.after)
    (hstop : x.after.stopCh = x.before.stopCh) (hphase : x.after.phase = x.before.phase) :
    Steady (x :: past) x.after := by
  have hfirst : firstStop (x :: past) = firstStop past := by
    rw [firstStop_cons, hstops, Option.or_none]
  refine ⟨?_, ?_, ?_, ?_, ?_, ?_⟩
  · exact hstop ▸ h.guarded
  · rw [hstop, hphase, hfirst]
    exact h.heard
  · rw [hframe.reading, hstop]
    exact h.reads
  · exact hframe.signals.trans h.signals
  · exact hframe.errors.trans h.errors
  · rw [hphase, hfirst]
    intro hsome
    have hle := turnsSince_of_idle past hmain
    rcases h.left hsome with hzero | hleft
    · exact .inl hzero
    · exact .inr (by omega)

/-- The reader finds a stop, or one that nobody reads any more. -/
theorem Steady.stopped (h : Steady past x.before) (hmain : x.event.isMain = false)
    {msg : Option StopMsg} (hstops : stops? x.event = some msg)
    (hsignals : x.after.sigCh.closed = x.before.sigCh.closed)
    (herrors : x.after.publishErrCh.closed = x.before.publishErrCh.closed)
    (hphase : x.after.phase = x.before.phase) (honce : x.after.stopCh.once = true)
    (hkept : x.before.stopCh.once = true → x.after.stopCh = x.before.stopCh)
    (hnew : x.before.stopCh.once = false → x.after.stopCh.Holds (some msg)) :
    Steady (x :: past) x.after := by
  refine ⟨?_, ?_, fun _ => honce, hsignals.trans h.signals, herrors.trans h.errors, fun _ => ?_⟩
  · exact fun hfresh => absurd (hfresh.symm.trans honce) Bool.false_ne_true
  · rw [hphase, firstStop_cons, hstops]
    exact fun hlistens => (h.heard hlistens).or hkept hnew
  · have hle := turnsSince_of_idle past hmain
    rw [hphase]
    cases hfirst : firstStop past with
    | none =>
      have hzero := turnsSince_unstopped hfirst
      have hleft := left_le x.before.phase
      exact .inr (by omega)
    | some first =>
      rcases h.left (by rw [hfirst]; rfl) with hzero | hleft
      · exact .inl hzero
      · exact .inr (by omega)

theorem Steady.less (h : Steady past x.before) (hstops : stops? x.event = none)
    (hless : x.after.phase.left < x.before.phase.left) (hsome : (firstStop (x :: past)).isSome) :
    x.after.phase.left = 0 ∨ x.after.phase.left + turnsSince (x :: past) ≤ 11 := by
  rw [firstStop_cons, hstops, Option.or_none] at hsome
  have hle := turnsSince_cons x past
  have hone := Bool.toNat_le x.event.isMain
  rcases h.left hsome with hzero | hleft
  · omega
  · exact .inr (by omega)

theorem Steady.turn (h : Steady past x.before) {o : Outcome} (hturns : Turns x.before o)
    (hstops : stops? x.event = none) (hafter : x.after = o.1) : Steady (x :: past) x.after := by
  have hfirst : firstStop (x :: past) = firstStop past := by
    rw [firstStop_cons, hstops, Option.or_none]
  cases hturns with
  | waits hlistens hrecv =>
    have hunasked : firstStop past = none := by
      cases hheard : firstStop past with
      | none => rfl
      | some msg =>
        have hholds := h.heard hlistens
        rw [hheard] at hholds
        obtain ⟨-, rest, hsome⟩ := hholds
        exact absurd (hrecv.symm.trans hsome) (Option.some_ne_none _).symm
    rw [hafter]
    refine ⟨h.guarded, hfirst ▸ h.heard, h.reads, h.signals, h.errors, fun hsome => ?_⟩
    rw [hfirst, hunasked] at hsome
    exact absurd hsome Bool.false_ne_true
  | moves q effects hframe hstop hless =>
    have hleft := h.less hstops (hafter ▸ hless)
    rw [hafter] at hleft ⊢
    refine ⟨hstop ▸ h.guarded, ?_, ?_, hframe.signals.trans h.signals, hframe.errors.trans h.errors, hleft⟩
    · rw [hstop, hfirst]
      exact fun hlistens => h.heard (hlistens.trans hless)
    · rw [hframe.reading, hstop]
      exact h.reads
  | takes q msg ch hframe hrecv hstop hlistens hpast =>
    have honce : x.before.stopCh.once = true := by
      cases honce : x.before.stopCh.once with
      | true => rfl
      | false =>
        rw [h.guarded honce] at hrecv
        cases hrecv
    have hleft := h.less hstops (hafter ▸ Nat.lt_of_le_of_lt hpast hlistens)
    rw [hafter] at hleft ⊢
    refine ⟨?_, fun hmore => absurd hmore (Nat.not_lt.mpr hpast), ?_, hframe.signals.trans h.signals,
      hframe.errors.trans h.errors, hleft⟩
    · rw [hstop]
      exact fun hfresh => absurd (hfresh.symm.trans honce) Bool.false_ne_true
    · rw [hstop]
      exact fun _ => honce
  | closes q effects c hframe hclose hstop hpast hless =>
    obtain ⟨c', hclose', honce, -⟩ := h.guarded.close
    obtain rfl := Except.ok.inj (hclose.symm.trans hclose')
    have hleft := h.less hstops (hafter ▸ hless)
    rw [hafter] at hleft ⊢
    refine ⟨?_, fun hmore => ?_, ?_, hframe.signals.trans h.signals, hframe.errors.trans h.errors, hleft⟩
    · rw [hstop]
      exact fun hfresh => absurd (hfresh.symm.trans honce) Bool.false_ne_true
    · have hmore : 5 < q.phase.left := hmore
      omega
    · rw [hstop]
      exact fun _ => honce

end

theorem woken_waitForStart (p : Process) (tick : Bool) : Woken p (p.waitForStart tick) := by
  unfold Process.waitForStart
  split
  next => exact ⟨.refl p, rfl, rfl⟩
  next => exact ⟨.refl p, rfl, rfl⟩
  next =>
    split
    next => split <;> exact ⟨⟨rfl, rfl, rfl⟩, rfl, rfl⟩
    next => split <;> exact ⟨⟨rfl, rfl, rfl⟩, rfl, rfl⟩
  next => exact ⟨⟨rfl, rfl, rfl⟩, rfl, rfl⟩

section
variable {setup : Setup} {p : Process} {past : SidecarLog}

variable (setup) in
/-- The goroutines besides the reader and the main one. -/
theorem woken_run (hsignals : p.sigCh.closed = false) (herrors : p.publishErrCh.closed = false)
    {e : Event} (hmain : e.isMain = false) (hline : ∀ line, e ≠ .line line) (heof : e ≠ .eof) :
    Woken p (p.run setup e).1 ∧ (p.run setup e).2.all Effect.isQuiet = true := by
  cases e with
  | line line => exact absurd rfl (hline line)
  | eof => exact absurd rfl heof
  | waiter tick => exact ⟨woken_waitForStart p tick, rfl⟩
  | startTimeout => exact ⟨⟨⟨rfl, rfl, rfl⟩, rfl, rfl⟩, rfl⟩
  | signal =>
    obtain ⟨ch, hsent, hopen⟩ := Chan.trySend_open hsignals ()
    simp only [Process.run, hsent]
    exact ⟨⟨⟨rfl, hopen.trans hsignals.symm, rfl⟩, rfl, rfl⟩, rfl⟩
  | heartbeat tick =>
    simp only [Process.run, Process.heartbeatLoop]
    split
    next => split <;> exact ⟨⟨⟨rfl, rfl, rfl⟩, rfl, rfl⟩, rfl⟩
    next => exact ⟨⟨⟨rfl, rfl, rfl⟩, rfl, rfl⟩, rfl⟩
  | publishLoop err =>
    simp only [Process.run]
    split
    next =>
      obtain ⟨ch, hsent, hopen⟩ := Chan.trySend_open herrors err
      simp only [hsent]
      exact ⟨⟨⟨rfl, rfl, hopen.trans herrors.symm⟩, rfl, rfl⟩, rfl⟩
    next => exact ⟨⟨⟨rfl, rfl, rfl⟩, rfl, rfl⟩, rfl⟩
  | main pick err => cases hmain

theorem step_live (hlive : ∀ code, p.phase ≠ .exited code) (e : Event) :
    p.step setup e = p.run setup e := by
  unfold Process.step
  split
  next code h => exact absurd h (hlive code)
  next => rfl

theorem step_exited {code : Nat} (h : p.phase = .exited code) (e : Event) : p.step setup e = (p, []) := by
  unfold Process.step
  rw [h]

/-- What a turn of the reader does about stops. -/
inductive Reads (p : Process) : Option (Option StopMsg) → Outcome → Prop
  | passes (q : Process) : Woken p q → Reads p none (q, [])
  | stops (q : Process) (msg : Option StopMsg) : q.phase = p.phase → q.sigCh.closed = p.sigCh.closed →
    q.publishErrCh.closed = p.publishErrCh.closed → q.stopCh.once = true →
    (p.stopCh.once = true → q.stopCh = p.stopCh) →
    (p.stopCh.once = false → q.stopCh.Holds (some msg)) → Reads p (some msg) (q, [])

/-- A reader that is finished has signalled it. -/
theorem reads_finished (honce : p.stopCh.once = true) (msg? : Option (Option StopMsg)) :
    Reads p msg? (p, []) := by
  cases msg? with
  | none => exact .passes p ⟨.refl p, rfl, rfl⟩
  | some msg =>
    refine .stops p msg rfl rfl rfl honce (fun _ => rfl) fun hfresh => ?_
    exact absurd (hfresh.symm.trans honce) Bool.false_ne_true

theorem reads_line (hguarded : p.stopCh.Guarded) (hreads : p.reading = false → p.stopCh.once = true)
    (line : List Char) : Reads p (stops? (.line line)) (p.run setup (.line line)) := by
  simp only [Process.run]
  split
  next =>
    simp only [Process.readLine, stops?]
    cases decodeLine line with
    | none => exact .passes p ⟨.refl p, rfl, rfl⟩
    | some msg =>
      cases msg with
      | start msg => exact .passes _ ⟨⟨rfl, rfl, rfl⟩, rfl, rfl⟩
      | stop msg =>
        obtain ⟨c, hsent, honce, hkept, hnew⟩ := hguarded.trySend msg
        simp only [setStopCh_ok hsent]
        exact .stops _ _ rfl rfl rfl honce hkept hnew
  next h => exact reads_finished (hreads (Bool.eq_false_of_not_eq_true h)) _

theorem reads_eof (hguarded : p.stopCh.Guarded) (hreads : p.reading = false → p.stopCh.once = true) :
    Reads p (stops? .eof) (p.run setup .eof) := by
  simp only [Process.run]
  split
  next =>
    obtain ⟨c, hclosed, honce, hkept, hnew⟩ := hguarded.close
    rw [Process.readEnd, setStopCh_ok hclosed]
    exact .stops _ _ rfl rfl rfl honce hkept hnew
  next h => exact reads_finished (hreads (Bool.eq_false_of_not_eq_true h)) _

/-- Nothing panics, and what is received is what came first. -/
def Heeds (x : SidecarEntry) (past : SidecarLog) : Prop :=
  (∀ text, .panic text ∉ x.output) ∧ ∀ msg, .took msg ∈ x.output → firstStop past = some msg

theorem heeds_of_quiet {x : SidecarEntry} (h : x.output.all Effect.isQuiet = true) : Heeds x past := by
  have hquiet := List.all_eq_true.mp h
  exact ⟨fun text hy => absurd (hquiet _ hy) Bool.false_ne_true,
    fun msg hy => absurd (hquiet _ hy) Bool.false_ne_true⟩

theorem Steady.read (h : Steady past p) {x : SidecarEntry} (hbefore : x.before = p)
    (hmain : x.event.isMain = false) {o : Outcome} (hreads : Reads p (stops? x.event) o)
    (hafter : x.after = o.1) (houtput : x.output = o.2) : Steady (x :: past) x.after ∧ Heeds x past := by
  subst hbefore
  generalize hstops : stops? x.event = msg? at hreads
  cases hreads with
  | passes q hwoken =>
    refine ⟨?_, heeds_of_quiet (houtput ▸ rfl)⟩
    exact h.idle hmain hstops (hafter ▸ hwoken.toFrame) (hafter ▸ hwoken.stopCh) (hafter ▸ hwoken.phase)
  | stops q msg hphase hsignals herrors honce hkept hnew =>
    refine ⟨?_, heeds_of_quiet (houtput ▸ rfl)⟩
    exact h.stopped hmain hstops (hafter ▸ hsignals) (hafter ▸ herrors) (hafter ▸ hphase) (hafter ▸ honce)
      (hafter ▸ hkept) (hafter ▸ hnew)

theorem Steady.exited (h : Steady past p) {code : Nat} (hexited : p.phase = .exited code) (e : Event) :
    Steady ((sidecar setup).react p e :: past) p where
  guarded := h.guarded
  heard hmore := by
    rw [hexited] at hmore
    exact absurd hmore (Nat.not_lt_zero 5)
  reads := h.reads
  signals := h.signals
  errors := h.errors
  left _ := .inl (by rw [hexited]; rfl)

theorem Steady.heeds_turn (h : Steady past p) {x : SidecarEntry} (hbefore : x.before = p) {o : Outcome}
    (hturns : Turns p o) (houtput : x.output = o.2) : Heeds x past := by
  subst hbefore
  cases hturns with
  | waits => exact heeds_of_quiet (houtput ▸ rfl)
  | moves q effects _ _ _ hquiet => exact heeds_of_quiet (houtput ▸ hquiet)
  | closes q effects c _ _ _ _ _ hquiet => exact heeds_of_quiet (houtput ▸ hquiet)
  | takes q msg ch _ hrecv _ hlistens =>
    refine ⟨fun text hy => ?_, fun msg' hy => ?_⟩
    · rw [houtput] at hy
      cases List.mem_singleton.mp hy
    · rw [houtput] at hy
      cases List.mem_singleton.mp hy
      have hholds := h.heard hlistens
      cases hfirst : firstStop past with
      | none =>
        rw [hfirst] at hholds
        rw [h.guarded hholds] at hrecv
        cases hrecv
      | some first =>
        rw [hfirst] at hholds
        obtain ⟨-, rest, hrecv'⟩ := hholds
        exact congrArg (Option.map Prod.fst) (hrecv'.symm.trans hrecv)

variable (setup) in
/-- One turn of any goroutine. -/
theorem Steady.step (h : Steady past p) (e : Event) :
    let x := (sidecar setup).react p e
    Steady (x :: past) x.after ∧ Heeds x past := by
  intro x
  by_cases hexited : ∃ code, p.phase = .exited code
  · obtain ⟨code, hexited⟩ := hexited
    have hstep : p.step setup e = (p, []) := step_exited hexited e
    have hafter : x.after = p := congrArg Prod.fst hstep
    have houtput : x.output = [] := congrArg Prod.snd hstep
    rw [hafter]
    exact ⟨h.exited hexited e, heeds_of_quiet (houtput ▸ rfl)⟩
  · have hlive : ∀ code, p.phase ≠ .exited code := not_exists.mp hexited
    have hstep : p.step setup e = p.run setup e := step_live hlive e
    have hafter : x.after = (p.run setup e).1 := congrArg Prod.fst hstep
    have houtput : x.output = (p.run setup e).2 := congrArg Prod.snd hstep
    have hother (hmain : e.isMain = false) (hline : ∀ line, e ≠ .line line) (heof : e ≠ .eof)
        (hstops : stops? e = none) : Steady (x :: past) x.after ∧ Heeds x past := by
      obtain ⟨hwoken, hquiet⟩ := woken_run setup h.signals h.errors hmain hline heof
      rw [← hafter] at hwoken
      exact ⟨h.idle (x := x) hmain hstops hwoken.toFrame hwoken.stopCh hwoken.phase,
        heeds_of_quiet (houtput ▸ hquiet)⟩
    cases e with
    | line line => exact h.read rfl rfl (reads_line h.guarded h.reads line) hafter houtput
    | eof => exact h.read rfl rfl (reads_eof h.guarded h.reads) hafter houtput
    | main pick err =>
      have hturns : Turns p (p.run setup (.main pick err)) := turns_main h.guarded pick err hlive
      exact ⟨h.turn (x := x) hturns rfl hafter, h.heeds_turn rfl hturns houtput⟩
    | waiter | startTimeout | signal | heartbeat | publishLoop =>
      exact hother rfl (fun _ h => by cases h) (fun h => by cases h) rfl

end

-- ---------------------------------------------------------------------------
-- The pipeline
-- ---------------------------------------------------------------------------

/-- How much of a pipeline's life may be over. -/
def Phase.spent : Phase → List Nat
  | .hello | .awaitStart | .newPipeline _ => [0]
  | .startPipeline _ => [1]
  | .connect _ | .eventLoop | .stopPipeline => [2]
  | .destroyPipeline => [3]
  | .disconnect | .closeConn => [4]
  | .returning | .exited 0 => [0, 4]
  | .exited (_ + 1) => [0, 1, 2, 3, 4]

def Phase.Made (phase : Phase) (calls : List GstCall) : Prop :=
  ∃ n ∈ phase.spent, ∃ pipelineStr, calls = (lifeOf pipelineStr).take n

section
variable {setup : Setup} {p : Process} {calls : List GstCall}

theorem Phase.Made.exit {phase : Phase} (h : phase.Made calls) (code : Nat) :
    (Phase.exited (code + 1)).Made calls := by
  obtain ⟨n, hn, hcalls⟩ := h
  have hall : ∀ n ∈ phase.spent, n ∈ [0, 1, 2, 3, 4] := by
    cases phase with
    | exited code => cases code <;> simp [Phase.spent]
    | _ => simp [Phase.spent]
  exact ⟨n, hall n hn, hcalls⟩

/-- What a turn adds to the calls before it. -/
abbrev Outcome.Makes (o : Outcome) (calls : List GstCall) : Prop :=
  o.1.phase.Made (calls ++ o.2.filterMap Effect.gst?)

theorem makes_of_none {o : Outcome} (h : o.1.phase.Made calls) (hnone : o.2.filterMap Effect.gst? = []) :
    o.Makes calls := by
  rw [Outcome.Makes, hnone, List.append_nil]
  exact h

theorem makes_setStopCh (h : p.phase.Made calls) (r : Except String StopCh) :
    (p.setStopCh r).Makes calls := by
  cases r with
  | ok c => exact makes_of_none h rfl
  | error text => exact makes_of_none (h.exit 1) rfl

theorem makes_close (h : p.phase.Made calls) : p.Close.Makes calls := by
  unfold Process.Close
  cases p.stopCh.do (·.close) with
  | ok c => exact makes_of_none h rfl
  | error text => exact makes_of_none (h.exit 1) rfl

theorem makes_other (h : p.phase.Made calls) {e : Event} (hmain : e.isMain = false) :
    (p.run setup e).Makes calls := by
  have hsame : Outcome.Makes (p, []) calls := makes_of_none h rfl
  cases e with
  | main => cases hmain
  | line line =>
    simp only [Process.run, Process.readLine]
    split
    · split
      · exact makes_of_none h rfl
      · exact makes_setStopCh h _
      · exact hsame
    · exact hsame
  | eof =>
    simp only [Process.run]
    split
    · exact makes_setStopCh (p := { p with reading := false }) h _
    · exact hsame
  | waiter tick =>
    refine makes_of_none ?_ rfl
    rw [show (p.run setup (.waiter tick)).1.phase = p.phase from (woken_waitForStart p tick).phase]
    exact h
  | startTimeout => exact makes_of_none h rfl
  | signal =>
    simp only [Process.run]
    split
    · exact makes_of_none h rfl
    · exact makes_of_none (h.exit 1) rfl
  | heartbeat tick =>
    simp only [Process.run, Process.heartbeatLoop]
    split
    · split <;> exact makes_of_none h rfl
    · exact hsame
  | publishLoop err =>
    simp only [Process.run]
    split
    · split
      · exact makes_of_none h rfl
      · exact makes_of_none (h.exit 1) rfl
    · exact hsame

/-- The next call of a pipeline's life. -/
theorem Phase.Made.next {phase phase' : Phase} (h : phase.Made calls) {n : Nat} (hspent : phase.spent = [n])
    (hspent' : phase'.spent = [n + 1]) {call : GstCall}
    (hcall : ∀ pipelineStr, 0 < n → (lifeOf pipelineStr)[n]? = some call)
    (hcreate : n = 0 → ∃ pipelineStr, call = .create pipelineStr) : phase'.Made (calls ++ [call]) := by
  obtain ⟨m, hm, pipelineStr, rfl⟩ := h
  rw [hspent] at hm
  obtain rfl := List.mem_singleton.mp hm
  refine ⟨m + 1, by rw [hspent']; exact List.mem_singleton_self _, ?_⟩
  rcases Nat.eq_zero_or_pos m with rfl | hpos
  · obtain ⟨created, rfl⟩ := hcreate rfl
    exact ⟨created, rfl⟩
  · exact ⟨pipelineStr, by rw [List.take_add_one, hcall pipelineStr hpos]; rfl⟩

/-- Nothing is called of a pipeline. -/
theorem Phase.Made.stay {phase phase' : Phase} (h : phase.Made calls) {n : Nat}
    (hspent : phase.spent = [n]) (hspent' : n ∈ phase'.spent) : phase'.Made calls := by
  obtain ⟨m, hm, hcalls⟩ := h
  rw [hspent] at hm
  obtain rfl := List.mem_singleton.mp hm
  exact ⟨m, hspent', hcalls⟩

theorem makes_awaitStart (h : p.phase.Made calls) (hphase : p.phase = .awaitStart) (pick : Nat) :
    (p.awaitStart pick).Makes calls := by
  have hspent : p.phase.spent = [0] := by rw [hphase]; rfl
  unfold Process.awaitStart
  split
  next => exact makes_of_none h rfl
  next => exact makes_of_none (h.stay hspent (by simp [Phase.spent])) rfl
  next =>
    split
    next => exact makes_of_none (h.exit 0) rfl
    next => exact makes_of_none (h.stay hspent (by simp [Phase.spent])) rfl
  next => exact makes_of_none (h.stay hspent (by simp [Phase.spent])) rfl

theorem makes_eventLoop (h : p.phase.Made calls) (hphase : p.phase = .eventLoop) (pick : Nat) :
    (p.eventLoop pick).Makes calls := by
  have hspent : p.phase.spent = [2] := by rw [hphase]; rfl
  unfold Process.eventLoop
  split
  next => exact makes_of_none h rfl
  next => exact makes_of_none (h.stay hspent (by simp [Phase.spent])) rfl
  next => exact makes_of_none (h.stay hspent (by simp [Phase.spent])) rfl
  next => exact makes_of_none (h.stay hspent (by simp [Phase.spent])) rfl

theorem makes_main (h : p.phase.Made calls) (pick : Nat) (err : Option String) :
    (p.main setup pick err).Makes calls := by
  have hspent {phase : Phase} (hphase : p.phase = phase) : p.phase.spent = phase.spent := by rw [hphase]
  unfold Process.main
  split
  next hphase =>
    split
    next => exact makes_of_none (h.exit 0) rfl
    next => exact makes_of_none (h.stay (hspent hphase) (by simp [Phase.spent])) rfl
  next hphase => exact makes_awaitStart h hphase pick
  next start hphase =>
    split
    next => exact makes_of_none (h.exit 0) rfl
    next => exact h.next (hspent hphase) rfl (fun _ hpos => absurd hpos (Nat.lt_irrefl 0)) fun _ => ⟨_, rfl⟩
  next start hphase =>
    split
    next => exact makes_of_none (h.exit 0) rfl
    next => exact h.next (hspent hphase) rfl (fun _ _ => rfl) (fun hzero => absurd hzero Nat.one_ne_zero)
  next start hphase =>
    split
    next =>
      -- the pipeline is stopped and destroyed on the way out
      obtain ⟨m, hm, pipelineStr, rfl⟩ := h
      rw [hspent hphase] at hm
      obtain rfl := List.mem_singleton.mp hm
      exact ⟨4, by simp [Process.failWith, Process.exit, Phase.spent], pipelineStr, rfl⟩
    next => exact makes_of_none (h.stay (hspent hphase) (by simp [Phase.spent])) rfl
  next hphase => exact makes_eventLoop h hphase pick
  next hphase => exact h.next (hspent hphase) rfl (fun _ _ => rfl) nofun
  next hphase => exact h.next (hspent hphase) rfl (fun _ _ => rfl) nofun
  next hphase => exact makes_of_none (h.stay (hspent hphase) (by simp [Phase.spent])) rfl
  next hphase =>
    exact makes_close (p := { p with phase := .returning }) (h.stay (hspent hphase) (by simp [Phase.spent]))
  next hphase =>
    have hclose := makes_close h
    generalize p.Close = o at hclose ⊢
    obtain ⟨q, effects⟩ := o
    simp only
    split
    next hreturning =>
      rw [Outcome.Makes, hreturning] at hclose
      change (Phase.exited 0).Made (calls ++ (effects ++ [Effect.exit 0]).filterMap Effect.gst?)
      rw [List.filterMap_append, ← List.append_assoc]
      exact (List.append_nil _).symm ▸ hclose
    next => exact hclose
  next => exact makes_of_none h rfl

theorem makes_step (h : p.phase.Made calls) (e : Event) : (p.step setup e).Makes calls := by
  by_cases hexited : ∃ code, p.phase = .exited code
  · obtain ⟨code, hexited⟩ := hexited
    rw [step_exited hexited]
    exact makes_of_none h rfl
  · rw [step_live (not_exists.mp hexited)]
    cases hmain : e.isMain with
    | false => exact makes_other h hmain
    | true =>
      cases e with
      | main pick err => exact makes_main h pick err
      | _ => cases hmain

end

-- ---------------------------------------------------------------------------
-- Every run
-- ---------------------------------------------------------------------------

/-- Nothing panics, the first stop is the one that is obeyed, eleven turns of
the main goroutine later the process is gone, and a process that ends well has
taken its pipeline down. -/
structure Obeys (l : SidecarLog) (p : Process) : Prop where
  heeds : Always Heeds l
  prompt : 11 ≤ turnsSince l → ∃ code, p.phase = .exited code
  pipeline : ∃ pipelineStr, gstCalls l <+: lifeOf pipelineStr
  clean : p.phase = .exited 0 → gstCalls l = [] ∨ ∃ pipelineStr, gstCalls l = lifeOf pipelineStr

theorem steady_run (setup : Setup) (es : List Event) :
    Steady ((sidecar setup).log es) ((sidecar setup).state ((sidecar setup).log es)) ∧
      Always Heeds ((sidecar setup).log es) := by
  induction es with
  | nil => exact ⟨steady_start, trivial⟩
  | cons e es ih =>
    obtain ⟨hsteady, hheeds⟩ := ih.1.step setup e
    exact ⟨hsteady, hheeds, ih.2⟩

theorem made_run (setup : Setup) (es : List Event) :
    ((sidecar setup).state ((sidecar setup).log es)).phase.Made (gstCalls ((sidecar setup).log es)) := by
  induction es with
  | nil => exact ⟨0, List.mem_singleton_self 0, "", rfl⟩
  | cons e es ih =>
    rw [System.log_cons, gstCalls, collected_cons]
    exact makes_step ih e

theorem exited_of_left {phase : Phase} (h : phase.left = 0) : ∃ code, phase = .exited code := by
  cases phase with
  | exited code => exact ⟨code, rfl⟩
  | _ => cases h

theorem isSome_of_turns {l : SidecarLog} (h : turnsSince l ≠ 0) : (firstStop l).isSome = true := by
  cases hfirst : firstStop l with
  | none => exact absurd (turnsSince_unstopped hfirst) h
  | some msg => rfl

theorem sidecar_obeys (setup : Setup) (es : List Event) :
    Obeys ((sidecar setup).log es) ((sidecar setup).state ((sidecar setup).log es)) := by
  obtain ⟨hsteady, hheeds⟩ := steady_run setup es
  obtain ⟨n, hn, pipelineStr, hcalls⟩ := made_run setup es
  refine ⟨hheeds, fun hturns => ?_, ⟨pipelineStr, ?_⟩, fun hclean => ?_⟩
  · rcases hsteady.left (isSome_of_turns (by omega)) with hzero | hleft
    · exact exited_of_left hzero
    · exact exited_of_left (by omega)
  · rw [hcalls]
    exact List.take_prefix n _
  · rw [hclean] at hn
    rw [hcalls]
    rcases List.mem_pair.mp hn with rfl | rfl
    · exact .inl rfl
    · exact .inr ⟨pipelineStr, rfl⟩

/-- The stop comes while the room is being joined. Newest first. -/
private def stoppedJoining : List Event :=
  List.replicate 7 (.main 0 none) ++ .line "\x7b\"type\":\"stop\",\"reason\":\"safe_mode\"\x7d".toList ::
    (List.replicate 3 (.main 0 none) ++
      [.waiter true, .waiter true, .line "\x7b\"type\":\"start\"\x7d".toList, .main 0 none])

example :
    let run := sidecar ⟨"front", "videotestsrc ! appsink name=sink", "ws://localhost:7880", 4242⟩
    (run.state (run.log stoppedJoining)).phase = .exited 0 ∧
      gstCalls (run.log stoppedJoining) = lifeOf "videotestsrc ! appsink name=sink" :=
  ⟨rfl, rfl⟩

end Rvep.Publisher.Go.Sidecar
