import Rvep.Lib.Chan
import Rvep.Publisher.PublishLoop

/-!
# From the camera to the track

`apps/edge-publisher-go/internal/gst/pipeline.go`: the callback that GStreamer's
thread makes for every access unit, the channel it fills, and the publish loop
that empties it. A callback looks its pipeline up in the registry and sends
later, so a `Stop` may come in between.
-/

namespace Rvep.Livekit

open Reactive

structure Sample where
  data : List UInt8
  pts : Int
  isKeyframe : Bool
  deriving DecidableEq

/-- `registered`: the registry has the pipeline. `inFlight`: looked up, not yet sent. -/
structure Capture where
  registered : Bool
  inFlight : Option Sample
  samples : Chan Sample
  loop : Loop

namespace Capture

inductive Event where
  | callback (s : Sample)
  | send
  | stop
  | take (writeErr : Option String)
  | cancel
  | ctxDone
  | timer (outcome : ConnectOutcome)
  deriving DecidableEq

variable (c : Capture)

/-- GStreamer's thread makes one callback at a time. -/
def onSample (s : Sample) : Capture :=
  if c.registered && c.inFlight.isNone then { c with inFlight := some s } else c

def send : Capture × List Effect :=
  match c.inFlight with
  | none => (c, [])
  | some s =>
    match c.samples.trySend s with
    | .ok samples => ({ c with samples := samples, inFlight := none }, [])
    | .error _ => (c, [.panics])

/-- What the loop does next, if it is not waiting for a sample. -/
def loopEvent? : Event → Option Livekit.Event
  | .cancel => some .cancel
  | .ctxDone => some .ctxDone
  | .timer outcome => some (.timer outcome)
  | .take writeErr =>
    if c.loop.phase = .publishing then
      c.samples.recv?.map fun
        | (some s, _) => .sample s.data writeErr
        | (none, _) => .channelClosed
    else none
  | _ => none

/-- What the loop's receive leaves in the channel. -/
def received (e : Event) : Chan Sample :=
  match e with
  | .take _ => if c.loop.phase = .publishing then (c.samples.recv?.map (·.2)).getD c.samples else c.samples
  | _ => c.samples

def runLoop (e : Event) : Capture × List Effect :=
  match c.loopEvent? e with
  | none => (c, [])
  | some event =>
    ({ c with samples := c.received e, loop := (c.loop.step event).1 }, (c.loop.step event).2)

def step : Event → Capture × List Effect
  | .callback s => (c.onSample s, [])
  | .send => c.send
  | .stop => ({ c with registered := false }, [])
  | e => c.runLoop e

end Capture

/-- A pipeline of `NewPipeline` and the loop that reads its samples. -/
def capture (fps : Int) : System Capture Capture.Event (List Effect) where
  init := { registered := true, inFlight := none, samples := .make 8, loop := (publishLoop fps).init }
  step := Capture.step

abbrev CaptureEntry := Entry Capture Capture.Event (List Effect)
abbrev CaptureLog := Log Capture Capture.Event (List Effect)

-- ---------------------------------------------------------------------------
-- What becomes of a sample
-- ---------------------------------------------------------------------------

/-- The sample whose callback finds its pipeline. -/
def captured (x : CaptureEntry) : List Sample :=
  match x.event with
  | .callback s => if x.before.registered && x.before.inFlight.isNone then [s] else []
  | _ => []

def offered (x : CaptureEntry) : List Sample :=
  match x.event with
  | .send => x.before.inFlight.toList
  | _ => []

def Capture.full (c : Capture) : Prop := c.samples.capacity ≤ c.samples.buffer.length

instance (c : Capture) : Decidable c.full := inferInstanceAs (Decidable (_ ≤ _))

def queued (x : CaptureEntry) : List Sample := if x.before.full then [] else offered x

/-- The sample that is dropped because the consumer lags. -/
def lost (x : CaptureEntry) : List Sample := if x.before.full then offered x else []

def taken (x : CaptureEntry) : List Sample :=
  match x.event with
  | .take _ =>
    if x.before.loop.phase = .publishing then
      (x.before.samples.recv?.bind (·.1)).toList
    else []
  | _ => []

/-- A sample that the loop converts and writes without an error. -/
def Capture.Event.publishes (e : Capture.Event) (s : Sample) : Bool :=
  match e with
  | .take none => (annexB? s.data).isSome
  | _ => false

def published (x : CaptureEntry) : List Sample := (taken x).filter x.event.publishes

def dropped (x : CaptureEntry) : List Sample := (taken x).filter fun s => !x.event.publishes s

def written (x : CaptureEntry) : List (List UInt8) := x.output.filterMap Effect.buffer?

/-- The steps of the publish loop in a run. -/
def inLoop? (x : CaptureEntry) : Option LoopEntry :=
  (x.before.loopEvent? x.event).map fun e =>
    ⟨x.before.loop, e, (x.before.loop.step e).1, (x.before.loop.step e).2⟩

def loopLog (l : CaptureLog) : LoopLog := l.filterMap inLoop?

-- ---------------------------------------------------------------------------
-- One step
-- ---------------------------------------------------------------------------

/-- Where the samples of a run are, and what the loop has made of them. -/
structure Flow (l : CaptureLog) (c : Capture) : Prop where
  opened : c.samples.closed = false
  capacity : c.samples.capacity = 8
  fifo : collected queued l = collected taken l ++ c.samples.buffer
  order : (collected queued l ++ c.inFlight.toList).Sublist (collected captured l)
  split : (collected captured l).Perm
    (collected queued l ++ (collected lost l ++ c.inFlight.toList))
  read : collected received (loopLog l) = (collected taken l).map (·.data)
  wrote : collected handedOver (loopLog l) = collected written l
  counted : Counted c.loop.publisher (collected published l).length (collected dropped l).length
  ledger : ∃ published dropped, Ledger c.loop.publisher (loopLog l) published dropped

/-- What a loop that has taken samples has made of them. -/
theorem taken_split (l : CaptureLog) :
    (collected taken l).Perm (collected published l ++ collected dropped l) := by
  induction l with
  | nil => exact .refl _
  | cons x past ih =>
    have hx : (published x ++ dropped x).Perm (taken x) := List.filter_append_perm ..
    rw [collected_cons, collected_cons, collected_cons, List.perm_iff_count]
    intro s
    have hpast := ih.count_eq s
    have hstep := hx.count_eq s
    rw [List.count_append] at hpast hstep
    simp only [List.count_append]
    omega

section
variable {past : CaptureLog} {x : CaptureEntry}

theorem queued_of_offered (h : offered x = []) : queued x = [] := by rw [queued, h, ite_self]

theorem lost_of_offered (h : offered x = []) : lost x = [] := by rw [lost, h, ite_self]

/-- What the loop has done is not changed by a step outside it. -/
theorem Flow.outside (h : Flow past x.before) (hidle : x.before.loopEvent? x.event = none)
    (htaken : taken x = []) (houtput : x.output = []) (hloop : x.after.loop = x.before.loop) :
    collected received (loopLog (x :: past)) = (collected taken (x :: past)).map (·.data) ∧
      collected handedOver (loopLog (x :: past)) = collected written (x :: past) ∧
      Counted x.after.loop.publisher (collected published (x :: past)).length
        (collected dropped (x :: past)).length ∧
      ∃ published dropped, Ledger x.after.loop.publisher (loopLog (x :: past)) published dropped := by
  have hpublished : published x = [] := by rw [published, htaken]; rfl
  have hdropped : dropped x = [] := by rw [dropped, htaken]; rfl
  have hwritten : written x = [] := by rw [written, houtput]; rfl
  have hlog : loopLog (x :: past) = loopLog past := by
    rw [loopLog, List.filterMap_cons_none (by rw [inLoop?, hidle]; rfl)]
    rfl
  rw [hlog, hloop, collected_cons, collected_cons, collected_cons, collected_cons, htaken, hwritten,
    hpublished, hdropped, List.append_nil, List.append_nil, List.append_nil, List.append_nil]
  exact ⟨h.read, h.wrote, h.counted, h.ledger⟩

/-- A step that moves no sample and leaves the loop alone. -/
theorem Flow.still (h : Flow past x.before) (hafter : x.after.samples = x.before.samples)
    (hflight : x.after.inFlight = x.before.inFlight) (hloop : x.after.loop = x.before.loop)
    (houtput : x.output = []) (hcaptured : captured x = []) (hoffered : offered x = [])
    (htaken : taken x = []) (hidle : x.before.loopEvent? x.event = none) :
    Flow (x :: past) x.after := by
  obtain ⟨hread, hwrote, hcounted, hledger⟩ := h.outside hidle htaken houtput hloop
  have hcollected {β : Type} {f : CaptureEntry → List β} (hf : f x = []) :
      collected f (x :: past) = collected f past := by rw [collected_cons, hf, List.append_nil]
  have hqueued := hcollected (queued_of_offered hoffered)
  refine ⟨hafter ▸ h.opened, hafter ▸ h.capacity, ?_, ?_, ?_, hread, hwrote, hcounted, hledger⟩
  · rw [hqueued, hcollected htaken, hafter]
    exact h.fifo
  · rw [hqueued, hcollected hcaptured, hflight]
    exact h.order
  · rw [hqueued, hcollected hcaptured, hcollected (lost_of_offered hoffered), hflight]
    exact h.split

/-- A callback that finds its pipeline. -/
theorem Flow.callback (h : Flow past x.before) {s : Sample} (hevent : x.event = .callback s)
    (hfree : x.before.inFlight = none) (hcaptured : captured x = [s])
    (hafter : x.after = { x.before with inFlight := some s }) (houtput : x.output = []) :
    Flow (x :: past) x.after := by
  have hoffered : offered x = [] := by rw [offered, hevent]
  have htaken : taken x = [] := by rw [taken, hevent]
  have hqueued := queued_of_offered hoffered
  have hlost := lost_of_offered hoffered
  obtain ⟨hread, hwrote, hcounted, hledger⟩ :=
    h.outside (by rw [hevent]; rfl) htaken houtput (by rw [hafter])
  have horder := h.order
  have hsplit := h.split
  rw [hfree, Option.toList_none, List.append_nil] at horder hsplit
  refine ⟨hafter ▸ h.opened, hafter ▸ h.capacity, ?_, ?_, ?_, hread, hwrote, hcounted, hledger⟩
  · rw [collected_cons, collected_cons, hqueued, htaken, List.append_nil, List.append_nil, hafter]
    exact h.fifo
  · rw [collected_cons, collected_cons, hqueued, hcaptured, List.append_nil, hafter]
    exact horder.append (.refl _)
  · rw [collected_cons, collected_cons, collected_cons, hqueued, hcaptured, hlost, hafter,
      List.append_nil, List.append_nil, ← List.append_assoc]
    exact hsplit.append_right [s]

/-- The sample in flight finds a place, or is dropped. -/
theorem Flow.send (h : Flow past x.before) (hevent : x.event = .send)
    (hstep : (x.after, x.output) = x.before.send) : Flow (x :: past) x.after := by
  cases hflight : x.before.inFlight with
  | none =>
    rw [Capture.send, hflight] at hstep
    obtain ⟨hafter, houtput⟩ := Prod.mk.inj hstep
    refine h.still (hafter ▸ rfl) (hafter ▸ rfl) (hafter ▸ rfl) houtput ?_ ?_ ?_ ?_
    · rw [captured, hevent]
    · rw [offered, hevent, hflight]
      rfl
    · rw [taken, hevent]
    · rw [hevent]
      rfl
  | some s =>
    obtain ⟨samples, hsent, hopen⟩ := Chan.trySend_open h.opened s
    rw [Capture.send, hflight] at hstep
    simp only [hsent] at hstep
    obtain ⟨hafter, houtput⟩ := Prod.mk.inj hstep
    have hoffered : offered x = [s] := by rw [offered, hevent, hflight]; rfl
    have hcaptured : captured x = [] := by rw [captured, hevent]
    have htaken : taken x = [] := by rw [taken, hevent]
    obtain ⟨hread, hwrote, hcounted, hledger⟩ :=
      h.outside (by rw [hevent]; rfl) htaken houtput (by rw [hafter])
    have horder := h.order
    have hsplit := h.split
    rw [hflight] at horder hsplit
    obtain ⟨hcapacity, -, hcases⟩ := Chan.trySend_ok hsent
    have hmoved : collected queued (x :: past) = collected taken (x :: past) ++ samples.buffer ∧
        (collected queued (x :: past)).Sublist (collected captured past) ∧
        (collected captured past).Perm
          (collected queued (x :: past) ++ collected lost (x :: past)) := by
      simp only [collected_cons, htaken, List.append_nil]
      rcases hcases with ⟨hroom, hbuffer⟩ | ⟨hfull, rfl⟩
      · have hnot : ¬ x.before.full := Nat.not_le.mpr hroom
        rw [queued, lost, if_neg hnot, if_neg hnot, hoffered, hbuffer, h.fifo, List.append_assoc]
        refine ⟨rfl, ?_, ?_⟩
        · rw [← List.append_assoc, ← h.fifo]
          exact horder
        · have hqueued : collected taken past ++ (x.before.samples.buffer ++ [s]) =
              collected queued past ++ [s] := by rw [h.fifo, List.append_assoc]
          rw [hqueued, List.append_nil, List.append_assoc]
          exact hsplit.trans (List.perm_append_comm.append_left _)
      · have hnot : x.before.full := Nat.le_of_eq hfull.symm
        rw [queued, lost, if_pos hnot, if_pos hnot, hoffered, List.append_nil]
        exact ⟨h.fifo, (List.sublist_append_left _ _).trans horder, hsplit⟩
    refine ⟨hafter ▸ hopen, hafter ▸ hcapacity.trans h.capacity, ?_, ?_, ?_, hread, hwrote, hcounted,
      hledger⟩
    · rw [hafter]
      exact hmoved.1
    · rw [collected_cons (f := captured), hcaptured, List.append_nil, hafter]
      simpa using hmoved.2.1
    · rw [collected_cons (f := captured), hcaptured, List.append_nil, hafter]
      simpa using hmoved.2.2

/-- What the loop receives is what leaves the channel. -/
theorem taken_spec (hopen : x.before.samples.closed = false) {e : Livekit.Event}
    (hloop : x.before.loopEvent? x.event = some e) (y : LoopEntry) (hbefore : y.before = x.before.loop)
    (hevent : y.event = e) :
    x.before.samples.buffer = taken x ++ (x.before.received x.event).buffer ∧
      received y = (taken x).map (·.data) ∧ (x.before.received x.event).closed = false ∧
      (x.before.received x.event).capacity = x.before.samples.capacity := by
  subst hevent
  unfold taken Capture.received
  cases he : x.event with
  | callback | send | stop =>
    rw [he] at hloop
    cases hloop
  | cancel | ctxDone | timer =>
    rw [he] at hloop
    have hother : received y = [] := by rw [received, ← Option.some.inj hloop]
    exact ⟨rfl, hother, hopen, rfl⟩
  | take writeErr =>
    rw [he, Capture.loopEvent?] at hloop
    by_cases hphase : x.before.loop.phase = .publishing
    · rw [if_pos hphase] at hloop
      simp only [if_pos hphase]
      obtain ⟨⟨r, samples⟩, hrecv, hsample⟩ := Option.map_eq_some_iff.mp hloop
      cases r with
      | none =>
        obtain ⟨-, hclosed, -⟩ := Chan.recv?_end hrecv
        exact absurd (hopen.symm.trans hclosed) Bool.false_ne_true
      | some s =>
        obtain ⟨hbuffer, hcapacity, hclosed⟩ := Chan.recv?_some hrecv
        have hreceived : received y = [s.data] :=
          received_of_sample hsample.symm (by rw [hbefore]; exact hphase)
        rw [hrecv]
        exact ⟨hbuffer, hreceived, hclosed.trans hopen, hcapacity⟩
    · rw [if_neg hphase] at hloop
      cases hloop

/-- The loop publishes a sample just when the step that takes it does. -/
theorem publishes_spec (hopen : x.before.samples.closed = false) {e : Livekit.Event}
    (hloop : x.before.loopEvent? x.event = some e) (s : Sample) :
    e.publishes s.data = x.event.publishes s := by
  cases he : x.event with
  | callback | send | stop =>
    rw [he] at hloop
    cases hloop
  | cancel | ctxDone | timer =>
    rw [he] at hloop
    cases hloop
    rfl
  | take writeErr =>
    rw [he, Capture.loopEvent?] at hloop
    split at hloop
    next =>
      obtain ⟨⟨r, samples⟩, hrecv, hsample⟩ := Option.map_eq_some_iff.mp hloop
      cases r with
      | none =>
        obtain ⟨-, hclosed, -⟩ := Chan.recv?_end hrecv
        exact absurd (hopen.symm.trans hclosed) Bool.false_ne_true
      | some s =>
        obtain rfl := hsample
        cases writeErr <;> rfl
    next => cases hloop

/-- A step of the publish loop, which may take a sample. -/
theorem Flow.loop (h : Flow past x.before) {e : Livekit.Event} (hloop : x.before.loopEvent? x.event = some e)
    (hstep : (x.after, x.output) = x.before.runLoop x.event) : Flow (x :: past) x.after := by
  have hrun : x.before.runLoop x.event =
      ({ x.before with samples := x.before.received x.event, loop := (x.before.loop.step e).1 },
        (x.before.loop.step e).2) := by
    rw [Capture.runLoop, hloop]
  obtain ⟨hafter, houtput⟩ := Prod.mk.inj (hstep.trans hrun)
  let y : LoopEntry := ⟨x.before.loop, e, (x.before.loop.step e).1, (x.before.loop.step e).2⟩
  have hlog : loopLog (x :: past) = y :: loopLog past := by
    rw [loopLog, List.filterMap_cons_some (by rw [inLoop?, hloop]; rfl)]
    rfl
  obtain ⟨hbuffer, hreceived, hopen, hcapacity⟩ := taken_spec h.opened hloop y rfl rfl
  have hnone : captured x = [] ∧ offered x = [] := by
    unfold captured offered
    cases he : x.event with
    | callback | send | stop =>
      rw [he] at hloop
      cases hloop
    | take | cancel | ctxDone | timer => exact ⟨rfl, rfl⟩
  have hqueued := queued_of_offered hnone.2
  have hlost := lost_of_offered hnone.2
  refine ⟨hafter ▸ hopen, hafter ▸ hcapacity.trans h.capacity, ?_, ?_, ?_, ?_, ?_, ?_, ?_⟩
  · rw [collected_cons, collected_cons, hqueued, List.append_nil, List.append_assoc, hafter, ← hbuffer]
    exact h.fifo
  · rw [collected_cons, collected_cons, hqueued, hnone.1, List.append_nil, List.append_nil, hafter]
    exact h.order
  · rw [collected_cons, collected_cons, collected_cons, hqueued, hlost, hnone.1, List.append_nil,
      List.append_nil, List.append_nil, hafter]
    exact h.split
  · rw [hlog, collected_cons, collected_cons, List.map_append, h.read, hreceived]
  · rw [hlog, collected_cons, collected_cons, h.wrote, written, houtput]
    rfl
  · have hcounted : Counted y.after.publisher _ _ := h.counted.split (step_does x.before.loop e)
    have hpublishes := publishes_spec h.opened hloop
    have hpublished : (received y).filter y.event.publishes = (published x).map (·.data) := by
      rw [hreceived, List.filter_map, published]
      exact congrArg _ (List.filter_congr fun s _ => hpublishes s)
    have hdropped : (received y).filter (fun data => !y.event.publishes data) =
        (dropped x).map (·.data) := by
      rw [hreceived, List.filter_map, dropped]
      exact congrArg _ (List.filter_congr fun s _ => congrArg not (hpublishes s))
    rw [hpublished, hdropped, List.length_map, List.length_map, ← List.length_append,
      ← List.length_append] at hcounted
    rw [collected_cons, collected_cons, hafter]
    exact hcounted
  · obtain ⟨published, dropped, hledger⟩ := h.ledger
    obtain ⟨published', dropped', hledger'⟩ := Ledger.step (x := y) hledger (step_does x.before.loop e)
    refine ⟨published', dropped', ?_⟩
    rw [hlog, hafter]
    exact hledger'

theorem taken_idle (hidle : x.before.loopEvent? x.event = none) : taken x = [] := by
  unfold taken
  split
  next writeErr he =>
    rw [he, Capture.loopEvent?] at hidle
    split
    next hphase =>
      rw [if_pos hphase] at hidle
      rw [Option.map_eq_none_iff.mp hidle]
      rfl
    next => rfl
  next => rfl

theorem Flow.step {c : Capture} (h : Flow past c) (fps : Int) (e : Capture.Event) :
    Flow ((capture fps).react c e :: past) ((capture fps).react c e).after := by
  have hrun (hstep : c.step e = c.runLoop e) (hcaptured : captured ((capture fps).react c e) = [])
      (hoffered : offered ((capture fps).react c e) = []) :
      Flow ((capture fps).react c e :: past) ((capture fps).react c e).after := by
    cases hloop : c.loopEvent? e with
    | some event => exact Flow.loop (x := (capture fps).react c e) h hloop hstep
    | none =>
      have hidle : c.step e = (c, []) := by rw [hstep, Capture.runLoop, hloop]
      have hafter : ((capture fps).react c e).after = c := congrArg Prod.fst hidle
      exact Flow.still (x := (capture fps).react c e) h (by rw [hafter]; rfl) (by rw [hafter]; rfl)
        (by rw [hafter]; rfl) (congrArg Prod.snd hidle) hcaptured hoffered (taken_idle hloop) hloop
  cases e with
  | callback s =>
    cases hfree : c.registered && c.inFlight.isNone with
    | false =>
      have hafter : ((capture fps).react c (.callback s)).after = c := by
        change c.onSample s = c
        rw [Capture.onSample, hfree, if_neg Bool.false_ne_true]
      refine Flow.still (x := (capture fps).react c (.callback s)) h (by rw [hafter]; rfl)
        (by rw [hafter]; rfl) (by rw [hafter]; rfl) rfl ?_ rfl rfl rfl
      exact if_neg (hfree ▸ Bool.false_ne_true)
    | true =>
      have hnone : c.inFlight = none := Option.isNone_iff_eq_none.mp (Bool.and_eq_true_iff.mp hfree).2
      refine Flow.callback (x := (capture fps).react c (.callback s)) h rfl hnone (if_pos hfree) ?_ rfl
      change c.onSample s = _
      rw [Capture.onSample, hfree, if_pos rfl]
      rfl
  | send => exact Flow.send (x := (capture fps).react c .send) h rfl rfl
  | stop => exact Flow.still (x := (capture fps).react c .stop) h rfl rfl rfl rfl rfl rfl rfl rfl
  | take | cancel | ctxDone | timer => exact hrun rfl rfl rfl

end

-- ---------------------------------------------------------------------------
-- Every run
-- ---------------------------------------------------------------------------

theorem flow_run (fps : Int) (es : List Capture.Event) :
    Flow ((capture fps).log es) ((capture fps).state ((capture fps).log es)) := by
  induction es with
  | nil =>
    have hcounted : Counted (publishLoop fps).init.publisher 0 0 := ⟨rfl, rfl, Option.some_ne_none 0⟩
    exact ⟨rfl, rfl, rfl, .refl _, .refl _, rfl, rfl, hcounted, 0, 0, hcounted, rfl, rfl⟩
  | cons e es ih => exact ih.step fps e

/-- Only a channel that holds eight samples drops one. -/
def DropsFull (x : CaptureEntry) (_ : CaptureLog) : Prop :=
  lost x ≠ [] → x.before.samples.buffer.length = 8

theorem Flow.dropsFull {past : CaptureLog} {x : CaptureEntry} (h : Flow past x.before) :
    DropsFull x past := by
  intro hlost
  have hfits := x.before.samples.fits
  rw [h.capacity] at hfits
  by_cases hfull : x.before.full
  · have hfull : x.before.samples.capacity ≤ x.before.samples.buffer.length := hfull
    rw [h.capacity] at hfull
    exact Nat.le_antisymm hfits hfull
  · exact absurd (if_neg hfull) hlost

theorem dropsFull_run (fps : Int) (es : List Capture.Event) : Always DropsFull ((capture fps).log es) := by
  induction es with
  | nil => trivial
  | cons e es ih => exact ⟨(flow_run fps es).dropsFull (x := (capture fps).react _ e), ih⟩

/-- Frames are written in the order they were captured in, each once at most.
The captured ones are those published, those dropped by the loop, both as it
counts them, those dropped by a full channel and those waiting, and no two of these. -/
theorem frames_accounted (fps : Int) (es : List Capture.Event) :
    let l := (capture fps).log es
    let c := (capture fps).state l
    (collected written l).Sublist ((collected captured l).filterMap fun s => annexB? s.data) ∧
      Always DropsFull l ∧
      Counted c.loop.publisher (collected published l).length (collected dropped l).length ∧
      (collected captured l).Perm (collected published l ++ (collected dropped l ++
        (c.samples.buffer ++ (collected lost l ++ c.inFlight.toList)))) := by
  intro l c
  have h : Flow l c := flow_run fps es
  obtain ⟨published, dropped, hledger⟩ := h.ledger
  have hwritten : collected written l = (collected taken l).filterMap fun s => annexB? s.data := by
    rw [← h.wrote, hledger.forwarded, h.read, List.filterMap_map]
    rfl
  refine ⟨?_, dropsFull_run fps es, h.counted, ?_⟩
  · rw [hwritten]
    have hqueued := (List.sublist_append_left _ _).trans h.order
    rw [h.fifo] at hqueued
    exact ((List.sublist_append_left _ _).trans hqueued).filterMap _
  · have hsplit := h.split
    rw [h.fifo, List.append_assoc] at hsplit
    rw [← List.append_assoc]
    exact hsplit.trans ((taken_split l).append_right _)

end Rvep.Livekit
