import Rvep.Publisher.Livekit

/-!
# Samples, tracks and retries of the publish loop

Every received sample is counted once and what `ToAnnexB` accepts is written
once. The retry budget and the track written to are right only as long as no
outage follows a recovered one, and as every reconnect succeeds.
-/

namespace Rvep.Livekit

open Reactive

variable {s : Loop} {e : Event} {l past : LoopLog}

-- ---------------------------------------------------------------------------
-- Counting and forwarding
-- ---------------------------------------------------------------------------

/-- The sample that the loop takes from its channel. -/
def received (x : LoopEntry) : List (List UInt8) :=
  match x.event with
  | .sample data _ => if x.before.phase = .publishing then [data] else []
  | _ => []

def Effect.buffer? : Effect → Option (List UInt8)
  | .writeSample _ data _ => some data
  | _ => none

def handedOver (x : LoopEntry) : List (List UInt8) := x.output.filterMap Effect.buffer?

def annexB? (data : List UInt8) : Option (List UInt8) := (H264.ToAnnexB data).toOption

theorem annexB?_of_ok {data out : List UInt8} (h : H264.ToAnnexB data = .ok out) :
    annexB? data = some out := by
  rw [annexB?, h]
  rfl

theorem annexB?_of_error {data : List UInt8} {err : H264.Error} (h : H264.ToAnnexB data = .error err) :
    annexB? data = none := by
  rw [annexB?, h]
  rfl

/-- A sample that is converted and written without an error. -/
def Event.publishes (e : Event) (data : List UInt8) : Bool :=
  match e with
  | .sample _ none => (annexB? data).isSome
  | _ => false

/-- The counters are `int64`, whose sum is exact below 2^63 samples. -/
def Accounted (x : LoopEntry) (past : LoopLog) : Prop :=
  let p := x.after.publisher
  let samples := collected received (x :: past)
  p.framesPublished + p.framesDropped = Int64.ofNat samples.length ∧
    (samples.length < 2 ^ 63 → p.framesPublished.toInt + p.framesDropped.toInt = samples.length) ∧
    collected handedOver (x :: past) = samples.filterMap annexB?

/-- The counters behind their `int64`, and a track to write to. -/
structure Counted (p : Publisher) (published dropped : Nat) : Prop where
  framesPublished : p.framesPublished = Int64.ofNat published
  framesDropped : p.framesDropped = Int64.ofNat dropped
  track : p.track ≠ none

variable {p : Publisher} {published dropped : Nat}

theorem Counted.publish (h : Counted p published dropped) :
    Counted p.publish (published + 1) dropped where
  framesPublished := by
    rw [Int64.ofNat_add, ← h.framesPublished]
    rfl
  framesDropped := h.framesDropped
  track := h.track

theorem Counted.drop (h : Counted p published dropped) : Counted p.drop published (dropped + 1) where
  framesPublished := h.framesPublished
  framesDropped := by
    rw [Int64.ofNat_add, ← h.framesDropped]
    rfl
  track := h.track

theorem Counted.disconnect (h : Counted p published dropped) :
    Counted p.disconnect.1 published dropped := by
  unfold Publisher.disconnect
  split
  · exact ⟨h.framesPublished, h.framesDropped, h.track⟩
  · exact h

theorem Counted.connect (h : Counted p published dropped) (call : Nat) (outcome : ConnectOutcome) :
    Counted (p.connect call outcome).1 published dropped := by
  obtain ⟨hpublished, hdropped, htrack⟩ := h
  cases outcome with
  | joinFails err | trackFails err => exact ⟨hpublished, hdropped, htrack⟩
  | publishFails err | succeeds => exact ⟨hpublished, hdropped, Option.some_ne_none call⟩

/-- A reconnect leaves a room and tries to join one, and nothing else. -/
theorem reconnect_effects {outcome : ConnectOutcome} {y : Effect} (hy : y ∈ (s.reconnect outcome).2) :
    (∃ room, y = .disconnect room) ∨ ∃ call, y = .connect call outcome := by
  rcases List.mem_append.mp hy with hy | hy
  · unfold Publisher.disconnect at hy
    split at hy
    next => exact .inl ⟨_, List.mem_singleton.mp hy⟩
    next => exact absurd hy List.not_mem_nil
  · cases outcome with
    | joinFails err | succeeds => exact .inr ⟨_, List.mem_singleton.mp hy⟩
    | trackFails err | publishFails err =>
      rcases List.mem_cons.mp hy with rfl | hy
      · exact .inr ⟨_, rfl⟩
      · exact .inl ⟨_, List.mem_singleton.mp hy⟩

theorem reconnect_writes_nothing (s : Loop) (outcome : ConnectOutcome) :
    (s.reconnect outcome).2.filterMap Effect.buffer? = [] := by
  rw [List.filterMap_eq_nil_iff]
  intro y hy
  obtain ⟨room, rfl⟩ | ⟨call, rfl⟩ := reconnect_effects hy
  · rfl
  · rfl

section
variable {x : LoopEntry}

theorem received_of_sample {data : List UInt8} {writeErr : Option String}
    (he : x.event = .sample data writeErr) (hp : x.before.phase = .publishing) :
    received x = [data] := by
  rw [received, he]
  exact if_pos hp

theorem received_of_other (h : ∀ data writeErr, x.event ≠ .sample data writeErr) :
    received x = [] := by
  obtain ⟨before, event, after, output⟩ := x
  cases event with
  | sample data writeErr => exact absurd rfl (h data writeErr)
  | _ => rfl

theorem received_of_idle (h : ∀ data writeErr, x.event = .sample data writeErr →
    x.before.phase ≠ .publishing) : received x = [] := by
  obtain ⟨before, event, after, output⟩ := x
  cases event with
  | sample data writeErr => exact if_neg (h data writeErr rfl)
  | _ => rfl

/-- What a step hands over is what it received and could convert. -/
theorem handedOver_eq (h : Does x.before x.event x.after x.output)
    (htrack : x.before.publisher.track ≠ none) : handedOver x = (received x).filterMap annexB? := by
  obtain ⟨before, event, after, output⟩ := x
  change Does before event after output at h
  cases h with
  | idles hidle => rw [received_of_idle hidle]; rfl
  | cancels => rfl
  | returns hother => rw [received_of_other hother]; rfl
  | drops hp hbad =>
    rw [received_of_sample rfl hp, List.filterMap_cons_none (annexB?_of_error hbad)]
    rfl
  | panics hp hok hnone => exact absurd hnone htrack
  | publishes hp hok | endsCancelled hp hok | givesUp hp hok | waits hp hok =>
    rw [received_of_sample rfl hp, List.filterMap_cons_some (annexB?_of_ok hok)]
    rfl
  | reconnects hw => exact reconnect_writes_nothing before _

/-- A step counts what it received, by what became of it. -/
theorem Counted.split (hc : Counted x.before.publisher published dropped)
    (h : Does x.before x.event x.after x.output) :
    Counted x.after.publisher (published + ((received x).filter x.event.publishes).length)
      (dropped + ((received x).filter fun data => !x.event.publishes data).length) := by
  obtain ⟨before, event, after, output⟩ := x
  change Does before event after output at h
  cases h with
  | idles hidle =>
    rw [received_of_idle hidle]
    exact hc
  | cancels => exact hc
  | returns hother =>
    rw [received_of_other hother]
    exact hc
  | panics hp hok hnone => exact absurd hnone hc.track
  | publishes hp hok =>
    rw [received_of_sample rfl hp]
    simpa [Event.publishes, annexB?_of_ok hok] using hc.publish
  | @drops _ _ writeErr hp hbad =>
    rw [received_of_sample rfl hp]
    cases writeErr <;> simpa [Event.publishes, annexB?_of_error hbad] using hc.drop
  | endsCancelled hp | givesUp hp | waits hp =>
    rw [received_of_sample rfl hp]
    exact hc.drop
  | reconnects hw => exact hc.disconnect.connect _ _

theorem Counted.step (hc : Counted x.before.publisher published dropped)
    (h : Does x.before x.event x.after x.output) :
    ∃ published' dropped', Counted x.after.publisher published' dropped' ∧
      published' + dropped' = published + dropped + (received x).length := by
  refine ⟨_, _, hc.split h, ?_⟩
  have hsplit := (List.filter_append_perm x.event.publishes (received x)).length_eq
  rw [List.length_append] at hsplit
  omega

end

/-- The counters as they stand after the entries of `l`. -/
structure Ledger (p : Publisher) (l : LoopLog) (published dropped : Nat) : Prop
    extends Counted p published dropped where
  total : published + dropped = (collected received l).length
  forwarded : collected handedOver l = (collected received l).filterMap annexB?

theorem Ledger.step {x : LoopEntry} (h : Ledger x.before.publisher past published dropped)
    (hdoes : Does x.before x.event x.after x.output) :
    ∃ published' dropped', Ledger x.after.publisher (x :: past) published' dropped' := by
  obtain ⟨published', dropped', hcounted, htotal⟩ := h.toCounted.step hdoes
  refine ⟨published', dropped', hcounted, ?_, ?_⟩
  · rw [htotal, h.total, collected_cons, List.length_append]
  · rw [collected_cons, collected_cons, List.filterMap_append, h.forwarded,
      handedOver_eq hdoes h.track]

theorem Ledger.accounted {x : LoopEntry}
    (h : Ledger x.after.publisher (x :: past) published dropped) : Accounted x past := by
  obtain ⟨⟨hpublished, hdropped, -⟩, htotal, hforwarded⟩ := h
  refine ⟨?_, ?_, hforwarded⟩
  · rw [hpublished, hdropped, ← Int64.ofNat_add, htotal]
  · intro hsmall
    rw [← htotal] at hsmall
    rw [hpublished, hdropped, ← htotal, Int64.toInt_ofNat_of_lt (by omega),
      Int64.toInt_ofNat_of_lt (by omega)]
    rfl

/-- Whatever fails, every sample is counted once, and those that convert are
handed to `WriteSample` once and in order. -/
theorem samples_accounted (fps : Int) (es : List Event) :
    Always Accounted ((publishLoop fps).log es) := by
  have hok : Always (fun _ _ => True) ((publishLoop fps).log es) :=
    System.always_react (fun _ _ => trivial) es
  refine System.always_of_invariant
    (fun l => ∃ published dropped, Ledger ((publishLoop fps).state l).publisher l published dropped)
    ⟨0, 0, ⟨rfl, rfl, Option.some_ne_none 0⟩, rfl, rfl⟩ ?_ es hok
  rintro past e ⟨published, dropped, h⟩ -
  obtain ⟨published', dropped', h'⟩ := h.step (x := (publishLoop fps).react _ e) (step_does _ e)
  exact ⟨⟨_, _, h'⟩, h'.accounted⟩

-- ---------------------------------------------------------------------------
-- The track that is written to
-- ---------------------------------------------------------------------------

def Effect.connect? : Effect → Option (Nat × ConnectOutcome)
  | .connect call outcome => some (call, outcome)
  | _ => none

def connects (x : LoopEntry) : List (Nat × ConnectOutcome) := x.output.filterMap Effect.connect?

/-- The most recent `Connect`; the one before the loop succeeded. -/
def lastConnect (l : LoopLog) : Nat × ConnectOutcome := (latest connects l).getD (0, .succeeds)

def Left (room : Nat) (l : LoopLog) : Prop := Once (fun x _ => .disconnect room ∈ x.output) l

instance : Decidable (Left room l) := inferInstanceAs (Decidable (Once _ _))

/-- A write goes to the track of the most recent `Connect`, which succeeded and
whose room has not been left. -/
def Effect.Current (past : LoopLog) : Effect → Prop
  | .writeSample track _ _ => lastConnect past = (track, .succeeds) ∧ ¬ Left track past
  | _ => True

instance : (y : Effect) → Decidable (y.Current past)
  | .writeSample _ _ _ => inferInstanceAs (Decidable (_ ∧ _))
  | .connect _ _ | .disconnect _ | .after _ | .returns _ | .panics => .isTrue trivial

def WritesCurrent (x : LoopEntry) (past : LoopLog) : Prop := ∀ y ∈ x.output, y.Current past

instance (x : LoopEntry) : Decidable (WritesCurrent x past) :=
  inferInstanceAs (Decidable (∀ y ∈ x.output, y.Current past))

/-- No sample that converts is received behind a `Connect` that failed. -/
def ReceivesConnected (x : LoopEntry) (past : LoopLog) : Prop :=
  (received x).filterMap annexB? ≠ [] → (lastConnect past).2 = .succeeds

structure Connected (s : Loop) (l : LoopLog) : Prop where
  track : s.publisher.track ≠ none
  room : ∀ room, s.publisher.room = some room → room ≤ s.calls
  left : ∀ room, Left room l → room ≤ s.calls
  call : (lastConnect l).1 = s.calls
  current : (lastConnect l).2 = .succeeds → s.publisher.track = some s.calls ∧ ¬ Left s.calls l

theorem lastConnect_of_quiet {x : LoopEntry} (h : connects x = []) :
    lastConnect (x :: past) = lastConnect past := by
  rw [lastConnect, latest_cons_of_nil h, lastConnect]

theorem left_of_quiet {x : LoopEntry} {room : Nat} (h : .disconnect room ∉ x.output) :
    Left room (x :: past) ↔ Left room past := by
  rw [Left, once_cons, or_iff_right h, Left]

/-- A step that neither joins nor leaves a room. -/
theorem Connected.pass {x : LoopEntry} (h : Connected x.before past) (hconnect : connects x = [])
    (hleave : ∀ room, .disconnect room ∉ x.output) (hcalls : x.after.calls = x.before.calls)
    (hroom : x.after.publisher.room = x.before.publisher.room)
    (htrack : x.after.publisher.track = x.before.publisher.track) :
    Connected x.after (x :: past) where
  track := htrack ▸ h.track
  room := by
    rw [hroom, hcalls]
    exact h.room
  left room := by
    rw [left_of_quiet (hleave room), hcalls]
    exact h.left room
  call := by rw [lastConnect_of_quiet hconnect, h.call, hcalls]
  current := by
    rw [lastConnect_of_quiet hconnect, left_of_quiet (hleave _), hcalls, htrack]
    exact h.current

theorem mem_disconnect {room : Nat} : .disconnect room ∈ p.disconnect.2 ↔ p.room = some room := by
  unfold Publisher.disconnect
  split
  next hroom => simp [hroom, eq_comm]
  next hroom => simp [hroom]

theorem connects_reconnect (s : Loop) (outcome : ConnectOutcome) :
    (s.reconnect outcome).2.filterMap Effect.connect? = [(s.calls + 1, outcome)] := by
  have hleft : s.publisher.disconnect.2.filterMap Effect.connect? = [] := by
    unfold Publisher.disconnect
    split
    · rfl
    · rfl
  rw [Loop.reconnect, List.filterMap_append, hleft, List.nil_append]
  cases outcome with
  | _ => rfl

theorem disconnect_room (p : Publisher) : p.disconnect.1.room = none := by
  unfold Publisher.disconnect
  split
  next => rfl
  next hroom => exact hroom

theorem disconnect_track (p : Publisher) : p.disconnect.1.track = p.track := by
  unfold Publisher.disconnect
  split
  · rfl
  · rfl

theorem connect_track (h : p.track ≠ none) (call : Nat) (outcome : ConnectOutcome) :
    (p.connect call outcome).1.track ≠ none := by
  cases outcome with
  | joinFails err | trackFails err => exact h
  | publishFails err | succeeds => exact Option.some_ne_none call

theorem connect_room (p : Publisher) (call : Nat) (outcome : ConnectOutcome) :
    (p.connect call outcome).1.room = p.room ∨ (p.connect call outcome).1.room = some call := by
  cases outcome with
  | joinFails err => exact .inl rfl
  | trackFails err | publishFails err | succeeds => exact .inr rfl

theorem connect_leaves {call room : Nat} {outcome : ConnectOutcome}
    (h : .disconnect room ∈ (p.connect call outcome).2) : room = call ∧ outcome ≠ .succeeds := by
  cases outcome with
  | joinFails err | succeeds => simp [Publisher.connect] at h
  | trackFails err | publishFails err =>
    refine ⟨?_, fun hs => by cases hs⟩
    simpa [Publisher.connect] using h

theorem Connected.reconnect {outcome : ConnectOutcome} {x : LoopEntry} (h : Connected x.before past)
    (hafter : x.after = (x.before.reconnect outcome).1)
    (hout : x.output = (x.before.reconnect outcome).2) : Connected x.after (x :: past) := by
  have hlast : lastConnect (x :: past) = (x.before.calls + 1, outcome) := by
    rw [lastConnect, latest_cons_of_getLast (b := (x.before.calls + 1, outcome))]
    · rfl
    · rw [connects, hout, connects_reconnect]
      rfl
  have hleft : ∀ room, Left room (x :: past) →
      room ≤ x.before.calls ∨ room = x.before.calls + 1 ∧ outcome ≠ .succeeds := by
    rintro room (hnow | ⟨-, hpast⟩)
    · rw [hout] at hnow
      rcases List.mem_append.mp hnow with hnow | hnow
      · exact .inl (h.room room (mem_disconnect.mp hnow))
      · exact .inr (connect_leaves hnow)
    · exact .inl (h.left room hpast)
  rw [hafter]
  refine ⟨?_, ?_, ?_, ?_, ?_⟩
  · refine connect_track ?_ _ _
    rw [disconnect_track]
    exact h.track
  · intro room hroom
    rcases connect_room x.before.publisher.disconnect.1 (x.before.calls + 1) outcome with hold | hnew
    · rw [disconnect_room] at hold
      exact absurd (hold.symm.trans hroom) (by simp)
    · exact Nat.le_of_eq (Option.some.inj (hroom.symm.trans hnew))
  · intro room hroom
    rcases hleft room hroom with hle | ⟨rfl, -⟩
    · exact Nat.le_succ_of_le hle
    · exact Nat.le_refl _
  · rw [hlast]
    rfl
  · rw [hlast]
    rintro rfl
    refine ⟨rfl, fun hgone => ?_⟩
    rcases hleft _ hgone with hle | ⟨-, hfailed⟩
    · exact Nat.not_succ_le_self _ hle
    · exact hfailed rfl

theorem Connected.step {x : LoopEntry} (h : Connected x.before past)
    (hdoes : Does x.before x.event x.after x.output) : Connected x.after (x :: past) := by
  obtain ⟨before, event, after, output⟩ := x
  change Does before event after output at hdoes
  cases hdoes with
  | reconnects hw => exact h.reconnect rfl rfl
  | _ => exact h.pass rfl (by simp) rfl rfl rfl

/-- Writes go to the track of the publisher. -/
theorem track_of_write {x : LoopEntry} {track : Nat} {data : List UInt8} {duration : Int}
    (hdoes : Does x.before x.event x.after x.output)
    (hy : .writeSample track data duration ∈ x.output) : x.before.publisher.track = some track := by
  obtain ⟨before, event, after, output⟩ := x
  change Does before event after output at hdoes
  cases hdoes with
  | publishes _ _ htrack | endsCancelled _ _ htrack | givesUp _ _ htrack | waits _ _ htrack =>
    simp only [List.mem_cons, List.not_mem_nil, or_false, Effect.writeSample.injEq, reduceCtorEq] at hy
    rw [hy.1]
    exact htrack
  | reconnects hw =>
    have hbuffer := List.filterMap_eq_nil_iff.mp (reconnect_writes_nothing before _) _ hy
    cases hbuffer
  | _ => simp at hy

theorem Connected.writes_iff {x : LoopEntry} (h : Connected x.before past)
    (hdoes : Does x.before x.event x.after x.output) :
    WritesCurrent x past ↔ ReceivesConnected x past := by
  rw [ReceivesConnected, ← handedOver_eq hdoes h.track]
  constructor
  · intro hwrites hsome
    obtain ⟨data, hdata⟩ := List.exists_mem_of_ne_nil _ hsome
    obtain ⟨y, hy, hbuffer⟩ := List.mem_filterMap.mp hdata
    cases y with
    | writeSample track data duration =>
      have hcurrent := hwrites _ hy
      rw [hcurrent.1]
    | _ => cases hbuffer
  · intro hsucceeds y hy
    cases y with
    | writeSample track data duration =>
      have hsome : handedOver x ≠ [] := List.ne_nil_of_mem (List.mem_filterMap.mpr ⟨_, hy, rfl⟩)
      obtain ⟨htrack, hleft⟩ := h.current (hsucceeds hsome)
      have hcalls : x.before.calls = track :=
        Option.some.inj (htrack.symm.trans (track_of_write hdoes hy))
      refine ⟨Prod.ext (h.call.trans hcalls) (hsucceeds hsome), ?_⟩
      rwa [← hcalls]
    | _ => trivial

/-- The track written to is current in exactly the runs in which no sample
that converts follows a reconnect that failed. -/
theorem writesCurrent_iff (fps : Int) (es : List Event) :
    Always WritesCurrent ((publishLoop fps).log es) ↔
      Always ReceivesConnected ((publishLoop fps).log es) := by
  refine System.always_iff (fun l => Connected ((publishLoop fps).state l) l) ?_ ?_ es
  · exact ⟨Option.some_ne_none 0, fun room hroom => Nat.le_of_eq (Option.some.inj hroom).symm,
      fun room hroom => absurd hroom once_nil, rfl, fun _ => ⟨rfl, once_nil⟩⟩
  · intro past e h
    have hdoes := step_does ((publishLoop fps).state past) e
    exact ⟨h.writes_iff (x := (publishLoop fps).react _ e) hdoes,
      fun _ => h.step (x := (publishLoop fps).react _ e) hdoes⟩

def idrSlice : List UInt8 := [0x00, 0x00, 0x00, 0x01, 0x65, 0x88]

/-- The reconnect is refused and the next sample goes to the track of the room that was left. -/
theorem refused_reconnect_publishes :
    ¬ Always WritesCurrent ((publishLoop 30).log
      [.sample idrSlice none, .timer (.joinFails "refused"),
        .sample idrSlice (some "room closed")]) := by
  decide

-- ---------------------------------------------------------------------------
-- The retry budget
-- ---------------------------------------------------------------------------

/-- What `WriteSample` answered, if it was called. -/
def writeOutcome (x : LoopEntry) : Option (Option String) :=
  match x.event with
  | .sample _ writeErr => if (handedOver x).isEmpty then none else some writeErr
  | _ => none

def succeeded (x : LoopEntry) : Bool := writeOutcome x == some none

/-- A write that fails while the context is not cancelled. -/
def failed (x : LoopEntry) : Bool := !x.before.cancelled && (writeOutcome x).any Option.isSome

/-- The failed writes since the last one that succeeded. -/
def failuresInARow : LoopLog → Nat
  | [] => 0
  | x :: past =>
    if succeeded x then 0
    else if failed x then failuresInARow past + 1
    else failuresInARow past

/-- The loop gives up behind more than `maxReconnectAttempts` failures in a
row, and waits for as long as their number says. -/
def Effect.WithinBudget (failures : Nat) : Effect → Prop
  | .returns (some _) => maxReconnectAttempts < failures
  | .after delay => delay = reconnectBaseDelay * 2 ^ (failures - 1)
  | _ => True

instance (failures : Nat) : (y : Effect) → Decidable (y.WithinBudget failures)
  | .returns (some _) => inferInstanceAs (Decidable (_ < _))
  | .after _ => inferInstanceAs (Decidable (_ = _))
  | .returns none | .connect _ _ | .disconnect _ | .writeSample _ _ _ | .panics => .isTrue trivial

def BudgetPerOutage (x : LoopEntry) (past : LoopLog) : Prop :=
  ∀ y ∈ x.output, y.WithinBudget (failuresInARow (x :: past))

instance (x : LoopEntry) : Decidable (BudgetPerOutage x past) :=
  inferInstanceAs (Decidable (∀ y ∈ x.output, y.WithinBudget _))

/-- A write succeeded behind one that failed. -/
def Recovered (l : LoopLog) : Prop :=
  Once (fun x past => succeeded x = true ∧ Once (fun y _ => failed y = true) past) l

/-- No write fails behind an outage that was recovered from. -/
def OneOutage (x : LoopEntry) (past : LoopLog) : Prop := failed x = true → ¬ Recovered past

theorem not_failed_of_succeeded {x : LoopEntry} (h : succeeded x = true) : failed x = false := by
  rw [failed, beq_iff_eq.mp h]
  simp

theorem once_failed_iff : Once (fun y _ => failed y = true) l ↔ 0 < l.countP failed := by
  rw [List.countP_pos_iff]
  induction l with
  | nil => simp
  | cons x past ih => simp only [once_cons, ih, List.mem_cons, exists_eq_or_imp]

/-- The failures since the last success are all failures unless an outage was recovered from. -/
theorem recovered_iff (l : LoopLog) :
    failuresInARow l ≤ l.countP failed ∧ (Recovered l ↔ failuresInARow l < l.countP failed) := by
  induction l with
  | nil => simp [failuresInARow, Recovered]
  | cons x past ih =>
    obtain ⟨hle, hiff⟩ := ih
    have hpast : Recovered past → 0 < past.countP failed := fun h => by
      have := hiff.mp h
      omega
    rw [Recovered, once_cons, ← Recovered, failuresInARow, List.countP_cons, once_failed_iff]
    by_cases hs : succeeded x = true
    · rw [if_pos hs, not_failed_of_succeeded hs]
      simp only [hs, true_and, Bool.false_eq_true, if_false, Nat.add_zero]
      exact ⟨Nat.zero_le _, ⟨fun h => h.elim id hpast, .inl⟩⟩
    · rw [if_neg hs, Bool.eq_false_iff.mpr hs]
      simp only [Bool.false_eq_true, false_and, false_or, hiff]
      cases failed x with
      | true =>
        simp only [if_true]
        omega
      | false =>
        simp only [Bool.false_eq_true, if_false, Nat.add_zero]
        exact ⟨hle, trivial⟩

theorem failed_of_silent {x : LoopEntry} (h : handedOver x = []) : failed x = false := by
  have hnone : writeOutcome x = none := by
    unfold writeOutcome
    split
    · rw [h]
      rfl
    · rfl
  rw [failed, hnone]
  exact Bool.and_false _

/-- A step that neither waits nor gives up. -/
structure Unfailed (x : LoopEntry) : Prop where
  failed : failed x = false
  within : ∀ y ∈ x.output, ∀ failures, y.WithinBudget failures
  running : x.after.phase ≠ .returned → x.before.phase ≠ .returned
  attempts : x.after.attempts = x.before.attempts

/-- The answer to a failed write. -/
structure Failure (x : LoopEntry) (answer : Effect) : Prop where
  failed : failed x = true
  output : ∃ write, x.output = [write, answer] ∧ ∀ failures, write.WithinBudget failures
  publishing : x.before.phase = .publishing
  attempts : x.after.attempts = x.before.attempts + 1

theorem budget_cases {x : LoopEntry} (hdoes : Does x.before x.event x.after x.output) :
    Unfailed x ∨
      (∃ text, Failure x (.returns (some text)) ∧ maxReconnectAttempts < x.before.attempts + 1 ∧
        x.after.phase = .returned) ∨
      Failure x (.after (reconnectBaseDelay * 2 ^ x.before.attempts)) ∧
        x.before.attempts + 1 ≤ maxReconnectAttempts := by
  obtain ⟨before, event, after, output⟩ := x
  change Does before event after output at hdoes
  cases hdoes with
  | idles | cancels => exact .inl ⟨failed_of_silent rfl, by simp, id, rfl⟩
  | drops hp => exact .inl ⟨failed_of_silent rfl, by simp, id, rfl⟩
  | returns | panics =>
    refine .inl ⟨failed_of_silent rfl, ?_, fun h => absurd rfl h, rfl⟩
    simp [Effect.WithinBudget]
  | publishes => exact .inl ⟨Bool.and_false _, by simp [Effect.WithinBudget], id, rfl⟩
  | endsCancelled hp hok htrack hcancelled =>
    refine .inl ⟨by simp [failed, hcancelled], ?_, fun h => absurd rfl h, rfl⟩
    simp [Effect.WithinBudget]
  | givesUp hp hok htrack hcancelled hspent =>
    have hfailed : (!before.cancelled && true) = true := by rw [hcancelled]; rfl
    exact .inr (.inl ⟨_, ⟨hfailed, ⟨_, rfl, fun _ => trivial⟩, hp, rfl⟩, hspent, rfl⟩)
  | waits hp hok htrack hcancelled hleft =>
    have hfailed : (!before.cancelled && true) = true := by rw [hcancelled]; rfl
    exact .inr (.inr ⟨⟨hfailed, ⟨_, rfl, fun _ => trivial⟩, hp, rfl⟩, hleft⟩)
  | reconnects hw =>
    refine .inl ⟨failed_of_silent (reconnect_writes_nothing before _), ?_, fun _ h => ?_, rfl⟩
    · intro y hy failures
      obtain ⟨room, rfl⟩ | ⟨call, rfl⟩ := reconnect_effects hy
      · trivial
      · trivial
    · exact absurd (hw.symm.trans h) (by decide)

/-- The attempts are the failures of the run so far. -/
def Spent (s : Loop) (l : LoopLog) : Prop :=
  s.phase ≠ .returned → s.attempts = l.countP failed ∧ s.attempts ≤ maxReconnectAttempts

theorem Spent.step {x : LoopEntry} (h : Spent x.before past)
    (hdoes : Does x.before x.event x.after x.output) : Spent x.after (x :: past) := by
  intro hrunning
  rw [List.countP_cons]
  rcases budget_cases hdoes with hx | ⟨text, hx, hspent, hreturned⟩ | ⟨hx, hleft⟩
  · obtain ⟨hcount, hmax⟩ := h (hx.running hrunning)
    rw [hx.attempts, hx.failed]
    exact ⟨hcount, hmax⟩
  · exact absurd hreturned hrunning
  · obtain ⟨hcount, hmax⟩ := h (by rw [hx.publishing]; decide)
    rw [hx.attempts, hx.failed, hcount]
    exact ⟨rfl, hcount ▸ hleft⟩

theorem Failure.streak {x : LoopEntry} {answer : Effect} (h : Failure x answer) :
    failuresInARow (x :: past) = failuresInARow past + 1 := by
  have hnot : ¬ succeeded x = true := fun hs =>
    Bool.false_ne_true ((not_failed_of_succeeded hs).symm.trans h.failed)
  rw [failuresInARow, if_neg hnot, if_pos h.failed]

theorem Failure.within_iff {x : LoopEntry} {answer : Effect} (h : Failure x answer) :
    BudgetPerOutage x past ↔ answer.WithinBudget (failuresInARow past + 1) := by
  obtain ⟨write, hout, hwrite⟩ := h.output
  rw [BudgetPerOutage, hout, h.streak, List.forall_mem_cons, List.forall_mem_singleton]
  exact and_iff_right (hwrite _)

theorem delay_inj {m n : Nat} :
    reconnectBaseDelay * 2 ^ m = reconnectBaseDelay * 2 ^ n ↔ m = n := by
  have hbase : reconnectBaseDelay ≠ 0 := by decide
  have hcast (k : Nat) : (2 : Int) ^ k = ((2 ^ k : Nat) : Int) := by simp
  rw [Int.mul_eq_mul_left_iff hbase, hcast, hcast, Int.natCast_inj, Nat.pow_right_inj (by decide)]

theorem Spent.budget_iff {x : LoopEntry} (h : Spent x.before past)
    (hdoes : Does x.before x.event x.after x.output) :
    BudgetPerOutage x past ↔ OneOutage x past := by
  obtain ⟨hle, hrecovered⟩ := recovered_iff past
  rcases budget_cases hdoes with hx | ⟨text, hx, hspent, -⟩ | ⟨hx, hleft⟩
  · refine iff_of_true (fun y hy => hx.within y hy _) fun hf => ?_
    exact absurd (hx.failed.symm.trans hf) Bool.false_ne_true
  · obtain ⟨hcount, hmax⟩ := h (by rw [hx.publishing]; decide)
    rw [hx.within_iff, OneOutage, hrecovered, imp_iff_right hx.failed, Effect.WithinBudget]
    omega
  · obtain ⟨hcount, hmax⟩ := h (by rw [hx.publishing]; decide)
    rw [hx.within_iff, OneOutage, hrecovered, imp_iff_right hx.failed, Effect.WithinBudget, hcount,
      Nat.add_sub_cancel, delay_inj]
    omega

/-- The budget is that of one outage in exactly the runs in which no outage
follows a recovered one. -/
theorem budgetPerOutage_iff (fps : Int) (es : List Event) :
    Always BudgetPerOutage ((publishLoop fps).log es) ↔
      Always OneOutage ((publishLoop fps).log es) := by
  refine System.always_iff (fun l => Spent ((publishLoop fps).state l) l)
    (fun _ => ⟨rfl, Nat.zero_le _⟩) ?_ es
  intro past e h
  have hdoes := step_does ((publishLoop fps).state past) e
  exact ⟨h.budget_iff (x := (publishLoop fps).react _ e) hdoes,
    fun _ => h.step (x := (publishLoop fps).react _ e) hdoes⟩

/-- Four writes fail, each of the first three behind a reconnect that restored publishing. -/
theorem recovered_outages_give_up :
    ¬ Always BudgetPerOutage ((publishLoop 30).log
      [.sample idrSlice (some "room closed"), .sample idrSlice none, .timer .succeeds,
        .sample idrSlice (some "room closed"), .sample idrSlice none, .timer .succeeds,
        .sample idrSlice (some "room closed"), .sample idrSlice none, .timer .succeeds,
        .sample idrSlice (some "room closed")]) := by
  decide

end Rvep.Livekit
