import Rvep.R2Bridge.Main

/-!
# Stops over runs of the bridge

A stop zeroes every motor topic, but the bridge keeps no safe mode: the next
movement packet drives again, and so does one the stop has overtaken. The
watchdog stops the vehicle once after each silence that follows a heartbeat.
-/

namespace Rvep.R2Bridge

open Reactive

abbrev BridgeEntry := Entry Bridge Stamped (List Effect)
abbrev BridgeLog := Log Bridge Stamped (List Effect)

-- ---------------------------------------------------------------------------
-- What a step publishes
-- ---------------------------------------------------------------------------

def Effect.twistOn (topic : Topic) : Effect → Option Twist
  | .twist t msg => if t = topic then some msg else none
  | _ => none

def twistsOn (topic : Topic) (out : List Effect) : List Twist := out.filterMap (Effect.twistOn topic)

def lastTwist (topic : Topic) : BridgeLog → Option Twist := latest fun x => twistsOn topic x.output

def Packet.kind? (packet : Packet) : Option Kind :=
  match packet with
  | .error _ => none
  | .ok cmd =>
    match cmd.get "type" .none with
    | .error _ => none
    | .ok kind => some (Kind.ofType kind)

def Event.kind? : Event → Option Kind
  | .data packet => packet.kind?
  | _ => none

def Handles (kind : Kind) (x : BridgeEntry) : Prop := x.event.event.kind? = some kind

def Quiet (out : List Effect) : Prop := ∀ topic, twistsOn topic out = []

variable (cfg : Config)

def Trips (x : BridgeEntry) : Prop :=
  x.event.event = .poll ∧ x.before.watchdog.expires cfg.heartbeatTimeoutS x.event.clock = true

/-- A stop is published: by the operator, the watchdog, a disconnect or the shutdown. -/
def Stops (x : BridgeEntry) : Prop :=
  Handles .emergencyStop x ∨ Trips cfg x ∨ x.event.event = .disconnected ∨ x.event.event = .shutdown

/-- What a step publishes on the Twist topics, by what it handles. -/
inductive Published (x : BridgeEntry) : Prop where
  | stop (stops : Stops cfg x) (sent : List Effect) (quiet : Quiet sent)
      (output : x.output = cfg.adapter.publishEmergencyStop ++ sent)
  | movement (moves : Handles .movement x) (cmd : PyValue) (packet : x.event.event = .data (.ok cmd))
      (output : x.output = onMovement cfg cmd)
  | none (stays : ¬ Stops cfg x) (still : ¬ Handles .movement x) (quiet : Quiet x.output)

section
variable {cfg}

@[simp] theorem twistsOn_nil (topic : Topic) : twistsOn topic [] = [] := rfl

@[simp] theorem twistsOn_append (topic : Topic) (out out' : List Effect) :
    twistsOn topic (out ++ out') = twistsOn topic out ++ twistsOn topic out' :=
  List.filterMap_append

variable (cfg) in
theorem quiet_publishSafety (r : Reading) (eventName : SafetyEventName) (reason : Option String)
    (b : Bridge) : Quiet (publishSafety cfg r eventName reason b).2 := fun _ => rfl

theorem emergencyStop_not_motor (a : WheeltecAMRAdapter) : .rvepEmergencyStop ∉ a.motorTopics := by
  unfold WheeltecAMRAdapter.motorTopics
  cases a.publishMode <;> decide

theorem nodup_motorTopics (a : WheeltecAMRAdapter) : a.motorTopics.Nodup := by
  unfold WheeltecAMRAdapter.motorTopics
  cases a.publishMode <;> decide

theorem twistsOn_map (msg : Twist) {topic : Topic} {topics : List Topic} (hnodup : topics.Nodup) :
    twistsOn topic (topics.map (.twist · msg)) = if topic ∈ topics then [msg] else [] := by
  induction topics with
  | nil => rfl
  | cons t topics ih =>
    obtain ⟨hnot, hnodup⟩ := List.nodup_cons.mp hnodup
    simp only [List.map_cons, twistsOn, List.filterMap_cons, Effect.twistOn] at ih ⊢
    rw [ih hnodup]
    by_cases ht : t = topic
    · subst ht
      simp [hnot]
    · simp [ht, Ne.symm ht]

theorem twistsOn_publishEmergencyStop (a : WheeltecAMRAdapter) {topic : Topic}
    (h : topic ∈ a.motorTopics) : twistsOn topic a.publishEmergencyStop = [.zero] := by
  have hne : topic ≠ .rvepEmergencyStop := fun heq => emergencyStop_not_motor a (heq ▸ h)
  have hfirst : Effect.twistOn topic (.twist .rvepEmergencyStop .zero) = none := if_neg hne.symm
  rw [WheeltecAMRAdapter.publishEmergencyStop, twistsOn, List.filterMap_cons_none hfirst]
  exact (twistsOn_map .zero (nodup_motorTopics a)).trans (if_pos h)

theorem zero_of_publishEmergencyStop {a : WheeltecAMRAdapter} {topic : Topic} {msg : Twist}
    (h : .twist topic msg ∈ a.publishEmergencyStop) : msg = .zero := by
  rcases List.mem_cons.mp h with h | h
  · exact (Effect.twist.inj h).2
  · obtain ⟨t, -, ht⟩ := List.mem_map.mp h
    exact (Effect.twist.inj ht).2.symm

theorem poll_of_expires (b : Bridge) (h : b.watchdog.expires cfg.heartbeatTimeoutS r = true) :
    poll cfg r b = triggerStop cfg { b with watchdog := { b.watchdog with tripped := true } } :=
  if_pos h

theorem poll_of_not_expires (b : Bridge) (h : ¬ b.watchdog.expires cfg.heartbeatTimeoutS r = true) :
    poll cfg r b = (b, []) :=
  if_neg h

variable (cfg) in
theorem quiet_runTask (r : Reading) (b : Bridge) : Quiet (runTask cfg r b).2 := by
  unfold runTask
  cases b.tasks with
  | nil => exact fun _ => rfl
  | cons task tasks => exact quiet_publishSafety cfg r task.eventName task.reason _

variable (cfg) in
theorem onData_twists (r : Reading) (packet : Packet) (b : Bridge) :
    let out := (onData cfg r packet b).2
    (packet.kind? = some .emergencyStop ∧ out = cfg.adapter.publishEmergencyStop) ∨
      (packet.kind? = some .movement ∧ ∃ cmd, packet = .ok cmd ∧ out = onMovement cfg cmd) ∨
      packet.kind? ≠ some .emergencyStop ∧ packet.kind? ≠ some .movement ∧ Quiet out := by
  intro out
  cases packet with
  | error err =>
    refine .inr (.inr ⟨nofun, nofun, ?_⟩)
    cases err <;> exact fun _ => rfl
  | ok cmd =>
    cases hget : cmd.get "type" .none with
    | error err =>
      have hkind : Packet.kind? (.ok cmd) = none := by simp [Packet.kind?, hget]
      have hout : out = [.raised err] := by simp [out, onData, hget]
      rw [hkind, hout]
      exact .inr (.inr ⟨nofun, nofun, fun _ => rfl⟩)
    | ok type =>
      have hkind : Packet.kind? (.ok cmd) = some (Kind.ofType type) := by simp [Packet.kind?, hget]
      rw [hkind]
      cases hof : Kind.ofType type with
      | emergencyStop => exact .inl ⟨rfl, by simp [out, onData, hget, hof]⟩
      | movement => exact .inr (.inl ⟨rfl, cmd, rfl, by simp [out, onData, hget, hof]⟩)
      | heartbeat =>
        refine .inr (.inr ⟨nofun, nofun, ?_⟩)
        simp [out, onData, hget, hof, Quiet]
      | resumeControl =>
        refine .inr (.inr ⟨nofun, nofun, ?_⟩)
        simp [out, onData, hget, hof, Quiet]
      | unknown =>
        refine .inr (.inr ⟨nofun, nofun, ?_⟩)
        simp [out, onData, hget, hof, Quiet]

variable (cfg) in
theorem step_published (b : Bridge) (e : Stamped) : Published cfg ((bridge cfg).react b e) := by
  obtain ⟨clock, event⟩ := e
  cases event with
  | data packet =>
    have hstops (h : Stops cfg ((bridge cfg).react b ⟨clock, .data packet⟩)) :
        packet.kind? = some .emergencyStop := by
      simpa [Stops, Trips, Handles, Event.kind?] using h
    rcases onData_twists cfg clock packet b with
      ⟨hkind, hout⟩ | ⟨hkind, cmd, rfl, hout⟩ | ⟨hstop, hmove, hquiet⟩
    · exact .stop (.inl hkind) [] (fun _ => rfl) (hout.trans (List.append_nil _).symm)
    · exact .movement hkind cmd rfl hout
    · exact .none (fun h => hstop (hstops h)) hmove hquiet
  | poll =>
    by_cases hexp : b.watchdog.expires cfg.heartbeatTimeoutS clock = true
    · refine .stop (.inr (.inl ⟨rfl, hexp⟩)) [] (fun _ => rfl) ?_
      exact (congrArg Prod.snd (poll_of_expires b hexp)).trans (List.append_nil _).symm
    · refine .none ?_ nofun ?_
      · simpa [Stops, Trips, Handles, Event.kind?] using hexp
      · have hout : (poll cfg clock b).2 = [] := congrArg Prod.snd (poll_of_not_expires b hexp)
        intro topic
        exact congrArg (twistsOn topic) hout
  | task =>
    refine .none ?_ nofun (quiet_runTask cfg clock b)
    simp [Stops, Trips, Handles, Event.kind?]
  | connected | onlineSent | autoResumed =>
    refine .none ?_ nofun fun _ => rfl
    simp [Stops, Trips, Handles, Event.kind?]
  | disconnected =>
    exact .stop (.inr (.inr (.inl rfl))) [] (fun _ => rfl) (List.append_nil _).symm
  | shutdown =>
    exact .stop (.inr (.inr (.inr rfl))) _
      (quiet_publishSafety cfg clock .edgeDisconnecting (some "bridge_shutdown") b) rfl

theorem Quiet.not_mem {out : List Effect} (h : Quiet out) (topic : Topic) (msg : Twist) :
    .twist topic msg ∉ out := by
  intro hmem
  have hin : msg ∈ twistsOn topic out :=
    List.mem_filterMap.mpr ⟨_, hmem, if_pos rfl⟩
  rw [h topic] at hin
  exact absurd hin List.not_mem_nil

section
variable {x : BridgeEntry}

theorem not_stops_of_movement (h : Handles .movement x) : ¬ Stops cfg x := by
  obtain ⟨_, ⟨_, event⟩, _, _⟩ := x
  cases event with
  | data packet => simp_all [Stops, Trips, Handles, Event.kind?]
  | _ => exact absurd h nofun

theorem Published.stopped (h : Published cfg x) (hs : Stops cfg x) {topic : Topic}
    (ht : topic ∈ cfg.adapter.motorTopics) : (twistsOn topic x.output).getLast? = some .zero := by
  cases h with
  | stop _ sent quiet output =>
    rw [output, twistsOn_append, quiet topic, twistsOn_publishEmergencyStop _ ht]
    rfl
  | movement moves => exact absurd hs (not_stops_of_movement moves)
  | none stays => exact absurd hs stays

theorem Published.still (h : Published cfg x) (hm : ¬ Handles .movement x) {topic : Topic}
    (ht : topic ∈ cfg.adapter.motorTopics) :
    twistsOn topic x.output = [] ∨ (twistsOn topic x.output).getLast? = some .zero := by
  by_cases hs : Stops cfg x
  · exact .inr (h.stopped hs ht)
  · cases h with
    | stop stops => exact absurd stops hs
    | movement moves => exact absurd moves hm
    | none _ _ quiet => exact .inl (quiet topic)

theorem Published.zero (h : Published cfg x) (hm : ¬ Handles .movement x) {topic : Topic}
    {msg : Twist} (hmem : .twist topic msg ∈ x.output) : msg = .zero := by
  cases h with
  | stop _ sent quiet output =>
    rw [output] at hmem
    rcases List.mem_append.mp hmem with hmem | hmem
    · exact zero_of_publishEmergencyStop hmem
    · exact absurd hmem (quiet.not_mem topic msg)
  | movement moves => exact absurd moves hm
  | none _ _ quiet => exact absurd hmem (quiet.not_mem topic msg)

end

end

-- ---------------------------------------------------------------------------
-- After a stop
-- ---------------------------------------------------------------------------

def Stopped : BridgeLog → Prop :=
  Since (fun y _ => ¬ Handles .movement y) fun y _ => Stops cfg y

theorem published (es : List Stamped) :
    Always (fun x _ => Published cfg x) ((bridge cfg).log es) :=
  System.always_react (step_published cfg) es

theorem Stopped.lastTwist {cfg : Config} {l : BridgeLog} (h : Stopped cfg l)
    (hpub : Always (fun x _ => Published cfg x) l) {topic : Topic}
    (ht : topic ∈ cfg.adapter.motorTopics) : lastTwist topic l = some .zero :=
  Since.latest (fun _ _ h => h.2.stopped h.1 ht) (fun _ _ h => h.2.still h.1 ht) (h.and_always hpub)

/-- After a stop no Twist but zero is published, and the motor topics hold
zero, until a movement packet is handled. -/
theorem still_until_movement (es : List Stamped) :
    Always (fun x past => Stopped cfg (x :: past) →
        (∀ topic msg, .twist topic msg ∈ x.output → msg = .zero) ∧
          ∀ topic ∈ cfg.adapter.motorTopics, lastTwist topic (x :: past) = some .zero)
      ((bridge cfg).log es) := by
  refine System.always_of_invariant (fun l => Always (fun x _ => Published cfg x) l) trivial ?_ es
    (published cfg es)
  intro past e hpub hx
  have hnext := And.intro hx hpub
  refine ⟨hnext, fun hstopped => ⟨?_, fun topic ht => hstopped.lastTwist hnext ht⟩⟩
  intro topic msg hmem
  rcases hstopped with hstops | ⟨hstill, -⟩
  · exact hx.zero (fun hmoves => not_stops_of_movement hmoves hstops) hmem
  · exact hx.zero hstill hmem

/-- What an operator of the edge agent would expect: nothing moves between a
stop and the next resume. -/
def LatchesStop (x : BridgeEntry) (past : BridgeLog) : Prop :=
  Since (fun y _ => ¬ Handles .resumeControl y) (fun y _ => Stops cfg y) past →
    ∀ topic ∈ cfg.adapter.motorTopics, ∀ msg, .twist topic msg ∈ x.output → msg = .zero

def r2 : Config where
  vehicleId := "r2-001"
  heartbeatTimeoutS := 3
  adapter := ⟨.mirror, .finite (3 / 10), .finite (4 / 5)⟩
  sessionId := "r2-bridge-0"

def forwardPacket : Packet :=
  .ok (.dict [("type", .str "movement"), ("axes", .dict [("forward", .int 1)])])

/-- The bridge joins its room. Newest first. -/
def joins : List Stamped :=
  [⟨⟨0, 0⟩, .autoResumed⟩, ⟨⟨0, 0⟩, .onlineSent⟩, ⟨⟨0, 0⟩, .connected⟩]

/-- The operator drives and stops; the stop arrives before the movement.
Newest first. -/
def lateMovement : List Stamped :=
  [⟨⟨2, 2000⟩, .data forwardPacket⟩,
   ⟨⟨1, 1000⟩, .data (.ok (.dict [("type", .str "emergency_stop")]))⟩] ++ joins

theorem late_movement_drives : ¬ Always (LatchesStop r2) ((bridge r2).log lateMovement) := by
  intro h
  have hzero := h.1 (.inl (.inl rfl)) .cmdVel (by decide)
    { linear := { x := .finite (3 / 10) } } (by decide +kernel)
  exact absurd hzero (by decide +kernel)

-- ---------------------------------------------------------------------------
-- Silence
-- ---------------------------------------------------------------------------

def seconds (x : BridgeEntry) : ℚ := x.event.clock.loopTime

def Beats (x : BridgeEntry) : Prop := Handles .heartbeat x

def HeardWithin (timeoutS now : ℚ) : BridgeLog → Prop :=
  Once fun y _ => Beats y ∧ now - seconds y ≤ timeoutS

/-- A turn of the watchdog's loop, once it has been started. -/
def Polls (x : BridgeEntry) : Prop :=
  x.event.event = .poll ∧ x.before.watchdog.running = true

instance (x : BridgeEntry) : Decidable (Beats x) := inferInstanceAs (Decidable (_ = _))
instance (timeoutS now : ℚ) (l : BridgeLog) : Decidable (HeardWithin timeoutS now l) :=
  inferInstanceAs (Decidable (Once _ l))

def beatTimes (x : BridgeEntry) : List ℚ := if Beats x then [seconds x] else []

structure Watches (l : BridgeLog) (b : Bridge) : Prop where
  beat : b.watchdog.lastBeat = latest beatTimes l
  tripped : b.watchdog.tripped = true →
    Since (fun y _ => ¬ Beats y) (fun y _ => Trips cfg y) l

section
variable {cfg}

theorem runTask_watchdog (r : Reading) (b : Bridge) :
    (runTask cfg r b).1.watchdog = b.watchdog := by
  unfold runTask
  cases b.tasks <;> rfl

theorem onData_watchdog (r : Reading) (packet : Packet) (b : Bridge) :
    (onData cfg r packet b).1.watchdog =
      if packet.kind? = some .heartbeat then b.watchdog.beat r else b.watchdog := by
  cases packet with
  | error err => cases err <;> rfl
  | ok cmd =>
    cases hget : cmd.get "type" .none with
    | error err => simp [onData, Packet.kind?, hget]
    | ok type =>
      cases hof : Kind.ofType type <;> simp [onData, createTask, Packet.kind?, hget, hof]

variable (cfg) in
theorem step_watchdog (b : Bridge) (e : Stamped) :
    let x := (bridge cfg).react b e
    (Beats x ∧ x.after.watchdog = b.watchdog.beat e.clock) ∨
      (¬ Beats x ∧ Trips cfg x ∧ x.after.watchdog = { b.watchdog with tripped := true }) ∨
      ¬ Beats x ∧ ¬ Trips cfg x ∧ x.after.watchdog.lastBeat = b.watchdog.lastBeat ∧
        x.after.watchdog.tripped = b.watchdog.tripped := by
  intro x
  obtain ⟨clock, event⟩ := e
  cases event with
  | data packet =>
    have hwatch : x.after.watchdog = _ := onData_watchdog clock packet b
    by_cases hbeat : packet.kind? = some .heartbeat
    · exact .inl ⟨hbeat, hwatch.trans (if_pos hbeat)⟩
    · rw [if_neg hbeat] at hwatch
      rw [hwatch]
      exact .inr (.inr ⟨hbeat, nofun, rfl, rfl⟩)
  | poll =>
    by_cases hexp : b.watchdog.expires cfg.heartbeatTimeoutS clock = true
    · refine .inr (.inl ⟨nofun, ⟨rfl, hexp⟩, ?_⟩)
      exact congrArg (fun out => out.1.watchdog) (poll_of_expires b hexp)
    · have hsame : x.after = b := congrArg Prod.fst (poll_of_not_expires b hexp)
      rw [hsame]
      exact .inr (.inr ⟨nofun, fun h => hexp h.2, rfl, rfl⟩)
  | task =>
    have hsame : x.after.watchdog = b.watchdog := runTask_watchdog clock b
    rw [hsame]
    exact .inr (.inr ⟨nofun, nofun, rfl, rfl⟩)
  | connected | onlineSent | autoResumed | disconnected | shutdown =>
    exact .inr (.inr ⟨nofun, nofun, rfl, rfl⟩)

theorem Watches.step {l : BridgeLog} {b : Bridge} (h : Watches cfg l b) (e : Stamped) :
    let x := (bridge cfg).react b e
    Watches cfg (x :: l) x.after := by
  intro x
  rcases step_watchdog cfg b e with
    ⟨hbeat, hafter⟩ | ⟨hno, htrips, hafter⟩ | ⟨hno, htrips, hlast, htripped⟩
  · have htimes : beatTimes x = [seconds x] := if_pos hbeat
    refine ⟨?_, fun htr => ?_⟩
    · rw [hafter, latest_cons, htimes]
      rfl
    · rw [hafter] at htr
      exact absurd htr nofun
  · have htimes : beatTimes x = [] := if_neg hno
    refine ⟨?_, fun _ => .inl htrips⟩
    rw [hafter, latest_cons_of_nil htimes]
    exact h.beat
  · have htimes : beatTimes x = [] := if_neg hno
    refine ⟨?_, fun htr => .inr ⟨hno, h.tripped (htripped.symm.trans htr)⟩⟩
    rw [hlast, latest_cons_of_nil htimes]
    exact h.beat

/-- In a silence that follows a heartbeat, the watchdog has tripped or trips now. -/
theorem Watches.trips {l : BridgeLog} {x : BridgeEntry} (h : Watches cfg l x.before)
    (hpoll : Polls x) (hheard : Once (fun y _ => Beats y) l)
    (hsilent : ¬ HeardWithin cfg.heartbeatTimeoutS (seconds x) l) :
    Since (fun y _ => ¬ Beats y) (fun y _ => Trips cfg y) (x :: l) := by
  have hno : ¬ Beats x := by
    rw [Beats, Handles, hpoll.1]
    exact nofun
  by_cases htripped : x.before.watchdog.tripped = true
  · exact .inr ⟨hno, h.tripped htripped⟩
  have hsome : Once (fun y _ => beatTimes y ≠ []) l := by
    refine hheard.imp (fun _ _ h => h) ?_
    intro y _ hbeat
    rw [beatTimes, if_pos hbeat]
    exact List.cons_ne_nil _ _
  obtain ⟨t, ht⟩ := latest_of_once hsome
  have hlate : cfg.heartbeatTimeoutS < seconds x - t := by
    by_contra hle
    refine hsilent ((once_of_latest ht).imp (fun _ _ h => h) ?_)
    intro y _ hmem
    unfold beatTimes at hmem
    split at hmem
    next hbeat =>
      obtain rfl := List.mem_singleton.mp hmem
      exact ⟨hbeat, not_lt.mp hle⟩
    next => exact absurd hmem List.not_mem_nil
  refine .inl ⟨hpoll.1, ?_⟩
  have hlast : x.before.watchdog.lastBeat = some t := h.beat.trans ht
  have hexpired : decide (cfg.heartbeatTimeoutS < x.event.clock.loopTime - t) = true :=
    decide_eq_true hlate
  simp [Watchdog.expires, hpoll.2, htripped, hlast, hexpired]

end

/-- At every turn of the watchdog's loop in a silence that follows a
heartbeat, the watchdog has tripped since that heartbeat, and the motor topics
hold zero unless a movement packet has been handled since the last trip. -/
theorem silence_trips (es : List Stamped) :
    Always (fun x past => Polls x → Once (fun y _ => Beats y) past →
        ¬ HeardWithin cfg.heartbeatTimeoutS (seconds x) past →
        Since (fun y _ => ¬ Beats y) (fun y _ => Trips cfg y) (x :: past) ∧
          (Since (fun y _ => ¬ Handles .movement y) (fun y _ => Trips cfg y) (x :: past) →
            ∀ topic ∈ cfg.adapter.motorTopics, lastTwist topic (x :: past) = some .zero))
      ((bridge cfg).log es) := by
  refine System.always_of_invariant
    (fun l => Watches cfg l ((bridge cfg).state l) ∧ Always (fun x _ => Published cfg x) l)
    ⟨⟨rfl, nofun⟩, trivial⟩ ?_ es (published cfg es)
  rintro past e ⟨hwatch, hpub⟩ hx
  refine ⟨⟨hwatch.step e, hx, hpub⟩, fun hpoll hheard hsilent => ?_⟩
  refine ⟨hwatch.trips hpoll hheard hsilent, fun hstill topic ht => ?_⟩
  have hstopped : Stopped cfg _ := hstill.imp (fun _ _ h => h) fun _ _ h => .inr (.inl h)
  exact hstopped.lastTwist ⟨hx, hpub⟩ ht

/-- The dead man's switch the README's table promises. -/
def StillInSilence (x : BridgeEntry) (past : BridgeLog) : Prop :=
  Polls x → ¬ HeardWithin cfg.heartbeatTimeoutS (seconds x) past →
    ∀ topic ∈ cfg.adapter.motorTopics, lastTwist topic (x :: past) = some .zero

def heartbeatPacket : Packet := .ok (.dict [("type", .str "heartbeat")])

def pollAt (t : ℚ) : Stamped := ⟨⟨t, 0⟩, .poll⟩

/-- An operator who never sends a heartbeat drives. Newest first. -/
def neverBeating : List Stamped :=
  [pollAt (1 / 2), ⟨⟨1 / 4, 0⟩, .data forwardPacket⟩] ++ joins

/-- So does one whose heartbeats have stopped, once the watchdog has tripped. -/
def drivingOn : List Stamped :=
  [pollAt 4, ⟨⟨15 / 4, 0⟩, .data forwardPacket⟩] ++
    [7 / 2, 3, 5 / 2, 2, 3 / 2, 1, 1 / 2].map pollAt ++
    ⟨⟨1 / 4, 0⟩, .data heartbeatPacket⟩ :: joins

theorem silent_operator_drives :
    ¬ Always (StillInSilence r2) ((bridge r2).log neverBeating) ∧
      ¬ Always (StillInSilence r2) ((bridge r2).log drivingOn) := by
  refine ⟨fun h => ?_, fun h => ?_⟩ <;>
  · have hzero := h.1 ⟨rfl, by decide +kernel⟩ (by decide +kernel) .cmdVel (by decide)
    exact absurd hzero (by decide +kernel)

end Rvep.R2Bridge
