import Rvep.Cockpit.ControlChannel
import Rvep.Edge.Laws

/-!
# Commands over a channel that reorders, repeats and loses

Any number of control channels send to one edge and nothing is assumed of the
transport: every message ever sent may reach `handleCommand` at any time, any
number of times or never. The epoch / seq filter alone puts the commands that
take effect in order.
-/

namespace Rvep.Replay

open Reactive Cockpit

structure Message where
  session : Nat
  command : ControlCommand

structure State where
  channels : List ControlChannel
  /-- Everything sent so far, oldest first. -/
  sent : List Message
  edge : Edge.Agent

inductive Event where
  | openSession (identity : Identity)
  | send (session : Nat) (now : Instant) (what : Send)
  /-- A copy of the `index`-th message arrives. -/
  | arrive (index : Nat) (clock : Edge.Reading)
  | edgeTick (clock : Edge.Reading)
  | edgeConnected (clock : Edge.Reading)
  | edgeDisconnected (clock : Edge.Reading)

/-- What the edge did with a message: whether it passed the filter, and its effects. -/
structure Arrival where
  index : Nat
  message : Message
  passed : Bool
  effects : List Edge.Effect

variable (vehicle : Edge.VehicleId)

def send (session : Nat) (now : Instant) (what : Send) (s : State) : State :=
  match s.channels[session]? with
  | none => s
  | some channel =>
    let (channel, out) := what.run now channel
    { s with channels := s.channels.set session channel, sent := s.sent ++ [⟨session, out.payload⟩] }

def arrive (index : Nat) (clock : Edge.Reading) (s : State) : State × Option Arrival :=
  match s.sent[index]? with
  | none => (s, none)
  | some message =>
    let cmd := message.command
    let (edge, effects) := Edge.handleCommand vehicle clock cmd s.edge
    let passed := (Edge.dedupe cmd.connectionEpoch cmd.seq s.edge.state).2
    ({ s with edge := edge }, some ⟨index, message, passed, effects⟩)

def step (s : State) : Event → State × Option Arrival
  | .openSession identity => ({ s with channels := s.channels ++ [.new identity] }, none)
  | .send session now what => (send session now what s, none)
  | .arrive index clock => arrive vehicle index clock s
  | .edgeTick clock => ({ s with edge := (Edge.heartbeatTick vehicle clock s.edge).1 }, none)
  | .edgeConnected clock => ({ s with edge := (Edge.onConnected vehicle clock s.edge).1 }, none)
  | .edgeDisconnected clock => ({ s with edge := (Edge.onDisconnected vehicle clock s.edge).1 }, none)

def channel (edgeSession : String) : System State Event (Option Arrival) where
  init := { channels := [], sent := [], edge := Edge.Agent.boot edgeSession }
  step := step vehicle

abbrev ReplayEntry := Entry State Event (Option Arrival)
abbrev ReplayLog := Log State Event (Option Arrival)

-- ---------------------------------------------------------------------------
-- Order, effects and resumes
-- ---------------------------------------------------------------------------

/-- The arrivals that passed the filter, newest first. -/
def passed (past : ReplayLog) : List Arrival := past.filterMap fun x => x.output.filter (·.passed)

def PassInOrder (past : ReplayLog) : Prop :=
  (passed past).Pairwise fun later earlier =>
    Edge.markOf earlier.message.command < Edge.markOf later.message.command

/-- The arrival of a message changes the edge or makes it act. -/
def TakesEffect (x : ReplayEntry) (index : Nat) : Prop :=
  ∃ a, x.output = some a ∧ a.index = index ∧ (x.after.edge ≠ x.before.edge ∨ a.effects ≠ [])

def EffectOnce (x : ReplayEntry) (past : ReplayLog) : Prop :=
  ∀ index, TakesEffect x index → ∀ y ∈ past, ¬ TakesEffect y index

/-- A movement that executes was sent after every resume of its session that has passed. -/
def MovesAfterResume (x : ReplayEntry) (past : ReplayLog) : Prop :=
  ∀ a axes, x.output = some a → Edge.Effect.movement axes ∈ a.effects →
    ∀ r ∈ passed past, r.message.session = a.message.session →
      ∀ acknowledgement, r.message.command.body = .resumeControl acknowledgement → r.index < a.index

-- ---------------------------------------------------------------------------
-- What a step does
-- ---------------------------------------------------------------------------

section
variable {vehicle}

theorem arrive_eq {index : Nat} {s : State} {message : Message} (clock : Edge.Reading)
    (h : s.sent[index]? = some message) :
    arrive vehicle index clock s =
      ({ s with edge := (Edge.handleCommand vehicle clock message.command s.edge).1 },
        some ⟨index, message,
          (Edge.dedupe message.command.connectionEpoch message.command.seq s.edge.state).2,
          (Edge.handleCommand vehicle clock message.command s.edge).2⟩) := by
  rw [arrive, h]

/-- Dropped, a numbered command has no effect at all. -/
theorem handleCommand_stale {clock : Edge.Reading} {cmd : ControlCommand} {a : Edge.Agent}
    (h : (Edge.dedupe cmd.connectionEpoch cmd.seq a.state).2 = false) (hseq : 0 < cmd.seq) :
    Edge.handleCommand vehicle clock cmd a = (a, []) := by
  rw [Edge.handleCommand_eq, h, Edge.dedupe_stale h hseq]
  rfl

/-- A message is numbered by its channel, which has gone no further back. -/
def Stamped (s : State) (m : Message) : Prop :=
  ∃ ch, s.channels[m.session]? = some ch ∧ m.command.connectionEpoch = ch.identity.connectionEpoch ∧
    0 < m.command.seq ∧ m.command.seq ≤ ch.seq

def SentInOrder (sent : List Message) : Prop :=
  sent.Pairwise fun a b => a.session = b.session → Edge.markOf a.command < Edge.markOf b.command

structure Numbered (s : State) : Prop where
  stamped : ∀ m ∈ s.sent, Stamped s m
  ordered : SentInOrder s.sent

theorem Numbered.send {s : State} (h : Numbered s) (session : Nat) (now : Instant) (what : Send) :
    Numbered (send session now what s) := by
  unfold Replay.send
  cases hs : s.channels[session]? with
  | none => exact h
  | some ch =>
    obtain ⟨hid, hseq, hfields⟩ := what.run_spec now ch
    have hlt : session < s.channels.length := (List.getElem?_eq_some_iff.mp hs).1
    simp only
    have hepoch : (what.run now ch).2.payload.connectionEpoch = ch.identity.connectionEpoch := by
      rw [hfields]
      rfl
    have hnumber : (what.run now ch).2.payload.seq = ch.seq + 1 := by
      rw [hfields]
      rfl
    refine ⟨?_, ?_⟩
    · intro m hm
      rcases List.mem_append.mp hm with hm | hm
      · obtain ⟨ch', hch, he, hpos, hle⟩ := h.stamped m hm
        by_cases hk : m.session = session
        · obtain rfl : ch = ch' := Option.some.inj (hs.symm.trans (hk ▸ hch))
          refine ⟨(what.run now ch).1, ?_, by rw [hid]; exact he, hpos, by rw [hseq]; omega⟩
          rw [hk]
          exact List.getElem?_set_self hlt
        · exact ⟨ch', by rw [List.getElem?_set_ne (Ne.symm hk)]; exact hch, he, hpos, hle⟩
      · rw [List.mem_singleton.mp hm]
        refine ⟨(what.run now ch).1, List.getElem?_set_self hlt, by rw [hid]; exact hepoch, ?_, ?_⟩
        · rw [hnumber]
          exact Nat.succ_pos _
        · rw [hnumber, hseq]
    · refine List.pairwise_append.mpr ⟨h.ordered, List.pairwise_singleton .., ?_⟩
      intro m hm m' hm' hk
      obtain rfl := List.mem_singleton.mp hm'
      have hk : m.session = session := hk
      obtain ⟨ch', hch, he, -, hle⟩ := h.stamped m hm
      obtain rfl : ch = ch' := Option.some.inj (hs.symm.trans (hk ▸ hch))
      rw [Edge.markOf, Edge.markOf, Prod.Lex.toLex_lt_toLex]
      exact .inr ⟨he.trans hepoch.symm, by simp only [hnumber]; omega⟩

theorem Numbered.step {s : State} (h : Numbered s) (e : Event) : Numbered (step vehicle s e).1 := by
  cases e with
  | openSession identity =>
    refine ⟨?_, h.ordered⟩
    intro m hm
    obtain ⟨ch, hch, hrest⟩ := h.stamped m hm
    have hlt := (List.getElem?_eq_some_iff.mp hch).1
    exact ⟨ch, by rw [← hch]; exact List.getElem?_append_left hlt, hrest⟩
  | send session now what => exact h.send session now what
  | arrive index clock =>
    simp only [Replay.step, arrive]
    split
    · exact h
    · exact ⟨h.stamped, h.ordered⟩
  | edgeTick | edgeConnected | edgeDisconnected => exact ⟨h.stamped, h.ordered⟩

variable (vehicle) in
/-- A message arrives at the edge's handler, or the step sends, opens, or runs
one of the edge's own events. -/
theorem step_cases (s : State) (e : Event) :
    (∃ index clock message, s.sent[index]? = some message ∧
        step vehicle s e = arrive vehicle index clock s) ∨
      (step vehicle s e).2 = none ∧ s.sent <+: (step vehicle s e).1.sent ∧
        (step vehicle s e).1.edge.state.mark = s.edge.state.mark := by
  cases e with
  | openSession identity => exact .inr ⟨rfl, List.prefix_refl _, rfl⟩
  | send session now what =>
    refine .inr ⟨rfl, ?_⟩
    simp only [step, send]
    split
    · exact ⟨List.prefix_refl _, rfl⟩
    · exact ⟨List.prefix_append .., rfl⟩
  | arrive index clock =>
    cases h : s.sent[index]? with
    | none => exact .inr (by simp [step, arrive, h])
    | some message => exact .inl ⟨index, clock, message, h, rfl⟩
  | edgeTick clock => exact .inr ⟨rfl, List.prefix_refl _, Edge.step_mark s.edge ⟨clock, .tick⟩⟩
  | edgeConnected clock =>
    exact .inr ⟨rfl, List.prefix_refl _, Edge.step_mark s.edge ⟨clock, .connected⟩⟩
  | edgeDisconnected clock =>
    exact .inr ⟨rfl, List.prefix_refl _, Edge.step_mark s.edge ⟨clock, .disconnected⟩⟩

end

-- ---------------------------------------------------------------------------
-- Runs
-- ---------------------------------------------------------------------------

/-- The edge's watermark covers every command that passed, and only those took effect. -/
structure Tracks (past : ReplayLog) (s : State) : Prop where
  numbered : Numbered s
  read : ∀ a ∈ passed past, s.sent[a.index]? = some a.message
  covered : ∀ a ∈ passed past, Edge.markOf a.message.command ≤ s.edge.state.mark
  effects : ∀ y ∈ past, ∀ index, TakesEffect y index → ∃ a ∈ passed past, a.index = index
  inOrder : PassInOrder past

section
variable {vehicle} {past : ReplayLog} {s : State} (edgeSession : String)

theorem tracks_start : Tracks [] (channel vehicle edgeSession).init where
  numbered := ⟨by simp [channel], List.Pairwise.nil⟩
  read := by simp [passed]
  covered := by simp [passed]
  effects := by simp
  inOrder := List.Pairwise.nil

theorem passed_cons_none {x : ReplayEntry} (h : x.output = none) :
    passed (x :: past) = passed past := by simp [passed, h]

theorem passed_cons_some {x : ReplayEntry} {a : Arrival} (h : x.output = some a) :
    passed (x :: past) = if a.passed then a :: passed past else passed past := by
  cases hp : a.passed <;> simp [passed, h, hp, Option.filter]

/-- What passes lies above all that has passed before. -/
theorem Tracks.above (h : Tracks past s) {cmd : ControlCommand}
    (hp : (Edge.dedupe cmd.connectionEpoch cmd.seq s.edge.state).2 = true) {a : Arrival}
    (ha : a ∈ passed past) : Edge.markOf a.message.command < Edge.markOf cmd :=
  (h.covered a ha).trans_lt ((Edge.dedupe_fresh ..).mp hp).2

theorem SentInOrder.lt {sent : List Message} (h : SentInOrder sent) {i j : Nat} {a b : Message}
    (hij : i < j) (ha : sent[i]? = some a) (hb : sent[j]? = some b) (hk : a.session = b.session) :
    Edge.markOf a.command < Edge.markOf b.command := by
  obtain ⟨hi, rfl⟩ := List.getElem?_eq_some_iff.mp ha
  obtain ⟨hj, rfl⟩ := List.getElem?_eq_some_iff.mp hb
  exact List.pairwise_iff_getElem.mp h i j hi hj hij hk

/-- A numbered command that is dropped leaves the edge as it was. -/
theorem Tracks.stale (h : Tracks past s) {index : Nat} {message : Message} (clock : Edge.Reading)
    (hm : s.sent[index]? = some message)
    (hp : (Edge.dedupe message.command.connectionEpoch message.command.seq s.edge.state).2 = false) :
    arrive vehicle index clock s = (s, some ⟨index, message, false, []⟩) := by
  obtain ⟨-, -, -, hpos, -⟩ := h.numbered.stamped message (List.mem_of_getElem? hm)
  rw [arrive_eq clock hm, handleCommand_stale hp hpos, hp]

/-- A step lets one more command pass, above all that passed before, or it has
no effect on the edge through a message. -/
theorem Tracks.cases (h : Tracks past s) (e : Event) :
    let x := (channel vehicle edgeSession).react s e
    (∃ a, x.output = some a ∧ passed (x :: past) = a :: passed past ∧
        s.sent[a.index]? = some a.message ∧ x.after.sent = s.sent ∧
        x.after.edge.state.mark = max s.edge.state.mark (Edge.markOf a.message.command) ∧
        ∀ r ∈ passed past, Edge.markOf r.message.command < Edge.markOf a.message.command) ∨
      passed (x :: past) = passed past ∧ s.sent <+: x.after.sent ∧
        x.after.edge.state.mark = s.edge.state.mark ∧
        ∀ a, x.output = some a → a.effects = [] ∧ x.after.edge = s.edge := by
  intro x
  rcases step_cases vehicle s e with ⟨index, clock, message, hm, heq⟩ | ⟨hout, hsent, hmark⟩
  · cases hp : (Edge.dedupe message.command.connectionEpoch message.command.seq s.edge.state).2 with
    | false =>
      have hstale := heq.trans (h.stale clock hm hp)
      have hout : x.output = some ⟨index, message, false, []⟩ := congrArg Prod.snd hstale
      have hafter : x.after = s := congrArg Prod.fst hstale
      refine .inr ⟨passed_cons_some hout, hafter ▸ List.prefix_refl _, by rw [hafter], ?_⟩
      intro a ha
      obtain rfl := Option.some.inj (hout.symm.trans ha)
      exact ⟨rfl, congrArg State.edge hafter⟩
    | true =>
      have hpass := heq.trans (arrive_eq clock hm)
      rw [hp] at hpass
      have hafter : x.after = _ := congrArg Prod.fst hpass
      have hout : x.output = some ⟨index, message, true, _⟩ := congrArg Prod.snd hpass
      refine .inl ⟨_, hout, passed_cons_some hout, hm, by rw [hafter], ?_, fun r hr => h.above hp hr⟩
      rw [hafter]
      exact Edge.handleCommand_mark ..
  · exact .inr ⟨passed_cons_none hout, hsent, hmark, fun a ha => absurd (hout.symm.trans ha) nofun⟩

theorem Tracks.step (h : Tracks past s) (e : Event) :
    let x := (channel vehicle edgeSession).react s e
    Tracks (x :: past) x.after := by
  intro x
  have hnum : Numbered x.after := h.numbered.step e
  rcases h.cases edgeSession e with ⟨a, hout, hpassed, hm, hsent, hmark, habove⟩ |
    ⟨hpassed, ⟨rest, hsent⟩, hmark, hnone⟩
  · refine ⟨hnum, ?_, ?_, ?_, ?_⟩
    · rw [hpassed, hsent, List.forall_mem_cons]
      exact ⟨hm, h.read⟩
    · rw [hpassed, hmark, List.forall_mem_cons]
      exact ⟨le_max_right .., fun r hr => (h.covered r hr).trans (le_max_left ..)⟩
    · rw [hpassed]
      rintro y hy i hi
      rcases List.mem_cons.mp hy with rfl | hy
      · obtain ⟨a', ha', hidx, -⟩ := hi
        obtain rfl := Option.some.inj (hout.symm.trans ha')
        exact ⟨a, List.mem_cons_self, hidx⟩
      · obtain ⟨r, hr, hidx⟩ := h.effects y hy i hi
        exact ⟨r, List.mem_cons_of_mem _ hr, hidx⟩
    · rw [PassInOrder, hpassed]
      exact List.pairwise_cons.mpr ⟨habove, h.inOrder⟩
  · refine ⟨hnum, ?_, ?_, ?_, ?_⟩
    · rw [hpassed, ← hsent]
      intro r hr
      have hread := h.read r hr
      rw [List.getElem?_append_left (List.getElem?_eq_some_iff.mp hread).1]
      exact hread
    · rw [hpassed, hmark]
      exact h.covered
    · rw [hpassed]
      rintro y hy i hi
      rcases List.mem_cons.mp hy with rfl | hy
      · obtain ⟨a, ha, -, hbad⟩ := hi
        obtain ⟨hquiet, hsame⟩ := hnone a ha
        exact absurd hbad (not_or.mpr ⟨not_not.mpr hsame, not_not.mpr hquiet⟩)
      · exact h.effects y hy i hi
    · rw [PassInOrder, hpassed]
      exact h.inOrder

theorem Tracks.ordered (h : Tracks past s) (e : Event) :
    let x := (channel vehicle edgeSession).react s e
    EffectOnce x past ∧ MovesAfterResume x past := by
  intro x
  rcases h.cases edgeSession e with ⟨a, hout, -, hm, -, -, habove⟩ | ⟨-, -, -, hnone⟩
  · -- what has passed before is not this message again
    have hother : ∀ r ∈ passed past, r.index ≠ a.index := by
      intro r hr heq
      have hsame : r.message = a.message := Option.some.inj ((h.read r hr).symm.trans (heq ▸ hm))
      exact lt_irrefl _ (hsame ▸ habove r hr)
    refine ⟨?_, ?_⟩
    · rintro i ⟨a', ha', rfl, -⟩ y hy hi
      obtain rfl := Option.some.inj (hout.symm.trans ha')
      obtain ⟨r, hr, hidx⟩ := h.effects y hy _ hi
      exact hother r hr hidx
    · intro a' axes ha' _ r hr hk acknowledgement _
      obtain rfl := Option.some.inj (hout.symm.trans ha')
      rcases lt_trichotomy r.index a.index with hlt | heq | hgt
      · exact hlt
      · exact absurd heq (hother r hr)
      · have hlt := h.numbered.ordered.lt hgt hm (h.read r hr) hk.symm
        exact absurd hlt (habove r hr).not_gt
  · refine ⟨?_, ?_⟩
    · rintro i ⟨a, ha, -, hbad⟩
      obtain ⟨hquiet, hsame⟩ := hnone a ha
      exact absurd hbad (not_or.mpr ⟨not_not.mpr hsame, not_not.mpr hquiet⟩)
    · intro a axes ha hmove
      rw [(hnone a ha).1] at hmove
      exact absurd hmove List.not_mem_nil

end

/-- Whatever the transport does, and whether or not the epochs are distinct:
the commands that pass the filter increase, each message takes effect at most
once, and no movement executes after a later resume of its session has passed. -/
theorem commands_pass_in_order (edgeSession : String) (es : List Event) :
    PassInOrder ((channel vehicle edgeSession).log es) ∧
      Always EffectOnce ((channel vehicle edgeSession).log es) ∧
      Always MovesAfterResume ((channel vehicle edgeSession).log es) := by
  suffices h : Tracks ((channel vehicle edgeSession).log es)
      ((channel vehicle edgeSession).state ((channel vehicle edgeSession).log es)) ∧
      Always EffectOnce ((channel vehicle edgeSession).log es) ∧
      Always MovesAfterResume ((channel vehicle edgeSession).log es) from ⟨h.1.inOrder, h.2⟩
  induction es with
  | nil => exact ⟨tracks_start edgeSession, trivial, trivial⟩
  | cons e es ih =>
    obtain ⟨htracks, honce, hmoves⟩ := ih
    obtain ⟨honce', hmoves'⟩ := htracks.ordered edgeSession e
    exact ⟨htracks.step edgeSession e, ⟨honce', honce⟩, hmoves', hmoves⟩

end Rvep.Replay
