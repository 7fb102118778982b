import Rvep.Lib.Interleaving
import Rvep.Publisher.GoProtocol

/-!
# Sequence numbers on the wire

`apps/edge-publisher-go/internal/ipc/server.go`: the `Send` methods, called
from several goroutines at once. A call draws its number, reads the clock and
writes its line, each atomically and none together with the next.
-/

namespace Rvep.Publisher.Go

open Interleaving Reactive

def Sent.seq : Sent → Int64
  | .hello msg => msg.seq
  | .heartbeat msg => msg.seq
  | .error msg => msg.seq

namespace Server

-- ---------------------------------------------------------------------------
-- The connection
-- ---------------------------------------------------------------------------

inductive IpcCall
  | nextSeq
  | nowISO
  | encode (msg : Sent)

/-- `Encode` answers with its error. -/
def IpcCall.Reply : IpcCall → Type
  | .nextSeq => Int64
  | .nowISO => String
  | .encode _ => Option String

abbrev Ipc := Prog IpcCall IpcCall.Reply

/-- `wire` holds the lines written so far, oldest first. -/
structure Conn where
  seq : Int64
  wire : List Sent

/-- What a call meets: the clock, and whether the socket takes the line. -/
structure Surroundings where
  clock : String
  writeErr : Option String

def IpcCall.exec (e : Surroundings) (c : Conn) : (call : IpcCall) → Conn × call.Reply
  | .nextSeq => ({ c with seq := c.seq + 1 }, c.seq + 1)
  | .nowISO => (c, e.clock)
  | .encode msg =>
    match e.writeErr with
    | none => ({ c with wire := c.wire ++ [msg] }, none)
    | some err => (c, some err)

def nextSeq : Ipc Int64 := .call .nextSeq .done

def nowISO : Ipc String := .call .nowISO .done

def encode (msg : Sent) : Ipc (Option String) := .call (.encode msg) .done

def send (msg : Sent) : Ipc (Option String) := do
  let err ← encode msg
  pure (err.map ("ipc: send: " ++ ·))

def SendHello (cameraID platformID version : String) (pid : Int64) : Ipc (Option String) := do
  let seq ← nextSeq
  let now ← nowISO
  send (.hello (newHello now seq cameraID platformID version pid))

def SendHeartbeat (state : String) (metrics : HeartbeatMetrics) : Ipc (Option String) := do
  let seq ← nextSeq
  let now ← nowISO
  send (.heartbeat (newHeartbeat now seq state metrics))

def SendError (code message : String) (fatal : Bool) : Ipc (Option String) := do
  let seq ← nextSeq
  let now ← nowISO
  send (.error (newError now seq code message fatal))

/-- A call of one of the three methods. -/
inductive Send
  | hello (cameraID platformID version : String) (pid : Int64)
  | heartbeat (state : String) (metrics : HeartbeatMetrics)
  | error (code message : String) (fatal : Bool)

def Send.program : Send → Ipc (Option String)
  | .hello cameraID platformID version pid => SendHello cameraID platformID version pid
  | .heartbeat state metrics => SendHeartbeat state metrics
  | .error code message fatal => SendError code message fatal

/-- A call remembers the number it has drawn. -/
def connWorld : World IpcCall IpcCall.Reply Conn Surroundings (Option Int64) where
  exec := IpcCall.exec
  blank := none
  observe n _ c r :=
    match c, r with
    | .nextSeq, seq => some seq
    | _, _ => n

abbrev Goroutine := Task Send IpcCall IpcCall.Reply (Option String) (Option Int64)
abbrev ConnPool := Pool Send IpcCall IpcCall.Reply (Option String) Conn (Option Int64)
abbrev ConnEvent := Interleaving.Event Send Surroundings

def connection : System ConnPool ConnEvent Unit := pool connWorld Send.program { seq := 0, wire := [] }

-- ---------------------------------------------------------------------------
-- How far a call has come
-- ---------------------------------------------------------------------------

def Send.message (now : String) (seq : Int64) : Send → Sent
  | .hello cameraID platformID version pid => .hello (newHello now seq cameraID platformID version pid)
  | .heartbeat state metrics => .heartbeat (newHeartbeat now seq state metrics)
  | .error code message fatal => .error (newError now seq code message fatal)

@[simp] theorem seq_message (now : String) (seq : Int64) (s : Send) : (s.message now seq).seq = seq := by
  cases s <;> rfl

theorem program_eq (s : Send) :
    s.program = .call .nextSeq fun seq => .call .nowISO fun now => send (s.message now seq) := by
  cases s <;> rfl

/-- The stages of a call: its request, what it has drawn, and what is left of it. -/
inductive Stage (s : Send) : Option Int64 → Ipc (Option String) → Prop
  | fresh : Stage s none (.call .nextSeq fun seq => .call .nowISO fun now => send (s.message now seq))
  | drawn : Stage s (some seq) (.call .nowISO fun now => send (s.message now seq))
  | built : Stage s (some seq)
    (.call (.encode (s.message now seq)) fun err => .done (err.map ("ipc: send: " ++ ·)))
  | sent : Stage s (some seq) (.done err)

/-- The number that a call has drawn and not yet written. -/
def Goroutine.held (t : Goroutine) : Option Int64 :=
  match t.prog with
  | .done _ => none
  | .call _ _ => t.note

/-- The numbers of the lines increase. -/
def InOrder (p : ConnPool) : Prop :=
  (p.world.wire.map fun msg => msg.seq.toInt).Pairwise (· < ·)

/-- A number is drawn before the counter wraps around, and a line goes out when
no call holds an earlier number. -/
def IpcCall.InTurn (p : ConnPool) (choice : Surroundings) : IpcCall → Prop
  | .nextSeq => p.world.seq < Int64.maxValue
  | .nowISO => True
  | .encode msg =>
    choice.writeErr = none →
      ∀ t ∈ p.tasks, ∀ seq ∈ Goroutine.held t, msg.seq.toInt ≤ seq.toInt

def InTurn (p : ConnPool) (e : ConnEvent) : Prop := ∀ x ∈ p.call? e, x.2.2.2.InTurn p x.2.1

instance (p : ConnPool) : Decidable (InOrder p) := inferInstanceAs (Decidable (List.Pairwise _ _))

instance (p : ConnPool) (choice : Surroundings) : (c : IpcCall) → Decidable (c.InTurn p choice)
  | .nextSeq => inferInstanceAs (Decidable (_ < _))
  | .nowISO => .isTrue trivial
  | .encode msg =>
    -- over the option, and not over all the numbers of 64 bits
    have (t : Goroutine) : Decidable (∀ seq ∈ t.held, msg.seq.toInt ≤ seq.toInt) :=
      Option.decidableForallMem t.held
    inferInstanceAs (Decidable (_ → _))

instance (p : ConnPool) (e : ConnEvent) : Decidable (InTurn p e) :=
  inferInstanceAs (Decidable (∀ x ∈ p.call? e, x.2.2.2.InTurn p x.2.1))

-- ---------------------------------------------------------------------------
-- Runs
-- ---------------------------------------------------------------------------

theorem toInt_succ {n : Int64} (h0 : 0 ≤ n.toInt) (h : n < Int64.maxValue) :
    (n + 1).toInt = n.toInt + 1 := by
  have hlt : n.toInt < 2 ^ 63 - 1 := Int64.lt_iff_toInt_lt.mp h
  have hsize : ((2 ^ 64 : Nat) : Int) = 18446744073709551616 := rfl
  rw [Int64.toInt_add]
  refine Int.bmod_eq_of_le_mul_two ?_ ?_
  · rw [hsize]
    change _ ≤ (n.toInt + 1) * 2
    omega
  · rw [hsize]
    change (n.toInt + 1) * 2 < _
    omega

structure Numbered (p : ConnPool) : Prop where
  nonneg : 0 ≤ p.world.seq.toInt
  stages : ∀ t ∈ p.tasks, Stage t.request t.note t.prog
  drawn : ∀ t ∈ p.tasks, ∀ seq, t.note = some seq → seq.toInt ≤ p.world.seq.toInt
  apart : p.tasks.Pairwise fun t u => ∀ seq, t.note = some seq → u.note ≠ some seq
  written : ∀ msg ∈ p.world.wire, msg.seq.toInt ≤ p.world.seq.toInt
  behind : ∀ msg ∈ p.world.wire, ∀ t ∈ p.tasks, ∀ seq ∈ Goroutine.held t,
    msg.seq.toInt < seq.toInt
  ordered : InOrder p

theorem note_of_held {t : Goroutine} {seq : Int64} (h : seq ∈ t.held) : t.note = some seq := by
  unfold Goroutine.held at h
  split at h
  next => cases h
  next => exact h

variable {p : ConnPool}

theorem Numbered.spawn (h : Numbered p) (s : Send) :
    Numbered { p with tasks := p.tasks ++ [⟨s, s.program, none⟩] } where
  nonneg := h.nonneg
  stages t ht := by
    rcases List.mem_append.mp ht with ht | ht
    · exact h.stages t ht
    · obtain rfl := List.mem_singleton.mp ht
      simpa only [program_eq] using Stage.fresh
  drawn t ht := by
    rcases List.mem_append.mp ht with ht | ht
    · exact h.drawn t ht
    · obtain rfl := List.mem_singleton.mp ht
      rintro seq hseq
      cases hseq
  apart := by
    refine List.pairwise_append.mpr ⟨h.apart, List.pairwise_singleton _ _, ?_⟩
    rintro t - u hu seq - hseq
    obtain rfl := List.mem_singleton.mp hu
    cases hseq
  written := h.written
  behind msg hmsg t ht seq hseq := by
    rcases List.mem_append.mp ht with ht | ht
    · exact h.behind msg hmsg t ht seq hseq
    · obtain rfl := List.mem_singleton.mp ht
      cases note_of_held hseq
  ordered := h.ordered

/-- A task that keeps its number, or takes one that nobody has, leaves the numbers apart. -/
theorem apart_set {tasks : List Goroutine} {i : Nat} {t t' : Goroutine}
    (h : tasks.Pairwise fun t u => ∀ seq, t.note = some seq → u.note ≠ some seq)
    (hget : tasks[i]? = some t) (hnote : ∀ seq, t'.note = some seq → t.note = some seq ∨
      ∀ u ∈ tasks, u.note ≠ some seq) :
    (tasks.set i t').Pairwise fun t u => ∀ seq, t.note = some seq → u.note ≠ some seq := by
  rw [List.pairwise_iff_getElem] at h ⊢
  obtain ⟨hlt, rfl⟩ := List.getElem?_eq_some_iff.mp hget
  intro j k hj hk hjk seq hseq
  rw [List.length_set] at hj hk
  rw [List.getElem_set] at hseq ⊢
  by_cases hij : i = j
  · subst hij
    rw [if_pos rfl] at hseq
    rw [if_neg (Nat.ne_of_lt hjk)]
    rcases hnote seq hseq with hold | hnew
    · exact h i k hlt hk hjk seq hold
    · exact hnew _ (List.getElem_mem hk)
  · rw [if_neg hij] at hseq
    by_cases hik : i = k
    · subst hik
      rw [if_pos rfl]
      intro hnow
      rcases hnote seq hnow with hold | hnew
      · exact h j i hj hlt hjk seq hseq hold
      · exact hnew _ (List.getElem_mem hj) hseq
    · rw [if_neg hik]
      exact h j k hj hk hjk seq hseq

/-- The tasks that a step leaves alone have other numbers than the one that moves. -/
theorem note_ne_of_mem_set {tasks : List Goroutine} {i : Nat} {t t' u : Goroutine} {seq : Int64}
    (h : tasks.Pairwise fun t u => ∀ seq, t.note = some seq → u.note ≠ some seq)
    (hget : tasks[i]? = some t) (hseq : t.note = some seq) (hu : u ∈ tasks.set i t') (hne : u ≠ t') :
    u ∈ tasks ∧ u.note ≠ some seq := by
  rw [List.pairwise_iff_getElem] at h
  obtain ⟨hlt, rfl⟩ := List.getElem?_eq_some_iff.mp hget
  obtain ⟨j, hj, rfl⟩ := List.getElem_of_mem hu
  rw [List.length_set] at hj
  rw [List.getElem_set] at hne ⊢
  by_cases hij : i = j
  · rw [if_pos hij] at hne
    exact absurd rfl hne
  · rw [if_neg hij]
    refine ⟨List.getElem_mem hj, fun hnow => ?_⟩
    rcases Nat.lt_or_gt_of_ne hij with hbelow | habove
    · exact h i j hlt hj hbelow seq hseq hnow
    · exact h j i hj hlt habove seq hnow hseq

section
variable {i : Nat} {t t' : Goroutine}

/-- A step of a task that has its number. -/
theorem Numbered.move (h : Numbered p) (hget : p.tasks[i]? = some t)
    (hstage : Stage t'.request t'.note t'.prog) (hnote : t'.note = t.note)
    (hheld : ∀ seq ∈ t'.held, seq ∈ t.held) :
    Numbered { p with tasks := p.tasks.set i t' } := by
  have hmem := List.mem_of_getElem? hget
  refine ⟨h.nonneg, ?_, ?_, ?_, h.written, ?_, h.ordered⟩
  · intro u hu
    rcases List.mem_or_eq_of_mem_set hu with hu | rfl
    · exact h.stages u hu
    · exact hstage
  · intro u hu seq hseq
    rcases List.mem_or_eq_of_mem_set hu with hu | rfl
    · exact h.drawn u hu seq hseq
    · exact h.drawn t hmem seq (hnote ▸ hseq)
  · exact apart_set h.apart hget fun seq hseq => .inl (hnote ▸ hseq)
  · intro msg hmsg u hu seq hseq
    rcases List.mem_or_eq_of_mem_set hu with hu | rfl
    · exact h.behind msg hmsg u hu seq hseq
    · exact h.behind msg hmsg t hmem seq (hheld seq hseq)

theorem Numbered.draw (h : Numbered p) (hget : p.tasks[i]? = some t)
    (hroom : p.world.seq < Int64.maxValue) (hstage : Stage t'.request t'.note t'.prog)
    (hnote : t'.note = some (p.world.seq + 1)) :
    Numbered { world := { p.world with seq := p.world.seq + 1 }, tasks := p.tasks.set i t' } := by
  have hnext : (p.world.seq + 1).toInt = p.world.seq.toInt + 1 := toInt_succ h.nonneg hroom
  have hnew : ∀ seq, t'.note = some seq → seq.toInt = p.world.seq.toInt + 1 := by
    intro seq hseq
    rw [← Option.some.inj (hnote.symm.trans hseq), hnext]
  refine ⟨?_, ?_, ?_, ?_, ?_, ?_, h.ordered⟩
  · simp only [hnext]
    exact Int.le_add_one h.nonneg
  · intro u hu
    rcases List.mem_or_eq_of_mem_set hu with hu | rfl
    · exact h.stages u hu
    · exact hstage
  · intro u hu seq hseq
    simp only [hnext]
    rcases List.mem_or_eq_of_mem_set hu with hu | rfl
    · exact Int.le_add_one (h.drawn u hu seq hseq)
    · exact Int.le_of_eq (hnew seq hseq)
  · refine apart_set h.apart hget fun seq hseq => .inr fun u hu hold => ?_
    have hle := h.drawn u hu seq hold
    rw [hnew seq hseq] at hle
    omega
  · intro msg hmsg
    simp only [hnext]
    exact Int.le_add_one (h.written msg hmsg)
  · intro msg hmsg u hu seq hseq
    rcases List.mem_or_eq_of_mem_set hu with hu | rfl
    · exact h.behind msg hmsg u hu seq hseq
    · rw [hnew seq (note_of_held hseq)]
      exact Int.lt_add_one_of_le (h.written msg hmsg)

/-- A line goes out behind the lines before it and ahead of the numbers still held. -/
theorem Numbered.write (h : Numbered p) {msg : Sent} (hle : msg.seq.toInt ≤ p.world.seq.toInt)
    (hlast : ∀ m ∈ p.world.wire, m.seq.toInt < msg.seq.toInt)
    (hfirst : ∀ t ∈ p.tasks, ∀ seq ∈ Goroutine.held t, msg.seq.toInt < seq.toInt) :
    Numbered { p with world := { p.world with wire := p.world.wire ++ [msg] } } := by
  refine ⟨h.nonneg, h.stages, h.drawn, h.apart, ?_, ?_, ?_⟩
  · intro m hm
    rcases List.mem_append.mp hm with hm | hm
    · exact h.written m hm
    · rw [List.mem_singleton.mp hm]
      exact hle
  · intro m hm
    rcases List.mem_append.mp hm with hm | hm
    · exact h.behind m hm
    · rw [List.mem_singleton.mp hm]
      exact hfirst
  · simp only [InOrder, List.map_append, List.map_cons, List.map_nil]
    refine List.pairwise_append.mpr ⟨h.ordered, List.pairwise_singleton _ _, ?_⟩
    intro n hn m hm
    obtain ⟨old, hold, rfl⟩ := List.mem_map.mp hn
    rw [List.mem_singleton.mp hm]
    exact hlast old hold

end

theorem Numbered.step {e : ConnEvent} (h : Numbered p) (hturn : InTurn p e) :
    Numbered (p.step connWorld Send.program e) := by
  obtain heq | ⟨s, heq⟩ | ⟨i, choice, s, c, k, n, hget, hcall, heq⟩ :=
    p.step_cases connWorld Send.program e
  · rw [heq]
    exact h
  · rw [heq]
    exact h.spawn s
  · have hmem := List.mem_of_getElem? hget
    have hmine : c.InTurn p choice := hturn _ hcall
    have hstage : Stage s n (.call c k) := h.stages _ hmem
    rw [heq]
    cases hstage with
    | fresh => exact h.draw hget hmine .drawn rfl
    | drawn => exact h.move hget .built rfl fun seq hseq => hseq
    | @built seq now =>
      have hsent (err : Option String) :
          Numbered { p with tasks := p.tasks.set i ⟨s, .done err, some seq⟩ } :=
        h.move hget .sent rfl fun seq hseq => absurd hseq (Option.not_mem_none seq)
      cases hwrite : choice.writeErr with
      | some err =>
        simpa only [connWorld, IpcCall.exec, hwrite] using hsent _
      | none =>
        have hseq : (s.message now seq).seq = seq := seq_message now seq s
        simp only [connWorld, IpcCall.exec, hwrite]
        refine (hsent none).write ?_ ?_ ?_
        · rw [hseq]
          exact h.drawn _ hmem seq rfl
        · intro m hm
          rw [hseq]
          exact h.behind m hm _ hmem seq rfl
        · intro u hu seq' hseq'
          have hne : u ≠ ⟨s, .done none, some seq⟩ := by
            rintro rfl
            cases hseq'
          obtain ⟨hold, hnote⟩ := note_ne_of_mem_set h.apart hget rfl hu hne
          refine lt_of_le_of_ne (hmine hwrite u hold seq' hseq') fun hsame => hnote ?_
          rw [note_of_held hseq', ← Int64.toInt_inj.mp hsame, hseq]

theorem numbered_run {es : List ConnEvent}
    (h : Always (fun x _ => InTurn x.before x.event) (connection.log es)) :
    Numbered (connection.state (connection.log es)) := by
  refine System.log_induction (motive := fun l => Numbered (connection.state l)) ?_ ?_ es h
  · exact ⟨Int.le_refl 0, nofun, nofun, List.Pairwise.nil, nofun, nofun, List.Pairwise.nil⟩
  · intro past e hpast _ hturn
    exact hpast.step hturn

/-- In a run that keeps the turns the numbers of the lines increase. -/
theorem lines_in_order (es : List ConnEvent)
    (h : Always (fun x _ => InTurn x.before x.event) (connection.log es)) :
    Always (fun x _ => InOrder x.after) (connection.log es) := by
  induction es with
  | nil => trivial
  | cons e es ih => exact ⟨(numbered_run h).ordered, ih h.2⟩

section
variable {i : Nat} {s : Send} {note : Option Int64} {choice : Surroundings}

theorem wire_of_encode {msg : Sent} {k : Option String → Ipc (Option String)}
    (hget : p.tasks[i]? = some ⟨s, .call (.encode msg) k, note⟩) (hok : choice.writeErr = none) :
    (p.step connWorld Send.program (.step i choice)).world.wire = p.world.wire ++ [msg] := by
  simp [Pool.step, hget, Task.advance, connWorld, IpcCall.exec, hok]

theorem step_of_nowISO {k : String → Ipc (Option String)}
    (hget : p.tasks[i]? = some ⟨s, .call .nowISO k, note⟩) :
    p.step connWorld Send.program (.step i choice) =
      { p with tasks := p.tasks.set i ⟨s, k choice.clock, note⟩ } := by
  simp only [Pool.step, hget]
  rfl

theorem out_of_order_of_encode {past : List ConnEvent} {k : Option String → Ipc (Option String)}
    {msg late : Sent}
    (hget : (connection.state (connection.log past)).tasks[i]? =
      some ⟨s, .call (.encode late) k, note⟩)
    (hmsg : msg ∈ (connection.state (connection.log past)).world.wire)
    (hlt : late.seq.toInt < msg.seq.toInt) (hok : choice.writeErr = none) :
    ¬ InOrder (connection.state (connection.log (.step i choice :: past))) := by
  intro horder
  have hwire := wire_of_encode hget hok
  have horder : InOrder (Pool.step connWorld Send.program _ (.step i choice)) := horder
  rw [InOrder, hwire, List.map_append, List.pairwise_append] at horder
  have hgt := horder.2.2 _ (List.mem_map_of_mem hmsg) _ (List.mem_map_of_mem List.mem_cons_self)
  exact absurd hgt (Int.not_lt.mpr (Int.le_of_lt hlt))

/-- A number that is held behind a line with a later one can still come, out of order. -/
theorem out_of_order_of_held {past : List ConnEvent} {t : Goroutine} {seq : Int64} {msg : Sent}
    (hget : (connection.state (connection.log past)).tasks[i]? = some t)
    (hstage : Stage t.request t.note t.prog) (hseq : seq ∈ t.held)
    (hmsg : msg ∈ (connection.state (connection.log past)).world.wire)
    (hlt : seq.toInt < msg.seq.toInt) (hok : choice.writeErr = none) :
    ∃ more, ¬ InOrder (connection.state (connection.log (more ++ past))) := by
  obtain ⟨s, prog, note⟩ := t
  change Stage s note prog at hstage
  cases hstage with
  | fresh | sent => cases hseq
  | @built n now =>
    obtain rfl : n = seq := Option.some.inj hseq
    rw [← seq_message now n s] at hlt
    exact ⟨[.step i choice], out_of_order_of_encode hget hmsg hlt hok⟩
  | @drawn n =>
    obtain rfl : n = seq := Option.some.inj hseq
    rw [← seq_message choice.clock n s] at hlt
    have hstep : connection.state (connection.log (.step i choice :: past)) = _ :=
      step_of_nowISO hget
    have hbuilt : (connection.state (connection.log (.step i choice :: past))).tasks[i]? =
        some ⟨s, send (s.message choice.clock n), some n⟩ := by
      rw [hstep]
      exact List.getElem?_set_self (List.getElem?_eq_some_iff.mp hget).1
    have hlate : msg ∈ (connection.state (connection.log (.step i choice :: past))).world.wire := by
      rw [hstep]
      exact hmsg
    exact ⟨[.step i choice, .step i choice], out_of_order_of_encode hbuilt hlate hlt hok⟩

/-- A line that overtakes a number of a run in turn can be followed by that
number's line. -/
theorem overtaking_breaks_order {es : List ConnEvent} {e : ConnEvent} {msg : Sent} {t : Goroutine}
    {seq : Int64} (h : Always (fun x _ => InTurn x.before x.event) (connection.log es))
    (hcall : (connection.state (connection.log es)).call? e = some (s, choice, note, .encode msg))
    (hok : choice.writeErr = none) (ht : t ∈ (connection.state (connection.log es)).tasks)
    (hseq : seq ∈ t.held) (hlt : seq.toInt < msg.seq.toInt) :
    ∃ more, ¬ InOrder (connection.state (connection.log (more ++ e :: es))) := by
  have hnum := numbered_run h
  obtain ⟨i, k, rfl, hget, hstep⟩ := Pool.call_cases connWorld Send.program hcall
  obtain ⟨j, hj⟩ := List.getElem?_of_mem ht
  have hij : i ≠ j := by
    rintro rfl
    obtain rfl := Option.some.inj (hget.symm.trans hj)
    have hstage : Stage s note (.call (.encode msg) k) := hnum.stages _ ht
    cases hstage with
    | built =>
      obtain rfl := Option.some.inj hseq
      rw [seq_message] at hlt
      exact Int.lt_irrefl _ hlt
  have hnext : connection.state (connection.log (.step i choice :: es)) = _ := hstep
  refine out_of_order_of_held (i := j) (t := t) ?_ (hnum.stages t ht) hseq ?_ hlt hok
  · rw [hnext]
    exact (List.getElem?_set_ne hij).trans hj
  · rw [hnext]
    simp [connWorld, IpcCall.exec, hok]

end

def taken : Surroundings := { clock := "2026-05-17T10:00:00.000Z", writeErr := none }

/-- A hello and an error, the one sent before the other is begun. -/
theorem lines_in_order_one_by_one :
    Always (fun x _ => InOrder x.after) (connection.log
      [.step 1 taken, .step 1 taken, .step 1 taken, .spawn (.error "socket_closed" "lost" true),
        .step 0 taken, .step 0 taken, .step 0 taken, .spawn (.hello "front" "agx" "0.1.0" 42)]) :=
  lines_in_order _ (by decide)

/-- The error draws 2 behind the hello's 1 and is written first. -/
theorem overtaken_line_out_of_order :
    ¬ Always (fun x _ => InOrder x.after) (connection.log
      [.step 0 taken, .step 0 taken, .step 1 taken, .step 1 taken, .step 1 taken, .step 0 taken,
        .spawn (.error "socket_closed" "lost" true), .spawn (.hello "front" "agx" "0.1.0" 42)]) := by
  decide

end Server

end Rvep.Publisher.Go
