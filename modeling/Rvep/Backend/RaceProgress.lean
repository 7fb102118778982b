import Rvep.Backend.ClaimRace

/-!
# The progress of a race

What holds of every race, and why it ends: whoever holds the lock waits for
nobody, and every claim takes a bounded number of steps.
-/

namespace Rvep.Backend

open Interleaving Reactive Serializable

variable {start : Db} {vehicle : Vehicle}

-- ---------------------------------------------------------------------------
-- What holds in every race
-- ---------------------------------------------------------------------------

/-- Racer `i` started its transaction when nobody held the vehicle. -/
def Race.StartsFree (r : Race start vehicle) (i : Nat) : Prop :=
  ∃ t, r.racers[i]? = some t ∧ t.startedFree = some true

def Race.OneStartsFree (r : Race start vehicle) : Prop :=
  ∀ i j, r.StartsFree i → r.StartsFree j → i = j

structure Race.Sound (claims : List (Contender start vehicle)) (r : Race start vehicle) : Prop where
  contenders : r.racers.map (·.contender) = claims
  tables : start.SameTables r.server.db
  racers : ∀ (i : Nat) (t : Racer start vehicle), r.racers[i]? = some t → ∃ a, t.At a

section
variable {claims : List (Contender start vehicle)} {r : Race start vehicle} {i j : Nat} {now : Time}
  {t t' : Racer start vehicle}

theorem Race.step_none (h : r.racers[i]? = none) : r.step i now = r := by
  rw [Race.step, h]

theorem Race.step_some (h : r.racers[i]? = some t) :
    r.step i now =
      { server := (t.act r.server (r.others i) now).1
        racers := r.racers.set i (t.act r.server (r.others i) now).2 } := by
  rw [Race.step, h]

/-- After a step, a racer is as it was, or it is the one that moved. -/
theorem Race.step_racer (h : r.racers[i]? = some t) (hj : (r.step i now).racers[j]? = some t') :
    j ≠ i ∧ r.racers[j]? = some t' ∨ j = i ∧ t' = (t.act r.server (r.others i) now).2 := by
  rw [Race.step_some h] at hj
  by_cases hij : i = j
  · subst hij
    rw [List.getElem?_set_self (List.getElem?_eq_some_iff.mp h).1] at hj
    exact .inr ⟨rfl, (Option.some.inj hj).symm⟩
  · rw [List.getElem?_set_ne hij] at hj
    exact .inl ⟨Ne.symm hij, hj⟩

theorem Race.step_self (h : r.racers[i]? = some t) :
    (r.step i now).racers[i]? = some (t.act r.server (r.others i) now).2 := by
  rw [Race.step_some h]
  exact List.getElem?_set_self (List.getElem?_eq_some_iff.mp h).1

theorem Race.step_ne (h : r.racers[i]? = some t) (hij : j ≠ i) :
    (r.step i now).racers[j]? = r.racers[j]? := by
  rw [Race.step_some h]
  exact List.getElem?_set_ne (Ne.symm hij)

theorem Race.Sound.distinct (h : r.Sound claims) (hd : (claims.map (·.ctx.userId)).Nodup)
    (hi : r.racers[i]? = some t) (hj : r.racers[j]? = some t') (hij : i ≠ j) :
    t.contender.ctx.userId ≠ t'.contender.ctx.userId := by
  rw [← h.contenders, List.map_map] at hd
  intro heq
  refine hij ((List.getElem?_inj ?_ hd).mp ?_)
  · rw [List.length_map]
    exact (List.getElem?_eq_some_iff.mp hi).1
  · rw [List.getElem?_map, List.getElem?_map, hi, hj]
    exact congrArg some heq

theorem sameTables_act (ha : ∃ a, t.At a) (s : Server Query Db) (others : List ClaimTxn)
    (hs : start.SameTables s.db) : start.SameTables (t.act s others now).1.db := by
  obtain ⟨a, ha⟩ := ha
  cases a with
  | before => exact (act_before s others now ha hs).1.symm ▸ hs
  | after result =>
    obtain ⟨⟨events, hevents⟩, -, -⟩ := act_after s others now ha
    rw [hevents]
    exact ⟨hs.users, hs.vehicles, hs.permissions, hs.sessions⟩
  | inside snapshot since =>
    obtain ⟨-, ⟨hsame, -⟩ | ⟨_, _, hsame, -⟩ | ⟨_, began, ⟨-, hdb⟩, -⟩⟩ :=
      act_inside s others now ha
    · exact hsame.symm ▸ hs
    · exact hsame.symm ▸ hs
    · rw [hdb]
      refine redo_keeps (fun q hq db hdb => ?_) hs
      have hwrites : ∀ q ∈ postgres.calls ⟨began, false⟩
          (ExceptT.run (t.contender.transaction t.readAt)) snapshot,
          q.keepsTables = true := by
        obtain ⟨k, hrun, hk⟩ := claimTransaction_calls vehicle
          (P := fun q => q.keepsTables = true) t.contender.ctx.userId t.contender.session t.readAt
          rfl (fun _ => rfl) rfl
        refine calls_of_allCalls (E := postgres) ?_
        rw [Contender.transaction, hrun]
        exact ⟨rfl, hk⟩
      exact hdb.trans (sameTables_exec (hwrites q hq) _ db)

theorem Race.Sound.step (h : r.Sound claims) (i : Nat) (now : Time) : (r.step i now).Sound claims := by
  cases hget : r.racers[i]? with
  | none => rwa [Race.step_none hget]
  | some t =>
    have ht := h.racers i t hget
    refine ⟨?_, ?_, ?_⟩
    · obtain ⟨hlt, rfl⟩ := List.getElem?_eq_some_iff.mp hget
      rw [Race.step_some hget, List.map_set, act_contender, ← List.map_set,
        List.set_getElem_self hlt, h.contenders]
    · rw [Race.step_some hget]
      exact sameTables_act ht _ _ h.tables
    · intro j t' hj
      rcases Race.step_racer hget hj with ⟨-, hj⟩ | ⟨rfl, rfl⟩
      · exact h.racers j t' hj
      · obtain ⟨a, ha⟩ := ht
        cases a with
        | before =>
          rcases (act_before _ _ _ ha h.tables).2 with ha' | ha'
          · exact ⟨_, ha'⟩
          · exact ⟨_, ha'⟩
        | inside snapshot since =>
          rcases (act_inside _ _ _ ha).2 with ⟨-, ha'⟩ | ⟨_, _, -, -, ha'⟩ | ⟨_, _, -, ha'⟩
          · exact ⟨_, ha'⟩
          · exact ⟨_, ha'⟩
          · exact ⟨_, ha'⟩
        | after result => exact ⟨_, (act_after _ _ _ ha).2.1⟩

theorem Race.StartsFree.step (h : r.Sound claims) (hj : r.StartsFree j) (i : Nat) (now : Time) :
    (r.step i now).StartsFree j := by
  obtain ⟨t, ht, hfree⟩ := hj
  by_cases hij : j = i
  · subst hij
    exact ⟨_, Race.step_self ht, act_startedFree _ _ _ (h.racers j t ht) hfree⟩
  · cases hget : r.racers[i]? with
    | none => rw [Race.step_none hget]; exact ⟨t, ht, hfree⟩
    | some t' => exact ⟨t, (Race.step_ne hget hij).trans ht, hfree⟩

theorem Race.OneStartsFree.past (h : r.Sound claims) (hone : (r.step i now).OneStartsFree) :
    r.OneStartsFree := fun j j' hj hj' => hone j j' (hj.step h i now) (hj'.step h i now)

end

-- ---------------------------------------------------------------------------
-- When nobody can move
-- ---------------------------------------------------------------------------

def Racer.answer? (t : Racer start vehicle) : Option Response :=
  match t.stage with
  | .outside (.done r) => some r
  | _ => none

/-- The racer is not done, and does not wait for a lock. -/
def Racer.canAct (t : Racer start vehicle) (others : List ClaimTxn) : Bool :=
  match t.stage with
  | .outside (.done _) => false
  | .outside (.call _ _) => true
  | .inside txn _ => !txn.waits postgres others

def Race.canMove (r : Race start vehicle) (i : Nat) : Bool :=
  r.racers[i]?.any (·.canAct (r.others i))

def Race.Settled (r : Race start vehicle) : Prop := ∀ i, r.canMove i = false

section
variable {claims : List (Contender start vehicle)} {r : Race start vehicle} {i : Nat}
  {t : Racer start vehicle}

theorem answer?_before (h : t.At .before) : t.answer? = none := by
  obtain ⟨prog, hstage, -, happroaches⟩ := h
  rw [Racer.answer?, hstage]
  cases prog with
  | done r => exact happroaches.elim
  | call c k => rfl

theorem answer?_inside {snapshot : Db} {since : Nat} (h : t.At (.inside snapshot since)) :
    t.answer? = none := by
  obtain ⟨txn, k, hinside⟩ := h
  rw [Racer.answer?, hinside.stage]

theorem answers_of_after {result : Except DbError ClaimResult} {resp : Response}
    (h : t.At (.after result)) (hresp : t.answer? = some resp) : Answers result resp := by
  obtain ⟨prog, -, hstage, -, hconcludes, -⟩ := h
  rw [Racer.answer?, hstage] at hresp
  cases prog with
  | done r => exact Option.some.inj hresp ▸ hconcludes.results
  | call c k => exact absurd hresp nofun

theorem canMove_of_holds (h : r.Sound claims) {txn : ClaimTxn} {key : String}
    (hget : r.racers[i]? = some t) (htxn : t.stage.txn? = some txn)
    (hkey : txn.holds postgres key = true) : r.canMove i = true := by
  obtain ⟨a, ha⟩ := h.racers i t hget
  cases a with
  | before =>
    obtain ⟨prog, hstage, -⟩ := ha
    rw [hstage] at htxn
    exact absurd htxn nofun
  | after result =>
    obtain ⟨prog, -, hstage, -⟩ := ha
    rw [hstage] at htxn
    exact absurd htxn nofun
  | inside snapshot since =>
    obtain ⟨txn', k, hinside⟩ := ha
    rw [hinside.stage] at htxn
    obtain rfl : txn' = txn := Option.some.inj htxn
    rw [Race.canMove, hget, Option.any_some, Racer.canAct, hinside.stage]
    simp only [hinside.orderly.not_waits hkey, Bool.not_false]

/-- There is no deadlock: when nobody can move, every claim has been answered. -/
theorem Race.Settled.answered (hsettled : r.Settled) (h : r.Sound claims)
    (hget : r.racers[i]? = some t) : ∃ resp, t.answer? = some resp := by
  have hmove := hsettled i
  rw [Race.canMove, hget, Option.any_some, Racer.canAct] at hmove
  split at hmove
  next resp hstage => exact ⟨resp, by rw [Racer.answer?, hstage]⟩
  next => exact absurd hmove nofun
  next txn k hstage =>
    have hwaits : txn.waits postgres (r.others i) = true := by simpa using hmove
    unfold Txn.waits at hwaits
    split at hwaits
    next => exact absurd hwaits nofun
    next c k' hprog =>
      obtain ⟨key, -, hothers⟩ := (Option.any_eq_true _ _).mp hwaits
      obtain ⟨other, hmem, hholds⟩ := List.any_eq_true.mp hothers
      obtain ⟨t', ht', htxn'⟩ := List.mem_filterMap.mp hmem
      obtain ⟨j, -, hj⟩ := List.mem_eraseIdx_iff_getElem?.mp ht'
      exact absurd ((hsettled j).symm.trans (canMove_of_holds h hj htxn' hholds)) nofun

end

-- ---------------------------------------------------------------------------
-- Every race ends
-- ---------------------------------------------------------------------------

/-- The racer takes `n` steps more at most. -/
def Racer.Left (t : Racer start vehicle) (n : Nat) : Prop :=
  match t.stage with
  | .outside prog => prog.Costs callCost n
  | .inside txn k => ∃ m rest, n = m + 1 + rest ∧ txn.prog.Costs queryCost m ∧
      ∀ result, (k result).Costs callCost rest

section
variable {claims : List (Contender start vehicle)} {n : Nat}

theorem costs_claimTransaction (userId : String) (session : Session) (now : Time) :
    (ExceptT.run (claimTransaction userId vehicle session now)).Costs queryCost 4 := by
  have hcreate : ∀ n, (ExceptT.run (createLease userId vehicle session now)).Costs queryCost (n + 1) :=
    fun n => costs_txQuery fun _ => trivial
  refine costs_txQuery fun _ => costs_txQuery fun lease? => ?_
  cases lease? with
  | none => exact hcreate 1
  | some lease =>
    simp only
    split
    · exact costs_txQuery fun _ => hcreate 0
    · split
      · trivial
      · exact costs_txQuery fun _ => hcreate 0

theorem costs_claim (req : LeaseRequest) : (claim req).Costs callCost 11 := by
  unfold claim
  cases req.caller with
  | none => trivial
  | some ctx =>
    cases validateBody req.body claimLeaseSchema with
    | error err => trivial
    | ok body =>
      change Prog.Costs callCost (Handler.serve (if _ then _ else _)) 11
      split
      · trivial
      · refine costs_query fun vehicle? => ?_
        cases vehicle? with
        | none => trivial
        | some vehicle =>
          refine costs_query fun permission => ?_
          simp only
          split
          · trivial
          · refine costs_query fun session? => ?_
            cases session? with
            | none => trivial
            | some session =>
              refine costs_now fun now => costs_transaction (costs_claimTransaction _ _ _) ?_
              intro result
              cases result with
              | denied operatorId sessionId => exact costs_audit
              | created lease => exact costs_audit

section
variable {t : Racer start vehicle} (s : Server Query Db) (others : List ClaimTxn) (now : Time)

theorem act_idle (h : t.canAct others = false) : t.act s others now = (s, t) := by
  unfold Racer.canAct at h
  unfold Racer.act
  split at h
  next r hstage => rw [hstage]
  next => exact absurd h nofun
  next txn k hstage =>
    have hwaits : txn.waits postgres others = true := by simpa using h
    rw [hstage]
    cases hprog : txn.prog with
    | done a => exact absurd hwaits (by simp [Txn.waits, hprog])
    | call c k' => simp only [hprog, hwaits, ↓reduceIte]

theorem act_left (hleft : t.Left n) (h : t.canAct others = true) :
    ∃ m < n, (t.act s others now).2.Left m := by
  unfold Racer.Left at hleft
  unfold Racer.canAct at h
  unfold Racer.act
  cases hstage : t.stage with
  | outside prog =>
    rw [hstage] at hleft h
    cases prog with
    | done r => exact absurd h nofun
    | call c k =>
      obtain ⟨m, rest, rfl, hcost, hk⟩ := hleft
      cases c with
      | now =>
        obtain rfl : m = 1 := hcost
        exact ⟨rest, by omega, hk _⟩
      | query q =>
        obtain rfl : m = 1 := hcost
        exact ⟨rest, by omega, hk _⟩
      | transaction tx =>
        obtain ⟨m, rfl, htx⟩ := hcost
        exact ⟨m + 1 + rest, by omega, m, rest, rfl, htx, hk⟩
  | inside txn k =>
    rw [hstage] at hleft h
    obtain ⟨m, rest, rfl, hcost, hk⟩ := hleft
    have hwaits : txn.waits postgres others = false := by simpa using h
    cases hprog : txn.prog with
    | call c k' =>
      rw [hprog] at hcost
      obtain ⟨one, m, rfl, hone, hk'⟩ := hcost
      obtain rfl : one = 1 := hone
      simp only [hprog, hwaits, Bool.false_eq_true, ↓reduceIte]
      refine ⟨m + 1 + rest, by omega, m, rest, rfl, ?_, hk⟩
      rw [Txn.step, hprog]
      exact hk' _
    | done a =>
      refine ⟨rest, by omega, ?_⟩
      cases a with
      | error err =>
        simp only [hprog]
        exact hk _
      | ok result =>
        simp only [hprog]
        split
        · exact hk _
        · exact hk _

end

theorem sum_set_lt {ns : List Nat} {i m : Nat} (h : ns[i]? = some n) (hlt : m < n) :
    (ns.set i m).sum < ns.sum := by
  induction ns generalizing i with
  | nil => exact absurd h nofun
  | cons k ns ih =>
    cases i with
    | zero =>
      obtain rfl : k = n := Option.some.inj h
      simp only [List.set_cons_zero, List.sum_cons]
      omega
    | succ i =>
      have htail := ih (i := i) h
      simp only [List.set_cons_succ, List.sum_cons]
      omega

/-- Each racer `i` takes at most `ns[i]` steps more. -/
def Race.Within (r : Race start vehicle) (ns : List Nat) : Prop :=
  ∀ (i : Nat) (t : Racer start vehicle), r.racers[i]? = some t → ∃ n, ns[i]? = some n ∧ t.Left n

theorem Race.step_idle {r : Race start vehicle} {i : Nat} (h : r.canMove i = false) (now : Time) :
    r.step i now = r := by
  cases hget : r.racers[i]? with
  | none => exact Race.step_none hget
  | some t =>
    rw [Race.canMove, hget, Option.any_some] at h
    obtain ⟨hlt, hself⟩ := List.getElem?_eq_some_iff.mp hget
    rw [Race.step_some hget, act_idle _ _ _ h, ← hself, List.set_getElem_self hlt]

theorem Race.Within.step {r : Race start vehicle} {ns : List Nat} {i : Nat} (h : r.Within ns)
    (hmove : r.canMove i = true) (now : Time) : ∃ ms, (r.step i now).Within ms ∧ ms.sum < ns.sum := by
  rw [Race.canMove, Option.any_eq_true] at hmove
  obtain ⟨t, hget, hact⟩ := hmove
  obtain ⟨n, hn, hleft⟩ := h i t hget
  obtain ⟨m, hlt, hleft'⟩ := act_left r.server (r.others i) now hleft hact
  refine ⟨ns.set i m, fun j t' hj => ?_, sum_set_lt hn hlt⟩
  rcases Race.step_racer hget hj with ⟨hji, hj⟩ | ⟨rfl, rfl⟩
  · rw [List.getElem?_set_ne (Ne.symm hji)]
    exact h j t' hj
  · exact ⟨m, List.getElem?_set_self (List.getElem?_eq_some_iff.mp hn).1, hleft'⟩

/-- The racer that the event is for could move. -/
def IsMove (x : Entry (Race start vehicle) (Nat × Time) Unit) : Bool := x.before.canMove x.event.1

/-- Whatever the order, a race is over after eleven moves a claim. -/
theorem moves_le (claims : List (Contender start vehicle)) (es : List (Nat × Time)) :
    ((claimRace claims).log es).countP IsMove ≤ 11 * claims.length := by
  have hinv : ∃ ns, ((claimRace claims).state ((claimRace claims).log es)).Within ns ∧
      ((claimRace claims).log es).countP IsMove + ns.sum ≤ 11 * claims.length := by
    induction es with
    | nil =>
      refine ⟨List.replicate claims.length 11, fun i t ht => ⟨11, ?_, ?_⟩, ?_⟩
      · have hlt := (List.getElem?_eq_some_iff.mp ht).1
        rw [List.getElem?_replicate, if_pos]
        exact hlt.trans_eq (List.length_map _)
      · obtain ⟨c, -, rfl⟩ := List.mem_map.mp (List.mem_of_getElem? ht)
        exact costs_claim c.req
      · simp [Nat.mul_comm]
    | cons e es ih =>
      obtain ⟨ns, hwithin, hsum⟩ := ih
      have hcount : IsMove ((claimRace claims).react
          ((claimRace claims).state ((claimRace claims).log es)) e) =
            ((claimRace claims).state ((claimRace claims).log es)).canMove e.1 := rfl
      rw [System.log_cons, System.state_cons, List.countP_cons, hcount]
      cases hmove : ((claimRace claims).state ((claimRace claims).log es)).canMove e.1 with
      | true =>
        obtain ⟨ms, hwithin', hlt⟩ := hwithin.step hmove e.2
        refine ⟨ms, hwithin', ?_⟩
        rw [if_pos rfl]
        omega
      | false =>
        refine ⟨ns, ?_, ?_⟩
        · have hidle := Race.step_idle hmove e.2
          change Race.Within (Race.step _ e.1 e.2) ns
          rwa [hidle]
        · rw [if_neg Bool.false_ne_true]
          omega
  obtain ⟨ns, -, hsum⟩ := hinv
  omega

end

end Rvep.Backend
