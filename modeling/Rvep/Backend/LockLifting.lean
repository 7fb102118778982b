import Rvep.Backend.Lockout

/-!
# A lock once imposed

Logins of any kind interleaved call by call. A wrong password writes `null`,
nothing or a new lock, decided on the row the attempt read when it began, so
an attempt that read a lock which had run out may write over one that was
imposed in the meantime. Which updates lift a lock is said exactly.
-/

namespace Rvep.Backend

open Interleaving Reactive

/-- What a login remembers: the row it read, and its last reading of the clock. -/
structure Recall where
  row : Option User
  clock : Option Time
  deriving DecidableEq, Repr

def guessWorld : World Call Call.Reply Clocked Tick Recall where
  exec e w c := (⟨(c.exec (e.choice w) w.db).1, (e.choice w).now⟩, (c.exec (e.choice w) w.db).2)
  blank := ⟨none, none⟩
  observe n _ c r :=
    match c, r with
    | .query (.userFindByEmail _), .ok u => { n with row := u }
    | .now, t => { n with clock := some t }
    | _, _ => n

variable (pkg : Packages)

def WrongPassword (body : Option Json) (u : User) : Prop :=
  ∃ parsed, validateBody body (loginSchema pkg) = .ok parsed ∧
    pkg.comparePassword parsed.password u.passwordHash = false

-- ---------------------------------------------------------------------------
-- What an update writes
-- ---------------------------------------------------------------------------

/-- The failure of an attempt that read `v`, written to the row `u` at `now`,
leaves no lock in force. -/
theorem unlocks_iff {u v : User} {checkedAt lockedAt now : Time}
    (hexpired : ∀ t ∈ v.lockedUntil, t ≤ checkedAt) (hlocked : ∃ t ∈ u.lockedUntil, now < t) :
    (∀ t ∈ (u.update (loginFailure v checkedAt lockedAt)).lockedUntil, t ≤ now) ↔
      v.lockedUntil ≠ none ∨
        (maxFailedAttempts ≤ v.failedLoginCount + 1 ∧ lockedAt + lockDurationMs ≤ now) := by
  cases hv : v.lockedUntil with
  | some t =>
    -- an expired lock: the counter starts again, and the lock is cleared
    have hpast : t ≤ checkedAt := hexpired t hv
    simp [User.update, loginFailure, hv, hpast, maxFailedAttempts]
  | none =>
    obtain ⟨t, ht, hlt⟩ := hlocked
    by_cases hlast : maxFailedAttempts ≤ v.failedLoginCount + 1
    · simp [User.update, loginFailure, hv, hlast]
    · have hkeep : (u.update (loginFailure v checkedAt lockedAt)).lockedUntil = some t := by
        simp [User.update, loginFailure, hv, hlast, Option.mem_def.mp ht]
      simp only [hkeep, hlast, false_and, ne_eq, not_true_eq_false, or_false, iff_false]
      exact fun hall => absurd (hall t rfl) (not_le.mpr hlt)

-- ---------------------------------------------------------------------------
-- The contract
-- ---------------------------------------------------------------------------

/-- A login that waits to update a row has read it, and a wrong password makes
that a failure. -/
def Recall.Waits (n : Recall) (body : Option Json) (id : String) (data : UserUpdate) : Prop :=
  ∃ v lockedAt, n.row = some v ∧ n.clock = some lockedAt ∧ id = v.id ∧
    (WrongPassword pkg body v →
      ∃ checkedAt, data = loginFailure v checkedAt lockedAt ∧ ∀ t ∈ v.lockedUntil, t ≤ checkedAt)

def guesses : Contract (Option Json) Call Response Clocked Tick Recall where
  inv _ := True
  rely w w' := w.clock ≤ w'.clock
  here body n q _ := ∀ id data, q = .waiting (.query (.userUpdate id data)) → n.Waits pkg body id data
  guar _ _ _ _ w _ _ w' := w.clock ≤ w'.clock
  refl w := le_refl w.clock
  trans h h' := le_trans h h'
  rely_of_guar h := h

section
variable {pkg} {body : Option Json} {n : Recall} {w : Clocked}

variable (pkg) in
abbrev KeepsGuess (body : Option Json) (n : Recall) (prog : Prog Call Call.Reply Response)
    (w : Clocked) : Prop :=
  (guesses pkg).Kept guessWorld body n prog w

theorem clock_le_guess (e : Tick) (c : Call) : w.clock ≤ (guessWorld.exec e w c).1.clock :=
  clock_le_exec e c

/-- Calls that update no row owe nothing. -/
theorem keepsGuess_harmless {prog : Prog Call Call.Reply Response}
    (h : prog.AllCalls fun c => ∀ id data, c ≠ .query (.userUpdate id data)) :
    KeepsGuess pkg body n prog w := by
  induction prog generalizing n w with
  | done r => exact fun _ _ _ id data hq => absurd hq (waiting_ne_finished _ r).symm
  | call c k ih =>
    obtain ⟨hc, hk⟩ := h
    refine fun w' _ _ => ⟨fun id data hq => ?_, fun e => ⟨clock_le_guess e c, fun _ => ih _ (hk _)⟩⟩
    obtain rfl : c = _ := by simpa using hq
    exact absurd rfl (hc id data)

theorem keepsGuess_now {f : Time → Handler Response}
    (hf : ∀ w', w.clock ≤ w'.clock →
      KeepsGuess pkg body { n with clock := some w'.clock } (Handler.serve (f w'.clock)) w') :
    KeepsGuess pkg body n (Handler.serve (Handler.now >>= f)) w := by
  rw [serve_now_bind]
  intro w' hw _
  refine ⟨fun id data hq => absurd hq nofun, fun e => ⟨clock_le_guess e .now, fun _ => ?_⟩⟩
  exact hf (guessWorld.exec e w' .now).1 (le_trans hw (clock_le_guess e .now))

theorem keepsGuess_update {id : String} {data : UserUpdate} {f : User → Handler Response}
    (hwaits : n.Waits pkg body id data)
    (hf : ∀ u, (Handler.serve (f u)).AllCalls fun c => ∀ id data, c ≠ .query (.userUpdate id data)) :
    KeepsGuess pkg body n
      (Handler.serve (Handler.query (.userUpdate id data) >>= f)) w := by
  rw [serve_query_bind]
  refine fun w' _ _ => ⟨fun id' data' hq => ?_, fun e => ⟨clock_le_guess e _, fun _ => ?_⟩⟩
  · obtain ⟨rfl, rfl⟩ : id = id' ∧ data = data' := by simpa using hq
    exact hwaits
  · cases hr : (guessWorld.exec e w' (.query (.userUpdate id data))).2 with
    | error err => exact keepsGuess_harmless trivial
    | ok u => exact keepsGuess_harmless (hf u)

theorem keepsGuess_failure {v : User} {now : Time} (hrow : n.row = some v)
    (hexpired : ∀ t ∈ v.lockedUntil, t ≤ now) (hle : now ≤ w.clock) (r : Response) :
    KeepsGuess pkg body n (Handler.serve (recordLoginFailure v >>= fun _ => pure r)) w := by
  unfold recordLoginFailure
  simp only [bind_assoc]
  refine keepsGuess_now fun w₁ h₁ => keepsGuess_now fun w₂ _ => ?_
  refine keepsGuess_update ⟨v, w₂.clock, hrow, rfl, rfl, fun _ => ⟨w₁.clock, rfl, ?_⟩⟩ fun _ => ?_
  · exact fun t ht => (hexpired t ht).trans (hle.trans h₁)
  · split
    · rw [bind_assoc]
      exact allCalls_audit nofun (allCalls_audit nofun trivial)
    · exact allCalls_audit nofun trivial

theorem keepsGuess_unlocked {parsed : LoginBody} {v : User} {now : Time}
    (hbody : validateBody body (loginSchema pkg) = .ok parsed) (hrow : n.row = some v)
    (hclock : n.clock = some now) (hexpired : ∀ t ∈ v.lockedUntil, t ≤ now) (hle : now ≤ w.clock) :
    KeepsGuess pkg body n (Handler.serve (loginUnlocked pkg parsed v)) w := by
  unfold loginUnlocked
  split
  next => exact keepsGuess_failure hrow hexpired hle _
  next hpassword =>
    refine keepsGuess_update ⟨v, now, hrow, hclock, rfl, ?_⟩ fun updated => ?_
    · rintro ⟨parsed', hbody', hwrong⟩
      obtain rfl := Except.ok.inj (hbody.symm.trans hbody')
      exact absurd (by rw [hwrong]; rfl) hpassword
    · exact ⟨nofun, fun _ => ⟨nofun, fun _ => allCalls_audit nofun trivial⟩⟩

theorem keepsGuess_login (body : Option Json) :
    KeepsGuess pkg body ⟨none, none⟩ (login pkg body) w := by
  unfold login
  cases hbody : validateBody body (loginSchema pkg) with
  | error err => exact keepsGuess_harmless trivial
  | ok parsed =>
    simp only [orThrow, pure_bind]
    rw [serve_query_bind]
    refine fun w' _ _ =>
      ⟨fun id data hq => (by cases hq), fun e => ⟨clock_le_guess e _, fun _ => ?_⟩⟩
    cases hr : (Call.exec (e.choice w') w'.db (.query (.userFindByEmail parsed.email))).2 with
    | error err => simp only [guessWorld, hr]; exact keepsGuess_harmless trivial
    | ok found =>
      simp only [guessWorld, hr]
      cases found with
      | none => exact keepsGuess_harmless trivial
      | some v =>
        refine keepsGuess_now fun w₁ _ => ?_
        simp only
        split
        next => exact keepsGuess_harmless (allCalls_audit (fun _ _ h => by cases h) trivial)
        next hunlocked =>
          refine keepsGuess_unlocked hbody rfl rfl (fun t ht => ?_) (le_refl w₁.clock)
          simpa [Option.mem_def.mp ht] using hunlocked

end

-- ---------------------------------------------------------------------------
-- Every interleaving
-- ---------------------------------------------------------------------------

abbrev LoginPool := Pool (Option Json) Call Call.Reply Response Clocked Recall
abbrev LoginEntry := Entry LoginPool (Event (Option Json) Tick) Unit

/-- Any number of logins, one call a step. -/
def loginSystem (db : Db) (start : Time) : System LoginPool (Event (Option Json) Tick) Unit :=
  pool guessWorld (login pkg) ⟨db, start⟩

/-- The update of an attempt with a wrong password turns a lock that is in
force into none, or into one that has run out. -/
def LiftsLock (x : LoginEntry) : Prop :=
  ∃ body e n id data v u u', x.before.call? x.event = some (body, e, n, .query (.userUpdate id data)) ∧
    n.row = some v ∧ WrongPassword pkg body v ∧
    x.before.world.db.user? id = some u ∧ x.after.world.db.user? id = some u' ∧
    (∃ t ∈ u.lockedUntil, x.after.world.clock < t) ∧
    ∀ t ∈ u'.lockedUntil, t ≤ x.after.world.clock

/-- An attempt with a wrong password updates a row that is locked, having read
it with an earlier lock, or with its failures at the limit and the clock so
long ago that the lock it imposes has run out. -/
def OverwritesLock (x : LoginEntry) : Prop :=
  ∃ body e n id data v u lockedAt,
    x.before.call? x.event = some (body, e, n, .query (.userUpdate id data)) ∧ e.fails = false ∧
    n.row = some v ∧ n.clock = some lockedAt ∧ WrongPassword pkg body v ∧
    x.before.world.db.user? id = some u ∧ (∃ t ∈ u.lockedUntil, x.after.world.clock < t) ∧
    (v.lockedUntil ≠ none ∨
      (maxFailedAttempts ≤ v.failedLoginCount + 1 ∧
        lockedAt + lockDurationMs ≤ x.after.world.clock))

section
variable {pkg} {p : LoginPool}

/-- What an update leaves in the row it names, if the database does not fail. -/
theorem user?_after_update {e : Tick} {w : Clocked} {id : String} {data : UserUpdate} {u : User}
    (hu : w.db.user? id = some u) :
    (guessWorld.exec e w (.query (.userUpdate id data))).1.db.user? id =
      some (if e.fails then u else u.update data) := by
  have hid : (u.id == id) = true := by
    rw [user?_id hu]
    exact beq_self_eq_true id
  have hfound : w.db.users.find? (·.id == id) = some u := hu
  cases hfails : e.fails with
  | true =>
    simp only [guessWorld, Call.exec_fails (e.choice w) hfails, ↓reduceIte]
    exact hu
  | false =>
    have hnow : (e.choice w).fails = false := hfails
    simp only [guessWorld, Call.exec, Query.exec_of_not_fails hnow, Query.answer, hu,
      Bool.false_eq_true, ↓reduceIte]
    rw [Db.user?, find?_userUpdate _ _ _ _ fun _ => rfl, hfound, Option.map_some, if_pos hid]

/-- What is known when the update of a wrong password is made. -/
theorem update_of_call (h : p.Kept guessWorld (guesses pkg)) {event : Event (Option Json) Tick}
    {body : Option Json} {e : Tick} {n : Recall} {id : String} {data : UserUpdate} {v u : User}
    (hcall : p.call? event = some (body, e, n, .query (.userUpdate id data)))
    (hrow : n.row = some v) (hwrong : WrongPassword pkg body v)
    (hu : p.world.db.user? id = some u) :
    ∃ checkedAt lockedAt, n.clock = some lockedAt ∧ data = loginFailure v checkedAt lockedAt ∧
      (∀ t ∈ v.lockedUntil, t ≤ checkedAt) ∧
      (p.step guessWorld (login pkg) event).world.db.user? id =
        some (if e.fails then u else u.update data) := by
  obtain ⟨i, k, rfl, hget, hstep⟩ :=
    Pool.call_cases guessWorld (login pkg) hcall
  have hhere := (h.tasks _ (List.mem_of_getElem? hget)).here trivial
  obtain ⟨v', lockedAt, hrow', hclock, -, hdata⟩ := hhere id data rfl
  obtain rfl : v = v' := Option.some.inj (hrow.symm.trans hrow')
  obtain ⟨checkedAt, hcomputed, hexpired⟩ := hdata hwrong
  refine ⟨checkedAt, lockedAt, hclock, hcomputed, hexpired, ?_⟩
  rw [hstep]
  exact user?_after_update hu

theorem liftsLock_iff (h : p.Kept guessWorld (guesses pkg)) (event : Event (Option Json) Tick) :
    let x : LoginEntry := ⟨p, event, p.step guessWorld (login pkg) event, ()⟩
    LiftsLock pkg x ↔ OverwritesLock pkg x := by
  intro x
  constructor
  · rintro ⟨body, e, n, id, data, v, u, u', hcall, hrow, hwrong, hu, hu', hlocked, hfree⟩
    obtain ⟨checkedAt, lockedAt, hclock, rfl, hexpired, hafter⟩ :=
      update_of_call h hcall hrow hwrong hu
    obtain rfl := Option.some.inj (hafter.symm.trans hu')
    cases hfails : e.fails with
    | true =>
      obtain ⟨t, ht, hlt⟩ := hlocked
      rw [hfails, if_pos rfl] at hfree
      exact absurd (hfree t ht) (not_le.mpr hlt)
    | false =>
      rw [hfails, if_neg Bool.false_ne_true] at hfree
      exact ⟨body, e, n, id, _, v, u, lockedAt, hcall, hfails, hrow, hclock, hwrong, hu, hlocked,
        (unlocks_iff hexpired hlocked).mp hfree⟩
  · rintro ⟨body, e, n, id, data, v, u, lockedAt, hcall, hfails, hrow, hclock, hwrong, hu, hlocked, hold⟩
    obtain ⟨checkedAt, lockedAt', hclock', rfl, hexpired, hafter⟩ :=
      update_of_call h hcall hrow hwrong hu
    obtain rfl : lockedAt = lockedAt' := Option.some.inj (hclock.symm.trans hclock')
    rw [hfails, if_neg Bool.false_ne_true] at hafter
    exact ⟨body, e, n, id, _, v, u, _, hcall, hrow, hwrong, hu, hafter, hlocked,
      (unlocks_iff hexpired hlocked).mpr hold⟩

theorem keepsGuess_run (db : Db) (start : Time) (es : List (Event (Option Json) Tick)) :
    ((loginSystem pkg db start).state ((loginSystem pkg db start).log es)).Kept guessWorld
      (guesses pkg) := by
  have hinv : (guesses pkg).inv ⟨db, start⟩ := trivial
  exact Pool.Kept.run (fun body w _ => keepsGuess_login body) (fun _ _ => trivial) hinv es

end

/-- In every run of logins, the lock of no account is lifted by a wrong
password exactly if no wrong password is written over a lock on the strength
of a reading that is out of date. -/
theorem lock_outlasts_wrong_passwords (db : Db) (start : Time)
    (es : List (Event (Option Json) Tick)) :
    Always (fun x _ => ¬ LiftsLock pkg x) ((loginSystem pkg db start).log es) ↔
      Always (fun x _ => ¬ OverwritesLock pkg x) ((loginSystem pkg db start).log es) := by
  induction es with
  | nil => exact Iff.rfl
  | cons e es ih =>
    rw [System.log_cons, always_cons, always_cons]
    exact and_congr (not_congr (liftsLock_iff (keepsGuess_run db start es) e)) ih

private def scrypt : Packages where
  sign _ _ := ""
  decode _ := ⟨"", .viewer, none, 0, 0⟩
  reject _ _ _ := some "not a token"
  comparePassword password passwordHash := password == passwordHash
  isEmail _ := true

/-- Locked until 10, after five failures. -/
private def lockedOut : User := ⟨"u1", "alice@rvep.dev", "correct-horse", .operator, 5, some 10, 0⟩

private def archive : Db where
  users := [lockedOut]
  vehicles := []
  permissions := []
  sessions := []
  leases := []
  events := []

private def guessed : Option Json :=
  some (.obj [("email", .str "alice@rvep.dev"), ("password", .str "password")])

private def moves (task count : Nat) : List (Event (Option Json) Tick) :=
  List.replicate count (.step task ⟨1, false⟩)

/-- The lock has just run out when the first attempt reads the account; five
others lock it again before that attempt makes its update. Newest first. -/
def lateGuess : List (Event (Option Json) Tick) :=
  moves 0 1 ++ moves 5 7 ++ moves 4 6 ++ moves 3 6 ++ moves 2 6 ++ moves 1 6 ++ moves 0 4 ++
    List.replicate 6 (.spawn guessed)

set_option maxRecDepth 4000 in
theorem late_guess_lifts_lock :
    ¬ Always (fun x _ => ¬ LiftsLock scrypt x) ((loginSystem scrypt archive 10).log lateGuess) := by
  intro h
  refine h.1 ⟨_, _, _, _, _, _, _, _, rfl, rfl, ⟨⟨"alice@rvep.dev", "password"⟩, ?_, ?_⟩, rfl, rfl,
    ⟨_, rfl, ?_⟩, ?_⟩
  · decide
  · decide
  · decide +kernel
  · exact fun t ht => absurd ht (Option.not_mem_none t)

end Rvep.Backend
