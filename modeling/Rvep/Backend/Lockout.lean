import Rvep.Backend.Auth

/-!
# Wrong passwords lock the account

Logins with a wrong password interleaved call by call. Each reads the account,
and writes the counter it read plus one some calls later, so an attempt is lost
when another has written in between. Without such a loss the fifth attempt
locks the account.
-/

namespace Rvep.Backend

open Interleaving Reactive

-- ---------------------------------------------------------------------------
-- The account
-- ---------------------------------------------------------------------------

/-- `u` is what the row of `user` has become. -/
structure Db.Account (db : Db) (user u : User) : Prop where
  byEmail : db.users.find? (·.email == user.email) = some u
  byId : db.user? user.id = some u
  hash : u.passwordHash = user.passwordHash

section
variable {db db' : Db} {user u u' : User}

theorem Db.Account.eq (h : db.Account user u) (h' : db.Account user u') : u = u' :=
  Option.some.inj (h.byEmail.symm.trans h'.byEmail)

theorem Db.Account.exec_find (h : db.Account user u) (e : Choice) (hfails : e.fails = false) :
    Call.exec e db (.query (.userFindByEmail user.email)) = (db, .ok (some u)) := by
  rw [Call.exec, Query.exec_of_not_fails hfails, Query.answer, h.byEmail]

theorem Db.Account.exec_update (h : db.Account user u) (e : Choice) (hfails : e.fails = false)
    {data : UserUpdate} :
    Call.exec e db (.query (.userUpdate user.id data)) =
      ({ db with users := db.users.map fun v => if v.id == user.id then v.update data else v },
        .ok (u.update data)) := by
  rw [Call.exec, Query.exec_of_not_fails hfails, Query.answer, h.byId]

theorem Db.Account.id_eq (h : db.Account user u) : u.id = user.id := user?_id h.byId

theorem Db.Account.congr (hu : db'.users = db.users) (h : db.Account user u) :
    db'.Account user u :=
  ⟨by rw [hu, h.byEmail], by rw [Db.user?, hu]; exact h.byId, h.hash⟩

theorem Db.Account.update (h : db.Account user u) (data : UserUpdate) :
    Db.Account { db with
      users := db.users.map fun v => if v.id == user.id then v.update data else v }
      user (u.update data) := by
  have hid : (u.id == user.id) = true := by
    rw [h.id_eq]
    exact beq_self_eq_true user.id
  refine ⟨?_, ?_, h.hash⟩
  · rw [find?_userUpdate _ _ _ _ fun _ => rfl, h.byEmail, Option.map_some, if_pos hid]
  · have hfound : db.users.find? (·.id == user.id) = some u := h.byId
    rw [Db.user?, find?_userUpdate _ _ _ _ fun _ => rfl, hfound, Option.map_some, if_pos hid]

end

-- ---------------------------------------------------------------------------
-- Counting failures
-- ---------------------------------------------------------------------------

/-- The account is locked until at least `lockDurationMs` after the first update. -/
def User.LockedFrom (u : User) (first : Time) : Prop :=
  ∃ t, u.lockedUntil = some t ∧ first + lockDurationMs ≤ t

/-- `tally` failures have been written to an account that was unlocked at
`start`: it is locked, or the counter has missed none of them. -/
structure User.Counts (u : User) (start first : Time) (tally : Nat) (clock : Time) : Prop where
  since : 0 < u.failedLoginCount → first ≤ clock
  outcome : u.LockedFrom first ∨ (u.failedLoginCount = tally ∧ tally < 5 ∧
    (0 < tally → u.lockedUntil = none) ∧ ∀ t ∈ u.lockedUntil, t ≤ start)

section
variable {u : User} {start first clock clock' : Time} {tally : Nat}

theorem User.Counts.later (h : u.Counts start first tally clock) (hle : clock ≤ clock') :
    u.Counts start first tally clock' :=
  ⟨fun hpos => (h.since hpos).trans hle, h.outcome⟩

/-- Who finds the account unlocked before the lock runs out has not read it as it is now. -/
theorem User.LockedFrom.absurd (h : u.LockedFrom first) {checkedAt : Time}
    (hunlocked : ∀ t ∈ u.lockedUntil, t ≤ checkedAt) (hchecked : checkedAt ≤ clock)
    (hbefore : clock < first + lockDurationMs) : False := by
  obtain ⟨t, ht, hle⟩ := h
  exact not_le.mpr hbefore (hle.trans ((hunlocked t ht).trans hchecked))

/-- A failure written by an attempt that has read the account as it is now is counted. -/
theorem User.Counts.fail (h : u.Counts start first tally clock) {checkedAt lockedAt : Time}
    (hunlocked : ∀ t ∈ u.lockedUntil, t ≤ checkedAt) (hstart : start ≤ checkedAt)
    (hchecked : checkedAt ≤ clock') (hlocked : 0 < u.failedLoginCount → first ≤ lockedAt)
    (hfirst : first ≤ clock') (hbefore : clock' < first + lockDurationMs) :
    (u.update (loginFailure u checkedAt lockedAt)).Counts start first (tally + 1) clock' := by
  refine ⟨fun _ => hfirst, ?_⟩
  rcases h.outcome with hlocked' | ⟨hcount, hfew, hnone, hpast⟩
  · exact (hlocked'.absurd hunlocked hchecked hbefore).elim
  · cases hl : u.lockedUntil with
    | some t =>
      -- an expired lock: the count starts again, and no failure was counted before
      have htally : tally = 0 := by
        by_contra hpos
        exact absurd (hl.symm.trans (hnone (Nat.pos_of_ne_zero hpos))) nofun
      have hexpired : t ≤ checkedAt := (hpast t hl).trans hstart
      subst htally
      right
      simp [User.update, loginFailure, hl, hexpired, maxFailedAttempts]
    | none =>
      by_cases hlast : tally = 4
      · left
        refine ⟨lockedAt + lockDurationMs, ?_, ?_⟩
        · simp [User.update, loginFailure, hl, hcount, hlast, maxFailedAttempts]
        · exact Int.add_le_add_right (hlocked (by omega)) lockDurationMs
      · right
        have hshort : ¬ (5 : Int) ≤ tally + 1 := by omega
        have hfree : (u.update (loginFailure u checkedAt lockedAt)).lockedUntil = none := by
          simp [User.update, loginFailure, hl, hcount, maxFailedAttempts, hshort]
        refine ⟨?_, by omega, fun _ => hfree, fun t ht => ?_⟩
        · simp [User.update, loginFailure, hl, hcount]
        · exact absurd (hfree.symm.trans ht) nofun

end

-- ---------------------------------------------------------------------------
-- Attempts
-- ---------------------------------------------------------------------------

variable (pkg : Packages) (user : User)

/-- A login of the account with a wrong password. -/
structure WrongLogin where
  body : Option Json
  parsed : LoginBody
  valid : validateBody body (loginSchema pkg) = .ok parsed
  account : parsed.email = user.email
  wrong : pkg.comparePassword parsed.password user.passwordHash = false

/-- The database under a clock that never goes back. -/
structure Clocked where
  db : Db
  clock : Time

/-- What the environment chooses: how far the clock moves, and whether the database fails. -/
structure Tick where
  advance : Nat
  fails : Bool

def Tick.choice (e : Tick) (w : Clocked) : Choice := ⟨w.clock + e.advance, e.fails⟩

/-- What an attempt remembers: the account as it read it, the time it did so,
and whether it has written. -/
structure Attempt where
  seen : Option (User × Time)
  wrote : Bool

def lockoutWorld : World Call Call.Reply Clocked Tick Attempt where
  exec e w c := (⟨(c.exec (e.choice w) w.db).1, (e.choice w).now⟩, (c.exec (e.choice w) w.db).2)
  blank := ⟨none, false⟩
  observe n w c r :=
    match c, r with
    | .query (.userFindByEmail _), .ok u => { n with seen := u.map (·, w.clock) }
    | .query (.userUpdate _ _), .ok _ => { n with wrote := true }
    | _, _ => n

/-- An attempt that waits to write `data` has found the account unlocked and
computes the update from what it read. -/
structure Attempt.Writes (n : Attempt) (start : Time) (data : UserUpdate) (clock : Time) : Prop where
  once : n.wrote = false
  computed : ∃ u seenAt checkedAt lockedAt, n.seen = some (u, seenAt) ∧
    data = loginFailure u checkedAt lockedAt ∧ (∀ t ∈ u.lockedUntil, t ≤ checkedAt) ∧
      start ≤ checkedAt ∧ checkedAt ≤ clock ∧ seenAt ≤ lockedAt

/-- An attempt that has been answered has written, or has found the account locked. -/
def Attempt.Answered (n : Attempt) (start : Time) : Prop :=
  n.wrote = true ∨ ∃ u seenAt t, n.seen = some (u, seenAt) ∧ u.lockedUntil = some t ∧ start < t

/-- Where an attempt may stand. -/
def Attempt.Stands (n : Attempt) (start : Time) : Point Call Response → Time → Prop
  | .waiting .now, _ => True
  | .waiting (.query (.userFindByEmail email)), _ => email = user.email
  | .waiting (.query (.userUpdate id data)), clock => id = user.id ∧ n.Writes start data clock
  | .waiting (.query (.eventLogCreate _)), _ => True
  | .waiting _, _ => False
  | .finished r, _ => r.status ≠ 500 → n.Answered start

def Clocked.Continues (w w' : Clocked) : Prop :=
  w.clock ≤ w'.clock ∧ ((∃ u, w.db.Account user u) → ∃ u, w'.db.Account user u)

def attempts (start : Time) : Contract (WrongLogin pkg user) Call Response Clocked Tick Attempt where
  inv w := start ≤ w.clock ∧ ∃ u, w.db.Account user u
  rely := Clocked.Continues user
  here _ n q w := n.Stands user start q w.clock
  guar _ _ _ _ w _ _ w' := Clocked.Continues user w w'
  refl _ := ⟨le_refl _, id⟩
  trans h h' := ⟨h.1.trans h'.1, fun ha => h'.2 (h.2 ha)⟩
  rely_of_guar h := h

section
variable {pkg : Packages} {user : User} {start : Time} {route : WrongLogin pkg user} {n : Attempt}
  {w : Clocked}

abbrev KeepsAttempt (start : Time) (route : WrongLogin pkg user) (n : Attempt)
    (prog : Prog Call Call.Reply Response) (w : Clocked) : Prop :=
  (attempts pkg user start).Kept lockoutWorld route n prog w

theorem Attempt.Writes.later {data : UserUpdate} {clock clock' : Time}
    (h : n.Writes start data clock) (hle : clock ≤ clock') : n.Writes start data clock' := by
  obtain ⟨honce, u, seenAt, checkedAt, lockedAt, hseen, hdata, hun, hst, hch, hlk⟩ := h
  exact ⟨honce, u, seenAt, checkedAt, lockedAt, hseen, hdata, hun, hst, hch.trans hle, hlk⟩

theorem clock_le_exec (e : Tick) (c : Call) : w.clock ≤ (lockoutWorld.exec e w c).1.clock :=
  Int.le_add_of_nonneg_right (Int.natCast_nonneg e.advance)

/-- A call that leaves the users alone continues the account. -/
theorem continues_of_users {e : Tick} {c : Call}
    (h : (c.exec (e.choice w) w.db).1.users = w.db.users) :
    Clocked.Continues user w (lockoutWorld.exec e w c).1 :=
  ⟨clock_le_exec e c, fun ⟨u, hu⟩ => ⟨u, hu.congr h⟩⟩

theorem keepsAttempt_done {r : Response} (h : r.status ≠ 500 → n.Answered start) :
    KeepsAttempt start route n (.done r) w := fun _ _ _ => h

theorem keepsAttempt_failed : KeepsAttempt start route n (.done (fail "internal_error" 500)) w :=
  keepsAttempt_done fun h => absurd rfl h

theorem keepsAttempt_now {f : Time → Handler Response}
    (hf : ∀ w', w.clock ≤ w'.clock → start ≤ w'.clock →
      KeepsAttempt start route n (Handler.serve (f w'.clock)) w') :
    KeepsAttempt start route n (Handler.serve (Handler.now >>= f)) w := by
  rw [serve_now_bind]
  intro w' hw hi
  refine ⟨trivial, fun e => ⟨continues_of_users rfl, fun hi' => ?_⟩⟩
  exact hf _ (hw.1.trans (clock_le_exec e .now)) hi'.1

theorem keepsAttempt_audit {event : EventData} {f : Unit → Handler Response}
    (hf : ∀ w', KeepsAttempt start route n (Handler.serve (f ())) w') :
    KeepsAttempt start route n (Handler.serve (audit event >>= f)) w := by
  rw [serve_audit_bind]
  intro w' _ _
  refine ⟨trivial, fun e => ⟨continues_of_users ?_, fun _ => hf _⟩⟩
  simp only [Call.exec, Query.exec]
  split <;> rfl

theorem keepsAttempt_find {f : Option User → Handler Response}
    (hf : ∀ w' u seenAt, seenAt ≤ w'.clock → u.id = user.id → u.passwordHash = user.passwordHash →
      KeepsAttempt start route { n with seen := some (u, seenAt) } (Handler.serve (f (some u))) w') :
    KeepsAttempt start route n
      (Handler.serve (Handler.query (.userFindByEmail user.email) >>= f)) w := by
  rw [serve_query_bind]
  rintro w' - ⟨-, u, hu⟩
  refine ⟨rfl, fun e => ⟨continues_of_users ?_, fun _ => ?_⟩⟩
  · rw [Call.exec, Query.exec_isRead rfl]
  · cases hfails : e.fails with
    | true =>
      simp only [lockoutWorld, Call.exec_fails (e.choice w') hfails]
      exact keepsAttempt_failed
    | false =>
      simp only [lockoutWorld, hu.exec_find (e.choice w') hfails]
      exact hf _ u w'.clock (clock_le_exec e .now) hu.id_eq hu.hash

theorem keepsAttempt_update {id : String} {data : UserUpdate} {f : User → Handler Response}
    (hid : id = user.id) (hwrites : n.Writes start data w.clock)
    (hf : ∀ w' u, KeepsAttempt start route { n with wrote := true } (Handler.serve (f u)) w') :
    KeepsAttempt start route n (Handler.serve (Handler.query (.userUpdate id data) >>= f)) w := by
  subst hid
  rw [serve_query_bind]
  rintro w' hw ⟨-, u, hu⟩
  refine ⟨⟨rfl, hwrites.later hw.1⟩, fun e => ?_⟩
  cases hfails : e.fails with
  | true =>
    refine ⟨continues_of_users (by rw [Call.exec_fails (e.choice w') hfails]), fun _ => ?_⟩
    simp only [lockoutWorld, Call.exec_fails (e.choice w') hfails]
    exact keepsAttempt_failed
  | false =>
    simp only [lockoutWorld, hu.exec_update (e.choice w') hfails]
    exact ⟨⟨clock_le_exec e .now, fun _ => ⟨_, hu.update data⟩⟩, fun _ => hf _ _⟩

theorem keepsAttempt_login (route : WrongLogin pkg user) (w : Clocked) :
    KeepsAttempt start route ⟨none, false⟩ (login pkg route.body) w := by
  unfold login
  rw [route.valid, orThrow, pure_bind, route.account]
  refine keepsAttempt_find fun w₁ u seenAt h₁ hid hhash => keepsAttempt_now fun w₂ h₂ hstart₂ => ?_
  simp only
  split
  next hlocked =>
    obtain ⟨t, ht, hlt⟩ := (Option.any_eq_true ..).mp hlocked
    refine keepsAttempt_audit fun _ => keepsAttempt_done fun _ => .inr ?_
    exact ⟨u, seenAt, t, rfl, ht, lt_of_le_of_lt hstart₂ (of_decide_eq_true hlt)⟩
  next hunlocked =>
    unfold loginUnlocked
    rw [hhash, route.wrong]
    simp only [Bool.not_false, if_true, recordLoginFailure, bind_assoc]
    refine keepsAttempt_now fun w₃ h₃ hstart₃ => keepsAttempt_now fun w₄ h₄ _ => ?_
    have hwrites : Attempt.Writes ⟨some (u, seenAt), false⟩ start
        (loginFailure u w₃.clock w₄.clock) w₄.clock := by
      refine ⟨rfl, u, seenAt, w₃.clock, w₄.clock, rfl, rfl, fun t ht => ?_, hstart₃, h₄, ?_⟩
      · have hle : t ≤ w₂.clock := by simpa [Option.mem_def.mp ht] using hunlocked
        exact hle.trans h₃
      · exact h₁.trans (h₂.trans (h₃.trans h₄))
    refine keepsAttempt_update hid hwrites fun _ _ => ?_
    have hdone {w : Clocked} :
        KeepsAttempt start route ⟨some (u, seenAt), true⟩ (.done (fail "invalid_credentials" 401)) w :=
      keepsAttempt_done fun _ => .inl rfl
    split
    · rw [bind_assoc]
      exact keepsAttempt_audit fun _ => keepsAttempt_audit fun _ => hdone
    · exact keepsAttempt_audit fun _ => hdone

end

-- ---------------------------------------------------------------------------
-- Every interleaving
-- ---------------------------------------------------------------------------

abbrev LockoutPool := Pool (WrongLogin pkg user) Call Call.Reply Response Clocked Attempt

/-- Any number of wrong-password logins of one account, one call a step. -/
def lockoutSystem (db : Db) (start : Time) :
    System (LockoutPool pkg user) (Event (WrongLogin pkg user) Tick) Unit :=
  pool lockoutWorld (fun route => login pkg route.body) ⟨db, start⟩

/-- The update an event makes, if it goes through: when, by whom, and of which row. -/
def update? (p : LockoutPool pkg user) (event : Event (WrongLogin pkg user) Tick) :
    Option (Time × Attempt × String) :=
  match p.call? event with
  | some (_, e, n, .query (.userUpdate id _)) =>
    if e.fails then none else some ((e.choice p.world).now, n, id)
  | _ => none

/-- An attempt writes to an account that has changed since it read it. -/
def WritesStale (p : LockoutPool pkg user) (event : Event (WrongLogin pkg user) Tick) : Prop :=
  ∃ x ∈ update? pkg user p event, ∃ seen ∈ x.2.1.seen, p.world.db.user? x.2.2 ≠ some seen.1

/-- No update goes through before `first`. -/
def UpdatesFrom (first : Time) (p : LockoutPool pkg user) (event : Event (WrongLogin pkg user) Tick) :
    Prop :=
  ∀ x ∈ update? pkg user p event, first ≤ x.1

instance (p : LockoutPool pkg user) (event : Event (WrongLogin pkg user) Tick) :
    Decidable (WritesStale pkg user p event) :=
  inferInstanceAs (Decidable (∃ x ∈ update? pkg user p event, ∃ seen ∈ x.2.1.seen,
    p.world.db.user? x.2.2 ≠ some seen.1))

instance (first : Time) (p : LockoutPool pkg user) (event : Event (WrongLogin pkg user) Tick) :
    Decidable (UpdatesFrom pkg user first p event) :=
  inferInstanceAs (Decidable (∀ x ∈ update? pkg user p event, first ≤ x.1))

/-- Five attempts or more, all answered within the lock's duration of `first`,
leave the account locked. -/
def LocksOut (first : Time) (p : LockoutPool pkg user) : Prop :=
  5 ≤ p.tasks.length → (∀ t ∈ p.tasks, ∃ r, t.prog = .done r ∧ r.status ≠ 500) →
    p.world.clock < first + lockDurationMs →
      ∃ u t, p.world.db.Account user u ∧ u.lockedUntil = some t ∧ p.world.clock < t

section
variable {pkg : Packages} {user : User} {start first : Time} {p : LockoutPool pkg user}

def tally (p : LockoutPool pkg user) : Nat := p.tasks.countP (·.note.wrote)

/-- The counter has kept up with the attempts, and what an attempt has seen is
no news to it. -/
structure Tallied (start first : Time) (p : LockoutPool pkg user) : Prop where
  account : ∃ u, p.world.db.Account user u ∧ u.Counts start first (tally p) p.world.clock
  seen : ∀ t ∈ p.tasks, ∀ u seenAt, t.note.seen = some (u, seenAt) →
    (0 < u.failedLoginCount → first ≤ seenAt) ∧
      ((∃ t ∈ u.lockedUntil, start < t) → ∃ u', p.world.db.Account user u' ∧ u'.LockedFrom first)

/-- Whoever reads a lock that is news since `start` reads one of `first` or later. -/
theorem User.Counts.locked {u : User} {n : Nat} {clock : Time} (h : u.Counts start first n clock)
    (hnews : ∃ t ∈ u.lockedUntil, start < t) : u.LockedFrom first := by
  rcases h.outcome with hlocked | ⟨-, -, -, hpast⟩
  · exact hlocked
  · obtain ⟨t, ht, hlt⟩ := hnews
    exact absurd (hpast t ht) (not_le.mpr hlt)

/-- A call that neither writes to the account nor is counted. -/
theorem Tallied.quiet (h : Tallied start first p) {i : Nat} {w : Clocked}
    {t t' : Task (WrongLogin pkg user) Call Call.Reply Response Attempt} (hget : p.tasks[i]? = some t)
    (husers : w.db.users = p.world.db.users) (hle : p.world.clock ≤ w.clock)
    (hwrote : t'.note.wrote = t.note.wrote)
    (hseen : t'.note.seen = t.note.seen ∨
      ∃ u, p.world.db.Account user u ∧ t'.note.seen = some (u, p.world.clock)) :
    Tallied start first (⟨w, p.tasks.set i t'⟩ : LockoutPool pkg user) := by
  obtain ⟨u, hu, hcounts⟩ := h.account
  have htally : tally (⟨w, p.tasks.set i t'⟩ : LockoutPool pkg user) = tally p := by
    have hmove := countP_set_task (·.note.wrote) t' hget
    rw [hwrote] at hmove
    exact Nat.add_right_cancel hmove
  have hkeep : (∃ u', p.world.db.Account user u' ∧ u'.LockedFrom first) →
      ∃ u', w.db.Account user u' ∧ u'.LockedFrom first :=
    fun ⟨u', hu', hlocked⟩ => ⟨u', hu'.congr husers, hlocked⟩
  refine ⟨⟨u, hu.congr husers, htally ▸ hcounts.later hle⟩, fun s hs v seenAt hv => ?_⟩
  have hold {s : Task (WrongLogin pkg user) Call Call.Reply Response Attempt} (hs : s ∈ p.tasks)
      (hv : s.note.seen = some (v, seenAt)) := h.seen s hs v seenAt hv
  rcases List.mem_or_eq_of_mem_set hs with hs | rfl
  · exact ⟨(hold hs hv).1, fun hnews => hkeep ((hold hs hv).2 hnews)⟩
  · rcases hseen with hsame | ⟨u', hu', hnew⟩
    · have hv' := hsame.symm.trans hv
      have ht := List.mem_of_getElem? hget
      exact ⟨(hold ht hv').1, fun hnews => hkeep ((hold ht hv').2 hnews)⟩
    · obtain ⟨rfl, rfl⟩ : u' = v ∧ p.world.clock = seenAt := by simpa using hnew.symm.trans hv
      obtain rfl := hu.eq hu'
      exact ⟨hcounts.since, fun hnews => hkeep ⟨u, hu, hcounts.locked hnews⟩⟩

/-- An update of the account as it is now counts one attempt more. -/
theorem Tallied.write (h : Tallied start first p) {i : Nat} {w : Clocked} {u : User} {seenAt : Time}
    {data : UserUpdate} {t t' : Task (WrongLogin pkg user) Call Call.Reply Response Attempt}
    (hget : p.tasks[i]? = some t) (hu : p.world.db.Account user u)
    (hw : w.db.Account user (u.update data)) (hle : p.world.clock ≤ w.clock)
    (hwrites : t.note.Writes start data p.world.clock) (hseen : t.note.seen = some (u, seenAt))
    (hnote : t'.note = { t.note with wrote := true })
    (hfirst : first ≤ w.clock) (hbefore : w.clock < first + lockDurationMs) :
    Tallied start first (⟨w, p.tasks.set i t'⟩ : LockoutPool pkg user) := by
  obtain ⟨u', hu', hcounts⟩ := h.account
  obtain rfl := hu.eq hu'
  obtain ⟨honce, u', seenAt', checkedAt, lockedAt, hseen', rfl, hun, hstart, hchecked, hlocked⟩ := hwrites
  obtain ⟨rfl, rfl⟩ : u = u' ∧ seenAt = seenAt' := by simpa using hseen.symm.trans hseen'
  have ht := List.mem_of_getElem? hget
  have htally : tally (⟨w, p.tasks.set i t'⟩ : LockoutPool pkg user) = tally p + 1 := by
    have hmove := countP_set_task (·.note.wrote) t' hget
    rw [hnote, honce] at hmove
    exact hmove
  have hearly : checkedAt ≤ w.clock := hchecked.trans hle
  refine ⟨⟨_, hw, ?_⟩, fun s hs v vAt hv => ?_⟩
  · rw [htally]
    exact hcounts.fail hun hstart hearly
      (fun hpos => ((h.seen t ht u seenAt hseen).1 hpos).trans hlocked) hfirst hbefore
  · -- had anybody seen the account locked, this attempt would have read it locked
    have hnone (hlocked : ∃ u', p.world.db.Account user u' ∧ u'.LockedFrom first) : False := by
      obtain ⟨u', hu', hlocked⟩ := hlocked
      obtain rfl := hu.eq hu'
      exact hlocked.absurd hun hearly hbefore
    rcases List.mem_or_eq_of_mem_set hs with hs | rfl
    · exact ⟨(h.seen s hs v vAt hv).1, fun hnews => (hnone ((h.seen s hs v vAt hv).2 hnews)).elim⟩
    · have hv' : t.note.seen = some (v, vAt) := by rwa [hnote] at hv
      exact ⟨(h.seen t ht v vAt hv').1, fun hnews => (hnone ((h.seen t ht v vAt hv').2 hnews)).elim⟩

theorem Tallied.step (hkept : p.Kept lockoutWorld (attempts pkg user start))
    (h : p.world.clock < first + lockDurationMs → Tallied start first p)
    (e : Event (WrongLogin pkg user) Tick)
    (hfresh : ¬ WritesStale pkg user p e) (hfrom : UpdatesFrom pkg user first p e) :
    let p' := p.step lockoutWorld (fun route => login pkg route.body) e
    p'.world.clock < first + lockDurationMs → Tallied start first p' := by
  intro p' hbefore
  rcases Pool.step_cases lockoutWorld (fun route : WrongLogin pkg user => login pkg route.body) p e with
    hsame | ⟨route, hspawn⟩ | ⟨i, choice, route, c, k, n, hget, hcall, hstep⟩
  · simp only [p', hsame] at hbefore ⊢
    exact h hbefore
  · simp only [p', hspawn] at hbefore ⊢
    obtain ⟨⟨u, hu, hcounts⟩, hseen⟩ := h hbefore
    refine ⟨⟨u, hu, ?_⟩, fun t ht u seenAt hv => ?_⟩
    · simpa [tally, lockoutWorld] using hcounts
    · rcases List.mem_append.mp ht with ht | ht
      · exact hseen t ht u seenAt hv
      · rw [List.mem_singleton.mp ht] at hv
        cases hv
  · simp only [p', hstep] at hbefore ⊢
    have hle := clock_le_exec (w := p.world) choice c
    have hp := h (lt_of_le_of_lt hle hbefore)
    have hstands : n.Stands user start (.waiting c) p.world.clock :=
      (hkept.tasks _ (List.mem_of_getElem? hget)).here hkept.inv
    obtain ⟨-, u, hu⟩ := hkept.inv
    cases c with
    | transaction tx => exact hstands.elim
    | now => exact hp.quiet hget rfl hle rfl (.inl rfl)
    | query q =>
      cases q with
      | eventLogCreate event =>
        refine hp.quiet hget ?_ hle rfl (.inl rfl)
        simp only [lockoutWorld, Call.exec, Query.exec]
        split <;> rfl
      | userFindByEmail email =>
        obtain rfl : email = user.email := hstands
        cases hfails : choice.fails with
        | true =>
          simp only [lockoutWorld, Call.exec_fails (choice.choice p.world) hfails]
          exact hp.quiet hget rfl hle rfl (.inl rfl)
        | false =>
          simp only [lockoutWorld, hu.exec_find (choice.choice p.world) hfails]
          exact hp.quiet hget rfl hle rfl (.inr ⟨u, hu, rfl⟩)
      | userUpdate id data =>
        obtain ⟨rfl, hwrites⟩ : id = user.id ∧ n.Writes start data p.world.clock := hstands
        cases hfails : choice.fails with
        | true =>
          simp only [lockoutWorld, Call.exec_fails (choice.choice p.world) hfails]
          exact hp.quiet hget rfl hle rfl (.inl rfl)
        | false =>
          have hupdate : update? pkg user p e = some ((choice.choice p.world).now, n, user.id) := by
            rw [update?, hcall]
            simp only [hfails, Bool.false_eq_true, if_false]
          obtain ⟨_, v, seenAt, _, _, hseen, _⟩ := id hwrites
          have hnow : v = u := by
            by_contra hne
            refine hfresh ⟨_, hupdate, (v, seenAt), hseen, fun hv => hne ?_⟩
            exact (Option.some.inj (hu.byId.symm.trans hv)).symm
          subst hnow
          simp only [lockoutWorld, hu.exec_update (choice.choice p.world) hfails] at hbefore ⊢
          exact hp.write hget hu (hu.update data) hle hwrites hseen rfl (hfrom _ hupdate) hbefore
      | _ => exact hstands.elim

end

section
variable {pkg user}

theorem keepsAttempt_run (db : Db) (start : Time) (h : db.Account user user)
    (es : List (Event (WrongLogin pkg user) Tick)) :
    ((lockoutSystem pkg user db start).state ((lockoutSystem pkg user db start).log es)).Kept
      lockoutWorld (attempts pkg user start) := by
  have hinv : (attempts pkg user start).inv ⟨db, start⟩ := ⟨le_refl start, user, h⟩
  refine Pool.Kept.run (fun route w _ => keepsAttempt_login route w) ?_ hinv es
  intro _ _ _ _ w _ _ w' hi hguar
  exact ⟨hi.1.trans hguar.1, hguar.2 hi.2⟩

theorem tallied_run (db : Db) (start first : Time) (h : db.Account user user)
    (hcount : user.failedLoginCount = 0) (hunlocked : ∀ t ∈ user.lockedUntil, t ≤ start)
    (es : List (Event (WrongLogin pkg user) Tick))
    (hfresh : Always (fun x _ => ¬ WritesStale pkg user x.before x.event)
      ((lockoutSystem pkg user db start).log es))
    (hfrom : Always (fun x _ => UpdatesFrom pkg user first x.before x.event)
      ((lockoutSystem pkg user db start).log es)) :
    let p := (lockoutSystem pkg user db start).state ((lockoutSystem pkg user db start).log es)
    p.world.clock < first + lockDurationMs → Tallied start first p := by
  induction es with
  | nil =>
    refine fun _ => ⟨⟨user, h, fun hpos => ?_, .inr ⟨hcount, Nat.succ_pos 4, nofun, hunlocked⟩⟩, ?_⟩
    · exact absurd hcount (ne_of_gt hpos)
    · exact fun t ht => absurd ht List.not_mem_nil
  | cons e es ih =>
    exact Tallied.step (keepsAttempt_run db start h es) (ih hfresh.2 hfrom.2) e hfresh.1 hfrom.1

end

/-- From an unlocked account with no failed logins, every run of logins with
wrong passwords, none of which writes over another, locks the account with the
fifth. -/
theorem wrong_passwords_lock_out (db : Db) (start first : Time) (h : db.Account user user)
    (hcount : user.failedLoginCount = 0) (hunlocked : ∀ t ∈ user.lockedUntil, t ≤ start)
    (es : List (Event (WrongLogin pkg user) Tick))
    (hfrom : Always (fun x _ => UpdatesFrom pkg user first x.before x.event)
      ((lockoutSystem pkg user db start).log es)) :
    Always (fun x _ => ¬ WritesStale pkg user x.before x.event)
        ((lockoutSystem pkg user db start).log es) →
      LocksOut pkg user first
        ((lockoutSystem pkg user db start).state ((lockoutSystem pkg user db start).log es)) := by
  intro hfresh hmany hanswered hbefore
  have hkept := keepsAttempt_run db start h es
  obtain ⟨⟨u, hu, hcounts⟩, hseen⟩ :=
    tallied_run db start first h hcount hunlocked es hfresh hfrom hbefore
  have hlocked : u.LockedFrom first := by
    by_cases hall : ∀ t ∈ ((lockoutSystem pkg user db start).state
        ((lockoutSystem pkg user db start).log es)).tasks, t.note.wrote = true
    · rcases hcounts.outcome with hlocked | ⟨-, hfew, -⟩
      · exact hlocked
      · rw [tally, List.countP_eq_length.mpr hall] at hfew
        exact absurd hmany (not_le.mpr hfew)
    · obtain ⟨t, ht, hwrote⟩ := not_forall₂.mp hall
      obtain ⟨r, hr, hstatus⟩ := hanswered t ht
      have hstands := (hkept.tasks t ht).here hkept.inv
      rw [hr] at hstands
      rcases hstands hstatus with hwrote' | ⟨v, seenAt, until', hv, huntil, hlt⟩
      · exact absurd hwrote' hwrote
      · obtain ⟨u', hu', hlocked⟩ := (hseen t ht v seenAt hv).2 ⟨until', huntil, hlt⟩
        exact hu.eq hu' ▸ hlocked
  obtain ⟨t, ht, hle⟩ := hlocked
  exact ⟨u, t, hu, ht, lt_of_lt_of_le hbefore hle⟩

private def bcrypt : Packages where
  sign _ _ := ""
  decode _ := ⟨"", .viewer, none, 0, 0⟩
  reject _ _ _ := some "not a token"
  comparePassword password passwordHash := password == passwordHash
  isEmail _ := true

private def target : User := ⟨"u1", "alice@rvep.dev", "correct-horse", .operator, 0, none, 0⟩

private def office : Db where
  users := [target]
  vehicles := []
  permissions := []
  sessions := []
  leases := []
  events := []

private def guess : WrongLogin bcrypt target where
  body := some (.obj [("email", .str "alice@rvep.dev"), ("password", .str "password")])
  parsed := ⟨"alice@rvep.dev", "password"⟩
  valid := by decide
  account := rfl
  wrong := by decide

private theorem office_account : office.Account target target := ⟨rfl, rfl, rfl⟩

private def tries (task count : Nat) : List (Event (WrongLogin bcrypt target) Tick) :=
  List.replicate count (.step task ⟨1, false⟩)

/-- Five attempts, one after another. Newest first. -/
def fiveGuesses : List (Event (WrongLogin bcrypt target) Tick) :=
  tries 4 7 ++ tries 3 6 ++ tries 2 6 ++ tries 1 6 ++ tries 0 6 ++ List.replicate 5 (.spawn guess)

private theorem answered_of_points {p : LockoutPool bcrypt target} {n : Nat} {r : Response}
    (h : p.tasks.map (·.prog.point) = List.replicate n (.finished r)) (hr : r.status ≠ 500) :
    ∀ t ∈ p.tasks, ∃ r, t.prog = .done r ∧ r.status ≠ 500 := by
  intro t ht
  have hpoint : t.prog.point ∈ List.replicate n (.finished r) := h ▸ List.mem_map_of_mem ht
  have hfinished : t.prog.point = .finished r := (List.mem_replicate.mp hpoint).2
  cases hprog : t.prog with
  | call c k => exact absurd (hprog ▸ hfinished) nofun
  | done r' =>
    rw [hprog] at hfinished
    cases hfinished
    exact ⟨r, rfl, hr⟩

theorem five_guesses_lock_out :
    let p := (lockoutSystem bcrypt target office 0).state
      ((lockoutSystem bcrypt target office 0).log fiveGuesses)
    ∃ u t, p.world.db.Account target u ∧ u.lockedUntil = some t ∧ p.world.clock < t := by
  have hfrom : Always (fun x _ => UpdatesFrom bcrypt target 5 x.before x.event)
      ((lockoutSystem bcrypt target office 0).log fiveGuesses) := by decide +kernel
  have hfresh : Always (fun x _ => ¬ WritesStale bcrypt target x.before x.event)
      ((lockoutSystem bcrypt target office 0).log fiveGuesses) := by decide +kernel
  refine wrong_passwords_lock_out bcrypt target office 0 5 office_account rfl nofun fiveGuesses hfrom
    hfresh (by decide +kernel) ?_ (by decide +kernel)
  exact answered_of_points (n := 5) (r := fail "invalid_credentials" 401) rfl (by decide)

/-- Five attempts that all read the account before any of them writes. Newest first. -/
def lostGuesses : List (Event (WrongLogin bcrypt target) Tick) :=
  tries 4 2 ++ tries 3 2 ++ tries 2 2 ++ tries 1 2 ++ tries 0 2 ++
    tries 4 4 ++ tries 3 4 ++ tries 2 4 ++ tries 1 4 ++ tries 0 4 ++ List.replicate 5 (.spawn guess)

theorem lost_guesses_leave_unlocked :
    office.Account target target ∧ target.failedLoginCount = 0 ∧ target.lockedUntil = none ∧
      Always (fun x _ => UpdatesFrom bcrypt target 21 x.before x.event)
        ((lockoutSystem bcrypt target office 0).log lostGuesses) ∧
      ¬ LocksOut bcrypt target 21 ((lockoutSystem bcrypt target office 0).state
        ((lockoutSystem bcrypt target office 0).log lostGuesses)) := by
  refine ⟨office_account, rfl, rfl, by decide +kernel, fun h => ?_⟩
  obtain ⟨u, t, hu, ht, -⟩ := h (by decide +kernel)
    (answered_of_points (n := 5) (r := fail "invalid_credentials" 401) rfl (by decide))
    (by decide +kernel)
  have hrow : some { target with failedLoginCount := 1 } = some u := hu.byEmail
  obtain rfl := Option.some.inj hrow
  exact absurd ht nofun

end Rvep.Backend
