import Rvep.Backend.Lockout

/-!
# One login after another

Logins of one account that do not overlap. The counter of failures and the lock
move together: five failures are a lock, and whoever finds it running is turned
away before the password is looked at.
-/

namespace Rvep.Backend

open Interleaving Reactive

variable (pkg : Packages) (user : User)

-- ---------------------------------------------------------------------------
-- Attempts
-- ---------------------------------------------------------------------------

/-- A login of the account: what its calls meet, and when it compares the
password, after it has checked the lock and before it goes on. The database
answers; an audit may fail. -/
structure LoginAttempt where
  body : Option Json
  parsed : LoginBody
  valid : validateBody body (loginSchema pkg) = .ok parsed
  account : parsed.email = user.email
  choices : Nat → Choice
  comparedAt : Time
  answers : ∀ i ≤ 4, (choices i).fails = false
  forward : ∀ i j, i ≤ j → (choices i).now ≤ (choices j).now
  checked : (choices 1).now ≤ comparedAt
  proceeds : comparedAt ≤ (choices 2).now

/-- The account whose logins these are: it exists, and has neither failures nor a lock. -/
structure FreshAccount where
  db : Db
  found : db.Account user user
  unfailed : user.failedLoginCount = 0
  unlocked : user.lockedUntil = none

section
variable {pkg user}

/-- When the attempt reads the clock to check the lock. -/
def LoginAttempt.checkedAt (a : LoginAttempt pkg user) : Time := (a.choices 1).now

def LoginAttempt.startedAt (a : LoginAttempt pkg user) : Time := (a.choices 0).now

/-- A login makes seven calls at most. -/
def LoginAttempt.answeredAt (a : LoginAttempt pkg user) : Time := (a.choices 6).now

def LoginAttempt.rightPassword (a : LoginAttempt pkg user) : Bool :=
  pkg.comparePassword a.parsed.password user.passwordHash

def LoginAttempt.run (a : LoginAttempt pkg user) (db : Db) : Db × Response :=
  (login pkg a.body).run Call.exec a.choices db

/-- The lock is running. -/
def User.LockedAt (u : User) (now : Time) : Prop := ∃ t, u.lockedUntil = some t ∧ now < t

end

def loginSequence (fresh : FreshAccount user) : System Db (LoginAttempt pkg user) Response where
  init := fresh.db
  step db a := a.run db

-- ---------------------------------------------------------------------------
-- What is limited
-- ---------------------------------------------------------------------------

abbrev AttemptEntry := Entry Db (LoginAttempt pkg user) Response
abbrev AttemptLog := Log Db (LoginAttempt pkg user) Response

section
variable {pkg user}

/-- The attempt finds the account unlocked and compares the password. -/
def Compares (x : AttemptEntry pkg user) : Prop :=
  ∀ u, x.before.Account user u → ¬ u.LockedAt x.event.checkedAt

def FailsComparison (x : AttemptEntry pkg user) : Prop :=
  Compares x ∧ x.event.rightPassword = false

def Succeeds (x : AttemptEntry pkg user) : Prop := x.output.status = 200

/-- The attempt compares the password between the two times. -/
def Within (first last : Time) (x : AttemptEntry pkg user) : Prop :=
  first ≤ x.event.comparedAt ∧ x.event.comparedAt ≤ last

open Classical in
/-- The failing comparisons between two times. -/
noncomputable def failuresWithin (first last : Time) (l : AttemptLog pkg user) : Nat :=
  l.countP fun x => FailsComparison x ∧ Within first last x

/-- No attempt begins before the ones before it are answered. -/
def AfterAll (x : AttemptEntry pkg user) (past : AttemptLog pkg user) : Prop :=
  ∀ y ∈ past, y.event.answeredAt ≤ x.event.startedAt

instance (x : AttemptEntry pkg user) (past : AttemptLog pkg user) : Decidable (AfterAll x past) :=
  inferInstanceAs (Decidable (∀ y ∈ past, _))

/-- The counter is below five, or is five and the account has a lock. -/
structure User.Coupled (u : User) : Prop where
  nonneg : 0 ≤ u.failedLoginCount
  le : u.failedLoginCount ≤ 5
  locked : u.failedLoginCount = 5 ↔ u.lockedUntil ≠ none

structure Limited (x : AttemptEntry pkg user) (past : AttemptLog pkg user) : Prop where
  coupled : ∃ u, x.after.Account user u ∧ u.Coupled
  rate : ∀ first last, last - first < lockDurationMs →
    (∀ y ∈ x :: past, Succeeds y → ¬ Within first last y) →
    failuresWithin first last (x :: past) ≤ 5
  turnedAway : ∀ u, x.before.Account user u → u.LockedAt x.event.checkedAt →
    x.output = fail "account_locked" 423 ∧ x.after.users = x.before.users

end

-- ---------------------------------------------------------------------------
-- One attempt
-- ---------------------------------------------------------------------------

section
variable {pkg user} {db : Db} {u : User} {a : LoginAttempt pkg user}

theorem Db.Account.find (h : db.Account user u) (now : Time) :
    (Query.userFindByEmail user.email).answer now db = (db, .ok (some u)) := by
  rw [Query.answer, h.byEmail]

theorem Db.Account.write (h : db.Account user u) (now : Time) (data : UserUpdate) :
    (Query.userUpdate u.id data).answer now db =
      ({ db with users := db.users.map fun v => if v.id == user.id then v.update data else v },
        .ok (u.update data)) := by
  rw [h.id_eq, Query.answer, h.byId]

/-- An audit leaves the users alone. -/
theorem users_audit (e : Choice) (db : Db) (event : EventData) :
    (Call.exec e db (.query (.eventLogCreate event))).1.users = db.users := by
  simp only [Call.exec, Query.exec]
  split <;> rfl

theorem login_checks (h : db.Account user u) :
    a.run db =
      (if u.lockedUntil.any fun t => decide (a.checkedAt < t) then do
        audit
          { eventName := "account_locked", vehicleId := none, sessionId := none
            userId := some u.id
            payload := some [("reason", .text "login_attempt_while_locked"),
              ("email", .text a.parsed.email)] }
        return fail "account_locked" 423
      else loginUnlocked pkg a.parsed u).alone (fun n => a.choices (n + 2)) db := by
  have hfind := h.find (a.choices 0).now
  rw [← a.account] at hfind
  rw [LoginAttempt.run, login, a.valid, orThrow]
  change Handler.alone _ a.choices db = _
  rw [alone_pure_bind, alone_query_ok _ (a.answers 0 (by omega)) hfind]
  rfl

/-- What becomes of the account `u`, and the answer. -/
inductive Attempted (u : User) (a : LoginAttempt pkg user) : User → Response → Prop
  | turnedAway : u.LockedAt a.checkedAt → Attempted u a u (fail "account_locked" 423)
  | failed : ¬ u.LockedAt a.checkedAt → a.rightPassword = false →
    Attempted u a (u.update (loginFailure u (a.choices 2).now (a.choices 3).now))
      (fail "invalid_credentials" 401)
  | loggedIn {r : Response} : ¬ u.LockedAt a.checkedAt → a.rightPassword = true → r.status = 200 →
    Attempted u a
      (u.update
        { failedLoginCount := some 0, lockedUntil := some none, refreshTokenVersionIncrement := 1 })
      r

theorem lockedAt_iff {now : Time} :
    u.LockedAt now ↔ (u.lockedUntil.any fun t => decide (now < t)) = true := by
  rw [User.LockedAt, Option.any_eq_true]
  simp only [decide_eq_true_eq]

theorem run_locked (h : db.Account user u) (hlocked : u.LockedAt a.checkedAt) :
    (a.run db).2 = fail "account_locked" 423 ∧ (a.run db).1.users = db.users := by
  rw [login_checks h, if_pos (lockedAt_iff.mp hlocked), alone_audit_bind, alone_pure]
  exact ⟨rfl, users_audit _ _ _⟩

theorem run_failed (h : db.Account user u) (hun : ¬ u.LockedAt a.checkedAt)
    (hwrong : a.rightPassword = false) :
    (a.run db).2 = fail "invalid_credentials" 401 ∧
      (a.run db).1.Account user (u.update (loginFailure u (a.choices 2).now (a.choices 3).now)) := by
  have hcompare : pkg.comparePassword a.parsed.password u.passwordHash = false := h.hash ▸ hwrong
  rw [login_checks h, if_neg (mt lockedAt_iff.mpr hun), loginUnlocked, hcompare]
  simp only [Bool.not_false, if_true, recordLoginFailure, bind_assoc]
  rw [alone_now_bind, alone_now_bind,
    alone_query_ok _ (a.answers 4 (by omega)) (h.write (a.choices 4).now _)]
  have hwritten := h.update (loginFailure u (a.choices 2).now (a.choices 3).now)
  split
  · rw [bind_assoc, alone_audit_bind, alone_audit_bind, alone_pure]
    exact ⟨rfl, (hwritten.congr (users_audit _ _ _)).congr (users_audit _ _ _)⟩
  · rw [alone_audit_bind, alone_pure]
    exact ⟨rfl, hwritten.congr (users_audit _ _ _)⟩

theorem run_loggedIn (h : db.Account user u) (hun : ¬ u.LockedAt a.checkedAt)
    (hright : a.rightPassword = true) :
    (a.run db).2.status = 200 ∧ (a.run db).1.Account user (u.update
      { failedLoginCount := some 0, lockedUntil := some none, refreshTokenVersionIncrement := 1 }) := by
  have hcompare : pkg.comparePassword a.parsed.password u.passwordHash = true := h.hash ▸ hright
  rw [login_checks h, if_neg (mt lockedAt_iff.mpr hun), loginUnlocked, hcompare]
  simp only [Bool.not_true, Bool.false_eq_true, if_false, signAccessToken, signRefreshToken, bind_assoc]
  rw [alone_query_ok _ (a.answers 2 (by omega)) (h.write (a.choices 2).now _), alone_now_bind,
    pure_bind, alone_now_bind, pure_bind, alone_audit_bind, alone_pure]
  exact ⟨rfl, (h.update _).congr (users_audit _ _ _)⟩

theorem attempted (h : db.Account user u) :
    ∃ u', (a.run db).1.Account user u' ∧ Attempted u a u' (a.run db).2 := by
  by_cases hlocked : u.LockedAt a.checkedAt
  · obtain ⟨hout, husers⟩ := run_locked h hlocked
    exact ⟨u, h.congr husers, hout ▸ .turnedAway hlocked⟩
  · rcases Bool.eq_false_or_eq_true a.rightPassword with hright | hwrong
    · obtain ⟨hout, hacc⟩ := run_loggedIn h hlocked hright
      exact ⟨_, hacc, .loggedIn hlocked hright hout⟩
    · obtain ⟨hout, hacc⟩ := run_failed h hlocked hwrong
      exact ⟨_, hacc, hout ▸ .failed hlocked hwrong⟩

end

-- ---------------------------------------------------------------------------
-- The counter and the lock
-- ---------------------------------------------------------------------------

section
variable {pkg user} {u u' : User} {a : LoginAttempt pkg user} {r : Response}

theorem coupled_of_zero (hcount : u.failedLoginCount = 0) (hlock : u.lockedUntil = none) :
    u.Coupled := by
  refine ⟨by omega, by omega, ?_⟩
  rw [hcount, hlock]
  simp

/-- What a failure leaves: a count that starts again after a lock, and a lock at five. -/
theorem loginFailure_cases (hc : u.Coupled) (hun : ¬ u.LockedAt a.checkedAt) :
    let u' := u.update (loginFailure u (a.choices 2).now (a.choices 3).now)
    (u.lockedUntil ≠ none ∧ u'.failedLoginCount = 1 ∧ u'.lockedUntil = none) ∨
    (u.lockedUntil = none ∧ u.failedLoginCount < 4 ∧
      u'.failedLoginCount = u.failedLoginCount + 1 ∧ u'.lockedUntil = none) ∨
    (u.lockedUntil = none ∧ u.failedLoginCount = 4 ∧ u'.failedLoginCount = 5 ∧
      u'.lockedUntil = some ((a.choices 3).now + lockDurationMs)) := by
  intro u'
  have hle := hc.le
  cases hl : u.lockedUntil with
  | some t =>
    have hexpired : t ≤ (a.choices 2).now := by
      by_contra hlt
      have hchecked := a.forward 1 2 (by omega)
      exact hun ⟨t, hl, lt_of_le_of_lt hchecked (not_le.mp hlt)⟩
    simp [u', User.update, loginFailure, hl, hexpired, maxFailedAttempts]
  | none =>
    have hne : u.failedLoginCount ≠ 5 := fun h => hc.locked.mp h hl
    by_cases hlast : u.failedLoginCount = 4
    · simp [u', User.update, loginFailure, hl, hlast, maxFailedAttempts]
    · have hshort : ¬ (5 : Int) ≤ u.failedLoginCount + 1 := by omega
      have hfew : u.failedLoginCount < 4 := by omega
      simp [u', User.update, loginFailure, hl, hshort, hfew, maxFailedAttempts]

theorem Attempted.coupled (h : Attempted u a u' r) (hc : u.Coupled) : u'.Coupled := by
  cases h with
  | turnedAway _ => exact hc
  | loggedIn _ _ _ => exact coupled_of_zero rfl rfl
  | failed hun _ =>
    have hnonneg := hc.nonneg
    rcases loginFailure_cases hc hun with ⟨-, hcount, hlock⟩ | ⟨-, hfew, hcount, hlock⟩ |
      ⟨-, -, hcount, hlock⟩
    all_goals
      refine ⟨by omega, by omega, ?_⟩
      rw [hlock]
      simp
      omega

end

-- ---------------------------------------------------------------------------
-- The rate
-- ---------------------------------------------------------------------------

/-- After `n` failures: the counter has them all, or the lock runs beyond `last`. -/
def User.Paces (u : User) (last : Time) (n : Nat) : Prop :=
  (u.lockedUntil = none ∧ (n : Int) ≤ u.failedLoginCount) ∨ ∃ t, u.lockedUntil = some t ∧ last < t

section
variable {pkg user} {u u' : User} {x : AttemptEntry pkg user} {past : AttemptLog pkg user}
  {first last : Time}

/-- The failures between `first` and `last` so far, and why they stay five: the
account keeps pace, or it is too late. -/
structure Paced (first last : Time) (l : AttemptLog pkg user) (u : User) : Prop where
  few : failuresWithin first last l ≤ 5
  pace : 0 < failuresWithin first last l →
    u.Paces last (failuresWithin first last l) ∨ ∃ y ∈ l, last < y.event.comparedAt

theorem compares_iff (hu : x.before.Account user u) :
    Compares x ↔ ¬ u.LockedAt x.event.checkedAt :=
  ⟨fun h => h u hu, fun h _ hv => hu.eq hv ▸ h⟩

theorem comparedAt_mono (hafter : AfterAll x past) {y : AttemptEntry pkg user} (hy : y ∈ past) :
    y.event.comparedAt ≤ x.event.comparedAt :=
  calc y.event.comparedAt
    _ ≤ (y.event.choices 2).now := y.event.proceeds
    _ ≤ y.event.answeredAt := y.event.forward 2 6 (by omega)
    _ ≤ x.event.startedAt := hafter y hy
    _ ≤ x.event.checkedAt := x.event.forward 0 1 (by omega)
    _ ≤ x.event.comparedAt := x.event.checked

variable (past) in
theorem failuresWithin_counted (hfails : FailsComparison x) (hin : Within first last x) :
    failuresWithin first last (x :: past) = failuresWithin first last past + 1 := by
  classical exact List.countP_cons_of_pos (decide_eq_true ⟨hfails, hin⟩)

theorem failuresWithin_uncounted (h : ¬ (FailsComparison x ∧ Within first last x)) :
    failuresWithin first last (x :: past) = failuresWithin first last past :=
  List.countP_cons_of_neg (by simpa using h)

/-- Once a failure is counted, everything compared from then on is compared after `first`. -/
theorem first_le (hafter : AfterAll x past) (hpos : 0 < failuresWithin first last past) :
    first ≤ x.event.comparedAt := by
  obtain ⟨y, hy, hcounted⟩ := List.countP_pos_iff.mp hpos
  simp only [decide_eq_true_eq] at hcounted
  exact hcounted.2.1.trans (comparedAt_mono hafter hy)

theorem Paced.uncounted (h : Paced first last past u)
    (hsame : ¬ (FailsComparison x ∧ Within first last x))
    (hnext : 0 < failuresWithin first last past → u.Paces last (failuresWithin first last past) →
      u'.Paces last (failuresWithin first last past) ∨ last < x.event.comparedAt) :
    Paced first last (x :: past) u' := by
  refine ⟨by rw [failuresWithin_uncounted hsame]; exact h.few, fun hpos => ?_⟩
  rw [failuresWithin_uncounted hsame] at hpos ⊢
  rcases h.pace hpos with hpace | ⟨y, hy, hlate⟩
  · rcases hnext hpos hpace with hpace' | hlate
    · exact .inl hpace'
    · exact .inr ⟨x, List.mem_cons_self, hlate⟩
  · exact .inr ⟨y, List.mem_cons_of_mem _ hy, hlate⟩

theorem Paced.counted (h : Paced first last past u) (hc : u.Coupled) (hafter : AfterAll x past)
    (hspan : last - first < lockDurationMs) (hun : ¬ u.LockedAt x.event.checkedAt)
    (hfails : FailsComparison x) (hin : Within first last x) :
    Paced first last (x :: past)
      (u.update (loginFailure u (x.event.choices 2).now (x.event.choices 3).now)) := by
  have hcounted := failuresWithin_counted past hfails hin
  have hlocks : last < (x.event.choices 3).now + lockDurationMs := by
    have hlockedAt := x.event.proceeds.trans (x.event.forward 2 3 (by omega))
    calc last
      _ < first + lockDurationMs := Int.lt_add_of_sub_left_lt hspan
      _ ≤ (x.event.choices 3).now + lockDurationMs :=
        Int.add_le_add_right (hin.1.trans hlockedAt) lockDurationMs
  have hle := hc.le
  have hnonneg := hc.nonneg
  -- whoever has failed before in the interval has been counted, for the lock would still run
  have hbefore : failuresWithin first last past = 0 ∨
      (u.lockedUntil = none ∧ (failuresWithin first last past : Int) ≤ u.failedLoginCount) := by
    rcases Nat.eq_zero_or_pos (failuresWithin first last past) with hzero | hpos
    · exact .inl hzero
    · rcases h.pace hpos with (hcount | ⟨t, ht, hlt⟩) | ⟨y, hy, hlate⟩
      · exact .inr hcount
      · exact absurd ⟨t, ht, lt_of_le_of_lt (x.event.checked.trans hin.2) hlt⟩ hun
      · exact absurd (hlate.trans_le (comparedAt_mono hafter hy)) (not_lt.mpr hin.2)
  rcases loginFailure_cases hc hun with ⟨hlock, hcount, hlock'⟩ | ⟨-, hfew, hcount, hlock'⟩ |
    ⟨-, hfour, hcount, hlock'⟩
  · have hzero : failuresWithin first last past = 0 := by
      rcases hbefore with hzero | ⟨hnone, -⟩
      · exact hzero
      · exact absurd hnone hlock
    refine ⟨by omega, fun _ => .inl (.inl ⟨hlock', ?_⟩)⟩
    omega
  · refine ⟨by omega, fun _ => .inl (.inl ⟨hlock', ?_⟩)⟩
    omega
  · exact ⟨by omega, fun _ => .inl (.inr ⟨_, hlock', hlocks⟩)⟩

theorem Paced.step (h : Paced first last past u) (hc : u.Coupled) (hafter : AfterAll x past)
    (hspan : last - first < lockDurationMs) (hu : x.before.Account user u)
    (hatt : Attempted u x.event u' x.output) (hquiet : Succeeds x → ¬ Within first last x) :
    Paced first last (x :: past) u' := by
  generalize hr : x.output = r at hatt
  cases hatt with
  | turnedAway hlocked =>
    have hcompares : ¬ Compares x := fun h => (compares_iff hu).mp h hlocked
    exact h.uncounted (fun hx => hcompares hx.1.1) fun _ hpace => .inl hpace
  | loggedIn hun hright hstatus =>
    have hwrong : ¬ FailsComparison x := fun hx => absurd (hx.2.symm.trans hright) Bool.false_ne_true
    have hout : ¬ Within first last x := hquiet (by rw [Succeeds, hr, hstatus])
    refine h.uncounted (fun hx => hwrong hx.1) fun hpos _ => .inr ?_
    by_contra hle
    exact hout ⟨first_le hafter hpos, not_lt.mp hle⟩
  | failed hun hwrong =>
    by_cases hin : Within first last x
    · exact h.counted hc hafter hspan hun ⟨(compares_iff hu).mpr hun, hwrong⟩ hin
    · refine h.uncounted (fun hx => hin hx.2) fun hpos _ => .inr ?_
      by_contra hle
      exact hin ⟨first_le hafter hpos, not_lt.mp hle⟩

end

-- ---------------------------------------------------------------------------
-- Every sequence
-- ---------------------------------------------------------------------------

section
variable {pkg user} (fresh : FreshAccount user)

/-- The account as the log has left it. -/
def Stands (l : AttemptLog pkg user) : Prop :=
  ∃ u, ((loginSequence pkg user fresh).state l).Account user u ∧ u.Coupled ∧
    ∀ first last, last - first < lockDurationMs →
      (∀ y ∈ l, Succeeds y → ¬ Within first last y) → Paced first last l u

theorem stands_nil : Stands fresh ([] : AttemptLog pkg user) := by
  refine ⟨user, fresh.found, coupled_of_zero fresh.unfailed fresh.unlocked, fun first last _ _ => ?_⟩
  exact ⟨Nat.zero_le 5, fun hpos => absurd hpos (Nat.not_lt_zero 0)⟩

theorem stands_step {past : AttemptLog pkg user} (h : Stands fresh past) (a : LoginAttempt pkg user) :
    let x := (loginSequence pkg user fresh).react ((loginSequence pkg user fresh).state past) a
    AfterAll x past → Stands fresh (x :: past) := by
  intro x hafter
  obtain ⟨u, hu, hc, hpaced⟩ := h
  obtain ⟨u', hu', hatt⟩ := attempted (a := a) hu
  refine ⟨u', hu', hatt.coupled hc, fun first last hspan hquiet => ?_⟩
  have hpast := hpaced first last hspan fun y hy => hquiet y (List.mem_cons_of_mem _ hy)
  exact hpast.step (x := x) hc hafter hspan hu hatt (hquiet x List.mem_cons_self)

theorem limited_of_stands {past : AttemptLog pkg user} (h : Stands fresh past)
    (a : LoginAttempt pkg user) :
    let x := (loginSequence pkg user fresh).react ((loginSequence pkg user fresh).state past) a
    Stands fresh (x :: past) → Limited x past := by
  rintro x ⟨u', hu', hc, hpaced⟩
  obtain ⟨u, hu, -, -⟩ := h
  refine ⟨⟨u', hu', hc⟩, fun first last hspan hquiet => (hpaced first last hspan hquiet).few, ?_⟩
  intro v hv hlocked
  obtain rfl := hu.eq hv
  exact run_locked hu hlocked

end

/-- Logins that do not overlap, from a fresh account: the counter and the lock
are coupled, five failures are the most there are in less than fifteen minutes
without a success, and a running lock turns everybody away. -/
theorem logins_limited (fresh : FreshAccount user) (es : List (LoginAttempt pkg user))
    (h : Always AfterAll ((loginSequence pkg user fresh).log es)) :
    Always Limited ((loginSequence pkg user fresh).log es) := by
  refine System.always_of_invariant (Stands fresh) (stands_nil fresh) ?_ es h
  intro past a hstands hafter
  have hnext := stands_step fresh hstands a hafter
  exact ⟨hnext, limited_of_stands fresh hstands a hnext⟩

private def argon : Packages where
  sign _ _ := ""
  decode _ := ⟨"", .viewer, none, 0, 0⟩
  reject _ _ _ := some "not a token"
  comparePassword password passwordHash := password == passwordHash
  isEmail _ := true

private def carol : User := ⟨"u3", "carol@rvep.dev", "long-enough", .operator, 0, none, 0⟩

private def studio : FreshAccount carol where
  db :=
    { users := [carol], vehicles := [], permissions := [], sessions := [], leases := [], events := [] }
  found := ⟨rfl, rfl, rfl⟩
  unfailed := rfl
  unlocked := rfl

private def attemptAt (now : Time) (password : String)
    (valid : validateBody (some (.obj [("email", .str "carol@rvep.dev"), ("password", .str password)]))
      (loginSchema argon) = .ok ⟨"carol@rvep.dev", password⟩) : LoginAttempt argon carol where
  body := some (.obj [("email", .str "carol@rvep.dev"), ("password", .str password)])
  parsed := ⟨"carol@rvep.dev", password⟩
  valid := valid
  account := rfl
  choices _ := ⟨now, false⟩
  comparedAt := now
  answers _ _ := rfl
  forward _ _ _ := le_refl now
  checked := le_refl now
  proceeds := le_refl now

/-- Five wrong passwords, the right one while the lock runs and again when it has run out. -/
def sevenAttempts : List (LoginAttempt argon carol) :=
  [attemptAt 900050 "long-enough" (by decide), attemptAt 900040 "long-enough" (by decide),
    attemptAt 50 "a-wrong-one" (by decide), attemptAt 40 "a-wrong-one" (by decide),
    attemptAt 30 "a-wrong-one" (by decide), attemptAt 20 "a-wrong-one" (by decide),
    attemptAt 10 "a-wrong-one" (by decide)]

theorem seven_attempts_limited :
    let l := (loginSequence argon carol studio).log sevenAttempts
    l.map (·.output.status) = [200, 423, 401, 401, 401, 401, 401] ∧ Always Limited l :=
  ⟨by decide, logins_limited argon carol studio sevenAttempts (by decide)⟩

end Rvep.Backend
