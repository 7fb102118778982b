import Rvep.Backend.Auth

/-!
# Refresh token rotation

Logins, refreshes and logouts interleaved call by call. Versions only grow, so
a refresh token is redeemed once as long as no two refreshes that present it
are past the version check at the same time.
-/

namespace Rvep.Backend

open Interleaving Reactive

-- ---------------------------------------------------------------------------
-- Versions
-- ---------------------------------------------------------------------------

def Db.version? (db : Db) (userId : String) : Option Int :=
  (db.user? userId).map (·.refreshTokenVersion)

def Db.Reaches (db : Db) (userId : String) (ver : Int) : Prop :=
  ∃ v, db.version? userId = some v ∧ ver ≤ v

/-- Versions only grow. -/
def Db.Rotates (db db' : Db) : Prop := ∀ userId ver, db.Reaches userId ver → db'.Reaches userId ver

section
variable {db db' db'' : Db}

theorem Db.Rotates.refl (db : Db) : db.Rotates db := fun _ _ h => h

theorem Db.Rotates.trans (h : db.Rotates db') (h' : db'.Rotates db'') : db.Rotates db'' :=
  fun userId ver hr => h' userId ver (h userId ver hr)

theorem Db.Rotates.of_eq (h : db'.users = db.users) : db.Rotates db' := by
  intro userId ver hr
  unfold Db.Reaches Db.version? Db.user? at hr ⊢
  rwa [h]

theorem version?_update (id userId : String) (data : UserUpdate) :
    Db.version? { db with users := db.users.map fun v => if v.id == id then v.update data else v }
        userId =
      (db.version? userId).map fun v =>
        if userId = id then v + data.refreshTokenVersionIncrement else v := by
  have hfind := find?_userUpdate (·.id == userId) id data db.users fun _ => rfl
  simp only [Db.version?, Db.user?, hfind]
  cases hu : db.users.find? (·.id == userId) with
  | none => rfl
  | some u =>
    have hid : u.id = userId := user?_id hu
    by_cases h : userId = id
    · simp [hid, h, User.update]
    · simp [hid, h]

theorem answer_userUpdate {id : String} {data : UserUpdate} (now : Time)
    (hinc : 0 ≤ data.refreshTokenVersionIncrement) :
    db.Rotates ((Query.userUpdate id data).answer now db).1 ∧
      ∀ u, ((Query.userUpdate id data).answer now db).2 = .ok u → ∀ ver, db.Reaches id ver →
        ((Query.userUpdate id data).answer now db).1.Reaches id
          (ver + data.refreshTokenVersionIncrement) := by
  simp only [Query.answer]
  cases hu : db.user? id with
  | none => exact ⟨.refl db, nofun⟩
  | some u =>
    simp only
    refine ⟨?_, ?_⟩
    · rintro userId ver ⟨v, hv, hle⟩
      refine ⟨_, by rw [version?_update, hv]; rfl, ?_⟩
      beta_reduce
      split <;> omega
    · rintro _ - ver ⟨v, hv, hle⟩
      refine ⟨_, by rw [version?_update, hv]; rfl, ?_⟩
      simp only [↓reduceIte]
      omega

end

-- ---------------------------------------------------------------------------
-- The contract
-- ---------------------------------------------------------------------------

inductive AuthRoute
  | login (body : Option Json)
  | refresh (cookie : Option String)
  | logout (caller : Caller)

variable (pkg : Packages)

def AuthRoute.handler : AuthRoute → Prog Call Call.Reply Response
  | .login body => Backend.login pkg body
  | .refresh cookie => Backend.refresh pkg cookie
  | .logout caller => Backend.logout caller

/-- The (user, version) of the refresh token a request presents. -/
def AuthRoute.presents : AuthRoute → Option (String × Int)
  | .refresh cookie =>
    (cookie.filter (· != "")).map fun token => ((pkg.decode token).sub, (pkg.decode token).version)
  | _ => none

/-- A request remembers whether it has bumped a version. -/
def authWorld : World Call Call.Reply Db Choice Bool where
  exec := Call.exec
  blank := false
  observe n _ c r :=
    match c, r with
    | .query (.userUpdate _ _), r => n || r.isOk
    | _, _ => n

def Point.Updates (q : Point Call Response) : Prop :=
  ∃ id data, q = .waiting (.query (.userUpdate id data))

/-- A refresh that has bumped has left its token behind, one that waits to
bump has not bumped yet, and one that succeeds has bumped. -/
structure Redeeming (n : Bool) (q : Point Call Response) (db : Db) (userId : String) (ver : Int) :
    Prop where
  past : n = true → db.Reaches userId (ver + 1)
  waits : Point.Updates q → n = false
  succeeds : ∀ r, q = .finished r → r.isError = false → n = true

def rotation : Contract AuthRoute Call Response Db Choice Bool where
  inv _ := True
  rely := Db.Rotates
  here route n q db :=
    ∀ userId ver, route.presents pkg = some (userId, ver) → Redeeming n q db userId ver
  guar route _ n c db n' q db' := db.Rotates db' ∧
    ∀ userId ver, route.presents pkg = some (userId, ver) →
      (Point.Updates q → db.version? userId = some ver) ∧
        (n' = true → n = true ∨ Point.Updates (.waiting c))
  refl := .refl
  trans := .trans
  rely_of_guar h := h.1

abbrev KeepsRotation (route : AuthRoute) (n : Bool) (prog : Prog Call Call.Reply Response)
    (db : Db) : Prop :=
  (rotation pkg).Kept authWorld route n prog db

def Call.Harmless (c : Call) : Prop :=
  (∀ e db, (Call.exec e db c).1.users = db.users) ∧ ∀ id data, c ≠ .query (.userUpdate id data)

def Call.Grows (c : Call) : Prop := ∀ (e : Choice) (db : Db), db.Rotates (Call.exec e db c).1

section
variable {pkg : Packages} {route : AuthRoute} {n : Bool} {db : Db}

theorem harmless_quiet {c : Call} (h : c.isQuiet = true) : c.Harmless := by
  refine ⟨fun e db => ?_, ?_⟩
  · obtain ⟨events, hexec⟩ := Call.exec_isQuiet h e db
    rw [hexec]
  · rintro id data rfl
    simp [Call.isQuiet, Query.isRead] at h

theorem Call.Harmless.grows {c : Call} (h : c.Harmless) : c.Grows := fun e db => .of_eq (h.1 e db)

theorem grows_update {id : String} {data : UserUpdate} (h : 0 ≤ data.refreshTokenVersionIncrement) :
    Call.Grows (.query (.userUpdate id data)) := by
  intro e db
  cases hf : e.fails with
  | true =>
    rw [Call.exec, Query.exec_of_fails hf]
    exact .refl db
  | false =>
    rw [Call.exec, Query.exec_of_not_fails hf]
    exact (answer_userUpdate e.now h).1

theorem keepsRotation_grows {prog : Prog Call Call.Reply Response} (hnone : route.presents pkg = none)
    (h : prog.AllCalls Call.Grows) : KeepsRotation pkg route n prog db := by
  have hvoid : ∀ {p : String → Int → Prop}, ∀ userId ver,
      route.presents pkg = some (userId, ver) → p userId ver :=
    fun userId ver hkey => absurd (hnone.symm.trans hkey) nofun
  exact h.kept (fun _ _ _ => hvoid) fun e _ c w _ _ hc _ => ⟨hc e w, hvoid⟩

theorem observe_harmless {c : Call} (h : c.Harmless) (r : c.Reply) :
    authWorld.observe n db c r = n := by
  unfold authWorld
  simp only
  split
  next id data r => exact absurd rfl (h.2 id data)
  next => rfl

theorem not_updates (prog : Prog Call Call.Reply Response) (h : prog.AllCalls Call.Harmless) :
    ¬ Point.Updates prog.point := by
  rintro ⟨id, data, hq⟩
  cases prog with
  | done r => exact absurd hq nofun
  | call c k =>
    obtain rfl : c = _ := by simpa using hq
    exact h.1.2 id data rfl

/-- A refresh before its bump, if it can only fail, or after it. -/
theorem keepsRotation_harmless {prog : Prog Call Call.Reply Response}
    (hcalls : prog.AllCalls Call.Harmless)
    (hfails : n = false → prog.AllResults fun r => r.isError = true)
    (hpast : n = true → ∀ userId ver, route.presents pkg = some (userId, ver) →
      db.Reaches userId (ver + 1)) : KeepsRotation pkg route n prog db := by
  induction prog generalizing db with
  | done r =>
    intro db' hrot _ userId ver hkey
    refine ⟨fun hn => hrot _ _ (hpast hn userId ver hkey), ?_, ?_⟩
    · rintro ⟨id, data, hq⟩
      exact absurd hq nofun
    · rintro r' hr hok
      obtain rfl : r = r' := by simpa using hr
      cases n with
      | true => rfl
      | false => exact absurd ((hfails rfl).symm.trans hok) nofun
  | call c k ih =>
    obtain ⟨hc, hk⟩ := hcalls
    intro db' hrot _
    have hpast' : n = true → ∀ userId ver, route.presents pkg = some (userId, ver) →
        db'.Reaches userId (ver + 1) := fun hn userId ver hkey => hrot _ _ (hpast hn userId ver hkey)
    refine ⟨fun userId ver hkey => ⟨fun hn => hpast' hn userId ver hkey, ?_, nofun⟩, fun e => ?_⟩
    · exact fun hup => absurd hup (not_updates (.call c k) ⟨hc, hk⟩)
    · have hgrow := hc.grows e db'
      simp only [observe_harmless hc]
      refine ⟨⟨hgrow, fun userId ver hkey => ⟨fun hup => absurd hup (not_updates _ (hk _)), .inl⟩⟩, ?_⟩
      intro _
      exact ih _ (hk _) (fun hn => hfails hn _)
        fun hn userId ver hkey => hgrow _ _ (hpast' hn userId ver hkey)

theorem redeeming_waiting (c : Call) (userId : String) (ver : Int) :
    Redeeming false (.waiting c) db userId ver := ⟨nofun, fun _ => rfl, nofun⟩

theorem keepsRotation_failed (err : Thrown) :
    KeepsRotation pkg route false (.done (respond (.error err))) db :=
  keepsRotation_harmless trivial (fun _ => by cases err <;> rfl) nofun

theorem keepsRotation_fails {prog : Prog Call Call.Reply Response}
    (hcalls : prog.AllCalls Call.Harmless) (hfails : prog.AllResults fun r => r.isError = true) :
    KeepsRotation pkg route false prog db :=
  keepsRotation_harmless hcalls (fun _ => hfails) nofun

theorem keepsRotation_bump {userId : String} {ver : Int}
    {f : (Query.userUpdate userId bump).Reply → Handler Response}
    (hkey : route.presents pkg = some (userId, ver)) (hreach : db.Reaches userId ver)
    (hf : ∀ v, (Handler.serve (f v)).AllCalls Call.Harmless) :
    KeepsRotation pkg route false
      (Handler.serve (Handler.query (.userUpdate userId bump) >>= f)) db := by
  rw [serve_query_bind]
  intro db' hrot _
  refine ⟨fun _ _ _ => redeeming_waiting .., fun e => ?_⟩
  have hgrow : db'.Rotates (Call.exec e db' (.query (.userUpdate userId bump))).1 :=
    grows_update (by decide) e db'
  have hnow : ∀ {n' : Bool}, n' = true → false = true ∨
      Point.Updates (.waiting (.query (.userUpdate userId bump))) := fun _ => .inr ⟨_, _, rfl⟩
  cases hr : (Call.exec e db' (.query (.userUpdate userId bump))).2 with
  | error err =>
    simp only [authWorld, hr, Except.isOk, Except.toBool, Bool.or_false]
    refine ⟨⟨hgrow, fun _ _ _ => ⟨?_, hnow⟩⟩, fun _ => keepsRotation_failed _⟩
    exact fun hup => absurd hup (not_updates (.done _) trivial)
  | ok u =>
    have hpast : (Call.exec e db' (.query (.userUpdate userId bump))).1.Reaches userId (ver + 1) := by
      cases hfails : e.fails with
      | true =>
        rw [Call.exec, Query.exec_of_fails hfails] at hr
        cases hr
      | false =>
        rw [Call.exec, Query.exec_of_not_fails hfails] at hr ⊢
        exact (answer_userUpdate e.now (by decide)).2 u hr ver (hrot _ _ hreach)
    simp only [authWorld, hr, Except.isOk, Except.toBool, Bool.or_true]
    refine ⟨⟨hgrow, fun _ _ _ => ⟨fun hup => absurd hup (not_updates _ (hf u)), hnow⟩⟩, fun _ => ?_⟩
    refine keepsRotation_harmless (hf u) (fun hn => Bool.noConfusion hn) ?_
    intro _ userId' ver' hkey'
    obtain ⟨rfl, rfl⟩ : userId = userId' ∧ ver = ver' := by simpa using hkey.symm.trans hkey'
    exact hpast

theorem refreshInvalid_harmless (userId : Option String) (reason : String) :
    (Handler.serve (refreshInvalid userId reason)).AllCalls Call.Harmless ∧
      (Handler.serve (refreshInvalid userId reason)).AllResults fun r => r.isError = true :=
  ⟨allCalls_audit (harmless_quiet rfl) trivial, fun _ => rfl⟩

theorem keepsRotation_find {userId : String} {ver : Int}
    {f : (Query.userFindUnique userId).Reply → Handler Response}
    (hkey : route.presents pkg = some (userId, ver))
    (hf : ∀ db' : Db, KeepsRotation pkg route false (Handler.serve (f (db'.user? userId))) db')
    (hcheck : ∀ db' : Db, Point.Updates (Handler.serve (f (db'.user? userId))).point →
      db'.version? userId = some ver) :
    KeepsRotation pkg route false
      (Handler.serve (Handler.query (.userFindUnique userId) >>= f)) db := by
  rw [serve_query_bind]
  intro db' _ _
  refine ⟨fun _ _ _ => redeeming_waiting .., fun e => ?_⟩
  cases hfails : e.fails with
  | true =>
    simp only [authWorld, Call.exec, Query.exec_of_fails hfails]
    refine ⟨⟨.refl db', fun _ _ _ => ⟨?_, .inl⟩⟩, fun _ => keepsRotation_failed _⟩
    exact fun hup => absurd hup (not_updates (.done _) trivial)
  | false =>
    simp only [authWorld, Call.exec, Query.exec_of_not_fails hfails, Query.answer]
    refine ⟨⟨.refl db', fun userId' ver' hkey' => ⟨fun hup => ?_, .inl⟩⟩, fun _ => hf db'⟩
    obtain ⟨rfl, rfl⟩ : userId = userId' ∧ ver = ver' := by simpa using hkey.symm.trans hkey'
    exact hcheck db' hup

theorem keepsRotation_redeem {payload : Claims} {user : User}
    (hkey : route.presents pkg = some (user.id, payload.version))
    (hver : db.version? user.id = some payload.version) :
    KeepsRotation pkg route false (Handler.serve do
      let updated ← Handler.query (.userUpdate user.id bump)
      refreshIssue pkg user updated) db := by
  refine keepsRotation_bump hkey ⟨_, hver, le_refl _⟩ fun updated => ?_
  exact ⟨harmless_quiet rfl, fun _ => ⟨harmless_quiet rfl, fun _ => ⟨harmless_quiet rfl, fun _ => trivial⟩⟩⟩

variable (pkg) in
/-- What follows the `findUnique` of a refresh: it is refused, or goes on to redeem the
version it has found. -/
theorem refresh_after_find (payload : Claims) :
    ∃ f, refreshVerified pkg payload = Handler.query (.userFindUnique payload.sub) >>= f ∧
      ∀ db : Db, (∃ reason, f (db.user? payload.sub) = refreshInvalid (some payload.sub) reason) ∨
        ∃ user : User, user.id = payload.sub ∧ db.version? user.id = some payload.version ∧
          f (db.user? payload.sub) =
            Handler.query (.userUpdate user.id bump) >>= refreshIssue pkg user := by
  refine ⟨_, rfl, fun db => ?_⟩
  cases hu : db.user? payload.sub with
  | none => exact .inl ⟨"user_not_found", rfl⟩
  | some user =>
    have hid : user.id = payload.sub := user?_id hu
    by_cases hver : payload.version = user.refreshTokenVersion
    · refine .inr ⟨user, hid, ?_, ?_⟩
      · rw [hid, Db.version?, hu, hver]
        rfl
      · simp only [hver, bne_self_eq_false, Bool.false_eq_true, if_false]
    · refine .inl ⟨"version_mismatch", ?_⟩
      simp only [bne_iff_ne, ne_eq, hver, not_false_eq_true, if_true]

theorem keepsRotation_refreshVerified {payload : Claims}
    (hkey : route.presents pkg = some (payload.sub, payload.version)) :
    KeepsRotation pkg route false (Handler.serve (refreshVerified pkg payload)) db := by
  obtain ⟨f, hf, hnext⟩ := refresh_after_find pkg payload
  rw [hf]
  refine keepsRotation_find hkey (fun db' => ?_) fun db' hup => ?_
  · rcases hnext db' with ⟨reason, hinvalid⟩ | ⟨user, hid, hver, hredeem⟩
    · rw [hinvalid]
      obtain ⟨hcalls, hfails⟩ := refreshInvalid_harmless (some payload.sub) reason
      exact keepsRotation_fails hcalls hfails
    · rw [hredeem]
      exact keepsRotation_redeem (hid ▸ hkey) hver
  · rcases hnext db' with ⟨reason, hinvalid⟩ | ⟨user, hid, hver, -⟩
    · rw [hinvalid] at hup
      exact absurd hup (not_updates _ (refreshInvalid_harmless _ _).1)
    · exact hid ▸ hver

theorem refreshVerified_point (payload : Claims) :
    (Handler.serve (refreshVerified pkg payload)).point =
      .waiting (.query (.userFindUnique payload.sub)) := by
  unfold refreshVerified
  rw [serve_query_bind]
  rfl

variable (route db) in
theorem keepsRotation_refreshOutcome {token : String} (message : Option String)
    (hkey : route.presents pkg = some ((pkg.decode token).sub, (pkg.decode token).version)) :
    let prog := Handler.serve (refreshOutcome pkg (message.elim (.ok (pkg.decode token)) .error))
    KeepsRotation pkg route false prog db ∧ ¬ Point.Updates prog.point := by
  intro prog
  cases message with
  | none =>
    refine ⟨keepsRotation_refreshVerified hkey, ?_⟩
    rintro ⟨id, data, hq⟩
    exact absurd ((refreshVerified_point _).symm.trans hq) nofun
  | some message =>
    have hcalls : prog.AllCalls Call.Harmless := allCalls_audit (harmless_quiet rfl) trivial
    exact ⟨keepsRotation_fails hcalls fun _ => rfl, not_updates _ hcalls⟩

theorem keepsRotation_refresh (cookie : Option String) :
    KeepsRotation pkg (.refresh cookie) false (refresh pkg cookie) db := by
  unfold refresh
  cases hcookie : cookie.filter (· != "") with
  | none =>
    obtain ⟨hcalls, hfails⟩ := refreshInvalid_harmless none "missing_cookie"
    exact keepsRotation_fails hcalls hfails
  | some token =>
    have hkey : AuthRoute.presents pkg (.refresh cookie) =
        some ((pkg.decode token).sub, (pkg.decode token).version) := by
      rw [AuthRoute.presents, hcookie]
      rfl
    intro db' _ _
    refine ⟨fun _ _ _ => redeeming_waiting .., fun e => ?_⟩
    obtain ⟨hkept, hpoint⟩ := keepsRotation_refreshOutcome (.refresh cookie) db'
      (pkg.reject .refresh e.now token) hkey
    exact ⟨⟨.refl db', fun _ _ _ => ⟨fun hup => absurd hup hpoint, .inl⟩⟩, fun _ => hkept⟩

theorem keepsRotation_logout (caller : Caller) :
    KeepsRotation pkg (.logout caller) n (logout caller) db := by
  refine keepsRotation_grows rfl ?_
  have hdone (userId : Option String) : (Handler.serve (logoutDone userId)).AllCalls Call.Grows :=
    allCalls_audit (harmless_quiet rfl).grows trivial
  cases caller with
  | none => exact hdone none
  | some ctx => exact allCalls_query (grows_update (by decide)) fun _ => hdone _

theorem recordLoginFailure_grows (user : User) (r : Response) :
    (Handler.serve (recordLoginFailure user >>= fun _ => pure r)).AllCalls Call.Grows := by
  unfold recordLoginFailure
  simp only [bind_assoc]
  refine allCalls_now (harmless_quiet rfl).grows fun checkedAt => ?_
  refine allCalls_now (harmless_quiet rfl).grows fun lockedAt => ?_
  refine allCalls_query (grows_update (le_refl 0)) fun _ => ?_
  split
  · exact ⟨(harmless_quiet rfl).grows, fun _ => ⟨(harmless_quiet rfl).grows, fun _ => trivial⟩⟩
  · exact ⟨(harmless_quiet rfl).grows, fun _ => trivial⟩

theorem keepsRotation_login (body : Option Json) :
    KeepsRotation pkg (.login body) n (login pkg body) db := by
  refine keepsRotation_grows rfl ?_
  unfold login
  cases validateBody body (loginSchema pkg) with
  | error err => trivial
  | ok body =>
    refine allCalls_query (harmless_quiet rfl).grows fun user? => ?_
    cases user? with
    | none => trivial
    | some user =>
      refine allCalls_now (harmless_quiet rfl).grows fun now => ?_
      split
      · exact allCalls_audit (harmless_quiet rfl).grows trivial
      · unfold loginUnlocked
        split
        · exact recordLoginFailure_grows user _
        · refine allCalls_query (grows_update (by decide)) fun updated => ?_
          exact ⟨(harmless_quiet rfl).grows, fun _ => ⟨(harmless_quiet rfl).grows, fun _ =>
            ⟨(harmless_quiet rfl).grows, fun _ => trivial⟩⟩⟩

theorem keepsRotation_handler (route : AuthRoute) (db : Db) :
    KeepsRotation pkg route false (route.handler pkg) db := by
  cases route with
  | login body => exact keepsRotation_login body
  | refresh cookie => exact keepsRotation_refresh cookie
  | logout caller => exact keepsRotation_logout caller

end

-- ---------------------------------------------------------------------------
-- Every interleaving
-- ---------------------------------------------------------------------------

abbrev AuthPool := Pool AuthRoute Call Call.Reply Response Db Bool
abbrev AuthTask := Task AuthRoute Call Call.Reply Response Bool

def authSystem (db : Db) : System AuthPool (Event AuthRoute Choice) Unit :=
  pool authWorld (AuthRoute.handler pkg) db

abbrev AuthEntry := Entry AuthPool (Event AuthRoute Choice) Unit
abbrev AuthLog := Log AuthPool (Event AuthRoute Choice) Unit

def Presents (t : AuthTask) (key : String × Int) : Prop := t.request.presents pkg = some key

/-- The refresh was answered with new tokens. -/
def Redeemed (t : AuthTask) : Prop := ∃ r, t.prog.point = .finished r ∧ r.isError = false

/-- No two requests have redeemed one refresh token. -/
def SingleUse (p : AuthPool) : Prop :=
  ∀ (i j : Nat) ti tj key, p.tasks[i]? = some ti → p.tasks[j]? = some tj →
    Presents pkg ti key → Presents pkg tj key → Redeemed ti → Redeemed tj → i = j

/-- A refresh bumps the version while another that presents the same token is
also between its version check and its bump. -/
def Races (x : AuthEntry) : Prop :=
  ∃ (i j : Nat) (choice : Choice) (ti tj : AuthTask) (key : String × Int), i ≠ j ∧
    x.event = .step i choice ∧ x.before.tasks[i]? = some ti ∧ x.before.tasks[j]? = some tj ∧
    Presents pkg ti key ∧ Presents pkg tj key ∧
    Point.Updates ti.prog.point ∧ Point.Updates tj.prog.point

/-- Of the requests that present one token, at most one has bumped, and then
none waits to. -/
structure OneBump (p : AuthPool) : Prop where
  kept : p.Kept authWorld (rotation pkg)
  one : ∀ (i j : Nat) ti tj key, p.tasks[i]? = some ti → p.tasks[j]? = some tj →
    Presents pkg ti key → Presents pkg tj key → ti.note = true → tj.note = true → i = j
  none : ∀ (i j : Nat) ti tj key, p.tasks[i]? = some ti → p.tasks[j]? = some tj →
    Presents pkg ti key → Presents pkg tj key → ti.note = true → ¬ Point.Updates tj.prog.point

section
variable {pkg : Packages} {p : AuthPool} {t : AuthTask} {key : String × Int}

theorem OneBump.here (h : OneBump pkg p) (ht : t ∈ p.tasks) (hkey : Presents pkg t key) :
    Redeeming t.note t.prog.point p.world key.1 key.2 :=
  (h.kept.tasks t ht).here trivial key.1 key.2 hkey

theorem OneBump.singleUse (h : OneBump pkg p) : SingleUse pkg p := by
  rintro i j ti tj key hi hj hki hkj ⟨ri, hri, hoki⟩ ⟨rj, hrj, hokj⟩
  have hni := (h.here (List.mem_of_getElem? hi) hki).succeeds ri hri hoki
  have hnj := (h.here (List.mem_of_getElem? hj) hkj).succeeds rj hrj hokj
  exact h.one i j ti tj key hi hj hki hkj hni hnj

theorem advance_phase {db : Db} (hkept : KeepsRotation pkg t.request t.note t.prog db)
    (hkey : Presents pkg t key) (choice : Choice) :
    (Point.Updates (t.advance authWorld choice db).2.prog.point → db.version? key.1 = some key.2) ∧
      ((t.advance authWorld choice db).2.note = true →
        t.note = true ∨ Point.Updates t.prog.point) := by
  cases hpoint : t.prog.point with
  | finished r =>
    rw [Task.advance_finished hpoint choice db]
    refine ⟨?_, .inl⟩
    rintro ⟨id, data, hq⟩
    exact absurd (hpoint.symm.trans hq) nofun
  | waiting c => exact (hkept.guar trivial hpoint choice).2 key.1 key.2 hkey

theorem handler_point_not_updates (route : AuthRoute) (hkey : route.presents pkg = some key) :
    ¬ Point.Updates (route.handler pkg).point := by
  cases route with
  | login body => exact absurd hkey nofun
  | logout caller => exact absurd hkey nofun
  | refresh cookie =>
    rintro ⟨id, data, hq⟩
    unfold AuthRoute.handler refresh at hq
    cases hcookie : cookie.filter (· != "") with
    | none => simp only [hcookie] at hq; exact absurd hq nofun
    | some token => simp only [hcookie] at hq; exact absurd hq nofun

/-- A task of the next pool that has bumped had bumped before, or was waiting
to and is the one that moved. -/
theorem bumped_origin (h : OneBump pkg p) {e : Event AuthRoute Choice} {i : Nat}
    (ht : (p.step authWorld (AuthRoute.handler pkg) e).tasks[i]? = some t)
    (hkey : Presents pkg t key) (hn : t.note = true) :
    ∃ t₀, p.tasks[i]? = some t₀ ∧ Presents pkg t₀ key ∧
      (t₀.note = true ∨ ∃ choice, e = .step i choice ∧ Point.Updates t₀.prog.point) := by
  rcases Pool.task_origin ht with hsame | ⟨request, -, rfl⟩ | ⟨choice, t₀, rfl, hget, rfl, -⟩
  · exact ⟨t, hsame, hkey, .inl hn⟩
  · exact absurd hn nofun
  · have hkey₀ : Presents pkg t₀ key := by
      unfold Presents at hkey ⊢
      rwa [Task.advance_request] at hkey
    obtain ⟨-, hnote⟩ := advance_phase (h.kept.tasks t₀ (List.mem_of_getElem? hget)) hkey₀ choice
    exact ⟨t₀, hget, hkey₀, (hnote hn).imp id fun hup => ⟨choice, rfl, hup⟩⟩

/-- A task of the next pool that waits to bump was waiting before, or has just
found the version its token carries. -/
theorem waiting_origin (h : OneBump pkg p) {e : Event AuthRoute Choice} {j : Nat}
    (ht : (p.step authWorld (AuthRoute.handler pkg) e).tasks[j]? = some t)
    (hkey : Presents pkg t key) (hup : Point.Updates t.prog.point) :
    p.tasks[j]? = some t ∨
      (∃ choice, e = .step j choice) ∧ p.world.version? key.1 = some key.2 := by
  rcases Pool.task_origin ht with hsame | ⟨request, -, rfl⟩ | ⟨choice, t₀, rfl, hget, rfl, -⟩
  · exact .inl hsame
  · exact absurd hup (handler_point_not_updates request hkey)
  · have hkey₀ : Presents pkg t₀ key := by
      unfold Presents at hkey ⊢
      rwa [Task.advance_request] at hkey
    obtain ⟨hcheck, -⟩ := advance_phase (h.kept.tasks t₀ (List.mem_of_getElem? hget)) hkey₀ choice
    exact .inr ⟨⟨choice, rfl⟩, hcheck hup⟩

theorem oneBump_start (db : Db) : OneBump pkg (authSystem pkg db).init := by
  have hnone (i : Nat) (t : AuthTask) : (authSystem pkg db).init.tasks[i]? ≠ some t :=
    fun h => absurd (List.getElem?_nil.symm.trans h) nofun
  refine ⟨⟨trivial, fun t ht => absurd ht List.not_mem_nil⟩, ?_, ?_⟩
  · exact fun i _ ti _ _ hi => absurd hi (hnone i ti)
  · exact fun i _ ti _ _ hi => absurd hi (hnone i ti)

theorem OneBump.step (h : OneBump pkg p) (e : Event AuthRoute Choice)
    (hrace : ¬ Races pkg ⟨p, e, p.step authWorld (AuthRoute.handler pkg) e, ()⟩) :
    OneBump pkg (p.step authWorld (AuthRoute.handler pkg) e) := by
  have hkept := h.kept.step (AuthRoute.handler pkg)
    (fun route w _ => keepsRotation_handler route w) e trivial
  refine ⟨hkept, ?_, ?_⟩
  · intro i j ti tj key hi hj hki hkj hni hnj
    obtain ⟨ti₀, hi₀, hki₀, hi'⟩ := bumped_origin h hi hki hni
    obtain ⟨tj₀, hj₀, hkj₀, hj'⟩ := bumped_origin h hj hkj hnj
    rcases hi' with hni₀ | ⟨ci, rfl, hui⟩ <;> rcases hj' with hnj₀ | ⟨cj, hej, huj⟩
    · exact h.one i j ti₀ tj₀ key hi₀ hj₀ hki₀ hkj₀ hni₀ hnj₀
    · exact absurd huj (h.none i j ti₀ tj₀ key hi₀ hj₀ hki₀ hkj₀ hni₀)
    · exact absurd hui (h.none j i tj₀ ti₀ key hj₀ hi₀ hkj₀ hki₀ hnj₀)
    · cases hej
      rfl
  · intro i j ti tj key hi hj hki hkj hni huj
    by_cases hij : i = j
    · -- a task that waits to bump has not bumped
      subst hij
      obtain rfl : ti = tj := Option.some.inj (hi.symm.trans hj)
      have hhere := (hkept.tasks ti (List.mem_of_getElem? hi)).here trivial key.1 key.2 hki
      exact absurd (hni.symm.trans (hhere.waits huj)) nofun
    obtain ⟨ti₀, hi₀, hki₀, hi'⟩ := bumped_origin h hi hki hni
    rcases waiting_origin h hj hkj huj with hj₀ | ⟨⟨cj, hej⟩, hver⟩
    · rcases hi' with hni₀ | ⟨ci, rfl, hui⟩
      · exact h.none i j ti₀ tj key hi₀ hj₀ hki₀ hkj hni₀ huj
      · exact hrace ⟨i, j, ci, ti₀, tj, key, hij, rfl, hi₀, hj₀, hki₀, hkj, hui, huj⟩
    · rcases hi' with hni₀ | ⟨ci, hei, -⟩
      · -- the bump has left the token's version behind
        obtain ⟨v, hv, hle⟩ := (h.here (List.mem_of_getElem? hi₀) hki₀).past hni₀
        have hv : v = key.2 := Option.some.inj (hv.symm.trans hver)
        omega
      · rw [hej] at hei
        cases hei
        exact hij rfl

end

/-- As long as no refresh bumps the version while another with the same token
waits to, every refresh token is redeemed at most once. -/
theorem single_use (db : Db) (es : List (Event AuthRoute Choice))
    (h : Always (fun x _ => ¬ Races pkg x) ((authSystem pkg db).log es)) :
    Always (fun x _ => SingleUse pkg x.after) ((authSystem pkg db).log es) := by
  refine System.always_of_invariant (fun l => OneBump pkg ((authSystem pkg db).state l))
    (oneBump_start db) ?_ es h
  intro past e hinv hrace
  have hnext := hinv.step e hrace
  exact ⟨hnext, hnext.singleUse⟩

private def tokens : Packages where
  sign key claims :=
    match key, claims.ver with
    | .refresh, some 4 => "refresh-4"
    | .refresh, some 5 => "refresh-5"
    | _, _ => "access"
  decode token :=
    { sub := "u1", role := .operator
      ver := if token = "refresh-3" then some 3 else if token = "refresh-4" then some 4
        else if token = "refresh-5" then some 5 else none
      iat := 0, exp := refreshTtlSeconds }
  reject _ _ _ := none
  comparePassword password hash := password == hash
  isEmail _ := true

private def oneUser : Db where
  users := [⟨"u1", "op@rvep.dev", "hash", .operator, 0, none, 3⟩]
  vehicles := []
  permissions := []
  sessions := []
  leases := []
  events := []

private def calls (task count : Nat) : List (Event AuthRoute Choice) :=
  List.replicate count (.step task ⟨1000, false⟩)

private def presentThree : Event AuthRoute Choice := .spawn (.refresh (some "refresh-3"))

private theorem not_races_of_one_task {x : AuthEntry}
    (h : x.before.tasks.length ≤ 1) : ¬ Races pkg x := by
  rintro ⟨i, j, choice, ti, tj, key, hij, -, hi, hj, -⟩
  obtain ⟨hi, -⟩ := List.getElem?_eq_some_iff.mp hi
  obtain ⟨hj, -⟩ := List.getElem?_eq_some_iff.mp hj
  omega

theorem single_use_one_refresh :
    Always (fun x _ => SingleUse tokens x.after)
      ((authSystem tokens oneUser).log (calls 0 6 ++ [presentThree])) := by
  have hone : Always (fun x _ => x.before.tasks.length ≤ 1)
      ((authSystem tokens oneUser).log (calls 0 6 ++ [presentThree])) := by decide +kernel
  exact single_use tokens oneUser _ (hone.imp fun _ _ => not_races_of_one_task tokens)

/-- Both refreshes check the version before either bumps it. Newest first. -/
def refreshRace : List (Event AuthRoute Choice) :=
  calls 1 4 ++ calls 0 4 ++ calls 1 2 ++ calls 0 2 ++ [presentThree, presentThree]

theorem refresh_race_redeems_twice :
    ¬ Always (fun x _ => SingleUse tokens x.after) ((authSystem tokens oneUser).log refreshRace) := by
  intro h
  have heq := h.1 0 1 _ _ ("u1", 3) rfl rfl rfl rfl ⟨_, rfl, rfl⟩ ⟨_, rfl, rfl⟩
  exact absurd heq nofun

end Rvep.Backend
