import Mathlib.Logic.Encodable.Basic
import Rvep.Backend.TokenRotation

/-!
# The versions in refresh tokens

Every login and every refresh signs its refresh token with the version its own
bump returned, however long after the bump that is. A bump returns a version no
request has been given before, so no two refresh tokens of a user carry the
same one.
-/

namespace Rvep.Backend

open Interleaving Reactive

-- ---------------------------------------------------------------------------
-- Bumps
-- ---------------------------------------------------------------------------

/-- A request remembers whose version it has bumped, and to what. -/
abbrev Bumped := Option (String × Int)

def bumpWorld : World Call Call.Reply Db Choice Bumped where
  exec := Call.exec
  blank := none
  observe n _ c r :=
    match c, r with
    | .query (.userUpdate id data), .ok u =>
      if data.refreshTokenVersionIncrement = 0 then n else n.or (some (id, u.refreshTokenVersion))
    | _, _ => n

/-- What a bump finds and leaves, if it goes through. -/
theorem exec_bump {db : Db} {e : Choice} {id : String} {data : UserUpdate}
    (hinc : data.refreshTokenVersionIncrement = 1) {u : User}
    (h : (Call.exec e db (.query (.userUpdate id data))).2 = .ok u) :
    (∀ ver, db.Reaches id ver → ver < u.refreshTokenVersion) ∧
      (Call.exec e db (.query (.userUpdate id data))).1.version? id = some u.refreshTokenVersion := by
  cases hfails : e.fails with
  | true =>
    rw [Call.exec, Query.exec_of_fails hfails] at h
    cases h
  | false =>
    rw [Call.exec, Query.exec_of_not_fails hfails] at h ⊢
    simp only [Query.answer] at h ⊢
    cases hu : db.user? id with
    | none =>
      rw [hu] at h
      cases h
    | some u₀ =>
      simp only [hu, Except.ok.injEq] at h ⊢
      subst h
      have hver : db.version? id = some u₀.refreshTokenVersion := by rw [Db.version?, hu]; rfl
      refine ⟨?_, ?_⟩
      · rintro ver ⟨v, hv, hle⟩
        obtain rfl : v = u₀.refreshTokenVersion := Option.some.inj (hv.symm.trans hver)
        simp only [User.update, hinc]
        omega
      · rw [version?_update, hver, Option.map_some, if_pos rfl]
        rfl

-- ---------------------------------------------------------------------------
-- The contract
-- ---------------------------------------------------------------------------

variable (pkg : Packages)

def AuthRoute.isLogout : AuthRoute → Bool
  | .logout _ => true
  | _ => false

/-- A response that sets the refresh cookie, rather than clear it, sets it to a
token with the version the request bumped. -/
def Response.Backed (r : Response) (route : AuthRoute) (n : Bumped) : Prop :=
  ∀ cookie, r.refreshCookie = some cookie → 0 < cookie.maxAge →
    route.isLogout = false ∧ ∃ claims ver, cookie.value = pkg.sign .refresh claims ∧
      claims.ver = some ver ∧ n = some (claims.sub, ver)

/-- The token a refresh presents passes verification at some time. -/
def AuthRoute.Verifies (route : AuthRoute) : Prop :=
  ∃ token now, route = .refresh (some token) ∧ token ≠ "" ∧ pkg.reject .refresh now token = none

structure Bumping (route : AuthRoute) (n : Bumped) (q : Point Call Response) (db : Db) : Prop where
  reached : ∀ id ver, n = some (id, ver) → db.Reaches id ver
  backed : ∀ r, q = .finished r → r.Backed pkg route n
  waits : ∀ cookie, route = .refresh cookie → Point.Updates q →
    ∃ id ver, route.presents pkg = some (id, ver) ∧ db.Reaches id ver ∧
      q = .waiting (.query (.userUpdate id bump)) ∧ route.Verifies pkg

/-- A request's note changes once, when it bumps a version, to one above all there have been. -/
def Draws (e : Choice) (n : Bumped) (c : Call) (db : Db) (n' : Bumped) : Prop :=
  n' = n ∨ n = none ∧ e.fails = false ∧ ∃ id data ver, c = .query (.userUpdate id data) ∧
    n' = some (id, ver) ∧ ∀ ver', db.Reaches id ver' → ver' < ver

def versioning : Contract AuthRoute Call Response Db Choice Bumped where
  inv _ := True
  rely := Db.Rotates
  here := Bumping pkg
  guar route e n c db n' q db' := db.Rotates db' ∧ Draws e n c db n' ∧
    ∀ id ver, route.presents pkg = some (id, ver) → Point.Updates q → db.version? id = some ver
  refl := .refl
  trans := .trans
  rely_of_guar h := h.1

section
variable {pkg : Packages} {route : AuthRoute} {n : Bumped} {db : Db}

variable (pkg) in
abbrev KeepsVersions (route : AuthRoute) (n : Bumped) (prog : Prog Call Call.Reply Response)
    (db : Db) : Prop :=
  (versioning pkg).Kept bumpWorld route n prog db

theorem bumpWorld_harmless {c : Call} (h : c.Harmless) (r : c.Reply) :
    bumpWorld.observe n db c r = n := by
  unfold bumpWorld
  simp only
  split
  next id data r => exact absurd rfl (h.2 id data)
  next => rfl

theorem bumping_waiting {c : Call} (hreached : ∀ id ver, n = some (id, ver) → db.Reaches id ver)
    (hwaits : ∀ cookie, route = .refresh cookie → Point.Updates (.waiting c) →
      ∃ id ver, route.presents pkg = some (id, ver) ∧ db.Reaches id ver ∧
        (.waiting c : Point Call Response) = .waiting (.query (.userUpdate id bump)) ∧
        route.Verifies pkg) :
    Bumping pkg route n (.waiting c) db :=
  ⟨hreached, fun r hr => absurd hr (waiting_ne_finished c r), hwaits⟩

/-- A request that bumps nothing from here on. -/
theorem keepsVersions_harmless {prog : Prog Call Call.Reply Response}
    (hcalls : prog.AllCalls Call.Harmless)
    (hbacked : prog.AllResults fun r => r.Backed pkg route n)
    (hreached : ∀ id ver, n = some (id, ver) → db.Reaches id ver) :
    KeepsVersions pkg route n prog db := by
  induction prog generalizing db with
  | done r =>
    intro db' hrot _
    refine ⟨fun id ver hn => hrot _ _ (hreached id ver hn), ?_, ?_⟩
    · rintro r' hr
      obtain rfl : r = r' := by simpa using hr
      exact hbacked
    · exact fun _ _ hup => absurd hup (not_updates (.done r) trivial)
  | call c k ih =>
    obtain ⟨hc, hk⟩ := hcalls
    intro db' hrot _
    have hreached' : ∀ id ver, n = some (id, ver) → db'.Reaches id ver :=
      fun id ver hn => hrot _ _ (hreached id ver hn)
    refine ⟨bumping_waiting hreached' ?_, fun e => ?_⟩
    · exact fun _ _ hup => absurd hup (not_updates (.call c k) ⟨hc, hk⟩)
    · have hgrow := hc.grows e db'
      simp only [bumpWorld_harmless hc]
      refine ⟨⟨hgrow, .inl rfl, fun _ _ _ hup => absurd hup (not_updates _ (hk _))⟩, fun _ => ?_⟩
      exact ih _ (hk _) (hbacked _) fun id ver hn => hgrow _ _ (hreached' id ver hn)

theorem backed_of_no_cookie {r : Response} (h : r.refreshCookie = none) : r.Backed pkg route n := by
  intro cookie hcookie
  exact absurd (h.symm.trans hcookie).symm (Option.some_ne_none cookie)

theorem respond_error_no_cookie (err : Thrown) : (respond (.error err)).refreshCookie = none := by
  cases err <;> rfl

/-- A request that has not bumped, and will not. -/
theorem keepsVersions_idle {prog : Prog Call Call.Reply Response}
    (hcalls : prog.AllCalls Call.Harmless)
    (hcookie : prog.AllResults fun r => r.refreshCookie = none) :
    KeepsVersions pkg route none prog db := by
  refine keepsVersions_harmless hcalls ?_ fun id ver hn => absurd hn.symm (Option.some_ne_none _)
  induction prog with
  | done r => exact backed_of_no_cookie hcookie
  | call c k ih => exact fun r => ih r (hcalls.2 r) (hcookie r)

theorem keepsVersions_failed (err : Thrown) :
    KeepsVersions pkg route none (.done (respond (.error err))) db :=
  keepsVersions_idle trivial (respond_error_no_cookie err)

/-- A request at its bump. -/
theorem keepsVersions_bump {id : String} {data : UserUpdate} {f : User → Handler Response}
    (hinc : data.refreshTokenVersionIncrement = 1)
    (hpresents : ∀ cookie, route = .refresh cookie → ∃ ver, route.presents pkg = some (id, ver) ∧
      db.Reaches id ver ∧ data = bump ∧ route.Verifies pkg)
    (hcalls : ∀ u, (Handler.serve (f u)).AllCalls Call.Harmless)
    (hbacked : ∀ u, (Handler.serve (f u)).AllResults fun r =>
      r.Backed pkg route (some (id, u.refreshTokenVersion))) :
    KeepsVersions pkg route none
      (Handler.serve (Handler.query (.userUpdate id data) >>= f)) db := by
  rw [serve_query_bind]
  intro db' hrot _
  have hgrow (e : Choice) : db'.Rotates (Call.exec e db' (.query (.userUpdate id data))).1 :=
    grows_update (by omega) e db'
  refine ⟨bumping_waiting (fun _ _ hn => absurd hn.symm (Option.some_ne_none _)) ?_, fun e => ?_⟩
  · intro cookie hroute _
    obtain ⟨ver, hkey, hreach, rfl, hverifies⟩ := hpresents cookie hroute
    exact ⟨id, ver, hkey, hrot _ _ hreach, rfl, hverifies⟩
  cases hr : (Call.exec e db' (.query (.userUpdate id data))).2 with
  | error err =>
    simp only [bumpWorld, hr]
    refine ⟨⟨hgrow e, .inl rfl, fun _ _ _ hup => ?_⟩, fun _ => keepsVersions_failed _⟩
    exact absurd hup (not_updates (.done _) trivial)
  | ok u =>
    obtain ⟨habove, hnow⟩ := exec_bump hinc hr
    have hone : ¬ data.refreshTokenVersionIncrement = 0 := by omega
    have hfails : e.fails = false := by
      by_contra hfails
      rw [Call.exec_fails e (by simpa using hfails)] at hr
      cases hr
    simp only [bumpWorld, hr, if_neg hone, Option.none_or]
    refine ⟨⟨hgrow e, .inr ⟨rfl, hfails, id, data, _, rfl, rfl, habove⟩, fun _ _ _ hup => ?_⟩,
      fun _ => ?_⟩
    · exact absurd hup (not_updates _ (hcalls u))
    · refine keepsVersions_harmless (hcalls u) (hbacked u) fun id' ver hn => ?_
      obtain ⟨rfl, rfl⟩ : id = id' ∧ u.refreshTokenVersion = ver := by simpa using hn
      exact ⟨_, hnow, le_refl _⟩

/-- A token signed with the bumped version backs the response that sets it. -/
theorem backed_issue {r : Response} {claims : Claims} {ver : Int} (hlogin : route.isLogout = false)
    (hcookie : r.refreshCookie = some (refreshCookie (pkg.sign .refresh claims)))
    (hver : claims.ver = some ver) (hn : n = some (claims.sub, ver)) : r.Backed pkg route n := by
  intro cookie hset _
  obtain rfl := Option.some.inj (hcookie.symm.trans hset)
  exact ⟨hlogin, claims, ver, rfl, hver, hn⟩

theorem refreshInvalid_no_cookie (userId : Option String) (reason : String) :
    (Handler.serve (refreshInvalid userId reason)).AllCalls Call.Harmless ∧
      (Handler.serve (refreshInvalid userId reason)).AllResults fun r => r.refreshCookie = none :=
  ⟨allCalls_audit (harmless_quiet rfl) trivial, fun _ => rfl⟩

theorem AuthRoute.Verifies.not_logout (h : route.Verifies pkg) : route.isLogout = false := by
  obtain ⟨token, now, rfl, -⟩ := h
  rfl

theorem keepsVersions_redeem {payload : Claims} {user : User} (hverifies : route.Verifies pkg)
    (hkey : route.presents pkg = some (user.id, payload.version))
    (hver : db.version? user.id = some payload.version) :
    KeepsVersions pkg route none (Handler.serve do
      let updated ← Handler.query (.userUpdate user.id bump)
      refreshIssue pkg user updated) db := by
  refine keepsVersions_bump rfl ?_ (fun updated => ?_) fun updated => ?_
  · exact fun _ _ => ⟨_, hkey, ⟨_, hver, le_refl _⟩, rfl, hverifies⟩
  · exact ⟨harmless_quiet rfl, fun _ => ⟨harmless_quiet rfl, fun _ => allCalls_audit (harmless_quiet rfl) trivial⟩⟩
  · exact fun _ _ _ => backed_issue hverifies.not_logout rfl rfl rfl

theorem keepsVersions_find {userId : String} {ver : Int}
    {f : (Query.userFindUnique userId).Reply → Handler Response}
    (hkey : route.presents pkg = some (userId, ver))
    (hf : ∀ db' : Db, KeepsVersions pkg route none (Handler.serve (f (db'.user? userId))) db')
    (hcheck : ∀ db' : Db, Point.Updates (Handler.serve (f (db'.user? userId))).point →
      db'.version? userId = some ver) :
    KeepsVersions pkg route none
      (Handler.serve (Handler.query (.userFindUnique userId) >>= f)) db := by
  rw [serve_query_bind]
  intro db' _ _
  refine ⟨bumping_waiting (fun _ _ hn => absurd hn.symm (Option.some_ne_none _)) ?_, fun e => ?_⟩
  · exact fun _ _ ⟨_, _, hq⟩ => absurd hq nofun
  cases hfails : e.fails with
  | true =>
    simp only [bumpWorld, Call.exec_fails e hfails]
    refine ⟨⟨.refl db', .inl rfl, fun _ _ _ hup => ?_⟩, fun _ => keepsVersions_failed _⟩
    exact absurd hup (not_updates (.done _) trivial)
  | false =>
    simp only [bumpWorld, Call.exec, Query.exec_of_not_fails hfails, Query.answer]
    refine ⟨⟨.refl db', .inl rfl, fun userId' ver' hkey' hup => ?_⟩, fun _ => hf db'⟩
    obtain ⟨rfl, rfl⟩ : userId = userId' ∧ ver = ver' := by simpa using hkey.symm.trans hkey'
    exact hcheck db' hup

theorem keepsVersions_refreshVerified {payload : Claims} (hverifies : route.Verifies pkg)
    (hkey : route.presents pkg = some (payload.sub, payload.version)) :
    KeepsVersions pkg route none (Handler.serve (refreshVerified pkg payload)) db := by
  obtain ⟨f, hf, hnext⟩ := refresh_after_find pkg payload
  rw [hf]
  refine keepsVersions_find hkey (fun db' => ?_) fun db' hup => ?_
  · rcases hnext db' with ⟨reason, hinvalid⟩ | ⟨user, hid, hver, hredeem⟩
    · rw [hinvalid]
      obtain ⟨hcalls, hcookie⟩ := refreshInvalid_no_cookie (some payload.sub) reason
      exact keepsVersions_idle hcalls hcookie
    · rw [hredeem]
      exact keepsVersions_redeem hverifies (hid ▸ hkey) hver
  · rcases hnext db' with ⟨reason, hinvalid⟩ | ⟨user, hid, hver, -⟩
    · rw [hinvalid] at hup
      exact absurd hup (not_updates _ (refreshInvalid_no_cookie _ _).1)
    · exact hid ▸ hver

theorem keepsVersions_refreshOutcome {token : String} (message : Option String)
    (hverifies : message = none → route.Verifies pkg)
    (hkey : route.presents pkg = some ((pkg.decode token).sub, (pkg.decode token).version)) :
    KeepsVersions pkg route none
      (Handler.serve (refreshOutcome pkg (message.elim (.ok (pkg.decode token)) .error))) db := by
  cases message with
  | none => exact keepsVersions_refreshVerified (hverifies rfl) hkey
  | some message =>
    have hcalls : (Handler.serve (refreshOutcome pkg (.error message))).AllCalls Call.Harmless :=
      allCalls_audit (harmless_quiet rfl) trivial
    exact keepsVersions_idle hcalls fun _ => rfl

theorem keepsVersions_refresh (cookie : Option String) :
    KeepsVersions pkg (.refresh cookie) none (refresh pkg cookie) db := by
  unfold refresh
  cases hcookie : cookie.filter (· != "") with
  | none =>
    obtain ⟨hcalls, hnone⟩ := refreshInvalid_no_cookie none "missing_cookie"
    exact keepsVersions_idle hcalls hnone
  | some token =>
    have hkey : AuthRoute.presents pkg (.refresh cookie) =
        some ((pkg.decode token).sub, (pkg.decode token).version) := by
      rw [AuthRoute.presents, hcookie]
      rfl
    obtain ⟨hsome, hne⟩ : cookie = some token ∧ token ≠ "" := by simpa using hcookie
    have hroute : AuthRoute.refresh cookie = .refresh (some token) := congrArg _ hsome
    intro db' _ _
    refine ⟨bumping_waiting (fun _ _ hn => absurd hn.symm (Option.some_ne_none _)) ?_, fun e => ?_⟩
    · rintro _ _ ⟨_, _, hq⟩
      cases hq
    · obtain ⟨-, hpoint⟩ := keepsRotation_refreshOutcome (.refresh cookie) db'
        (pkg.reject .refresh e.now token) hkey
      exact ⟨⟨.refl db', .inl rfl, fun _ _ _ hup => absurd hup hpoint⟩,
        fun _ => keepsVersions_refreshOutcome _ (fun hok => ⟨token, e.now, hroute, hne, hok⟩) hkey⟩

theorem keepsVersions_logout (caller : Caller) :
    KeepsVersions pkg (.logout caller) none (logout caller) db := by
  have hcalls (userId : Option String) : (Handler.serve (logoutDone userId)).AllCalls Call.Harmless :=
    allCalls_audit (harmless_quiet rfl) trivial
  have hbacked (n : Bumped) (userId : Option String) : (Handler.serve (logoutDone userId)).AllResults
      fun r => r.Backed pkg (.logout caller) n := by
    -- the cookie is cleared
    intro _ cookie hset hage
    obtain rfl : ({ value := "", maxAge := 0 } : Cookie) = cookie := Option.some.inj hset
    exact absurd hage (lt_irrefl 0)
  cases caller with
  | none =>
    exact keepsVersions_harmless (hcalls none) (hbacked none none) fun _ _ hn =>
      absurd hn.symm (Option.some_ne_none _)
  | some ctx =>
    refine keepsVersions_bump rfl (fun _ hroute => ?_) (fun _ => hcalls _) fun _ => hbacked _ _
    cases hroute

theorem AuthRoute.presents_eq {key : String × Int} (h : route.presents pkg = some key) :
    ∃ token, route = .refresh (some token) ∧
      key = ((pkg.decode token).sub, (pkg.decode token).version) := by
  cases route with
  | login body => exact absurd h.symm (Option.some_ne_none key)
  | logout caller => exact absurd h.symm (Option.some_ne_none key)
  | refresh cookie =>
    obtain ⟨token, hcookie, hkey⟩ := Option.map_eq_some_iff.mp h
    obtain ⟨hsome, -⟩ : cookie = some token ∧ token ≠ "" := by simpa using hcookie
    exact ⟨token, congrArg _ hsome, hkey.symm⟩

theorem not_refresh_presents {q : String → Int → Prop} (hroute : ∀ cookie, route ≠ .refresh cookie)
    (id : String) (ver : Int) (hkey : route.presents pkg = some (id, ver)) : q id ver := by
  obtain ⟨token, hrefresh, -⟩ := AuthRoute.presents_eq hkey
  exact absurd hrefresh (hroute _)

/-- A login that counts a failure bumps nothing. -/
theorem keepsVersions_count {id : String} {data : UserUpdate} {f : User → Handler Response}
    (hinc : data.refreshTokenVersionIncrement = 0) (hroute : ∀ cookie, route ≠ .refresh cookie)
    (hcalls : ∀ u, (Handler.serve (f u)).AllCalls Call.Harmless)
    (hcookie : ∀ u, (Handler.serve (f u)).AllResults fun r => r.refreshCookie = none) :
    KeepsVersions pkg route none
      (Handler.serve (Handler.query (.userUpdate id data) >>= f)) db := by
  rw [serve_query_bind]
  intro db' _ _
  have hgrow (e : Choice) : db'.Rotates (Call.exec e db' (.query (.userUpdate id data))).1 :=
    grows_update (by omega) e db'
  refine ⟨bumping_waiting (fun _ _ hn => absurd hn.symm (Option.some_ne_none _)) ?_, fun e => ?_⟩
  · exact fun cookie hrefresh => absurd hrefresh (hroute cookie)
  cases hr : (Call.exec e db' (.query (.userUpdate id data))).2 with
  | error err =>
    simp only [bumpWorld, hr]
    exact ⟨⟨hgrow e, .inl rfl, not_refresh_presents hroute⟩, fun _ => keepsVersions_failed _⟩
  | ok u =>
    simp only [bumpWorld, hr, if_pos hinc]
    exact ⟨⟨hgrow e, .inl rfl, not_refresh_presents hroute⟩,
      fun _ => keepsVersions_idle (hcalls u) (hcookie u)⟩

theorem keepsVersions_harmless_call {c : Call} {k : c.Reply → Prog Call Call.Reply Response}
    (hc : c.Harmless) (hroute : ∀ cookie, route ≠ .refresh cookie)
    (hk : ∀ r db', KeepsVersions pkg route none (k r) db') :
    KeepsVersions pkg route none (.call c k) db := by
  intro db' _ _
  refine ⟨bumping_waiting (fun _ _ hn => absurd hn.symm (Option.some_ne_none _)) ?_, fun e => ?_⟩
  · exact fun cookie hrefresh => absurd hrefresh (hroute cookie)
  · simp only [bumpWorld_harmless hc]
    exact ⟨⟨hc.grows e db', .inl rfl, not_refresh_presents hroute⟩, fun _ => hk _ _⟩

theorem keepsVersions_failure (user : User) (r : Response) (hroute : ∀ cookie, route ≠ .refresh cookie)
    (hr : r.refreshCookie = none) :
    KeepsVersions pkg route none
      (Handler.serve (recordLoginFailure user >>= fun _ => pure r)) db := by
  unfold recordLoginFailure
  simp only [bind_assoc]
  refine keepsVersions_harmless_call (harmless_quiet rfl) hroute fun checkedAt _ => ?_
  refine keepsVersions_harmless_call (harmless_quiet rfl) hroute fun lockedAt _ => ?_
  refine keepsVersions_count rfl hroute (fun _ => ?_) fun _ => ?_
  · split
    · exact ⟨harmless_quiet rfl, fun _ => ⟨harmless_quiet rfl, fun _ => trivial⟩⟩
    · exact ⟨harmless_quiet rfl, fun _ => trivial⟩
  · split
    · exact fun _ _ => hr
    · exact fun _ => hr

theorem keepsVersions_unlocked (body : Option Json) (parsed : LoginBody) (user : User) :
    KeepsVersions pkg (.login body) none (Handler.serve (loginUnlocked pkg parsed user)) db := by
  unfold loginUnlocked
  split
  · exact keepsVersions_failure user _ (fun _ hroute => by cases hroute) rfl
  · refine keepsVersions_bump rfl (fun _ hroute => ?_) (fun updated => ?_) fun updated => ?_
    · cases hroute
    · exact ⟨harmless_quiet rfl, fun _ => ⟨harmless_quiet rfl, fun _ => ⟨harmless_quiet rfl, fun _ => trivial⟩⟩⟩
    · exact fun _ _ _ => backed_issue rfl rfl rfl rfl

theorem keepsVersions_login (body : Option Json) :
    KeepsVersions pkg (.login body) none (login pkg body) db := by
  have hroute (cookie : Option String) : AuthRoute.login body ≠ .refresh cookie := by
    intro heq
    cases heq
  unfold login
  cases validateBody body (loginSchema pkg) with
  | error err => exact keepsVersions_idle trivial rfl
  | ok parsed =>
    simp only [orThrow, pure_bind]
    rw [serve_query_bind]
    refine keepsVersions_harmless_call (harmless_quiet rfl) hroute fun found db₁ => ?_
    cases found with
    | error err => exact keepsVersions_failed _
    | ok found =>
      cases found with
      | none => exact keepsVersions_idle trivial rfl
      | some user =>
        simp only
        rw [serve_now_bind]
        refine keepsVersions_harmless_call (harmless_quiet rfl) hroute fun now db₂ => ?_
        split
        · exact keepsVersions_idle (allCalls_audit (harmless_quiet rfl) trivial) fun _ => rfl
        · exact keepsVersions_unlocked body parsed user

theorem keepsVersions_handler (route : AuthRoute) (db : Db) :
    KeepsVersions pkg route none (route.handler pkg) db := by
  cases route with
  | login body => exact keepsVersions_login body
  | refresh cookie => exact keepsVersions_refresh cookie
  | logout caller => exact keepsVersions_logout caller

end

-- ---------------------------------------------------------------------------
-- Every interleaving
-- ---------------------------------------------------------------------------

abbrev TokenPool := Pool AuthRoute Call Call.Reply Response Db Bumped
abbrev TokenTask := Task AuthRoute Call Call.Reply Response Bumped

/-- Any number of logins, refreshes and logouts, one call a step. -/
def tokenSystem (db : Db) : System TokenPool (Event AuthRoute Choice) Unit :=
  pool bumpWorld (AuthRoute.handler pkg) db

/-- The request was answered with this refresh token. -/
def Issues (t : TokenTask) (token : String) : Prop :=
  ∃ r cookie, t.prog = .done r ∧ r.refreshCookie = some cookie ∧ 0 < cookie.maxAge ∧
    cookie.value = token

/-- The user and the version a verified token names. -/
def tokenKey (token : String) : String × Int := ((pkg.decode token).sub, (pkg.decode token).version)

/-- A refresh token passes the version check. -/
def Db.Accepts (db : Db) (key : String × Int) : Prop := db.version? key.1 = some key.2

/-- What verification returns is what was signed. -/
def RoundTrips : Prop := ∀ key claims, pkg.decode (pkg.sign key claims) = claims

/-- All bumps so far: each to a version of its own, and none above the stored one. -/
structure Drawn (p : TokenPool) : Prop where
  kept : p.Kept bumpWorld (versioning pkg)
  apart : ∀ (i j : Nat) (ti tj : TokenTask) (key : String × Int), p.tasks[i]? = some ti →
    p.tasks[j]? = some tj → ti.note = some key → tj.note = some key → i = j

section
variable {pkg : Packages} {p : TokenPool}

theorem Drawn.reached (h : Drawn pkg p) {t : TokenTask} (ht : t ∈ p.tasks) {key : String × Int}
    (hn : t.note = some key) : p.world.Reaches key.1 key.2 :=
  ((h.kept.tasks t ht).here trivial).reached key.1 key.2 hn

/-- A token a request was answered with carries the version that request bumped. -/
theorem Drawn.key_of_issues (hjose : RoundTrips pkg) (h : Drawn pkg p) {t : TokenTask}
    (ht : t ∈ p.tasks) {token : String} (hissues : Issues t token) :
    t.request.isLogout = false ∧ t.note = some (tokenKey pkg token) := by
  obtain ⟨r, cookie, hprog, hset, hage, rfl⟩ := hissues
  have hpoint : t.prog.point = .finished r := by rw [hprog, Prog.point_done]
  obtain ⟨hlogin, claims, ver, hvalue, hver, hn⟩ :=
    ((h.kept.tasks t ht).here trivial).backed r hpoint cookie hset hage
  refine ⟨hlogin, hn.trans (congrArg some ?_)⟩
  rw [tokenKey, hvalue, hjose, Claims.version, hver, Option.getD_some]

/-- A note is as old as the step before, or new and above all versions there have been. -/
theorem note_origin (h : Drawn pkg p) {e : Event AuthRoute Choice} {i : Nat} {t : TokenTask}
    (ht : (p.step bumpWorld (AuthRoute.handler pkg) e).tasks[i]? = some t) {key : String × Int}
    (hn : t.note = some key) :
    (∃ t₀, p.tasks[i]? = some t₀ ∧ t₀.request = t.request ∧ t₀.note = some key) ∨
      (∀ ver, p.world.Reaches key.1 ver → ver < key.2) ∧ ∃ choice t₀ data,
        e = .step i choice ∧ choice.fails = false ∧ p.tasks[i]? = some t₀ ∧
          t₀.request = t.request ∧ t₀.prog.point = .waiting (.query (.userUpdate key.1 data)) := by
  rcases Pool.task_origin ht with hsame | ⟨request, -, rfl⟩ | ⟨choice, t₀, rfl, hget, rfl, -⟩
  · exact .inl ⟨t, hsame, rfl, hn⟩
  · exact absurd hn.symm (Option.some_ne_none key)
  · cases hpoint : t₀.prog.point with
    | finished r =>
      rw [Task.advance_finished hpoint choice p.world] at hn
      exact .inl ⟨t₀, hget, (Task.advance_request choice p.world).symm, hn⟩
    | waiting c =>
      have hkept := h.kept.tasks t₀ (List.mem_of_getElem? hget)
      obtain ⟨-, hdraws, -⟩ := hkept.guar trivial hpoint choice
      rcases hdraws with hsame | ⟨-, hfails, id, data, ver, rfl, hnew, habove⟩
      · exact .inl ⟨t₀, hget, (Task.advance_request choice p.world).symm, hsame.symm.trans hn⟩
      · obtain rfl : (id, ver) = key := Option.some.inj (hnew.symm.trans hn)
        exact .inr ⟨habove, choice, t₀, data, rfl, hfails, hget,
          (Task.advance_request choice p.world).symm, hpoint⟩

theorem drawn_start (db : Db) : Drawn pkg (tokenSystem pkg db).init := by
  refine ⟨⟨trivial, fun t ht => absurd ht List.not_mem_nil⟩, fun i j ti tj key hi => ?_⟩
  exact absurd (List.getElem?_nil.symm.trans hi).symm (Option.some_ne_none ti)

theorem Drawn.step (h : Drawn pkg p) (e : Event AuthRoute Choice) :
    Drawn pkg (p.step bumpWorld (AuthRoute.handler pkg) e) := by
  have hkept := h.kept.step (AuthRoute.handler pkg)
    (fun route w _ => keepsVersions_handler route w) e trivial
  refine ⟨hkept, fun i j ti tj key hi hj hni hnj => ?_⟩
  -- a version that is drawn in this step is above any drawn before it
  have hnew {k : Nat} {t : TokenTask} (hk : p.tasks[k]? = some t) (hn : t.note = some key)
      (habove : ∀ ver, p.world.Reaches key.1 ver → ver < key.2) : False :=
    absurd (habove _ (h.reached (List.mem_of_getElem? hk) hn)) (lt_irrefl key.2)
  rcases note_origin h hi hni with ⟨ti₀, hi₀, -, hni₀⟩ | ⟨habove, ci, _, _, hei, -⟩
  · rcases note_origin h hj hnj with ⟨tj₀, hj₀, -, hnj₀⟩ | ⟨habove, -⟩
    · exact h.apart i j ti₀ tj₀ key hi₀ hj₀ hni₀ hnj₀
    · exact (hnew hi₀ hni₀ habove).elim
  · rcases note_origin h hj hnj with ⟨tj₀, hj₀, -, hnj₀⟩ | ⟨-, cj, _, _, hej, -⟩
    · exact (hnew hj₀ hnj₀ habove).elim
    · rw [hei] at hej
      cases hej
      rfl

variable (pkg) in
theorem drawn_run (db : Db) (es : List (Event AuthRoute Choice)) :
    Drawn pkg ((tokenSystem pkg db).state ((tokenSystem pkg db).log es)) := by
  induction es with
  | nil => exact drawn_start db
  | cons e es ih => exact ih.step e

theorem rotates_step (h : Drawn pkg p) (e : Event AuthRoute Choice) :
    p.world.Rotates (p.step bumpWorld (AuthRoute.handler pkg) e).world := by
  cases hc : p.call? e with
  | none =>
    rw [Pool.world_of_no_call hc]
    exact .refl p.world
  | some call =>
    obtain ⟨_, _, hgrow, -⟩ := h.kept.call (AuthRoute.handler pkg) hc
    exact hgrow

variable (pkg) in
theorem rotates_run (db : Db) (later es : List (Event AuthRoute Choice)) :
    ((tokenSystem pkg db).state ((tokenSystem pkg db).log es)).world.Rotates
      ((tokenSystem pkg db).state ((tokenSystem pkg db).log (later ++ es))).world := by
  induction later with
  | nil => exact .refl _
  | cons e later ih => exact ih.trans (rotates_step (drawn_run pkg db (later ++ es)) e)

end

/-- The refresh tokens that have been issued, by the versions put into them. -/
structure VersionsApart (p : TokenPool) : Prop where
  distinct : ∀ (i j : Nat) (ti tj : TokenTask) token token', p.tasks[i]? = some ti →
    p.tasks[j]? = some tj → Issues ti token → Issues tj token' →
      tokenKey pkg token = tokenKey pkg token' → i = j
  stored : ∀ t ∈ p.tasks, ∀ token, Issues t token →
    p.world.Reaches (tokenKey pkg token).1 (tokenKey pkg token).2
  unique : ∀ (i j : Nat) (ti tj : TokenTask) token token', p.tasks[i]? = some ti →
    p.tasks[j]? = some tj → Issues ti token → Issues tj token' →
      (tokenKey pkg token).1 = (tokenKey pkg token').1 → p.world.Accepts (tokenKey pkg token) →
        p.world.Accepts (tokenKey pkg token') → i = j

theorem Drawn.versionsApart {pkg : Packages} {p : TokenPool} (hjose : RoundTrips pkg)
    (h : Drawn pkg p) : VersionsApart pkg p := by
  have hdistinct : ∀ (i j : Nat) (ti tj : TokenTask) token token', p.tasks[i]? = some ti →
      p.tasks[j]? = some tj → Issues ti token → Issues tj token' →
        tokenKey pkg token = tokenKey pkg token' → i = j := by
    intro i j ti tj token token' hi hj hti htj hkey
    obtain ⟨-, hni⟩ := h.key_of_issues hjose (List.mem_of_getElem? hi) hti
    obtain ⟨-, hnj⟩ := h.key_of_issues hjose (List.mem_of_getElem? hj) htj
    exact h.apart i j ti tj _ hi hj hni (hkey ▸ hnj)
  refine ⟨hdistinct, fun t ht token hissues => ?_, ?_⟩
  · exact h.reached ht (h.key_of_issues hjose ht hissues).2
  · intro i j ti tj token token' hi hj hti htj huser haccepts haccepts'
    refine hdistinct i j ti tj token token' hi hj hti htj (Prod.ext huser ?_)
    unfold Db.Accepts at haccepts haccepts'
    rw [huser, haccepts'] at haccepts
    exact (Option.some.inj haccepts).symm

/-- However logins, refreshes and logouts interleave, the refresh tokens of a
user carry versions of their own, none above the stored one, and one that is
not accepted is not accepted again. -/
theorem issued_versions (hjose : RoundTrips pkg) (db : Db)
    (later es : List (Event AuthRoute Choice)) :
    let p := (tokenSystem pkg db).state ((tokenSystem pkg db).log es)
    let p' := (tokenSystem pkg db).state ((tokenSystem pkg db).log (later ++ es))
    VersionsApart pkg p ∧
      ∀ t ∈ p.tasks, ∀ token, Issues t token → ¬ p.world.Accepts (tokenKey pkg token) →
        ¬ p'.world.Accepts (tokenKey pkg token) := by
  intro p p'
  have hdrawn : Drawn pkg p := drawn_run pkg db es
  refine ⟨hdrawn.versionsApart hjose, fun t ht token hissues hrefused haccepts => ?_⟩
  obtain ⟨ver, hver, hle⟩ := (hdrawn.versionsApart hjose).stored t ht token hissues
  have hpast : p.world.Reaches (tokenKey pkg token).1 ((tokenKey pkg token).2 + 1) := by
    refine ⟨ver, hver, ?_⟩
    have hne : (tokenKey pkg token).2 ≠ ver := by
      intro heq
      rw [← heq] at hver
      exact hrefused hver
    omega
  obtain ⟨ver', hver', hle'⟩ := rotates_run pkg db later es _ _ hpast
  have heq : ver' = (tokenKey pkg token).2 := Option.some.inj (hver'.symm.trans haccepts)
  omega

abbrev numbers : Encodable (Nat × Option Int × Int × Int) :=
  @Encodable.Prod.encodable _ _ Nat.encodable
    (@Encodable.Prod.encodable _ _ (@Option.encodable _ Int.encodable)
      (@Encodable.Prod.encodable _ _ Int.encodable Int.encodable))

-- tokens that spell their claims out: the numbers in unary, then the user
def Claims.spell (claims : Claims) : String :=
  String.ofList (List.replicate
    (numbers.encode (claims.role.rank, claims.ver, claims.iat, claims.exp)) '1' ++
      '.' :: claims.sub.toList)

def Role.ofRank : Nat → Role
  | 0 => .viewer
  | 1 => .operator
  | _ => .admin

def Claims.read (token : String) : Claims :=
  let n := (token.toList.takeWhile (· == '1')).length
  let (rank, ver, iat, exp) := (numbers.decode n).getD (0, none, 0, 0)
  { sub := String.ofList (token.toList.drop (n + 1)), role := Role.ofRank rank
    ver := ver, iat := iat, exp := exp }

theorem Claims.read_spell (claims : Claims) : Claims.read claims.spell = claims := by
  have hdigits (n : Nat) (rest : List Char) :
      (List.replicate n '1' ++ '.' :: rest).takeWhile (· == '1') = List.replicate n '1' := by
    induction n with
    | zero => rfl
    | succ n ih => simp [List.replicate_succ]
  have hrest (n : Nat) (rest : List Char) :
      (List.replicate n '1' ++ '.' :: rest).drop (n + 1) = rest := by
    induction n with
    | zero => rfl
    | succ n ih => simpa [List.replicate_succ] using ih
  have hrank (role : Role) : Role.ofRank role.rank = role := by cases role <;> rfl
  obtain ⟨sub, role, ver, iat, exp⟩ := claims
  have hnumbers := numbers.encodek (role.rank, ver, iat, exp)
  simp only [Claims.read, Claims.spell, String.toList_ofList, hdigits, hrest, List.length_replicate,
    hnumbers, Option.getD_some, hrank, String.ofList_toList]

def spelledTokens : Packages where
  sign _ claims := claims.spell
  decode := Claims.read
  reject _ _ _ := none
  comparePassword password passwordHash := password == passwordHash
  isEmail _ := true

theorem spelledTokens_roundTrips : RoundTrips spelledTokens := by
  simp only [RoundTrips, spelledTokens, Claims.read_spell, implies_true]

private def laptop : Db where
  users := [⟨"u1", "op@rvep.dev", "Pass1234!", .operator, 0, none, 3⟩]
  vehicles := []
  permissions := []
  sessions := []
  leases := []
  events := []

private def signIn : Event AuthRoute Choice :=
  .spawn (.login (some (.obj [("email", .str "op@rvep.dev"), ("password", .str "Pass1234!")])))

private def proceeds (task count : Nat) : List (Event AuthRoute Choice) :=
  List.replicate count (.step task ⟨1000, false⟩)

/-- The second login bumps first, and signs its token last. Newest first. -/
def twoLogins : List (Event AuthRoute Choice) :=
  proceeds 1 3 ++ proceeds 0 6 ++ proceeds 1 3 ++ [signIn, signIn]

theorem issued_versions_two_logins :
    let p := (tokenSystem spelledTokens laptop).state ((tokenSystem spelledTokens laptop).log twoLogins)
    ∃ t t' token token', p.tasks = [t, t'] ∧ Issues t token ∧ Issues t' token' ∧
      tokenKey spelledTokens token ≠ tokenKey spelledTokens token' := by
  obtain ⟨hapart, -⟩ := issued_versions spelledTokens spelledTokens_roundTrips laptop [] twoLogins
  refine ⟨_, _, _, _, rfl, ⟨_, _, rfl, rfl, ?_, rfl⟩, ⟨_, _, rfl, rfl, ?_, rfl⟩, fun hkey => ?_⟩
  · decide
  · decide
  · have heq := hapart.distinct 0 1 _ _ _ _ rfl rfl ⟨_, _, rfl, rfl, by decide, rfl⟩
      ⟨_, _, rfl, rfl, by decide, rfl⟩ hkey
    exact absurd heq Nat.zero_ne_one

end Rvep.Backend
