import Rvep.Backend.Footprint
import Rvep.Backend.Middleware

/-!
# Accounts

No route changes who a user is: the id, the email, the password's hash and the
role. The one account that a route makes is the system's. So an access token
says what the database says, for as long as it is accepted.
-/

namespace Rvep.Backend

open Interleaving Reactive

-- ---------------------------------------------------------------------------
-- Who the users are
-- ---------------------------------------------------------------------------

structure UserAccount where
  id : String
  email : String
  passwordHash : String
  role : Role
  deriving DecidableEq, Repr

def User.account (u : User) : UserAccount := ⟨u.id, u.email, u.passwordHash, u.role⟩

def Db.accounts (db : Db) : List UserAccount := db.users.map User.account

/-- The account of `systemUser`. -/
def systemAccount (id : String) : UserAccount :=
  ⟨id, systemUser.email, systemUser.passwordHash, systemUser.role⟩

/-- The accounts of `db'` are those of `db`, or the system's has been added, which was missing. -/
def Db.Enrolls (db db' : Db) : Prop :=
  db'.accounts = db.accounts ∨
    ∃ id, Http.IsRowId id ∧ id ∉ db.accounts.map (·.id) ∧ SYSTEM_EMAIL ∉ db.accounts.map (·.email) ∧
      db'.accounts = db.accounts ++ [systemAccount id]

section
variable {db db' db'' : Db}

theorem Db.Enrolls.refl (db : Db) : db.Enrolls db := .inl rfl

theorem Db.Enrolls.of_users (h : db'.users = db.users) : db.Enrolls db' :=
  .inl (congrArg (List.map User.account) h)

/-- The system's account is added once. -/
theorem Db.Enrolls.trans (h : db.Enrolls db') (h' : db'.Enrolls db'') : db.Enrolls db'' := by
  rcases h with heq | ⟨id, hrow, hid, hemail, heq⟩
  · rwa [Enrolls, heq] at h'
  · rcases h' with heq' | ⟨id', -, -, hemail', -⟩
    · exact .inr ⟨id, hrow, hid, hemail, heq'.trans heq⟩
    · refine absurd ?_ hemail'
      rw [heq, List.map_append]
      exact List.mem_append_right _ (List.mem_singleton_self _)

theorem Db.Enrolls.subset (h : db.Enrolls db') : db.accounts ⊆ db'.accounts := by
  rcases h with heq | ⟨id, -, -, -, heq⟩
  · exact heq ▸ List.Subset.refl _
  · exact heq ▸ List.subset_append_left _ _

/-- New ids are new, so what names one account goes on naming one. -/
theorem Db.Enrolls.nodup (h : db.Enrolls db') (hids : (db.accounts.map (·.id)).Nodup) :
    (db'.accounts.map (·.id)).Nodup := by
  rcases h with heq | ⟨id, -, hid, -, heq⟩
  · rwa [heq]
  · rw [heq, List.map_append]
    exact List.nodup_append_comm.mp (List.nodup_cons.mpr ⟨hid, hids⟩)

theorem Db.Enrolls.rowIds (h : db.Enrolls db') (hids : ∀ a ∈ db.accounts, Http.IsRowId a.id) :
    ∀ a ∈ db'.accounts, Http.IsRowId a.id := by
  rcases h with heq | ⟨id, hrow, -, -, heq⟩
  · rwa [heq]
  · intro a ha
    rw [heq] at ha
    rcases List.mem_append.mp ha with ha | ha
    · exact hids a ha
    · exact List.mem_singleton.mp ha ▸ hrow

end

theorem account_update (u : User) (data : UserUpdate) : (u.update data).account = u.account := rfl

/-- The only users that are made are the system's. -/
def Call.MakesSystem (c : Call) : Prop := ∀ data, c = .query (.userCreate data) → data = systemUser

section
variable {db : Db}

theorem enrolls_userUpdate (db : Db) (now : Time) (id : String) (data : UserUpdate) :
    db.Enrolls ((Query.userUpdate id data).answer now db).1 := by
  simp only [Query.answer]
  split
  · exact .refl db
  · refine .inl ?_
    rw [Db.accounts, Db.accounts, List.map_map]
    refine List.map_congr_left fun u _ => ?_
    simp only [Function.comp_apply]
    split
    · exact account_update u data
    · rfl

theorem isRowId_newId (ids : List String) : Http.IsRowId (Db.newId ids) := by
  refine ⟨?_, fun c hc => .inl ?_⟩
  · intro hempty
    have hlength := congrArg String.length hempty
    simp [Db.newId, Db.nextId] at hlength
  · rw [Db.newId, String.toList_ofList] at hc
    exact (List.eq_of_mem_replicate hc).symm ▸ rfl

theorem enrolls_systemUser (db : Db) (now : Time) :
    db.Enrolls ((Query.userCreate systemUser).answer now db).1 := by
  have hids : db.accounts.map (·.id) = db.users.map (·.id) := List.map_map ..
  have hemails : db.accounts.map (·.email) = db.users.map (·.email) := List.map_map ..
  simp only [Query.answer]
  split
  · exact .refl db
  · split
    · exact .refl db
    next hnew =>
      refine .inr ⟨Db.newId (db.users.map (·.id)), isRowId_newId _, hids ▸ Db.newId_notMem _, ?_, ?_⟩
      · rw [hemails]
        intro hmem
        obtain ⟨u, hu, hemail⟩ := List.mem_map.mp hmem
        exact hnew (List.any_eq_true.mpr ⟨u, hu, beq_iff_eq.mpr hemail⟩)
      · simp [Db.accounts, systemAccount, User.account]

theorem users_answer {q : Query} (hupdate : ∀ id data, q ≠ .userUpdate id data)
    (hcreate : ∀ data, q ≠ .userCreate data) (now : Time) : (q.answer now db).1.users = db.users := by
  cases q with
  | userUpdate id data => exact absurd rfl (hupdate id data)
  | userCreate data => exact absurd rfl (hcreate data)
  | leaseUpdate | leaseCreate | telemetryFrameCreate | permissionDelete =>
    simp only [Query.answer]
    split <;> rfl
  | datasetAssetCreate | permissionUpsert =>
    simp only [Query.answer]
    split
    · rfl
    · split <;> rfl
  | sessionCreate =>
    simp only [Query.answer]
    split
    · rfl
    · split
      · rfl
      · split <;> rfl
  | _ => rfl

theorem enrolls_exec {req : ApiRequest} {c : Call} (hmay : req.MayCall c) (hsystem : c.MakesSystem)
    (e : Choice) (db : Db) : db.Enrolls (Call.exec e db c).1 := by
  cases c with
  | now => exact .refl db
  | transaction tx =>
    obtain hquiet | ⟨-, userId, vehicle, session, now, rfl⟩ := hmay
    · cases hquiet
    · rw [Call.exec_transaction]
      split
      · exact .refl db
      · rcases commit_claimTransaction userId vehicle session now e.now db with
          ⟨_, -, hout⟩ | ⟨-, ⟨-, hout⟩ | ⟨-, hout⟩⟩ <;>
        · rw [hout]
          exact .of_users rfl
  | query q =>
    simp only [Call.exec]
    cases hfails : e.fails with
    | true =>
      rw [Query.exec_of_fails hfails]
      exact .refl db
    | false =>
      rw [Query.exec_of_not_fails hfails]
      by_cases hupdate : ∃ id data, q = .userUpdate id data
      · obtain ⟨id, data, rfl⟩ := hupdate
        exact enrolls_userUpdate db e.now id data
      · by_cases hcreate : ∃ data, q = .userCreate data
        · obtain ⟨data, rfl⟩ := hcreate
          obtain rfl := hsystem data rfl
          exact enrolls_systemUser db e.now
        · refine .of_users (users_answer ?_ ?_ e.now)
          · exact fun id data hq => hupdate ⟨id, data, hq⟩
          · exact fun data hq => hcreate ⟨data, hq⟩

end

-- ---------------------------------------------------------------------------
-- The routes
-- ---------------------------------------------------------------------------

theorem makesSystem_quiet {c : Call} (h : c.isQuiet = true) : c.MakesSystem := by
  rintro data rfl
  cases h

theorem makesSystem_registerAsset (body : DatasetAssetBody) :
    (Handler.serve (registerAsset body)).AllCalls Call.MakesSystem := by
  refine allCalls_registerAsset (fun _ => makesSystem_quiet) ?_ ?_ ?_ body
  · rintro data hdata
    cases hdata
    rfl
  · rintro _ data hdata
    cases hdata
  · rintro _ data hdata
    cases hdata

theorem makesSystem_handler (srv : Server) (fmt : NumberFormat) (req : ApiRequest) :
    (req.handler srv fmt).AllCalls Call.MakesSystem := by
  by_cases hdataset : ∃ dreq, req = .datasetAsset dreq
  · obtain ⟨dreq, rfl⟩ := hdataset
    change (datasetAsset fmt srv.internalToken dreq).AllCalls _
    unfold datasetAsset
    split
    · trivial
    · exact allCalls_orThrow fun body => makesSystem_registerAsset body
  · refine (mayCall_handler srv fmt req).imp ?_
    rintro c (hquiet | hwrites)
    · exact makesSystem_quiet hquiet
    · rintro data rfl
      exact absurd hwrites hdataset

-- ---------------------------------------------------------------------------
-- The tokens
-- ---------------------------------------------------------------------------

def Response.accessToken? (r : Response) : Option String :=
  match r.body with
  | .data fields =>
    match fields.lookup "accessToken" with
    | some (.text token) => some token
    | _ => none
  | _ => none

/-- The account that a request shows it may sign in to: by email and password, or
by a refresh token. -/
def AuthRoute.Names (pkg : Packages) (a : UserAccount) : AuthRoute → Prop
  | .login body => ∃ credentials, validateBody body (loginSchema pkg) = .ok credentials ∧
      a.email = credentials.email ∧ pkg.comparePassword credentials.password a.passwordHash = true
  | .refresh cookie => ∃ token now, cookie = some token ∧ pkg.reject .refresh now token = none ∧
      (pkg.decode token).sub = a.id
  | .logout _ => False

/-- A token for the account, and when it expires, as the response says. -/
def Response.SignsIn (pkg : Packages) (r : Response) (a : UserAccount) (token : String) : Prop :=
  ∃ iat, token = pkg.sign .access ⟨a.id, a.role, none, iat, iat + accessTtlSeconds⟩ ∧
    r.field? "expiresAt" = some (.instant ((iat + accessTtlSeconds) * 1000))

/-- Accounts are only enrolled, and a token is for an account that the request names. -/
def issuing (pkg : Packages) : Contract ApiRequest Call Response Db Choice Unit where
  inv _ := True
  rely := Db.Enrolls
  here req _ p db := ∀ route r token, req = .server (.auth route) → p = .finished r →
    r.accessToken? = some token → ∃ a ∈ db.accounts, route.Names pkg a ∧ r.SignsIn pkg a token
  guar _ _ _ _ db _ _ db' := db.Enrolls db'
  refl := .refl
  trans := .trans
  rely_of_guar h := h

abbrev KeepsIssuing (pkg : Packages) (req : ApiRequest) (prog : Prog Call Call.Reply Response)
    (db : Db) : Prop :=
  (issuing pkg).Kept trailWorld req () prog db

section
variable {pkg : Packages} {req : ApiRequest} {route : AuthRoute} {db : Db}

theorem keepsIssuing_none {r : Response} (h : r.accessToken? = none) :
    KeepsIssuing pkg req (.done r) db := by
  rintro db' - - _ r' token - hr htoken
  cases hr
  rw [h] at htoken
  cases htoken

theorem keepsIssuing_waiting {c : Call} : (issuing pkg).here req () (.waiting c) db :=
  fun _ _ _ _ hr => absurd hr (waiting_ne_finished _ _)

theorem keepsIssuing_read {q : Query} {f : q.Reply → Handler Response} (hq : q.isRead = true)
    (hf : ∀ db' v, db.Enrolls db' → (∀ now, q.answer now db' = (db', .ok v)) →
      KeepsIssuing pkg req (Handler.serve (f v)) db') :
    KeepsIssuing pkg req (Handler.serve (Handler.query q >>= f)) db :=
  kept_read trail_runs hq (fun _ _ _ => keepsIssuing_waiting) (fun db' _ _ _ _ _ => .refl db')
    (fun _ _ _ => keepsIssuing_none rfl) fun db' v hrely _ hv => hf db' v hrely hv

theorem keepsIssuing_now {f : Time → Handler Response}
    (hf : ∀ now db', db.Enrolls db' → KeepsIssuing pkg req (Handler.serve (f now)) db') :
    KeepsIssuing pkg req (Handler.serve (Handler.now >>= f)) db :=
  kept_now trail_runs (fun _ _ _ => keepsIssuing_waiting) (fun db' _ _ _ _ _ => .refl db')
    fun db' e hrely _ => hf e.now db' hrely

theorem keepsIssuing_audit {event : EventData} {f : Unit → Handler Response}
    (hf : ∀ db', db.Enrolls db' → KeepsIssuing pkg req (Handler.serve (f ())) db') :
    KeepsIssuing pkg req (Handler.serve (audit event >>= f)) db :=
  kept_audit trail_runs (fun _ _ _ => keepsIssuing_waiting) (fun _ _ _ _ _ _ _ => .of_users rfl)
    fun _ _ _ hrely _ => hf _ (hrely.trans (.of_users rfl))

theorem keepsIssuing_userUpdate {id : String} {data : UserUpdate} {f : User → Handler Response}
    (hf : ∀ updated db', db.Enrolls db' → KeepsIssuing pkg req (Handler.serve (f updated)) db') :
    KeepsIssuing pkg req (Handler.serve (Handler.query (.userUpdate id data) >>= f)) db := by
  have hupdate {db' db'' : Db} {now : Time} {result : Except DbError User}
      (h : (Query.userUpdate id data).answer now db' = (db'', result)) : db'.Enrolls db'' := by
    have henrolls := enrolls_userUpdate db' now id data
    rwa [h] at henrolls
  refine kept_query trail_runs (fun _ _ _ => keepsIssuing_waiting) ?_
    (fun _ _ _ => keepsIssuing_none rfl)
    (fun db' now v db'' hrely _ _ heq => hf v db'' (hrely.trans (hupdate heq)))
    fun _ _ _ _ _ _ _ _ => keepsIssuing_none rfl
  intro db' e _ _ _ _
  simp only [Query.exec]
  split
  · exact .refl db'
  · exact enrolls_userUpdate db' e.now id data

/-- The end of a login and of a refresh. -/
theorem keepsIssuing_issue {user : User} (hmem : user.account ∈ db.accounts)
    (hnames : route.Names pkg user.account) (version : Int) (event : EventData) (more : Fields) :
    KeepsIssuing pkg (.server (.auth route)) (Handler.serve do
      let (accessToken, expiresAt) ← signAccessToken pkg user.id user.role
      let refreshToken ← signRefreshToken pkg user.id user.role version
      audit event
      return {
        ok ([("accessToken", .text accessToken), ("expiresAt", .instant expiresAt)] ++ more) with
        refreshCookie := some (refreshCookie refreshToken) }) db := by
  refine keepsIssuing_now fun now db₁ h₁ => keepsIssuing_now fun _ db₂ h₂ => ?_
  refine keepsIssuing_audit fun db₃ h₃ => ?_
  rintro db₄ h₄ - route' r token hreq hr htoken
  cases hreq
  cases hr
  cases htoken
  have hmem₄ := (((h₁.trans h₂).trans h₃).trans h₄).subset hmem
  exact ⟨user.account, hmem₄, hnames, now / 1000, rfl, rfl⟩

theorem account_mem_of_find {key : User → Bool} {user : User} (h : db.users.find? key = some user) :
    user.account ∈ db.accounts :=
  List.mem_map_of_mem (List.mem_of_find?_eq_some h)

theorem keepsIssuing_refresh (cookie : Option String) :
    KeepsIssuing pkg (.server (.auth (.refresh cookie))) (refresh pkg cookie) db := by
  have hinvalid {db : Db} {userId : Option String} {reason : String} :
      KeepsIssuing pkg (.server (.auth (.refresh cookie)))
        (Handler.serve (refreshInvalid userId reason)) db :=
    keepsIssuing_audit fun _ _ => keepsIssuing_none rfl
  unfold refresh
  split
  · exact hinvalid
  next refreshToken hcookie =>
    have hpresented : cookie = some refreshToken := (Option.filter_eq_some_iff.mp hcookie).1
    refine keepsIssuing_now fun now db₁ _ => ?_
    cases hrejected : pkg.reject .refresh now refreshToken with
    | some message =>
      simp only [Option.elim_some]
      exact keepsIssuing_audit fun _ _ => keepsIssuing_none rfl
    | none =>
      simp only [Option.elim_none, refreshOutcome, refreshVerified]
      refine keepsIssuing_read rfl fun db₂ found _ hfound => ?_
      obtain rfl : db₂.user? (pkg.decode refreshToken).sub = found := (outcome_ok rfl (hfound 0)).2
      cases huser : db₂.user? (pkg.decode refreshToken).sub with
      | none => exact hinvalid
      | some user =>
        simp only
        split
        · exact hinvalid
        · refine keepsIssuing_userUpdate fun updated db₃ h₃ => ?_
          have hnames : AuthRoute.Names pkg user.account (.refresh cookie) :=
            ⟨refreshToken, now, hpresented, hrejected, (user?_id huser).symm⟩
          exact keepsIssuing_issue (h₃.subset (account_mem_of_find huser)) hnames _ _ []

theorem keepsIssuing_login (body : Option Json) :
    KeepsIssuing pkg (.server (.auth (.login body))) (login pkg body) db := by
  unfold login
  refine kept_orThrow (fun _ _ => keepsIssuing_none rfl) fun credentials hcredentials => ?_
  refine keepsIssuing_read rfl fun db₁ found _ hfound => ?_
  obtain rfl : db₁.users.find? (·.email == credentials.email) = found := (outcome_ok rfl (hfound 0)).2
  cases huser : db₁.users.find? (·.email == credentials.email) with
  | none => exact keepsIssuing_none rfl
  | some user =>
    refine keepsIssuing_now fun now db₂ h₂ => ?_
    split
    · exact keepsIssuing_audit fun _ _ => keepsIssuing_none rfl
    · unfold loginUnlocked
      cases hpassword : pkg.comparePassword credentials.password user.passwordHash with
      | false =>
        simp only [recordLoginFailure, bind_assoc]
        refine keepsIssuing_now fun _ _ _ => keepsIssuing_now fun _ _ _ => ?_
        refine keepsIssuing_userUpdate fun _ _ _ => ?_
        split
        · rw [bind_assoc]
          refine keepsIssuing_audit fun _ _ => ?_
          exact keepsIssuing_audit fun _ _ => keepsIssuing_none rfl
        · exact keepsIssuing_audit fun _ _ => keepsIssuing_none rfl
      | true =>
        refine keepsIssuing_userUpdate fun updated db₃ h₃ => ?_
        have hemail : (user.email == credentials.email) = true :=
          List.find?_some (p := fun u : User => u.email == credentials.email) huser
        have hnames : AuthRoute.Names pkg user.account (.login body) :=
          ⟨credentials, hcredentials, eq_of_beq hemail, hpassword⟩
        exact keepsIssuing_issue ((h₂.trans h₃).subset (account_mem_of_find huser)) hnames _ _
          [("role", .text user.role.name)]

theorem keepsIssuing_logout (caller : Caller) :
    KeepsIssuing pkg (.server (.auth (.logout caller))) (logout caller) db := by
  cases caller with
  | none => exact keepsIssuing_audit fun _ _ => keepsIssuing_none rfl
  | some ctx =>
    exact keepsIssuing_userUpdate fun _ _ _ => keepsIssuing_audit fun _ _ => keepsIssuing_none rfl

theorem keepsIssuing_handler (srv : Server) (fmt : NumberFormat) (req : ApiRequest) :
    KeepsIssuing srv.pkg req (req.handler srv fmt) db := by
  by_cases hauth : ∃ route, req = .server (.auth route)
  · obtain ⟨route, rfl⟩ := hauth
    cases route with
    | login body => exact keepsIssuing_login body
    | refresh cookie => exact keepsIssuing_refresh cookie
    | logout caller => exact keepsIssuing_logout caller
  · refine ((mayCall_handler srv fmt req).and (makesSystem_handler srv fmt req)).kept ?_ ?_
    · exact fun _ _ _ route _ _ hreq => absurd ⟨route, hreq⟩ hauth
    · exact fun e _ c db' _ _ hc _ => enrolls_exec hc.1 hc.2 e db'

end

-- ---------------------------------------------------------------------------
-- Runs
-- ---------------------------------------------------------------------------

section
variable (srv : Server) (fmt : NumberFormat) (start : Db)

theorem issuing_run (es : List ApiEvent) :
    ((apiSystem srv fmt start).state ((apiSystem srv fmt start).log es)).Kept trailWorld
      (issuing srv.pkg) :=
  Pool.Kept.run (C := issuing srv.pkg) (fun req _ _ => keepsIssuing_handler srv fmt req)
    (fun _ _ => trivial) trivial es

theorem enrolls_step (es : List ApiEvent) (e : ApiEvent) :
    ((apiSystem srv fmt start).state ((apiSystem srv fmt start).log es)).world.Enrolls
      ((apiSystem srv fmt start).state ((apiSystem srv fmt start).log (e :: es))).world := by
  have hkept := issuing_run srv fmt start es
  change Db.Enrolls _ (Pool.step trailWorld (ApiRequest.handler srv fmt) _ e).world
  cases hc : ((apiSystem srv fmt start).state ((apiSystem srv fmt start).log es)).call? e with
  | none => exact .of_users (congrArg Db.users (Pool.world_of_no_call hc))
  | some call =>
    obtain ⟨_, _, hguar⟩ := hkept.call (ApiRequest.handler srv fmt) hc
    exact hguar

theorem enrolls_run (es : List ApiEvent) :
    start.Enrolls ((apiSystem srv fmt start).state ((apiSystem srv fmt start).log es)).world := by
  induction es with
  | nil => exact .refl start
  | cons e es ih => exact ih.trans (enrolls_step srv fmt start es e)

/-- Whatever requests there are and however they interleave: between any two moments
no user loses an id, an email, a password hash or a role, or gets another, and no
user is added but the system's, once. -/
theorem accounts_kept (es later : List ApiEvent) :
    ((apiSystem srv fmt start).state ((apiSystem srv fmt start).log es)).world.Enrolls
      ((apiSystem srv fmt start).state ((apiSystem srv fmt start).log (later ++ es))).world := by
  induction later with
  | nil => exact .refl _
  | cons e later ih => exact ih.trans (enrolls_step srv fmt start (later ++ es) e)

end

-- ---------------------------------------------------------------------------
-- Who a request is handled as
-- ---------------------------------------------------------------------------

/-- What `jose` does: a token carries its claims, and is accepted until it expires. -/
structure Packages.HonestJwt (pkg : Packages) : Prop where
  decode_sign : ∀ claims, pkg.decode (pkg.sign .access claims) = claims
  accepts : ∀ claims now, now / 1000 < claims.exp →
    pkg.reject .access now (pkg.sign .access claims) = none
  expires : ∀ claims now, claims.exp ≤ now / 1000 →
    (pkg.reject .access now (pkg.sign .access claims)).isSome = true

section
variable {pkg : Packages} {corsAllowedOrigin : String} {request : Http.Request} {now later : Time}
  {token : String}

theorem between_toNat {c low high : Char} (h : low.val ≤ c.val ∧ c.val ≤ high.val)
    (hlow : 45 ≤ low.toNat) (hhigh : high.toNat < 256) : 45 ≤ c.toNat ∧ c.toNat < 256 :=
  ⟨Nat.le_trans hlow (UInt32.le_iff_toNat_le.mp h.1),
    Nat.lt_of_le_of_lt (UInt32.le_iff_toNat_le.mp h.2) hhigh⟩

theorem alphanum_range {c : Char} (h : c.isAlphanum = true) : 45 ≤ c.toNat ∧ c.toNat < 256 := by
  have hcases : (c.isUpper = true ∨ c.isLower = true) ∨ c.isDigit = true := by
    change ((c.isUpper || c.isLower) || c.isDigit) = true at h
    simpa only [Bool.or_eq_true] using h
  rcases hcases with (hupper | hlower) | hdigit
  · exact between_toNat (of_decide_eq_true hupper) (by decide) (by decide)
  · obtain ⟨hlow, hhigh⟩ := Bool.and_eq_true_iff.mp hlower
    exact between_toNat ⟨of_decide_eq_true hlow, of_decide_eq_true hhigh⟩ (by decide) (by decide)
  · obtain ⟨hlow, hhigh⟩ := Bool.and_eq_true_iff.mp hdigit
    exact between_toNat ⟨of_decide_eq_true hlow, of_decide_eq_true hhigh⟩ (by decide) (by decide)

theorem isRowId_carries {id : String} (h : Http.IsRowId id) : HeaderList.carries id = true := by
  refine List.all_eq_true.mpr fun c hc => ?_
  have hrange : 45 ≤ c.toNat ∧ c.toNat < 256 := by
    rcases h.2 c hc with halnum | rfl
    · exact alphanum_range halnum
    · decide
  have hne {d : Char} (hd : d.toNat < 45) : c ≠ d := by
    rintro rfl
    exact absurd hrange.1 (Nat.not_le.mpr hd)
  have hzero : c.toNat ≠ 0 := Nat.ne_of_gt (Nat.lt_of_lt_of_le (by decide) hrange.1)
  simp [hrange.2, hzero, hne (d := '\n') (by decide), hne (d := '\r') (by decide)]

/-- A verified token for a row of the database is who the handler sees. -/
theorem handled_of_token (hprot : request.Protected)
    (hbearer : Http.bearerToken (request.headers.get "authorization") = some token)
    (haccepted : pkg.reject .access now token = none) (hid : Http.IsRowId (pkg.decode token).sub) :
    Http.outcome pkg corsAllowedOrigin now later request =
      .handled (.ok ⟨(pkg.decode token).sub, (pkg.decode token).role⟩) := by
  obtain ⟨hmatched, hpublic, hinternal, hmethod⟩ := hprot
  have hcarried : Http.inject request.headers (pkg.decode token) ≠ none := by
    rw [ne_eq, Http.inject_eq_none, hid.normalize, Http.normalize_role, isRowId_carries hid]
    cases (pkg.decode token).role <;> decide
  obtain ⟨headers, hinject⟩ := Option.ne_none_iff_exists'.mp hcarried
  simp only [Http.outcome, Http.middleware, hmatched, hmethod, hpublic, hinternal, hbearer,
    Http.verifyAccessToken, haccepted, hinject, Http.applyCors_next, Http.getAuthContext,
    Http.injected_inject hinject, hid.normalize, if_neg hid.1, Option.elim_none, if_true, if_false,
    Bool.false_eq_true]

theorem refused_of_token (hprot : request.Protected)
    (hrefused : ∀ token, Http.bearerToken (request.headers.get "authorization") = some token →
      (pkg.reject .access now token).isSome = true) :
    ∃ response, Http.outcome pkg corsAllowedOrigin now later request = .answered response ∧
      response.status = 401 := by
  obtain ⟨hmatched, hpublic, hinternal, hmethod⟩ := hprot
  simp only [Http.outcome, Http.middleware, hmatched, hmethod, hpublic, hinternal, if_true, if_false,
    Bool.false_eq_true]
  cases hbearer : Http.bearerToken (request.headers.get "authorization") with
  | none => exact ⟨_, rfl, rfl⟩
  | some token =>
    obtain ⟨message, hreject⟩ := Option.isSome_iff_exists.mp (hrefused token hbearer)
    simp only [Http.verifyAccessToken, hreject, Option.elim_some]
    exact ⟨_, rfl, rfl⟩

end

abbrev ApiPool := Pool ApiRequest Call Call.Reply Response Db Unit

/-- A login or a refresh has responded with the token. -/
def IssuedIn (p : ApiPool) (token : String) : Prop :=
  ∃ t ∈ p.tasks, ∃ route r, t.request = .server (.auth route) ∧ t.prog.point = .finished r ∧
    r.accessToken? = some token

/-- A token from before the run. -/
def IssuedBefore (pkg : Packages) (start : Db) (token : String) : Prop :=
  ∃ a ∈ start.accounts, ∃ iat,
    token = pkg.sign .access ⟨a.id, a.role, none, iat, iat + accessTtlSeconds⟩

section
variable (srv : Server) (fmt : NumberFormat) (start : Db) (es : List ApiEvent)
  (corsAllowedOrigin : String)

/-- What is issued is for an account that is there. -/
theorem issued_account {token : String}
    (h : IssuedIn ((apiSystem srv fmt start).state ((apiSystem srv fmt start).log es)) token) :
    IssuedBefore srv.pkg ((apiSystem srv fmt start).state ((apiSystem srv fmt start).log es)).world
      token := by
  obtain ⟨t, ht, route, r, hrequest, hfinished, htoken⟩ := h
  obtain ⟨a, ha, -, iat, hsigned, -⟩ := ((issuing_run srv fmt start es).tasks t ht).here trivial
    route r token hrequest hfinished htoken
  exact ⟨a, ha, iat, hsigned⟩

/-- After any run: who gets through to a protected route is an account of the
database, in the role it has there, as long as the token was issued and not forged. -/
theorem callers_are_accounts (hjwt : srv.pkg.HonestJwt)
    (hids : ∀ a ∈ start.accounts, Http.IsRowId a.id) {request : Http.Request}
    (hprot : request.Protected) {now : Time} (later : Time) :
    let p := (apiSystem srv fmt start).state ((apiSystem srv fmt start).log es)
    (∀ token, Http.bearerToken (request.headers.get "authorization") = some token →
      srv.pkg.reject .access now token = none → IssuedIn p token ∨ IssuedBefore srv.pkg start token) →
    (∃ response, Http.outcome srv.pkg corsAllowedOrigin now later request = .answered response ∧
        response.status = 401) ∨
      ∃ a ∈ p.world.accounts, Http.outcome srv.pkg corsAllowedOrigin now later request =
        .handled (.ok ⟨a.id, a.role⟩) := by
  intro p hissued
  have henrolls := enrolls_run srv fmt start es
  by_cases haccepted : ∃ token, Http.bearerToken (request.headers.get "authorization") = some token ∧
      srv.pkg.reject .access now token = none
  · obtain ⟨token, hbearer, haccepted⟩ := haccepted
    have hbefore : IssuedBefore srv.pkg p.world token := by
      rcases hissued token hbearer haccepted with hrun | ⟨a, ha, hsigned⟩
      · exact issued_account srv fmt start es hrun
      · exact ⟨a, henrolls.subset ha, hsigned⟩
    obtain ⟨a, ha, iat, hsigned⟩ := hbefore
    have hdecode := hjwt.decode_sign ⟨a.id, a.role, none, iat, iat + accessTtlSeconds⟩
    rw [← hsigned] at hdecode
    have hid : Http.IsRowId (srv.pkg.decode token).sub := by
      rw [hdecode]
      exact henrolls.rowIds hids a ha
    refine .inr ⟨a, ha, (handled_of_token hprot hbearer haccepted hid).trans ?_⟩
    rw [hdecode]
  · refine .inl (refused_of_token hprot fun token hbearer => ?_)
    exact Option.isSome_iff_ne_none.mpr fun hnone => haccepted ⟨token, hbearer, hnone⟩

/-- What a login or a refresh has issued serves its account, until the time the
response says and not longer. -/
theorem token_serves (hjwt : srv.pkg.HonestJwt) (hids : ∀ a ∈ start.accounts, Http.IsRowId a.id)
    {t : Task ApiRequest Call Call.Reply Response Unit}
    (ht : t ∈ ((apiSystem srv fmt start).state ((apiSystem srv fmt start).log es)).tasks)
    {route : AuthRoute} (hrequest : t.request = .server (.auth route)) {r : Response}
    (hfinished : t.prog.point = .finished r) {token : String} (htoken : r.accessToken? = some token) :
    ∃ a ∈ ((apiSystem srv fmt start).state ((apiSystem srv fmt start).log es)).world.accounts,
      route.Names srv.pkg a ∧ ∃ expiresAt, r.field? "expiresAt" = some (.instant expiresAt) ∧
        ∀ request : Http.Request, request.Protected →
          Http.bearerToken (request.headers.get "authorization") = some token → ∀ now later,
            (now < expiresAt → Http.outcome srv.pkg corsAllowedOrigin now later request =
              .handled (.ok ⟨a.id, a.role⟩)) ∧
            (expiresAt ≤ now → ∃ response,
              Http.outcome srv.pkg corsAllowedOrigin now later request = .answered response ∧
                response.status = 401) := by
  obtain ⟨a, ha, hnames, iat, hsigned, hexpires⟩ := ((issuing_run srv fmt start es).tasks t ht).here
    trivial route r token hrequest hfinished htoken
  have hdecode := hjwt.decode_sign ⟨a.id, a.role, none, iat, iat + accessTtlSeconds⟩
  rw [← hsigned] at hdecode
  refine ⟨a, ha, hnames, _, hexpires, fun request hprot hbearer now later => ?_⟩
  refine ⟨fun hnow => ?_, fun hnow => ?_⟩
  · have haccepted := hjwt.accepts ⟨a.id, a.role, none, iat, iat + accessTtlSeconds⟩ now
      (Int.ediv_lt_of_lt_mul (by decide) hnow)
    rw [← hsigned] at haccepted
    have hid : Http.IsRowId (srv.pkg.decode token).sub := by
      rw [hdecode]
      exact (enrolls_run srv fmt start es).rowIds hids a ha
    refine (handled_of_token hprot hbearer haccepted hid).trans ?_
    rw [hdecode]
  · refine refused_of_token hprot fun token' hbearer' => ?_
    obtain rfl : token = token' := Option.some.inj (hbearer.symm.trans hbearer')
    have hrefused := hjwt.expires ⟨a.id, a.role, none, iat, iat + accessTtlSeconds⟩ now
      (Int.le_ediv_of_mul_le (by decide) hnow)
    rwa [← hsigned] at hrefused

end

/-- The claims as they stand in a token. -/
private def payload (claims : Claims) : Json :=
  .obj [("sub", .str claims.sub), ("role", .str claims.role.name),
    ("ver", claims.ver.elim .null fun ver => .num ver), ("iat", .num claims.iat),
    ("exp", .num claims.exp)]

private def claimsOf : Json → Option Claims
  | .obj [(_, .str sub), (_, .str role), (_, ver), (_, .num iat), (_, .num exp)] =>
    (Http.isRole role).map fun role =>
      ⟨sub, role, match ver with | .num ver => some ver.num | _ => none, iat.num, exp.num⟩
  | _ => none

private theorem claimsOf_payload (claims : Claims) : claimsOf (payload claims) = some claims := by
  obtain ⟨sub, role, ver, iat, exp⟩ := claims
  cases ver <;> simp [claimsOf, payload, Http.isRole_name]

private theorem payload_sound (claims : Claims) : (payload claims).Sound wholeNumbers := by
  obtain ⟨sub, role, ver, iat, exp⟩ := claims
  cases ver <;> simp [payload, Json.Sound, Json.SoundFields, wholeNumbers]

private def textJwt : Packages where
  sign _ claims := stringify wholeNumbers (payload claims)
  decode token := ((parseJson wholeNumbers token).bind claimsOf).getD ⟨"", .viewer, none, 0, 0⟩
  reject _ now token :=
    match (parseJson wholeNumbers token).bind claimsOf with
    | none => some "Invalid Compact JWS"
    | some claims =>
      if claims.exp ≤ now / 1000 then some "\"exp\" claim timestamp check failed" else none
  comparePassword password passwordHash := password == passwordHash
  isEmail _ := true

private theorem jwt_honest : textJwt.HonestJwt := by
  have hread (claims : Claims) :
      (parseJson wholeNumbers (stringify wholeNumbers (payload claims))).bind claimsOf =
        some claims := by
    rw [stringify, parseJson_write (payload_sound claims), Option.bind_some, claimsOf_payload]
  refine ⟨fun claims => ?_, fun claims now hnow => ?_, fun claims now hnow => ?_⟩
  · simp only [textJwt, hread, Option.getD_some]
  · simp only [textJwt, hread, if_neg (Int.not_le.mpr hnow)]
  · simp only [textJwt, hread, if_pos hnow, Option.isSome_some]

private def gatehouse : Server := { bareServer with pkg := textJwt }

private def roster : Db where
  users := [⟨"7d2f", "olga@rvep.dev", "correct horse", .operator, 0, none, 0⟩]
  vehicles := []
  permissions := []
  sessions := []
  leases := []
  events := []

private def olgasLogin : AuthRoute :=
  .login (some (.obj [("email", .str "olga@rvep.dev"), ("password", .str "correct horse")]))

private def olgaSignsIn : List ApiEvent :=
  List.replicate 6 (.step 0 ⟨1000000, false⟩) ++ [.spawn (.server (.auth olgasLogin))]

private def olgasToken : String := textJwt.sign .access ⟨"7d2f", .operator, none, 1000, 4600⟩

private def olgasCookie : Cookie :=
  refreshCookie (textJwt.sign .refresh ⟨"7d2f", .operator, some 1, 1000, 1210600⟩)

private def olgasAnswer : Response :=
  { ok [("accessToken", .text olgasToken), ("expiresAt", .instant 4600000),
      ("role", .text "OPERATOR")] with
    refreshCookie := some olgasCookie }

private def olgasRequest : Http.Request where
  method := "GET"
  pathname := "/api/v1/vehicles"
  headers := [("X-User-Role", "ADMIN"), ("Authorization", "Bearer " ++ olgasToken)]

private theorem olga_answered :
    ((apiSystem gatehouse wholeNumbers roster).state
      ((apiSystem gatehouse wholeNumbers roster).log olgaSignsIn)).tasks[0]?.map
        (fun t => (t.request, t.prog.point)) =
      some (.server (.auth olgasLogin), .finished olgasAnswer) :=
  rfl

theorem bearerToken_bearer (token : String) :
    Http.bearerToken (some ("Bearer " ++ token)) = some token := by
  have hlist : ("Bearer " ++ token).toList = "Bearer ".toList ++ token.toList := String.toList_append
  have hprefix := List.isPrefixOf_iff_prefix.mpr (List.prefix_append "Bearer ".toList token.toList)
  have hrest : ("Bearer ".toList ++ token.toList).drop 7 = token.toList := rfl
  rw [Http.bearerToken, Option.bind_some, Http.startsWith, hlist, if_pos hprefix, hrest,
    String.ofList_toList]

private theorem olga_bearer :
    Http.bearerToken (olgasRequest.headers.get "authorization") = some olgasToken := by
  exact bearerToken_bearer olgasToken

private theorem roster_rowIds : ∀ a ∈ roster.accounts, Http.IsRowId a.id := by
  intro a ha
  obtain rfl := List.mem_singleton.mp ha
  have hall : ("7d2f".toList.all fun c => c.isAlphanum || c == '-') = true := by decide
  exact ⟨by decide, fun c hc => by simpa using List.all_eq_true.mp hall c hc⟩

private theorem olgasRequest_protected : olgasRequest.Protected :=
  ⟨by decide, by decide, by decide, by decide⟩

/-- Olga sends another role along with her token. -/
theorem callers_are_accounts_olga :
    (∃ response, Http.outcome textJwt "http://localhost:3011" 2000000 2000000 olgasRequest =
        .answered response ∧ response.status = 401) ∨
      Http.outcome textJwt "http://localhost:3011" 2000000 2000000 olgasRequest =
        .handled (.ok ⟨"7d2f", .operator⟩) := by
  obtain ⟨t, ht, hpoint⟩ := Option.map_eq_some_iff.mp olga_answered
  obtain ⟨hrequest, hfinished⟩ := Prod.mk.inj hpoint
  have hissued : IssuedIn ((apiSystem gatehouse wholeNumbers roster).state
      ((apiSystem gatehouse wholeNumbers roster).log olgaSignsIn)) olgasToken :=
    ⟨t, List.mem_of_getElem? ht, olgasLogin, olgasAnswer, hrequest, hfinished, rfl⟩
  refine (callers_are_accounts gatehouse wholeNumbers roster olgaSignsIn "http://localhost:3011"
    jwt_honest roster_rowIds olgasRequest_protected 2000000 ?_).imp_right ?_
  · intro token hbearer _
    exact .inl (Option.some.inj (olga_bearer.symm.trans hbearer) ▸ hissued)
  · rintro ⟨a, ha, houtcome⟩
    obtain rfl := List.mem_singleton.mp (show a ∈ [_] from ha)
    exact houtcome

theorem token_serves_olga :
    Http.outcome textJwt "http://localhost:3011" 4599999 4599999 olgasRequest =
        .handled (.ok ⟨"7d2f", .operator⟩) ∧
      ∃ response, Http.outcome textJwt "http://localhost:3011" 4600000 4600000 olgasRequest =
        .answered response ∧ response.status = 401 := by
  obtain ⟨t, ht, hpoint⟩ := Option.map_eq_some_iff.mp olga_answered
  obtain ⟨hrequest, hfinished⟩ := Prod.mk.inj hpoint
  obtain ⟨a, ha, -, expiresAt, hexpires, hserves⟩ := token_serves gatehouse wholeNumbers roster
    olgaSignsIn "http://localhost:3011" jwt_honest roster_rowIds (List.mem_of_getElem? ht) hrequest
    hfinished rfl
  have hexpiresAt : 4600000 = expiresAt := Field.instant.inj (Option.some.inj hexpires)
  obtain rfl := List.mem_singleton.mp (show a ∈ [_] from ha)
  subst hexpiresAt
  exact ⟨(hserves olgasRequest olgasRequest_protected olga_bearer _ _).1 (by decide),
    (hserves olgasRequest olgasRequest_protected olga_bearer _ _).2 (by decide)⟩

end Rvep.Backend
