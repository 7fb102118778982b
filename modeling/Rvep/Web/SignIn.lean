import Rvep.Lib.Reactive

/-!
# Signing in and out

The module-level token of `apps/web/src/lib/api-client.ts` and the calls that
write it. `login`, `logout` and `refresh` wait for the network, and what they do
when they go on takes no notice of what the others have done meanwhile.
-/

namespace Rvep.Web

open Reactive

-- ---------------------------------------------------------------------------
-- The token
-- ---------------------------------------------------------------------------

def REFRESH_MARGIN_MS : Int := 5 * 60 * 1000

/-- A token response; the expiry is `none` where the text is no date (NaN). -/
structure Grant where
  accessToken : String
  expiresAt : Option Int
  deriving DecidableEq, Repr

/-- Who called `request`. -/
inductive Caller
  | login
  | logout
  | other
  deriving DecidableEq, Repr

/-- What a call awaits. A refresh was started by the timer or by a request that
was answered 401. -/
inductive Await
  | fetch (caller : Caller) (retried : Bool)
  | json (caller : Caller) (ok : Bool)
  | refreshFetch (caller : Option Caller)
  | refreshJson (caller : Option Caller)
  | settled (caller : Option Caller)
  deriving DecidableEq, Repr

/-- The module's variables, the timers that are set, and the calls in the order
they were made. -/
structure ApiClient where
  accessToken : Option String
  accessExpiresAt : Option Int
  refreshTimer : Option Nat
  timers : List Nat
  timeouts : Nat
  calls : List Await
  deriving DecidableEq, Repr

def ApiClient.load : ApiClient where
  accessToken := none
  accessExpiresAt := some 0
  refreshTimer := none
  timers := []
  timeouts := 0
  calls := []

inductive AuthEffect
  | notify
  | post (path : String)
  | request (caller : Caller) (bearer : Option String)
  | refreshIn (timer : Nat) (delay : Int)
  deriving DecidableEq, Repr

/-- What `res.json()` comes to: a failure to parse, a body without `data`, or one with. -/
inductive Body
  | malformed
  | empty
  | data (grant : Grant)
  deriving DecidableEq, Repr

namespace ApiClient

def getAccessToken (c : ApiClient) : Option String := c.accessToken

def isAuthenticated (now : Int) (c : ApiClient) : Bool :=
  c.accessToken.isSome && c.accessExpiresAt.any fun t => decide (now < t)

def clearTimeout (c : ApiClient) : List Nat := c.timers.filter fun t => c.refreshTimer ≠ some t

def scheduleRefresh (now : Int) (expiresAt : Option Int) (c : ApiClient) :
    ApiClient × List AuthEffect :=
  let fireIn := expiresAt.elim 0 fun expMs => max 0 (expMs - now - REFRESH_MARGIN_MS)
  ({ c with
      timers := c.timeouts :: c.clearTimeout, refreshTimer := some c.timeouts
      timeouts := c.timeouts + 1 },
    [.refreshIn c.timeouts fireIn])

def cancelRefresh (c : ApiClient) : ApiClient :=
  { c with timers := c.clearTimeout, refreshTimer := none }

def setAccess (now : Int) (grant : Grant) (c : ApiClient) : ApiClient × List AuthEffect :=
  let (c, scheduled) := scheduleRefresh now grant.expiresAt
    { c with accessToken := some grant.accessToken, accessExpiresAt := grant.expiresAt }
  (c, scheduled ++ [.notify])

def clearAccess (c : ApiClient) : ApiClient × List AuthEffect :=
  (cancelRefresh { c with accessToken := none, accessExpiresAt := some 0 }, [.notify])

-- ---------------------------------------------------------------------------
-- Calls
-- ---------------------------------------------------------------------------

def goesOn (i : Nat) (await : Await) (c : ApiClient) : ApiClient :=
  { c with calls := c.calls.set i await }

/-- `request` sends its fetch. -/
def sendRequest (i : Nat) (caller : Caller) (retried : Bool) (c : ApiClient) :
    ApiClient × List AuthEffect :=
  (c.goesOn i (.fetch caller retried), [.request caller c.accessToken])

def sendRefresh (i : Nat) (caller : Option Caller) (c : ApiClient) : ApiClient × List AuthEffect :=
  (c.goesOn i (.refreshFetch caller), [.post "/api/v1/auth/refresh"])

/-- `request` has returned the data of `ok`, or has thrown. -/
def finish (now : Int) (i : Nat) (caller : Caller) (ok : Option Grant) (c : ApiClient) :
    ApiClient × List AuthEffect :=
  let c := c.goesOn i (.settled (some caller))
  match caller, ok with
  | .login, some grant => setAccess now grant c
  | .login, none => (c, [])
  | .logout, _ => clearAccess c
  | .other, _ => (c, [])

/-- `refresh` has returned false: a request goes on with the 401 it was answered. -/
def refreshFailed (i : Nat) (caller : Option Caller) (c : ApiClient) : ApiClient :=
  match caller with
  | none => c.goesOn i (.settled none)
  | some caller => c.goesOn i (.json caller false)

/-- `res.ok` -/
def isOk (status : Nat) : Bool := decide (200 ≤ status) && decide (status ≤ 299)

/-- A fetch settles with a status, or is rejected. -/
def onFetched (now : Int) (i : Nat) (status : Option Nat) (c : ApiClient) :
    ApiClient × List AuthEffect :=
  match c.calls[i]?, status with
  | some (.fetch caller _), none => finish now i caller none c
  | some (.fetch caller retried), some status =>
    if status = 401 && !retried then sendRefresh i (some caller) c
    else (c.goesOn i (.json caller (isOk status)), [])
  | some (.refreshFetch caller), none => (refreshFailed i caller c, [])
  | some (.refreshFetch caller), some status =>
    if isOk status then (c.goesOn i (.refreshJson caller), []) else (refreshFailed i caller c, [])
  | _, _ => (c, [])

/-- A response's body has been read. -/
def onJson (now : Int) (i : Nat) (body : Body) (c : ApiClient) : ApiClient × List AuthEffect :=
  match c.calls[i]?, body with
  | some (.json caller true), .data grant => finish now i caller (some grant) c
  | some (.json caller _), _ => finish now i caller none c
  | some (.refreshJson caller), .data grant =>
    let (c, out) := setAccess now grant c
    match caller with
    | none => (c.goesOn i (.settled none), out)
    | some caller =>
      let (c, sent) := sendRequest i caller true c
      (c, out ++ sent)
  | some (.refreshJson caller), _ => (refreshFailed i caller c, [])
  | _, _ => (c, [])

end ApiClient

inductive AuthEvent
  /-- `login`, `logout` or another function of the client is called. -/
  | call (caller : Caller)
  | timeout (timer : Nat)
  | fetched (call : Nat) (status : Option Nat)
  | json (call : Nat) (body : Body)
  deriving DecidableEq

structure StampedAuth where
  now : Int
  event : AuthEvent

def ApiClient.step (c : ApiClient) (e : StampedAuth) : ApiClient × List AuthEffect :=
  match e.event with
  | .call caller =>
    ({ c with calls := c.calls ++ [.fetch caller false] }, [.request caller c.accessToken])
  | .timeout timer =>
    if timer ∈ c.timers then
      ({ c with
          timers := c.timers.filter (· ≠ timer), calls := c.calls ++ [.refreshFetch none] },
        [.post "/api/v1/auth/refresh"])
    else (c, [])
  | .fetched i status => c.onFetched e.now i status
  | .json i body => c.onJson e.now i body

def apiClient : System ApiClient StampedAuth (List AuthEffect) where
  init := .load
  step := ApiClient.step

-- ---------------------------------------------------------------------------
-- Signed out
-- ---------------------------------------------------------------------------

abbrev AuthEntry := Entry ApiClient StampedAuth (List AuthEffect)
abbrev AuthLog := Log ApiClient StampedAuth (List AuthEffect)

def Await.loggedOut : Await := .settled (some .logout)

/-- A call of `logout` settles. -/
def LogsOut (x : AuthEntry) : Prop :=
  ∃ i : Nat, x.before.calls[i]? ≠ some .loggedOut ∧ x.after.calls[i]? = some .loggedOut

/-- A call of `login` that was made after the first `n` calls succeeds. -/
def LogsIn (n : Nat) (x : AuthEntry) : Prop :=
  ∃ i grant, n ≤ i ∧ x.event.event = .json i (.data grant) ∧
    x.before.calls[i]? = some (.json .login true)

/-- A refresh succeeds. -/
def Refreshes (x : AuthEntry) : Prop :=
  ∃ i caller grant, x.event.event = .json i (.data grant) ∧
    x.before.calls[i]? = some (.refreshJson caller)

/-- A logout has settled when `n` calls had been made, and no later login has succeeded. -/
def SignedOut (n : Nat) : AuthLog → Prop :=
  Since (fun y _ => ¬ LogsIn n y) fun y _ => LogsOut y ∧ y.after.calls.length = n

def StaysSignedOut (x : AuthEntry) (past : AuthLog) : Prop :=
  ∀ n, SignedOut n (x :: past) →
    x.after.getAccessToken = none ∧ ∀ now, x.after.isAuthenticated now = false

/-- While signed out, neither a refresh succeeds nor a login that was called before. -/
def NothingLate (x : AuthEntry) (past : AuthLog) : Prop :=
  ∀ n, SignedOut n past → ¬ Refreshes x ∧ (LogsIn 0 x → LogsIn n x)

-- ---------------------------------------------------------------------------
-- What a step does to the token
-- ---------------------------------------------------------------------------

section
variable {c : ApiClient} {e : StampedAuth} {x : AuthEntry} {i : Nat}

/-- A token arrives, by a refresh or by a login. -/
def Grants (x : AuthEntry) : Prop := Refreshes x ∨ LogsIn 0 x

theorem not_logsOut_of_same (h : x.after.calls = x.before.calls) : ¬ LogsOut x := by
  rintro ⟨j, hbefore, hafter⟩
  exact hbefore (h ▸ hafter)

theorem not_logsOut_of_append {a : Await} (h : x.after.calls = x.before.calls ++ [a])
    (ha : a ≠ .loggedOut) : ¬ LogsOut x := by
  rintro ⟨j, hbefore, hafter⟩
  rw [h, List.getElem?_append] at hafter
  split at hafter
  next => exact hbefore hafter
  next => exact ha (List.mem_singleton.mp (List.mem_of_getElem? hafter)).symm

theorem not_logsOut_of_set {a : Await} (h : x.after.calls = x.before.calls.set i a)
    (ha : a ≠ .loggedOut) : ¬ LogsOut x := by
  rintro ⟨j, hbefore, hafter⟩
  rw [h, List.getElem?_set] at hafter
  split at hafter
  next =>
    split at hafter
    next => exact ha (Option.some.inj hafter)
    next => cases hafter
  next => exact hbefore hafter

/-- How a step treats the token. -/
inductive Treats (x : AuthEntry) : Prop
  | grants (h : Grants x) (token : x.after.accessToken ≠ none) (stays : ¬ LogsOut x)
  | clears (h : ¬ Grants x) (token : x.after.accessToken = none)
  | keeps (h : ¬ Grants x) (token : x.after.accessToken = x.before.accessToken)
      (stays : ¬ LogsOut x)

theorem not_grants (h : ∀ j grant, x.event.event ≠ .json j (.data grant)) : ¬ Grants x := by
  rintro (⟨j, caller, grant, he, -⟩ | ⟨j, grant, -, he, -⟩)
  · exact h j grant he
  · exact h j grant he

/-- A body that is read grants a token to a refresh or to a login, and only if
it has data. -/
theorem not_grants_json {body : Body} (he : x.event.event = .json i body)
    (h : ∀ grant, body = .data grant →
      (∀ caller, x.before.calls[i]? ≠ some (.refreshJson caller)) ∧
        x.before.calls[i]? ≠ some (.json .login true)) : ¬ Grants x := by
  rintro (⟨j, caller, grant, hj, hcall⟩ | ⟨j, grant, -, hj, hcall⟩)
  · cases he.symm.trans hj
    exact (h grant rfl).1 caller hcall
  · cases he.symm.trans hj
    exact (h grant rfl).2 hcall

theorem Treats.goesOn {a : Await} (h : ¬ Grants x) (ha : a ≠ .loggedOut)
    (hafter : x.after = x.before.goesOn i a) : Treats x := by
  refine .keeps h ?_ (not_logsOut_of_set (i := i) (a := a) ?_ ha)
  · rw [hafter]
    rfl
  · rw [hafter]
    rfl

theorem Treats.refreshFailed {caller : Option Caller} (h : ¬ Grants x)
    (hafter : x.after = x.before.refreshFailed i caller) : Treats x := by
  cases caller with
  | none => exact Treats.goesOn h (by decide) hafter
  | some caller => exact Treats.goesOn h (fun hl => by cases hl) hafter

/-- A call that is over without a token clears it if it was a logout. -/
theorem Treats.finish {now : Int} {caller : Caller} {ok : Option Grant} (h : ¬ Grants x)
    (hok : caller = .login → ok = none)
    (hafter : x.after = (x.before.finish now i caller ok).1) : Treats x := by
  cases caller with
  | login =>
    cases hok rfl
    exact Treats.goesOn h (by decide) hafter
  | logout =>
    refine .clears h ?_
    rw [hafter]
    rfl
  | other => exact Treats.goesOn h (by decide) hafter

theorem setAccess_accessToken (now : Int) (grant : Grant) (c : ApiClient) :
    (c.setAccess now grant).1.accessToken = some grant.accessToken := rfl

theorem onFetched_treats (c : ApiClient) {e : StampedAuth} {status : Option Nat}
    (he : e.event = .fetched i status) : Treats (apiClient.react c e) := by
  have hgrants : ¬ Grants (apiClient.react c e) :=
    not_grants fun j grant hj => by cases he.symm.trans hj
  have hafter : (apiClient.react c e).after = (c.onFetched e.now i status).1 := by
    simp [apiClient, ApiClient.step, he]
  unfold ApiClient.onFetched at hafter
  split at hafter
  next => exact Treats.finish hgrants (fun _ => rfl) hafter
  next =>
    split at hafter
    next => exact Treats.goesOn hgrants (by simp [Await.loggedOut]) hafter
    next => exact Treats.goesOn hgrants (by simp [Await.loggedOut]) hafter
  next => exact Treats.refreshFailed hgrants hafter
  next =>
    split at hafter
    next => exact Treats.goesOn hgrants (by simp [Await.loggedOut]) hafter
    next => exact Treats.refreshFailed hgrants hafter
  next => exact .keeps hgrants (by rw [hafter]; rfl) (not_logsOut_of_same (by rw [hafter]; rfl))

theorem onJson_treats (c : ApiClient) {e : StampedAuth} {body : Body}
    (he : e.event = .json i body) : Treats (apiClient.react c e) := by
  have hafter : (apiClient.react c e).after = (c.onJson e.now i body).1 := by
    simp [apiClient, ApiClient.step, he]
  have quiet := not_grants_json (x := apiClient.react c e) he
  unfold ApiClient.onJson at hafter
  split at hafter
  next caller grant hcall =>
    by_cases hl : caller = .login
    · subst hl
      have hgrant : LogsIn 0 (apiClient.react c e) := ⟨i, grant, Nat.zero_le i, he, hcall⟩
      refine .grants (.inr hgrant) (by rw [hafter]; nofun) ?_
      exact not_logsOut_of_set (i := i) (a := .settled (some .login)) (by rw [hafter]; rfl)
        (by decide)
    · refine Treats.finish (quiet fun _ _ => ⟨by simp [hcall], ?_⟩) (fun h => absurd h hl) hafter
      change c.calls[i]? ≠ _
      rw [hcall]
      exact fun h => hl (by cases h; rfl)
  next caller ok hcall hnot =>
    refine Treats.finish (quiet fun grant hb => ⟨by simp [hcall], ?_⟩) (fun _ => rfl) hafter
    change c.calls[i]? ≠ _
    rw [hcall]
    exact fun h => hnot grant hb (by cases h; rfl)
  next caller grant hcall =>
    have hgrant : Refreshes (apiClient.react c e) := ⟨i, caller, grant, he, hcall⟩
    cases caller with
    | none =>
      refine .grants (.inl hgrant) (by rw [hafter]; nofun) ?_
      exact not_logsOut_of_set (i := i) (a := .settled none) (by rw [hafter]; rfl) (by decide)
    | some caller =>
      refine .grants (.inl hgrant) (by rw [hafter]; nofun) ?_
      exact not_logsOut_of_set (i := i) (a := .fetch caller true) (by rw [hafter]; rfl)
        (by simp [Await.loggedOut])
  next caller hcall hnot =>
    exact Treats.refreshFailed (quiet fun grant hb => absurd hb (hnot grant)) hafter
  next hjson hrefresh _ _ =>
    refine .keeps (quiet fun grant _ => ⟨hrefresh, hjson .login true⟩) (by rw [hafter]; rfl)
      (not_logsOut_of_same (by rw [hafter]; rfl))

variable (c e) in
theorem step_treats : Treats (apiClient.react c e) := by
  cases he : e.event with
  | call caller =>
    have hafter : (apiClient.react c e).after =
        { c with calls := c.calls ++ [.fetch caller false] } := by
      simp [apiClient, ApiClient.step, he]
    refine .keeps (not_grants fun j grant hj => by cases he.symm.trans hj) (by rw [hafter]; rfl) ?_
    exact not_logsOut_of_append (a := .fetch caller false) (by rw [hafter]; rfl)
      (by simp [Await.loggedOut])
  | timeout timer =>
    have hgrants : ¬ Grants (apiClient.react c e) :=
      not_grants fun j grant hj => by cases he.symm.trans hj
    by_cases ht : timer ∈ c.timers
    · have hafter : (apiClient.react c e).after =
          { c with
            timers := c.timers.filter (· ≠ timer), calls := c.calls ++ [.refreshFetch none] } := by
        simp [apiClient, ApiClient.step, he, ht]
      refine .keeps hgrants (by rw [hafter]; rfl) ?_
      exact not_logsOut_of_append (a := .refreshFetch none) (by rw [hafter]; rfl) (by decide)
    · have hafter : (apiClient.react c e).after = c := by
        simp [apiClient, ApiClient.step, he, ht]
      exact .keeps hgrants (by rw [hafter]; rfl) (not_logsOut_of_same (by rw [hafter]; rfl))
  | fetched i status => exact onFetched_treats c he
  | json i body => exact onJson_treats c he

end

-- ---------------------------------------------------------------------------
-- Over runs
-- ---------------------------------------------------------------------------

theorem isAuthenticated_of_none {c : ApiClient} (h : c.accessToken = none) (now : Int) :
    c.isAuthenticated now = false := by
  simp [ApiClient.isAuthenticated, h]

theorem not_refreshes_of_logsIn {x : AuthEntry} {n : Nat} (h : LogsIn n x) : ¬ Refreshes x := by
  obtain ⟨i, grant, -, he, hcall⟩ := h
  rintro ⟨j, caller, grant', he', hcall'⟩
  cases he.symm.trans he'
  cases hcall.symm.trans hcall'

section
variable {x : AuthEntry} {past : AuthLog}

theorem Treats.nothingLate (htreats : Treats x) (h : StaysSignedOut x past) : NothingLate x past := by
  intro n hout
  have later (hgrants : Grants x) : LogsIn n x := by
    refine Classical.byContradiction fun hlogin => ?_
    have hnone : x.after.accessToken = none := (h n (.inr ⟨hlogin, hout⟩)).1
    cases htreats with
    | grants _ token => exact token hnone
    | clears hno | keeps hno => exact hno hgrants
  exact ⟨fun hr => not_refreshes_of_logsIn (later (.inl hr)) hr, fun hl => later (.inr hl)⟩

theorem Treats.staysSignedOut (htreats : Treats x)
    (hpast : ∀ n, SignedOut n past → x.before.accessToken = none) (h : NothingLate x past) :
    StaysSignedOut x past := by
  intro n hout
  suffices hnone : x.after.accessToken = none from ⟨hnone, isAuthenticated_of_none hnone⟩
  cases htreats with
  | clears _ token => exact token
  | grants hgrants _ stays =>
    rcases hout with ⟨hlogout, -⟩ | ⟨hlogin, hout⟩
    · exact absurd hlogout stays
    · rcases hgrants with hr | hl
      · exact absurd hr (h n hout).1
      · exact absurd ((h n hout).2 hl) hlogin
  | keeps _ token stays =>
    rcases hout with ⟨hlogout, -⟩ | ⟨-, hout⟩
    · exact absurd hlogout stays
    · exact token.trans (hpast n hout)

end

/-- A logout is final in exactly those runs in which, after it and until a
later login succeeds, no refresh succeeds and no login that was called before. -/
theorem logout_final_iff (es : List StampedAuth) :
    Always StaysSignedOut (apiClient.log es) ↔ Always NothingLate (apiClient.log es) := by
  refine System.always_iff
    (fun l => ∀ n, SignedOut n l → (apiClient.state l).accessToken = none) nofun
    (fun past e hpast => ?_) es
  have htreats := step_treats (apiClient.state past) e
  exact ⟨⟨htreats.nothingLate, htreats.staysSignedOut hpast⟩, fun hp n hout => (hp n hout).1⟩

private def at9h (event : AuthEvent) : StampedAuth := ⟨1779008400000, event⟩

private def freshGrant (token : String) : Grant := ⟨token, some 1779009300000⟩

/-- The timer fires, the operator logs out, and the refresh comes back. Newest
first. -/
def refreshOvertaken : List StampedAuth :=
  [ at9h (.json 1 (.data (freshGrant "refreshed"))),
    at9h (.json 2 .empty),
    at9h (.fetched 2 (some 200)),
    at9h (.fetched 1 (some 200)),
    at9h (.call .logout),
    at9h (.timeout 0),
    at9h (.json 0 (.data (freshGrant "first"))),
    at9h (.fetched 0 (some 200)),
    at9h (.call .login) ]

theorem refresh_signs_in_again : ¬ Always StaysSignedOut (apiClient.log refreshOvertaken) := by
  intro h
  have hout : SignedOut 3 (apiClient.log refreshOvertaken) := by
    refine .inr ⟨?_, .inl ⟨⟨2, by decide, by decide⟩, by decide⟩⟩
    rintro ⟨i, grant, hi, he, -⟩
    cases he
    exact absurd hi (by decide)
  exact absurd (h.1 3 hout).1 (by decide)

end Rvep.Web
