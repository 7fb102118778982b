import Rvep.Lib.Reactive
import Rvep.Backend.TokenVersions

/-!
# The web client's requests

`request` and `refresh` of `apps/web/src/lib/api-client.ts`, for a client whose
access token has expired and whose refresh cookie is valid. A request that is
answered 401 starts a refresh of its own, with the cookie the browser has then,
and the server takes each cookie once.
-/

namespace Rvep.Web

open Reactive

-- ---------------------------------------------------------------------------
-- The client and the server
-- ---------------------------------------------------------------------------

inductive Bearer
  | expired
  | minted (version : Int)
  deriving DecidableEq, Repr

def Bearer.accepted : Bearer → Bool
  | .expired => false
  | .minted _ => true

/-- Where a call of `request` stands: which fetch is on its way to the server,
or which response is on its way back. -/
inductive Phase
  | requesting (bearer : Bearer) (retried : Bool)
  | responding (bearer : Bearer) (retried : Bool) (ok : Bool)
  /-- `refresh` has sent the cookie that was stored then. -/
  | refreshing (cookie : Int)
  /-- A new cookie, or 401. -/
  | refreshed (reply : Option Int)
  /-- The response has arrived and `res.json()` has not. -/
  | parsing (version : Int)
  /-- `refresh` returns true. -/
  | renewed
  | resolved (bearer : Bearer)
  /-- An `ApiError` with status 401. -/
  | threw
  deriving DecidableEq, Repr

structure Session where
  /-- The user's `refreshTokenVersion` at the server. -/
  version : Int
  /-- The version in the cookie the browser has stored. -/
  cookie : Int
  accessToken : Bearer
  calls : List Phase
  deriving DecidableEq, Repr

/-- The refresh transaction: the new version, and that of the new cookie. -/
def redeem (version cookie : Int) : Int × Option Int :=
  if cookie = version then (version + 1, some (version + 1)) else (version, none)

theorem redeem_cases (version cookie : Int) :
    (cookie = version ∧ redeem version cookie = (version + 1, some (version + 1))) ∨
      (cookie ≠ version ∧ redeem version cookie = (version, none)) := by
  unfold redeem
  by_cases h : cookie = version
  · exact .inl ⟨h, if_pos h⟩
  · exact .inr ⟨h, if_neg h⟩

section
open Rvep.Backend Interleaving

variable {pkg : Packages} {db : Db} {user : User} (huser : db.user? user.id = some user)
  {token : String} (htoken : token ≠ "") (hsub : (pkg.decode token).sub = user.id)
  {choices : Nat → Choice} (hok : ∀ i, (choices i).fails = false)
  (hvalid : pkg.reject .refresh (choices 0).now token = none)
include huser htoken hsub hok hvalid

/-- The route `auth/refresh`, run alone, comes to its version check. -/
theorem refresh_checks : (refresh pkg (some token)).run Call.exec choices db =
    (if (pkg.decode token).version != user.refreshTokenVersion then
      refreshInvalid (some (pkg.decode token).sub) "version_mismatch"
    else do
      let updated ← Handler.query (.userUpdate user.id bump)
      refreshIssue pkg user updated).alone (fun n => choices (n + 2)) db := by
  have hgiven : (some token).filter (· != "") = some token := by simp [htoken]
  have hprog : refresh pkg (some token) =
      Handler.serve (verifyRefreshToken pkg token >>= refreshOutcome pkg) := by
    rw [refresh, hgiven]
  have hfound : (Query.userFindUnique (pkg.decode token).sub).answer (choices 1).now db =
      (db, .ok (some user)) := by
    rw [hsub]
    exact congrArg (fun r => (db, Except.ok r)) huser
  have hverified : verifyRefreshToken pkg token >>= refreshOutcome pkg = Handler.now >>= fun now =>
      refreshOutcome pkg ((pkg.reject .refresh now token).elim (.ok (pkg.decode token)) .error) := rfl
  rw [hprog, hverified, ← Handler.alone, alone_now_bind, hvalid]
  exact alone_query_ok _ (hok 1) hfound

theorem refresh_refused (hver : (pkg.decode token).version ≠ user.refreshTokenVersion) :
    let out := (refresh pkg (some token)).run Call.exec choices db
    out.1.version? user.id = some user.refreshTokenVersion ∧ out.2.status = 401 := by
  intro out
  have hout : out = _ := refresh_checks huser htoken hsub hok hvalid
  rw [if_pos (by simp [hver])] at hout
  -- the audit is the only call that is left to write
  obtain ⟨events, hevents⟩ := Call.exec_isQuiet (c := .query (.eventLogCreate
    { eventName := "refresh_token_invalid", vehicleId := none, sessionId := none,
      userId := some (pkg.decode token).sub
      payload := some [("reason", .text "version_mismatch")] })) rfl (choices 2) db
  have hdb : out.1 = { db with events := events } := (congrArg Prod.fst hout).trans hevents
  refine ⟨?_, congrArg (·.2.status) hout⟩
  have hversion : db.version? user.id = some user.refreshTokenVersion := by
    rw [Db.version?, huser, Option.map_some]
  rw [hdb]
  exact hversion

theorem refresh_taken (hjose : RoundTrips pkg)
    (hver : (pkg.decode token).version = user.refreshTokenVersion) :
    let out := (refresh pkg (some token)).run Call.exec choices db
    out.1.version? user.id = some (user.refreshTokenVersion + 1) ∧ out.2.status = 200 ∧
      ∃ cookie, out.2.refreshCookie = some cookie ∧
        (pkg.decode cookie.value).version = user.refreshTokenVersion + 1 := by
  intro out
  have hout : out = _ := refresh_checks huser htoken hsub hok hvalid
  let bumped : Db :=
    { db with users := db.users.map fun v => if v.id == user.id then v.update bump else v }
  have hupdate : (Query.userUpdate user.id bump).answer (choices 2).now db =
      (bumped, .ok (user.update bump)) := by
    simp only [Query.answer, huser, bumped]
  rw [if_neg (by simp [hver]), alone_query_ok _ (hok 2) hupdate] at hout
  obtain ⟨events, hevents⟩ := Call.exec_isQuiet (c := .query (.eventLogCreate
    { eventName := "token_refreshed", vehicleId := none, sessionId := none,
      userId := some user.id, payload := none })) rfl (choices 5) bumped
  have hdb : out.1 = { bumped with events := events } := (congrArg Prod.fst hout).trans hevents
  have hversion : bumped.version? user.id = some (user.refreshTokenVersion + 1) := by
    rw [version?_update, Db.version?, huser, Option.map_some, Option.map_some, if_pos rfl]
    rfl
  refine ⟨?_, ?_⟩
  · rw [hdb]
    exact hversion
  · rw [congrArg Prod.snd hout]
    refine ⟨rfl, _, rfl, ?_⟩
    exact congrArg Claims.version (hjose _ _)

/-- The route `auth/refresh`, run alone on a valid token of a user, redeems it. -/
theorem refresh_redeems (hjose : RoundTrips pkg) :
    let out := (refresh pkg (some token)).run Call.exec choices db
    let taken := redeem user.refreshTokenVersion (pkg.decode token).version
    out.1.version? user.id = some taken.1 ∧
      match taken.2 with
      | none => out.2.status = 401
      | some version => out.2.status = 200 ∧
          ∃ cookie, out.2.refreshCookie = some cookie ∧ (pkg.decode cookie.value).version = version := by
  intro out taken
  rcases redeem_cases user.refreshTokenVersion (pkg.decode token).version with ⟨hver, hr⟩ | ⟨hver, hr⟩
  · simp only [taken, hr]
    exact refresh_taken huser htoken hsub hok hvalid hjose hver
  · simp only [taken, hr]
    exact refresh_refused huser htoken hsub hok hvalid hver

end

/-- What happens next to a call. -/
def Session.advance (s : Session) : Phase → Session × Phase
  | .requesting bearer retried => (s, .responding bearer retried bearer.accepted)
  | .responding bearer _ true => (s, .resolved bearer)
  | .responding _ false false => (s, .refreshing s.cookie)
  | .responding _ true false => (s, .threw)
  | .refreshing cookie =>
    let (version, reply) := redeem s.version cookie
    ({ s with version := version }, .refreshed reply)
  | .refreshed (some version) => ({ s with cookie := version }, .parsing version)
  | .refreshed none => (s, .threw)
  | .parsing version => ({ s with accessToken := .minted version }, .renewed)
  | .renewed => (s, .requesting s.accessToken true)
  | .resolved bearer => (s, .resolved bearer)
  | .threw => (s, .threw)

inductive Move
  | request
  | proceed (call : Nat)
  deriving DecidableEq, Repr

def Session.step (s : Session) : Move → Session
  | .request => { s with calls := s.calls ++ [.requesting s.accessToken false] }
  | .proceed i =>
    match s.calls[i]? with
    | none => s
    | some c =>
      let (s', c') := s.advance c
      { s' with calls := s.calls.set i c' }

/-- The cookie is valid and the access token is not. -/
def client (version : Int) : System Session Move Unit where
  init := { version := version, cookie := version, accessToken := .expired, calls := [] }
  step s e := (s.step e, ())

abbrev ClientEntry := Entry Session Move Unit
abbrev ClientLog := Log Session Move Unit

-- ---------------------------------------------------------------------------
-- What a step does
-- ---------------------------------------------------------------------------

theorem Session.step_cases (s : Session) (e : Move) :
    (e = .request ∧ s.step e = { s with calls := s.calls ++ [.requesting s.accessToken false] }) ∨
      s.step e = s ∨
      ∃ i c, e = .proceed i ∧ s.calls[i]? = some c ∧
        s.step e = { (s.advance c).1 with calls := s.calls.set i (s.advance c).2 } := by
  cases e with
  | request => exact .inl ⟨rfl, rfl⟩
  | proceed i =>
    cases hget : s.calls[i]? with
    | none => exact .inr (.inl (by simp [Session.step, hget]))
    | some c => exact .inr (.inr ⟨i, c, rfl, hget, by simp [Session.step, hget]⟩)

-- ---------------------------------------------------------------------------
-- In every run
-- ---------------------------------------------------------------------------

def Phase.Fits (s : Session) : Phase → Prop
  | .requesting bearer retried => retried = true → bearer ≠ .expired
  | .responding bearer retried ok => ok = bearer.accepted ∧ (retried = true → bearer ≠ .expired)
  | .refreshing cookie => cookie ≤ s.version
  | .refreshed reply => ∀ version, reply = some version → version ≤ s.version
  | .renewed => s.accessToken ≠ .expired
  | .resolved bearer => bearer ≠ .expired
  | .parsing _ | .threw => True

structure Session.Sound (s : Session) : Prop where
  cookie : s.cookie ≤ s.version
  calls : ∀ c ∈ s.calls, c.Fits s

/-- The server moves on, and the client keeps what it has. -/
structure Session.Advances (s s' : Session) : Prop where
  version : s.version ≤ s'.version
  accessToken : s.accessToken ≠ .expired → s'.accessToken ≠ .expired

section
variable {s s' : Session} {c : Phase}

theorem Phase.Fits.mono (h : c.Fits s) (hs : s.Advances s') : c.Fits s' := by
  cases c with
  | refreshing cookie => exact le_trans h hs.version
  | refreshed reply => exact fun version hreply => le_trans (h version hreply) hs.version
  | renewed => exact hs.accessToken h
  | _ => exact h

theorem advance_advances (s : Session) (c : Phase) : s.Advances (s.advance c).1 := by
  cases c with
  | responding bearer retried ok => cases ok <;> cases retried <;> exact ⟨le_rfl, id⟩
  | refreshing cookie =>
    simp only [Session.advance]
    rcases redeem_cases s.version cookie with ⟨-, h⟩ | ⟨-, h⟩
    · rw [h]
      exact ⟨Int.le_add_one le_rfl, id⟩
    · rw [h]
      exact ⟨le_rfl, id⟩
  | refreshed reply => cases reply <;> exact ⟨le_rfl, id⟩
  | parsing version => exact ⟨le_rfl, fun _ h => by cases h⟩
  | _ => exact ⟨le_rfl, id⟩

theorem advance_fits (hs : s.cookie ≤ s.version) (hc : c.Fits s) :
    (s.advance c).1.cookie ≤ (s.advance c).1.version ∧ (s.advance c).2.Fits (s.advance c).1 := by
  cases c with
  | requesting bearer retried => exact ⟨hs, rfl, hc⟩
  | responding bearer retried ok =>
    obtain ⟨hok, hretried⟩ := hc
    cases ok with
    | true => exact ⟨hs, fun hb => by rw [hb] at hok; cases hok⟩
    | false => cases retried <;> exact ⟨hs, by first | exact hs | trivial⟩
  | refreshing cookie =>
    simp only [Session.advance]
    rcases redeem_cases s.version cookie with ⟨-, h⟩ | ⟨-, h⟩
    · rw [h]
      exact ⟨Int.le_add_one hs, fun version hv => (Option.some.inj hv).ge⟩
    · rw [h]
      exact ⟨hs, fun version hv => by cases hv⟩
  | refreshed reply =>
    cases reply with
    | none => exact ⟨hs, trivial⟩
    | some version => exact ⟨hc version rfl, trivial⟩
  | parsing version => exact ⟨hs, fun h => by cases h⟩
  | renewed => exact ⟨hs, fun _ => hc⟩
  | resolved bearer => exact ⟨hs, hc⟩
  | threw => exact ⟨hs, trivial⟩

theorem Session.Sound.step (h : s.Sound) (e : Move) : (s.step e).Sound := by
  rcases s.step_cases e with ⟨-, hstep⟩ | hstep | ⟨i, c, -, hget, hstep⟩
  · rw [hstep]
    refine ⟨h.cookie, fun c hc => ?_⟩
    rcases List.mem_append.mp hc with hc | hc
    · exact h.calls c hc
    · rw [List.mem_singleton.mp hc]
      exact fun hr => by cases hr
  · rwa [hstep]
  · rw [hstep]
    obtain ⟨hcookie, hfits⟩ := advance_fits h.cookie (h.calls c (List.mem_of_getElem? hget))
    obtain ⟨hversion, htoken⟩ := advance_advances s c
    refine ⟨hcookie, fun d hd => ?_⟩
    rcases List.mem_or_eq_of_mem_set hd with hd | rfl
    · exact (h.calls d hd).mono ⟨hversion, htoken⟩
    · exact hfits.mono ⟨le_rfl, id⟩

end

-- ---------------------------------------------------------------------------
-- One refresh at a time
-- ---------------------------------------------------------------------------

/-- The call's refresh has been sent, and its response has not arrived. -/
def Phase.awaitsRefresh : Phase → Bool
  | .refreshing _ | .refreshed _ => true
  | _ => false

def Phase.startsRefresh : Phase → Bool
  | .responding _ false false => true
  | _ => false

/-- A request's 401 arrives, and starts a refresh, while another refresh is under way. -/
def Session.overlaps (s : Session) : Move → Bool
  | .request => false
  | .proceed i => s.calls[i]?.any (·.startsRefresh) && s.calls.any (·.awaitsRefresh)

def Apart (x : ClientEntry) (_ : ClientLog) : Prop := x.before.overlaps x.event = false

instance (x : ClientEntry) (past : ClientLog) : Decidable (Apart x past) :=
  inferInstanceAs (Decidable (_ = false))

/-- The call is not refused. -/
def Phase.Served : Phase → Prop
  | .requesting bearer true | .responding bearer true _ | .resolved bearer => bearer ≠ .expired
  | .threw => False
  | _ => True

/-- What a call has sent or been answered is what the server has and the browser stores. -/
def Phase.Fresh (s : Session) : Phase → Prop
  | .refreshing cookie => cookie = s.version ∧ s.cookie = s.version
  | .refreshed reply => reply = some s.version ∧ s.cookie < s.version
  | .threw => False
  | _ => True

structure Session.Alone (s : Session) : Prop where
  single : ∀ (i j : Nat) (c d : Phase), s.calls[i]? = some c → s.calls[j]? = some d →
    c.awaitsRefresh = true → d.awaitsRefresh = true → i = j
  idle : (∀ c ∈ s.calls, c.awaitsRefresh = false) → s.cookie = s.version
  fresh : ∀ c ∈ s.calls, c.Fresh s

section
variable {s s' : Session} {c : Phase}

theorem startsRefresh_iff : c.startsRefresh = true ↔ ∃ bearer, c = .responding bearer false false := by
  cases c with
  | responding bearer retried ok => cases retried <;> cases ok <;> simp [Phase.startsRefresh]
  | _ => simp [Phase.startsRefresh]

/-- A call that awaits nothing is fresh wherever it is. -/
theorem Phase.Fresh.of_idle (h : c.Fresh s) (hc : c.awaitsRefresh = false) : c.Fresh s' := by
  cases c with
  | refreshing | refreshed => cases hc
  | _ => exact h

theorem served_of_alone (hs : s.Sound) (h : s.Alone) : ∀ c ∈ s.calls, c.Served := by
  intro c hc
  have hfits := hs.calls c hc
  have hfresh := h.fresh c hc
  cases c with
  | requesting bearer retried => cases retried <;> first | trivial | exact hfits rfl
  | responding bearer retried ok => cases retried <;> first | trivial | exact hfits.2 rfl
  | resolved bearer => exact hfits
  | threw => exact hfresh
  | _ => trivial

/-- A step of a call that awaits no refresh, and starts none, awaits none and is not refused. -/
theorem advance_idle (hfits : c.Fits s) (hfresh : c.Fresh s) (hc : c.awaitsRefresh = false)
    (hstarts : ∀ bearer, c ≠ .responding bearer false false) :
    (s.advance c).1.version = s.version ∧ (s.advance c).1.cookie = s.cookie ∧
      (s.advance c).2.awaitsRefresh = false ∧ (s.advance c).2.Fresh (s.advance c).1 := by
  cases c with
  | responding bearer retried ok =>
    obtain ⟨hok, hretried⟩ := hfits
    cases ok with
    | true => exact ⟨rfl, rfl, rfl, trivial⟩
    | false =>
      cases retried with
      | false => exact absurd rfl (hstarts bearer)
      | true =>
        have hexpired := hretried rfl
        cases bearer with
        | expired => exact absurd rfl hexpired
        | minted version => cases hok
  | refreshing | refreshed => cases hc
  | threw => exact hfresh.elim
  | _ => exact ⟨rfl, rfl, rfl, trivial⟩

theorem getElem?_set_cases {calls : List Phase} {i j : Nat} {c' d : Phase}
    (h : (calls.set i c')[j]? = some d) : (j = i ∧ d = c') ∨ (j ≠ i ∧ calls[j]? = some d) := by
  by_cases hij : i = j
  · subst hij
    have hlt : i < calls.length := by
      obtain ⟨hlt, -⟩ := List.getElem?_eq_some_iff.mp h
      rwa [List.length_set] at hlt
    rw [List.getElem?_set_self hlt] at h
    exact .inl ⟨rfl, (Option.some.inj h).symm⟩
  · rw [List.getElem?_set_ne hij] at h
    exact .inr ⟨Ne.symm hij, h⟩

/-- Where no other call awaits a refresh, the one that moves may. -/
theorem alone_of_others {i : Nat} {c' : Phase} {calls : List Phase}
    (hcalls : s'.calls = calls.set i c')
    (hothers : ∀ j d, j ≠ i → calls[j]? = some d → d.awaitsRefresh = false ∧ d.Fresh s')
    (hmoved : c' ∈ s'.calls) (hfresh : c'.Fresh s')
    (hidle : c'.awaitsRefresh = false → s'.cookie = s'.version) : s'.Alone := by
  have hone : ∀ (j : Nat) (d : Phase), s'.calls[j]? = some d → d.awaitsRefresh = true → j = i := by
    intro j d hd hawaits
    rw [hcalls] at hd
    rcases getElem?_set_cases hd with ⟨hj, -⟩ | ⟨hj, hd⟩
    · exact hj
    · rw [(hothers j d hj hd).1] at hawaits
      cases hawaits
  refine ⟨fun j k d e hd he hdawaits heawaits => ?_, fun hall => hidle (hall c' hmoved), fun d hd => ?_⟩
  · rw [hone j d hd hdawaits, hone k e he heawaits]
  · obtain ⟨j, hj⟩ := List.mem_iff_getElem?.mp hd
    rw [hcalls] at hj
    rcases getElem?_set_cases hj with ⟨-, rfl⟩ | ⟨hne, hj⟩
    · exact hfresh
    · exact (hothers j d hne hj).2

theorem Session.Alone.others (h : s.Alone) {i : Nat} (hget : s.calls[i]? = some c)
    (hc : c.awaitsRefresh = true) :
    ∀ j d, j ≠ i → s.calls[j]? = some d → d.awaitsRefresh = false ∧ d.Fresh s' := by
  intro j d hne hd
  have hidle : d.awaitsRefresh = false := by
    cases hawaits : d.awaitsRefresh with
    | false => rfl
    | true => exact absurd (h.single j i d c hd hget hawaits hc) hne
  exact ⟨hidle, (h.fresh d (List.mem_of_getElem? hd)).of_idle hidle⟩

/-- The refresh that is under way is taken, and its response is stored. -/
theorem alone_awaiting (h : s.Alone) {i : Nat} (hget : s.calls[i]? = some c)
    (hc : c.awaitsRefresh = true) :
    Session.Alone { (s.advance c).1 with calls := s.calls.set i (s.advance c).2 } := by
  have hlt : i < s.calls.length := (List.getElem?_eq_some_iff.mp hget).1
  have hfresh := h.fresh c (List.mem_of_getElem? hget)
  refine alone_of_others rfl (h.others hget hc)
    (List.mem_of_getElem? (List.getElem?_set_self hlt)) ?_ ?_
  · cases c with
    | refreshing cookie =>
      obtain ⟨rfl, hcookie⟩ := hfresh
      simp only [Session.advance, redeem, if_true]
      exact ⟨rfl, Int.lt_add_one_of_le hcookie.le⟩
    | refreshed reply =>
      obtain ⟨rfl, -⟩ := hfresh
      trivial
    | _ => cases hc
  · intro hidle
    cases c with
    | refreshing cookie => cases hidle
    | refreshed reply =>
      obtain ⟨rfl, -⟩ := hfresh
      rfl
    | _ => cases hc

theorem alone_request (h : s.Alone) (bearer : Bearer) :
    Session.Alone { s with calls := s.calls ++ [.requesting bearer false] } := by
  have hold : ∀ (j : Nat) (d : Phase), (s.calls ++ [.requesting bearer false])[j]? = some d →
      d.awaitsRefresh = true → s.calls[j]? = some d := by
    intro j d hd hawaits
    rw [List.getElem?_append] at hd
    split at hd
    · exact hd
    · rw [List.getElem?_singleton] at hd
      split at hd
      · rw [← Option.some.inj hd] at hawaits
        cases hawaits
      · cases hd
  refine ⟨fun j k d e hd he hdawaits heawaits => ?_, fun hall => h.idle fun c hc => ?_, fun c hc => ?_⟩
  · exact h.single j k d e (hold j d hd hdawaits) (hold k e he heawaits) hdawaits heawaits
  · exact hall c (List.mem_append_left _ hc)
  · rcases List.mem_append.mp hc with hc | hc
    · have hfresh := h.fresh c hc
      cases c <;> exact hfresh
    · rw [List.mem_singleton.mp hc]
      trivial

/-- A refresh that starts while no other is under way carries the server's version. -/
theorem alone_starting (h : s.Alone) {i : Nat} {bearer : Bearer}
    (hget : s.calls[i]? = some (.responding bearer false false))
    (hnone : ∀ c ∈ s.calls, c.awaitsRefresh = false) :
    Session.Alone { s with calls := s.calls.set i (.refreshing s.cookie) } := by
  have hlt : i < s.calls.length := (List.getElem?_eq_some_iff.mp hget).1
  have hcookie := h.idle hnone
  refine alone_of_others rfl (fun j d _ hd => ?_) (List.mem_of_getElem? (List.getElem?_set_self hlt))
    ⟨hcookie, hcookie⟩ fun hidle => by cases hidle
  have hmem := List.mem_of_getElem? hd
  exact ⟨hnone d hmem, (h.fresh d hmem).of_idle (hnone d hmem)⟩

/-- Whatever else a call does, the refresh under way does not notice. -/
theorem alone_idle (h : s.Alone) {i : Nat} {c' : Phase} (hget : s.calls[i]? = some c)
    (hc : c.awaitsRefresh = false) (hc' : c'.awaitsRefresh = false) (hfresh : c'.Fresh s')
    (hversion : s'.version = s.version) (hcookie : s'.cookie = s.cookie)
    (hcalls : s'.calls = s.calls.set i c') : s'.Alone := by
  have hold : ∀ (j : Nat) (d : Phase), s'.calls[j]? = some d → d.awaitsRefresh = true →
      s.calls[j]? = some d := by
    intro j d hd hawaits
    rw [hcalls] at hd
    rcases getElem?_set_cases hd with ⟨-, rfl⟩ | ⟨-, hd⟩
    · rw [hc'] at hawaits
      cases hawaits
    · exact hd
  refine ⟨fun j k d e hd he hdawaits heawaits => ?_, fun hall => ?_, fun d hd => ?_⟩
  · exact h.single j k d e (hold j d hd hdawaits) (hold k e he heawaits) hdawaits heawaits
  · rw [hversion, hcookie]
    refine h.idle fun d hd => ?_
    obtain ⟨j, hj⟩ := List.mem_iff_getElem?.mp hd
    by_cases hij : i = j
    · subst hij
      obtain rfl := Option.some.inj (hget.symm.trans hj)
      exact hc
    · refine hall d (List.mem_of_getElem? (i := j) ?_)
      rw [hcalls, List.getElem?_set_ne hij]
      exact hj
  · rw [hcalls] at hd
    rcases List.mem_or_eq_of_mem_set hd with hd | rfl
    · have hold := h.fresh d hd
      cases d with
      | refreshing cookie => exact ⟨hold.1.trans hversion.symm, by rw [hcookie, hversion]; exact hold.2⟩
      | refreshed reply =>
        exact ⟨by rw [hversion]; exact hold.1, by rw [hcookie, hversion]; exact hold.2⟩
      | _ => exact hold
    · exact hfresh

theorem Session.Alone.step (h : s.Alone) (hs : s.Sound) (e : Move) (hapart : s.overlaps e = false) :
    (s.step e).Alone := by
  rcases s.step_cases e with ⟨-, hstep⟩ | hstep | ⟨i, c, rfl, hget, hstep⟩
  · rw [hstep]
    exact alone_request h _
  · rwa [hstep]
  · rw [hstep]
    have hmem := List.mem_of_getElem? hget
    cases hawaits : c.awaitsRefresh with
    | true => exact alone_awaiting h hget hawaits
    | false =>
      by_cases hstarts : ∃ bearer, c = .responding bearer false false
      · obtain ⟨bearer, rfl⟩ := hstarts
        have hnone : s.calls.any (·.awaitsRefresh) = false := by
          simpa [Session.overlaps, hget, Phase.startsRefresh] using hapart
        exact alone_starting h hget fun d hd => by simpa using List.any_eq_false.mp hnone d hd
      · obtain ⟨hversion, hcookie, hidle, hfresh⟩ := advance_idle (hs.calls c hmem) (h.fresh c hmem)
          hawaits fun bearer hb => hstarts ⟨bearer, hb⟩
        exact alone_idle h hget hawaits hidle (hfresh.of_idle hidle) hversion hcookie rfl

end

-- ---------------------------------------------------------------------------
-- Two refreshes at a time
-- ---------------------------------------------------------------------------

def Phase.AtRest : Phase → Prop
  | .resolved _ | .threw => True
  | _ => False

/-- The call's refresh is refused, or will be. -/
def Phase.Lost (version : Int) : Phase → Prop
  | .refreshing cookie => cookie < version
  | .refreshed none | .threw => True
  | _ => False

/-- A call is lost, or two have sent the same cookie. -/
def Session.Doomed (s : Session) : Prop :=
  (∃ c ∈ s.calls, c.Lost s.version) ∨
    ∃ (i j : Nat) (cookie : Int), i ≠ j ∧ s.calls[i]? = some (.refreshing cookie) ∧
      s.calls[j]? = some (.refreshing cookie)

section
variable {s : Session} {c : Phase}

theorem Phase.Lost.mono {version version' : Int} (h : c.Lost version) (hle : version ≤ version') :
    c.Lost version' := by
  cases c with
  | refreshing cookie => exact lt_of_lt_of_le h hle
  | refreshed reply => cases reply <;> exact h
  | _ => exact h

theorem advance_lost (h : c.Lost s.version) : (s.advance c).2.Lost (s.advance c).1.version := by
  cases c with
  | refreshing cookie =>
    have hredeem : redeem s.version cookie = (s.version, none) := if_neg (ne_of_lt h)
    simp only [Session.advance, hredeem]
    trivial
  | refreshed reply =>
    cases reply with
    | none => trivial
    | some version => exact h.elim
  | threw => trivial
  | _ => exact h.elim

/-- Of two calls that have sent one cookie, whichever is taken first, one is lost. -/
theorem advance_twin {i j : Nat} {cookie : Int} (hij : i ≠ j)
    (hi : s.calls[i]? = some (.refreshing cookie)) (hj : s.calls[j]? = some (.refreshing cookie)) :
    Session.Doomed { (s.advance (.refreshing cookie)).1 with
      calls := s.calls.set i (s.advance (.refreshing cookie)).2 } := by
  have hlt : i < s.calls.length := (List.getElem?_eq_some_iff.mp hi).1
  simp only [Session.advance]
  rcases redeem_cases s.version cookie with ⟨rfl, h⟩ | ⟨-, h⟩
  · rw [h]
    refine .inl ⟨.refreshing s.version, List.mem_of_getElem? (i := j) ?_, Int.lt_succ s.version⟩
    exact (List.getElem?_set_ne hij).trans hj
  · rw [h]
    exact .inl ⟨.refreshed none, List.mem_of_getElem? (List.getElem?_set_self hlt), trivial⟩

theorem Session.Doomed.step (h : s.Doomed) (e : Move) : (s.step e).Doomed := by
  rcases s.step_cases e with ⟨-, hstep⟩ | hstep | ⟨k, d, -, hget, hstep⟩
  · rw [hstep]
    rcases h with ⟨c, hc, hlost⟩ | ⟨i, j, cookie, hij, hi, hj⟩
    · exact .inl ⟨c, List.mem_append_left _ hc, hlost⟩
    · refine .inr ⟨i, j, cookie, hij, ?_, ?_⟩
      · rwa [List.getElem?_append_left (List.getElem?_eq_some_iff.mp hi).1]
      · rwa [List.getElem?_append_left (List.getElem?_eq_some_iff.mp hj).1]
  · rwa [hstep]
  · rw [hstep]
    rcases h with ⟨c, hc, hlost⟩ | ⟨i, j, cookie, hij, hi, hj⟩
    · obtain ⟨m, hm⟩ := List.mem_iff_getElem?.mp hc
      by_cases hkm : k = m
      · subst hkm
        obtain rfl := Option.some.inj (hget.symm.trans hm)
        have hlt := (List.getElem?_eq_some_iff.mp hget).1
        exact .inl ⟨_, List.mem_of_getElem? (List.getElem?_set_self hlt), advance_lost hlost⟩
      · refine .inl ⟨c, List.mem_of_getElem? ((List.getElem?_set_ne hkm).trans hm), ?_⟩
        exact hlost.mono (advance_advances s d).version
    · by_cases hki : k = i
      · subst hki
        obtain rfl := Option.some.inj (hget.symm.trans hi)
        exact advance_twin hij hi hj
      · by_cases hkj : k = j
        · subst hkj
          obtain rfl := Option.some.inj (hget.symm.trans hj)
          exact advance_twin hij.symm hj hi
        · exact .inr ⟨i, j, cookie, hij, (List.getElem?_set_ne hki).trans hi,
            (List.getElem?_set_ne hkj).trans hj⟩

theorem overlaps_cases {e : Move} (h : s.overlaps e = true) :
    ∃ i bearer, e = .proceed i ∧ s.calls[i]? = some (.responding bearer false false) ∧
      ∃ c ∈ s.calls, c.awaitsRefresh = true := by
  cases e with
  | request => cases h
  | proceed i =>
    obtain ⟨hstarts, hawaits⟩ := Bool.and_eq_true_iff.mp h
    obtain ⟨c, hget, hc⟩ := (Option.any_eq_true _ _).mp hstarts
    obtain ⟨bearer, rfl⟩ := startsRefresh_iff.mp hc
    exact ⟨i, bearer, rfl, hget, List.any_eq_true.mp hawaits⟩

/-- The second of two refreshes carries a cookie that is, or is about to be, out of date. -/
theorem doomed_of_overlap {e : Move} (h : s.Alone) (hx : s.overlaps e = true) : (s.step e).Doomed := by
  obtain ⟨i, bearer, rfl, hget, c, hc, hawaits⟩ := overlaps_cases hx
  have hlt : i < s.calls.length := (List.getElem?_eq_some_iff.mp hget).1
  have hstep : s.step (.proceed i) = { s with calls := s.calls.set i (.refreshing s.cookie) } := by
    simp [Session.step, hget, Session.advance]
  rw [hstep]
  have hfresh := h.fresh c hc
  cases c with
  | refreshing cookie =>
    obtain ⟨rfl, hcookie⟩ := hfresh
    obtain ⟨j, hj⟩ := List.mem_iff_getElem?.mp hc
    have hij : i ≠ j := by
      rintro rfl
      rw [hget] at hj
      cases hj
    refine .inr ⟨i, j, s.cookie, hij, List.getElem?_set_self hlt, ?_⟩
    rw [hcookie]
    exact (List.getElem?_set_ne hij).trans hj
  | refreshed reply =>
    exact .inl ⟨_, List.mem_of_getElem? (List.getElem?_set_self hlt), hfresh.2⟩
  | _ => cases hawaits

/-- At rest, a lost call has thrown. -/
theorem Session.Doomed.threw (h : s.Doomed) (hrest : ∀ c ∈ s.calls, c.AtRest) : .threw ∈ s.calls := by
  rcases h with ⟨c, hc, hlost⟩ | ⟨i, j, cookie, -, hi, -⟩
  · have hat := hrest c hc
    cases c with
    | threw => exact hc
    | resolved => exact hlost.elim
    | _ => exact hat.elim
  · exact (hrest _ (List.mem_of_getElem? hi)).elim

end

-- ---------------------------------------------------------------------------
-- Runs
-- ---------------------------------------------------------------------------

/-- Nothing has overlapped, or a call is lost. -/
theorem alone_or_doomed (version : Int) (es : List Move) :
    let l := (client version).log es
    ((client version).state l).Sound ∧
      ((Always Apart l ∧ ((client version).state l).Alone) ∨
        (¬ Always Apart l ∧ ((client version).state l).Doomed)) := by
  induction es with
  | nil =>
    refine ⟨⟨le_rfl, fun c hc => absurd hc List.not_mem_nil⟩, .inl ⟨trivial, ?_⟩⟩
    refine ⟨fun i j c d hc => ?_, fun _ => rfl, fun c hc => absurd hc List.not_mem_nil⟩
    exact absurd (List.mem_of_getElem? hc) List.not_mem_nil
  | cons e es ih =>
    obtain ⟨hsound, hpast⟩ := ih
    refine ⟨hsound.step e, ?_⟩
    rcases hpast with ⟨hall, halone⟩ | ⟨hnot, hdoomed⟩
    · cases hover : ((client version).state ((client version).log es)).overlaps e with
      | true =>
        refine .inr ⟨fun h => ?_, doomed_of_overlap halone hover⟩
        exact Bool.false_ne_true (h.1.symm.trans hover)
      | false => exact .inl ⟨⟨hover, hall⟩, halone.step hsound e hover⟩
    · exact .inr ⟨fun h => hnot h.2, hdoomed.step e⟩

theorem requests_served_iff (version : Int) (es : List Move) :
    let l := (client version).log es
    let calls := ((client version).state l).calls
    (Always Apart l → ∀ c ∈ calls, c.Served) ∧
      ((∀ c ∈ calls, c.AtRest) → (∀ c ∈ calls, c.Served) → Always Apart l) := by
  intro l calls
  obtain ⟨hsound, ⟨hall, halone⟩ | ⟨hnot, hdoomed⟩⟩ := alone_or_doomed version es
  · exact ⟨fun _ => served_of_alone hsound halone, fun _ _ => hall⟩
  · refine ⟨fun hall => absurd hall hnot, fun hrest hserved => ?_⟩
    exact (hserved .threw (hdoomed.threw hrest)).elim

-- two requests are sent with the expired token, and each is answered 401
private def bothAnswered : List Move := [.proceed 1, .proceed 0, .request, .request]

/-- Request 0 has its new cookie before request 1 is told 401. Newest first. -/
private def oneByOne : List Move :=
  List.replicate 7 (.proceed 1) ++ List.replicate 6 (.proceed 0) ++ bothAnswered

/-- Both are told 401 before either refresh is served. Newest first. -/
private def burst : List Move :=
  List.replicate 2 (.proceed 1) ++ List.replicate 6 (.proceed 0) ++ [.proceed 1, .proceed 0] ++
    bothAnswered

theorem two_requests_served :
    let calls := ((client 3).state ((client 3).log oneByOne)).calls
    calls.length = 2 ∧ ∀ c ∈ calls, c.Served :=
  ⟨by decide, (requests_served_iff 3 oneByOne).1 (by decide)⟩

theorem burst_throws :
    ((client 3).state ((client 3).log burst)).calls = [.resolved (.minted 4), .threw] := by decide

-- ---------------------------------------------------------------------------
-- Progress
-- ---------------------------------------------------------------------------

/-- How many more steps a call takes, at most. -/
def Phase.cost : Phase → Nat
  | .requesting _ false => 8
  | .responding _ false _ => 7
  | .refreshing _ => 6
  | .refreshed _ => 5
  | .parsing _ => 4
  | .renewed => 3
  | .requesting _ true => 2
  | .responding _ true _ => 1
  | .resolved _ | .threw => 0

section
variable {s : Session} {c : Phase}

theorem atRest_iff : c.AtRest ↔ c.cost = 0 := by
  cases c with
  | requesting bearer retried => cases retried <;> simp [Phase.AtRest, Phase.cost]
  | responding bearer retried ok => cases retried <;> simp [Phase.AtRest, Phase.cost]
  | _ => simp [Phase.AtRest, Phase.cost]

theorem advance_cost (s : Session) (c : Phase) :
    (s.advance c).2.cost + 1 ≤ c.cost ∨ (s.advance c).2.cost = 0 := by
  cases c with
  | requesting bearer retried => cases retried <;> simp [Session.advance, Phase.cost]
  | responding bearer retried ok =>
    cases ok with
    | true => exact .inr rfl
    | false => cases retried <;> simp [Session.advance, Phase.cost]
  | refreshing cookie =>
    rcases redeem_cases s.version cookie with ⟨-, h⟩ | ⟨-, h⟩ <;>
      simp [Session.advance, h, Phase.cost]
  | refreshed reply => cases reply <;> simp [Session.advance, Phase.cost]
  | _ => simp [Session.advance, Phase.cost]

theorem step_call (e : Move) {i : Nat} (hget : s.calls[i]? = some c) :
    (s.step e).calls[i]? = some (if e = .proceed i then (s.advance c).2 else c) := by
  have hlt : i < s.calls.length := (List.getElem?_eq_some_iff.mp hget).1
  cases e with
  | request =>
    simp only [Session.step, reduceCtorEq, if_false]
    rw [List.getElem?_append_left hlt, hget]
  | proceed j =>
    by_cases hij : j = i
    · subst hij
      simp only [Session.step, hget, if_true]
      exact List.getElem?_set_self hlt
    · have hne : Move.proceed j ≠ .proceed i := fun h => hij (Move.proceed.inj h)
      rw [if_neg hne]
      cases hj : s.calls[j]? with
      | none => simpa [Session.step, hj] using hget
      | some d => simpa [Session.step, hj, List.getElem?_set_ne hij] using hget

/-- A call that has been given its turn eight times has come to rest. -/
theorem request_settles (version : Int) (later es : List Move) {i : Nat}
    (hget : ((client version).state ((client version).log es)).calls[i]? = some c)
    (hturns : 8 ≤ later.count (.proceed i)) :
    ∃ c', ((client version).state ((client version).log (later ++ es))).calls[i]? = some c' ∧
      c'.AtRest := by
  have hcost : c.cost ≤ 8 := by
    cases c with
    | requesting bearer retried => cases retried <;> simp [Phase.cost]
    | responding bearer retried ok => cases retried <;> simp [Phase.cost]
    | _ => simp [Phase.cost]
  suffices h : ∀ later : List Move, ∃ c',
      ((client version).state ((client version).log (later ++ es))).calls[i]? = some c' ∧
        (c'.cost + later.count (.proceed i) ≤ c.cost ∨ c'.cost = 0) by
    obtain ⟨c', hc', hdone⟩ := h later
    exact ⟨c', hc', atRest_iff.mpr (by omega)⟩
  intro later
  induction later with
  | nil => exact ⟨c, hget, .inl le_rfl⟩
  | cons e later ih =>
    obtain ⟨d, hd, hdone⟩ := ih
    have hstep := advance_cost ((client version).state ((client version).log (later ++ es))) d
    have hnext := step_call e hd
    refine ⟨_, hnext, ?_⟩
    rw [List.count_cons]
    by_cases he : e = .proceed i
    · rw [if_pos he, if_pos (beq_iff_eq.mpr he)]
      rcases hdone with hdone | hdone
      · exact hstep.imp (fun h => by omega) id
      · exact .inr (by omega)
    · rw [if_neg he, if_neg (fun h => he (beq_iff_eq.mp h))]
      exact hdone

end

end Rvep.Web
