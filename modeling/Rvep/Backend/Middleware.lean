import Rvep.Lib.HeaderList
import Rvep.Backend.Auth

/-!
# Who a request is from

The middleware verifies the bearer token and hands the claims to the handler in
two plain headers, which `getAuthContext` reads back. What a client sends under
those names is replaced on the way.
-/

namespace Rvep.Backend.Http

open Rvep.Backend

structure Request where
  method : String
  pathname : String
  headers : HeaderList

/-- A response, or with `next` the request headers that are passed on. -/
structure NextResponse where
  status : Nat
  error : Option String := none
  headers : HeaderList := []
  next : Option HeaderList := none

def PUBLIC_PATHS : List String := ["/api/v1/auth/login", "/api/v1/auth/refresh"]

def INTERNAL_PREFIX : String := "/api/v1/internal/"

def startsWith (s start : String) : Bool := start.toList.isPrefixOf s.toList

/-- `config.matcher`: the paths the middleware runs for. -/
def matcher (pathname : String) : Bool := pathname == "/api/v1" || startsWith pathname "/api/v1/"

/-- What follows `Bearer ` in an `authorization` header. -/
def bearerToken (authHeader : Option String) : Option String :=
  authHeader.bind fun header =>
    if startsWith header "Bearer " then some (String.ofList (header.toList.drop 7)) else none

def isRole (value : String) : Option Role :=
  [Role.admin, Role.operator, Role.viewer].find? (·.name == value)

def allowedHeaders : String :=
  "Authorization, Content-Type, X-CSRF-Token, X-Requested-With, Accept, Accept-Version, " ++
    "Content-Length, Content-MD5, Date, X-Api-Version"

variable (pkg : Packages) (corsAllowedOrigin : String)

def applyCors (res : NextResponse) (origin : Option String) : NextResponse :=
  let allow := (origin.filter (· != "")).getD corsAllowedOrigin
  { res with headers :=
      ((((res.headers.put "Access-Control-Allow-Origin" allow).put
        "Access-Control-Allow-Credentials" "true").put
        "Access-Control-Allow-Headers" allowedHeaders).put
        "Access-Control-Allow-Methods" "GET, POST, PATCH, DELETE, OPTIONS").put "Vary" "Origin" }

def unauthenticated : NextResponse := { status := 401, error := some "unauthenticated" }

def verifyAccessToken (now : Time) (token : String) : Except String Claims :=
  (pkg.reject .access now token).elim (.ok (pkg.decode token)) .error

/-- The headers a handler gets with the claims of a token; `none` if setting one throws. -/
def inject (headers : HeaderList) (payload : Claims) : Option HeaderList :=
  (headers.set? "x-user-id" payload.sub).bind fun headers =>
    headers.set? "x-user-role" payload.role.name

def middleware (now : Time) (request : Request) : NextResponse :=
  let origin := request.headers.get "origin"
  if request.method = "OPTIONS" then applyCors corsAllowedOrigin { status := 204 } origin
  else if request.pathname ∈ PUBLIC_PATHS then
    applyCors corsAllowedOrigin { status := 200, next := some request.headers } origin
  else if startsWith request.pathname INTERNAL_PREFIX then
    { status := 200, next := some request.headers }
  else
    match bearerToken (request.headers.get "authorization") with
    | none => applyCors corsAllowedOrigin unauthenticated origin
    | some token =>
      match verifyAccessToken pkg now token with
      | .error _ => applyCors corsAllowedOrigin unauthenticated origin
      | .ok payload =>
        match inject request.headers payload with
        | none => applyCors corsAllowedOrigin unauthenticated origin
        | some requestHeaders =>
          applyCors corsAllowedOrigin { status := 200, next := some requestHeaders } origin

/-- The context the middleware has injected, if both headers are there. -/
def injected (headers : HeaderList) : Option AuthContext := do
  let userId ← headers.get "x-user-id"
  let role ← (headers.get "x-user-role").bind isRole
  if userId = "" then none else some ⟨userId, role⟩

def getAuthContext (now : Time) (headers : HeaderList) : Except AppError AuthContext :=
  match injected headers with
  | some ctx => .ok ctx
  | none =>
    match bearerToken (headers.get "authorization") with
    | none => .error (Unauthenticated)
    | some token =>
      match verifyAccessToken pkg now token with
      | .error _ => .error (Unauthenticated)
      | .ok payload => .ok ⟨payload.sub, payload.role⟩

/-- What becomes of a request: the middleware answers it, or the handler looks for its caller. -/
inductive Outcome
  | answered (response : NextResponse)
  | handled (caller : Except AppError AuthContext)

/-- The middleware's clock reads `now`, the handler's `later`. -/
def outcome (now later : Time) (request : Request) : Outcome :=
  if matcher request.pathname then
    let response := middleware pkg corsAllowedOrigin now request
    match response.next with
    | none => .answered response
    | some headers => .handled (getAuthContext pkg later headers)
  else .handled (getAuthContext pkg later request.headers)

-- ---------------------------------------------------------------------------
-- What a handler reads back
-- ---------------------------------------------------------------------------

section
variable {pkg} {corsAllowedOrigin} {headers headers' : HeaderList} {payload : Claims}

@[simp] theorem applyCors_next (res : NextResponse) (origin : Option String) :
    (applyCors corsAllowedOrigin res origin).next = res.next := rfl

theorem normalize_role (role : Role) : HeaderList.normalize role.name = role.name := by
  cases role <;> decide

theorem isRole_name (role : Role) : isRole role.name = some role := by
  cases role <;> decide

/-- Whether the claims can be injected is a matter of the claims. -/
theorem inject_eq_none : inject headers payload = none ↔
    HeaderList.carries (HeaderList.normalize payload.sub) = false ∨
      HeaderList.carries (HeaderList.normalize payload.role.name) = false := by
  unfold inject
  cases h : headers.set? "x-user-id" payload.sub with
  | none =>
    rw [HeaderList.set?_eq_none] at h
    exact ⟨fun _ => .inl h, fun _ => rfl⟩
  | some headers' =>
    have hsub : HeaderList.carries (HeaderList.normalize payload.sub) ≠ false := by
      intro hno
      rw [HeaderList.set?_eq_none.mpr hno] at h
      exact Option.some_ne_none headers' h.symm
    rw [or_iff_right hsub, Option.bind_some, HeaderList.set?_eq_none]

/-- The claims come back, and the rest of the headers is what it was. -/
theorem get_inject (h : inject headers payload = some headers') :
    headers'.get "x-user-id" = some (HeaderList.normalize payload.sub) ∧
      headers'.get "x-user-role" = some payload.role.name ∧
      headers'.get "authorization" = headers.get "authorization" := by
  obtain ⟨headers₁, h₁, h₂⟩ := Option.bind_eq_some_iff.mp h
  refine ⟨?_, ?_, ?_⟩
  · rw [HeaderList.get_set_of_ne h₂ (by decide), HeaderList.get_set h₁]
  · rw [HeaderList.get_set h₂, normalize_role]
  · rw [HeaderList.get_set_of_ne h₂ (by decide), HeaderList.get_set_of_ne h₁ (by decide)]

theorem injected_inject (h : inject headers payload = some headers') :
    injected headers' =
      if HeaderList.normalize payload.sub = "" then none
      else some ⟨HeaderList.normalize payload.sub, payload.role⟩ := by
  obtain ⟨hid, hrole, -⟩ := get_inject h
  simp only [injected, hid, hrole, Option.bind_some, isRole_name, Option.bind_eq_bind]

/-- Whatever a client has sent under the names of the two headers, the handler's
answer is a function of the claims and the `authorization` header. -/
theorem getAuthContext_inject {later : Time} {other other' : HeaderList}
    (h : inject headers payload = some headers') (h' : inject other payload = some other')
    (hauth : headers.get "authorization" = other.get "authorization") :
    getAuthContext pkg later headers' = getAuthContext pkg later other' := by
  obtain ⟨-, -, hsame⟩ := get_inject h
  obtain ⟨-, -, hsame'⟩ := get_inject h'
  have hauth' : headers'.get "authorization" = other'.get "authorization" :=
    hsame.trans (hauth.trans hsame'.symm)
  rw [getAuthContext, getAuthContext, injected_inject h, injected_inject h', hauth']

/-- What the handlers are told of the caller: one there is, or a 401. -/
theorem handler_caller (later : Time) (headers : HeaderList) :
    Backend.getAuthContext (getAuthContext pkg later headers).toOption =
      match getAuthContext pkg later headers with
      | .ok ctx => pure ctx
      | .error err => throw (.app err) := by
  unfold getAuthContext
  cases injected headers with
  | some ctx => rfl
  | none =>
    cases bearerToken (headers.get "authorization") with
    | none => rfl
    | some token =>
      simp only
      cases verifyAccessToken pkg later token <;> rfl

end

-- ---------------------------------------------------------------------------
-- No client chooses its identity
-- ---------------------------------------------------------------------------

structure Request.Protected (request : Request) : Prop where
  matched : matcher request.pathname = true
  not_public : request.pathname ∉ PUBLIC_PATHS
  not_internal : startsWith request.pathname INTERNAL_PREFIX = false
  not_preflight : request.method ≠ "OPTIONS"

def trustedHeaders : List String := ["x-user-id", "x-user-role"]

/-- The requests differ at most in the headers under the two trusted names. -/
structure Request.Agrees (request request' : Request) : Prop where
  method : request.method = request'.method
  pathname : request.pathname = request'.pathname
  headers : request.headers.without trustedHeaders = request'.headers.without trustedHeaders

/-- What `uuid()` gives: letters, digits and hyphens. -/
def IsRowId (id : String) : Prop := id ≠ "" ∧ ∀ c ∈ id.toList, c.isAlphanum = true ∨ c = '-'

/-- An access token passes verification only if it was signed for a user, and
verification returns what was signed. -/
def Minted : Prop :=
  ∀ now token, pkg.reject .access now token = none →
    ∃ claims, IsRowId claims.sub ∧ token = pkg.sign .access claims ∧ pkg.decode token = claims

section
variable {pkg} {corsAllowedOrigin} {request request' : Request} {now later : Time}

theorem Request.Agrees.get (h : request.Agrees request') {name : String}
    (hname : ∀ trusted ∈ trustedHeaders, HeaderList.sameName name trusted = false) :
    request.headers.get name = request'.headers.get name := by
  rw [← HeaderList.get_without hname, h.headers, HeaderList.get_without hname]

theorem Request.Agrees.outcome_eq (h : request.Agrees request') (hprot : request.Protected) :
    outcome pkg corsAllowedOrigin now later request =
      outcome pkg corsAllowedOrigin now later request' := by
  have horigin : request.headers.get "origin" = request'.headers.get "origin" := h.get (by decide)
  have hauth : request.headers.get "authorization" = request'.headers.get "authorization" :=
    h.get (by decide)
  obtain ⟨hmatched, hpublic, hinternal, hmethod⟩ := hprot
  simp only [outcome, middleware, ← h.pathname, ← h.method, hmatched, hmethod, hpublic, hinternal,
    ← horigin, ← hauth, if_true, if_false, Bool.false_eq_true]
  cases bearerToken (request.headers.get "authorization") with
  | none => rfl
  | some token =>
    simp only
    cases verifyAccessToken pkg now token with
    | error message => rfl
    | ok payload =>
      simp only
      cases hinject : inject request.headers payload with
      | none => rw [inject_eq_none.mpr (inject_eq_none.mp hinject)]
      | some headers =>
        cases hinject' : inject request'.headers payload with
        | none =>
          rw [inject_eq_none.mpr (inject_eq_none.mp hinject')] at hinject
          exact absurd hinject.symm (Option.some_ne_none headers)
        | some headers' =>
          exact congrArg Outcome.handled (getAuthContext_inject hinject hinject' hauth)

theorem IsRowId.normalize {id : String} (h : IsRowId id) : HeaderList.normalize id = id := by
  refine HeaderList.normalize_eq_self fun c hc => ?_
  rcases h.2 c hc with hletter | rfl
  · by_contra hspace
    rw [Bool.not_eq_false] at hspace
    simp only [HeaderList.isSpace, Bool.or_eq_true, beq_iff_eq] at hspace
    rcases hspace with ((rfl | rfl) | rfl) | rfl <;> exact absurd hletter (by decide)
  · decide

/-- A protected request is refused, or its caller is who the verified token names. -/
theorem outcome_of_token (hminted : Minted pkg) (hprot : request.Protected) :
    (∃ response, outcome pkg corsAllowedOrigin now later request = .answered response ∧
        response.status = 401) ∨
      ∃ token, bearerToken (request.headers.get "authorization") = some token ∧
        pkg.reject .access now token = none ∧
        outcome pkg corsAllowedOrigin now later request =
          .handled (.ok ⟨(pkg.decode token).sub, (pkg.decode token).role⟩) := by
  obtain ⟨hmatched, hpublic, hinternal, hmethod⟩ := hprot
  simp only [outcome, middleware, hmatched, hmethod, hpublic, hinternal, if_true, if_false,
    Bool.false_eq_true]
  cases hbearer : bearerToken (request.headers.get "authorization") with
  | none => exact .inl ⟨_, rfl, rfl⟩
  | some token =>
    cases hreject : pkg.reject .access now token with
    | some message =>
      simp only [verifyAccessToken, hreject, Option.elim_some]
      exact .inl ⟨_, rfl, rfl⟩
    | none =>
      simp only [verifyAccessToken, hreject, Option.elim_none]
      cases hinject : inject request.headers (pkg.decode token) with
      | none => exact .inl ⟨_, rfl, rfl⟩
      | some headers =>
        obtain ⟨claims, hid, -, hdecode⟩ := hminted now token hreject
        have hnormal : HeaderList.normalize (pkg.decode token).sub = (pkg.decode token).sub := by
          rw [hdecode, hid.normalize]
        have hne : (pkg.decode token).sub ≠ "" := hdecode ▸ hid.1
        refine .inr ⟨token, rfl, hreject, ?_⟩
        simp only [applyCors_next, getAuthContext, injected_inject hinject, hnormal, if_neg hne]

end

/-- Two requests to a protected path that differ in nothing but what the client
sends under the trusted headers come to the same: one 401, or the identity the
verified bearer token carries. -/
theorem client_cannot_choose_identity (hminted : Minted pkg) {request request' : Request}
    (hprot : request.Protected) (hagree : request.Agrees request') (now later : Time) :
    outcome pkg corsAllowedOrigin now later request =
        outcome pkg corsAllowedOrigin now later request' ∧
      ((∃ response, outcome pkg corsAllowedOrigin now later request = .answered response ∧
          response.status = 401) ∨
        ∃ token, bearerToken (request.headers.get "authorization") = some token ∧
          pkg.reject .access now token = none ∧
          outcome pkg corsAllowedOrigin now later request =
            .handled (.ok ⟨(pkg.decode token).sub, (pkg.decode token).role⟩)) :=
  ⟨hagree.outcome_eq hprot, outcome_of_token hminted hprot⟩

private def badges : Packages where
  sign _ claims := if claims.sub = "5f0c6f1e-2d6b" then "badge" else "scrap"
  decode _ := ⟨"5f0c6f1e-2d6b", .operator, none, 1000, 4600⟩
  reject _ now token := if token = "badge" && now < 4600000 then none else some "not accepted"
  comparePassword _ _ := false
  isEmail _ := false

private def asOperator : Request where
  method := "GET"
  pathname := "/api/v1/vehicles"
  headers := [("Authorization", "Bearer badge")]

/-- The same request from a client that would be an administrator. -/
private def asAdmin : Request :=
  { asOperator with headers := [("X-User-Id", "root"), ("Authorization", "Bearer badge"),
      ("x-user-role", "ADMIN"), ("X-USER-ROLE", "ADMIN")] }

private theorem badges_minted : Minted badges := by
  intro now token hok
  have hbadge : token = "badge" := by
    by_contra hne
    simp [badges, hne] at hok
  exact ⟨⟨"5f0c6f1e-2d6b", .operator, none, 1000, 4600⟩, ⟨by decide, by simp⟩, hbadge, rfl⟩

theorem operator_stays_operator :
    outcome badges "http://localhost:3011" 1000000 1000000 asAdmin =
      .handled (.ok ⟨"5f0c6f1e-2d6b", .operator⟩) := by
  have hprot : asAdmin.Protected := ⟨by decide, by decide, by decide, by decide⟩
  have hagree : asAdmin.Agrees asOperator := ⟨rfl, rfl, by decide⟩
  obtain ⟨hsame, -⟩ := client_cannot_choose_identity badges "http://localhost:3011" badges_minted
    hprot hagree 1000000 1000000
  rw [hsame]
  rfl

end Rvep.Backend.Http
