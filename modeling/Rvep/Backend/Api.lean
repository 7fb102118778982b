import Rvep.Backend.Database
import Rvep.Shared.Json

/-!
# Route handlers

What the handlers under `apps/backend/src/app/api/v1` share: errors and
responses, body validation, roles, the audit log, and the `try` / `catch`
that turns whatever a handler throws into a response.
-/

namespace Rvep.Backend

open Interleaving

-- ---------------------------------------------------------------------------
-- Responses and errors
-- ---------------------------------------------------------------------------

inductive Body
  | data (fields : Fields)
  | list (items : List Fields)
  | error (code : String) (extra : Fields)
  | empty
  deriving DecidableEq, Repr

/-- A `Set-Cookie` of the refresh token; its other attributes never vary. -/
structure Cookie where
  value : String
  maxAge : Int
  deriving DecidableEq, Repr

structure Response where
  status : Nat
  body : Body
  refreshCookie : Option Cookie := none
  deriving DecidableEq, Repr

def ok (data : Fields) (status : Nat := 200) : Response := { status := status, body := .data data }

def okList (items : List Fields) : Response := { status := 200, body := .list items }

def fail (code : String) (status : Nat) (extra : Fields := []) : Response :=
  { status := status, body := .error code extra }

/-- The framework's own answer when a handler's promise is rejected. -/
def uncaught : Response := { status := 500, body := .empty }

def Response.field? (r : Response) (key : String) : Option Field :=
  match r.body with
  | .data fields => fields.lookup key
  | .list _ | .empty => none
  | .error _ extra => extra.lookup key

def Response.isError (r : Response) : Bool :=
  match r.body with
  | .data _ | .list _ => false
  | .error _ _ | .empty => true

@[simp] theorem isError_ok (data : Fields) (status : Nat) : (ok data status).isError = false := rfl
@[simp] theorem isError_fail (code : String) (status : Nat) (extra : Fields) :
    (fail code status extra).isError = true := rfl

@[simp] theorem status_ok (data : Fields) (status : Nat) : (ok data status).status = status := rfl
@[simp] theorem status_fail (code : String) (status : Nat) (extra : Fields) :
    (fail code status extra).status = status := rfl

structure AppError where
  code : String
  status : Nat
  extra : Fields := []
  deriving DecidableEq, Repr

def Unauthenticated (code : String := "unauthenticated") : AppError := { code := code, status := 401 }

def Forbidden (code : String := "forbidden") : AppError := { code := code, status := 403 }

def NotFound (code : String := "not_found") : AppError := { code := code, status := 404 }

def UnprocessableEntity (code : String := "validation_error") (extra : Fields := []) : AppError :=
  { code := code, status := 422, extra := extra }

inductive Thrown
  | app (err : AppError)
  | db (err : DbError)
  | error (message : String)
  deriving DecidableEq, Repr

-- ---------------------------------------------------------------------------
-- Handlers
-- ---------------------------------------------------------------------------

abbrev Handler (α : Type) := ExceptT Thrown (Prog Call Call.Reply) α

def Handler.query (q : Query) : Handler q.Reply :=
  ExceptT.mk (.call (.query q) fun r => .done (r.mapError .db))

def Handler.transaction (tx : Tx ClaimResult) : Handler ClaimResult :=
  ExceptT.mk (.call (.transaction tx) fun r => .done (r.mapError .db))

def Handler.now : Handler Time := ExceptT.mk (.call .now fun t => .done (.ok t))

/-- A failed audit write is logged and forgotten. -/
def audit (event : EventData) : Handler Unit :=
  ExceptT.mk (.call (.query (.eventLogCreate event)) fun _ => .done (.ok ()))

def respond : Except Thrown Response → Response
  | .ok r => r
  | .error (.app err) => fail err.code err.status err.extra
  | .error (.db _) | .error (.error _) => fail "internal_error" 500

def Handler.serve (handler : Handler Response) : Prog Call Call.Reply Response :=
  handler.run >>= fun r => .done (respond r)

-- ---------------------------------------------------------------------------
-- Authentication
-- ---------------------------------------------------------------------------

structure AuthContext where
  userId : String
  role : Role
  deriving DecidableEq, Repr

/-- The caller, if `getAuthContext` finds one. -/
abbrev Caller := Option AuthContext

def getAuthContext (caller : Caller) : Handler AuthContext :=
  match caller with
  | some ctx => pure ctx
  | none => throw (.app (Unauthenticated))

def Role.rank : Role → Nat
  | .viewer => 0
  | .operator => 1
  | .admin => 2

def Role.name : Role → String
  | .viewer => "VIEWER"
  | .operator => "OPERATOR"
  | .admin => "ADMIN"

def hasRole (userRole requiredRole : Role) : Bool := decide (requiredRole.rank ≤ userRole.rank)

-- ---------------------------------------------------------------------------
-- Body validation
-- ---------------------------------------------------------------------------

def issue (path : String) (message : String) : String := path ++ ": " ++ message

/-- `z.string()` with its further checks, on one key of an object: the string,
or the issues it raises. -/
def stringKey (key : String) (checks : String → List String) (fields : List (String × Json)) :
    Except (List String) String :=
  match fields.lookup key with
  | none => .error [issue key "Required"]
  | some (.str s) =>
    match checks s with
    | [] => .ok s
    | messages => .error (messages.map (issue key))
  | some v => .error [issue key ("Expected string, received " ++ v.typeName)]

/-- `.min(1, message)` -/
def minOne (message : String) (s : String) : List String := if s.length < 1 then [message] else []

/-- `validateBody` against a schema; `none` is a body that is not JSON. -/
def validateBody (body : Option Json) (schema : List (String × Json) → Except (List String) β) :
    Except AppError β :=
  match body with
  | none => .error (UnprocessableEntity "invalid_json")
  | some (.obj fields) =>
    match schema fields with
    | .ok b => .ok b
    | .error issues => .error (UnprocessableEntity "validation_error" [("issues", .texts issues)])
  | some v =>
    .error (UnprocessableEntity "validation_error"
      [("issues", .texts [issue "" ("Expected object, received " ++ v.typeName)])])

theorem validateBody_status {body : Option Json} {schema : List (String × Json) → Except (List String) β}
    {err : AppError} (h : validateBody body schema = .error err) : err.status = 422 := by
  unfold validateBody at h
  split at h
  next => cases h; rfl
  next =>
    split at h
    next => cases h
    next => cases h; rfl
  next => cases h; rfl

theorem validateBody_ok {body : Option Json} {schema : List (String × Json) → Except (List String) β}
    {b : β} (h : validateBody body schema = .ok b) :
    ∃ fields, body = some (.obj fields) ∧ schema fields = .ok b := by
  unfold validateBody at h
  split at h
  next => cases h
  next fields =>
    split at h
    next b' hschema =>
      cases h
      exact ⟨fields, rfl, hschema⟩
    next => cases h
  next => cases h

def orThrow (r : Except AppError β) : Handler β :=
  match r with
  | .ok b => pure b
  | .error err => throw (.app err)

-- ---------------------------------------------------------------------------
-- Handlers as call trees
-- ---------------------------------------------------------------------------

theorem serve_now_bind (f : Time → Handler Response) :
    Handler.serve (Handler.now >>= f) = .call .now fun t => Handler.serve (f t) := rfl

theorem serve_audit_bind (event : EventData) (f : Unit → Handler Response) :
    Handler.serve (audit event >>= f) =
      .call (.query (.eventLogCreate event)) fun _ => Handler.serve (f ()) := rfl

theorem serve_query_bind (q : Query) (f : q.Reply → Handler Response) :
    Handler.serve (Handler.query q >>= f) = .call (.query q) fun r =>
      match r with
      | .ok v => Handler.serve (f v)
      | .error err => .done (respond (.error (.db err))) := by
  refine congrArg (Prog.call (Call.query q)) (funext fun r => ?_)
  cases r <;> rfl

theorem serve_transaction_bind (tx : Tx ClaimResult) (f : ClaimResult → Handler Response) :
    Handler.serve (Handler.transaction tx >>= f) = .call (.transaction tx) fun r =>
      match r with
      | .ok v => Handler.serve (f v)
      | .error err => .done (respond (.error (.db err))) := by
  refine congrArg (Prog.call (Call.transaction tx)) (funext fun r => ?_)
  cases r <;> rfl

-- ---------------------------------------------------------------------------
-- All the calls of a handler
-- ---------------------------------------------------------------------------

section
variable {P : Call → Prop}

theorem allCalls_query {q : Query} {f : q.Reply → Handler Response} (h : P (.query q))
    (hf : ∀ v, (Handler.serve (f v)).AllCalls P) :
    (Handler.serve (Handler.query q >>= f)).AllCalls P := by
  rw [serve_query_bind]
  refine ⟨h, fun r => ?_⟩
  cases r with
  | error err => trivial
  | ok v => exact hf v

theorem allCalls_now {f : Time → Handler Response} (h : P .now)
    (hf : ∀ t, (Handler.serve (f t)).AllCalls P) :
    (Handler.serve (Handler.now >>= f)).AllCalls P := ⟨h, hf⟩

theorem allCalls_audit {event : EventData} {f : Unit → Handler Response}
    (h : P (.query (.eventLogCreate event))) (hf : (Handler.serve (f ())).AllCalls P) :
    (Handler.serve (audit event >>= f)).AllCalls P := ⟨h, fun _ => hf⟩

theorem allCalls_transaction {tx : Tx ClaimResult} {f : ClaimResult → Handler Response}
    (h : P (.transaction tx)) (hf : ∀ r, (Handler.serve (f r)).AllCalls P) :
    (Handler.serve (Handler.transaction tx >>= f)).AllCalls P := by
  rw [serve_transaction_bind]
  refine ⟨h, fun r => ?_⟩
  cases r with
  | error err => trivial
  | ok r => exact hf r

theorem allCalls_caller {caller : Caller} {f : AuthContext → Handler Response}
    (hf : ∀ ctx, caller = some ctx → (Handler.serve (f ctx)).AllCalls P) :
    (Handler.serve (getAuthContext caller >>= f)).AllCalls P := by
  cases caller with
  | none => trivial
  | some ctx => exact hf ctx rfl

theorem allCalls_orThrow {r : Except AppError β} {f : β → Handler Response}
    (hf : ∀ b, (Handler.serve (f b)).AllCalls P) :
    (Handler.serve (orThrow r >>= f)).AllCalls P := by
  cases r with
  | error err => trivial
  | ok b => exact hf b

end

-- ---------------------------------------------------------------------------
-- How many steps a handler takes
-- ---------------------------------------------------------------------------

def queryCost (_ : Query) (n : Nat) : Prop := n = 1

/-- A transaction takes a step to begin, one for each query, and one to end. -/
def callCost : Call → Nat → Prop
  | .transaction tx, n => ∃ m, n = m + 2 ∧ (ExceptT.run tx).Costs queryCost m
  | _, n => n = 1

theorem callCost_pos {c : Call} {n : Nat} (h : callCost c n) : 0 < n := by
  cases c with
  | query q => exact h ▸ Nat.one_pos
  | now => exact h ▸ Nat.one_pos
  | transaction tx =>
    obtain ⟨m, rfl, -⟩ := h
    exact Nat.succ_pos _

section
variable {n : Nat}

theorem costs_txQuery {q : Query} {f : q.Reply → Tx ClaimResult}
    (hf : ∀ v, (ExceptT.run (f v)).Costs queryCost n) :
    (ExceptT.run (Tx.query q >>= f)).Costs queryCost (n + 1) := by
  refine ⟨1, n, Nat.add_comm n 1, rfl, fun r => ?_⟩
  cases r with
  | error err => trivial
  | ok v => exact hf v

theorem costs_query {q : Query} {f : q.Reply → Handler Response}
    (hf : ∀ v, (Handler.serve (f v)).Costs callCost n) :
    (Handler.serve (Handler.query q >>= f)).Costs callCost (n + 1) := by
  rw [serve_query_bind]
  refine ⟨1, n, Nat.add_comm n 1, rfl, fun r => ?_⟩
  cases r with
  | error err => trivial
  | ok v => exact hf v

theorem costs_now {f : Time → Handler Response}
    (hf : ∀ now, (Handler.serve (f now)).Costs callCost n) :
    (Handler.serve (Handler.now >>= f)).Costs callCost (n + 1) :=
  ⟨1, n, Nat.add_comm n 1, rfl, hf⟩

theorem costs_audit {event : EventData} {r : Response} :
    (Handler.serve (audit event >>= fun _ => pure r)).Costs callCost 1 :=
  ⟨1, 0, rfl, rfl, fun _ => trivial⟩

theorem costs_transaction {tx : Tx ClaimResult} {m : Nat} (h : (ExceptT.run tx).Costs queryCost m)
    {f : ClaimResult → Handler Response} (hf : ∀ v, (Handler.serve (f v)).Costs callCost n) :
    (Handler.serve (Handler.transaction tx >>= f)).Costs callCost (n + (m + 2)) := by
  rw [serve_transaction_bind]
  refine ⟨m + 2, n, Nat.add_comm n (m + 2), ⟨m, rfl, h⟩, fun r => ?_⟩
  cases r with
  | error err => trivial
  | ok v => exact hf v

end

-- ---------------------------------------------------------------------------
-- Requests without interference
-- ---------------------------------------------------------------------------

def Handler.alone (handler : Handler Response) (choices : Nat → Choice) (db : Db) : Db × Response :=
  handler.serve.run Call.exec choices db

section
variable {choices : Nat → Choice} {db : Db}

theorem alone_pure (r : Response) : Handler.alone (pure r) choices db = (db, r) := rfl

theorem alone_throw (err : Thrown) :
    Handler.alone (throw err) choices db = (db, respond (.error err)) := rfl

theorem alone_pure_bind (a : α) (f : α → Handler Response) :
    Handler.alone (pure a >>= f) choices db = (f a).alone choices db := rfl

theorem alone_throw_bind (err : Thrown) (f : α → Handler Response) :
    Handler.alone (throw err >>= f) choices db = (db, respond (.error err)) := rfl

theorem alone_now_bind (f : Time → Handler Response) :
    Handler.alone (Handler.now >>= f) choices db =
      (f (choices 0).now).alone (fun n => choices (n + 1)) db := rfl

theorem alone_audit_bind (event : EventData) (f : Unit → Handler Response) :
    Handler.alone (audit event >>= f) choices db =
      (f ()).alone (fun n => choices (n + 1))
        (Call.exec (choices 0) db (.query (.eventLogCreate event))).1 := rfl

theorem alone_query_fails {q : Query} (f : q.Reply → Handler Response)
    (h : (choices 0).fails = true) :
    Handler.alone (Handler.query q >>= f) choices db =
      (db, respond (.error (.db .unavailable))) := by
  rw [Handler.alone, serve_query_bind, Prog.run_call]
  simp only [Call.exec, Query.exec_of_fails h]
  rfl

theorem alone_query_ok {q : Query} (f : q.Reply → Handler Response) (h : (choices 0).fails = false)
    {v : q.Reply} {db' : Db} (hq : q.answer (choices 0).now db = (db', .ok v)) :
    Handler.alone (Handler.query q >>= f) choices db = (f v).alone (fun n => choices (n + 1)) db' := by
  rw [Handler.alone, serve_query_bind, Prog.run_call]
  simp only [Call.exec, Query.exec_of_not_fails h, hq]
  rfl

theorem alone_query_error {q : Query} (f : q.Reply → Handler Response)
    (h : (choices 0).fails = false) {err : DbError} {db' : Db}
    (hq : q.answer (choices 0).now db = (db', .error err)) :
    Handler.alone (Handler.query q >>= f) choices db = (db', respond (.error (.db err))) := by
  rw [Handler.alone, serve_query_bind, Prog.run_call]
  simp only [Call.exec, Query.exec_of_not_fails h, hq]
  rfl

/-- A read goes through, or the request ends in `internal_error`. -/
theorem alone_read {P : Db × Response → Prop} {q : Query} (f : q.Reply → Handler Response)
    {v : q.Reply} (hq : q.answer (choices 0).now db = (db, .ok v))
    (hfail : P (db, fail "internal_error" 500))
    (hok : P ((f v).alone (fun n => choices (n + 1)) db)) :
    P (Handler.alone (Handler.query q >>= f) choices db) := by
  cases hdown : (choices 0).fails with
  | true =>
    rw [alone_query_fails f hdown]
    exact hfail
  | false =>
    rw [alone_query_ok f hdown hq]
    exact hok

theorem alone_transaction {tx : Tx ClaimResult} (f : ClaimResult → Handler Response)
    (h : (choices 0).fails = false) {r : Except DbError ClaimResult} {db' : Db}
    (ht : tx.commit (choices 0).now db = (db', r)) :
    Handler.alone (Handler.transaction tx >>= f) choices db =
      match r with
      | .ok v => (f v).alone (fun n => choices (n + 1)) db'
      | .error err => (db', respond (.error (.db err))) := by
  rw [Handler.alone, serve_transaction_bind, Prog.run_call]
  simp only [Call.exec, h, Bool.false_eq_true, if_false, ht]
  cases r <;> rfl

end

-- ---------------------------------------------------------------------------
-- Whatever the environment chooses
-- ---------------------------------------------------------------------------

/-- Run alone from `db`, the request ends in `post`. -/
abbrev Finishes (post : Response → Db → Prop) (prog : Prog Call Call.Reply Response) (db : Db) : Prop :=
  prog.Ends Call.exec post db

section
variable {post : Response → Db → Prop} {db : Db}

theorem finishes_now {f : Time → Handler Response}
    (h : ∀ now, Finishes post (Handler.serve (f now)) db) :
    Finishes post (Handler.serve (Handler.now >>= f)) db := fun e => h e.now

/-- A query fails, or it is answered. -/
theorem finishes_query {q : Query} {f : q.Reply → Handler Response}
    (hfail : post (fail "internal_error" 500) db)
    (hok : ∀ now v db', q.answer now db = (db', .ok v) → Finishes post (Handler.serve (f v)) db')
    (herr : ∀ now err db', q.answer now db = (db', .error err) →
      post (fail "internal_error" 500) db') :
    Finishes post (Handler.serve (Handler.query q >>= f)) db := by
  rw [serve_query_bind]
  intro e
  cases hf : e.fails with
  | true =>
    rw [Call.exec, Query.exec_of_fails hf]
    exact hfail
  | false =>
    rw [Call.exec, Query.exec_of_not_fails hf]
    cases hq : q.answer e.now db with
    | mk db' r =>
      cases r with
      | ok v => exact hok e.now v db' hq
      | error err => exact herr e.now err db' hq

theorem finishes_read {q : Query} {f : q.Reply → Handler Response} {v : q.Reply}
    (hv : ∀ now, q.answer now db = (db, .ok v)) (hfail : post (fail "internal_error" 500) db)
    (hok : Finishes post (Handler.serve (f v)) db) :
    Finishes post (Handler.serve (Handler.query q >>= f)) db := by
  refine finishes_query hfail ?_ ?_
  · intro now v' db' heq
    obtain ⟨rfl, rfl⟩ := outcome_ok (hv now) heq
    exact hok
  · intro now err db' heq
    exact (outcome_error heq (hv now)).elim

theorem finishes_audit {event : EventData} {f : Unit → Handler Response}
    (h : ∀ events, Finishes post (Handler.serve (f ())) { db with events := events }) :
    Finishes post (Handler.serve (audit event >>= f)) db := by
  rw [serve_audit_bind]
  intro e
  simp only [Call.exec, Query.exec]
  split
  · exact h db.events
  · exact h _

theorem finishes_transaction {tx : Tx ClaimResult} {f : ClaimResult → Handler Response}
    (hfail : post (fail "internal_error" 500) db)
    (hok : ∀ now v db', tx.commit now db = (db', .ok v) → Finishes post (Handler.serve (f v)) db')
    (herr : ∀ now err db', tx.commit now db = (db', .error err) →
      post (fail "internal_error" 500) db') :
    Finishes post (Handler.serve (Handler.transaction tx >>= f)) db := by
  rw [serve_transaction_bind]
  intro e
  cases hf : e.fails with
  | true =>
    simp only [Call.exec, hf, ↓reduceIte]
    exact hfail
  | false =>
    simp only [Call.exec, hf, Bool.false_eq_true, ↓reduceIte]
    cases hq : tx.commit e.now db with
    | mk db' r =>
      cases r with
      | ok v => exact hok e.now v db' hq
      | error err => exact herr e.now err db' hq

theorem finishes_caller {caller : Caller} {f : AuthContext → Handler Response}
    (hnone : caller = none → post (fail "unauthenticated" 401) db)
    (hsome : ∀ ctx, caller = some ctx → Finishes post (Handler.serve (f ctx)) db) :
    Finishes post (Handler.serve (getAuthContext caller >>= f)) db := by
  cases caller with
  | none => exact hnone rfl
  | some ctx => exact hsome ctx rfl

theorem finishes_orThrow {r : Except AppError β} {f : β → Handler Response}
    (herr : ∀ err, r = .error err → post (fail err.code err.status err.extra) db)
    (hok : ∀ b, r = .ok b → Finishes post (Handler.serve (f b)) db) :
    Finishes post (Handler.serve (orThrow r >>= f)) db := by
  cases r with
  | error err => exact herr err rfl
  | ok b => exact hok b rfl

end

end Rvep.Backend
