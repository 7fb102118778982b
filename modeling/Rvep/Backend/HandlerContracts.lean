import Rvep.Backend.Api

/-!
# Proof rules for handlers under a contract

One rule for each way a handler meets the database: `Contract.Kept` of the
whole handler from `Contract.Kept` of what follows the call.
-/

namespace Rvep.Backend

open Interleaving

variable {τ ε ν : Type} {world : World Call Call.Reply Db ε ν} {env : ε → Choice}
  {C : Contract τ Call Response Db ε ν} {route : τ} {n : ν} {db : Db}

/-- The calls of the world are the database's, in the environments of `env`. -/
def Runs (world : World Call Call.Reply Db ε ν) (env : ε → Choice) : Prop :=
  ∀ e db c, world.exec e db c = Call.exec (env e) db c

theorem kept_done {r : Response}
    (h : ∀ db', C.rely db db' → C.inv db' → C.here route n (.finished r) db') :
    C.Kept world route n (.done r) db := h

theorem kept_caller {caller : Caller} {f : AuthContext → Handler Response}
    (hnone : caller = none → C.Kept world route n (.done (fail "unauthenticated" 401)) db)
    (hsome : ∀ ctx, caller = some ctx → C.Kept world route n (Handler.serve (f ctx)) db) :
    C.Kept world route n (Handler.serve (getAuthContext caller >>= f)) db := by
  cases caller with
  | none => exact hnone rfl
  | some ctx => exact hsome ctx rfl

theorem kept_orThrow {r : Except AppError β} {f : β → Handler Response}
    (herr : ∀ err, r = .error err →
      C.Kept world route n (.done (fail err.code err.status err.extra)) db)
    (hok : ∀ b, r = .ok b → C.Kept world route n (Handler.serve (f b)) db) :
    C.Kept world route n (Handler.serve (orThrow r >>= f)) db := by
  cases r with
  | error err => exact herr err rfl
  | ok b => exact hok b rfl

section
variable (hw : Runs world env)
include hw

theorem kept_now {f : Time → Handler Response}
    (hhere : ∀ db', C.rely db db' → C.inv db' → C.here route n (.waiting .now) db')
    (hguar : ∀ db' e n' p, C.rely db db' → C.inv db' → C.guar route e n .now db' n' p db')
    (hk : ∀ db' e, C.rely db db' → C.inv db' →
      C.Kept world route (world.observe n db' .now (env e).now) (Handler.serve (f (env e).now)) db') :
    C.Kept world route n (Handler.serve (Handler.now >>= f)) db := by
  rw [serve_now_bind]
  intro db' hrely hinv
  refine ⟨hhere db' hrely hinv, fun e => ?_⟩
  rw [hw]
  exact ⟨hguar db' e _ _ hrely hinv, fun _ => hk db' e hrely hinv⟩

theorem kept_query {q : Query} {f : q.Reply → Handler Response}
    (hhere : ∀ db', C.rely db db' → C.inv db' → C.here route n (.waiting (.query q)) db')
    (hguar : ∀ db' e n' p, C.rely db db' → C.inv db' →
      C.guar route e n (.query q) db' n' p (q.exec (env e) db').1)
    (hfail : ∀ db', C.rely db db' → C.inv db' →
      C.Kept world route (world.observe n db' (.query q) (.error .unavailable))
        (.done (fail "internal_error" 500)) db')
    (hok : ∀ db' now v db'', C.rely db db' → C.inv db' → C.inv db'' →
      q.answer now db' = (db'', .ok v) →
        C.Kept world route (world.observe n db' (.query q) (.ok v)) (Handler.serve (f v)) db'')
    (herr : ∀ db' now err db'', C.rely db db' → C.inv db' → C.inv db'' →
      q.answer now db' = (db'', .error err) →
        C.Kept world route (world.observe n db' (.query q) (.error err))
          (.done (fail "internal_error" 500)) db'') :
    C.Kept world route n (Handler.serve (Handler.query q >>= f)) db := by
  rw [serve_query_bind]
  intro db' hrely hinv
  refine ⟨hhere db' hrely hinv, fun e => ?_⟩
  rw [hw]
  refine ⟨hguar db' e _ _ hrely hinv, fun hinv' => ?_⟩
  simp only [Call.exec] at hinv' ⊢
  cases hf : (env e).fails with
  | true =>
    rw [Query.exec_of_fails hf]
    exact hfail db' hrely hinv
  | false =>
    rw [Query.exec_of_not_fails hf] at hinv' ⊢
    cases hq : q.answer (env e).now db' with
    | mk db'' r =>
      rw [hq] at hinv'
      cases r with
      | ok v => exact hok db' _ v db'' hrely hinv hinv' hq
      | error err => exact herr db' _ err db'' hrely hinv hinv' hq

theorem kept_read {q : Query} {f : q.Reply → Handler Response} (hq : q.isRead = true)
    (hhere : ∀ db', C.rely db db' → C.inv db' → C.here route n (.waiting (.query q)) db')
    (hguar : ∀ db' e n' p, C.rely db db' → C.inv db' → C.guar route e n (.query q) db' n' p db')
    (hfail : ∀ db', C.rely db db' → C.inv db' →
      C.Kept world route (world.observe n db' (.query q) (.error .unavailable))
        (.done (fail "internal_error" 500)) db')
    (hok : ∀ db' v, C.rely db db' → C.inv db' → (∀ now, q.answer now db' = (db', .ok v)) →
      C.Kept world route (world.observe n db' (.query q) (.ok v)) (Handler.serve (f v)) db') :
    C.Kept world route n (Handler.serve (Handler.query q >>= f)) db := by
  refine kept_query hw hhere ?_ hfail ?_ ?_
  · intro db' e n' p hrely hinv
    rw [Query.exec_isRead hq]
    exact hguar db' e n' p hrely hinv
  · intro db' now v db'' hrely hinv _ heq
    obtain ⟨v', hv⟩ := Query.answer_isRead hq db'
    obtain ⟨rfl, rfl⟩ := outcome_ok (hv now) heq
    exact hok db' v' hrely hinv hv
  · intro db' now err db'' _ _ _ heq
    obtain ⟨v', hv⟩ := Query.answer_isRead hq db'
    exact (outcome_error heq (hv now)).elim

theorem kept_audit {event : EventData} {f : Unit → Handler Response}
    (hhere : ∀ db', C.rely db db' → C.inv db' →
      C.here route n (.waiting (.query (.eventLogCreate event))) db')
    (hguar : ∀ db' events e n' p, C.rely db db' → C.inv db' →
      C.guar route e n (.query (.eventLogCreate event)) db' n' p { db' with events := events })
    (hk : ∀ db' events r, C.rely db db' → C.inv db' →
      C.Kept world route (world.observe n db' (.query (.eventLogCreate event)) r)
        (Handler.serve (f ())) { db' with events := events }) :
    C.Kept world route n (Handler.serve (audit event >>= f)) db := by
  rw [serve_audit_bind]
  intro db' hrely hinv
  refine ⟨hhere db' hrely hinv, fun e => ?_⟩
  rw [hw]
  simp only [Call.exec, Query.exec]
  split
  · exact ⟨hguar db' db'.events e _ _ hrely hinv, fun _ => hk db' db'.events _ hrely hinv⟩
  · exact ⟨hguar db' _ e _ _ hrely hinv, fun _ => hk db' _ _ hrely hinv⟩

theorem kept_transaction {tx : Tx ClaimResult} {f : ClaimResult → Handler Response}
    (hhere : ∀ db', C.rely db db' → C.inv db' → C.here route n (.waiting (.transaction tx)) db')
    (hguar : ∀ db' e n' p, C.rely db db' → C.inv db' →
      C.guar route e n (.transaction tx) db' n' p (Call.exec (env e) db' (.transaction tx)).1)
    (hfail : ∀ db', C.rely db db' → C.inv db' →
      C.Kept world route (world.observe n db' (.transaction tx) (.error .unavailable))
        (.done (fail "internal_error" 500)) db')
    (hok : ∀ db' now v db'', C.rely db db' → C.inv db' → C.inv db'' →
      tx.commit now db' = (db'', .ok v) →
        C.Kept world route (world.observe n db' (.transaction tx) (.ok v)) (Handler.serve (f v)) db'')
    (herr : ∀ db' now err db'', C.rely db db' → C.inv db' → C.inv db'' →
      tx.commit now db' = (db'', .error err) →
        C.Kept world route (world.observe n db' (.transaction tx) (.error err))
          (.done (fail "internal_error" 500)) db'') :
    C.Kept world route n (Handler.serve (Handler.transaction tx >>= f)) db := by
  rw [serve_transaction_bind]
  intro db' hrely hinv
  refine ⟨hhere db' hrely hinv, fun e => ?_⟩
  rw [hw]
  refine ⟨hguar db' e _ _ hrely hinv, fun hinv' => ?_⟩
  simp only [Call.exec] at hinv' ⊢
  cases hf : (env e).fails with
  | true =>
    simp only [↓reduceIte]
    exact hfail db' hrely hinv
  | false =>
    simp only [hf, Bool.false_eq_true, ↓reduceIte] at hinv' ⊢
    cases hq : tx.commit (env e).now db' with
    | mk db'' r =>
      rw [hq] at hinv'
      cases r with
      | ok v => exact hok db' _ v db'' hrely hinv hinv' hq
      | error err => exact herr db' _ err db'' hrely hinv hinv' hq

end

end Rvep.Backend
