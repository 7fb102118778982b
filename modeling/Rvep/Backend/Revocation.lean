import Rvep.Backend.TokenVersions

/-!
# Logging out

A logout bumps the version, so that no refresh token from before it passes the
version check again. A refresh that has checked its token before the logout and
bumps the version after it gets around that, and so does whatever is refreshed
from its token. No other refresh does.
-/

namespace Rvep.Backend

open Interleaving Reactive

variable (pkg : Packages)

abbrev TokenEntry := Entry TokenPool (Event AuthRoute Choice) Unit
abbrev TokenLog := Log TokenPool (Event AuthRoute Choice) Unit

-- ---------------------------------------------------------------------------
-- What a logout revokes
-- ---------------------------------------------------------------------------

/-- A logout of `id` goes through; the version was `ver`. -/
def LogsOut (y : TokenEntry) (id : String) (ver : Int) : Prop :=
  ∃ caller e n, y.before.call? y.event = some (.logout caller, e, n, .query (.userUpdate id bump)) ∧
    e.fails = false ∧ y.before.world.version? id = some ver

/-- Task `i`, a refresh that presents `key`, bumps the version. -/
def Redeems (x : TokenEntry) (i : Nat) (t : TokenTask) (key : String × Int) : Prop :=
  ∃ e, x.event = .step i e ∧ e.fails = false ∧ x.before.tasks[i]? = some t ∧
    t.request.presents pkg = some key ∧ Point.Updates t.prog.point

/-- Versions in tokens of `id` that were issued up to `ver`, or refreshed from such a token. -/
inductive Descends (p : TokenPool) (id : String) (ver : Int) : Int → Prop
  | before {v : Int} : v ≤ ver → Descends p id ver v
  | refreshed {v v' : Int} (t : TokenTask) : t ∈ p.tasks → t.request.presents pkg = some (id, v) →
      Descends p id ver v → t.note = some (id, v') → Descends p id ver v'

/-- Versions in tokens of `id` from a login above `ver`, or refreshed from such a token. -/
inductive SignedInAfter (p : TokenPool) (id : String) (ver : Int) : Int → Prop
  | login {v : Int} (t : TokenTask) (body : Option Json) : t ∈ p.tasks → t.request = .login body →
      t.note = some (id, v) → ver < v → SignedInAfter p id ver v
  | refreshed {v v' : Int} (t : TokenTask) : t ∈ p.tasks → t.request.presents pkg = some (id, v) →
      SignedInAfter p id ver v → t.note = some (id, v') → SignedInAfter p id ver v'

/-- Logouts hold. The versions in issued tokens never exceed the stored one, so
the tokens from before a logout are those up to the version it bumps. -/
structure Revoked (x : TokenEntry) (past : TokenLog) : Prop where
  refused : ∀ i t key, Redeems pkg x i t key → ∀ y ∈ past, ∀ ver, LogsOut y key.1 ver → ver < key.2
  dead : ∀ y ∈ x :: past, ∀ id ver, LogsOut y id ver → ∀ v, Descends pkg x.after id ver v →
    ¬ x.after.world.Accepts (id, v)
  fresh : ∀ y ∈ x :: past, ∀ id ver, LogsOut y id ver → ∀ t ∈ x.after.tasks, ∀ token,
    Issues t token → (tokenKey pkg token).1 = id → x.after.world.Accepts (tokenKey pkg token) →
      SignedInAfter pkg x.after id ver (tokenKey pkg token).2

/-- A refresh bumps the version that waited to do so already when a logout of
its user bumped it. -/
def Overtakes (x : TokenEntry) (past : TokenLog) : Prop :=
  ∃ i t key, Redeems pkg x i t key ∧ ∃ y ∈ past, (∃ ver, LogsOut y key.1 ver) ∧
    y.before.tasks[i]? = some t

/-- A token that is presented and may pass verification was issued before the
run or in it. -/
def PresentsIssued (db : Db) (x : TokenEntry) : Prop :=
  ∀ token, x.event = .spawn (.refresh (some token)) →
    (∀ now, pkg.reject .refresh now token ≠ none) ∨
      db.Reaches (tokenKey pkg token).1 (tokenKey pkg token).2 ∨
        ∃ t ∈ x.before.tasks, Issues t token

section
variable {pkg} {p : TokenPool} {id : String} {ver : Int}

theorem logout_presents {caller : Caller} {key : String × Int} :
    AuthRoute.presents pkg (.logout caller) ≠ some key :=
  fun h => Option.some_ne_none key h.symm

/-- Notes stay. -/
theorem note_persists (h : Drawn pkg p) (e : Event AuthRoute Choice) {t : TokenTask}
    (ht : t ∈ p.tasks) {key : String × Int} (hn : t.note = some key) :
    ∃ t' ∈ (p.step bumpWorld (AuthRoute.handler pkg) e).tasks,
      t'.request = t.request ∧ t'.note = some key := by
  rcases Pool.step_cases bumpWorld (AuthRoute.handler pkg) p e with hsame | ⟨route, hspawn⟩ |
    ⟨i, choice, route, c, k, n, hget, hcall, hstep⟩
  · exact ⟨t, hsame.symm ▸ ht, rfl, hn⟩
  · rw [hspawn]
    exact ⟨t, List.mem_append_left _ ht, rfl, hn⟩
  · rw [hstep]
    obtain ⟨hlt, -⟩ := List.getElem?_eq_some_iff.mp hget
    obtain ⟨j, hj⟩ := List.mem_iff_getElem?.mp ht
    by_cases hij : i = j
    · subst hij
      obtain rfl : t = ⟨route, .call c k, n⟩ := Option.some.inj (hj.symm.trans hget)
      refine ⟨_, List.mem_of_getElem? (List.getElem?_set_self hlt), rfl, ?_⟩
      obtain ⟨-, hdraws, -⟩ := (h.kept.tasks _ ht).guar trivial rfl choice
      rcases hdraws with hsame | ⟨hnone, -⟩
      · exact hsame.trans hn
      · exact absurd (hnone.symm.trans hn).symm (Option.some_ne_none key)
    · exact ⟨t, List.mem_of_getElem? ((List.getElem?_set_ne hij).trans hj), rfl, hn⟩

theorem SignedInAfter.step (h : Drawn pkg p) (e : Event AuthRoute Choice) {v : Int}
    (hv : SignedInAfter pkg p id ver v) :
    SignedInAfter pkg (p.step bumpWorld (AuthRoute.handler pkg) e) id ver v := by
  induction hv with
  | login t body ht hroute hn hlt =>
    obtain ⟨t', ht', hroute', hn'⟩ := note_persists h e ht hn
    exact .login t' body ht' (hroute'.trans hroute) hn' hlt
  | refreshed t ht hkey _ hn ih =>
    obtain ⟨t', ht', hroute', hn'⟩ := note_persists h e ht hn
    exact .refreshed t' ht' (hroute' ▸ hkey) ih hn'

/-- A logout leaves behind the version it found. -/
theorem LogsOut.passes {x : TokenEntry} (h : LogsOut x id ver)
    (hafter : x.after = x.before.step bumpWorld (AuthRoute.handler pkg) x.event) :
    x.after.world.Reaches id (ver + 1) := by
  obtain ⟨caller, e, n, hcall, hfails, hver⟩ := h
  obtain ⟨i, k, -, -, hstep⟩ := Pool.call_cases bumpWorld (AuthRoute.handler pkg) hcall
  obtain ⟨u, hu, -⟩ := Option.map_eq_some_iff.mp hver
  have hanswer : ((Query.userUpdate id bump).answer e.now x.before.world).2 = .ok (u.update bump) := by
    simp only [Query.answer, hu]
  rw [hafter, hstep]
  simp only [bumpWorld, Call.exec, Query.exec_of_not_fails hfails]
  exact (answer_userUpdate e.now (by decide)).2 _ hanswer ver ⟨ver, hver, le_refl _⟩

end

-- ---------------------------------------------------------------------------
-- What holds of a run without overtaking
-- ---------------------------------------------------------------------------

/-- `y` was a logout of `id` that found `ver`: the tokens from before it lead nowhere. -/
structure LogoutHolds (y : TokenEntry) (id : String) (ver : Int) (p : TokenPool) : Prop where
  passed : p.world.Reaches id (ver + 1)
  waiting : ∀ (i : Nat) (t : TokenTask) v, p.tasks[i]? = some t →
    t.request.presents pkg = some (id, v) → v ≤ ver → Point.Updates t.prog.point →
      y.before.tasks[i]? = some t
  old : ∀ t ∈ p.tasks, ∀ v v', t.request.presents pkg = some (id, v) → v ≤ ver →
    t.note = some (id, v') → v' ≤ ver
  lineage : ∀ t ∈ p.tasks, ∀ v, t.request.isLogout = false → t.note = some (id, v) →
    v ≤ ver ∨ SignedInAfter pkg p id ver v

/-- Tokens that are presented and pass verification come from somewhere. -/
def Sourced (db : Db) (p : TokenPool) : Prop :=
  ∀ t ∈ p.tasks, t.request.Verifies pkg → ∀ key, t.request.presents pkg = some key →
    db.Reaches key.1 key.2 ∨ ∃ t' ∈ p.tasks, t'.request.isLogout = false ∧ t'.note = some key

section
variable {pkg} {p : TokenPool} {y : TokenEntry} {id : String} {ver : Int} {db : Db}
  {e : Event AuthRoute Choice}

/-- The version check of a refresh comes before its bump, and no logout between them goes unseen. -/
theorem waits_since (h : Drawn pkg p) {i : Nat} {t : TokenTask} {v : Int}
    (hget : (p.step bumpWorld (AuthRoute.handler pkg) e).tasks[i]? = some t)
    (hkey : t.request.presents pkg = some (id, v)) (hup : Point.Updates t.prog.point) :
    p.tasks[i]? = some t ∨ (∃ choice t₀, e = .step i choice ∧ p.tasks[i]? = some t₀ ∧
      t₀.request = t.request) ∧ p.world.version? id = some v := by
  rcases Pool.task_origin hget with hsame | ⟨request, -, rfl⟩ | ⟨choice, t₀, rfl, hget₀, rfl, -⟩
  · exact .inl hsame
  · exact absurd hup (handler_point_not_updates request hkey)
  · have hreq : t₀.request = (t₀.advance bumpWorld choice p.world).2.request :=
      (Task.advance_request choice p.world).symm
    cases hpoint : t₀.prog.point with
    | finished r =>
      rw [Task.advance_finished hpoint choice p.world] at hup
      obtain ⟨id', data, hq⟩ := hup
      exact absurd (hq.symm.trans hpoint) (waiting_ne_finished _ r)
    | waiting c =>
      have hkept := h.kept.tasks t₀ (List.mem_of_getElem? hget₀)
      obtain ⟨-, -, hcheck⟩ := hkept.guar trivial hpoint choice
      exact .inr ⟨⟨choice, t₀, rfl, hget₀, hreq⟩, hcheck id v (hreq ▸ hkey) hup⟩

/-- The task that logs out presents no token. -/
theorem LogsOut.mover {x : TokenEntry} (h : LogsOut x id ver) {i : Nat} {choice : Choice}
    (he : x.event = .step i choice) {t : TokenTask} (hget : x.before.tasks[i]? = some t) :
    ∃ caller, t.request = .logout caller := by
  obtain ⟨caller, e, n, hcall, -⟩ := h
  obtain ⟨j, k, hej, hgetj⟩ := Pool.task_of_call hcall
  rw [he] at hej
  cases hej
  obtain rfl := Option.some.inj (hget.symm.trans hgetj)
  exact ⟨caller, rfl⟩

theorem LogsOut.found {x : TokenEntry} (h : LogsOut x id ver) :
    x.before.world.version? id = some ver := by
  obtain ⟨_, _, _, -, -, hver⟩ := h
  exact hver

theorem Drawn.le_stored (h : Drawn pkg p) (hver : p.world.version? id = some ver) {t : TokenTask}
    (ht : t ∈ p.tasks) {v : Int} (hn : t.note = some (id, v)) : v ≤ ver := by
  obtain ⟨v', hv', hle⟩ := h.reached ht hn
  obtain rfl : v' = ver := Option.some.inj (hv'.symm.trans hver)
  exact hle

/-- A logout holds right after it. -/
theorem holds_logout (h : Drawn pkg p)
    (hx : LogsOut ⟨p, e, p.step bumpWorld (AuthRoute.handler pkg) e, ()⟩ id ver) :
    LogoutHolds pkg ⟨p, e, p.step bumpWorld (AuthRoute.handler pkg) e, ()⟩ id ver
      (p.step bumpWorld (AuthRoute.handler pkg) e) := by
  have hver : p.world.version? id = some ver := hx.found
  -- the task that moves is the logout, so no note of another task is new
  have hle (t : TokenTask) (ht : t ∈ (p.step bumpWorld (AuthRoute.handler pkg) e).tasks) (v : Int)
      (hroute : t.request.isLogout = false) (hn : t.note = some (id, v)) : v ≤ ver := by
    obtain ⟨i, hi⟩ := List.mem_iff_getElem?.mp ht
    rcases note_origin h hi hn with ⟨t₀, ht₀, -, hn₀⟩ | ⟨-, choice, t₀, data, rfl, -, hget, hreq, -⟩
    · exact h.le_stored hver (List.mem_of_getElem? ht₀) hn₀
    · obtain ⟨caller, hcaller⟩ := hx.mover rfl hget
      rw [← hreq, hcaller] at hroute
      exact absurd hroute Bool.noConfusion
  refine ⟨hx.passes rfl, fun i t v hget hkey _ hup => ?_, fun t ht v v' hkey _ hn => ?_, ?_⟩
  · rcases waits_since h hget hkey hup with hsame | ⟨⟨choice, t₀, rfl, hget₀, hreq⟩, -⟩
    · exact hsame
    · obtain ⟨caller, hcaller⟩ := hx.mover rfl hget₀
      rw [← hreq, hcaller] at hkey
      exact absurd hkey logout_presents
  · obtain ⟨token, hroute, -⟩ := AuthRoute.presents_eq hkey
    exact hle t ht v' (by rw [hroute]; rfl) hn
  · exact fun t ht v hroute hn => .inl (hle t ht v hroute hn)

/-- A refresh that redeems a token from before a logout overtakes it. -/
theorem LogoutHolds.overtakes (hy : LogoutHolds pkg y id ver p) (hlogout : LogsOut y id ver)
    {past : TokenLog} (hmem : y ∈ past) {i : Nat} {choice : Choice} {t : TokenTask} {v : Int}
    (hfails : choice.fails = false) (hget : p.tasks[i]? = some t)
    (hkey : t.request.presents pkg = some (id, v)) (hle : v ≤ ver)
    (hup : Point.Updates t.prog.point) :
    Overtakes pkg ⟨p, .step i choice, p.step bumpWorld (AuthRoute.handler pkg) (.step i choice), ()⟩
      past :=
  ⟨i, t, (id, v), ⟨choice, rfl, hfails, hget, hkey, hup⟩, y, hmem, ⟨ver, hlogout⟩,
    hy.waiting i t v hget hkey hle hup⟩

theorem LogoutHolds.step (h : Drawn pkg p) (hsource : Sourced pkg db p) (hy : LogoutHolds pkg y id ver p)
    (hstart : ∀ v, db.Reaches id v → v ≤ ver) (hlogout : LogsOut y id ver) {past : TokenLog}
    (hmem : y ∈ past)
    (hno : ¬ Overtakes pkg ⟨p, e, p.step bumpWorld (AuthRoute.handler pkg) e, ()⟩ past) :
    LogoutHolds pkg y id ver (p.step bumpWorld (AuthRoute.handler pkg) e) := by
  refine ⟨rotates_step h e _ _ hy.passed, fun i t v hget hkey hle hup => ?_,
    fun t ht v v' hkey hle hn => ?_, fun t ht v hroute hn => ?_⟩
  · rcases waits_since h hget hkey hup with hsame | ⟨-, hnow⟩
    · exact hy.waiting i t v hsame hkey hle hup
    · -- the check would have failed
      obtain ⟨v', hv', hlt⟩ := hy.passed
      obtain rfl : v' = v := Option.some.inj (hv'.symm.trans hnow)
      exact absurd (hlt.trans hle) (not_le.mpr (lt_add_one ver))
  · obtain ⟨i, hi⟩ := List.mem_iff_getElem?.mp ht
    rcases note_origin h hi hn with ⟨t₀, hget, hreq, hn₀⟩ |
      ⟨-, choice, t₀, data, rfl, hfails, hget, hreq, hpoint⟩
    · exact hy.old t₀ (List.mem_of_getElem? hget) v v' (hreq ▸ hkey) hle hn₀
    · exact absurd (hy.overtakes hlogout hmem hfails hget (hreq ▸ hkey) hle ⟨_, _, hpoint⟩) hno
  · obtain ⟨i, hi⟩ := List.mem_iff_getElem?.mp ht
    rcases note_origin h hi hn with ⟨t₀, hget, hreq, hn₀⟩ |
      ⟨-, choice, t₀, data, rfl, hfails, hget, hreq, hpoint⟩
    · exact (hy.lineage t₀ (List.mem_of_getElem? hget) v (hreq ▸ hroute) hn₀).imp_right (·.step h e)
    · cases hbody : t.request with
      | logout caller =>
        rw [hbody] at hroute
        exact absurd hroute Bool.noConfusion
      | login body =>
        by_cases hlt : ver < v
        · exact .inr (.login t body ht hbody hn hlt)
        · exact .inl (not_lt.mp hlt)
      | refresh cookie =>
        have ht₀ := List.mem_of_getElem? hget
        obtain ⟨id', v₀, hkey, -, hat, hverifies⟩ :=
          ((h.kept.tasks t₀ ht₀).here trivial).waits cookie (hreq.trans hbody) ⟨_, _, hpoint⟩
        obtain rfl : id = id' := by
          have heq := hpoint.symm.trans hat
          cases heq
          rfl
        have hfresh : SignedInAfter pkg p id ver v₀ := by
          have hnot : ¬ v₀ ≤ ver := fun hle =>
            hno (hy.overtakes hlogout hmem hfails hget hkey hle ⟨_, _, hpoint⟩)
          rcases hsource t₀ ht₀ hverifies _ hkey with hold | ⟨t', ht', hroute', hn'⟩
          · exact absurd (hstart v₀ hold) hnot
          · exact (hy.lineage t' ht' v₀ hroute' hn').resolve_left hnot
        exact .inr (.refreshed t ht (hreq ▸ hkey) (hfresh.step h _) hn)

theorem sourced_start (db : Db) : Sourced pkg db (tokenSystem pkg db).init :=
  fun _ ht => absurd ht List.not_mem_nil

theorem Sourced.step (hjose : RoundTrips pkg) (h : Drawn pkg p) (hsource : Sourced pkg db p)
    (hissued : PresentsIssued pkg db ⟨p, e, p.step bumpWorld (AuthRoute.handler pkg) e, ()⟩) :
    Sourced pkg db (p.step bumpWorld (AuthRoute.handler pkg) e) := by
  intro t ht hverifies key hkey
  have hnext (hold : db.Reaches key.1 key.2 ∨
      ∃ t' ∈ p.tasks, t'.request.isLogout = false ∧ t'.note = some key) :
      db.Reaches key.1 key.2 ∨ ∃ t' ∈ (p.step bumpWorld (AuthRoute.handler pkg) e).tasks,
        t'.request.isLogout = false ∧ t'.note = some key := by
    refine hold.imp_right ?_
    rintro ⟨t', ht', hroute, hn⟩
    obtain ⟨t'', ht'', hreq, hn'⟩ := note_persists h e ht' hn
    exact ⟨t'', ht'', hreq ▸ hroute, hn'⟩
  obtain ⟨i, hi⟩ := List.mem_iff_getElem?.mp ht
  rcases Pool.task_origin hi with hsame | ⟨request, rfl, rfl⟩ | ⟨choice, t₀, rfl, hget, rfl, -⟩
  · exact hnext (hsource t (List.mem_of_getElem? hsame) hverifies key hkey)
  · obtain ⟨token, now, rfl, -, hok⟩ := hverifies
    obtain ⟨token', hroute, rfl⟩ := AuthRoute.presents_eq hkey
    cases hroute
    rcases hissued token rfl with hrejected | hbefore | ⟨t', ht', hissues⟩
    · exact absurd hok (hrejected now)
    · exact .inl hbefore
    · obtain ⟨hlogin, hn⟩ := h.key_of_issues hjose ht' hissues
      exact hnext (.inr ⟨t', ht', hlogin, hn⟩)
  · rw [Task.advance_request] at hverifies hkey
    exact hnext (hsource t₀ (List.mem_of_getElem? hget) hverifies key hkey)

-- ---------------------------------------------------------------------------
-- Every interleaving
-- ---------------------------------------------------------------------------

/-- An entry of a log starts where the entries before it end. -/
theorem before_of_mem (db : Db) (es : List (Event AuthRoute Choice)) {x : TokenEntry}
    (hx : x ∈ (tokenSystem pkg db).log es) : Drawn pkg x.before ∧
      x.after = x.before.step bumpWorld (AuthRoute.handler pkg) x.event := by
  induction es with
  | nil => exact absurd hx List.not_mem_nil
  | cons e es ih =>
    rcases List.mem_cons.mp hx with rfl | hx
    · exact ⟨drawn_run pkg db es, rfl⟩
    · exact ih hx

variable (pkg) in
/-- What is known of a run that no refresh has overtaken a logout in. -/
structure Revocable (db : Db) (l : TokenLog) (p : TokenPool) : Prop where
  source : Sourced pkg db p
  holds : ∀ y ∈ l, ∀ id ver, LogsOut y id ver →
    LogoutHolds pkg y id ver p ∧ ∀ v, db.Reaches id v → v ≤ ver

theorem revocable_run (hjose : RoundTrips pkg) (db : Db) (es : List (Event AuthRoute Choice))
    (hissued : Always (fun x _ => PresentsIssued pkg db x) ((tokenSystem pkg db).log es))
    (hno : Always (fun x past => ¬ Overtakes pkg x past) ((tokenSystem pkg db).log es)) :
    Revocable pkg db ((tokenSystem pkg db).log es)
      ((tokenSystem pkg db).state ((tokenSystem pkg db).log es)) := by
  induction es with
  | nil => exact ⟨sourced_start db, fun y hy => absurd hy List.not_mem_nil⟩
  | cons e es ih =>
    obtain ⟨hsource, hholds⟩ := ih hissued.2 hno.2
    have hdrawn := drawn_run pkg db es
    refine ⟨hsource.step hjose hdrawn hissued.1, fun y hy id ver hlogout => ?_⟩
    rcases List.mem_cons.mp hy with rfl | hy
    · refine ⟨holds_logout hdrawn hlogout, fun v hv => ?_⟩
      have hrot := rotates_run pkg db es []
      rw [List.append_nil] at hrot
      obtain ⟨v', hv', hle⟩ := hrot _ _ hv
      obtain rfl : v' = ver := Option.some.inj (hv'.symm.trans hlogout.found)
      exact hle
    · obtain ⟨hold, hstart⟩ := hholds y hy id ver hlogout
      exact ⟨hold.step hdrawn hsource hstart hlogout hy hno.1, hstart⟩

theorem Descends.le (hy : LogoutHolds pkg y id ver p) {v : Int}
    (hv : Descends pkg p id ver v) : v ≤ ver := by
  induction hv with
  | before hle => exact hle
  | refreshed t ht hkey _ hn ih => exact hy.old t ht _ _ hkey ih hn

theorem LogoutHolds.not_accepts (hy : LogoutHolds pkg y id ver p) {v : Int} (hle : v ≤ ver) :
    ¬ p.world.Accepts (id, v) := by
  intro haccepts
  obtain ⟨v', hv', hlt⟩ := hy.passed
  obtain rfl : v' = v := Option.some.inj (hv'.symm.trans haccepts)
  exact absurd (hlt.trans hle) (not_le.mpr (lt_add_one ver))

/-- A refresh waits with a token whose version has been reached. -/
theorem Drawn.presented (h : Drawn pkg p) {t : TokenTask} (ht : t ∈ p.tasks) {key : String × Int}
    (hkey : t.request.presents pkg = some key) (hup : Point.Updates t.prog.point) :
    p.world.Reaches key.1 key.2 := by
  obtain ⟨token, hroute, -⟩ := AuthRoute.presents_eq hkey
  obtain ⟨id, ver, hkey', hreach, -⟩ := ((h.kept.tasks t ht).here trivial).waits _ hroute hup
  obtain rfl : key = (id, ver) := Option.some.inj (hkey.symm.trans hkey')
  exact hreach

theorem not_revoked (db : Db) (es : List (Event AuthRoute Choice)) {x : TokenEntry}
    (hover : Overtakes pkg x ((tokenSystem pkg db).log es)) :
    ¬ Revoked pkg x ((tokenSystem pkg db).log es) := by
  rintro ⟨hrefused, -, -⟩
  obtain ⟨i, t, key, hredeems, y, hy, ⟨ver, hlogout⟩, hget⟩ := hover
  have hlt : ver < key.2 := hrefused i t key hredeems y hy ver hlogout
  -- it was waiting to bump before the logout, so its token is from before it
  obtain ⟨_, -, -, -, hkey, hup⟩ := hredeems
  obtain ⟨hdrawn, -⟩ := before_of_mem db es hy
  obtain ⟨v, hv, hle⟩ := hdrawn.presented (List.mem_of_getElem? hget) hkey hup
  obtain rfl : v = ver := Option.some.inj (hv.symm.trans hlogout.found)
  exact absurd hlt (not_lt.mpr hle)

theorem revoked_of_revocable (hjose : RoundTrips pkg) {past : TokenLog}
    (hbefore : Revocable pkg db past p) (hdrawn : Drawn pkg (p.step bumpWorld (AuthRoute.handler pkg) e))
    (hafter : Revocable pkg db (⟨p, e, p.step bumpWorld (AuthRoute.handler pkg) e, ()⟩ :: past)
      (p.step bumpWorld (AuthRoute.handler pkg) e))
    (hno : ¬ Overtakes pkg ⟨p, e, p.step bumpWorld (AuthRoute.handler pkg) e, ()⟩ past) :
    Revoked pkg ⟨p, e, p.step bumpWorld (AuthRoute.handler pkg) e, ()⟩ past := by
  refine ⟨fun i t key hredeems y hy ver hlogout => ?_, fun y hy id ver hlogout v hv => ?_,
    fun y hy id ver hlogout t ht token hissues hid haccepts => ?_⟩
  · obtain ⟨hholds, -⟩ := hbefore.holds y hy key.1 ver hlogout
    obtain ⟨choice, he, hfails, hget, hkey, hup⟩ := id hredeems
    by_contra hle
    have hsince := hholds.waiting i t key.2 hget hkey (not_lt.mp hle) hup
    exact hno ⟨i, t, key, hredeems, y, hy, ⟨ver, hlogout⟩, hsince⟩
  · obtain ⟨hholds, -⟩ := hafter.holds y hy id ver hlogout
    exact hholds.not_accepts (hv.le hholds)
  · obtain ⟨hholds, -⟩ := hafter.holds y hy id ver hlogout
    obtain ⟨hlogin, hn⟩ := hdrawn.key_of_issues hjose ht hissues
    subst hid
    rcases hholds.lineage t ht _ hlogin hn with hle | hfresh
    · exact absurd haccepts (hholds.not_accepts hle)
    · exact hfresh

end

/-- Logouts hold in every run exactly if no refresh that had checked its token
before a logout bumps the version after it. -/
theorem logouts_hold_iff (hjose : RoundTrips pkg) (db : Db) (es : List (Event AuthRoute Choice))
    (hissued : Always (fun x _ => PresentsIssued pkg db x) ((tokenSystem pkg db).log es)) :
    Always (fun x past => Revoked pkg x past) ((tokenSystem pkg db).log es) ↔
      Always (fun x past => ¬ Overtakes pkg x past) ((tokenSystem pkg db).log es) := by
  induction es with
  | nil => exact Iff.rfl
  | cons e es ih =>
    have hiff := ih hissued.2
    constructor
    · rintro ⟨hrevoked, hpast⟩
      exact ⟨fun hover => not_revoked db es hover hrevoked, hiff.mp hpast⟩
    · rintro ⟨hno, hpast⟩
      refine ⟨?_, hiff.mpr hpast⟩
      exact revoked_of_revocable hjose (revocable_run hjose db es hissued.2 hpast)
        (drawn_run pkg db (e :: es)) (revocable_run hjose db (e :: es) hissued ⟨hno, hpast⟩) hno

private def phone : Db where
  users := [⟨"u1", "op@rvep.dev", "Pass1234!", .operator, 0, none, 3⟩]
  vehicles := []
  permissions := []
  sessions := []
  leases := []
  events := []

private def goes (task count : Nat) : List (Event AuthRoute Choice) :=
  List.replicate count (.step task ⟨1000, false⟩)

private def presentsOnly (token : String) : Event AuthRoute Choice → Bool
  | .spawn (.refresh cookie) => cookie == some token
  | _ => true

private theorem presentsIssued_of_only {pkg : Packages} {db : Db} {token : String} {x : TokenEntry}
    (h : presentsOnly token x.event = true)
    (hbefore : db.Reaches (tokenKey pkg token).1 (tokenKey pkg token).2) :
    PresentsIssued pkg db x := by
  intro token' hspawn
  rw [hspawn] at h
  obtain rfl : token' = token := by simpa [presentsOnly] using h
  exact .inr (.inl hbefore)

private def oldToken : Claims := ⟨"u1", .operator, some 3, 0, refreshTtlSeconds⟩

/-- A login, answered, and a logout after it. Newest first. -/
def loginLogout : List (Event AuthRoute Choice) :=
  goes 1 2 ++ [.spawn (.logout (some ⟨"u1", .operator⟩))] ++ goes 0 6 ++
    [.spawn (.login (some (.obj [("email", .str "op@rvep.dev"), ("password", .str "Pass1234!")])))]

theorem logouts_hold_login_logout :
    Always (fun x past => Revoked spelledTokens x past) ((tokenSystem spelledTokens phone).log loginLogout) := by
  have hkey : tokenKey spelledTokens oldToken.spell = ("u1", 3) := by
    simp only [tokenKey, spelledTokens, Claims.read_spell]
    rfl
  have honly : Always (fun x _ => presentsOnly oldToken.spell x.event = true)
      ((tokenSystem spelledTokens phone).log loginLogout) := by
    decide +kernel
  have hnone : Always (fun x _ => ∀ t ∈ x.before.tasks, t.request.presents spelledTokens = none)
      ((tokenSystem spelledTokens phone).log loginLogout) := by decide +kernel
  refine (logouts_hold_iff spelledTokens spelledTokens_roundTrips phone loginLogout ?_).mpr ?_
  · exact honly.imp fun _ _ h => presentsIssued_of_only h (by rw [hkey]; exact ⟨3, rfl, le_refl 3⟩)
  · refine hnone.imp ?_
    rintro x past hpresents ⟨i, t, key, ⟨_, -, -, hget, hkey, -⟩, -⟩
    exact Option.some_ne_none key (hkey.symm.trans (hpresents t (List.mem_of_getElem? hget)))

private def jwt : Packages where
  sign key claims :=
    match key, claims.ver with
    | .refresh, some 5 => "refresh-5"
    | _, _ => "access"
  decode token :=
    { sub := "u1", role := .operator
      ver := if token = "refresh-3" then some 3 else if token = "refresh-5" then some 5 else none
      iat := 0, exp := refreshTtlSeconds }
  reject _ _ _ := none
  comparePassword password passwordHash := password == passwordHash
  isEmail _ := true

/-- A logout goes through between the version check of a refresh and its bump. Newest first. -/
def logoutRace : List (Event AuthRoute Choice) :=
  goes 0 4 ++ goes 1 2 ++ goes 0 2 ++
    [.spawn (.logout (some ⟨"u1", .operator⟩)), .spawn (.refresh (some "refresh-3"))]

/-- The token from before the logout is redeemed after it, and the token it is
exchanged for is accepted. -/
theorem logout_race_keeps_session :
    Always (fun x _ => PresentsIssued jwt phone x) ((tokenSystem jwt phone).log logoutRace) ∧
      ¬ Always (fun x past => Revoked jwt x past) ((tokenSystem jwt phone).log logoutRace) := by
  have honly : Always (fun x _ => presentsOnly "refresh-3" x.event = true)
      ((tokenSystem jwt phone).log logoutRace) := by decide +kernel
  refine ⟨honly.imp fun _ _ h => presentsIssued_of_only h ⟨3, rfl, le_refl 3⟩, fun h => ?_⟩
  refine h.1.dead _ (List.mem_of_getElem? (i := 5) rfl) "u1" 3 ⟨_, _, _, rfl, rfl, rfl⟩ 5
    (.refreshed _ (List.mem_of_getElem? (i := 0) rfl) rfl (.before (le_refl 3)) rfl) rfl

end Rvep.Backend
