import Rvep.Backend.RaceProgress

/-!
# The outcome of a race

Which races end with one claim granted and the others told by whom the
vehicle is taken: those in which only one transaction starts while the vehicle
is free. A second one that starts free is not denied, so it is granted as well
or fails.
-/

namespace Rvep.Backend

open Interleaving Reactive Serializable

variable {start : Db} {vehicle : Vehicle}

-- ---------------------------------------------------------------------------
-- Before the vehicle is taken
-- ---------------------------------------------------------------------------

/-- Nothing has committed, and whoever is in its transaction began before anything did. -/
structure Race.Untaken (r : Race start vehicle) : Prop where
  server : r.server = ⟨start, []⟩
  racers : ∀ (i : Nat) (t : Racer start vehicle), r.racers[i]? = some t →
    t.At .before ∨ t.At (.inside start 0)

/-- Racer `w` has its lease, `row`; the others have not begun, have begun since,
or know that they have lost. -/
structure Race.Taken (r : Race start vehicle) (w : Nat) (row : LeaseRow) : Prop where
  leases : r.server.db.leases = start.leases ++ [row]
  active : row.vehicleId = vehicle.id ∧ row.status = .active
  winner : ∃ t lease, r.racers[w]? = some t ∧ t.At (.after (.ok (.created lease))) ∧
    t.startedFree = some true ∧ t.contender.ctx.userId = row.operatorId ∧
      t.contender.session.id = row.sessionId
  losers : ∀ (j : Nat) (t : Racer start vehicle), j ≠ w → r.racers[j]? = some t →
    t.At .before ∨
      (∃ snapshot since, t.At (.inside snapshot since) ∧ snapshot.leases = start.leases ++ [row]) ∨
        t.At (.after (.ok (.denied row.operatorId row.sessionId)))

section
variable {claims : List (Contender start vehicle)} {r : Race start vehicle} {i : Nat} {now : Time}
  {t : Racer start vehicle} {db : Db} {row : LeaseRow}

/-- Where nobody had a lease of the vehicle, the one that has been added is the only one. -/
theorem held_of_leases (hnone : ∀ i, ¬ start.ActiveAt vehicle.id i)
    (hrow : row.vehicleId = vehicle.id ∧ row.status = .active)
    (h : db.leases = start.leases ++ [row]) : db.Held start.leases.length row where
  here := by rw [h, List.getElem?_append_right (le_refl _), Nat.sub_self]; rfl
  active := hrow.2
  only j hj := by
    have hins : ∀ base : Db, base.Inserts row.vehicleId
        { base with leases := base.leases ++ [row] } := fun base => inserts_append hrow.2
    rcases ((hins start).2 row.vehicleId j).mp ((Db.ActiveAt.congr h).mp hj) with hj | ⟨-, rfl⟩
    · exact absurd (hrow.1 ▸ hj) (hnone j)
    · rfl

theorem free_of_none (hnone : ∀ i, ¬ start.ActiveAt vehicle.id i) (now : Time) :
    start.free vehicle.id now = true := by
  rw [Db.free, Option.isNone_iff_eq_none]
  cases hl : start.activeLease? vehicle.id (some now) with
  | none => rfl
  | some lease => exact absurd (activeLease?_some hl) (hnone lease.id)

theorem deniedBy_of_not_free (hheld : db.Held i row) (hv : row.vehicleId = vehicle.id)
    {userId : String} (hu : row.operatorId ≠ userId) (h : db.free vehicle.id now = false) :
    db.DeniedBy vehicle.id userId now ⟨row, i⟩ := by
  obtain ⟨lease, hl⟩ := Option.isSome_iff_exists.mp (Option.isNone_eq_false_iff.mp h)
  obtain ⟨hrow, -, -, hlt⟩ := activeLease?_row hl
  obtain ⟨lease, id⟩ := lease
  rw [← hv] at hl ⊢
  obtain rfl : id = i := hheld.only id (activeLease?_some hl)
  obtain rfl : row = lease := Option.some.inj (hheld.here.symm.trans hrow)
  exact ⟨hheld.activeLease? (fun _ ht => absurd ht (Option.not_mem_none _)), hlt now rfl, hu⟩

theorem untaken_start (claims : List (Contender start vehicle)) : (claimRace claims).init.Untaken := by
  refine ⟨rfl, fun i t ht => ?_⟩
  obtain ⟨c, -, rfl⟩ := List.mem_map.mp (List.mem_of_getElem? ht)
  exact .inl ⟨_, rfl, rfl, approaches_claim c 0⟩

theorem Race.Untaken.step (h : r.Untaken) (hnone : ∀ i, ¬ start.ActiveAt vehicle.id i) (i : Nat)
    (now : Time) (hone : (r.step i now).OneStartsFree) :
    (r.step i now).Untaken ∨ ∃ row, (r.step i now).Taken i row := by
  cases hget : r.racers[i]? with
  | none => exact .inl (by rwa [Race.step_none hget])
  | some t =>
    have hserver : (r.step i now).server = (t.act r.server (r.others i) now).1 := by
      rw [Race.step_some hget]
    have hstays (hs : (t.act r.server (r.others i) now).1 = r.server)
        (ha : (t.act r.server (r.others i) now).2.At .before ∨
          (t.act r.server (r.others i) now).2.At (.inside start 0)) : (r.step i now).Untaken := by
      refine ⟨(hserver.trans hs).trans h.server, fun j t' hj => ?_⟩
      rcases Race.step_racer hget hj with ⟨-, hj⟩ | ⟨rfl, rfl⟩
      · exact h.racers j t' hj
      · exact ha
    rcases h.racers i t hget with ha | ha
    · have hs : start.SameTables r.server.db := h.server.symm ▸ .refl start
      obtain ⟨hsame, hnext⟩ := act_before _ (r.others i) now ha hs
      refine .inl (hstays hsame ?_)
      rw [h.server] at hnext ⊢
      exact hnext
    · rcases act_winner _ (r.others i) now hnone ha h.server with
        ⟨hsame, ha'⟩ | ⟨began, lease, hleases, ha'⟩
      · exact .inl (hstays hsame (.inr ha'))
      · obtain ⟨_, _, hinside⟩ := id ha
        have hfree : (t.act r.server (r.others i) now).2.startedFree = some true :=
          (act_inside _ _ _ ha).1.trans (hinside.startedFree.trans (congrArg some (free_of_none hnone _)))
        refine .inr ⟨_, (congrArg (·.db.leases) hserver).trans hleases, ⟨rfl, rfl⟩, ?_, ?_⟩
        · refine ⟨_, lease, Race.step_self hget, ha', hfree, ?_, ?_⟩
          · rw [act_contender]; rfl
          · rw [act_contender]; rfl
        · intro j t' hji hj
          rcases Race.step_racer hget hj with ⟨-, hj'⟩ | ⟨rfl, -⟩
          · rcases h.racers j t' hj' with hb | hb
            · exact .inl hb
            · -- a second transaction on the same snapshot also started free
              obtain ⟨_, _, hinside'⟩ := hb
              have hfree' : t'.startedFree = some true :=
                hinside'.startedFree.trans (congrArg some (free_of_none hnone _))
              exact absurd (hone j i ⟨t', hj, hfree'⟩ ⟨_, Race.step_self hget, hfree⟩) hji
          · exact absurd rfl hji

theorem Race.Taken.step {w : Nat} (h : r.Taken w row) (hsound : r.Sound claims)
    (hd : (claims.map (·.ctx.userId)).Nodup) (hnone : ∀ i, ¬ start.ActiveAt vehicle.id i) (i : Nat)
    (now : Time) (hone : r.OneStartsFree) : (r.step i now).Taken w row := by
  obtain ⟨tw, lease, hw, haw, hfreew, huser, hsession⟩ := h.winner
  cases hget : r.racers[i]? with
  | none => rwa [Race.step_none hget]
  | some t =>
    have hserver : (r.step i now).server = (t.act r.server (r.others i) now).1 := by
      rw [Race.step_some hget]
    by_cases hiw : i = w
    · subst hiw
      obtain rfl : tw = t := Option.some.inj (hw.symm.trans hget)
      obtain ⟨⟨events, hevents⟩, ha, hfree⟩ :=
        act_after r.server (r.others i) now haw
      refine ⟨?_, h.active, ⟨_, lease, Race.step_self hget, ha, hfree.trans hfreew, ?_, ?_⟩, ?_⟩
      · rw [hserver, hevents]
        exact h.leases
      · rw [act_contender, huser]
      · rw [act_contender, hsession]
      · intro j t' hji hj
        rw [Race.step_ne hget hji] at hj
        exact h.losers j t' hji hj
    · have hlost (hleases : (t.act r.server (r.others i) now).1.db.leases = r.server.db.leases)
          (ha : (t.act r.server (r.others i) now).2.At .before ∨
            (∃ snapshot since, (t.act r.server (r.others i) now).2.At (.inside snapshot since) ∧
              snapshot.leases = start.leases ++ [row]) ∨
            (t.act r.server (r.others i) now).2.At
              (.after (.ok (.denied row.operatorId row.sessionId)))) :
          (r.step i now).Taken w row := by
        refine ⟨?_, h.active, ⟨tw, lease, ?_, haw, hfreew, huser, hsession⟩, fun j t' hjw hj => ?_⟩
        · rw [hserver, hleases]
          exact h.leases
        · exact (Race.step_ne hget (Ne.symm hiw)).trans hw
        · rcases Race.step_racer hget hj with ⟨-, hj⟩ | ⟨rfl, rfl⟩
          · exact h.losers j t' hjw hj
          · exact ha
      rcases h.losers i t hiw hget with ha | ⟨snapshot, since, ha, hsnapshot⟩ | ha
      · obtain ⟨hsame, hnext⟩ := act_before _ (r.others i) now ha hsound.tables
        refine hlost (congrArg (·.db.leases) hsame) ?_
        rcases hnext with hnext | hnext
        · exact .inl hnext
        · exact .inr (.inl ⟨_, _, hnext, h.leases⟩)
      · have hnotFree : snapshot.free vehicle.id t.readAt = false := by
          obtain ⟨_, _, hinside⟩ := id ha
          refine Bool.eq_false_iff.mpr fun hfree => ?_
          have hstarted : t.startedFree = some true := hinside.startedFree.trans (congrArg some hfree)
          exact hiw (hone i w ⟨t, hget, hstarted⟩ ⟨tw, hw, hfreew⟩)
        have hother : row.operatorId ≠ t.contender.ctx.userId :=
          huser ▸ hsound.distinct hd hw hget (Ne.symm hiw)
        have hdenied := deniedBy_of_not_free (held_of_leases hnone h.active hsnapshot) h.active.1 hother
          hnotFree
        obtain ⟨hdb, ha' | ha'⟩ :=
          act_loser r.server (r.others i) now ha hdenied
        · exact hlost (congrArg Db.leases hdb) (.inr (.inl ⟨snapshot, since, ha', hsnapshot⟩))
        · exact hlost (congrArg Db.leases hdb) (.inr (.inr ha'))
      · obtain ⟨⟨events, hevents⟩, ha', -⟩ :=
          act_after r.server (r.others i) now ha
        exact hlost (congrArg (·.db.leases) hevents) (.inr (.inr ha'))

end

-- ---------------------------------------------------------------------------
-- The answers
-- ---------------------------------------------------------------------------

/-- One claim is granted, every other is told who was faster, and there is one ACTIVE lease. -/
def Race.Resolved (r : Race start vehicle) : Prop :=
  ∃ (w : Nat) (t : Racer start vehicle) (granted : Response), r.racers[w]? = some t ∧
    t.answer? = some granted ∧ granted.status = 201 ∧
    (∀ (j : Nat) (t' : Racer start vehicle), j ≠ w → r.racers[j]? = some t' →
      t'.answer? = some (deniedBy t.contender.ctx.userId t.contender.session.id)) ∧
    ∃ i, ∀ j, r.server.db.ActiveAt vehicle.id j ↔ j = i

section
variable {claims : List (Contender start vehicle)} {r : Race start vehicle} {i : Nat}
  {t : Racer start vehicle}

theorem not_denied_of_startsFree {operatorId sessionId : String} (h : r.Sound claims)
    (hget : r.racers[i]? = some t) (hfree : t.startedFree = some true) :
    t.answer? ≠ some (deniedBy operatorId sessionId) := by
  intro hanswer
  obtain ⟨a, ha⟩ := h.racers i t hget
  cases a with
  | before => exact absurd ((answer?_before ha).symm.trans hanswer) nofun
  | inside snapshot since => exact absurd ((answer?_inside ha).symm.trans hanswer) nofun
  | after result =>
    have hanswers := answers_of_after ha hanswer
    obtain ⟨_, free, -, hstarted, -, hnot⟩ := ha
    obtain rfl : free = true := Option.some.inj (hstarted.symm.trans hfree)
    rcases result with err | ⟨operatorId', sessionId'⟩ | lease
    · have hstatus : 409 = 500 := hanswers
      exact absurd hstatus (by decide)
    · exact hnot rfl _ _ rfl
    · have hstatus : 409 = 201 := hanswers
      exact absurd hstatus (by decide)

theorem race_invariant (claims : List (Contender start vehicle))
    (hd : (claims.map (·.ctx.userId)).Nodup) (hnone : ∀ i, ¬ start.ActiveAt vehicle.id i)
    (es : List (Nat × Time)) :
    let r := (claimRace claims).state ((claimRace claims).log es)
    r.Sound claims ∧ (r.OneStartsFree → r.Untaken ∨ ∃ w row, r.Taken w row) := by
  induction es with
  | nil =>
    refine ⟨⟨?_, .refl start, fun i t ht => ?_⟩, fun _ => .inl (untaken_start claims)⟩
    · exact (List.map_map ..).trans (List.map_id claims)
    · rcases (untaken_start claims).racers i t ht with ha | ha
      · exact ⟨_, ha⟩
      · exact ⟨_, ha⟩
  | cons e es ih =>
    obtain ⟨hsound, hinv⟩ := ih
    refine ⟨hsound.step e.1 e.2, fun hone => ?_⟩
    rcases hinv (hone.past hsound) with huntaken | ⟨w, row, htaken⟩
    · rcases huntaken.step hnone e.1 e.2 hone with h | ⟨row, h⟩
      · exact .inl h
      · exact .inr ⟨e.1, row, h⟩
    · exact .inr ⟨w, row, htaken.step hsound hd hnone e.1 e.2 (hone.past hsound)⟩

end

/-- A race is over after a bounded number of moves. Then one claim has been
granted and the others told so, exactly if no two transactions started while
the vehicle was free. -/
theorem race_resolved_iff (claims : List (Contender start vehicle)) (hne : claims ≠ [])
    (hd : (claims.map (·.ctx.userId)).Nodup) (hnone : ∀ i, ¬ start.ActiveAt vehicle.id i)
    (es : List (Nat × Time)) :
    let r := (claimRace claims).state ((claimRace claims).log es)
    ((claimRace claims).log es).countP IsMove ≤ 11 * claims.length ∧
      (r.Settled → (r.Resolved ↔ r.OneStartsFree)) := by
  intro r
  refine ⟨moves_le claims es, fun hsettled => ?_⟩
  obtain ⟨hsound, hinv⟩ : r.Sound claims ∧ (r.OneStartsFree → r.Untaken ∨ ∃ w row, r.Taken w row) :=
    race_invariant claims hd hnone es
  have hanswered : ∀ (i : Nat) (t : Racer start vehicle), r.racers[i]? = some t →
      ∃ resp, t.answer? = some resp := fun i t ht => hsettled.answered hsound ht
  constructor
  · rintro ⟨w, tw, -, -, -, -, hothers, -⟩ i j ⟨ti, hi, hfreei⟩ ⟨tj, hj, hfreej⟩
    have hwins : ∀ (i : Nat) (t : Racer start vehicle), r.racers[i]? = some t →
        t.startedFree = some true → i = w := by
      intro i t hi hfree
      by_contra hiw
      exact not_denied_of_startsFree hsound hi hfree (hothers i t hiw hi)
    exact (hwins i ti hi hfreei).trans (hwins j tj hj hfreej).symm
  · intro hone
    rcases hinv hone with huntaken | ⟨w, row, htaken⟩
    · -- the first claim cannot have been answered
      obtain ⟨c, cs, rfl⟩ := List.exists_cons_of_ne_nil hne
      have hlen : r.racers.length = (c :: cs).length := by
        rw [← hsound.contenders, List.length_map]
      cases hracers : r.racers with
      | nil => exact absurd (hracers ▸ hlen) nofun
      | cons t ts =>
        have hget : r.racers[0]? = some t := by rw [hracers]; rfl
        obtain ⟨resp, hresp⟩ := hanswered 0 t hget
        rcases huntaken.racers 0 t hget with ha | ha
        · exact absurd ((answer?_before ha).symm.trans hresp) nofun
        · exact absurd ((answer?_inside ha).symm.trans hresp) nofun
    · obtain ⟨t, lease, hw, haw, -, huser, hsession⟩ := htaken.winner
      obtain ⟨granted, hgranted⟩ := hanswered w t hw
      refine ⟨w, t, granted, hw, hgranted, answers_of_after haw hgranted, fun j t' hjw hj => ?_, ?_⟩
      · obtain ⟨resp, hresp⟩ := hanswered j t' hj
        rcases htaken.losers j t' hjw hj with ha | ⟨_, _, ha, -⟩ | ha
        · exact absurd ((answer?_before ha).symm.trans hresp) nofun
        · exact absurd ((answer?_inside ha).symm.trans hresp) nofun
        · have hlost : resp = deniedBy row.operatorId row.sessionId := answers_of_after ha hresp
          rw [hresp, hlost, huser, hsession]
      · have hheld := held_of_leases hnone htaken.active htaken.leases
        refine ⟨start.leases.length, fun j => ⟨fun hj => ?_, ?_⟩⟩
        · exact hheld.only j (htaken.active.1.symm ▸ hj)
        · rintro rfl
          exact ⟨row, hheld.here, htaken.active⟩

private def garage : Db where
  users :=
    [⟨"alice", "alice@rvep.dev", "", .operator, 0, none, 0⟩,
      ⟨"bob", "bob@rvep.dev", "", .operator, 0, none, 0⟩]
  vehicles := [⟨"v1", "vehicle-001", "UGV 1", .wheeled, .online⟩]
  permissions := [⟨"alice", "v1", .operator, 1, none, 0⟩, ⟨"bob", "v1", .operator, 2, none, 0⟩]
  sessions :=
    [⟨"s1", "web-alice", "v1", "alice", 1, .active, 0, .control⟩,
      ⟨"s2", "web-bob", "v1", "bob", 1, .active, 0, .control⟩]
  leases := []
  events := []

private def parked : Vehicle := ⟨"v1", "vehicle-001", "UGV 1", .wheeled, .online⟩

private def aliceRaces : Contender garage parked where
  req := ⟨some ⟨"alice", .operator⟩, "vehicle-001", some (.obj [("sessionId", .str "web-alice")])⟩
  ctx := ⟨"alice", .operator⟩
  body := ⟨"web-alice"⟩
  session := ⟨"s1", "web-alice", "v1", "alice", 1, .active, 0, .control⟩
  may := ⟨rfl, rfl, rfl, rfl, rfl, rfl⟩
  user := rfl

private def bobRaces : Contender garage parked where
  req := ⟨some ⟨"bob", .operator⟩, "vehicle-001", some (.obj [("sessionId", .str "web-bob")])⟩
  ctx := ⟨"bob", .operator⟩
  body := ⟨"web-bob"⟩
  session := ⟨"s2", "web-bob", "v1", "bob", 1, .active, 0, .control⟩
  may := ⟨rfl, rfl, rfl, rfl, rfl, rfl⟩
  user := rfl

private theorem garage_unleased (i : Nat) : ¬ garage.ActiveAt parked.id i := by
  rintro ⟨row, hrow, -⟩
  exact absurd hrow nofun

private def raceAt (es : List (Nat × Time)) : Race garage parked :=
  (claimRace [aliceRaces, bobRaces]).state ((claimRace [aliceRaces, bobRaces]).log es)

/-- Bob asks for the lock after Alice has been granted the vehicle. Newest first. -/
private def oneAfterTheOther : List (Nat × Time) :=
  List.replicate 9 (1, 2000) ++ List.replicate 10 (0, 1000)

/-- Bob asks for the lock while Alice holds it. Newest first. -/
private def bothAtOnce : List (Nat × Time) :=
  List.replicate 4 (1, 1001) ++ List.replicate 4 (0, 1001) ++ List.replicate 5 (1, 1000) ++
    List.replicate 6 (0, 1000)

theorem race_resolved_one_after_the_other :
    [aliceRaces, bobRaces] ≠ [] ∧ ([aliceRaces, bobRaces].map (·.ctx.userId)).Nodup ∧
      (∀ i, ¬ garage.ActiveAt parked.id i) ∧ (raceAt oneAfterTheOther).Settled ∧
        (raceAt oneAfterTheOther).Resolved := by
  have hdistinct : ([aliceRaces, bobRaces].map (·.ctx.userId)).Nodup := by decide
  have hsettled : (raceAt oneAfterTheOther).Settled
    | 0 => rfl
    | 1 => rfl
    | _ + 2 => rfl
  have hone : (raceAt oneAfterTheOther).OneStartsFree := by
    have hfirst : ∀ i, (raceAt oneAfterTheOther).StartsFree i → i = 0
      | 0, _ => rfl
      | 1, ⟨t, ht, hfree⟩ => by
        obtain rfl := Option.some.inj ht
        exact absurd hfree nofun
      | _ + 2, ⟨t, ht, _⟩ => absurd ht nofun
    exact fun i j hi hj => (hfirst i hi).trans (hfirst j hj).symm
  have hall := race_resolved_iff [aliceRaces, bobRaces] nofun hdistinct garage_unleased oneAfterTheOther
  exact ⟨nofun, hdistinct, garage_unleased, hsettled, (hall.2 hsettled).mpr hone⟩

/-- Bob's claim is aborted, and answered 500. -/
theorem race_loser_fails :
    [aliceRaces, bobRaces] ≠ [] ∧ ([aliceRaces, bobRaces].map (·.ctx.userId)).Nodup ∧
      (∀ i, ¬ garage.ActiveAt parked.id i) ∧ (raceAt bothAtOnce).Settled ∧
        (raceAt bothAtOnce).racers[1]?.bind (·.answer?) = some (fail "internal_error" 500) ∧
          ¬ (raceAt bothAtOnce).Resolved := by
  have hsettled : (raceAt bothAtOnce).Settled
    | 0 => rfl
    | 1 => rfl
    | _ + 2 => rfl
  have hfails : (raceAt bothAtOnce).racers[1]?.bind (·.answer?) = some (fail "internal_error" 500) := rfl
  refine ⟨nofun, by decide, garage_unleased, hsettled, hfails, ?_⟩
  rintro ⟨w, t, granted, hw, hgranted, hstatus, hothers, -⟩
  obtain ⟨bob, hbob, hanswer⟩ := Option.bind_eq_some_iff.mp hfails
  by_cases h : 1 = w
  · subst h
    obtain rfl : bob = t := Option.some.inj (hbob.symm.trans hw)
    obtain rfl := Option.some.inj (hanswer.symm.trans hgranted)
    exact absurd hstatus (by decide)
  · have hdenied := Option.some.inj (hanswer.symm.trans (hothers 1 bob h hbob))
    have hstatus' : 500 = 409 := congrArg Response.status hdenied
    exact absurd hstatus' (by decide)

end Rvep.Backend
