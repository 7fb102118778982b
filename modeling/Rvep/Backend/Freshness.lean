import Rvep.Backend.TelemetryFrame
import Rvep.Backend.VehicleStatus
import Rvep.Lib.Reactive

/-!
# Who is online

Frames that are posted and cards that are asked for, one request after the
other. The card knows a frame by the instant that the edge gave it, and not by
when it was stored.
-/

namespace Rvep.Backend

open Interleaving Reactive

-- ---------------------------------------------------------------------------
-- Requests
-- ---------------------------------------------------------------------------

inductive MonitorEvent where
  | post (req : TelemetryFrameRequest) (choices : Nat → Choice)
  | status (caller : Caller) (vehicleId : String) (choices : Nat → Choice)

/-- When a frame is stored, and when a card is compared with the clock. -/
def MonitorEvent.instant : MonitorEvent → Time
  | .post _ choices => (choices 1).now
  | .status _ _ choices => (choices 4).now

/-- The database holds no frames at the start. -/
def monitor (INTERNAL_TOKEN : String) (start : Db) : System Db MonitorEvent Response where
  init := { start with telemetryFrames := [] }
  step db
    | .post req choices => (telemetryFrame INTERNAL_TOKEN req).run Call.exec choices db
    | .status caller vehicleId choices => (vehicleStatus caller vehicleId).run Call.exec choices db

abbrev MonitorEntry := Entry Db MonitorEvent Response
abbrev MonitorLog := Log Db MonitorEvent Response

def TelemetryFrameRequest.frame? (req : TelemetryFrameRequest) : Option TelemetryFrame :=
  match validateBody req.body telemetrySchema with
  | .error _ => none
  | .ok body => body.data

/-- The frame of a vehicle that is accepted, and when. -/
def accepted (vehicleId : String) (x : MonitorEntry) : List (TelemetryFrame × Time) :=
  match x.event with
  | .post req _ =>
    if x.output.status = 200 then
      (req.frame?.toList.filter (·.vehicleId == vehicleId)).map (·, x.event.instant)
    else []
  | .status _ _ _ => []

-- ---------------------------------------------------------------------------
-- Cards
-- ---------------------------------------------------------------------------

/-- The answer to a status query, with the rows of the frames' table in this order. -/
def statusOver (rows : List TelemetryFrame) (db : Db) (caller : Caller) (vehicleId : String)
    (choices : Nat → Choice) : Response :=
  ((vehicleStatus caller vehicleId).run Call.exec choices { db with telemetryFrames := rows }).2

/-- A vehicle is shown online if a frame was accepted in the last 5 s, and with
the frame that was accepted last. The route orders rows by `ts` alone, so this
is asked of any order the table may have. -/
def CardCurrent (x : MonitorEntry) (past : MonitorLog) : Prop :=
  match x.event with
  | .post _ _ => True
  | .status caller vehicleId choices =>
    let frames := collected (accepted vehicleId) past
    ∀ rows, rows.Perm x.before.telemetryFrames →
      let output := statusOver rows x.before caller vehicleId choices
      output.status = 200 →
        (output.field? "online" = some (.flag true) ↔
          ∃ f ∈ frames, x.event.instant - f.2 < 5000) ∧
        ∃ vehicle lease lastSeenMs,
          output = ok (statusCard vehicle lease (frames.getLast?.map (·.1)) lastSeenMs)

/-- The caller is signed in, the vehicle known and no query fails. -/
def CardAnswered (db : Db) (caller : Caller) (vehicleId : String) (choices : Nat → Choice) : Prop :=
  caller.isSome ∧ (db.vehicle? vehicleId).isSome ∧
    (choices 0).fails = false ∧ (choices 2).fails = false ∧ (choices 3).fails = false

/-- No frame is ahead of the one accepted last, or level with it and different,
and the card is not asked for in the time by which that frame's two ages differ. -/
def EdgeClockAgrees (x : MonitorEntry) (past : MonitorLog) : Prop :=
  match x.event with
  | .post _ _ => True
  | .status caller vehicleId choices =>
    let frames := collected (accepted vehicleId) past
    CardAnswered x.before caller vehicleId choices → ∀ last ∈ frames.getLast?,
      (∀ f ∈ frames, last.1.ts ≤ f.1.ts → telemetryCard f.1 = telemetryCard last.1) ∧
        (x.event.instant < min last.1.ts last.2 + 5000 ∨
          max last.1.ts last.2 + 5000 ≤ x.event.instant)

/-- The server's clock does not go back. -/
def ServerClock (x : MonitorEntry) (past : MonitorLog) : Prop :=
  ∀ y ∈ past, y.event.instant ≤ x.event.instant

instance (x : MonitorEntry) (past : MonitorLog) : Decidable (ServerClock x past) :=
  inferInstanceAs (Decidable (∀ y ∈ past, y.event.instant ≤ x.event.instant))

instance (db : Db) (caller : Caller) (vehicleId : String) (choices : Nat → Choice) :
    Decidable (CardAnswered db caller vehicleId choices) :=
  inferInstanceAs (Decidable (_ ∧ _))

instance : (x : MonitorEntry) → (past : MonitorLog) → Decidable (EdgeClockAgrees x past)
  | ⟨_, .post _ _, _, _⟩, _ => .isTrue trivial
  | ⟨_, .status _ vehicleId _, _, _⟩, past =>
    inferInstanceAs
      (Decidable (_ → ∀ last ∈ (collected (accepted vehicleId) past).getLast?, _ ∧ _))

-- ---------------------------------------------------------------------------
-- What a request does
-- ---------------------------------------------------------------------------

section
variable {db : Db} {choices : Nat → Choice} {caller : Caller} {vehicleId : String}
  {req : TelemetryFrameRequest} {INTERNAL_TOKEN : String}

/-- A post that is accepted stores its frame; any other changes nothing. -/
inductive Posted (frame? : Option TelemetryFrame) (db : Db) : Db × Response → Prop
  | refused {r : Response} : r.status ≠ 200 → Posted frame? db (db, r)
  | stored {frame : TelemetryFrame} {r : Response} : frame? = some frame → r.status = 200 →
    Posted frame? db ({ db with telemetryFrames := db.telemetryFrames ++ [frame] }, r)

theorem recordFrame_posted (body : TelemetryBody) :
    Posted body.data db ((recordFrame body).alone choices db) := by
  rw [recordFrame]
  refine alone_read _ rfl (.refused (by decide)) ?_
  cases db.vehicle? body.vehicleId with
  | none => exact .refused (by decide)
  | some vehicle =>
    cases hdata : body.data with
    | none => exact .refused (by decide)
    | some frame =>
      simp only
      cases hdown : (choices 1).fails with
      | true =>
        rw [alone_query_fails _ hdown]
        exact .refused (by decide)
      | false =>
        by_cases hknown : db.vehicles.any (·.vehicleId == frame.vehicleId) = true
        · have hcreate : (Query.telemetryFrameCreate frame).answer (choices 1).now db =
              ({ db with telemetryFrames := db.telemetryFrames ++ [frame] }, .ok ()) := if_pos hknown
          rw [alone_query_ok _ hdown hcreate]
          exact .stored rfl rfl
        · have hcreate : (Query.telemetryFrameCreate frame).answer (choices 1).now db =
              (db, .error .foreignKey) := if_neg hknown
          rw [alone_query_error _ hdown hcreate]
          exact .refused (by decide)

theorem telemetryFrame_posted :
    Posted req.frame? db ((telemetryFrame INTERNAL_TOKEN req).run Call.exec choices db) := by
  change Posted _ _ (Handler.alone _ choices db)
  by_cases htoken : req.presented = some INTERNAL_TOKEN
  · simp only [htoken, bne_self_eq_false, Bool.false_eq_true, if_false]
    rw [TelemetryFrameRequest.frame?]
    cases hbody : validateBody req.body telemetrySchema with
    | error err =>
      have hstatus := validateBody_status hbody
      exact .refused (by simp [respond, hstatus])
    | ok body => exact recordFrame_posted body
  · simp only [bne_iff_ne, ne_eq, htoken, not_false_eq_true, if_true]
    exact .refused (by decide)

/-- A card is made of the latest frame in the database, and changes nothing. -/
inductive Asked (answers : Prop) (latestTelemetry : Option TelemetryFrame) (now : Time) (db : Db) :
    Db × Response → Prop
  | refused {r : Response} : ¬ answers → r.status ≠ 200 → Asked answers latestTelemetry now db (db, r)
  | card (vehicle : Vehicle) (lease : Option (ControlLease × Option User)) : answers →
    Asked answers latestTelemetry now db
      (db, ok (statusCard vehicle lease latestTelemetry (latestTelemetry.map fun f => now - f.ts)))

theorem vehicleStatus_asked :
    Asked (CardAnswered db caller vehicleId choices) (db.latestTelemetry? vehicleId) (choices 4).now db
      ((vehicleStatus caller vehicleId).run Call.exec choices db) := by
  change Asked _ _ _ _ (Handler.alone _ choices db)
  cases caller with
  | none => exact .refused (by simp [CardAnswered]) (by decide)
  | some ctx =>
    rw [getAuthContext, alone_pure_bind]
    cases hfind : (choices 0).fails with
    | true =>
      rw [alone_query_fails _ hfind]
      exact .refused (by simp [CardAnswered, hfind]) (by decide)
    | false =>
      rw [alone_query_ok _ hfind rfl]
      cases hvehicle : db.vehicle? vehicleId with
      | none => exact .refused (by simp [CardAnswered, hvehicle]) (by decide)
      | some vehicle =>
        simp only
        rw [alone_now_bind]
        cases hlease : (choices 2).fails with
        | true =>
          rw [alone_query_fails _ hlease]
          exact .refused (by simp [CardAnswered, hlease]) (by decide)
        | false =>
          rw [alone_query_ok _ hlease rfl]
          cases hlatest : (choices 3).fails with
          | true =>
            rw [alone_query_fails _ hlatest]
            exact .refused (by simp [CardAnswered, hlatest]) (by decide)
          | false =>
            have hanswers : CardAnswered db (some ctx) vehicleId choices :=
              ⟨rfl, by rw [hvehicle]; rfl, hfind, hlease, hlatest⟩
            rw [alone_query_ok _ hlatest rfl]
            cases db.latestTelemetry? vehicleId with
            | none => exact .card vehicle _ hanswers
            | some frame => exact .card vehicle _ hanswers

theorem lookup_leaseCard (lease : Option (ControlLease × Option User)) :
    (nested "lease" (lease.map fun (l, operator) => leaseCard l operator)).lookup "online" = none := by
  cases lease with
  | none => rfl
  | some l => rfl

theorem lookup_telemetryCard (latestTelemetry : Option TelemetryFrame) :
    (nested "telemetry" (latestTelemetry.map telemetryCard)).lookup "online" = none := by
  cases latestTelemetry with
  | none => rfl
  | some frame =>
    simp only [Option.map_some, telemetryCard, gpsCard]
    cases numberIn frame.gps "lat" <;> cases numberIn frame.gps "lng" <;> rfl

theorem field?_online (vehicle : Vehicle) (lease : Option (ControlLease × Option User))
    (latestTelemetry : Option TelemetryFrame) (lastSeenMs : Option Int) :
    (ok (statusCard vehicle lease latestTelemetry lastSeenMs)).field? "online" =
      some (.flag (lastSeenMs.any fun ms => decide (ms < onlineWithinMs))) := by
  simp only [Response.field?, ok, statusCard, List.lookup_append, lookup_leaseCard,
    lookup_telemetryCard]
  rfl

end

-- ---------------------------------------------------------------------------
-- What a card shows
-- ---------------------------------------------------------------------------

section
variable {vehicle vehicle' : Vehicle} {lease lease' : Option (ControlLease × Option User)}
  {frame frame' : TelemetryFrame} {lastSeenMs lastSeenMs' : Option Int}

theorem ok_injective {data data' : Fields} (h : ok data = ok data') : data = data' :=
  Body.data.inj (Response.mk.inj h).2.1

theorem telemetryCard_ts (h : telemetryCard frame = telemetryCard frame') : frame.ts = frame'.ts := by
  simp only [telemetryCard, List.cons_append, List.cons.injEq, Prod.mk.injEq, Field.instant.injEq,
    true_and] at h
  exact h.1

theorem nested_injective (key : String) {fields fields' : Fields}
    (h : nested key (some fields) = nested key (some fields')) : fields = fields' := by
  refine List.map_injective_iff.mpr ?_ h
  rintro ⟨name, value⟩ ⟨name', value'⟩ heq
  obtain ⟨hname, hvalue⟩ := Prod.mk.inj heq
  rw [String.append_right_inj] at hname
  rw [hname, hvalue]

theorem statusCard_congr (h : telemetryCard frame = telemetryCard frame') :
    statusCard vehicle lease (some frame) lastSeenMs =
      statusCard vehicle lease (some frame') lastSeenMs := by
  rw [statusCard, statusCard, Option.map_some, Option.map_some, h]

/-- The telemetry of a card can be read off it, whatever its lease. -/
theorem statusCard_telemetry (h : statusCard vehicle lease (some frame) lastSeenMs =
    statusCard vehicle' lease' (some frame') lastSeenMs') :
    telemetryCard frame = telemetryCard frame' := by
  have hfront := (List.append_inj' h rfl).1
  rw [List.append_assoc, List.append_assoc] at hfront
  have hrest := (List.append_inj hfront rfl).2
  refine nested_injective "telemetry" ?_
  cases lease with
  | none =>
    cases lease' with
    | none => exact (List.append_inj hrest rfl).2
    | some l' => exact absurd (List.cons.inj hrest).1 (by simp)
  | some l =>
    cases lease' with
    | none => exact absurd (List.cons.inj hrest).1 (by simp)
    | some l' => exact (List.append_inj hrest rfl).2

end

-- ---------------------------------------------------------------------------
-- The frames of a run
-- ---------------------------------------------------------------------------

theorem Posted.frames {req : TelemetryFrameRequest} {db : Db} {out : Db × Response}
    (h : Posted req.frame? db out) : out.1.telemetryFrames =
      db.telemetryFrames ++ if out.2.status = 200 then req.frame?.toList else [] := by
  cases h with
  | refused hstatus => simp [hstatus]
  | stored hframe hstatus => simp [hstatus, hframe]

section
variable {answers : Prop} {latestTelemetry : Option TelemetryFrame} {now : Time} {db : Db}
  {out : Db × Response}

theorem Asked.same (h : Asked answers latestTelemetry now db out) : out.1 = db := by
  cases h with
  | refused => rfl
  | card => rfl

theorem Asked.status_iff (h : Asked answers latestTelemetry now db out) :
    out.2.status = 200 ↔ answers := by
  cases h with
  | refused hnot hstatus => exact iff_of_false hstatus hnot
  | card vehicle lease hanswers => exact iff_of_true rfl hanswers

theorem Asked.shown (h : Asked answers latestTelemetry now db out) (hanswers : answers) :
    ∃ vehicle lease, out.2 = ok
      (statusCard vehicle lease latestTelemetry (latestTelemetry.map fun f => now - f.ts)) := by
  cases h with
  | refused hnot => exact absurd hanswers hnot
  | card vehicle lease => exact ⟨vehicle, lease, rfl⟩

end

section
variable {INTERNAL_TOKEN : String} {start db : Db} {past : MonitorLog} {vehicleId : String}

theorem accepted_instant {x : MonitorEntry} {f : TelemetryFrame × Time}
    (h : f ∈ accepted vehicleId x) : f.2 = x.event.instant := by
  unfold accepted at h
  split at h
  next =>
    split at h
    next =>
      obtain ⟨frame, -, rfl⟩ := List.mem_map.mp h
      rfl
    next => cases h
  next => cases h

theorem accepted_frames (e : MonitorEvent) :
    let x := (monitor INTERNAL_TOKEN start).react db e
    x.after.telemetryFrames.filter (·.vehicleId == vehicleId) =
      db.telemetryFrames.filter (·.vehicleId == vehicleId) ++ (accepted vehicleId x).map (·.1) := by
  intro x
  cases e with
  | post req choices =>
    have hposted : x.after.telemetryFrames = _ := telemetryFrame_posted.frames
    rw [hposted, List.filter_append]
    refine congrArg _ ?_
    change (if x.output.status = 200 then req.frame?.toList else []).filter _ =
      (if x.output.status = 200 then _ else []).map _
    by_cases hstatus : x.output.status = 200
    · simp [hstatus, Function.comp_def]
    · simp [hstatus]
  | status caller vehicle choices =>
    have hsame : x.after = db := vehicleStatus_asked.same
    rw [hsame]
    exact (List.append_nil _).symm

/-- What the database has of a vehicle has been accepted in this order. -/
structure Recorded (vehicleId : String) (l : MonitorLog) (db : Db) : Prop where
  frames : db.telemetryFrames.filter (·.vehicleId == vehicleId) =
    (collected (accepted vehicleId) l).map (·.1)
  sorted : (collected (accepted vehicleId) l).Pairwise fun f g => f.2 ≤ g.2
  timed : ∀ f ∈ collected (accepted vehicleId) l, ∃ y ∈ l, y.event.instant = f.2

theorem Recorded.step (h : Recorded vehicleId past db) (e : MonitorEvent) :
    let x := (monitor INTERNAL_TOKEN start).react db e
    ServerClock x past → Recorded vehicleId (x :: past) x.after := by
  intro x hclock
  refine ⟨?_, ?_, ?_⟩
  · rw [accepted_frames, h.frames, collected_cons, List.map_append]
  · rw [collected_cons, List.pairwise_append]
    refine ⟨h.sorted, ?_, ?_⟩
    · refine List.pairwise_of_forall_mem_list fun f hf g hg => ?_
      rw [accepted_instant hf, accepted_instant hg]
    · intro f hf g hg
      obtain ⟨y, hy, hinstant⟩ := h.timed f hf
      rw [accepted_instant hg, ← hinstant]
      exact hclock y hy
  · intro f hf
    rw [collected_cons] at hf
    rcases List.mem_append.mp hf with hf | hf
    · obtain ⟨y, hy, hinstant⟩ := h.timed f hf
      exact ⟨y, List.mem_cons_of_mem _ hy, hinstant⟩
    · exact ⟨x, List.mem_cons_self, (accepted_instant hf).symm⟩

theorem Recorded.mem_iff (h : Recorded vehicleId past db) {rows : List TelemetryFrame}
    (hrows : rows.Perm db.telemetryFrames) {frame : TelemetryFrame} :
    frame ∈ rows.filter (·.vehicleId == vehicleId) ↔
      ∃ f ∈ collected (accepted vehicleId) past, f.1 = frame := by
  rw [(hrows.filter _).mem_iff, h.frames, List.mem_map]

/-- A frame was accepted in the last 5 s just when the last one was. -/
theorem Recorded.recent_iff (h : Recorded vehicleId past db) (now : Time) :
    (∃ f ∈ collected (accepted vehicleId) past, now - f.2 < 5000) ↔
      ∃ last ∈ (collected (accepted vehicleId) past).getLast?, now - last.2 < 5000 := by
  have hsorted := h.sorted
  constructor
  · rintro ⟨f, hf, hrecent⟩
    rcases List.eq_nil_or_concat' (collected (accepted vehicleId) past) with
      hnil | ⟨earlier, last, hlast⟩
    · simp [hnil] at hf
    · rw [hlast] at hf hsorted
      refine ⟨last, by simp [hlast], ?_⟩
      rcases List.mem_append.mp hf with hf | hf
      · have hle := (List.pairwise_append.mp hsorted).2.2 f hf last (List.mem_singleton_self last)
        exact lt_of_le_of_lt (Int.sub_le_sub_left hle now) hrecent
      · rwa [List.mem_singleton.mp hf] at hrecent
  · rintro ⟨last, hlast, hrecent⟩
    exact ⟨last, List.mem_of_getLast? hlast, hrecent⟩

end

section
variable {db : Db} {past : MonitorLog} {vehicleId : String} {caller : Caller}
  {choices : Nat → Choice} {rows : List TelemetryFrame} {last : TelemetryFrame × Time}

theorem statusOver_asked : Asked (CardAnswered db caller vehicleId choices)
    (Db.latestTelemetry? { db with telemetryFrames := rows } vehicleId) (choices 4).now
    { db with telemetryFrames := rows }
    ((vehicleStatus caller vehicleId).run Call.exec choices { db with telemetryFrames := rows }) :=
  @vehicleStatus_asked { db with telemetryFrames := rows } choices caller vehicleId

/-- Two ages of a frame lie on the same side of 5 s. -/
theorem same_side_iff (ts at' now : Int) : (now - ts < 5000 ↔ now - at' < 5000) ↔
    now < min ts at' + 5000 ∨ max ts at' + 5000 ≤ now := by
  omega

/-- With no frame accepted, the card shows none. -/
theorem Recorded.current_nil (h : Recorded vehicleId past db)
    (hnil : collected (accepted vehicleId) past = []) {x : MonitorEntry} (hbefore : x.before = db)
    (hevent : x.event = .status caller vehicleId choices) : CardCurrent x past := by
  simp only [CardCurrent, hevent, hbefore, hnil]
  intro rows hrows hstatus
  have hnone : rows.filter (·.vehicleId == vehicleId) = [] := by
    refine List.eq_nil_iff_forall_not_mem.mpr fun frame hmem => ?_
    obtain ⟨f, hf, -⟩ := (h.mem_iff hrows).mp hmem
    rw [hnil] at hf
    exact absurd hf List.not_mem_nil
  obtain ⟨vehicle, lease, hcard⟩ := statusOver_asked.shown (statusOver_asked.status_iff.mp hstatus)
  rw [Db.latestTelemetry?, hnone] at hcard
  have hout : statusOver rows db caller vehicleId choices = _ := hcard
  refine ⟨?_, vehicle, lease, none, hout⟩
  rw [hout, List.argmax_nil, Option.map_none, field?_online]
  simp

/-- The card shows a frame that no row of the table is ahead of. -/
theorem Recorded.shown (h : Recorded vehicleId past db) (hrows : rows.Perm db.telemetryFrames)
    (hlast : (collected (accepted vehicleId) past).getLast? = some last)
    (hanswers : CardAnswered db caller vehicleId choices) :
    ∃ f ∈ collected (accepted vehicleId) past,
      (∀ g ∈ collected (accepted vehicleId) past, g.1.ts ≤ f.1.ts) ∧
        ∃ vehicle lease, statusOver rows db caller vehicleId choices =
          ok (statusCard vehicle lease (some f.1) (some ((choices 4).now - f.1.ts))) := by
  obtain ⟨vehicle, lease, hcard⟩ := (@statusOver_asked db vehicleId caller choices rows).shown hanswers
  cases hgreatest : Db.latestTelemetry? { db with telemetryFrames := rows } vehicleId with
  | none =>
    have hmem := (h.mem_iff hrows).mpr ⟨last, List.mem_of_getLast? hlast, rfl⟩
    rw [List.argmax_eq_none.mp hgreatest] at hmem
    exact absurd hmem List.not_mem_nil
  | some frame =>
    obtain ⟨f, hf, rfl⟩ := (h.mem_iff hrows).mp (List.argmax_mem hgreatest)
    rw [hgreatest] at hcard
    refine ⟨f, hf, fun g hg => ?_, vehicle, lease, hcard⟩
    exact List.le_of_mem_argmax ((h.mem_iff hrows).mpr ⟨g, hg, rfl⟩) hgreatest

/-- Any frame that none is ahead of is the one shown, in some order of the rows. -/
theorem Recorded.shown_first (h : Recorded vehicleId past db) {f : TelemetryFrame × Time}
    (hf : f ∈ collected (accepted vehicleId) past)
    (hgreatest : ∀ g ∈ collected (accepted vehicleId) past, g.1.ts ≤ f.1.ts)
    (hanswers : CardAnswered db caller vehicleId choices) :
    ∃ rows, rows.Perm db.telemetryFrames ∧
      ∃ vehicle lease, statusOver rows db caller vehicleId choices =
        ok (statusCard vehicle lease (some f.1) (some ((choices 4).now - f.1.ts))) := by
  have hrow := (h.mem_iff (.refl _)).mpr ⟨f, hf, rfl⟩
  obtain ⟨hmem, hvehicle⟩ := List.mem_filter.mp hrow
  obtain ⟨before, after, hsplit⟩ := List.append_of_mem hmem
  have hperm : (f.1 :: (before ++ after)).Perm db.telemetryFrames :=
    hsplit ▸ List.perm_middle.symm
  refine ⟨_, hperm, ?_⟩
  have hfilter : (f.1 :: (before ++ after)).filter (·.vehicleId == vehicleId) =
      f.1 :: (before ++ after).filter (·.vehicleId == vehicleId) := List.filter_cons_of_pos hvehicle
  have hfirst : Db.latestTelemetry? { db with telemetryFrames := f.1 :: (before ++ after) }
      vehicleId = some f.1 := by
    rw [Db.latestTelemetry?, hfilter]
    refine Ranking.argmax_cons_greatest fun frame hframe => ?_
    have hrow : frame ∈ (f.1 :: (before ++ after)).filter (·.vehicleId == vehicleId) :=
      hfilter ▸ List.mem_cons_of_mem _ hframe
    obtain ⟨g, hg, rfl⟩ := (h.mem_iff hperm).mp hrow
    exact hgreatest g hg
  obtain ⟨vehicle, lease, hcard⟩ :=
    (@statusOver_asked db vehicleId caller choices (f.1 :: (before ++ after))).shown hanswers
  rw [hfirst] at hcard
  exact ⟨vehicle, lease, hcard⟩

/-- What a card that shows a frame like the last says of the vehicle. -/
theorem Recorded.online_iff (h : Recorded vehicleId past db)
    (hlast : (collected (accepted vehicleId) past).getLast? = some last)
    {frame : TelemetryFrame} (hts : frame.ts = last.1.ts) (vehicle : Vehicle)
    (lease : Option (ControlLease × Option User)) (now : Time) :
    ((ok (statusCard vehicle lease (some frame) (some (now - frame.ts)))).field? "online" =
        some (.flag true) ↔
      ∃ f ∈ collected (accepted vehicleId) past, now - f.2 < 5000) ↔
      now < min last.1.ts last.2 + 5000 ∨ max last.1.ts last.2 + 5000 ≤ now := by
  rw [field?_online, h.recent_iff, hlast, hts, ← same_side_iff]
  simp only [Option.any_some, onlineWithinMs, Option.some.injEq, Field.flag.injEq,
    Option.mem_def, exists_eq_left']
  exact iff_congr decide_eq_true_iff Iff.rfl

theorem Recorded.current_iff (h : Recorded vehicleId past db) {x : MonitorEntry}
    (hbefore : x.before = db) (hevent : x.event = .status caller vehicleId choices) :
    CardCurrent x past ↔ EdgeClockAgrees x past := by
  have hinstant : x.event.instant = (choices 4).now := by rw [hevent]; rfl
  cases hlast : (collected (accepted vehicleId) past).getLast? with
  | none =>
    refine iff_of_true (h.current_nil (List.getLast?_eq_none_iff.mp hlast) hbefore hevent) ?_
    simp [EdgeClockAgrees, hevent, hlast]
  | some last =>
    simp only [CardCurrent, EdgeClockAgrees, hevent, hbefore, hlast, Option.mem_some_iff,
      Option.map_some, forall_eq']
    rw [← hevent, hinstant]
    constructor
    · intro hcurrent hanswers
      have hstatus (rows : List TelemetryFrame) :
          (statusOver rows db caller vehicleId choices).status = 200 :=
        statusOver_asked.status_iff.mpr hanswers
      -- put first among its equals, each frame that none is ahead of is shown
      have hgreatest : ∀ f ∈ collected (accepted vehicleId) past,
          (∀ g ∈ collected (accepted vehicleId) past, g.1.ts ≤ f.1.ts) →
            telemetryCard f.1 = telemetryCard last.1 := by
        intro f hf hahead
        obtain ⟨rows, hrows, vehicle, lease, hshown⟩ := h.shown_first hf hahead hanswers
        obtain ⟨-, vehicle', lease', lastSeenMs, hcard⟩ := hcurrent rows hrows (hstatus rows)
        exact statusCard_telemetry (ok_injective (hshown.symm.trans hcard))
      obtain ⟨f, hf, hahead, vehicle, lease, hshown⟩ := h.shown (.refl _) hlast hanswers
      have hts := telemetryCard_ts (hgreatest f hf hahead)
      refine ⟨fun g hg hle => hgreatest g hg fun g' hg' => ?_, ?_⟩
      · exact ((hahead g' hg').trans hts.le).trans hle
      · have honline := (hcurrent _ (.refl _) (hstatus _)).1
        rw [hshown] at honline
        exact (h.online_iff hlast hts vehicle lease _).mp honline
    · intro hagree rows hrows hstatus
      have hanswers := statusOver_asked.status_iff.mp hstatus
      obtain ⟨hlevel, hside⟩ := hagree hanswers
      obtain ⟨f, hf, hahead, vehicle, lease, hshown⟩ := h.shown hrows hlast hanswers
      have hsame := hlevel f hf (hahead last (List.mem_of_getLast? hlast))
      rw [hshown]
      have honline := (h.online_iff hlast (telemetryCard_ts hsame) vehicle lease _).mpr hside
      exact ⟨honline, vehicle, lease, _, congrArg ok (statusCard_congr hsame)⟩

end

/-- The cards of a run are current just when the edge's clock agrees with the
server's at each card that is answered. -/
theorem cards_current (INTERNAL_TOKEN : String) (start : Db) (es : List MonitorEvent)
    (hclock : Always ServerClock ((monitor INTERNAL_TOKEN start).log es)) :
    Always CardCurrent ((monitor INTERNAL_TOKEN start).log es) ↔
      Always EdgeClockAgrees ((monitor INTERNAL_TOKEN start).log es) := by
  have hiff : Always (fun x past => CardCurrent x past ↔ EdgeClockAgrees x past)
      ((monitor INTERNAL_TOKEN start).log es) := by
    refine System.always_of_invariant
      (fun l => ∀ vehicleId, Recorded vehicleId l ((monitor INTERNAL_TOKEN start).state l)) ?_ ?_ es
      hclock
    · exact fun vehicleId => ⟨rfl, .nil, by simp⟩
    · rintro past e hrecorded hclock
      refine ⟨fun vehicleId => (hrecorded vehicleId).step e hclock, ?_⟩
      cases e with
      | post req choices => exact Iff.rfl
      | status caller vehicleId choices => exact (hrecorded vehicleId).current_iff rfl rfl
  exact ⟨fun h => (hiff.and h).imp fun _ _ hx => hx.1.mp hx.2,
    fun h => (hiff.and h).imp fun _ _ hx => hx.1.mpr hx.2⟩

private def hangar : Db :=
  { users := [], vehicles := [⟨"v7", "uav-07", "Seven", .drone, .online⟩], permissions := []
    sessions := [], leases := [], events := [] }

private def postsAt (now : Time) (ts : String) : MonitorEvent :=
  .post
    { presented := some "edge"
      body := some (.obj [("vehicleId", .str "uav-07"), ("sessionId", .str "s-1"), ("ts", .str ts)]) }
    fun _ => ⟨now, false⟩

private def asksAt (now : Time) : MonitorEvent :=
  .status (some ⟨"u9", .viewer⟩) "uav-07" fun _ => ⟨now, false⟩

/-- Two frames in order, a card between them and one long after. -/
theorem cards_current_in_step :
    Always CardCurrent ((monitor "edge" hangar).log
      [asksAt 40000, postsAt 12050 "1970-01-01T00:00:12Z", asksAt 12000,
        postsAt 11050 "1970-01-01T00:00:11Z"]) :=
  (cards_current "edge" hangar _ (by decide)).mpr (by decide +kernel)

/-- A frame dated a minute ahead keeps its vehicle online when it is long gone. -/
theorem future_frame_stays_online :
    ¬ Always CardCurrent ((monitor "edge" hangar).log
      [asksAt 40000, postsAt 10000 "1970-01-01T00:01:00Z"]) := by
  set l := (monitor "edge" hangar).log [asksAt 40000, postsAt 10000 "1970-01-01T00:01:00Z"]
  rintro ⟨hcard, -⟩
  have hgone : ∀ f ∈ collected (accepted "uav-07") l.tail, ¬ (40000 - f.2 < 5000) := by
    decide +kernel
  obtain ⟨f, hf, hrecent⟩ := (hcard _ (.refl _) (by decide +kernel)).1.mp (by decide +kernel)
  exact hgone f hf hrecent

end Rvep.Backend
