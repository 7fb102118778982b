import Rvep.Lib.Binary64

/-!
# Device profiles

`apps/web/src/lib/device-profile.ts`: the class of a device and the order of
the fleet view, which `vehicles/page.tsx` sorts by.
-/

namespace Rvep.Web

open Binary64 (Consistent)

-- ---------------------------------------------------------------------------
-- The fleet
-- ---------------------------------------------------------------------------

structure Vehicle where
  vehicleId : String
  displayName : String
  vehicleType : String
  deriving DecidableEq, Repr

structure VehicleLease where
  operatorName : String

structure Gps where
  lat : Binary64
  lng : Binary64

structure VehicleTelemetry where
  mode : Option String
  batteryPct : Option Binary64
  networkRttMs : Option Binary64
  gps : Option Gps

structure VehicleStatus where
  lease : Option VehicleLease
  telemetry : Option VehicleTelemetry
  lastSeenMs : Option Binary64
  online : Bool

/-- By `vehicleId`; a status that is null is like one that is missing. -/
abbrev Statuses := String → Option VehicleStatus

-- ---------------------------------------------------------------------------
-- Classes
-- ---------------------------------------------------------------------------

inductive DeviceClass | EDGE_NODE | VEHICLE
  deriving DecidableEq, Repr

def DeviceClass.name : DeviceClass → String
  | EDGE_NODE => "EDGE_NODE"
  | VEHICLE => "VEHICLE"

/-- A word at the start, in any case, with one of some characters after it. -/
structure DevicePattern where
  word : String
  after : List Char

def DevicePattern.test (re : DevicePattern) (s : String) : Bool :=
  let n := re.word.length
  (s.toList.take n).map Char.toLower == re.word.toList && (s.toList.drop n).head?.any (· ∈ re.after)

def EDGE_TYPE_PATTERNS : List DevicePattern :=
  [⟨"edge", ['-', '_']⟩, ⟨"sensor", ['-', '_']⟩, ⟨"observation", ['-', '_']⟩, ⟨"bench", ['-', '_']⟩]

def EDGE_ID_PATTERNS : List DevicePattern := [⟨"edge", ['-']⟩, ⟨"bench", ['-']⟩, ⟨"obs", ['-']⟩]

def classifyDevice (v : Vehicle) : DeviceClass :=
  if EDGE_TYPE_PATTERNS.any (·.test v.vehicleType) then .EDGE_NODE
  else if EDGE_ID_PATTERNS.any (·.test v.vehicleId) then .EDGE_NODE
  else .VEHICLE

-- ---------------------------------------------------------------------------
-- The order
-- ---------------------------------------------------------------------------

section
variable (statuses : Statuses)

/-- `statuses[v.vehicleId]?.online === true` -/
def isOnline (v : Vehicle) : Bool := (statuses v.vehicleId).any (·.online)

def lastSeenMs (v : Vehicle) : Option Binary64 := (statuses v.vehicleId).bind (·.lastSeenMs)

/-- `lastSeenMs ?? Number.POSITIVE_INFINITY` -/
def lastSeen (v : Vehicle) : Binary64 := (lastSeenMs statuses v).getD (.infinite false)

end

variable (localeCompare : String → String → Binary64)

def compareByOnlineRecency (a b : Vehicle) (statuses : Statuses) : Binary64 :=
  let onlineA := isOnline statuses a
  let onlineB := isOnline statuses b
  if onlineA != onlineB then
    if onlineA then .ofInt (-1) (by decide) else .ofInt 1 (by decide)
  else
    let lsA := lastSeen statuses a
    let lsB := lastSeen statuses b
    if !lsA.strictEq lsB then lsA.sub lsB else localeCompare a.vehicleId b.vehicleId

/-- The page's list, once the vehicles are loaded. -/
def sortedVehicles (vehicles : Option (List Vehicle)) (statuses : Statuses) : Option (List Vehicle) :=
  vehicles.map (Binary64.sort fun a b => compareByOnlineRecency localeCompare a b statuses)

-- ---------------------------------------------------------------------------
-- The order is total
-- ---------------------------------------------------------------------------

/-- Every `lastSeenMs` there is, is a finite number. -/
def SeenFinitely (statuses : Statuses) : Prop :=
  ∀ v n, lastSeenMs statuses v = some n → n.IsFinite

attribute [local instance] Binary64.rankOrder Binary64.rankOrd

section
variable {statuses : Statuses} {localeCompare}

theorem lastSeen_timely (h : SeenFinitely statuses) (v : Vehicle) :
    (lastSeen statuses v).IsTimely := by
  unfold lastSeen
  cases hseen : lastSeenMs statuses v with
  | none => exact .infinity
  | some n =>
    have hfinite := h v n hseen
    cases n with
    | finite x => exact .finite x
    | _ => cases hfinite

/-- The lexicographic order: online first, then by the time since the last sign, then by name. -/
def recencyOrder (statuses : Statuses) (localeCompare : String → String → Binary64) :
    Vehicle → Vehicle → Ordering :=
  compareLex (compareOn fun v => !isOnline statuses v)
    (compareLex (compareOn fun v => (lastSeen statuses v).rank)
      fun a b => (localeCompare a.vehicleId b.vehicleId).sign)

theorem strictEq_iff {x y : Binary64} (hx : x.IsTimely) : x.strictEq y = true ↔ x = y := by
  cases hx <;> simp [Binary64.strictEq]

theorem not_strictEq_iff {x y : Binary64} (hx : x.IsTimely) : (!x.strictEq y) = true ↔ x ≠ y := by
  simp [← Bool.not_eq_true, strictEq_iff hx]

/-- The comparator computes the lexicographic order. -/
theorem sign_compareByOnlineRecency (h : SeenFinitely statuses) (a b : Vehicle) :
    (compareByOnlineRecency localeCompare a b statuses).sign =
      recencyOrder statuses localeCompare a b := by
  have ha := lastSeen_timely h a
  have hb := lastSeen_timely h b
  simp only [compareByOnlineRecency, recencyOrder, compareLex, compareOn]
  by_cases honline : isOnline statuses a = isOnline statuses b
  · rw [if_neg (by simp [honline]), honline]
    by_cases hseen : lastSeen statuses a = lastSeen statuses b
    · rw [if_neg (by simp [hseen, (strictEq_iff hb).mpr rfl]), hseen]
      simp
    · have hrank : compare (lastSeen statuses a).rank (lastSeen statuses b).rank ≠ .eq := by
        rw [ne_eq, compare_eq_iff_eq]
        exact fun hrank => hseen (Binary64.rank_inj ha hb hrank)
      rw [if_pos ((not_strictEq_iff ha).mpr hseen), Binary64.sign_sub ha hb hseen]
      cases hcompare : compare (lastSeen statuses a).rank (lastSeen statuses b).rank <;>
        simp_all [Ordering.then]
  · rw [if_pos (by simpa using honline)]
    cases hon : isOnline statuses a with
    | true =>
      have hoff : isOnline statuses b = false := by simpa [hon] using Ne.symm honline
      rw [if_pos rfl, Binary64.sign_ofInt, hoff]
      rfl
    | false =>
      have hoff : isOnline statuses b = true := by simpa [hon] using Ne.symm honline
      rw [if_neg Bool.false_ne_true, Binary64.sign_ofInt, hoff]
      rfl

theorem recencyOrder_transCmp (hlocale : Consistent localeCompare) :
    Std.TransCmp (recencyOrder statuses localeCompare) := by
  have hnames := hlocale.transCmp
  have hids : Std.TransCmp fun a b : Vehicle => (localeCompare a.vehicleId b.vehicleId).sign :=
    { eq_swap := hnames.eq_swap, isLE_trans := hnames.isLE_trans }
  unfold recencyOrder
  infer_instance

theorem compareByOnlineRecency_ne_nan (hlocale : Consistent localeCompare)
    (h : SeenFinitely statuses) (a b : Vehicle) :
    compareByOnlineRecency localeCompare a b statuses ≠ .nan := by
  have ha := lastSeen_timely h a
  have hb := lastSeen_timely h b
  simp only [compareByOnlineRecency]
  split
  · split <;> exact Binary64.ofInt_ne_nan _ _
  · split
    next hseen => exact Binary64.sub_ne_nan ha hb ((not_strictEq_iff ha).mp hseen)
    next => exact hlocale.never_nan _ _

theorem compareByOnlineRecency_consistent (hlocale : Consistent localeCompare)
    (h : SeenFinitely statuses) :
    Consistent fun a b => compareByOnlineRecency localeCompare a b statuses where
  never_nan := compareByOnlineRecency_ne_nan hlocale h
  transCmp := by
    have horder : (fun a b => (compareByOnlineRecency localeCompare a b statuses).sign) =
        recencyOrder statuses localeCompare := by
      funext a b
      exact sign_compareByOnlineRecency h a b
    exact horder ▸ recencyOrder_transCmp hlocale

/-- An online vehicle never comes after one that is not; of two that are alike,
the one that was seen less long ago comes first, and one that was never seen last. -/
structure InOrder (statuses : Statuses) (a b : Vehicle) : Prop where
  online : isOnline statuses b = true → isOnline statuses a = true
  recency : isOnline statuses a = isOnline statuses b →
    ∀ y, lastSeenMs statuses b = some (.finite y) →
      ∃ x, lastSeenMs statuses a = some (.finite x) ∧ x ≤ y

theorem lastSeenMs_of_rank_le (h : SeenFinitely statuses) {v : Vehicle} {y : Binary64.Finite}
    (hrank : (compare (lastSeen statuses v).rank (Binary64.finite y).rank).isLE = true) :
    ∃ x, lastSeenMs statuses v = some (.finite x) ∧ x ≤ y := by
  have hle := compare_le_iff_le.mp (Ordering.ne_gt_iff_isLE.mpr hrank)
  unfold lastSeen at hle
  cases hseen : lastSeenMs statuses v with
  | none =>
    rw [hseen] at hle
    exact absurd hle (not_le.mpr (WithTop.coe_lt_top y.units))
  | some n =>
    have hfinite := h v n hseen
    rw [hseen] at hle
    cases n with
    | finite x =>
      have hunits : x.units ≤ y.units := WithTop.coe_le_coe.mp hle
      exact ⟨x, rfl, hunits⟩
    | _ => cases hfinite

theorem inOrder_of_isLE (h : SeenFinitely statuses) {a b : Vehicle}
    (hle : (recencyOrder statuses localeCompare a b).isLE = true) : InOrder statuses a b := by
  simp only [recencyOrder, compareLex, compareOn, Ordering.isLE_then_iff_and] at hle
  obtain ⟨honline, hrest⟩ := hle
  refine ⟨?_, ?_⟩
  · intro hb
    cases ha : isOnline statuses a with
    | true => rfl
    | false =>
      rw [ha, hb] at honline
      exact absurd honline (by decide)
  · intro hsame y hy
    rw [hsame] at hrest
    have hrank := (hrest.resolve_left (by simp)).1
    have hb : lastSeen statuses b = .finite y := by simp [lastSeen, hy]
    rw [hb] at hrank
    exact lastSeenMs_of_rank_le h hrank

theorem fleet_in_order (hlocale : Consistent localeCompare) (h : SeenFinitely statuses) :
    Consistent (fun a b => compareByOnlineRecency localeCompare a b statuses) ∧
      ∀ vehicles, ∃ sorted, sortedVehicles localeCompare (some vehicles) statuses = some sorted ∧
        sorted.Perm vehicles ∧ sorted.Pairwise (InOrder statuses) := by
  have hconsistent := compareByOnlineRecency_consistent hlocale h
  refine ⟨hconsistent, fun vehicles => ⟨_, rfl, Binary64.sort_perm _ vehicles, ?_⟩⟩
  refine (hconsistent.sort_ordered vehicles).imp fun {a b} hle => ?_
  rw [sign_compareByOnlineRecency h] at hle
  exact inOrder_of_isLE h hle

end

/-- By code points, as names of lower-case letters, hyphens and digits are ordered. -/
private def codePoints (a b : String) : Binary64 :=
  match compare a b with
  | .lt => .ofInt (-1) (by decide)
  | .eq => .ofInt 0 (by decide)
  | .gt => .ofInt 1 (by decide)

private theorem sign_codePoints (a b : String) : (codePoints a b).sign = compare a b := by
  unfold codePoints
  cases compare a b <;> exact Binary64.sign_ofInt _ _

private theorem codePoints_consistent : Consistent codePoints where
  never_nan a b := by
    unfold codePoints
    cases compare a b <;> exact Binary64.ofInt_ne_nan _ _
  transCmp := by
    have hcompare : (fun a b => (codePoints a b).sign) = compare := by
      funext a b
      exact sign_codePoints a b
    rw [hcompare]
    infer_instance

/-- One rover was seen 1.2 seconds ago, one is offline, and one has no status. -/
private def paddock : Statuses := fun id =>
  match id with
  | "rover-1" => some ⟨none, none, none, false⟩
  | "rover-2" => some ⟨none, none, some (.ofInt 1200 (by decide)), true⟩
  | _ => none

private theorem paddock_finite : SeenFinitely paddock := by
  intro v n hseen
  obtain ⟨status, hstatus, hlast⟩ := Option.bind_eq_some_iff.mp hseen
  unfold paddock at hstatus
  split at hstatus
  · obtain rfl := Option.some.inj hstatus
    cases hlast
  · obtain rfl := Option.some.inj hstatus
    obtain rfl := Option.some.inj hlast
    trivial
  · cases hstatus

theorem paddock_in_order :
    Consistent (fun a b => compareByOnlineRecency codePoints a b paddock) ∧
      ∀ vehicles, ∃ sorted, sortedVehicles codePoints (some vehicles) paddock = some sorted ∧
        sorted.Perm vehicles ∧ sorted.Pairwise (InOrder paddock) :=
  fleet_in_order codePoints_consistent paddock_finite

end Rvep.Web
