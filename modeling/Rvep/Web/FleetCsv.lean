import Rvep.Lib.Csv
import Rvep.Shared.JsonText
import Rvep.Web.DeviceProfile

/-!
# The fleet as CSV

`fleetToCsv` of `apps/web/src/lib/device-profile.ts`. It quotes a cell with a
comma, a quote or a line feed in it, and leaves one with only a carriage return
as it is.
-/

namespace Rvep.Web

open Csv (Marks)

-- ---------------------------------------------------------------------------
-- The export
-- ---------------------------------------------------------------------------

def rfc4180 : Marks Char where
  comma := ','
  quote := '"'
  cr := '\r'
  lf := '\n'
  distinct := by decide

section
variable (fmt : NumberFormat)

/-- `String(n)` -/
def numberText : Binary64 → String
  | .finite x => String.ofList (fmt.write x.value).chars
  | .infinite true => "-Infinity"
  | .infinite false => "Infinity"
  | .nan => "NaN"

/-- `n ?? ""`, as a cell. -/
def numberCell (n : Option Binary64) : String := n.elim "" (numberText fmt)

def header : List String :=
  ["vehicleId", "displayName", "vehicleType", "deviceClass", "online", "lastSeenMs", "operator",
    "mode", "batteryPct", "rttMs", "lat", "lng"]

def fleetRow (statuses : Statuses) (v : Vehicle) : List String :=
  let s := statuses v.vehicleId
  let t := s.bind (·.telemetry)
  [v.vehicleId, v.displayName, v.vehicleType, (classifyDevice v).name,
    if s.any (·.online) then "true" else "false",
    numberCell fmt (s.bind (·.lastSeenMs)),
    ((s.bind (·.lease)).map (·.operatorName)).getD "",
    (t.bind (·.mode)).getD "",
    numberCell fmt (t.bind (·.batteryPct)),
    numberCell fmt (t.bind (·.networkRttMs)),
    numberCell fmt ((t.bind (·.gps)).map (·.lat)),
    numberCell fmt ((t.bind (·.gps)).map (·.lng))]

/-- `/[",\n]/.test(s)` -/
def needsQuotes (s : List Char) : Bool := s.any fun c => c == '"' || c == ',' || c == '\n'

/-- The header and a row for each vehicle. -/
def fleetRows (vehicles : List Vehicle) (statuses : Statuses) : List (List String) :=
  header :: vehicles.map (fleetRow fmt statuses)

def csvTable (rows : List (List String)) : Csv.Table Char := rows.map (·.map String.toList)

def fleetToCsv (vehicles : List Vehicle) (statuses : Statuses) : String :=
  "\uFEFF" ++ String.ofList (rfc4180.write needsQuotes (csvTable (fleetRows fmt vehicles statuses)))

end

-- ---------------------------------------------------------------------------
-- Reading it back
-- ---------------------------------------------------------------------------

theorem needsQuotes_iff (s : List Char) :
    needsQuotes s = true ↔ '"' ∈ s ∨ ',' ∈ s ∨ '\n' ∈ s := by
  induction s with
  | nil => simp [needsQuotes]
  | cons c s ih =>
    have hcons : needsQuotes (c :: s) = (c == '"' || c == ',' || c == '\n' || needsQuotes s) := rfl
    simp only [hcons, Bool.or_eq_true, beq_iff_eq, ih, List.mem_cons, eq_comm (a := c)]
    tauto

theorem quotesMarks : rfc4180.QuotesMarks needsQuotes := by
  intro v hv
  refine (needsQuotes_iff v).mpr ?_
  rcases hv with hcomma | hquote | hlf
  · exact .inr (.inl hcomma)
  · exact .inl hquote
  · exact .inr (.inr hlf)

/-- A carriage return is in the text only beside something the export quotes. -/
def Shielded (s : String) : Prop :=
  '\r' ∈ s.toList → '"' ∈ s.toList ∨ ',' ∈ s.toList ∨ '\n' ∈ s.toList

theorem shields_iff (s : String) : rfc4180.Shields needsQuotes s.toList ↔ Shielded s :=
  imp_congr Iff.rfl (needsQuotes_iff s.toList)

theorem shielded_of_not_mem {s : String} (h : '\r' ∉ s.toList) : Shielded s := fun hcr => absurd hcr h

theorem numberText_shielded (fmt : NumberFormat) (n : Binary64) : Shielded (numberText fmt n) := by
  refine shielded_of_not_mem ?_
  cases n with
  | finite x =>
    intro hcr
    have hchars : '\r' ∈ (fmt.write x.value).chars := by simpa [numberText] using hcr
    exact absurd (JsonText.Numeral.isNumeralChar _ _ hchars) (by decide)
  | infinite negative => cases negative <;> simp [numberText]
  | nan => simp [numberText]

theorem numberCell_shielded (fmt : NumberFormat) (n : Option Binary64) :
    Shielded (numberCell fmt n) := by
  cases n with
  | none => exact shielded_of_not_mem (by simp [numberCell])
  | some n => exact numberText_shielded fmt n

/-- The texts of a row that are the fleet's own. -/
def fleetTexts (statuses : Statuses) (v : Vehicle) : List String :=
  let s := statuses v.vehicleId
  [v.vehicleId, v.displayName, v.vehicleType, ((s.bind (·.lease)).map (·.operatorName)).getD "",
    ((s.bind (·.telemetry)).bind (·.mode)).getD ""]

theorem header_shielded : ∀ s ∈ header, Shielded s := by
  have hplain : ∀ s ∈ header, '\r' ∉ s.toList := by decide
  exact fun s hs => shielded_of_not_mem (hplain s hs)

theorem fleetRow_shielded_iff (fmt : NumberFormat) (statuses : Statuses) (v : Vehicle) :
    (∀ s ∈ fleetRow fmt statuses v, Shielded s) ↔ ∀ s ∈ fleetTexts statuses v, Shielded s := by
  have hclass : Shielded (classifyDevice v).name := by
    cases classifyDevice v <;> exact shielded_of_not_mem (by decide)
  have honline : Shielded (if (statuses v.vehicleId).any (·.online) then "true" else "false") := by
    split <;> exact shielded_of_not_mem (by decide)
  simp [fleetRow, fleetTexts, numberCell_shielded, hclass, honline]

theorem fleetRows_shielded_iff (fmt : NumberFormat) (vehicles : List Vehicle) (statuses : Statuses) :
    (∀ r ∈ csvTable (fleetRows fmt vehicles statuses), ∀ c ∈ r, rfc4180.Shields needsQuotes c) ↔
      ∀ v ∈ vehicles, ∀ s ∈ fleetTexts statuses v, Shielded s := by
  simp only [csvTable, fleetRows, List.map_cons, List.mem_cons, forall_eq_or_imp, List.mem_map,
    forall_exists_index, and_imp, forall_apply_eq_imp_iff₂, shields_iff]
  simp only [← fleetRow_shielded_iff fmt]
  exact ⟨fun h => h.2, fun h => ⟨header_shielded, h⟩⟩

theorem csvTable_ne (fmt : NumberFormat) (vehicles : List Vehicle) (statuses : Statuses) :
    ∀ r ∈ csvTable (fleetRows fmt vehicles statuses), r ≠ [] ∧ r ≠ [[]] := by
  intro r hr
  obtain ⟨cells, hcells, rfl⟩ := List.mem_map.mp hr
  rcases List.mem_cons.mp hcells with rfl | hcells
  · simp [header]
  · obtain ⟨v, -, rfl⟩ := List.mem_map.mp hcells
    simp [fleetRow]

theorem fleetToCsv_toList (fmt : NumberFormat) (vehicles : List Vehicle) (statuses : Statuses) :
    (fleetToCsv fmt vehicles statuses).toList =
      '\uFEFF' :: rfc4180.write needsQuotes (csvTable (fleetRows fmt vehicles statuses)) := by
  simp [fleetToCsv]

theorem fleetToCsv_reads_back_iff (fmt : NumberFormat) (vehicles : List Vehicle)
    (statuses : Statuses) :
    (∃ text, (fleetToCsv fmt vehicles statuses).toList = '\uFEFF' :: text ∧
        rfc4180.IsFile text (csvTable (fleetRows fmt vehicles statuses)) ∧
        rfc4180.parse text = some (csvTable (fleetRows fmt vehicles statuses))) ↔
      ∀ v ∈ vehicles, ∀ s ∈ fleetTexts statuses v, Shielded s := by
  rw [← fleetRows_shielded_iff fmt, ← Marks.parse_write_iff quotesMarks (by simp [csvTable, fleetRows])
    (csvTable_ne fmt vehicles statuses), fleetToCsv_toList]
  constructor
  · rintro ⟨text, htext, hread⟩
    obtain rfl := (List.cons.inj htext).2
    exact hread
  · exact fun hread => ⟨_, rfl, hread⟩

private def dock : Vehicle := ⟨"rover-1", "Rover\rOne", "WHEELED"⟩

/-- The display name breaks the row in two. -/
theorem dock_not_read_back :
    ¬ (∃ text, (fleetToCsv wholeNumbers [dock] fun _ => none).toList = '\uFEFF' :: text ∧
        rfc4180.IsFile text (csvTable (fleetRows wholeNumbers [dock] fun _ => none)) ∧
        rfc4180.parse text = some (csvTable (fleetRows wholeNumbers [dock] fun _ => none))) := by
  rintro ⟨text, htext, -, hparse⟩
  rw [fleetToCsv_toList] at htext
  obtain rfl := (List.cons.inj htext).2
  exact absurd hparse (by decide +kernel)

end Rvep.Web
