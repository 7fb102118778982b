import Mathlib.Data.List.Basic
import Mathlib.Data.List.Infix

/-!
# Comma-separated values

The grammar of RFC 4180 over any alphabet, with CR, LF or CRLF between two
records, a parser for it, and writers that quote some of the fields. Which
fields a writer quotes decides whether its tables are read back.
-/

namespace Csv

/-- The characters that mean something. -/
structure Marks (α : Type u) where
  comma : α
  quote : α
  cr : α
  lf : α
  distinct : [comma, quote, cr, lf].Nodup

/-- Records of fields. -/
abbrev Table (α : Type u) := List (List (List α))

namespace Marks

variable {α : Type u} (M : Marks α)

theorem ne : M.comma ≠ M.quote ∧ M.comma ≠ M.cr ∧ M.comma ≠ M.lf ∧
    M.quote ≠ M.cr ∧ M.quote ≠ M.lf ∧ M.cr ≠ M.lf := by
  have h := M.distinct
  simp only [List.nodup_cons, List.mem_cons, List.not_mem_nil, or_false, not_or] at h
  exact ⟨h.1.1, h.1.2.1, h.1.2.2, h.2.1.1, h.2.1.2, h.2.2.1⟩

-- ---------------------------------------------------------------------------
-- Tables from their end
-- ---------------------------------------------------------------------------

/-- What a character adds in front of what is read after it. -/
inductive Act (α : Type u)
  | skip
  | push (c : α)
  | nextField
  | nextRecord

def Act.apply : Act α → Table α → Table α
  | .push c, (v :: r) :: t => ((c :: v) :: r) :: t
  | .nextField, r :: t => ([] :: r) :: t
  | .nextRecord, t => [[]] :: t
  | _, t => t

/-- `v` in front of the field that comes first. -/
def prefixField (v : List α) : Table α → Table α
  | (w :: r) :: t => ((v ++ w) :: r) :: t
  | t => t

@[simp] theorem prefixField_nil : prefixField ([] : List α) = id := by
  funext t
  unfold prefixField
  split <;> simp_all

@[simp] theorem apply_skip : (Act.skip : Act α).apply = id := rfl

@[simp] theorem apply_nextRecord : (Act.nextRecord : Act α).apply = ([[]] :: ·) := rfl

@[simp] theorem apply_push_prefixField (c : α) (v : List α) (t : Table α) :
    (Act.push c).apply (prefixField v t) = prefixField (c :: v) t := by
  cases t with
  | nil => rfl
  | cons r t => cases r <;> rfl

def consField (v : List α) : Table α → Table α
  | r :: t => (v :: r) :: t
  | [] => []

-- ---------------------------------------------------------------------------
-- The grammar
-- ---------------------------------------------------------------------------

def IsPlain (c : α) : Prop := c ≠ M.comma ∧ c ≠ M.quote ∧ c ≠ M.cr ∧ c ≠ M.lf

variable [DecidableEq α]

/-- Quotes inside a quoted field come twice. -/
def doubled : List α → List α
  | [] => []
  | c :: cs => if c = M.quote then c :: c :: doubled cs else c :: doubled cs

def quoted (v : List α) : List α := M.quote :: (M.doubled v ++ [M.quote])

/-- `raw` is a field of the grammar and stands for `v`. -/
inductive IsField : List α → List α → Prop
  | bare {v : List α} : (∀ c ∈ v, M.IsPlain c) → IsField v v
  | quoted (v : List α) : IsField (M.quoted v) v

inductive IsRecord : List α → List (List α) → Prop
  | last {raw v : List α} : M.IsField raw v → IsRecord raw [v]
  | more {raw v rest : List α} {r : List (List α)} :
    M.IsField raw v → IsRecord rest r → IsRecord (raw ++ M.comma :: rest) (v :: r)

inductive IsSeparator : List α → Prop
  | cr : IsSeparator [M.cr]
  | lf : IsSeparator [M.lf]
  | crlf : IsSeparator [M.cr, M.lf]

inductive IsFile : List α → Table α → Prop
  | last {raw : List α} {r : List (List α)} : M.IsRecord raw r → IsFile raw [r]
  | more {raw sep rest : List α} {r : List (List α)} {t : Table α} :
    M.IsRecord raw r → M.IsSeparator sep → IsFile rest t → IsFile (raw ++ (sep ++ rest)) (r :: t)

-- ---------------------------------------------------------------------------
-- The parser
-- ---------------------------------------------------------------------------

/-- Where the parser stands: at the start of a record (after a CR, a LF is
still part of the separator), at the start of a field, or inside one. -/
inductive Mode | record | cr | field | bare | quoted | closed
  deriving DecidableEq, Repr

/-- A quote opens a field, or follows another one inside a quoted field. -/
def onQuote (c : α) : Mode → Option (Act α × Mode)
  | .bare => none
  | .closed => some (.push c, .quoted)
  | _ => some (.skip, .quoted)

def onOther (c : α) : Mode → Option (Act α × Mode)
  | .closed => none
  | _ => some (.push c, .bare)

/-- `none` is a text that does not conform. -/
def step (mode : Mode) (c : α) : Option (Act α × Mode) :=
  if mode = .quoted then
    if c = M.quote then some (.skip, .closed) else some (.push c, .quoted)
  else if c = M.comma then some (.nextField, .field)
  else if c = M.cr then some (.nextRecord, .cr)
  else if c = M.lf then some (if mode = .cr then .skip else .nextRecord, .record)
  else if c = M.quote then onQuote c mode
  else onOther c mode

/-- A separator may end the text; nothing follows it. -/
def finish : Mode → Option (Table α)
  | .record | .cr => some []
  | .quoted => none
  | .field | .bare | .closed => some [[[]]]

def read : Mode → List α → Option (Table α)
  | mode, [] => finish mode
  | mode, c :: cs =>
    match M.step mode c with
    | none => none
    | some (act, mode') => (read mode' cs).map act.apply

def parse (text : List α) : Option (Table α) := M.read .record text

-- ---------------------------------------------------------------------------
-- Reading fields
-- ---------------------------------------------------------------------------

variable {M}

theorem step_plain {c : α} (h : M.IsPlain c) {mode : Mode} (hq : mode ≠ .quoted)
    (hc : mode ≠ .closed) : M.step mode c = some (.push c, .bare) := by
  obtain ⟨hcomma, hquote, hcr, hlf⟩ := h
  cases mode <;> simp_all [step, onOther]

theorem read_plain {v : List α} (h : ∀ c ∈ v, M.IsPlain c) (rest : List α) :
    M.read .bare (v ++ rest) = (M.read .bare rest).map (prefixField v) := by
  induction v with
  | nil => simp
  | cons c v ih =>
    have hplain := h c List.mem_cons_self
    have hv := ih fun d hd => h d (List.mem_cons_of_mem c hd)
    simp [read, step_plain hplain, hv, Function.comp_def]

theorem read_doubled (v rest : List α) :
    M.read .quoted (M.doubled v ++ M.quote :: rest) =
      (M.read .closed rest).map (prefixField v) := by
  induction v with
  | nil => simp [doubled, read, step]
  | cons c v ih =>
    by_cases hc : c = M.quote
    · subst hc
      obtain ⟨hcomma, -, -, hcr, hlf, -⟩ := M.ne
      simp [doubled, read, step, onQuote, ih, Function.comp_def, hcomma.symm, hcr, hlf]
    · simp [doubled, read, step, hc, ih, Function.comp_def]

/-- After the field comes `tail`, which ends its record; `k` is read from there on. -/
def Closes (M : Marks α) (tail : List α) (k : Option (Table α)) : Prop :=
  ∀ mode, mode = .field ∨ mode = .bare ∨ mode = .closed → M.read mode tail = k.map ([[]] :: ·)

theorem closes_nil : M.Closes [] (some []) := by
  rintro mode (rfl | rfl | rfl) <;> rfl

theorem closes_cr (rest : List α) : M.Closes (M.cr :: rest) (M.read .cr rest) := by
  obtain ⟨-, hcomma, -, -, -, -⟩ := M.ne
  rintro mode (rfl | rfl | rfl) <;> simp [read, step, hcomma.symm]

theorem closes_lf (rest : List α) : M.Closes (M.lf :: rest) (M.read .record rest) := by
  obtain ⟨-, -, hcomma, -, -, hcr⟩ := M.ne
  rintro mode (rfl | rfl | rfl) <;> simp [read, step, hcomma.symm, hcr.symm]

theorem closes_crlf (rest : List α) :
    M.Closes (M.cr :: M.lf :: rest) (M.read .record rest) := by
  have hlf : M.read .cr (M.lf :: rest) = M.read .record rest := by
    obtain ⟨-, -, hcomma, -, -, hcr⟩ := M.ne
    simp [read, step, hcomma.symm, hcr.symm]
  exact hlf ▸ M.closes_cr (M.lf :: rest)

/-- A field is read up to a character that ends it. -/
theorem read_field {raw v tail : List α} (h : M.IsField raw v)
    (hsame : ∀ mode, mode = .field ∨ mode = .bare ∨ mode = .closed →
      M.read mode tail = M.read .field tail) :
    M.read .field (raw ++ tail) = (M.read .field tail).map (prefixField v) := by
  cases h with
  | quoted =>
    obtain ⟨hcomma, -, -, hcr, hlf, -⟩ := M.ne
    have hopen : M.read .field (M.quoted v ++ tail) =
        M.read .quoted (M.doubled v ++ M.quote :: tail) := by
      simp [quoted, read, step, onQuote, hcomma.symm, hcr, hlf]
    rw [hopen, read_doubled, hsame .closed (by simp)]
  | bare hplain =>
    cases raw with
    | nil => simp
    | cons c cs =>
      have hfirst : M.read .field (c :: cs ++ tail) = M.read .bare (c :: cs ++ tail) := by
        have hc := hplain c List.mem_cons_self
        rw [List.cons_append, read, read, step_plain hc (by simp) (by simp),
          step_plain hc (by simp) (by simp)]
      rw [hfirst, read_plain hplain, hsame .bare (by simp)]

theorem field_closes {raw v tail : List α} {k : Option (Table α)} (h : M.IsField raw v)
    (hk : M.Closes tail k) : M.read .field (raw ++ tail) = k.map ([v] :: ·) := by
  rw [read_field h fun mode hmode => (hk mode hmode).trans (hk .field (.inl rfl)).symm,
    hk .field (.inl rfl)]
  cases k <;> simp [prefixField]

theorem field_comma {raw v : List α} (h : M.IsField raw v) (rest : List α) :
    M.read .field (raw ++ M.comma :: rest) = (M.read .field rest).map (consField v) := by
  have hcomma (mode : Mode) (hmode : mode = .field ∨ mode = .bare ∨ mode = .closed) :
      M.read mode (M.comma :: rest) = (M.read .field rest).map Act.nextField.apply := by
    rcases hmode with rfl | rfl | rfl <;> simp [read, step]
  rw [read_field h fun mode hmode => (hcomma mode hmode).trans (hcomma .field (.inl rfl)).symm,
    hcomma .field (.inl rfl), Option.map_map]
  refine congrArg (Option.map · _) (funext fun t => ?_)
  cases t <;> simp [Act.apply, prefixField, consField]

-- ---------------------------------------------------------------------------
-- Reading records and files
-- ---------------------------------------------------------------------------

theorem record_closes {raw tail : List α} {r : List (List α)} {k : Option (Table α)}
    (h : M.IsRecord raw r) (hk : M.Closes tail k) :
    M.read .field (raw ++ tail) = k.map (r :: ·) := by
  induction h with
  | last hfield => exact field_closes hfield hk
  | more hfield _ ih =>
    rw [List.append_assoc, List.cons_append, field_comma hfield, ih, Option.map_map]
    rfl

/-- At the start of a line, what is not a separator starts a field. -/
theorem read_start {c : α} (hc : c ≠ M.lf) {mode : Mode} (hmode : mode = .record ∨ mode = .cr)
    (cs : List α) : M.read mode (c :: cs) = M.read .field (c :: cs) := by
  rcases hmode with rfl | rfl <;> simp [read, step, onQuote, onOther, hc]

theorem field_head {raw v : List α} (h : M.IsField raw v) : ∀ c ∈ raw.head?, c ≠ M.lf := by
  cases h with
  | bare hplain => exact fun c hc => (hplain c (List.mem_of_mem_head? hc)).2.2.2
  | quoted =>
    rintro c hc
    obtain rfl : M.quote = c := by simpa [quoted] using hc
    exact M.ne.2.2.2.2.1

theorem record_head {raw : List α} {r : List (List α)} (h : M.IsRecord raw r) (hr : r ≠ [[]]) :
    ∃ c cs, raw = c :: cs ∧ c ≠ M.lf := by
  cases h with
  | @last _ v hfield =>
    cases raw with
    | cons c cs => exact ⟨c, cs, rfl, field_head hfield c rfl⟩
    | nil => cases hfield; exact absurd rfl hr
  | @more raw _ _ _ hfield =>
    cases raw with
    | cons c cs => exact ⟨c, _, rfl, field_head hfield c rfl⟩
    | nil => exact ⟨M.comma, _, rfl, M.ne.2.2.1⟩

theorem read_record {raw tail : List α} {r : List (List α)} {k : Option (Table α)}
    (h : M.IsRecord raw r) (hr : r ≠ [[]]) (hk : M.Closes tail k) {mode : Mode}
    (hmode : mode = .record ∨ mode = .cr) : M.read mode (raw ++ tail) = k.map (r :: ·) := by
  obtain ⟨c, cs, rfl, hc⟩ := record_head h hr
  exact (read_start hc hmode _).trans (record_closes h hk)

theorem read_file {text : List α} {t : Table α} (h : M.IsFile text t) (ht : ∀ r ∈ t, r ≠ [[]])
    {mode : Mode} (hmode : mode = .record ∨ mode = .cr) : M.read mode text = some t := by
  induction h generalizing mode with
  | last hrecord =>
    have hread := read_record hrecord (ht _ List.mem_cons_self) closes_nil hmode
    rwa [List.append_nil] at hread
  | more hrecord hsep _ ih =>
    have hr := ht _ List.mem_cons_self
    have hrest := fun r hr => ht r (List.mem_cons_of_mem _ hr)
    cases hsep with
    | cr => rw [List.cons_append, read_record hrecord hr (closes_cr _) hmode]; simp [ih hrest]
    | lf => rw [List.cons_append, read_record hrecord hr (closes_lf _) hmode]; simp [ih hrest]
    | crlf =>
      rw [List.cons_append, List.cons_append, read_record hrecord hr (closes_crlf _) hmode]
      simp [ih hrest]

/-- The parser reads every text of the grammar, unless a line is empty. -/
theorem parse_file {text : List α} {t : Table α} (h : M.IsFile text t) (ht : ∀ r ∈ t, r ≠ [[]]) :
    M.parse text = some t := read_file h ht (.inl rfl)

-- ---------------------------------------------------------------------------
-- Writers
-- ---------------------------------------------------------------------------

section
variable (M) (quotes : List α → Bool)

/-- A field is written as it is, or quoted. -/
def writeField (v : List α) : List α := if quotes v then M.quoted v else v

def writeRecord (r : List (List α)) : List α := [M.comma].intercalate (r.map (M.writeField quotes))

def write (t : Table α) : List α := [M.lf].intercalate (t.map (M.writeRecord quotes))

end

section
variable {quotes : List α → Bool}

@[simp] theorem writeRecord_singleton (v : List α) :
    M.writeRecord quotes [v] = M.writeField quotes v := by
  simp [writeRecord, List.intercalate]

theorem writeRecord_cons (v w : List α) (r : List (List α)) :
    M.writeRecord quotes (v :: w :: r) =
      M.writeField quotes v ++ M.comma :: M.writeRecord quotes (w :: r) := by
  simp [writeRecord, List.intercalate]

@[simp] theorem write_singleton (r : List (List α)) : M.write quotes [r] = M.writeRecord quotes r := by
  simp [write, List.intercalate]

theorem write_cons (r s : List (List α)) (t : Table α) :
    M.write quotes (r :: s :: t) = M.writeRecord quotes r ++ M.lf :: M.write quotes (s :: t) := by
  simp [write, List.intercalate]

/-- The writer quotes every field with a comma, a quote or a line feed in it. -/
def QuotesMarks (M : Marks α) (quotes : List α → Bool) : Prop :=
  ∀ v, M.comma ∈ v ∨ M.quote ∈ v ∨ M.lf ∈ v → quotes v = true

/-- A carriage return is in the field only if the writer quotes it. -/
def Shields (M : Marks α) (quotes : List α → Bool) (v : List α) : Prop :=
  M.cr ∈ v → quotes v = true

omit [DecidableEq α] in
theorem plain_of_not_quotes (hq : M.QuotesMarks quotes) {v : List α} (h : ¬ quotes v = true)
    {c : α} (hc : c ∈ v) (hcr : c ≠ M.cr) : M.IsPlain c := by
  refine ⟨?_, ?_, hcr, ?_⟩ <;> rintro rfl
  · exact h (hq v (.inl hc))
  · exact h (hq v (.inr (.inl hc)))
  · exact h (hq v (.inr (.inr hc)))

theorem isField_write (hq : M.QuotesMarks quotes) {v : List α} (hv : M.Shields quotes v) :
    M.IsField (M.writeField quotes v) v := by
  unfold writeField
  split
  next => exact .quoted v
  next h =>
    refine .bare fun c hc => plain_of_not_quotes hq h hc ?_
    rintro rfl
    exact h (hv hc)

theorem isRecord_write (hq : M.QuotesMarks quotes) {r : List (List α)} (hr : r ≠ [])
    (h : ∀ v ∈ r, M.Shields quotes v) : M.IsRecord (M.writeRecord quotes r) r := by
  induction r with
  | nil => exact absurd rfl hr
  | cons v r ih =>
    have hfield := isField_write hq (h v List.mem_cons_self)
    cases r with
    | nil => simpa using IsRecord.last hfield
    | cons w r =>
      rw [writeRecord_cons]
      exact .more hfield (ih (by simp) fun u hu => h u (List.mem_cons_of_mem v hu))

theorem isFile_write (hq : M.QuotesMarks quotes) {t : Table α} (ht : t ≠ []) (hr : ∀ r ∈ t, r ≠ [])
    (h : ∀ r ∈ t, ∀ v ∈ r, M.Shields quotes v) : M.IsFile (M.write quotes t) t := by
  induction t with
  | nil => exact absurd rfl ht
  | cons r t ih =>
    have hrecord := isRecord_write hq (hr r List.mem_cons_self) (h r List.mem_cons_self)
    cases t with
    | nil => simpa using IsFile.last hrecord
    | cons s t =>
      rw [write_cons]
      exact .more hrecord .lf (ih (by simp) (fun u hu => hr u (List.mem_cons_of_mem r hu))
        fun u hu => h u (List.mem_cons_of_mem r hu))

/-- A carriage return that is not quoted cuts the field, and its record, short. -/
theorem cut_short (hq : M.QuotesMarks quotes) {v : List α} (hv : ¬ M.Shields quotes v)
    (tail : List α) : ∃ (u : List α) (k : Option (Table α)), u ≠ v ∧
      M.read .field (M.writeField quotes v ++ tail) = k.map ([u] :: ·) := by
  obtain ⟨hcr, hbare⟩ : M.cr ∈ v ∧ ¬ quotes v = true := by simpa [Shields] using hv
  obtain ⟨u, w, rfl, hu⟩ := List.eq_append_cons_of_mem hcr
  refine ⟨u, M.read .cr (w ++ tail), by simp, ?_⟩
  have hfield : M.IsField u u := by
    refine .bare fun c hc => plain_of_not_quotes hq hbare (List.mem_append_left _ hc) ?_
    rintro rfl
    exact hu hc
  rw [writeField, if_neg hbare, List.append_assoc, List.cons_append]
  exact field_closes hfield (closes_cr _)

theorem record_shields (hq : M.QuotesMarks quotes) {r : List (List α)} (hr : r ≠ [])
    {tail : List α} {k : Option (Table α)} (hk : M.Closes tail k) {t : Table α}
    (h : M.read .field (M.writeRecord quotes r ++ tail) = some (r :: t)) :
    (∀ v ∈ r, M.Shields quotes v) ∧ k = some t := by
  induction r generalizing t with
  | nil => exact absurd rfl hr
  | cons v r ih =>
    have hv : M.Shields quotes v := by
      by_contra hv
      obtain ⟨raw, hraw⟩ : ∃ raw, M.writeRecord quotes (v :: r) = M.writeField quotes v ++ raw := by
        cases r with
        | nil => exact ⟨[], by simp⟩
        | cons w r => exact ⟨_, writeRecord_cons v w r⟩
      obtain ⟨u, k, hne, hread⟩ := cut_short hq hv (raw ++ tail)
      rw [hraw, List.append_assoc, hread] at h
      obtain ⟨t', -, heq⟩ := Option.map_eq_some_iff.mp h
      exact hne (List.cons.inj (List.cons.inj heq).1).1
    have hfield := isField_write hq hv
    cases r with
    | nil =>
      rw [writeRecord_singleton, field_closes hfield hk] at h
      obtain ⟨t', rfl, heq⟩ := Option.map_eq_some_iff.mp h
      obtain rfl : t' = t := by simpa using heq
      exact ⟨by simpa using hv, rfl⟩
    | cons w r =>
      rw [writeRecord_cons, List.append_assoc, List.cons_append, field_comma hfield] at h
      obtain ⟨t', hread, heq⟩ := Option.map_eq_some_iff.mp h
      cases t' with
      | nil => simp [consField] at heq
      | cons r' t' =>
        obtain ⟨rfl, rfl⟩ : r' = w :: r ∧ t' = t := by simpa [consField] using heq
        obtain ⟨hr, rfl⟩ := ih (by simp) hread
        exact ⟨by simpa [hv] using hr, rfl⟩

theorem writeField_head (hq : M.QuotesMarks quotes) (v : List α) :
    ∀ c ∈ (M.writeField quotes v).head?, c ≠ M.lf := by
  unfold writeField
  split
  next => exact field_head (.quoted v)
  next h =>
    rintro c hc rfl
    exact h (hq v (.inr (.inr (List.mem_of_mem_head? hc))))

theorem writeRecord_head (hq : M.QuotesMarks quotes) {r : List (List α)} (hr : r ≠ [])
    (hempty : r ≠ [[]]) : ∃ c cs, M.writeRecord quotes r = c :: cs ∧ c ≠ M.lf := by
  cases r with
  | nil => exact absurd rfl hr
  | cons v r =>
    have hhead := writeField_head hq v
    cases hv : M.writeField quotes v with
    | cons c cs =>
      rw [hv] at hhead
      cases r with
      | nil => exact ⟨c, cs, by simp [hv], hhead c rfl⟩
      | cons w r => exact ⟨c, _, by rw [writeRecord_cons, hv, List.cons_append], hhead c rfl⟩
    | nil =>
      cases r with
      | cons w r => exact ⟨M.comma, _, by rw [writeRecord_cons, hv, List.nil_append], M.ne.2.2.1⟩
      | nil =>
        have hnil : v = [] := by
          unfold writeField at hv
          split at hv
          next => simp [quoted] at hv
          next => exact hv
        exact absurd (congrArg (fun v => [v]) hnil) hempty

theorem file_shields (hq : M.QuotesMarks quotes) {t : Table α} (hr : ∀ r ∈ t, r ≠ [] ∧ r ≠ [[]])
    (h : M.parse (M.write quotes t) = some t) : ∀ r ∈ t, ∀ v ∈ r, M.Shields quotes v := by
  induction t with
  | nil => simp
  | cons r t ih =>
    obtain ⟨hr₀, hempty⟩ := hr r List.mem_cons_self
    obtain ⟨c, cs, hraw, hc⟩ := writeRecord_head hq hr₀ hempty
    have hstart (tail : List α) : M.read .record (M.writeRecord quotes r ++ tail) =
        M.read .field (M.writeRecord quotes r ++ tail) := by
      rw [hraw]
      exact read_start hc (.inl rfl) _
    cases t with
    | nil =>
      have hread := hstart []
      rw [List.append_nil] at hread
      rw [parse, write_singleton, hread, ← List.append_nil (M.writeRecord quotes r)] at h
      simpa using (record_shields hq hr₀ closes_nil h).1
    | cons s t =>
      rw [parse, write_cons, hstart] at h
      obtain ⟨hfirst, hrest⟩ := record_shields hq hr₀ (closes_lf _) h
      have hlater := ih (fun u hu => hr u (List.mem_cons_of_mem r hu)) hrest
      intro u hu
      rcases List.mem_cons.mp hu with rfl | hu
      · exact hfirst
      · exact hlater u hu

/-- A table is written and read back just if no carriage return goes unquoted. -/
theorem parse_write_iff (hq : M.QuotesMarks quotes) {t : Table α} (ht : t ≠ [])
    (hr : ∀ r ∈ t, r ≠ [] ∧ r ≠ [[]]) :
    M.IsFile (M.write quotes t) t ∧ M.parse (M.write quotes t) = some t ↔
      ∀ r ∈ t, ∀ v ∈ r, M.Shields quotes v := by
  constructor
  · rintro ⟨-, hparse⟩
    exact file_shields hq hr hparse
  · intro h
    have hfile := isFile_write hq ht (fun r hmem => (hr r hmem).1) h
    exact ⟨hfile, parse_file hfile fun r hmem => (hr r hmem).2⟩

end

end Marks

end Csv
