import Rvep.Publisher.LineProtocol
import Rvep.Backend.SchemaLaws

/-!
# The dataset's metadata file

`apps/mock-edge/src/metadata-writer.ts`: one JSON line a frame, appended to a
file that the vehicle and the session name, and a manifest of that file for the
backend whenever it is finalized.
-/

namespace Rvep.Edge

open Reactive
open Publisher (byteSize)

-- ---------------------------------------------------------------------------
-- Paths
-- ---------------------------------------------------------------------------

/-- `[a-zA-Z0-9_-]` -/
def isNameChar (c : Char) : Bool := c.isAlphanum || c == '_' || c == '-'

/-- The expression has no flag `u`, so what takes two code units is replaced twice. -/
def sanitize (s : String) : List Char :=
  s.toList.flatMap fun c =>
    if isNameChar c then [c] else if c.toNat < 0x10000 then ['_'] else ['_', '_']

/-- A normalized path. -/
structure Path where
  absolute : Bool
  segments : List (List Char)
  deriving DecidableEq, Repr

/-- The segments so far, the last one first, and one more. -/
def resolve (absolute : Bool) (done : List (List Char)) (segment : List Char) : List (List Char) :=
  if segment = [] ∨ segment = ['.'] then done
  else if segment = ['.', '.'] then
    match done with
    | [] => if absolute then [] else [segment]
    | top :: rest => if top = ['.', '.'] then segment :: done else rest
  else segment :: done

/-- `path.normalize` -/
def Path.normalize (path : String) : Path :=
  let absolute := path.toList.head? == some '/'
  ⟨absolute, ((path.toList.splitOn '/').foldl (resolve absolute) []).reverse⟩

/-- `path.join` of a path and names without slashes. -/
def Path.join (path : Path) (names : List (List Char)) : Path :=
  { path with segments := (names.foldl (resolve path.absolute) path.segments.reverse).reverse }

def Path.text (path : Path) : String :=
  String.ofList ((if path.absolute then ['/'] else []) ++ ['/'].intercalate path.segments)

structure MetadataWriterOptions where
  rootDir : String
  vehicleId : String
  sessionId : String

def MetadataWriterOptions.filePath (opts : MetadataWriterOptions) : Path :=
  let dir := (Path.normalize opts.rootDir).join [sanitize opts.vehicleId, sanitize opts.sessionId]
  dir.join ["metadata.jsonl".toList]

-- ---------------------------------------------------------------------------
-- Frames
-- ---------------------------------------------------------------------------

/-- Object properties; `undefined` is a value they may have. -/
abbrev Properties := List (String × Option Json)

def assign (fields : Properties) (field : String × Option Json) : Properties :=
  if fields.any (·.1 == field.1) then
    fields.map fun old => if old.1 == field.1 then field else old
  else fields ++ [field]

/-- `{ ...fields, ...patch }` -/
def spread (fields patch : Properties) : Properties := patch.foldl assign fields

/-- `JSON.stringify` leaves out what is `undefined`. -/
def definedFields (fields : Properties) : List (String × Json) :=
  fields.filterMap fun field => field.2.map (field.1, ·)

def metadataFrame (opts : MetadataWriterOptions) (ts : String) (monotonicNs : ℚ) (frameNo : Nat)
    (frame : Properties) : Json :=
  .obj (definedFields (spread
    [("ts", some (.str ts)), ("monotonicNs", some (.num monotonicNs)),
      ("vehicleId", some (.str opts.vehicleId)), ("sessionId", some (.str opts.sessionId)),
      ("connectionEpoch", some (.num 1)), ("cameraId", some (.str "all")),
      ("frameNo", some (.num frameNo)), ("datasetVersion", some (.str "v1"))] frame))

def metadataLine (fmt : NumberFormat) (frame : Json) : List Char :=
  (frame.tree fmt).write stringifyStyle

-- ---------------------------------------------------------------------------
-- The writer
-- ---------------------------------------------------------------------------

structure MetadataWriter where
  isOpen : Bool
  frameNo : Nat
  startedAt : Int
  bytesWritten : Nat
  deriving DecidableEq, Repr

/-- The writer and the file it appends to. -/
structure Recording where
  writer : MetadataWriter
  file : List Char
  deriving DecidableEq, Repr

/-- The system calls may throw. -/
inductive MetadataCall
  | open (throws : Bool)
  | append (ts : String) (monotonicNs : ℚ) (frame : Properties) (openThrows writeThrows : Bool)
  | finalize (now : Int)
  deriving DecidableEq, Repr

inductive MetadataEffect
  | wrote (frame : Json)
  | posts (manifest : Json)
  deriving DecidableEq, Repr

namespace MetadataWriter

def openFile (w : MetadataWriter) (throws : Bool) : MetadataWriter :=
  if w.isOpen then w else { w with isOpen := !throws }

def manifest (opts : MetadataWriterOptions) (w : MetadataWriter) (now : Int) : Json :=
  .obj
    [("vehicleId", .str opts.vehicleId), ("sessionId", .str opts.sessionId), ("cameraId", .null),
      ("kind", .str "METADATA"), ("source", .str "ORIN_LOCAL"), ("path", .str opts.filePath.text),
      ("sizeBytes", .num w.bytesWritten), ("durationMs", .num ((now - w.startedAt : Int) : ℚ)),
      ("metadata", .obj [("frameCount", .num w.frameNo), ("datasetVersion", .str "v1")])]

end MetadataWriter

def Recording.append (fmt : NumberFormat) (opts : MetadataWriterOptions) (r : Recording) (ts : String)
    (monotonicNs : ℚ) (frame : Properties) (openThrows writeThrows : Bool) :
    Recording × List MetadataEffect :=
  let w := r.writer.openFile openThrows
  if !w.isOpen then ({ r with writer := w }, [])
  else
    let w := { w with frameNo := w.frameNo + 1 }
    let frame := metadataFrame opts ts monotonicNs w.frameNo frame
    if writeThrows then ({ r with writer := w }, [])
    else
      let line := metadataLine fmt frame ++ ['\n']
      ({ writer := { w with bytesWritten := w.bytesWritten + byteSize line }, file := r.file ++ line },
        [.wrote frame])

def Recording.finalize (opts : MetadataWriterOptions) (r : Recording) (now : Int) :
    Recording × List MetadataEffect :=
  if !r.writer.isOpen then (r, [])
  else ({ r with writer := { r.writer with isOpen := false } }, [.posts (r.writer.manifest opts now)])

/-- A writer that is made at `startedAt`, and a file that may be there already. -/
def recording (fmt : NumberFormat) (opts : MetadataWriterOptions) (startedAt : Int) (file : List Char) :
    System Recording MetadataCall (List MetadataEffect) where
  init := { writer := ⟨false, 0, startedAt, 0⟩, file := file }
  step r
    | .open throws => ({ r with writer := r.writer.openFile throws }, [])
    | .append ts monotonicNs frame openThrows writeThrows =>
      r.append fmt opts ts monotonicNs frame openThrows writeThrows
    | .finalize now => r.finalize opts now

-- ---------------------------------------------------------------------------
-- Under the root
-- ---------------------------------------------------------------------------

theorem isNameChar_of_mem {s : String} {c : Char} (h : c ∈ sanitize s) : isNameChar c = true := by
  obtain ⟨d, -, hc⟩ := List.mem_flatMap.mp h
  have hmark : isNameChar '_' = true := rfl
  split at hc
  next hd => exact (List.mem_singleton.mp hc).symm ▸ hd
  next =>
    split at hc
    · exact (List.mem_singleton.mp hc).symm ▸ hmark
    · rcases List.mem_pair.mp hc with rfl | rfl <;> exact hmark

/-- A segment of name characters is no step up, and none is lost but the empty one. -/
theorem resolve_sanitize (absolute : Bool) (done : List (List Char)) (s : String) :
    resolve absolute done (sanitize s) = [sanitize s].filter (· ≠ []) ++ done := by
  have hdot : '.' ∉ sanitize s := fun h => absurd (isNameChar_of_mem h) (by decide)
  by_cases hempty : sanitize s = []
  · rw [hempty]
    rfl
  · have hone : sanitize s ≠ ['.'] := fun h => hdot (h ▸ List.mem_singleton_self _)
    have htwo : sanitize s ≠ ['.', '.'] := fun h => hdot (h ▸ List.mem_cons_self)
    unfold resolve
    rw [if_neg (not_or.mpr ⟨hempty, hone⟩), if_neg htwo]
    simp [hempty]

/-- Whatever the ids are, the file is in the root's directory or below. -/
theorem filePath_segments (opts : MetadataWriterOptions) :
    opts.filePath.segments = (Path.normalize opts.rootDir).segments ++
      [sanitize opts.vehicleId, sanitize opts.sessionId].filter (· ≠ []) ++ ["metadata.jsonl".toList] := by
  have hfile (absolute : Bool) (done : List (List Char)) :
      resolve absolute done "metadata.jsonl".toList = "metadata.jsonl".toList :: done := by
    unfold resolve
    rw [if_neg (by decide), if_neg (by decide)]
  simp only [MetadataWriterOptions.filePath, Path.join, List.foldl_cons, List.foldl_nil,
    resolve_sanitize, hfile, List.reverse_reverse, List.reverse_cons]
  by_cases hv : sanitize opts.vehicleId = [] <;> by_cases hs : sanitize opts.sessionId = [] <;>
    simp [hv, hs]

theorem intercalate_ne_nil {segments : List (List Char)} {segment : List Char}
    (h : segment ∈ segments) (hne : segment ≠ []) : ['/'].intercalate segments ≠ [] := by
  match segments, h with
  | [_], h =>
    obtain rfl := List.mem_singleton.mp h
    simpa [List.intercalate] using hne
  | _ :: _ :: _, _ => simp [List.intercalate]

theorem filePath_text_ne_empty (opts : MetadataWriterOptions) : opts.filePath.text ≠ "" := by
  have hmem : "metadata.jsonl".toList ∈ opts.filePath.segments := by
    rw [filePath_segments]
    exact List.mem_append_right _ (List.mem_singleton_self _)
  intro h
  have hnil := (List.append_eq_nil_iff.mp (String.ofList_eq_empty_iff.mp h)).2
  exact intercalate_ne_nil hmem (by decide) hnil

-- ---------------------------------------------------------------------------
-- Frames that can be read back
-- ---------------------------------------------------------------------------

section
variable {fmt : NumberFormat}

theorem keys_assign (fields : Properties) (field : String × Option Json) :
    (assign fields field).map (·.1) =
      if field.1 ∈ fields.map (·.1) then fields.map (·.1) else fields.map (·.1) ++ [field.1] := by
  have hany : fields.any (·.1 == field.1) = true ↔ field.1 ∈ fields.map (·.1) := by
    simp only [List.any_eq_true, List.mem_map, beq_iff_eq]
  unfold assign
  by_cases hmem : field.1 ∈ fields.map (·.1)
  · rw [if_pos (hany.mpr hmem), if_pos hmem, List.map_map]
    refine List.map_congr_left fun old _ => ?_
    simp only [Function.comp_apply]
    split
    next heq => exact (eq_of_beq heq).symm
    next => rfl
  · rw [if_neg (mt hany.mp hmem), if_neg hmem, List.map_append]
    rfl

theorem nodup_assign {fields : Properties} (h : (fields.map (·.1)).Nodup)
    (field : String × Option Json) :
    ((assign fields field).map (·.1)).Nodup := by
  rw [keys_assign]
  split
  next => exact h
  next hnew => exact List.nodup_append_comm.mp (List.nodup_cons.mpr ⟨hnew, h⟩)

theorem nodup_spread {fields : Properties} (h : (fields.map (·.1)).Nodup) (patch : Properties) :
    ((spread fields patch).map (·.1)).Nodup := by
  induction patch generalizing fields with
  | nil => exact h
  | cons field patch ih => exact ih (nodup_assign h field)

theorem mem_assign {fields : Properties} {field x : String × Option Json}
    (h : x ∈ assign fields field) :
    x ∈ fields ∨ x = field := by
  unfold assign at h
  split at h
  · obtain ⟨old, hold, heq⟩ := List.mem_map.mp h
    split at heq
    · exact .inr heq.symm
    · exact .inl (heq ▸ hold)
  · rcases List.mem_append.mp h with h | h
    · exact .inl h
    · exact .inr (List.mem_singleton.mp h)

theorem mem_spread {fields patch : Properties} {x : String × Option Json}
    (h : x ∈ spread fields patch) :
    x ∈ fields ∨ x ∈ patch := by
  induction patch generalizing fields with
  | nil => exact .inl h
  | cons field patch ih =>
    rcases ih h with h | h
    · rcases mem_assign h with h | rfl
      · exact .inl h
      · exact .inr List.mem_cons_self
    · exact .inr (List.mem_cons_of_mem _ h)

/-- What was given can be sent. -/
def Properties.Sound (fmt : NumberFormat) (fields : Properties) : Prop :=
  ∀ field ∈ fields, ∀ v ∈ field.2, v.Sound fmt

theorem sound_definedFields {fields : Properties} (hkeys : (fields.map (·.1)).Nodup)
    (h : fields.Sound fmt) : (Json.obj (definedFields fields)).Sound fmt := by
  refine ⟨?_, Json.soundFields_iff.mpr fun field hfield => ?_⟩
  · refine List.Nodup.sublist ?_ hkeys
    rw [definedFields, List.map_filterMap]
    clear h hkeys
    induction fields with
    | nil => exact .slnil
    | cons field fields ih =>
      obtain ⟨key, v⟩ := field
      cases v with
      | none => exact ih.cons key
      | some v => exact ih.cons_cons key
  · obtain ⟨old, hold, heq⟩ := List.mem_filterMap.mp hfield
    obtain ⟨v, hv, rfl⟩ := Option.map_eq_some_iff.mp heq
    exact h old hold v hv

theorem sound_metadataFrame (opts : MetadataWriterOptions) (ts : String) {monotonicNs : ℚ}
    (hns : fmt.carried monotonicNs) {frameNo : Nat} (hframeNo : frameNo ≤ 2 ^ 53) {frame : Properties}
    (hframe : frame.Sound fmt) :
    (metadataFrame opts ts monotonicNs frameNo frame).Sound fmt := by
  have hone : fmt.carried 1 := by exact_mod_cast fmt.carried_natCast (by decide : 1 ≤ 2 ^ 53)
  refine sound_definedFields (nodup_spread (by simp) frame) fun field hfield v hv => ?_
  rcases mem_spread hfield with hfield | hfield
  · simp only [List.mem_cons, List.not_mem_nil, or_false] at hfield
    rcases hfield with rfl | rfl | rfl | rfl | rfl | rfl | rfl | rfl <;>
      cases Option.mem_some_iff.mp hv
    all_goals first | trivial | exact hns | exact hone | exact fmt.carried_natCast hframeNo
  · exact hframe field hfield v hv

end

-- ---------------------------------------------------------------------------
-- Runs
-- ---------------------------------------------------------------------------

abbrev MetadataEntry := Entry Recording MetadataCall (List MetadataEffect)
abbrev MetadataLog := Log Recording MetadataCall (List MetadataEffect)

def MetadataEffect.frame? : MetadataEffect → Option Json
  | .wrote frame => some frame
  | .posts _ => none

/-- The frames whose lines were written. -/
def framesWritten (x : MetadataEntry) : List Json := x.output.filterMap MetadataEffect.frame?

/-- The values of a frame can be sent. -/
def MetadataCall.Sound (fmt : NumberFormat) : MetadataCall → Prop
  | .append _ monotonicNs frame _ _ => fmt.carried monotonicNs ∧ frame.Sound fmt
  | _ => True

def newline : Lines.Splitter (List Char) Char := fun pending c =>
  if c = '\n' then ([], some pending.reverse) else (c :: pending, none)

/-- What is behind the last newline, and what `JSON.parse` makes of the lines. -/
def readLines (fmt : NumberFormat) (file : List Char) : List Char × List (Option Json) :=
  let (pending, lines) := Lines.run newline [] file
  (pending, lines.map fun line => parseJson fmt (String.ofList line))

def fileOf (fmt : NumberFormat) (frames : List Json) : List Char :=
  Lines.join '\n' (frames.map (metadataLine fmt))

section
variable {fmt : NumberFormat}

theorem fileOf_append (frames frames' : List Json) :
    fileOf fmt (frames ++ frames') = fileOf fmt frames ++ fileOf fmt frames' := by
  rw [fileOf, List.map_append, Lines.join, List.flatMap_append]
  rfl

theorem newline_holds {line : List Char} (h : '\n' ∉ line) :
    Lines.Holds newline [] '\n' line fun done s => s = done.reverse where
  start := rfl
  keep done c rest s hline hs := by
    have hc : c ≠ '\n' := by
      rintro rfl
      exact h (by rw [← hline]; simp)
    exact ⟨c :: s, if_neg hc, by rw [hs, List.reverse_append]; rfl⟩
  finish s hs := by
    rw [newline, if_pos rfl, hs, List.reverse_reverse]

/-- JSON text has no newline in it, so a line is a value. -/
theorem readLines_fileOf {frames : List Json} (h : ∀ frame ∈ frames, frame.Sound fmt) :
    readLines fmt (fileOf fmt frames) = ([], frames.map some) := by
  have hlines : ∀ line ∈ frames.map (metadataLine fmt),
      ∃ held, Lines.Holds newline [] '\n' line held := by
    intro line hline
    obtain ⟨frame, -, rfl⟩ := List.mem_map.mp hline
    refine ⟨_, newline_holds fun hmem => ?_⟩
    exact Publisher.stringify_covers.write (frame.tree fmt) '\n' hmem (by decide)
  rw [readLines, fileOf, Lines.run_join hlines]
  simp only [List.map_map, Prod.mk.injEq, true_and]
  refine List.map_congr_left fun frame hframe => ?_
  exact parseJson_write (h frame hframe) stringifyStyle

end

/-- A frame gets its number, and its line is not written. -/
def losesWrite (x : MetadataEntry) : Bool :=
  match x.event with
  | .append _ _ _ openThrows writeThrows => (x.before.writer.isOpen || !openThrows) && writeThrows
  | _ => false

def lostWrites (l : MetadataLog) : Nat := l.countP losesWrite

/-- What a run has made of the file, and what the writer knows of it. -/
structure Recorded (fmt : NumberFormat) (startedAt : Int) (existing : List Char) (l : MetadataLog)
    (r : Recording) : Prop where
  file : r.file = existing ++ fileOf fmt (collected framesWritten l)
  bytes : byteSize r.file = byteSize existing + r.writer.bytesWritten
  started : r.writer.startedAt = startedAt
  count : r.writer.frameNo = (collected framesWritten l).length + lostWrites l
  steps : r.writer.frameNo ≤ l.length

section
variable {fmt : NumberFormat} {opts : MetadataWriterOptions} {startedAt : Int} {existing : List Char}
  {past : MetadataLog} {r : Recording}

/-- A step that writes nothing and numbers nothing. -/
theorem Recorded.idle (h : Recorded fmt startedAt existing past r) {x : MetadataEntry}
    (hfile : x.after.file = r.file) (hbytes : x.after.writer.bytesWritten = r.writer.bytesWritten)
    (hstarted : x.after.writer.startedAt = r.writer.startedAt)
    (hframeNo : x.after.writer.frameNo = r.writer.frameNo) (hwritten : framesWritten x = [])
    (hlost : losesWrite x = false) : Recorded fmt startedAt existing (x :: past) x.after where
  file := by rw [collected_cons, hwritten, List.append_nil, hfile, h.file]
  bytes := by rw [hfile, hbytes, h.bytes]
  started := hstarted.trans h.started
  count := by
    rw [collected_cons, hwritten, List.append_nil, hframeNo, h.count, lostWrites, lostWrites,
      List.countP_cons_of_neg (by rw [hlost]; exact Bool.false_ne_true)]
  steps := by
    rw [hframeNo]
    exact Nat.le_succ_of_le h.steps

@[simp] theorem openFile_frameNo (w : MetadataWriter) (throws : Bool) :
    (w.openFile throws).frameNo = w.frameNo := by
  unfold MetadataWriter.openFile
  split <;> rfl

@[simp] theorem openFile_bytesWritten (w : MetadataWriter) (throws : Bool) :
    (w.openFile throws).bytesWritten = w.bytesWritten := by
  unfold MetadataWriter.openFile
  split <;> rfl

@[simp] theorem openFile_startedAt (w : MetadataWriter) (throws : Bool) :
    (w.openFile throws).startedAt = w.startedAt := by
  unfold MetadataWriter.openFile
  split <;> rfl

theorem openFile_isOpen (w : MetadataWriter) (throws : Bool) :
    (w.openFile throws).isOpen = (w.isOpen || !throws) := by
  unfold MetadataWriter.openFile
  cases hopen : w.isOpen <;> simp [hopen]

/-- What `append` does: nothing to open, a number that is lost, or a line. -/
theorem append_cases (fmt : NumberFormat) (opts : MetadataWriterOptions) (r : Recording) (ts : String)
    (monotonicNs : ℚ) (patch : Properties) (openThrows writeThrows : Bool) :
    let w := r.writer.openFile openThrows
    let numbered := { w with frameNo := w.frameNo + 1 }
    let frame := metadataFrame opts ts monotonicNs (w.frameNo + 1) patch
    let line := metadataLine fmt frame ++ ['\n']
    let after := r.append fmt opts ts monotonicNs patch openThrows writeThrows
    (w.isOpen = false ∧ after = ({ r with writer := w }, [])) ∨
      (w.isOpen = true ∧ writeThrows = true ∧ after = ({ r with writer := numbered }, [])) ∨
      (w.isOpen = true ∧ writeThrows = false ∧
        after = ({ writer := { numbered with bytesWritten := w.bytesWritten + byteSize line },
                   file := r.file ++ line }, [.wrote frame])) := by
  intro w numbered frame line after
  by_cases hopen : w.isOpen = true
  · have hopened : after = if writeThrows then _ else _ :=
      if_neg (by rw [Bool.not_eq_true', hopen]; decide)
    by_cases hthrows : writeThrows = true
    · exact .inr (.inl ⟨hopen, hthrows, hopened.trans (if_pos hthrows)⟩)
    · exact .inr (.inr ⟨hopen, Bool.eq_false_of_not_eq_true hthrows, hopened.trans (if_neg hthrows)⟩)
  · have hclosed := Bool.eq_false_of_not_eq_true hopen
    exact .inl ⟨hclosed, if_pos (by rw [Bool.not_eq_true', hclosed])⟩

theorem finalize_cases (opts : MetadataWriterOptions) (r : Recording) (now : Int) :
    r.finalize opts now = (r, []) ∨
      r.finalize opts now =
        ({ r with writer := { r.writer with isOpen := false } },
          [.posts (r.writer.manifest opts now)]) := by
  unfold Recording.finalize
  split
  · exact .inl rfl
  · exact .inr rfl

theorem Recorded.append (h : Recorded fmt startedAt existing past r) (ts : String) (monotonicNs : ℚ)
    (patch : Properties) (openThrows writeThrows : Bool) :
    let x := (recording fmt opts startedAt existing).react r
      (.append ts monotonicNs patch openThrows writeThrows)
    Recorded fmt startedAt existing (x :: past) x.after := by
  intro x
  have hstep : (x.after, x.output) =
      r.append fmt opts ts monotonicNs patch openThrows writeThrows := rfl
  have hlost : losesWrite x = ((r.writer.openFile openThrows).isOpen && writeThrows) := by
    rw [openFile_isOpen]
    rfl
  obtain ⟨hopen, heq⟩ | ⟨hopen, hthrows, heq⟩ | ⟨hopen, hthrows, heq⟩ :=
    append_cases fmt opts r ts monotonicNs patch openThrows writeThrows
  · obtain ⟨hafter, houtput⟩ := Prod.mk.inj (hstep.trans heq)
    refine h.idle ?_ ?_ ?_ ?_ (by rw [framesWritten, houtput]; rfl) (by rw [hlost, hopen]; rfl) <;>
      rw [hafter] <;> simp
  · obtain ⟨hafter, houtput⟩ := Prod.mk.inj (hstep.trans heq)
    have hwritten : framesWritten x = [] := by rw [framesWritten, houtput]; rfl
    have hloses : losesWrite x = true := by rw [hlost, hopen, hthrows]; rfl
    refine ⟨?_, ?_, ?_, ?_, ?_⟩
    · rw [collected_cons, hwritten, List.append_nil, hafter]
      exact h.file
    · rw [hafter]
      simpa using h.bytes
    · rw [hafter]
      exact (openFile_startedAt ..).trans h.started
    · rw [collected_cons, hwritten, List.append_nil, hafter, lostWrites,
        List.countP_cons_of_pos hloses, ← Nat.add_assoc]
      simpa [lostWrites] using h.count
    · rw [hafter]
      simpa using h.steps
  · obtain ⟨hafter, houtput⟩ := Prod.mk.inj (hstep.trans heq)
    have hwritten : framesWritten x =
        [metadataFrame opts ts monotonicNs ((r.writer.openFile openThrows).frameNo + 1) patch] := by
      rw [framesWritten, houtput]
      rfl
    have hkept : ¬losesWrite x = true := by
      rw [hlost, hthrows, Bool.and_false]
      exact Bool.false_ne_true
    refine ⟨?_, ?_, ?_, ?_, ?_⟩
    · rw [collected_cons, hwritten, fileOf_append, ← List.append_assoc, ← h.file, hafter]
      simp [fileOf, Lines.join]
    · rw [hafter]
      simp only [Publisher.byteSize_append, h.bytes, openFile_bytesWritten, Nat.add_assoc]
    · rw [hafter]
      exact (openFile_startedAt ..).trans h.started
    · rw [collected_cons, hwritten, hafter, lostWrites, List.countP_cons_of_neg hkept,
        List.length_append, List.length_singleton, Nat.add_right_comm]
      simpa [lostWrites] using h.count
    · rw [hafter]
      simpa using h.steps

theorem Recorded.step (h : Recorded fmt startedAt existing past r) (call : MetadataCall) :
    let x := (recording fmt opts startedAt existing).react r call
    Recorded fmt startedAt existing (x :: past) x.after := by
  intro x
  cases call with
  | «open» throws =>
    refine h.idle rfl ?_ ?_ ?_ rfl rfl
    · exact openFile_bytesWritten ..
    · exact openFile_startedAt ..
    · exact openFile_frameNo ..
  | append ts monotonicNs frame openThrows writeThrows =>
    exact h.append ts monotonicNs frame openThrows writeThrows
  | finalize now =>
    have hstep : (x.after, x.output) = r.finalize opts now := rfl
    obtain heq | heq := finalize_cases opts r now
    all_goals
      obtain ⟨hafter, houtput⟩ := Prod.mk.inj (hstep.trans heq)
      refine h.idle ?_ ?_ ?_ ?_ (by rw [framesWritten, houtput]; rfl) rfl <;> rw [hafter]

variable (fmt) (opts) (startedAt) (existing) in
theorem recorded_run (es : List MetadataCall) :
    let sys := recording fmt opts startedAt existing
    Recorded fmt startedAt existing (sys.log es) (sys.state (sys.log es)) := by
  induction es with
  | nil =>
    refine ⟨?_, rfl, rfl, rfl, Nat.le_refl 0⟩
    exact (List.append_nil existing).symm
  | cons call es ih => exact ih.step call

/-- A call has one effect at most: an appended frame with the next number, or a
manifest of what there is. -/
theorem effect_of_mem {call : MetadataCall} {effect : MetadataEffect}
    (h : effect ∈ ((recording fmt opts startedAt existing).react r call).output) :
    let x := (recording fmt opts startedAt existing).react r call
    x.output = [effect] ∧
      ((∃ ts monotonicNs patch openThrows, call = .append ts monotonicNs patch openThrows false ∧
          x.after.writer.frameNo = r.writer.frameNo + 1 ∧
          effect = .wrote (metadataFrame opts ts monotonicNs (r.writer.frameNo + 1) patch)) ∨
        ∃ now, call = .finalize now ∧ effect = .posts (r.writer.manifest opts now)) := by
  intro x
  cases call with
  | «open» throws => cases h
  | append ts monotonicNs patch openThrows writeThrows =>
    have hstep : (x.after, x.output) =
        r.append fmt opts ts monotonicNs patch openThrows writeThrows := rfl
    obtain ⟨-, heq⟩ | ⟨-, -, heq⟩ | ⟨-, rfl, heq⟩ :=
      append_cases fmt opts r ts monotonicNs patch openThrows writeThrows
    · rw [(Prod.mk.inj (hstep.trans heq)).2] at h
      cases h
    · rw [(Prod.mk.inj (hstep.trans heq)).2] at h
      cases h
    · obtain ⟨hafter, houtput⟩ := Prod.mk.inj (hstep.trans heq)
      rw [houtput] at h
      obtain rfl := List.mem_singleton.mp h
      refine ⟨houtput, .inl ⟨ts, monotonicNs, patch, openThrows, rfl, ?_, ?_⟩⟩
      · rw [hafter]
        simp
      · rw [openFile_frameNo]
  | finalize now =>
    have hstep : (x.after, x.output) = r.finalize opts now := rfl
    obtain heq | heq := finalize_cases opts r now
    · rw [(Prod.mk.inj (hstep.trans heq)).2] at h
      cases h
    · obtain ⟨-, houtput⟩ := Prod.mk.inj (hstep.trans heq)
      rw [houtput] at h
      obtain rfl := List.mem_singleton.mp h
      exact ⟨houtput, .inr ⟨now, rfl, rfl⟩⟩

theorem written_of_mem {call : MetadataCall} {frame : Json}
    (h : frame ∈ framesWritten ((recording fmt opts startedAt existing).react r call)) :
    ∃ ts monotonicNs patch openThrows, call = .append ts monotonicNs patch openThrows false ∧
      ((recording fmt opts startedAt existing).react r call).after.writer.frameNo = r.writer.frameNo + 1 ∧
      framesWritten ((recording fmt opts startedAt existing).react r call) = [frame] ∧
      frame = metadataFrame opts ts monotonicNs (r.writer.frameNo + 1) patch := by
  obtain ⟨effect, heffect, hframe⟩ := List.mem_filterMap.mp h
  obtain ⟨houtput, ⟨ts, monotonicNs, patch, openThrows, rfl, hafter, rfl⟩ | ⟨now, rfl, rfl⟩⟩ :=
    effect_of_mem heffect
  · obtain rfl := Option.some.inj hframe
    exact ⟨ts, monotonicNs, patch, openThrows, rfl, hafter, by rw [framesWritten, houtput]; rfl, rfl⟩
  · cases hframe

variable (opts) (startedAt) (existing) in
theorem sound_frames {es : List MetadataCall} (hes : ∀ call ∈ es, call.Sound fmt)
    (hlength : es.length ≤ 2 ^ 53) :
    ∀ frame ∈ collected framesWritten ((recording fmt opts startedAt existing).log es),
      frame.Sound fmt := by
  induction es with
  | nil => exact fun _ h => absurd h List.not_mem_nil
  | cons call es ih =>
    obtain ⟨hcall, hes⟩ := List.forall_mem_cons.mp hes
    intro frame hframe
    rw [System.log_cons, collected_cons] at hframe
    rcases List.mem_append.mp hframe with hframe | hframe
    · exact ih hes (Nat.le_of_succ_le hlength) frame hframe
    · obtain ⟨ts, monotonicNs, patch, openThrows, rfl, -, -, rfl⟩ := written_of_mem hframe
      have hsteps := (recorded_run fmt opts startedAt existing es).steps
      rw [System.length_log] at hsteps
      have hframeNo := Nat.le_trans (Nat.succ_le_succ hsteps) hlength
      exact sound_metadataFrame opts ts hcall.1 hframeNo hcall.2

end

-- ---------------------------------------------------------------------------
-- The file is read back
-- ---------------------------------------------------------------------------

def frameNo? : Json → Option ℚ
  | .obj fields =>
    match fields.lookup "frameNo" with
    | some (.num n) => some n
    | _ => none
  | _ => none

/-- The caller leaves the numbering to the writer. -/
def MetadataCall.Plain : MetadataCall → Prop
  | .append _ _ frame _ _ => "frameNo" ∉ frame.map (·.1)
  | _ => True

section
variable {fmt : NumberFormat} {opts : MetadataWriterOptions} {startedAt : Int} {existing : List Char}

theorem lookup_replaced {field : String × Option Json} {key : String} (h : key ≠ field.1)
    (fields : Properties) :
    (fields.map fun old => if old.1 == field.1 then field else old).lookup key =
      fields.lookup key := by
  induction fields with
  | nil => rfl
  | cons old fields ih =>
    rw [List.map_cons]
    split
    next heq =>
      have hold : key ≠ old.1 := eq_of_beq heq ▸ h
      rw [List.lookup_cons, List.lookup_cons, beq_false_of_ne h, beq_false_of_ne hold]
      exact ih
    next =>
      rw [List.lookup_cons, List.lookup_cons, ih]

theorem lookup_assign {field : String × Option Json} {key : String} (h : key ≠ field.1)
    (fields : Properties) : (assign fields field).lookup key = fields.lookup key := by
  unfold assign
  split
  · exact lookup_replaced h fields
  · rw [List.lookup_append, List.lookup_cons, beq_false_of_ne h]
    exact Option.or_none

theorem lookup_spread {fields patch : Properties} {key : String} (h : key ∉ patch.map (·.1)) :
    (spread fields patch).lookup key = fields.lookup key := by
  induction patch generalizing fields with
  | nil => rfl
  | cons field patch ih =>
    obtain ⟨hfield, hpatch⟩ := not_or.mp (mt List.mem_cons.mpr h)
    exact (ih hpatch).trans (lookup_assign hfield fields)

theorem lookup_definedFields {fields : Properties} {key : String} {v : Json}
    (h : fields.lookup key = some (some v)) : (definedFields fields).lookup key = some v := by
  induction fields with
  | nil => cases h
  | cons field fields ih =>
    obtain ⟨key', old⟩ := field
    rw [List.lookup_cons] at h
    cases heq : key == key' with
    | true =>
      rw [heq] at h
      obtain rfl := Option.some.inj h
      simp [definedFields, List.lookup_cons, heq]
    | false =>
      rw [heq] at h
      cases old with
      | none => exact ih h
      | some old =>
        have hcons : definedFields ((key', some old) :: fields) =
            (key', old) :: definedFields fields := rfl
        rw [hcons, List.lookup_cons, heq]
        exact ih h

theorem frameNo?_metadataFrame {ts : String} {monotonicNs : ℚ} {frameNo : Nat} {patch : Properties}
    (h : "frameNo" ∉ patch.map (·.1)) :
    frameNo? (metadataFrame opts ts monotonicNs frameNo patch) = some (frameNo : ℚ) := by
  have hread {fields : List (String × Json)}
      (hfields : fields.lookup "frameNo" = some (.num frameNo)) :
      frameNo? (.obj fields) = some (frameNo : ℚ) := by
    rw [frameNo?, hfields]
  exact hread (lookup_definedFields ((lookup_spread h).trans rfl))

/-- The numbers of a run's frames, which increase. -/
structure Numbered (frames : List Json) (last : Nat) (numbers : List Nat) : Prop where
  read : frames.map frameNo? = numbers.map fun n : Nat => some (n : ℚ)
  increasing : numbers.Pairwise (· < ·)
  bounded : ∀ n ∈ numbers, 0 < n ∧ n ≤ last

theorem Numbered.later {frames : List Json} {last last' : Nat} {numbers : List Nat}
    (h : Numbered frames last numbers) (hle : last ≤ last') : Numbered frames last' numbers :=
  ⟨h.read, h.increasing, fun n hn => ⟨(h.bounded n hn).1, Nat.le_trans (h.bounded n hn).2 hle⟩⟩

theorem Numbered.next {frames : List Json} {last : Nat} {numbers : List Nat} {frame : Json}
    (h : Numbered frames last numbers) (hframe : frameNo? frame = some ((last + 1 : Nat) : ℚ)) :
    Numbered (frames ++ [frame]) (last + 1) (numbers ++ [last + 1]) where
  read := by
    rw [List.map_append, List.map_append, h.read, List.map_singleton, List.map_singleton, hframe]
  increasing := by
    refine List.pairwise_append.mpr ⟨h.increasing, List.pairwise_singleton .., fun n hn m hm => ?_⟩
    obtain rfl := List.mem_singleton.mp hm
    exact Nat.lt_succ_of_le (h.bounded n hn).2
  bounded n hn := by
    rcases List.mem_append.mp hn with hn | hn
    · exact ⟨(h.bounded n hn).1, Nat.le_succ_of_le (h.bounded n hn).2⟩
    · obtain rfl := List.mem_singleton.mp hn
      exact ⟨Nat.succ_pos _, Nat.le_refl _⟩

variable (fmt) (opts) (startedAt) (existing) in
/-- A call never takes a number back. -/
theorem frameNo_mono (es : List MetadataCall) (call : MetadataCall) :
    let sys := recording fmt opts startedAt existing
    (sys.state (sys.log es)).writer.frameNo ≤ (sys.state (sys.log (call :: es))).writer.frameNo := by
  intro sys
  rw [(recorded_run fmt opts startedAt existing es).count,
    (recorded_run fmt opts startedAt existing (call :: es)).count]
  refine Nat.add_le_add ?_ ?_
  · rw [System.log_cons, collected_cons, List.length_append]
    exact Nat.le_add_right ..
  · rw [System.log_cons, lostWrites, lostWrites, List.countP_cons]
    exact Nat.le_add_right ..

variable (fmt) (opts) (startedAt) (existing) in
theorem numbered_run {es : List MetadataCall} (hes : ∀ call ∈ es, call.Plain) :
    let sys := recording fmt opts startedAt existing
    ∃ numbers, Numbered (collected framesWritten (sys.log es)) (sys.state (sys.log es)).writer.frameNo
      numbers := by
  intro sys
  induction es with
  | nil => exact ⟨[], rfl, .nil, fun _ h => absurd h List.not_mem_nil⟩
  | cons call es ih =>
    obtain ⟨hcall, hes⟩ := List.forall_mem_cons.mp hes
    obtain ⟨numbers, h⟩ := ih hes
    have hmono := frameNo_mono fmt opts startedAt existing es call
    rw [System.log_cons, collected_cons]
    cases hwritten : framesWritten (sys.react (sys.state (sys.log es)) call) with
    | nil =>
      rw [List.append_nil]
      exact ⟨numbers, h.later hmono⟩
    | cons frame rest =>
      have hmem : frame ∈ framesWritten (sys.react (sys.state (sys.log es)) call) := by
        rw [hwritten]
        exact List.mem_cons_self
      obtain ⟨ts, monotonicNs, patch, openThrows, rfl, hafter, hone, rfl⟩ := written_of_mem hmem
      rw [← hwritten, hone, System.state_cons, hafter]
      exact ⟨_, h.next (frameNo?_metadataFrame hcall)⟩

private def yardRun : MetadataWriterOptions := ⟨"/var/lib/rvep/datasets", "yard/7", "run 1"⟩

example : yardRun.filePath.text = "/var/lib/rvep/datasets/yard_7/run_1/metadata.jsonl" := by decide

private def firstRun : List Json :=
  [metadataFrame yardRun "2025-03-01T06:00:00.000Z" 5000 1 [("mode", some (.str "safe_mode"))]]

private def handedOver : Properties :=
  [("operatorId", some (.str "operator")), ("mode", some (.str "operator_control"))]

private def taken : Properties := [("operatorId", none), ("mode", some (.str "safe_mode"))]

/-- The second of three lines is not written. -/
private def secondRun : List MetadataCall :=
  [.append "2025-03-01T07:00:02.000Z" 7200 taken false false,
    .append "2025-03-01T07:00:01.000Z" 7100 handedOver false true,
    .append "2025-03-01T07:00:00.000Z" 7000 handedOver false false]

private theorem handedOver_sound : handedOver.Sound wholeNumbers := by
  simp [Properties.Sound, handedOver, Json.Sound]

private theorem taken_sound : taken.Sound wholeNumbers := by
  simp [Properties.Sound, taken, Json.Sound]

end

-- ---------------------------------------------------------------------------
-- The manifest
-- ---------------------------------------------------------------------------

section
variable {fmt : NumberFormat}

/-- The route's reading of what is posted. -/
def Recording.asset (opts : MetadataWriterOptions) (existing : List Char) (l : MetadataLog)
    (r : Recording) (elapsed : Nat) : Backend.DatasetAssetBody where
  vehicleId := opts.vehicleId
  sessionId := opts.sessionId
  cameraId := none
  kind := .metadata
  source := .orinLocal
  path := opts.filePath.text
  sizeBytes := some (byteSize r.file - byteSize existing)
  durationMs := some elapsed
  sha256 := none
  metadata := some (.obj
    [("frameCount", .num ((collected framesWritten l).length + lostWrites l : Nat)),
      ("datasetVersion", .str "v1")])

variable {opts : MetadataWriterOptions} {startedAt : Int} {existing : List Char}

theorem sound_manifest {w : MetadataWriter} {now : Int} (hbytes : w.bytesWritten ≤ 2 ^ 53)
    (hduration : (now - w.startedAt).natAbs ≤ 2 ^ 53) (hframeNo : w.frameNo ≤ 2 ^ 53) :
    (w.manifest opts now).Sound fmt := by
  have hmetadata :
      (Json.obj [("frameCount", .num (w.frameNo : ℚ)), ("datasetVersion", .str "v1")]).Sound fmt := by
    refine ⟨by simp, Json.soundFields_iff.mpr ?_⟩
    simp only [List.forall_mem_cons]
    exact ⟨fmt.carried_natCast hframeNo, trivial, by simp⟩
  refine ⟨by simp, Json.soundFields_iff.mpr ?_⟩
  simp only [List.forall_mem_cons]
  exact ⟨trivial, trivial, trivial, trivial, trivial, trivial, fmt.carried_natCast hbytes,
    fmt.carried_int _ hduration, hmetadata, by simp⟩

/-- The schema's verdict on a manifest is that on its duration. -/
theorem schema_manifest (hvehicle : opts.vehicleId ≠ "") (hsession : opts.sessionId ≠ "")
    (w : MetadataWriter) (now : Int) :
    Backend.validateBody (some (w.manifest opts now)) (Backend.datasetAssetSchema fmt) =
      match Backend.countValue (.num ((now - w.startedAt : Int) : ℚ)) with
      | .ok elapsed => .ok ⟨opts.vehicleId, opts.sessionId, none, .metadata, .orinLocal,
          opts.filePath.text, some w.bytesWritten, some elapsed, none,
          some (.obj [("frameCount", .num w.frameNo), ("datasetVersion", .str "v1")])⟩
      | .error messages => .error (Backend.UnprocessableEntity "validation_error"
          [("issues", .texts (messages.map (Backend.issue "durationMs")))]) := by
  rw [MetadataWriter.manifest, Backend.validateBody]
  generalize hfields : [("vehicleId", Json.str opts.vehicleId), _, _, _, _, _, _, _, _] = fields
  have htext {key s : String} (h : fields.lookup key = some (.str s)) (hs : s ≠ "") :
      Backend.stringKey key (Backend.minOne Backend.tooShort) fields = .ok s :=
    Backend.stringKey_of_lookup h (Backend.minOne_of_ne_empty hs)
  have hvehicleId : fields.lookup "vehicleId" = some (.str opts.vehicleId) := hfields ▸ rfl
  have hsessionId : fields.lookup "sessionId" = some (.str opts.sessionId) := hfields ▸ rfl
  have hpath : fields.lookup "path" = some (.str opts.filePath.text) := hfields ▸ rfl
  have hcamera : fields.lookup "cameraId" = some .null := hfields ▸ rfl
  have hkind : fields.lookup "kind" = some (.str "METADATA") := hfields ▸ rfl
  have hsource : fields.lookup "source" = some (.str "ORIN_LOCAL") := hfields ▸ rfl
  have hsize : fields.lookup "sizeBytes" = some (.num w.bytesWritten) := hfields ▸ rfl
  have hduration : fields.lookup "durationMs" = some (.num ((now - w.startedAt : Int) : ℚ)) :=
    hfields ▸ rfl
  have hsha256 : fields.lookup "sha256" = none := hfields ▸ rfl
  have hmetadata : fields.lookup "metadata" =
      some (.obj [("frameCount", .num w.frameNo), ("datasetVersion", .str "v1")]) := hfields ▸ rfl
  rw [Backend.datasetAssetSchema, htext hvehicleId hvehicle, htext hsessionId hsession,
    htext hpath (filePath_text_ne_empty opts), Backend.nullishKey_of_lookup hsize (by simp),
    Backend.countValue_natCast, Backend.nullishKey_of_lookup hduration (by simp),
    Backend.nullishKey_of_lookup hmetadata (by simp)]
  simp only [Backend.nullishKey, Backend.optionalKey, Backend.enumKey, hcamera, hkind, hsource,
    hsha256]
  cases Backend.countValue (.num ((now - w.startedAt : Int) : ℚ)) with
  | ok elapsed => rfl
  | error messages => rfl

end

end Rvep.Edge
