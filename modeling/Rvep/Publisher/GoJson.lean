import Rvep.Lib.Lines
import Rvep.Publisher.GoProtocol
import Rvep.Shared.JsonText

/-!
# The publisher's end of the socket

`apps/edge-publisher-go/internal/ipc/server.go`: the text `send` writes, and what
`readLoop` makes of the lines it scans, with what `encoding/json` and `bufio` do
on the way.
-/

namespace Rvep.Publisher.Go

open JsonText (Tree Numeral Style)

-- ---------------------------------------------------------------------------
-- json.Encoder
-- ---------------------------------------------------------------------------

/-- What `json.Encoder` escapes by its number. -/
def isEscaped (c : Char) : Bool :=
  decide (c < ' ') || ['<', '>', '&', '\u2028', '\u2029'].contains c

def encoderStyle : Style where
  escape := JsonText.escapeWith stringifyEscapes isEscaped
  itemGap := []
  keyGap := []
  reads := JsonText.escapes_escapeWith (by decide) (by decide) (by decide) fun c h => by
    rw [isEscaped, Bool.or_eq_false_iff] at h
    exact of_decide_eq_false h.1
  blankItemGap := JsonText.isBlank_nil
  blankKeyGap := JsonText.isBlank_nil

/-- The text of a message, without the newline that ends it. -/
def text (fmt : NumberFormat) (sent : Sent) : List Char := (sent.toJson.tree fmt).write encoderStyle

/-- What a sequence of calls of `send` writes to the socket. -/
def send (fmt : NumberFormat) (msgs : List Sent) : List Char := Lines.join '\n' (msgs.map (text fmt))

-- ---------------------------------------------------------------------------
-- bufio.Scanner
-- ---------------------------------------------------------------------------

/-- What of a line has been read, newest first, and how many bytes it takes. -/
structure Scanner where
  pending : List Char
  size : Nat
  failed : Bool
  deriving DecidableEq, Repr

def maxTokenSize : Nat := 64 * 1024

def Scanner.start : Scanner := ⟨[], 0, false⟩

def dropCR (line : List Char) : List Char :=
  if line.getLast? = some '\r' then line.dropLast else line

/-- A buffer that is full without a newline ends the scan. -/
def Scanner.step (s : Scanner) (c : Char) : Scanner × Option (List Char) :=
  if s.failed then (s, none)
  else if c = '\n' then (start, some (dropCR s.pending.reverse))
  else (⟨c :: s.pending, s.size + c.utf8Size, decide (maxTokenSize ≤ s.size + c.utf8Size)⟩, none)

-- ---------------------------------------------------------------------------
-- json.Unmarshal
-- ---------------------------------------------------------------------------

/-- A field of a struct: its tag, and how a value is stored in it, `none` for an error. -/
structure Field (σ : Type) where
  name : String
  set : Tree → σ → Option σ

section
variable {σ : Type}

def setString (put : String → σ → σ) : Tree → σ → Option σ
  | .str s, m => some (put (String.ofList s) m)
  | .null, m => some m
  | _, _ => none

/-- `strconv.ParseInt` with 64 bits. -/
def parseInt (n : Numeral) : Option Int64 :=
  n.toInt?.bind fun i => if -2 ^ 63 ≤ i ∧ i < 2 ^ 63 then some (Int64.ofInt i) else none

def setInt64 (put : Int64 → σ → σ) : Tree → σ → Option σ
  | .num n, m => (parseInt n).map fun i => put i m
  | .null, m => some m
  | _, _ => none

/-- A `*string`, nil for `null`. -/
def setStringPtr (put : Option String → σ → σ) : Tree → σ → Option σ
  | .str s, m => some (put (some (String.ofList s)) m)
  | .null, m => some (put none m)
  | _, _ => none

/-- Two letters outside ASCII fold to ASCII ones. -/
def foldChar (c : Char) : Char :=
  if c = '\u017F' then 'S' else if c = '\u212A' then 'K' else c.toUpper

def foldName (name : String) : List Char := name.toList.map foldChar

/-- The field of a key: of that name, or of one that differs in case. -/
def findField (fields : List (Field σ)) (key : String) : Option (Field σ) :=
  (fields.find? (·.name == key)).or (fields.find? fun field => foldName field.name == foldName key)

/-- Keys without a field are ignored. -/
def assign (fields : List (Field σ)) (m : σ) (key : String) (v : Tree) : Option σ :=
  match findField fields key with
  | some field => field.set v m
  | none => some m

def unmarshal (fields : List (Field σ)) (zero : σ) : Tree → Option σ
  | .obj pairs => pairs.foldlM (fun m pair => assign fields m (String.ofList pair.1) pair.2) zero
  | .null => some zero
  | _ => none

-- ---------------------------------------------------------------------------
-- The structs
-- ---------------------------------------------------------------------------

/-- The fields of an embedded `Base`. -/
def Base.tags (on : (Base → Base) → σ → σ) : List (Field σ) :=
  [⟨"type", setString fun s => on fun b => { b with type := s }⟩,
    ⟨"ts", setString fun s => on fun b => { b with ts := s }⟩,
    ⟨"seq", setInt64 fun n => on fun b => { b with seq := n }⟩]

end

def Base.zero : Base := ⟨"", "", 0⟩

def StartMsg.tags : List (Field StartMsg) :=
  Base.tags (fun f m => { m with toBase := f m.toBase }) ++
    [⟨"livekitUrl", setString fun s m => { m with livekitURL := s }⟩,
      ⟨"livekitToken", setString fun s m => { m with livekitToken := s }⟩,
      ⟨"roomName", setString fun s m => { m with roomName := s }⟩,
      ⟨"identity", setString fun s m => { m with identity := s }⟩,
      ⟨"videoProfileId", setString fun s m => { m with videoProfileID := s }⟩,
      ⟨"pipelineOverride", setStringPtr fun s m => { m with pipelineOverride := s }⟩]

def StartMsg.zero : StartMsg where
  toBase := .zero
  livekitURL := ""
  livekitToken := ""
  roomName := ""
  identity := ""
  videoProfileID := ""
  pipelineOverride := none

def StopMsg.tags : List (Field StopMsg) :=
  Base.tags (fun f m => { m with toBase := f m.toBase }) ++
    [⟨"reason", setString fun s m => { m with reason := s }⟩]

def StopMsg.zero : StopMsg where
  toBase := .zero
  reason := ""

-- ---------------------------------------------------------------------------
-- readLoop
-- ---------------------------------------------------------------------------

inductive Inbound
  | start (msg : StartMsg)
  | stop (msg : StopMsg)
  deriving DecidableEq

/-- The message of a line. Malformed and unknown ones are passed over. -/
def decodeLine (line : List Char) : Option Inbound :=
  (JsonText.parse line).bind fun t =>
    (unmarshal (Base.tags id) .zero t).bind fun base =>
      if base.type = "start" then (unmarshal StartMsg.tags .zero t).map .start
      else if base.type = "stop" then (unmarshal StopMsg.tags .zero t).map .stop
      else none

/-- The messages `readLoop` takes from what the agent writes. -/
def readLoop (stream : List Char) : List Inbound :=
  (Lines.run Scanner.step .start stream).2.filterMap decodeLine

-- ---------------------------------------------------------------------------
-- Unmarshal of written values
-- ---------------------------------------------------------------------------

theorem parseInt_ofInt {n : Int} (h : n.natAbs ≤ 2 ^ 53) : parseInt (.ofInt n) = some (Int64.ofInt n) := by
  rw [parseInt, JsonText.toInt?_ofInt, Option.bind_some, if_pos (by omega)]

section
variable {σ : Type} {fmt : NumberFormat} {tags : List (Field σ)}

theorem unmarshal_obj (zero : σ) (fields : JsonFields) :
    unmarshal tags zero ((Json.obj fields).tree fmt) =
      fields.foldlM (fun m field => assign tags m field.1 (field.2.tree fmt)) zero := by
  rw [Json.tree, unmarshal]
  induction fields generalizing zero with
  | nil => rw [Json.treeFields]; rfl
  | cons field fields ih =>
    obtain ⟨key, v⟩ := field
    rw [Json.treeFields, List.foldlM_cons, List.foldlM_cons, String.ofList_toList]
    cases assign tags zero key (v.tree fmt) with
    | none => rfl
    | some m => exact ih m

/-- A key without a field is passed over. -/
theorem assign_of_isNone {key : String} (h : (findField tags key).isNone = true) (m : σ) (v : Tree) :
    assign tags m key v = some m := by
  rw [assign, Option.isNone_iff_eq_none.mp h]

theorem foldlM_ignored {fields : JsonFields} (m : σ)
    (h : ∀ key ∈ fields.map (·.1), (findField tags key).isNone = true) :
    fields.foldlM (fun m field => assign tags m field.1 (field.2.tree fmt)) m = some m := by
  induction fields with
  | nil => rfl
  | cons field fields ih =>
    obtain ⟨hkey, hfields⟩ := List.forall_mem_cons.mp h
    rw [List.foldlM_cons, assign_of_isNone hkey]
    exact ih hfields

theorem setString_tree (put : String → σ → σ) (s : String) (m : σ) :
    setString put ((Json.str s).tree fmt) m = some (put s m) := by
  rw [Json.tree, setString, String.ofList_toList]

theorem setStringPtr_tree (put : Option String → σ → σ) (s : Option String) (m : σ) :
    setStringPtr put ((s.elim Json.null .str).tree fmt) m = some (put s m) := by
  cases s with
  | none => rw [Option.elim_none, Json.tree, setStringPtr]
  | some s => rw [Option.elim_some, Json.tree, setStringPtr, String.ofList_toList]

theorem setInt64_tree (hfmt : fmt.WritesIntegers) (put : Int64 → σ → σ) {n : Int}
    (h : n.natAbs ≤ 2 ^ 53) (m : σ) :
    setInt64 put ((Json.num n).tree fmt) m = some (put (Int64.ofInt n) m) := by
  rw [Json.tree, hfmt n h, setInt64, parseInt_ofInt h, Option.map_some]

end

end Rvep.Publisher.Go
