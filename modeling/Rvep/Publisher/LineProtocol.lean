import Rvep.Publisher.GoJson

/-!
# The line protocol between agent and publisher

The agent's end of the socket (`apps/mock-edge/src/go-publisher-manager.ts`):
the lines `sendMessage` writes and the lines `readline` finds in what the
publisher writes. Each side reads what the other one means.
-/

namespace Rvep.Publisher

open Go (Sent Inbound Scanner Builds)

-- ---------------------------------------------------------------------------
-- readline
-- ---------------------------------------------------------------------------

/-- The line so far, newest first, and whether the last character was a carriage return. -/
structure Readline where
  pending : List Char
  sawReturn : Bool
  deriving DecidableEq, Repr

namespace Readline

def start : Readline := ⟨[], false⟩

/-- With `crlfDelay: Infinity` a newline after a carriage return ends no second line. -/
def step (r : Readline) (c : Char) : Readline × Option (List Char) :=
  if c = '\n' then (start, if r.sawReturn then none else some r.pending.reverse)
  else if c = '\r' then (⟨[], true⟩, some r.pending.reverse)
  else if c = '\u2028' ∨ c = '\u2029' then (start, some r.pending.reverse)
  else (⟨c :: r.pending, false⟩, none)

/-- The lines of a stream that are complete. -/
def lines (stream : List Char) : List (List Char) := (Lines.run step start stream).2

end Readline

/-- What `JSON.parse` makes of a line; the text of its error is the engine's. -/
def lineOf (fmt : NumberFormat) (complaint : String) (line : List Char) : Line :=
  match parseJson fmt (String.ofList line) with
  | some v => .json v
  | none => .malformed complaint

-- ---------------------------------------------------------------------------
-- sendMessage
-- ---------------------------------------------------------------------------

def StopReason.text : StopReason → String
  | userRequest => "user_request"
  | safeMode => "safe_mode"
  | shutdown => "shutdown"

/-- The payload of a message. -/
def AgentBody.fields : AgentBody → JsonFields
  | start livekitUrl livekitToken roomName identity videoProfileId pipelineOverride =>
    [("type", .str "start"), ("livekitUrl", .str livekitUrl), ("livekitToken", .str livekitToken),
      ("roomName", .str roomName), ("identity", .str identity), ("videoProfileId", .str videoProfileId),
      ("pipelineOverride", pipelineOverride.elim .null .str)]
  | stop reason => [("type", .str "stop"), ("reason", .str reason.text)]

def AgentMessage.toJson (msg : AgentMessage) : Json :=
  .obj (msg.body.fields ++ [("ts", .str msg.ts), ("seq", .num msg.seq)])

/-- The text of a message, without the newline that ends it. -/
def AgentMessage.text (fmt : NumberFormat) (msg : AgentMessage) : List Char :=
  (msg.toJson.tree fmt).write stringifyStyle

/-- What a sequence of calls of `sendMessage` writes to the socket. -/
def sendMessages (fmt : NumberFormat) (msgs : List AgentMessage) : List Char :=
  Lines.join '\n' (msgs.map (AgentMessage.text fmt))

-- ---------------------------------------------------------------------------
-- Lines without line breaks
-- ---------------------------------------------------------------------------

def isLineBreak (c : Char) : Bool := c == '\n' || c == '\r' || c == '\u2028' || c == '\u2029'

theorem readline_holds {line : List Char} (h : ∀ c ∈ line, isLineBreak c = false) :
    Lines.Holds Readline.step .start '\n' line fun done r => r = ⟨done.reverse, false⟩ where
  start := rfl
  keep done c rest s hline hs := by
    subst hs
    have hc : isLineBreak c = false := h c (by rw [← hline]; simp)
    simp only [isLineBreak, Bool.or_eq_false_iff, beq_eq_false_iff_ne] at hc
    obtain ⟨⟨⟨hlf, hcr⟩, hls⟩, hps⟩ := hc
    refine ⟨⟨c :: done.reverse, false⟩, ?_, by simp⟩
    rw [Readline.step, if_neg hlf, if_neg hcr, if_neg (not_or.mpr ⟨hls, hps⟩)]
  finish s hs := by
    subst hs
    simp [Readline.step]

def byteSize : List Char → Nat
  | [] => 0
  | c :: cs => c.utf8Size + byteSize cs

theorem byteSize_append (cs cs' : List Char) : byteSize (cs ++ cs') = byteSize cs + byteSize cs' := by
  induction cs with
  | nil => rw [List.nil_append, byteSize, Nat.zero_add]
  | cons c cs ih => rw [List.cons_append, byteSize, byteSize, ih, Nat.add_assoc]

theorem scanner_keeps {line done rest : List Char} {c : Char}
    (hline : done ++ c :: rest = line) (hc : c ≠ '\n') (hsize : byteSize line < Go.maxTokenSize) :
    Scanner.step ⟨done.reverse, byteSize done, false⟩ c =
      (⟨(done ++ [c]).reverse, byteSize (done ++ [c]), false⟩, none) := by
  have hsum : byteSize (done ++ [c]) = byteSize done + c.utf8Size := by
    rw [byteSize_append, byteSize, byteSize, Nat.add_zero]
  have hle : byteSize (done ++ [c]) ≤ byteSize line := by
    have hsplit : line = (done ++ [c]) ++ rest := by rw [← hline, List.append_assoc]; rfl
    rw [hsplit, byteSize_append (done ++ [c]) rest]
    exact Nat.le_add_right ..
  have hfits : decide (Go.maxTokenSize ≤ byteSize (done ++ [c])) = false :=
    decide_eq_false (Nat.not_le.mpr (Nat.lt_of_le_of_lt hle hsize))
  rw [Scanner.step, if_neg Bool.false_ne_true, if_neg hc, ← hsum, hfits, List.reverse_append]
  rfl

theorem dropCR_eq_self {line : List Char} (h : '\r' ∉ line) : Go.dropCR line = line := by
  refine if_neg ?_
  intro hlast
  exact h (List.mem_of_getLast? hlast)

theorem scanner_holds {line : List Char} (h : ∀ c ∈ line, ¬ c < ' ')
    (hsize : byteSize line < Go.maxTokenSize) :
    Lines.Holds Scanner.step .start '\n' line fun done s => s = ⟨done.reverse, byteSize done, false⟩ where
  start := rfl
  keep done c rest s hline hs := by
    subst hs
    have hc : c ≠ '\n' := by
      rintro rfl
      exact h '\n' (by rw [← hline]; simp) (by decide)
    exact ⟨_, scanner_keeps hline hc hsize, rfl⟩
  finish s hs := by
    subst hs
    have hcr : '\r' ∉ line := fun hmem => h '\r' hmem (by decide)
    rw [Scanner.step, if_neg Bool.false_ne_true, if_pos rfl, List.reverse_reverse, dropCR_eq_self hcr]

-- ---------------------------------------------------------------------------
-- Publisher to agent
-- ---------------------------------------------------------------------------

/-- The writer's number for an integer is exact. -/
def Exact (n : Int) : Prop := n.natAbs ≤ 2 ^ 53

/-- The integers of the message are exact and its metrics are finite. -/
def Go.Sent.Representable (fmt : NumberFormat) : Sent → Prop
  | .hello m => Exact m.seq.toInt ∧ Exact m.pid.toInt
  | .heartbeat m =>
    Exact m.seq.toInt ∧ fmt.carried m.metrics.fps ∧ fmt.carried m.metrics.encodeLatencyMs ∧
      Exact m.metrics.bitrateBps.toInt ∧ Exact m.metrics.framesPublished.toInt ∧
      Exact m.metrics.framesDropped.toInt ∧ Exact m.metrics.nvencSessionID.toInt
  | .error m => Exact m.seq.toInt

section
variable {fmt : NumberFormat}

theorem encoder_covers : JsonText.Covers Go.encoderStyle fun c => isLineBreak c = false where
  marks := by simp [isLineBreak]
  numerals c hc := by
    simp only [isLineBreak, Bool.or_eq_false_iff, beq_eq_false_iff_ne]
    refine ⟨⟨⟨?_, ?_⟩, ?_⟩, ?_⟩ <;> exact JsonText.ne_of_isNumeralChar hc (by decide)
  escapes := JsonText.forall_mem_escapeWith (by decide) (by decide) (by decide) fun c hc => by
    simp only [Go.isEscaped, Bool.or_eq_false_iff, decide_eq_false_iff_not] at hc
    simp only [isLineBreak, Bool.or_eq_false_iff, beq_eq_false_iff_ne]
    refine ⟨⟨⟨?_, ?_⟩, ?_⟩, ?_⟩ <;> rintro rfl <;> revert hc <;> decide
  itemGap := by simp [Go.encoderStyle]
  keyGap := by simp [Go.encoderStyle]

theorem stringify_covers : JsonText.Covers stringifyStyle fun c => ¬ c < ' ' where
  marks := by
    simp only [List.forall_mem_cons, List.not_mem_nil, false_implies, implies_true, and_true]
    decide
  numerals _ := JsonText.not_control_of_isNumeralChar
  escapes := JsonText.forall_mem_escapeWith (by decide) (by decide) (by decide) fun c hc =>
    of_decide_eq_false hc
  itemGap := by simp [stringifyStyle]
  keyGap := by simp [stringifyStyle]

theorem sound_toJson {sent : Sent} (h : sent.Representable fmt) : sent.toJson.Sound fmt := by
  have hint {n : Int64} (hn : Exact n.toInt) : (Go.int n).Sound fmt := fmt.carried_int n.toInt hn
  cases sent with
  | hello m =>
    obtain ⟨hseq, hpid⟩ := h
    simp [Sent.toJson, Go.HelloMsg.toJson, Go.Base.fields, Json.Sound, Json.SoundFields, hint hseq,
      hint hpid]
  | heartbeat m =>
    obtain ⟨hseq, hfps, hlatency, hbitrate, hpublished, hdropped, hsession⟩ := h
    simp [Sent.toJson, Go.HeartbeatMsg.toJson, Go.HeartbeatMetrics.toJson, Go.Base.fields, Json.Sound,
      Json.SoundFields, hint hseq, hfps, hlatency, hint hbitrate, hint hpublished, hint hdropped,
      hint hsession]
  | error m =>
    have hseq : Exact m.seq.toInt := h
    simp [Sent.toJson, Go.ErrorMsg.toJson, Go.Base.fields, Json.Sound, Json.SoundFields, hint hseq]

theorem lineOf_text {sent : Sent} (h : sent.Representable fmt) (complaint : String) :
    lineOf fmt complaint (Go.text fmt sent) = .json sent.toJson := by
  rw [lineOf, Go.text, parseJson_write (sound_toJson h)]

end

-- ---------------------------------------------------------------------------
-- Agent to publisher
-- ---------------------------------------------------------------------------

/-- The struct has the fields of the message. -/
inductive SameFields (msg : AgentMessage) : Inbound → Prop
  | start (m : Go.StartMsg) : m.type = "start" → m.ts = msg.ts → m.seq.toInt = msg.seq →
    msg.body = .start m.livekitURL m.livekitToken m.roomName m.identity m.videoProfileID
      m.pipelineOverride →
    SameFields msg (.start m)
  | stop (m : Go.StopMsg) (reason : StopReason) : m.type = "stop" → m.ts = msg.ts →
    m.seq.toInt = msg.seq → msg.body = .stop reason → m.reason = reason.text →
    SameFields msg (.stop m)

section
variable {fmt : NumberFormat} {ts : String} {seq : Int}

theorem unmarshal_start (hfmt : fmt.WritesIntegers) (hseq : Exact seq)
    (url token room identity profile : String) (override : Option String) :
    Go.unmarshal Go.StartMsg.tags .zero
      ((AgentMessage.toJson ⟨⟨ts, seq⟩, .start url token room identity profile override⟩).tree fmt) =
      some
        { type := "start", ts := ts, seq := Int64.ofInt seq, livekitURL := url, livekitToken := token
          roomName := room, identity := identity, videoProfileID := profile
          pipelineOverride := override } := by
  simp [AgentMessage.toJson, AgentBody.fields, Go.unmarshal_obj, Go.assign, Go.findField,
    Go.StartMsg.tags, Go.Base.tags, Go.setString_tree, Go.setStringPtr_tree, Go.setInt64_tree hfmt _ hseq,
    Go.StartMsg.zero, Go.Base.zero]

theorem unmarshal_stop (hfmt : fmt.WritesIntegers) (hseq : Exact seq) (reason : StopReason) :
    Go.unmarshal Go.StopMsg.tags .zero
      ((AgentMessage.toJson ⟨⟨ts, seq⟩, .stop reason⟩).tree fmt) =
      some { type := "stop", ts := ts, seq := Int64.ofInt seq, reason := reason.text } := by
  simp [AgentMessage.toJson, AgentBody.fields, Go.unmarshal_obj, Go.assign, Go.findField,
    Go.StopMsg.tags, Go.Base.tags, Go.setString_tree, Go.setInt64_tree hfmt _ hseq, Go.StopMsg.zero,
    Go.Base.zero]

def AgentBody.type : AgentBody → String
  | start .. => "start"
  | stop _ => "stop"

/-- What a payload has besides its type, `Base` has no field for. -/
theorem fields_split (body : AgentBody) :
    ∃ rest, body.fields = ("type", .str body.type) :: rest ∧
      ∀ key ∈ rest.map (·.1), (Go.findField (Go.Base.tags id) key).isNone = true := by
  cases body with
  | start => exact ⟨_, rfl, by simp only [List.map_cons, List.map_nil]; decide⟩
  | stop => exact ⟨_, rfl, by simp only [List.map_cons, List.map_nil]; decide⟩

/-- The first pass over a line, which wants its type only. -/
theorem unmarshal_base (hfmt : fmt.WritesIntegers) (hseq : Exact seq) (body : AgentBody) :
    Go.unmarshal (Go.Base.tags id) .zero ((AgentMessage.toJson ⟨⟨ts, seq⟩, body⟩).tree fmt) =
      some ⟨body.type, ts, Int64.ofInt seq⟩ := by
  obtain ⟨rest, hfields, hrest⟩ := fields_split body
  have htype : Go.assign (Go.Base.tags id) .zero "type" ((Json.str body.type).tree fmt) =
      some ⟨body.type, "", 0⟩ := by
    simp [Go.assign, Go.findField, Go.Base.tags, Go.setString_tree, Go.Base.zero]
  have htail : [("ts", Json.str ts), ("seq", .num seq)].foldlM
      (fun m field => Go.assign (Go.Base.tags id) m field.1 (field.2.tree fmt))
        ⟨body.type, "", 0⟩ = some ⟨body.type, ts, Int64.ofInt seq⟩ := by
    simp [Go.assign, Go.findField, Go.Base.tags, Go.setString_tree, Go.setInt64_tree hfmt _ hseq]
  rw [AgentMessage.toJson, hfields, Go.unmarshal_obj, List.cons_append, List.foldlM_cons, htype,
    Option.bind_eq_bind, Option.bind_some, List.foldlM_append, Go.foldlM_ignored _ hrest,
    Option.bind_eq_bind, Option.bind_some, htail]

theorem toInt_ofInt (hseq : Exact seq) : (Int64.ofInt seq).toInt = seq := by
  unfold Exact at hseq
  exact Int64.toInt_ofInt_of_le (by omega) (by omega)

/-- `readLoop` decodes the line of a message to the message's fields. -/
theorem decodeLine_text (hfmt : fmt.WritesIntegers) {msg : AgentMessage} (hseq : Exact msg.seq) :
    ∃ inbound, Go.decodeLine (msg.text fmt) = some inbound ∧ SameFields msg inbound := by
  obtain ⟨⟨ts, seq⟩, body⟩ := msg
  rw [Go.decodeLine, AgentMessage.text, JsonText.parse_write, Option.bind_some, unmarshal_base hfmt hseq,
    Option.bind_some]
  cases body with
  | start url token room identity profile override =>
    let m : Go.StartMsg :=
      { type := "start", ts := ts, seq := Int64.ofInt seq, livekitURL := url, livekitToken := token
        roomName := room, identity := identity, videoProfileID := profile, pipelineOverride := override }
    refine ⟨.start m, (if_pos rfl).trans ?_, .start m rfl rfl (toInt_ofInt hseq) rfl⟩
    rw [unmarshal_start hfmt hseq]
    rfl
  | stop reason =>
    let m : Go.StopMsg := { type := "stop", ts := ts, seq := Int64.ofInt seq, reason := reason.text }
    have hne : AgentBody.type (.stop reason) ≠ "start" := by simp [AgentBody.type]
    refine ⟨.stop m, (if_neg hne).trans ((if_pos rfl).trans ?_),
      .stop m reason rfl rfl (toInt_ofInt hseq) rfl rfl⟩
    rw [unmarshal_stop hfmt hseq]
    rfl

end

-- ---------------------------------------------------------------------------
-- The whole protocol
-- ---------------------------------------------------------------------------

section
variable (down up : NumberFormat)

/-- What the publisher sends is one line a message. -/
theorem lines_send (msgs : List Sent) :
    Readline.lines (Go.send down msgs) = msgs.map (Go.text down) := by
  refine congrArg Prod.snd (Lines.run_join fun line hline => ?_)
  obtain ⟨sent, -, rfl⟩ := List.mem_map.mp hline
  exact ⟨_, readline_holds (encoder_covers.write (sent.toJson.tree down))⟩

/-- What the agent sends is one line a message, as long as the scanner has room for it. -/
theorem scan_sendMessages {msgs : List AgentMessage}
    (h : ∀ msg ∈ msgs, byteSize (msg.text up) < Go.maxTokenSize) :
    (Lines.run Scanner.step .start (sendMessages up msgs)).2 = msgs.map (AgentMessage.text up) := by
  refine congrArg Prod.snd (Lines.run_join fun line hline => ?_)
  obtain ⟨msg, hmsg, rfl⟩ := List.mem_map.mp hline
  exact ⟨_, scanner_holds (stringify_covers.write (msg.toJson.tree up)) (h msg hmsg)⟩

theorem forall_filterMap_decodeLine (hup : up.WritesIntegers) {msgs : List AgentMessage}
    (h : ∀ msg ∈ msgs, Exact msg.seq) :
    List.Forall₂ SameFields msgs ((msgs.map (AgentMessage.text up)).filterMap Go.decodeLine) := by
  induction msgs with
  | nil => exact .nil
  | cons msg msgs ih =>
    obtain ⟨hmsg, hmsgs⟩ := List.forall_mem_cons.mp h
    obtain ⟨inbound, hdecode, hsame⟩ := decodeLine_text hup hmsg
    rw [List.map_cons, List.filterMap_cons, hdecode]
    exact .cons hsame (ih hmsgs)

/-- Whatever the publisher builds, `readline` finds as one line a message and the
agent parses to the same fields; whatever the agent sends in lines that fit the
scanner, `readLoop` decodes to the same fields. -/
theorem both_ends_agree (hup : up.WritesIntegers) (complaint : String) :
    (∀ msgs : List (Sent × PublisherMessage),
      (∀ p ∈ msgs, (∃ now seq, Builds now seq p.1 p.2) ∧ p.1.Representable down) →
        Readline.lines (Go.send down (msgs.map (·.1))) = msgs.map (fun p => Go.text down p.1) ∧
          ∀ p ∈ msgs, parsePublisherMessage (lineOf down complaint (Go.text down p.1)) = .ok p.2) ∧
      ∀ msgs : List AgentMessage,
        (∀ msg ∈ msgs, Exact msg.seq ∧ byteSize (msg.text up) < Go.maxTokenSize) →
          List.Forall₂ SameFields msgs (Go.readLoop (sendMessages up msgs)) := by
  refine ⟨fun msgs h => ⟨?_, ?_⟩, fun msgs h => ?_⟩
  · rw [lines_send, List.map_map]
    rfl
  · intro p hp
    obtain ⟨⟨now, seq, hbuilds⟩, hfits⟩ := h p hp
    rw [lineOf_text hfits]
    exact Go.parsePublisherMessage_toJson hbuilds
  · rw [Go.readLoop, scan_sendMessages up fun msg hmsg => (h msg hmsg).2]
    exact forall_filterMap_decodeLine up hup fun msg hmsg => (h msg hmsg).1

/-- A publisher that reports a lost source, in two lines of prose. -/
private def lostSource : Sent × PublisherMessage :=
  (.error
      (Go.newError "2026-05-04T09:31:12.007Z" 7 "gst_pipeline_failed" "source lost\nretrying\u2028"
        true),
    .error
      { ts := "2026-05-04T09:31:12.007Z", seq := 7, code := .gstPipelineFailed
        message := "source lost\nretrying\u2028", fatal := true })

private def startFront : AgentMessage where
  ts := "2026-05-04T09:31:15.420Z"
  seq := 1
  body := .start "ws://10.0.0.2:7880" "eyJh.front" "room-7" "edge-front" "h264-720p" none

private theorem lostSource_builds :
    ∃ now seq, Builds now seq lostSource.1 lostSource.2 :=
  ⟨_, _, .error .gstPipelineFailed "source lost\nretrying\u2028" true⟩

private theorem startFront_short : byteSize (startFront.text wholeNumbers) < Go.maxTokenSize := by
  decide +kernel

theorem lostSource_startFront_agree :
    Readline.lines (Go.send wholeNumbers [lostSource.1]) = [Go.text wholeNumbers lostSource.1] ∧
      parsePublisherMessage (lineOf wholeNumbers "" (Go.text wholeNumbers lostSource.1)) =
        .ok lostSource.2 ∧
      List.Forall₂ SameFields [startFront] (Go.readLoop (sendMessages wholeNumbers [startFront])) :=
  have h := both_ends_agree wholeNumbers wholeNumbers wholeNumbers_writesIntegers ""
  have hdown := h.1 [lostSource]
    (List.forall_mem_singleton.mpr ⟨lostSource_builds, (by decide : (7 : Int).natAbs ≤ 2 ^ 53)⟩)
  ⟨hdown.1, hdown.2 lostSource (List.mem_singleton_self _),
    h.2 [startFront]
      (List.forall_mem_singleton.mpr ⟨(by decide : (1 : Int).natAbs ≤ 2 ^ 53), startFront_short⟩)⟩

end

end Rvep.Publisher
