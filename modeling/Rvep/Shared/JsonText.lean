import Rvep.Lib.JsonText
import Rvep.Shared.Json

/-!
# JSON values as bytes

`JSON.stringify` and `JSON.parse`, `TextEncoder` and `TextDecoder`, as the
encoders and decoders of `packages/shared` use them.
-/

namespace Rvep

open JsonText (Tree Numeral Style)

-- ---------------------------------------------------------------------------
-- Numbers
-- ---------------------------------------------------------------------------

/-- Numbers on their way from a writer to a reader that both have doubles: which
numbers these are, how the reader reads a numeral, how the writer writes a number. -/
structure NumberFormat where
  carried : ℚ → Prop
  read : Numeral → ℚ
  write : ℚ → Numeral
  read_write : ∀ q, carried q → read (write q) = q
  carried_int : ∀ n : Int, n.natAbs ≤ 2 ^ 53 → carried n

/-- The writer writes an integer without fraction and exponent. -/
def NumberFormat.WritesIntegers (fmt : NumberFormat) : Prop :=
  ∀ n : Int, n.natAbs ≤ 2 ^ 53 → fmt.write n = .ofInt n

/-- Runtimes that know no numbers but the integers. -/
def wholeNumbers : NumberFormat where
  carried q := q.den = 1
  read n := (n.toInt?.getD 0 : Int)
  write q := .ofInt q.num
  read_write q hq := by
    rw [JsonText.toInt?_ofInt, Option.getD_some]
    exact (Rat.den_eq_one_iff q).mp hq
  carried_int n _ := Rat.den_intCast n

theorem wholeNumbers_writesIntegers : wholeNumbers.WritesIntegers := by
  intro n _
  change Numeral.ofInt (n : ℚ).num = .ofInt n
  rw [Rat.num_intCast]

-- ---------------------------------------------------------------------------
-- Values and trees
-- ---------------------------------------------------------------------------

/-- An object with one property more. An old property of the name keeps its place. -/
def setKey (fields : List (String × Json)) (key : String) (v : Json) : List (String × Json) :=
  if fields.any (·.1 == key) then fields.map fun field => if field.1 == key then (key, v) else field
  else fields ++ [(key, v)]

def makeObject (fields : List (String × Json)) : List (String × Json) :=
  fields.foldl (fun done field => setKey done field.1 field.2) []

section
variable (fmt : NumberFormat)

mutual

def Json.tree : Json → Tree
  | null => .null
  | bool b => .bool b
  | num q => .num (fmt.write q)
  | str s => .str s.toList
  | arr items => .arr (Json.treeItems items)
  | obj fields => .obj (Json.treeFields fields)

def Json.treeItems : List Json → List Tree
  | [] => []
  | v :: items => v.tree :: Json.treeItems items

def Json.treeFields : List (String × Json) → List (List Char × Tree)
  | [] => []
  | (key, v) :: fields => (key.toList, v.tree) :: Json.treeFields fields

end

mutual

def Json.ofTree : Tree → Json
  | .null => null
  | .bool b => bool b
  | .num n => num (fmt.read n)
  | .str s => str (String.ofList s)
  | .arr items => arr (Json.ofItems items)
  | .obj fields => obj (makeObject (Json.ofFields fields))

def Json.ofItems : List Tree → List Json
  | [] => []
  | t :: items => Json.ofTree t :: Json.ofItems items

def Json.ofFields : List (List Char × Tree) → List (String × Json)
  | [] => []
  | (key, t) :: fields => (String.ofList key, Json.ofTree t) :: Json.ofFields fields

end

mutual

/-- The value can be sent: its numbers are the runtime's, and no object has a key twice. -/
def Json.Sound : Json → Prop
  | null | bool _ | str _ => True
  | num q => fmt.carried q
  | arr items => Json.SoundItems items
  | obj fields => (fields.map (·.1)).Nodup ∧ Json.SoundFields fields

def Json.SoundItems : List Json → Prop
  | [] => True
  | v :: items => v.Sound ∧ Json.SoundItems items

def Json.SoundFields : List (String × Json) → Prop
  | [] => True
  | (_, v) :: fields => v.Sound ∧ Json.SoundFields fields

end

end

theorem setKey_new {fields : List (String × Json)} {key : String} (h : key ∉ fields.map (·.1)) (v : Json) :
    setKey fields key v = fields ++ [(key, v)] := by
  have hnone : (fields.any (·.1 == key)) = false := by
    rw [List.any_eq_false]
    intro field hmem heq
    exact h (List.mem_map.mpr ⟨field, hmem, eq_of_beq heq⟩)
  rw [setKey, hnone]
  rfl

theorem makeObject_of_nodup {fields : List (String × Json)} (h : (fields.map (·.1)).Nodup) :
    makeObject fields = fields := by
  suffices hfold : ∀ done : List (String × Json), ((done ++ fields).map (·.1)).Nodup →
      fields.foldl (fun done field => setKey done field.1 field.2) done = done ++ fields from
    hfold [] h
  clear h
  induction fields with
  | nil => simp
  | cons field fields ih =>
    intro done hdone
    have hnew : field.1 ∉ done.map (·.1) := by
      rw [List.map_append, List.nodup_append] at hdone
      intro hmem
      exact hdone.2.2 field.1 hmem field.1 (by simp) rfl
    rw [List.foldl_cons, setKey_new hnew, ih, List.append_assoc, List.singleton_append]
    rwa [List.append_assoc, List.singleton_append]

section
variable {fmt : NumberFormat}

mutual

/-- A value is read back from the tree that is written for it. -/
theorem ofTree_tree : ∀ v : Json, v.Sound fmt → Json.ofTree fmt (v.tree fmt) = v
  | .null, _ => by rw [Json.tree, Json.ofTree]
  | .bool b, _ => by rw [Json.tree, Json.ofTree]
  | .num q, h => by
    rw [Json.Sound] at h
    rw [Json.tree, Json.ofTree, fmt.read_write q h]
  | .str s, _ => by rw [Json.tree, Json.ofTree, String.ofList_toList]
  | .arr items, h => by
    rw [Json.Sound] at h
    rw [Json.tree, Json.ofTree, ofItems_treeItems items h]
  | .obj fields, h => by
    rw [Json.Sound] at h
    rw [Json.tree, Json.ofTree, ofFields_treeFields fields h.2, makeObject_of_nodup h.1]

theorem ofItems_treeItems : ∀ items : List Json, Json.SoundItems fmt items →
    Json.ofItems fmt (Json.treeItems fmt items) = items
  | [], _ => by rw [Json.treeItems, Json.ofItems]
  | v :: items, h => by
    rw [Json.SoundItems] at h
    rw [Json.treeItems, Json.ofItems, ofTree_tree v h.1, ofItems_treeItems items h.2]

theorem ofFields_treeFields : ∀ fields : List (String × Json), Json.SoundFields fmt fields →
    Json.ofFields fmt (Json.treeFields fmt fields) = fields
  | [], _ => by rw [Json.treeFields, Json.ofFields]
  | (key, v) :: fields, h => by
    rw [Json.SoundFields] at h
    rw [Json.treeFields, Json.ofFields, ofTree_tree v h.1, ofFields_treeFields fields h.2,
      String.ofList_toList]

end

end

-- ---------------------------------------------------------------------------
-- JSON.stringify and JSON.parse
-- ---------------------------------------------------------------------------

/-- The short escapes of `JSON.stringify`. -/
def stringifyEscapes : List (Char × Char) :=
  [('"', '"'), ('\\', '\\'), ('\x08', 'b'), ('\x0c', 'f'), ('\n', 'n'), ('\r', 'r'), ('\t', 't')]

def stringifyStyle : Style where
  escape := JsonText.escapeWith stringifyEscapes fun c => decide (c < ' ')
  itemGap := []
  keyGap := []
  reads := JsonText.escapes_escapeWith (by decide) (by decide) (by decide) fun _ h =>
    of_decide_eq_false h
  blankItemGap := JsonText.isBlank_nil
  blankKeyGap := JsonText.isBlank_nil

/-- `JSON.stringify` -/
def stringify (fmt : NumberFormat) (v : Json) : String := String.ofList ((v.tree fmt).write stringifyStyle)

/-- `JSON.parse`, `none` where it throws. -/
def parseJson (fmt : NumberFormat) (text : String) : Option Json :=
  (JsonText.parse text.toList).map (Json.ofTree fmt)

/-- What any writer makes of a value is read as that value. -/
theorem parseJson_write {fmt : NumberFormat} {v : Json} (h : v.Sound fmt) (style : Style) :
    parseJson fmt (String.ofList ((v.tree fmt).write style)) = some v := by
  rw [parseJson, String.toList_ofList, JsonText.parse_write, Option.map_some, ofTree_tree v h]

-- ---------------------------------------------------------------------------
-- TextEncoder and TextDecoder
-- ---------------------------------------------------------------------------

/-- Where the decoder stands in a sequence of bytes: how many it still needs,
the bounds of the next, and the bits so far. -/
structure Utf8Decoder where
  needed : Nat
  lower : Nat
  upper : Nat
  bits : Nat
  deriving DecidableEq, Repr

namespace Utf8Decoder

def idle : Utf8Decoder := ⟨0, 0x80, 0xBF, 0⟩

/-- A byte that begins a sequence. -/
def begin (b : Nat) : Utf8Decoder × List Char :=
  if b ≤ 0x7F then (idle, [Char.ofNat b])
  else if 0xC2 ≤ b ∧ b ≤ 0xDF then (⟨1, 0x80, 0xBF, b - 0xC0⟩, [])
  else if 0xE0 ≤ b ∧ b ≤ 0xEF then
    (⟨2, if b = 0xE0 then 0xA0 else 0x80, if b = 0xED then 0x9F else 0xBF, b - 0xE0⟩, [])
  else if 0xF0 ≤ b ∧ b ≤ 0xF4 then
    (⟨3, if b = 0xF0 then 0x90 else 0x80, if b = 0xF4 then 0x8F else 0xBF, b - 0xF0⟩, [])
  else (idle, ['\uFFFD'])

/-- A byte that does not continue the sequence begins the next. -/
def step (d : Utf8Decoder) (b : Nat) : Utf8Decoder × List Char :=
  if d.needed = 0 then begin b
  else if d.lower ≤ b ∧ b ≤ d.upper then
    let bits := 0x40 * d.bits + (b - 0x80)
    if d.needed = 1 then (idle, [Char.ofNat bits]) else (⟨d.needed - 1, 0x80, 0xBF, bits⟩, [])
  else
    let (d, out) := begin b
    (d, '\uFFFD' :: out)

def run (d : Utf8Decoder) : List Nat → List Char
  | [] => if d.needed = 0 then [] else ['\uFFFD']
  | b :: bytes =>
    let (d, out) := d.step b
    out ++ d.run bytes

end Utf8Decoder

/-- `TextEncoder.encode` -/
def encodeText (text : String) : ByteArray := text.toUTF8

def withoutBom : List Char → List Char
  | '\uFEFF' :: cs => cs
  | cs => cs

/-- `TextDecoder.decode`: a byte order mark is dropped, and what is no UTF-8 replaced. -/
def decodeText (bytes : ByteArray) : String :=
  match String.fromUTF8? bytes with
  | some text => String.ofList (withoutBom text.toList)
  | none => String.ofList (withoutBom (Utf8Decoder.idle.run (bytes.toList.map UInt8.toNat)))

theorem decodeText_encodeText {text : String} (h : text.toList.head? ≠ some '\uFEFF') :
    decodeText (encodeText text) = text := by
  have hutf8 : String.fromUTF8? text.toUTF8 = some text := dif_pos text.isValidUTF8
  have hbom : withoutBom text.toList = text.toList := by
    unfold withoutBom
    split
    next cs heq => exact absurd (by rw [heq]; rfl) h
    next => rfl
  simp only [decodeText, encodeText, hutf8, hbom, String.ofList_toList]

/-- The bytes a value is sent as. -/
def writeJson (fmt : NumberFormat) (v : Json) : ByteArray := encodeText (stringify fmt v)

/-- The value of a payload, `none` where reading it throws. -/
def readJson (fmt : NumberFormat) (bytes : ByteArray) : Option Json := parseJson fmt (decodeText bytes)

section
variable {fmt : NumberFormat} {v : Json}

theorem head_write (style : Style) (v : Json) :
    (String.ofList ((v.tree fmt).write style)).toList.head? ≠ some '\uFEFF' := by
  obtain ⟨c, cs, hwrite, hc⟩ := JsonText.head_write style (v.tree fmt)
  rw [String.toList_ofList, hwrite]
  have hne : c ≠ '\uFEFF' := hc.ne (by decide) (by decide)
  simpa using hne

/-- The bytes of any writer's text are read as the value. -/
theorem readJson_write (h : v.Sound fmt) (style : Style) :
    readJson fmt (encodeText (String.ofList ((v.tree fmt).write style))) = some v := by
  rw [readJson, decodeText_encodeText (head_write style v), parseJson_write h style]

theorem readJson_writeJson (h : v.Sound fmt) : readJson fmt (writeJson fmt v) = some v :=
  readJson_write h stringifyStyle

end

section
variable {fmt : NumberFormat}

theorem Json.soundFields_iff {fields : List (String × Json)} :
    Json.SoundFields fmt fields ↔ ∀ field ∈ fields, field.2.Sound fmt := by
  induction fields with
  | nil => simp [Json.SoundFields]
  | cons field fields ih => rw [Json.SoundFields, ih, List.forall_mem_cons]

variable (fmt) in
theorem NumberFormat.carried_natCast {n : Nat} (h : n ≤ 2 ^ 53) : fmt.carried (n : ℚ) := by
  have hint := fmt.carried_int n h
  exact_mod_cast hint

end

end Rvep
