import Rvep.Lib.Numeral

/-!
# JSON texts

A reader of JSON texts that takes one character at a time, and the texts that
writers make of a tree, each with its own escapes and gaps. What any of them
writes, the reader reads back.
-/

namespace JsonText

-- ---------------------------------------------------------------------------
-- Trees
-- ---------------------------------------------------------------------------

/-- What a text says, its numbers as they are written and its keys as they come. -/
inductive Tree
  | null
  | bool (b : Bool)
  | num (n : Numeral)
  | str (s : List Char)
  | arr (items : List Tree)
  | obj (fields : List (List Char × Tree))

-- ---------------------------------------------------------------------------
-- The reader
-- ---------------------------------------------------------------------------

/-- What a value is part of. What came before it is newest first. -/
inductive Frame
  | item (before : List Tree)
  | field (before : List (List Char × Tree)) (key : List Char)

/-- Where a string stands inside an escape; `first` is the surrogate it began with. -/
inductive Escape
  | none
  | backslash
  | hex (first : Option Nat) (value count : Nat)
  | surrogate (first : Nat)
  | surrogateBackslash (first : Nat)
  deriving DecidableEq, Repr

/-- A string is a value, or a key of the fields that came before. -/
inductive Role
  | value
  | key (before : List (List Char × Tree))

inductive State
  | value (k : List Frame)
  | firstItem (k : List Frame)
  | firstKey (k : List Frame)
  | nextKey (k : List Frame) (before : List (List Char × Tree))
  | colon (k : List Frame) (before : List (List Char × Tree)) (key : List Char)
  | text (k : List Frame) (role : Role) (done : List Char) (escape : Escape)
  | numeral (k : List Frame) (done : List Char)
  | word (k : List Frame) (rest : List Char) (t : Tree)
  | after (k : List Frame) (t : Tree)

def isBlank (c : Char) : Bool := c == ' ' || c == '\n' || c == '\r' || c == '\t'

def hexDigit? (c : Char) : Option Nat :=
  if '0' ≤ c ∧ c ≤ '9' then some (c.toNat - 48)
  else if 'a' ≤ c ∧ c ≤ 'f' then some (c.toNat - 87)
  else if 'A' ≤ c ∧ c ≤ 'F' then some (c.toNat - 55)
  else none

def isHigh (u : Nat) : Bool := decide (0xD800 ≤ u) && decide (u < 0xDC00)

def isLow (u : Nat) : Bool := decide (0xDC00 ≤ u) && decide (u < 0xE000)

def pair (high low : Nat) : Char := Char.ofNat (0x10000 + (high - 0xD800) * 0x400 + (low - 0xDC00))

/-- What follows the four digits of an escape. A surrogate without its other half is no character. -/
def unitRead (k : List Frame) (role : Role) (done : List Char) (first : Option Nat) (u : Nat) :
    Option State :=
  match first with
  | none =>
    if isHigh u then some (.text k role done (.surrogate u))
    else if isLow u then none
    else some (.text k role (Char.ofNat u :: done) .none)
  | some high => if isLow u then some (.text k role (pair high u :: done) .none) else none

def shortEscape? : Char → Option Char
  | '"' => some '"'
  | '\\' => some '\\'
  | '/' => some '/'
  | 'b' => some '\x08'
  | 'f' => some '\x0c'
  | 'n' => some '\n'
  | 'r' => some '\r'
  | 't' => some '\t'
  | _ => none

/-- The string is closed. -/
def closed (k : List Frame) (done : List Char) : Role → State
  | .value => .after k (.str done.reverse)
  | .key before => .colon k before done.reverse

def textStep (k : List Frame) (role : Role) (done : List Char) (c : Char) : Escape → Option State
  | .none =>
    if c = '"' then some (closed k done role)
    else if c = '\\' then some (.text k role done .backslash)
    else if c < ' ' then none
    else some (.text k role (c :: done) .none)
  | .backslash =>
    if c = 'u' then some (.text k role done (.hex none 0 0))
    else (shortEscape? c).map fun d => .text k role (d :: done) .none
  | .hex first value count =>
    (hexDigit? c).bind fun d =>
      if count = 3 then unitRead k role done first (16 * value + d)
      else some (.text k role done (.hex first (16 * value + d) (count + 1)))
  | .surrogate first => if c = '\\' then some (.text k role done (.surrogateBackslash first)) else none
  | .surrogateBackslash first => if c = 'u' then some (.text k role done (.hex (some first) 0 0)) else none

def afterStep (k : List Frame) (t : Tree) (c : Char) : Option State :=
  if isBlank c then some (.after k t)
  else
    match k with
    | [] => none
    | .item before :: k =>
      if c = ',' then some (.value (.item (t :: before) :: k))
      else if c = ']' then some (.after k (.arr (t :: before).reverse))
      else none
    | .field before key :: k =>
      if c = ',' then some (.nextKey k ((key, t) :: before))
      else if c = '}' then some (.after k (.obj ((key, t) :: before).reverse))
      else none

def valueStep (k : List Frame) (c : Char) : Option State :=
  if isBlank c then some (.value k)
  else if c = '"' then some (.text k .value [] .none)
  else if c = '[' then some (.firstItem k)
  else if c = '{' then some (.firstKey k)
  else if c = 't' then some (.word k ['r', 'u', 'e'] (.bool true))
  else if c = 'f' then some (.word k ['a', 'l', 's', 'e'] (.bool false))
  else if c = 'n' then some (.word k ['u', 'l', 'l'] .null)
  else if isNumeralChar c then some (.numeral k [c])
  else none

def numeral? (done : List Char) : Option Tree :=
  if h : isNumeral done.reverse = true then some (.num ⟨done.reverse, h⟩) else none

def step (s : State) (c : Char) : Option State :=
  match s with
  | .value k => valueStep k c
  | .firstItem k =>
    if isBlank c then some (.firstItem k)
    else if c = ']' then some (.after k (.arr []))
    else valueStep (.item [] :: k) c
  | .firstKey k =>
    if isBlank c then some (.firstKey k)
    else if c = '}' then some (.after k (.obj []))
    else if c = '"' then some (.text k (.key []) [] .none)
    else none
  | .nextKey k before =>
    if isBlank c then some (.nextKey k before)
    else if c = '"' then some (.text k (.key before) [] .none)
    else none
  | .colon k before key =>
    if isBlank c then some (.colon k before key)
    else if c = ':' then some (.value (.field before key :: k))
    else none
  | .text k role done escape => textStep k role done c escape
  | .numeral k done =>
    if isNumeralChar c then some (.numeral k (c :: done))
    else (numeral? done).bind fun t => afterStep k t c
  | .word k rest t =>
    match rest with
    | [] => none
    | [d] => if c = d then some (.after k t) else none
    | d :: rest => if c = d then some (.word k rest t) else none
  | .after k t => afterStep k t c

def run : State → List Char → Option State
  | s, [] => some s
  | s, c :: cs => (step s c).bind fun s => run s cs

def finish : State → Option Tree
  | .after [] t => some t
  | .numeral [] done => numeral? done
  | _ => none

def parse (text : List Char) : Option Tree := (run (.value []) text).bind finish

-- ---------------------------------------------------------------------------
-- Writers
-- ---------------------------------------------------------------------------

/-- Inside a string, `cs` stands for `c`. -/
def Escapes (c : Char) (cs : List Char) : Prop :=
  ∀ k role done, run (.text k role done .none) cs = some (.text k role (c :: done) .none)

theorem isBlank_nil : ∀ c ∈ [], isBlank c = true := List.forall_mem_nil _

/-- How a writer escapes a character and what it puts after commas and colons. -/
structure Style where
  escape : Char → List Char
  itemGap : List Char
  keyGap : List Char
  reads : ∀ c, Escapes c (escape c)
  blankItemGap : ∀ c ∈ itemGap, isBlank c = true
  blankKeyGap : ∀ c ∈ keyGap, isBlank c = true

def Style.quote (style : Style) (s : List Char) : List Char :=
  '"' :: (s.flatMap style.escape ++ ['"'])

mutual

def Tree.write (style : Style) : Tree → List Char
  | null => ['n', 'u', 'l', 'l']
  | bool true => ['t', 'r', 'u', 'e']
  | bool false => ['f', 'a', 'l', 's', 'e']
  | num n => n.chars
  | str s => style.quote s
  | arr items => '[' :: (Tree.writeItems style items ++ [']'])
  | obj fields => '{' :: (Tree.writeFields style fields ++ ['}'])

def Tree.writeItems (style : Style) : List Tree → List Char
  | [] => []
  | t :: items =>
    t.write style ++ ((if items.isEmpty then [] else ',' :: style.itemGap) ++
      Tree.writeItems style items)

def Tree.writeFields (style : Style) : List (List Char × Tree) → List Char
  | [] => []
  | (key, t) :: fields =>
    style.quote key ++ (':' :: style.keyGap ++ (t.write style ++
      ((if fields.isEmpty then [] else ',' :: style.itemGap) ++ Tree.writeFields style fields)))

end

-- ---------------------------------------------------------------------------
-- Reading what was written
-- ---------------------------------------------------------------------------

section
variable {k : List Frame} {s s' : State} {t : Tree} {c : Char} {cs cs' : List Char}

@[simp] theorem run_nil : run s [] = some s := rfl

theorem run_cons (h : step s c = some s') : run s (c :: cs) = run s' cs := by
  rw [run, h, Option.bind_some]

theorem run_append (h : run s cs = some s') : run s (cs ++ cs') = run s' cs' := by
  induction cs generalizing s with
  | nil =>
    obtain rfl := Option.some.inj h
    rfl
  | cons c cs ih =>
    cases hs : step s c with
    | none => simp [run, hs] at h
    | some s₁ =>
      rw [run_cons hs] at h
      rw [List.cons_append, run_cons hs, ih h]

/-- States that take a blank for nothing. -/
theorem run_blank (h : ∀ c, isBlank c = true → step s c = some s) (hcs : ∀ c ∈ cs, isBlank c = true) :
    run s (cs ++ cs') = run s cs' := by
  induction cs with
  | nil => rfl
  | cons c cs ih =>
    obtain ⟨hc, hcs⟩ := List.forall_mem_cons.mp hcs
    rw [List.cons_append, run_cons (h c hc), ih hcs]

theorem step_value_blank (h : isBlank c = true) : step (.value k) c = some (.value k) := by
  simp [step, valueStep, h]

theorem step_nextKey_blank {before : List (List Char × Tree)} (h : isBlank c = true) :
    step (.nextKey k before) c = some (.nextKey k before) := by
  simp [step, h]

/-- The value `t` of `k` has been read, up to its end being seen. -/
structure Settled (k : List Frame) (t : Tree) (s : State) : Prop where
  ends : ∀ c, isNumeralChar c = false → step s c = afterStep k t c
  finishes : k = [] → finish s = some t

theorem settled_after : Settled k t (.after k t) where
  ends _ _ := rfl
  finishes h := by
    subst h
    rfl

-- Strings

theorem run_escapes (style : Style) (s : List Char) {role : Role} {done : List Char} :
    run (.text k role done .none) (s.flatMap style.escape ++ cs) =
      run (.text k role (s.reverse ++ done) .none) cs := by
  induction s generalizing done with
  | nil => rfl
  | cons c s ih =>
    rw [List.flatMap_cons, List.append_assoc, run_append (style.reads c k role done), ih,
      List.reverse_cons, List.append_assoc, List.singleton_append]

theorem run_quoted (style : Style) (s : List Char) {role : Role} :
    run (.text k role [] .none) (s.flatMap style.escape ++ '"' :: cs) =
      run (closed k s.reverse role) cs := by
  rw [run_escapes, List.append_nil]
  exact run_cons rfl

theorem run_value_quote : run (.value k) ('"' :: cs) = run (.text k .value [] .none) cs := rfl

theorem run_nextKey_quote {before : List (List Char × Tree)} :
    run (.nextKey k before) ('"' :: cs) = run (.text k (.key before) [] .none) cs := rfl

theorem run_value_array : run (.value k) ('[' :: cs) = run (.firstItem k) cs := rfl

theorem run_value_object : run (.value k) ('{' :: cs) = run (.firstKey k) cs := rfl

theorem run_colon {before : List (List Char × Tree)} {key : List Char} :
    run (.colon k before key) (':' :: cs) = run (.value (.field before key :: k)) cs := rfl

-- Numerals

theorem ne_of_isNumeralChar {d : Char} (h : isNumeralChar c = true) (hd : isNumeralChar d = false) :
    c ≠ d := by
  rintro rfl
  rw [h] at hd
  cases hd

theorem not_isBlank_of_isNumeralChar (h : isNumeralChar c = true) : isBlank c = false := by
  simp only [isBlank, Bool.or_eq_false_iff, beq_eq_false_iff_ne]
  refine ⟨⟨⟨?_, ?_⟩, ?_⟩, ?_⟩ <;> exact ne_of_isNumeralChar h rfl

theorem step_value_numeral (h : isNumeralChar c = true) : step (.value k) c = some (.numeral k [c]) := by
  have hne {d : Char} (hd : isNumeralChar d = false) : c ≠ d := ne_of_isNumeralChar h hd
  rw [step, valueStep, if_neg (Bool.eq_false_iff.mp (not_isBlank_of_isNumeralChar h)), if_neg (hne rfl),
    if_neg (hne rfl), if_neg (hne rfl), if_neg (hne rfl), if_neg (hne rfl), if_neg (hne rfl), if_pos h]

theorem step_numeral {done : List Char} (h : isNumeralChar c = true) :
    step (.numeral k done) c = some (.numeral k (c :: done)) := if_pos h

theorem run_numeral {done : List Char} (h : ∀ c ∈ cs, isNumeralChar c = true) :
    run (.numeral k done) cs = some (.numeral k (cs.reverse ++ done)) := by
  induction cs generalizing done with
  | nil => rfl
  | cons c cs ih =>
    obtain ⟨hc, hcs⟩ := List.forall_mem_cons.mp h
    rw [run_cons (step_numeral hc), ih hcs, List.reverse_cons, List.append_assoc,
      List.singleton_append]

theorem Numeral.head (n : Numeral) :
    ∃ c cs, n.chars = c :: cs ∧ isNumeralChar c = true ∧ ∀ c ∈ cs, isNumeralChar c = true := by
  obtain ⟨chars, valid⟩ := n
  obtain ⟨hall, hsigned⟩ := (Bool.and_eq_true ..).mp valid
  cases chars with
  | nil => cases hsigned
  | cons c cs =>
    obtain ⟨hc, hcs⟩ := List.forall_mem_cons.mp (List.all_eq_true.mp hall)
    exact ⟨c, cs, rfl, hc, hcs⟩

theorem numeral?_reverse (n : Numeral) : numeral? n.chars.reverse = some (.num n) := by
  obtain ⟨chars, valid⟩ := n
  unfold numeral?
  rw [dif_pos (by rw [List.reverse_reverse]; exact valid)]
  simp only [List.reverse_reverse]

theorem settled_numeral (n : Numeral) : Settled k (.num n) (.numeral k n.chars.reverse) where
  ends c hc := by
    rw [step, if_neg (Bool.eq_false_iff.mp hc), numeral?_reverse, Option.bind_some]
  finishes h := by
    subst h
    exact numeral?_reverse n

theorem run_num (n : Numeral) : run (.value k) n.chars = some (.numeral k n.chars.reverse) := by
  obtain ⟨c, cs, hchars, hc, hcs⟩ := n.head
  rw [hchars, run_cons (step_value_numeral hc), run_numeral hcs, List.reverse_cons]

-- Arrays and objects

theorem step_firstItem (hblank : isBlank c = false) (hne : c ≠ ']') :
    step (.firstItem k) c = step (.value (.item [] :: k)) c := by
  simp [step, hblank, hne]

/-- The first character of a value. -/
def StartsValue (c : Char) : Prop := isNumeralChar c = true ∨ c ∈ ['"', '[', '{', 't', 'f', 'n']

theorem head_write (style : Style) (t : Tree) :
    ∃ c cs, t.write style = c :: cs ∧ StartsValue c := by
  cases t with
  | num n =>
    obtain ⟨c, cs, hchars, hc, -⟩ := n.head
    exact ⟨c, cs, by rw [Tree.write, hchars], .inl hc⟩
  | null => exact ⟨_, _, by rw [Tree.write], .inr (by decide)⟩
  | bool b => cases b <;> exact ⟨_, _, by rw [Tree.write], .inr (by decide)⟩
  | str s => exact ⟨_, _, by rw [Tree.write, Style.quote], .inr (by decide)⟩
  | arr items => exact ⟨_, _, by rw [Tree.write], .inr (by decide)⟩
  | obj fields => exact ⟨_, _, by rw [Tree.write], .inr (by decide)⟩

theorem StartsValue.ne {d : Char} (h : StartsValue c) (hd : isNumeralChar d = false)
    (hmem : d ∉ ['"', '[', '{', 't', 'f', 'n']) : c ≠ d := by
  rintro rfl
  rcases h with h | h
  · rw [h] at hd
    cases hd
  · exact hmem h

theorem StartsValue.not_isBlank (h : StartsValue c) : isBlank c = false := by
  simp only [isBlank, Bool.or_eq_false_iff, beq_eq_false_iff_ne]
  refine ⟨⟨⟨?_, ?_⟩, ?_⟩, ?_⟩ <;> exact h.ne (by decide) (by decide)

theorem run_firstItem (style : Style) (items : List Tree) (hne : items ≠ []) :
    run (.firstItem k) (Tree.writeItems style items ++ cs) =
      run (.value (.item [] :: k)) (Tree.writeItems style items ++ cs) := by
  cases items with
  | nil => exact absurd rfl hne
  | cons t items =>
    obtain ⟨c, rest, hwrite, hc⟩ := head_write style t
    have hend : c ≠ ']' := hc.ne (by decide) (by decide)
    rw [Tree.writeItems, hwrite]
    simp only [List.cons_append, run, step_firstItem hc.not_isBlank hend]

theorem run_firstKey (style : Style) (fields : List (List Char × Tree)) (hne : fields ≠ []) :
    run (.firstKey k) (Tree.writeFields style fields ++ cs) =
      run (.nextKey k []) (Tree.writeFields style fields ++ cs) := by
  cases fields with
  | nil => exact absurd rfl hne
  | cons field fields =>
    rw [Tree.writeFields, Style.quote]
    rfl

theorem Settled.comma_item {before : List Tree} (h : Settled (.item before :: k) t s) :
    step s ',' = some (.value (.item (t :: before) :: k)) := h.ends ',' rfl

theorem Settled.close_item {before : List Tree} (h : Settled (.item before :: k) t s) :
    step s ']' = some (.after k (.arr (t :: before).reverse)) := h.ends ']' rfl

theorem Settled.comma_field {before : List (List Char × Tree)} {key : List Char}
    (h : Settled (.field before key :: k) t s) :
    step s ',' = some (.nextKey k ((key, t) :: before)) := h.ends ',' rfl

theorem Settled.close_field {before : List (List Char × Tree)} {key : List Char}
    (h : Settled (.field before key :: k) t s) :
    step s '}' = some (.after k (.obj ((key, t) :: before).reverse)) := h.ends '}' rfl

end

mutual

theorem run_write (style : Style) (k : List Frame) :
    ∀ t : Tree, ∃ s, run (.value k) (t.write style) = some s ∧ Settled k t s
  | .null => ⟨_, by rw [Tree.write]; rfl, settled_after⟩
  | .bool true => ⟨_, by rw [Tree.write]; rfl, settled_after⟩
  | .bool false => ⟨_, by rw [Tree.write]; rfl, settled_after⟩
  | .num n => ⟨_, by rw [Tree.write]; exact run_num n, settled_numeral n⟩
  | .str s => by
    refine ⟨.after k (.str s), ?_, settled_after⟩
    rw [Tree.write, Style.quote, run_value_quote, run_quoted]
    simp [closed]
  | .arr items => by
    refine ⟨.after k (.arr items), ?_, settled_after⟩
    rw [Tree.write, run_value_array]
    cases items with
    | nil => rfl
    | cons t items =>
      rw [run_firstItem style (t :: items) (List.cons_ne_nil t items),
        run_writeItems style k [] (t :: items) (List.cons_ne_nil t items)]
      rfl
  | .obj fields => by
    refine ⟨.after k (.obj fields), ?_, settled_after⟩
    rw [Tree.write, run_value_object]
    cases fields with
    | nil => rfl
    | cons field fields =>
      rw [run_firstKey style (field :: fields) (List.cons_ne_nil field fields),
        run_writeFields style k [] (field :: fields) (List.cons_ne_nil field fields)]
      rfl

theorem run_writeItems (style : Style) (k : List Frame) (before : List Tree) :
    ∀ items : List Tree, items ≠ [] →
      run (.value (.item before :: k)) (Tree.writeItems style items ++ [']']) =
        some (.after k (.arr (before.reverse ++ items)))
  | [], hne => absurd rfl hne
  | t :: items, _ => by
    obtain ⟨s, hrun, hs⟩ := run_write style (.item before :: k) t
    rw [Tree.writeItems, List.append_assoc, run_append hrun]
    cases items with
    | nil =>
      rw [Tree.writeItems, List.isEmpty_nil, if_pos rfl]
      simp only [List.nil_append]
      rw [run_cons hs.close_item, run_nil, List.reverse_cons]
    | cons t' items =>
      have hnext := run_writeItems style k (t :: before) (t' :: items) (List.cons_ne_nil t' items)
      simp only [List.isEmpty_cons, Bool.false_eq_true, if_false, List.cons_append, List.append_assoc]
      rw [run_cons hs.comma_item, run_blank (fun _ => step_value_blank) style.blankItemGap, hnext]
      simp

theorem run_writeFields (style : Style) (k : List Frame) (before : List (List Char × Tree)) :
    ∀ fields : List (List Char × Tree), fields ≠ [] →
      run (.nextKey k before) (Tree.writeFields style fields ++ ['}']) =
        some (.after k (.obj (before.reverse ++ fields)))
  | [], hne => absurd rfl hne
  | (key, t) :: fields, _ => by
    obtain ⟨s, hrun, hs⟩ := run_write style (.field before key :: k) t
    rw [Tree.writeFields, Style.quote]
    simp only [List.cons_append, List.append_assoc]
    rw [run_nextKey_quote, List.nil_append, run_quoted, closed, List.reverse_reverse, run_colon,
      run_blank (fun _ => step_value_blank) style.blankKeyGap, run_append hrun]
    cases fields with
    | nil =>
      rw [Tree.writeFields, List.isEmpty_nil, if_pos rfl]
      simp only [List.nil_append]
      rw [run_cons hs.close_field, run_nil, List.reverse_cons]
    | cons field fields =>
      have hnext := run_writeFields style k ((key, t) :: before) (field :: fields)
        (List.cons_ne_nil field fields)
      simp only [List.isEmpty_cons, Bool.false_eq_true, if_false, List.cons_append]
      rw [run_cons hs.comma_field, run_blank (fun _ => step_nextKey_blank) style.blankItemGap, hnext]
      simp

end

theorem parse_write (style : Style) (t : Tree) : parse (t.write style) = some t := by
  obtain ⟨s, hrun, hs⟩ := run_write style [] t
  rw [parse, hrun, Option.bind_some, hs.finishes rfl]

-- ---------------------------------------------------------------------------
-- Escapes
-- ---------------------------------------------------------------------------

def hexDigit (d : Nat) : Char := if d < 10 then Char.ofNat (48 + d) else Char.ofNat (87 + d)

/-- An escape of a 16-bit unit, its digits lowercase. -/
def unicodeEscape (u : Nat) : List Char :=
  ['\\', 'u', hexDigit (u / 0x1000), hexDigit (u / 0x100 % 0x10), hexDigit (u / 0x10 % 0x10),
    hexDigit (u % 0x10)]

/-- The two escapes of a character beyond 16 bits. -/
def pairEscape (n : Nat) : List Char :=
  unicodeEscape (0xD800 + (n - 0x10000) / 0x400) ++ unicodeEscape (0xDC00 + (n - 0x10000) % 0x400)

theorem hexDigit?_hexDigit : ∀ d < 16, hexDigit? (hexDigit d) = some d := by decide

section
variable {k : List Frame} {role : Role} {done : List Char} {first : Option Nat} {u : Nat} {c : Char}

theorem step_hex {d v count : Nat} (hd : hexDigit? c = some d) (hcount : count ≠ 3) :
    step (.text k role done (.hex first v count)) c =
      some (.text k role done (.hex first (16 * v + d) (count + 1))) := by
  simp [step, textStep, hd, hcount]

theorem step_hex_last {d v : Nat} (hd : hexDigit? c = some d) :
    step (.text k role done (.hex first v 3)) c = unitRead k role done first (16 * v + d) := by
  simp [step, textStep, hd]

theorem run_hex (hu : u < 0x10000) :
    run (.text k role done (.hex first 0 0))
      [hexDigit (u / 0x1000), hexDigit (u / 0x100 % 0x10), hexDigit (u / 0x10 % 0x10),
        hexDigit (u % 0x10)] = unitRead k role done first u := by
  have h₁ := hexDigit?_hexDigit (u / 0x1000) (by omega)
  have h₂ := hexDigit?_hexDigit (u / 0x100 % 0x10) (by omega)
  have h₃ := hexDigit?_hexDigit (u / 0x10 % 0x10) (by omega)
  have h₄ := hexDigit?_hexDigit (u % 0x10) (by omega)
  have hvalue : 16 * (16 * (16 * (16 * 0 + u / 0x1000) + u / 0x100 % 0x10) + u / 0x10 % 0x10) +
      u % 0x10 = u := by omega
  rw [run_cons (step_hex h₁ (by decide)), run_cons (step_hex h₂ (by decide)),
    run_cons (step_hex h₃ (by decide)), run, step_hex_last h₄, hvalue]
  cases unitRead k role done first u <;> rfl

theorem run_unicodeEscape (hu : u < 0x10000) :
    run (.text k role done .none) (unicodeEscape u) = unitRead k role done none u := run_hex hu

theorem run_second_unicodeEscape {high : Nat} (hu : u < 0x10000) :
    run (.text k role done (.surrogate high)) (unicodeEscape u) =
      unitRead k role done (some high) u := run_hex hu

theorem Escapes.raw (hquote : c ≠ '"') (hbackslash : c ≠ '\\') (hcontrol : ¬ c < ' ') :
    Escapes c [c] := by
  intro k role done
  simp [run, step, textStep, hquote, hbackslash, hcontrol]

theorem Escapes.short {e : Char} (he : e ≠ 'u') (h : shortEscape? e = some c) :
    Escapes c ['\\', e] := by
  intro k role done
  simp [run, step, textStep, he, h]

theorem valid_toNat (c : Char) : c.toNat < 0xD800 ∨ (0xDFFF < c.toNat ∧ c.toNat < 0x110000) :=
  c.valid

theorem Escapes.unicode (hc : c.toNat < 0x10000) : Escapes c (unicodeEscape c.toNat) := by
  intro k role done
  have hvalid := valid_toNat c
  have hhigh : isHigh c.toNat = false := by
    simp only [isHigh, Bool.and_eq_false_iff, decide_eq_false_iff_not]
    omega
  have hlow : isLow c.toNat = false := by
    simp only [isLow, Bool.and_eq_false_iff, decide_eq_false_iff_not]
    omega
  rw [run_unicodeEscape hc, unitRead, hhigh, hlow, Char.ofNat_toNat]
  rfl

theorem pair_eq {n : Nat} (h : 0x10000 ≤ n) :
    pair (0xD800 + (n - 0x10000) / 0x400) (0xDC00 + (n - 0x10000) % 0x400) = Char.ofNat n := by
  have hvalue : 0x10000 + (0xD800 + (n - 0x10000) / 0x400 - 0xD800) * 0x400 +
      (0xDC00 + (n - 0x10000) % 0x400 - 0xDC00) = n := by omega
  rw [pair, hvalue]

theorem Escapes.pair (hc : 0x10000 ≤ c.toNat) : Escapes c (pairEscape c.toNat) := by
  intro k role done
  have hlt : c.toNat < 0x110000 := by
    have hvalid := valid_toNat c
    omega
  have hhigh : isHigh (0xD800 + (c.toNat - 0x10000) / 0x400) = true := by
    simp only [isHigh, Bool.and_eq_true, decide_eq_true_eq]
    omega
  have hlow : isLow (0xDC00 + (c.toNat - 0x10000) % 0x400) = true := by
    simp only [isLow, Bool.and_eq_true, decide_eq_true_eq]
    omega
  have hfirst : run (.text k role done .none) (unicodeEscape (0xD800 + (c.toNat - 0x10000) / 0x400)) =
      some (.text k role done (.surrogate (0xD800 + (c.toNat - 0x10000) / 0x400))) := by
    rw [run_unicodeEscape (by omega), unitRead, hhigh]
    rfl
  rw [pairEscape, run_append hfirst, run_second_unicodeEscape (by omega), unitRead, hlow,
    pair_eq hc, Char.ofNat_toNat]
  rfl

end

/-- Some characters have a short escape, by the character that follows the
backslash; of the others, those of a kind are escaped by their units. -/
def escapeWith (short : List (Char × Char)) (unicode : Char → Bool) (c : Char) : List Char :=
  match short.find? (·.1 == c) with
  | some p => ['\\', p.2]
  | none =>
    if unicode c then if c.toNat < 0x10000 then unicodeEscape c.toNat else pairEscape c.toNat
    else [c]

theorem escapes_escapeWith {short : List (Char × Char)} {unicode : Char → Bool}
    (hshort : ∀ p ∈ short, p.2 ≠ 'u' ∧ shortEscape? p.2 = some p.1)
    (hquote : '"' ∈ short.map (·.1)) (hbackslash : '\\' ∈ short.map (·.1))
    (hcontrol : ∀ c, unicode c = false → ¬ c < ' ') (c : Char) :
    Escapes c (escapeWith short unicode c) := by
  unfold escapeWith
  cases hfind : short.find? (·.1 == c) with
  | some p =>
    have hp := List.find?_some hfind
    obtain ⟨hu, he⟩ := hshort p (List.mem_of_find?_eq_some hfind)
    exact eq_of_beq hp ▸ .short hu he
  | none =>
    have hne {d : Char} (hd : d ∈ short.map (·.1)) : c ≠ d := by
      rintro rfl
      obtain ⟨p, hp, hpd⟩ := List.mem_map.mp hd
      exact List.find?_eq_none.mp hfind p hp (beq_iff_eq.mpr hpd)
    simp only
    split
    next =>
      split
      next hc => exact .unicode hc
      next hc => exact .pair (not_lt.mp hc)
    next hraw => exact .raw (hne hquote) (hne hbackslash) (hcontrol c (Bool.eq_false_iff.mpr hraw))

-- ---------------------------------------------------------------------------
-- The characters of a text
-- ---------------------------------------------------------------------------

section
variable {P : Char → Prop} {u : Nat}

theorem forall_mem_unicodeEscape (hmarks : P '\\' ∧ P 'u') (hdigits : ∀ d < 16, P (hexDigit d))
    (hu : u < 0x10000) : ∀ c ∈ unicodeEscape u, P c := by
  simp only [unicodeEscape, List.forall_mem_cons, List.not_mem_nil, false_implies, implies_true,
    and_true]
  exact ⟨hmarks.1, hmarks.2, hdigits _ (by omega), hdigits _ (by omega), hdigits _ (by omega),
    hdigits _ (by omega)⟩

/-- What holds of the characters of escapes and of those left as they are. -/
theorem forall_mem_escapeWith {short : List (Char × Char)} {unicode : Char → Bool}
    (hmarks : P '\\' ∧ P 'u') (hdigits : ∀ d < 16, P (hexDigit d)) (hshort : ∀ p ∈ short, P p.2)
    (hraw : ∀ c, unicode c = false → P c) (c : Char) : ∀ d ∈ escapeWith short unicode c, P d := by
  unfold escapeWith
  split
  next p hfind => simp [hmarks.1, hshort p (List.mem_of_find?_eq_some hfind)]
  next =>
    have hvalid := valid_toNat c
    split
    next =>
      split
      next hc => exact forall_mem_unicodeEscape hmarks hdigits hc
      next hc =>
        rw [pairEscape]
        intro d hd
        rcases List.mem_append.mp hd with hd | hd
        · exact forall_mem_unicodeEscape hmarks hdigits (by omega) d hd
        · exact forall_mem_unicodeEscape hmarks hdigits (by omega) d hd
    next hc => simp [hraw c (Bool.eq_false_iff.mpr hc)]

end

/-- What holds of the characters that all texts are made of, and of a writer's
escapes and gaps, holds of what it writes. -/
structure Covers (style : Style) (P : Char → Prop) : Prop where
  marks : ∀ c ∈ ['{', '}', '[', ']', ',', ':', '"', 't', 'r', 'u', 'e', 'f', 'a', 'l', 's', 'n'], P c
  numerals : ∀ c, isNumeralChar c = true → P c
  escapes : ∀ c, ∀ d ∈ style.escape c, P d
  itemGap : ∀ c ∈ style.itemGap, P c
  keyGap : ∀ c ∈ style.keyGap, P c

section
variable {style : Style} {P : Char → Prop}

theorem Numeral.isNumeralChar (n : Numeral) : ∀ c ∈ n.chars, JsonText.isNumeralChar c = true :=
  List.all_eq_true.mp ((Bool.and_eq_true ..).mp n.valid).1

theorem Covers.quote (h : Covers style P) (s : List Char) : ∀ c ∈ style.quote s, P c := by
  have hmark : P '"' := h.marks '"' (by decide)
  intro c hc
  rcases List.mem_cons.mp hc with rfl | hc
  · exact hmark
  · rcases List.mem_append.mp hc with hc | hc
    · obtain ⟨d, -, hd⟩ := List.mem_flatMap.mp hc
      exact h.escapes d c hd
    · rw [List.mem_singleton.mp hc]
      exact hmark

theorem Covers.separator (h : Covers style P) (b : Bool) :
    ∀ c ∈ (if b then [] else ',' :: style.itemGap), P c := by
  cases b with
  | true => simp
  | false => exact List.forall_mem_cons.mpr ⟨h.marks ',' (by decide), h.itemGap⟩

theorem Covers.word (h : Covers style P) {cs : List Char}
    (hcs : ∀ c ∈ cs, c ∈ ['{', '}', '[', ']', ',', ':', '"', 't', 'r', 'u', 'e', 'f', 'a', 'l', 's', 'n']) :
    ∀ c ∈ cs, P c := fun c hc => h.marks c (hcs c hc)

end

mutual

theorem Covers.write {style : Style} {P : Char → Prop} (h : Covers style P) :
    ∀ t : Tree, ∀ c ∈ t.write style, P c
  | .null => by rw [Tree.write]; exact h.word (by simp)
  | .bool true => by rw [Tree.write]; exact h.word (by simp)
  | .bool false => by rw [Tree.write]; exact h.word (by simp)
  | .num n => by rw [Tree.write]; exact fun c hc => h.numerals c (n.isNumeralChar c hc)
  | .str s => by rw [Tree.write]; exact h.quote s
  | .arr items => by
    rw [Tree.write, List.forall_mem_cons, List.forall_mem_append, List.forall_mem_singleton]
    exact ⟨h.marks _ (by decide), h.writeItems items, h.marks _ (by decide)⟩
  | .obj fields => by
    rw [Tree.write, List.forall_mem_cons, List.forall_mem_append, List.forall_mem_singleton]
    exact ⟨h.marks _ (by decide), h.writeFields fields, h.marks _ (by decide)⟩

theorem Covers.writeItems {style : Style} {P : Char → Prop} (h : Covers style P) :
    ∀ items : List Tree, ∀ c ∈ Tree.writeItems style items, P c
  | [] => by rw [Tree.writeItems]; simp
  | t :: items => by
    rw [Tree.writeItems, List.forall_mem_append, List.forall_mem_append]
    exact ⟨h.write t, h.separator _, h.writeItems items⟩

theorem Covers.writeFields {style : Style} {P : Char → Prop} (h : Covers style P) :
    ∀ fields : List (List Char × Tree), ∀ c ∈ Tree.writeFields style fields, P c
  | [] => by rw [Tree.writeFields]; simp
  | (key, t) :: fields => by
    rw [Tree.writeFields, List.forall_mem_append, List.forall_mem_append, List.forall_mem_append,
      List.forall_mem_append, List.forall_mem_cons]
    exact ⟨h.quote key, ⟨h.marks _ (by decide), h.keyGap⟩, h.write t, h.separator _,
      h.writeFields fields⟩

end

end JsonText
