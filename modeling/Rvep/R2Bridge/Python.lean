import Mathlib.Algebra.Order.Ring.Rat

/-!
# Python values

What `json.loads` returns and what `float()` makes of it. A float is the exact
number it stands for, an infinity or NaN; only its range is that of a double.
-/

namespace Rvep.R2Bridge

inductive PyFloat where
  | finite (q : ℚ)
  | inf (negative : Bool)
  | nan
  deriving DecidableEq, Repr

inductive PyValue where
  | none
  | bool (b : Bool)
  | int (n : Int)
  | float (x : PyFloat)
  | str (s : String)
  | list (items : List PyValue)
  | dict (fields : List (String × PyValue))

inductive PyError where
  | unicodeDecodeError
  | jsonDecodeError
  | attributeError
  | typeError
  | valueError
  | overflowError
  | recursionError
  deriving DecidableEq, Repr

-- ---------------------------------------------------------------------------
-- Floats
-- ---------------------------------------------------------------------------

namespace PyFloat

/-- From here on, the nearest double is an infinity. -/
def overflowThreshold : ℚ := 2 ^ 1024 - 2 ^ 970

def ofExact (q : ℚ) : PyFloat := if overflowThreshold ≤ |q| then .inf (q < 0) else .finite q

def neg : PyFloat → PyFloat
  | finite q => finite (-q)
  | inf negative => inf !negative
  | nan => nan

def mul : PyFloat → PyFloat → PyFloat
  | finite a, finite b => finite (a * b)
  | inf negative, finite b => if b = 0 then nan else inf (negative != decide (b < 0))
  | finite a, inf negative => if a = 0 then nan else inf (negative != decide (a < 0))
  | inf a, inf b => inf (a != b)
  | nan, _ => nan
  | _, nan => nan

end PyFloat

-- ---------------------------------------------------------------------------
-- Numeric strings
-- ---------------------------------------------------------------------------

def digitZeros : List Nat :=
  [0x30, 0x660, 0x6F0, 0x7C0, 0x966, 0x9E6, 0xA66, 0xAE6, 0xB66, 0xBE6, 0xC66, 0xCE6, 0xD66, 0xDE6,
    0xE50, 0xED0, 0xF20, 0x1040, 0x1090, 0x17E0, 0x1810, 0x1946, 0x19D0, 0x1A80, 0x1A90, 0x1B50,
    0x1BB0, 0x1C40, 0x1C50, 0xA620, 0xA8D0, 0xA900, 0xA9D0, 0xA9F0, 0xAA50, 0xABF0, 0xFF10,
    0x104A0, 0x10D30, 0x11066, 0x110F0, 0x11136, 0x111D0, 0x112F0, 0x11450, 0x114D0, 0x11650,
    0x116C0, 0x11730, 0x118E0, 0x11950, 0x11C50, 0x11D50, 0x11DA0, 0x11F50, 0x16A60, 0x16AC0,
    0x16B50, 0x1D7CE, 0x1D7D8, 0x1D7E2, 0x1D7EC, 0x1D7F6, 0x1E140, 0x1E2F0, 0x1E4F0, 0x1E950,
    0x1FBF0]

def decimalDigit? (c : Char) : Option Nat :=
  (digitZeros.find? fun first => first ≤ c.toNat && c.toNat < first + 10).map (c.toNat - ·)

/-- What `float()` strips; unlike `str.strip`, not the separators U+001C to U+001F. -/
def isSpace (c : Char) : Bool :=
  let n := c.toNat
  (0x9 ≤ n && n ≤ 0xD) || n == 0x20 || n == 0x85 || n == 0xA0 || n == 0x1680 ||
    (0x2000 ≤ n && n ≤ 0x200A) || n == 0x2028 || n == 0x2029 || n == 0x202F || n == 0x205F ||
    n == 0x3000

def strip (cs : List Char) : List Char :=
  ((cs.dropWhile isSpace).reverse.dropWhile isSpace).reverse

/-- The digits at the head of a text and what follows them; one underscore may
stand between two digits. -/
def digitPart (inside : Bool) : List Char → List Nat × List Char
  | [] => ([], [])
  | c :: rest =>
    match decimalDigit? c with
    | some d =>
      let (ds, left) := digitPart true rest
      (d :: ds, left)
    | none =>
      if inside && c == '_' && (rest.head?.bind decimalDigit?).isSome then digitPart false rest
      else ([], c :: rest)

def ofDigits (ds : List Nat) : Nat := ds.foldl (fun n d => 10 * n + d) 0

def takeSign : List Char → Bool × List Char
  | '-' :: rest => (true, rest)
  | '+' :: rest => (false, rest)
  | cs => (false, cs)

def exponent : List Char → Option Int
  | [] => some 0
  | c :: rest =>
    if c == 'e' || c == 'E' then
      let (negative, rest) := takeSign rest
      match digitPart false rest with
      | (d :: ds, []) =>
        let n : Int := ofDigits (d :: ds)
        some (if negative then -n else n)
      | _ => none
    else none

def scientific (n : Nat) : Int → ℚ
  | .ofNat e => n * 10 ^ e
  | .negSucc e => mkRat n (10 ^ (e + 1))

def unsignedNumber (cs : List Char) : Option ℚ :=
  let (whole, rest) := digitPart false cs
  let (fraction, rest) := match rest with
    | '.' :: rest => digitPart false rest
    | rest => ([], rest)
  if whole.isEmpty && fraction.isEmpty then none
  else (exponent rest).map fun e => scientific (ofDigits (whole ++ fraction)) (e - fraction.length)

/-- `float(s)` for a string, `none` where it raises ValueError. -/
def PyFloat.ofString? (s : String) : Option PyFloat :=
  let (negative, cs) := takeSign (strip s.toList)
  let magnitude : Option PyFloat :=
    match String.ofList (cs.map Char.toLower) with
    | "inf" | "infinity" => some (.inf false)
    | "nan" => some .nan
    | _ => (unsignedNumber cs).map .ofExact
  magnitude.map fun x => if negative then x.neg else x

example : PyFloat.ofString? " -1_2.5e1\n" = some (.finite (-125)) := by decide +kernel
example : PyFloat.ofString? "1_.5" = none := by decide +kernel
example : PyFloat.ofString? "\x1c20" = none := by decide +kernel

-- ---------------------------------------------------------------------------
-- Values
-- ---------------------------------------------------------------------------

namespace PyValue

def truthy : PyValue → Bool
  | none => false
  | bool b => b
  | int n => n != 0
  | float x => x != .finite 0
  | str s => s != ""
  | list items => !items.isEmpty
  | dict fields => !fields.isEmpty

/-- `v.get(key, default)`; only a dict has the method. -/
def get (v : PyValue) (key : String) (default : PyValue) : Except PyError PyValue :=
  match v with
  | dict fields => .ok ((fields.lookup key).getD default)
  | _ => .error .attributeError

def toFloat : PyValue → Except PyError PyFloat
  | bool b => .ok (.finite b.toNat)
  | int n => if PyFloat.overflowThreshold ≤ |(n : ℚ)| then .error .overflowError else .ok (.finite n)
  | float x => .ok x
  | str s => ((PyFloat.ofString? s).map .ok).getD (.error .valueError)
  | none => .error .typeError
  | list _ => .error .typeError
  | dict _ => .error .typeError

end PyValue

end Rvep.R2Bridge
