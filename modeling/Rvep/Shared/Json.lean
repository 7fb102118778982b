import Mathlib.Algebra.Order.Ring.Rat

/-!
# JSON values

What `JSON.parse` and `json.loads` return, with the keys of an object distinct.
-/

namespace Rvep

inductive Json where
  | null
  | bool (b : Bool)
  | num (q : ℚ)
  | str (s : String)
  | arr (items : List Json)
  | obj (fields : List (String × Json))
  deriving Repr

def Json.typeName : Json → String
  | null => "null"
  | bool _ => "boolean"
  | num _ => "number"
  | str _ => "string"
  | arr _ => "array"
  | obj _ => "object"

/-- The length of a JavaScript string, in UTF-16 units. -/
def utf16Length (s : String) : Nat :=
  s.toList.foldl (fun n c => n + if c.toNat < 0x10000 then 1 else 2) 0

-- ---------------------------------------------------------------------------
-- Equality
-- ---------------------------------------------------------------------------

mutual

def Json.beq : Json → Json → Bool
  | null, null => true
  | bool b, bool b' => b == b'
  | num q, num q' => q == q'
  | str s, str s' => s == s'
  | arr items, arr items' => beqItems items items'
  | obj fields, obj fields' => beqFields fields fields'
  | _, _ => false

def Json.beqItems : List Json → List Json → Bool
  | [], [] => true
  | v :: items, v' :: items' => v.beq v' && beqItems items items'
  | _, _ => false

def Json.beqFields : List (String × Json) → List (String × Json) → Bool
  | [], [] => true
  | (key, v) :: fields, (key', v') :: fields' => key == key' && v.beq v' && beqFields fields fields'
  | _, _ => false

end

mutual

theorem Json.beq_iff : ∀ v v' : Json, v.beq v' = true ↔ v = v'
  | null, v' | bool _, v' | num _, v' | str _, v' => by cases v' <;> simp [beq]
  | arr items, v' => by
    cases v' with
    | arr items' => simpa [beq] using beqItems_iff items items'
    | _ => simp [beq]
  | obj fields, v' => by
    cases v' with
    | obj fields' => simpa [beq] using beqFields_iff fields fields'
    | _ => simp [beq]

theorem Json.beqItems_iff : ∀ items items' : List Json, beqItems items items' = true ↔ items = items'
  | [], items' => by cases items' <;> simp [beqItems]
  | v :: items, items' => by
    cases items' with
    | nil => simp [beqItems]
    | cons v' items' => simp [beqItems, beq_iff v v', beqItems_iff items items']

theorem Json.beqFields_iff : ∀ fields fields' : List (String × Json),
    beqFields fields fields' = true ↔ fields = fields'
  | [], fields' => by cases fields' <;> simp [beqFields]
  | (key, v) :: fields, fields' => by
    cases fields' with
    | nil => simp [beqFields]
    | cons field fields' => simp [beqFields, beq_iff v, beqFields_iff fields fields', Prod.ext_iff]

end

instance : DecidableEq Json := fun v v' => decidable_of_iff _ (Json.beq_iff v v')

end Rvep
