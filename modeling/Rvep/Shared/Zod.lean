import Rvep.Shared.ControlCommand

/-!
# Schemas

The schemas that `zod` builds, as far as `packages/shared` uses them, and what
`safeParse` makes of a value.
-/

namespace Rvep.Zod

-- ---------------------------------------------------------------------------
-- Schemas
-- ---------------------------------------------------------------------------

inductive StringCheck
  | min (length : Nat)
  | datetime
  deriving DecidableEq, Repr

inductive NumberCheck
  | int
  | min (bound : ℚ)
  | max (bound : ℚ)
  deriving DecidableEq, Repr

def NumberCheck.nonnegative : NumberCheck := .min 0

inductive Literal
  | str (s : String)
  | num (q : ℚ)
  deriving DecidableEq, Repr

def Literal.json : Literal → Json
  | .str s => .str s
  | .num q => .num q

inductive Schema
  | string (checks : List StringCheck)
  | number (checks : List NumberCheck)
  | boolean
  | null
  | unknown
  | literal (value : Literal)
  | enum (values : List String)
  | tuple (items : List Schema)
  | array (item : Schema)
  | object (shape : List (String × Schema))
  | record (value : Schema)
  | union (options : List Schema)
  | discriminatedUnion (key : String) (options : List Schema)
  | optional (inner : Schema)

-- ---------------------------------------------------------------------------
-- Parsing
-- ---------------------------------------------------------------------------

def StringCheck.passes (s : String) : StringCheck → Bool
  | min length => decide (length ≤ utf16Length s)
  | datetime => isDatetime s

def NumberCheck.passes (q : ℚ) : NumberCheck → Bool
  | int => decide (q.den = 1)
  | min bound => decide (bound ≤ q)
  | max bound => decide (q ≤ bound)

def parseString (checks : List StringCheck) : Json → Option Json
  | .str s => if checks.all (·.passes s) then some (.str s) else none
  | _ => none

def parseNumber (checks : List NumberCheck) : Json → Option Json
  | .num q => if checks.all (·.passes q) then some (.num q) else none
  | _ => none

def parseBoolean : Json → Option Json
  | .bool b => some (.bool b)
  | _ => none

def parseEnum (values : List String) : Json → Option Json
  | .str s => if s ∈ values then some (.str s) else none
  | _ => none

/-- A value that has to be the one given. -/
def parseConstant (value v : Json) : Option Json := if v = value then some v else none

def items? : Json → Option (List Json)
  | .arr items => some items
  | _ => none

def fields? : Json → Option (List (String × Json))
  | .obj fields => some fields
  | _ => none

mutual

/-- Whether `undefined` passes, as it does for a key that is absent. -/
def Schema.takesUndefined : Schema → Bool
  | .optional _ | .unknown => true
  | .union options => Schema.anyTakesUndefined options
  | _ => false

def Schema.anyTakesUndefined : List Schema → Bool
  | [] => false
  | s :: options => s.takesUndefined || Schema.anyTakesUndefined options

end

/-- The value of the discriminator that selects a schema. -/
def Schema.discriminator (key : String) : Schema → Option Json
  | .object shape =>
    match shape.lookup key with
    | some (.literal value) => some value.json
    | _ => none
  | _ => none

mutual

/-- `safeParse`: the data on success. -/
def Schema.parse : Schema → Json → Option Json
  | .string checks, v => parseString checks v
  | .number checks, v => parseNumber checks v
  | .boolean, v => parseBoolean v
  | .null, v => parseConstant .null v
  | .unknown, v => some v
  | .literal value, v => parseConstant value.json v
  | .enum values, v => parseEnum values v
  | .tuple items, v => (items? v).bind fun vs => (Schema.parseTuple items vs).map .arr
  | .array item, v => (items? v).bind fun vs => (vs.mapM item.parse).map .arr
  | .object shape, v => (fields? v).bind fun fields => (Schema.parseShape shape fields).map .obj
  | .record value, v =>
    (fields? v).bind fun fields =>
      -- a key that would set the prototype is checked and then left out
      (fields.mapM fun field => (value.parse field.2).map (field.1, ·)).map fun fields =>
        .obj (fields.filter (·.1 != "__proto__"))
  | .union options, v => Schema.parseUnion options v
  | .discriminatedUnion key options, v =>
    (fields? v).bind fun fields => (fields.lookup key).bind fun value =>
      Schema.parseSelected key value options v
  | .optional inner, v => inner.parse v

def Schema.parseTuple : List Schema → List Json → Option (List Json)
  | [], [] => some []
  | s :: items, v :: vs => (s.parse v).bind fun v => (Schema.parseTuple items vs).map (v :: ·)
  | _, _ => none

/-- The declared keys, in the order of the shape. -/
def Schema.parseShape : List (String × Schema) → List (String × Json) → Option (List (String × Json))
  | [], _ => some []
  | (key, s) :: shape, fields =>
    match fields.lookup key with
    | none => if s.takesUndefined then Schema.parseShape shape fields else none
    | some v => (s.parse v).bind fun v => (Schema.parseShape shape fields).map ((key, v) :: ·)

def Schema.parseUnion : List Schema → Json → Option Json
  | [], _ => none
  | s :: options, v => (s.parse v).or (Schema.parseUnion options v)

def Schema.parseSelected (key : String) (value : Json) : List Schema → Json → Option Json
  | [], _ => none
  | s :: options, v =>
    if s.discriminator key = some value then s.parse v else Schema.parseSelected key value options v

end

/-- What becomes of the value under a declared key, which may be absent. -/
def Schema.parseField (s : Schema) : Option Json → Option (Option Json)
  | none => if s.takesUndefined then some none else none
  | some v => (s.parse v).map some

-- ---------------------------------------------------------------------------
-- Well-formed schemas
-- ---------------------------------------------------------------------------

mutual

/-- The JSON types of what a schema lets through. -/
def Schema.types : Schema → List String
  | .string _ | .enum _ => ["string"]
  | .number _ => ["number"]
  | .boolean => ["boolean"]
  | .null => ["null"]
  | .unknown => ["null", "boolean", "number", "string", "array", "object"]
  | .literal value => [value.json.typeName]
  | .tuple _ | .array _ => ["array"]
  | .object _ | .record _ | .discriminatedUnion .. => ["object"]
  | .union options => Schema.unionTypes options
  | .optional inner => inner.types

def Schema.unionTypes : List Schema → List String
  | [] => []
  | s :: options => s.types ++ Schema.unionTypes options

end

/-- A value is of the type of one option at most. -/
def Schema.typesDisjoint : List Schema → Bool
  | [] => true
  | s :: options =>
    s.types.all (fun type => decide (type ∉ Schema.unionTypes options)) &&
      Schema.typesDisjoint options

mutual

/-- The keys of a shape are distinct, and the options of a union differ in type. -/
def Schema.wellFormed : Schema → Bool
  | .tuple items => Schema.allWellFormed items
  | .array item => item.wellFormed
  | .object shape => decide (shape.map (·.1)).Nodup && Schema.shapeWellFormed shape
  | .record value => value.wellFormed
  | .union options => Schema.typesDisjoint options && Schema.allWellFormed options
  | .discriminatedUnion _ options => Schema.allWellFormed options
  | .optional inner => inner.wellFormed
  | _ => true

def Schema.allWellFormed : List Schema → Bool
  | [] => true
  | s :: schemas => s.wellFormed && Schema.allWellFormed schemas

def Schema.shapeWellFormed : List (String × Schema) → Bool
  | [] => true
  | (_, s) :: shape => s.wellFormed && Schema.shapeWellFormed shape

end

end Rvep.Zod
