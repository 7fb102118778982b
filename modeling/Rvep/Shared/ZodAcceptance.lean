import Rvep.Shared.ZodLaws

/-!
# Acceptance

Which values a schema accepts, constructor by constructor, and what of a value
is in the output.
-/

namespace Rvep.Zod

-- ---------------------------------------------------------------------------
-- Acceptance
-- ---------------------------------------------------------------------------

def Schema.accepts (s : Schema) (v : Json) : Bool := (s.parse v).isSome

/-- Whether a schema accepts the value under a key, which may be absent. -/
def Schema.acceptsField (s : Schema) : Option Json → Bool
  | none => s.takesUndefined
  | some v => s.accepts v

section
variable {s : Schema} {shape : List (String × Schema)} {fields : List (String × Json)}

theorem isSome_parseShape : (Schema.parseShape shape fields).isSome =
    shape.all fun declared => declared.2.acceptsField (fields.lookup declared.1) := by
  induction shape with
  | nil => rw [Schema.parseShape]; rfl
  | cons declared shape ih =>
    obtain ⟨key, s⟩ := declared
    rw [Schema.parseShape, List.all_cons, ← ih]
    cases fields.lookup key with
    | none => cases hs : s.takesUndefined <;> simp [Schema.acceptsField, hs]
    | some v => cases hv : s.parse v <;> simp [Schema.acceptsField, Schema.accepts, hv]

theorem accepts_object : (Schema.object shape).accepts (.obj fields) =
    shape.all fun declared => declared.2.acceptsField (fields.lookup declared.1) := by
  rw [← isSome_parseShape, Schema.accepts, Schema.parse]
  simp [fields?]

@[simp] theorem acceptsField_some (v : Json) : s.acceptsField (some v) = s.accepts v := rfl

@[simp] theorem acceptsField_none : s.acceptsField none = s.takesUndefined := rfl

@[simp] theorem takesUndefined_optional : (Schema.optional s).takesUndefined = true := by
  rw [Schema.takesUndefined]

@[simp] theorem accepts_optional (v : Json) : (Schema.optional s).accepts v = s.accepts v := by
  rw [Schema.accepts, Schema.parse, Schema.accepts]

@[simp] theorem accepts_unknown (v : Json) : Schema.unknown.accepts v = true := by
  rw [Schema.accepts, Schema.parse, Option.isSome_some]

@[simp] theorem accepts_literal (l : Literal) (v : Json) :
    (Schema.literal l).accepts v = decide (v = l.json) := by
  rw [Schema.accepts, Schema.parse, parseConstant, Bool.eq_iff_iff, Option.isSome_ite, decide_eq_true_iff]

@[simp] theorem accepts_string (checks : List StringCheck) (text : String) :
    (Schema.string checks).accepts (.str text) = checks.all (·.passes text) := by
  rw [Schema.accepts, Schema.parse, parseString, Bool.eq_iff_iff, Option.isSome_ite]

@[simp] theorem accepts_number (checks : List NumberCheck) (q : ℚ) :
    (Schema.number checks).accepts (.num q) = checks.all (·.passes q) := by
  rw [Schema.accepts, Schema.parse, parseNumber, Bool.eq_iff_iff, Option.isSome_ite]

@[simp] theorem accepts_enum (values : List String) (text : String) :
    (Schema.enum values).accepts (.str text) = decide (text ∈ values) := by
  rw [Schema.accepts, Schema.parse, parseEnum, Bool.eq_iff_iff, Option.isSome_ite, decide_eq_true_iff]

@[simp] theorem accepts_boolean (b : Bool) : Schema.boolean.accepts (.bool b) = true := by
  rw [Schema.accepts, Schema.parse]
  rfl

theorem accepts_union_cons (options : List Schema) (v : Json) :
    (Schema.union (s :: options)).accepts v = (s.accepts v || (Schema.union options).accepts v) := by
  simp only [Schema.accepts, Schema.parse, Schema.parseUnion]
  cases s.parse v <;> rfl

theorem accepts_record : (Schema.record s).accepts (.obj fields) =
    fields.all fun field => s.accepts field.2 := by
  simp only [Schema.accepts, Schema.parse, fields?, Option.bind_some, Option.isSome_map]
  induction fields with
  | nil => rfl
  | cons field fields ih =>
    rw [List.all_cons, ← ih, List.mapM_cons]
    cases s.parse field.2 with
    | none => rfl
    | some m =>
      cases fields.mapM fun field => (s.parse field.2).map (field.1, ·) <;> rfl

/-- The option whose discriminator is the value's decides. -/
theorem accepts_discriminatedUnion {key : String} {value : Json} {options : List Schema}
    (hvalue : fields.lookup key = some value)
    (hfind : options.find? (fun s => s.discriminator key = some value) = some s) :
    (Schema.discriminatedUnion key options).accepts (.obj fields) = s.accepts (.obj fields) := by
  have hselected : Schema.parseSelected key value options (.obj fields) = s.parse (.obj fields) := by
    induction options with
    | nil => cases hfind
    | cons s' options ih =>
      rw [Schema.parseSelected]
      rw [List.find?_cons] at hfind
      split at hfind
      next hdisc =>
        obtain rfl := Option.some.inj hfind
        rw [if_pos (of_decide_eq_true hdisc)]
      next hdisc => rw [if_neg (of_decide_eq_false hdisc), ih hfind]
  simp [Schema.accepts, Schema.parse, fields?, hvalue, hselected]

theorem le_foldl_units (units : Char → Nat) (cs : List Char) (n : Nat) :
    n ≤ cs.foldl (fun n c => n + units c) n := by
  induction cs generalizing n with
  | nil => exact Nat.le_refl n
  | cons c cs ih => exact Nat.le_trans (Nat.le_add_right n (units c)) (ih (n + units c))

theorem one_le_utf16Length (text : String) : 1 ≤ utf16Length text ↔ text ≠ "" := by
  rw [ne_eq, ← String.toList_eq_nil_iff, utf16Length]
  cases text.toList with
  | nil => simp
  | cons c cs =>
    have hunits : 1 ≤ 0 + if c.toNat < 0x10000 then 1 else 2 := by split <;> decide
    refine ⟨fun _ => List.cons_ne_nil c cs, fun _ => ?_⟩
    exact Nat.le_trans hunits (le_foldl_units (fun c => if c.toNat < 0x10000 then 1 else 2) cs _)

end

-- ---------------------------------------------------------------------------
-- What arrives
-- ---------------------------------------------------------------------------

/-- Every field of the first value has its value in the second. -/
inductive Arrives : Json → Json → Prop
  | same (v : Json) : Arrives v v
  | obj {fields out : List (String × Json)} (arrived : String → Json) :
    (∀ key v, fields.lookup key = some v → out.lookup key = some (arrived key)) →
    (∀ key v, fields.lookup key = some v → Arrives v (arrived key)) →
    Arrives (.obj fields) (.obj out)

mutual

/-- Schemas that change nothing, as they strip no keys. -/
def Schema.keeps : Schema → Bool
  | .string _ | .number _ | .boolean | .null | .unknown | .literal _ | .enum _ => true
  | .tuple items => Schema.allKeep items
  | .array item => item.keeps
  | .union options => Schema.allKeep options
  | .optional inner => inner.keeps
  | .object _ | .record _ | .discriminatedUnion .. => false

def Schema.allKeep : List Schema → Bool
  | [] => true
  | s :: schemas => s.keeps && Schema.allKeep schemas

end

mutual

/-- Every key of the value's objects is declared. -/
def Schema.knows : Schema → Json → Bool
  | .object shape, v =>
    (fields? v).all fun fields =>
      fields.all (fun field => decide (field.1 ∈ shape.map (·.1))) && Schema.shapeKnows shape fields
  | .optional inner, v => inner.knows v
  | s, _ => s.keeps

def Schema.shapeKnows : List (String × Schema) → List (String × Json) → Bool
  | [], _ => true
  | (key, s) :: shape, fields => (fields.lookup key).all s.knows && Schema.shapeKnows shape fields

end

theorem knows_of_keeps {s : Schema} (h : s.keeps = true) (v : Json) : s.knows v = true := by
  cases s with
  | object _ =>
    rw [Schema.keeps] at h
    cases h
  | optional inner =>
    rw [Schema.keeps] at h
    rw [Schema.knows]
    exact knows_of_keeps h v
  | _ =>
    rw [Schema.knows]
    · exact h
    all_goals simp

@[simp] theorem knows_string (checks : List StringCheck) (v : Json) :
    (Schema.string checks).knows v = true := knows_of_keeps rfl v

@[simp] theorem knows_number (checks : List NumberCheck) (v : Json) :
    (Schema.number checks).knows v = true := knows_of_keeps rfl v

@[simp] theorem knows_literal (l : Literal) (v : Json) : (Schema.literal l).knows v = true :=
  knows_of_keeps rfl v

@[simp] theorem knows_enum (values : List String) (v : Json) : (Schema.enum values).knows v = true :=
  knows_of_keeps rfl v

@[simp] theorem knows_optional (s : Schema) (v : Json) : (Schema.optional s).knows v = s.knows v := by
  rw [Schema.knows]

theorem knows_object (shape : List (String × Schema)) (fields : List (String × Json)) :
    (Schema.object shape).knows (.obj fields) =
      (fields.all (fun field => decide (field.1 ∈ shape.map (·.1))) &&
        shape.all fun declared => (fields.lookup declared.1).all declared.2.knows) := by
  rw [Schema.knows, fields?, Option.all_some]
  congr 1
  induction shape with
  | nil =>
    rw [Schema.shapeKnows]
    rfl
  | cons declared shape ih =>
    obtain ⟨key, s⟩ := declared
    rw [Schema.shapeKnows, List.all_cons, ih]

theorem mapM_keeps {f : Json → Option Json} (h : ∀ v m, f v = some m → m = v) {vs ms : List Json}
    (hms : vs.mapM f = some ms) : ms = vs := by
  induction vs generalizing ms with
  | nil => exact (Option.some.inj hms).symm
  | cons v vs ih =>
    simp only [List.mapM_cons, Option.bind_eq_bind, Option.bind_eq_some_iff] at hms
    obtain ⟨m, hm, ms, hms, heq⟩ := hms
    obtain rfl := Option.some.inj heq
    rw [h v m hm, ih hms]

mutual

theorem eq_of_keeps : ∀ (s : Schema), s.keeps = true → ∀ v m : Json, s.parse v = some m → m = v
  | .string _, _, v, m, h | .number _, _, v, m, h | .boolean, _, v, m, h | .null, _, v, m, h
  | .unknown, _, v, m, h | .literal _, _, v, m, h | .enum _, _, v, m, h => (parse_leaf h rfl).1
  | .tuple items, hkeeps, v, m, h => by
    rw [Schema.keeps] at hkeeps
    obtain ⟨vs, ms, rfl, rfl, hms⟩ := parse_tuple h
    rw [eq_of_allKeep_tuple items hkeeps vs ms hms]
  | .array item, hkeeps, v, m, h => by
    rw [Schema.keeps] at hkeeps
    obtain ⟨vs, ms, rfl, rfl, hms⟩ := parse_array h
    rw [mapM_keeps (eq_of_keeps item hkeeps) hms]
  | .union options, hkeeps, v, m, h => by
    rw [Schema.keeps] at hkeeps
    rw [Schema.parse] at h
    exact eq_of_allKeep_union options hkeeps v m h
  | .optional inner, hkeeps, v, m, h => by
    rw [Schema.keeps] at hkeeps
    rw [Schema.parse] at h
    exact eq_of_keeps inner hkeeps v m h
  | .object _, hkeeps, _, _, _ | .record _, hkeeps, _, _, _
  | .discriminatedUnion .., hkeeps, _, _, _ => by
    rw [Schema.keeps] at hkeeps
    cases hkeeps

theorem eq_of_allKeep_tuple : ∀ (items : List Schema), Schema.allKeep items = true →
    ∀ vs ms : List Json, Schema.parseTuple items vs = some ms → ms = vs
  | [], _, vs, ms, h => by
    obtain ⟨rfl, rfl⟩ := parseTuple_nil h
    rfl
  | s :: items, hkeeps, vs, ms, h => by
    rw [Schema.allKeep, Bool.and_eq_true] at hkeeps
    obtain ⟨v, m, vs, ms, rfl, rfl, hm, hms⟩ := parseTuple_cons h
    rw [eq_of_keeps s hkeeps.1 v m hm, eq_of_allKeep_tuple items hkeeps.2 vs ms hms]

theorem eq_of_allKeep_union : ∀ (options : List Schema), Schema.allKeep options = true →
    ∀ v m : Json, Schema.parseUnion options v = some m → m = v
  | [], _, v, m, h => by
    rw [Schema.parseUnion] at h
    cases h
  | s :: options, hkeeps, v, m, h => by
    rw [Schema.allKeep, Bool.and_eq_true] at hkeeps
    rw [Schema.parseUnion, Option.or_eq_some_iff] at h
    rcases h with h | ⟨-, h⟩
    · exact eq_of_keeps s hkeeps.1 v m h
    · exact eq_of_allKeep_union options hkeeps.2 v m h

end

theorem arrives_obj {fields out : List (String × Json)}
    (h : ∀ key v, fields.lookup key = some v → ∃ m, out.lookup key = some m ∧ Arrives v m) :
    Arrives (.obj fields) (.obj out) := by
  refine .obj (fun key => (out.lookup key).getD .null) ?_ ?_
  · intro key v hv
    obtain ⟨m, hm, -⟩ := h key v hv
    rw [hm, Option.getD_some]
  · intro key v hv
    obtain ⟨m, hm, harrives⟩ := h key v hv
    rw [hm, Option.getD_some]
    exact harrives

theorem mem_keys_of_lookup {key : String} {v : Json} {fields : List (String × Json)}
    (h : fields.lookup key = some v) : ∃ field ∈ fields, field.1 = key := by
  obtain ⟨before, after, rfl, -⟩ := List.lookup_eq_some_iff.mp h
  exact ⟨(key, v), by simp, rfl⟩

mutual

/-- What a schema lets through of a value that it knows is all of the value. -/
theorem arrives_of_parse : ∀ (s : Schema), s.wellFormed = true → ∀ v m : Json, s.knows v = true →
    s.parse v = some m → Arrives v m
  | .object shape, hwf, v, m, hknows, h => by
    rw [Schema.wellFormed, Bool.and_eq_true, decide_eq_true_eq] at hwf
    obtain ⟨fields, out, rfl, rfl, hout⟩ := parse_object h
    rw [Schema.knows, fields?, Option.all_some, Bool.and_eq_true, List.all_eq_true] at hknows
    refine arrives_obj fun key v hv => ?_
    obtain ⟨field, hmem, rfl⟩ := mem_keys_of_lookup hv
    have hkey := of_decide_eq_true (hknows.1 field hmem)
    exact arrives_of_parseShape shape hwf.1 hwf.2 fields out hknows.2 hout field.1 hkey v hv
  | .optional inner, hwf, v, m, hknows, h => by
    rw [Schema.wellFormed] at hwf
    rw [Schema.knows] at hknows
    rw [Schema.parse] at h
    exact arrives_of_parse inner hwf v m hknows h
  | .string _, _, v, m, hknows, h | .number _, _, v, m, hknows, h | .boolean, _, v, m, hknows, h
  | .null, _, v, m, hknows, h | .unknown, _, v, m, hknows, h | .literal _, _, v, m, hknows, h
  | .enum _, _, v, m, hknows, h | .tuple _, _, v, m, hknows, h | .array _, _, v, m, hknows, h
  | .union _, _, v, m, hknows, h => by
    rw [Schema.knows] at hknows
    · rw [eq_of_keeps _ hknows v m h]
      exact .same v
    all_goals simp
  | .record _, _, v, m, hknows, _ | .discriminatedUnion .., _, v, m, hknows, _ => by
    rw [Schema.knows] at hknows
    · cases hknows
    all_goals simp

theorem arrives_of_parseShape : ∀ (shape : List (String × Schema)), (shape.map (·.1)).Nodup →
    Schema.shapeWellFormed shape = true → ∀ fields out : List (String × Json),
      Schema.shapeKnows shape fields = true → Schema.parseShape shape fields = some out →
        ∀ key ∈ shape.map (·.1), ∀ v, fields.lookup key = some v →
          ∃ m, out.lookup key = some m ∧ Arrives v m
  | [], _, _, _, _, _, _, key, hkey, _, _ => by cases hkey
  | (declared, s) :: shape, hnodup, hwf, fields, out, hknows, h, key, hkey, v, hv => by
    rw [Schema.shapeWellFormed, Bool.and_eq_true] at hwf
    rw [Schema.shapeKnows, Bool.and_eq_true] at hknows
    obtain ⟨hnew, hnodup⟩ := List.nodup_cons.mp hnodup
    have hrest {rest : List (String × Json)} (hrest : Schema.parseShape shape fields = some rest)
        (hkey : key ∈ shape.map (·.1)) : ∃ m, rest.lookup key = some m ∧ Arrives v m :=
      arrives_of_parseShape shape hnodup hwf.2 fields rest hknows.2 hrest key hkey v hv
    rcases parseShape_cons h with ⟨hnone, -, hout⟩ | ⟨v', m, rest, hv', hm, hout, rfl⟩
    · rcases List.mem_cons.mp hkey with rfl | hkey
      · rw [hnone] at hv
        cases hv
      · exact hrest hout hkey
    · by_cases hsame : key = declared
      · subst hsame
        obtain rfl := Option.some.inj (hv'.symm.trans hv)
        rw [hv', Option.all_some] at hknows
        exact ⟨m, List.lookup_cons_self, arrives_of_parse s hwf.1 v' m hknows.1 hm⟩
      · rw [lookup_cons_of_ne hsame]
        rcases List.mem_cons.mp hkey with heq | hkey
        · exact absurd heq hsame
        · exact hrest hout hkey

end

end Rvep.Zod
