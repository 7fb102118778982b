import Rvep.Shared.Zod

/-!
# Laws of schemas

What a schema lets through it lets through unchanged the next time, with the
keys it declares and no others.
-/

namespace Rvep.Zod

-- The equations of the parser, made here once; the proofs below would else all
-- wait for them together.
section
attribute [local simp] Schema.parse Schema.parseTuple Schema.parseShape Schema.parseUnion
  Schema.parseSelected Schema.types Schema.unionTypes
end

-- ---------------------------------------------------------------------------
-- What is let through unchanged
-- ---------------------------------------------------------------------------

section
variable {v m : Json}

theorem parseString_eq_some {checks : List StringCheck} (h : parseString checks v = some m) :
    m = v ∧ v.typeName = "string" := by
  unfold parseString at h
  split at h
  next =>
    split at h
    next => exact ⟨(Option.some.inj h).symm, rfl⟩
    next => cases h
  next => cases h

theorem parseNumber_eq_some {checks : List NumberCheck} (h : parseNumber checks v = some m) :
    m = v ∧ v.typeName = "number" := by
  unfold parseNumber at h
  split at h
  next =>
    split at h
    next => exact ⟨(Option.some.inj h).symm, rfl⟩
    next => cases h
  next => cases h

theorem parseBoolean_eq_some (h : parseBoolean v = some m) : m = v ∧ v.typeName = "boolean" := by
  unfold parseBoolean at h
  split at h
  next => exact ⟨(Option.some.inj h).symm, rfl⟩
  next => cases h

theorem parseEnum_eq_some {values : List String} (h : parseEnum values v = some m) :
    m = v ∧ v.typeName = "string" := by
  unfold parseEnum at h
  split at h
  next =>
    split at h
    next => exact ⟨(Option.some.inj h).symm, rfl⟩
    next => cases h
  next => cases h

theorem parseConstant_eq_some {value : Json} (h : parseConstant value v = some m) :
    m = v ∧ v = value := by
  unfold parseConstant at h
  split at h
  next heq => exact ⟨(Option.some.inj h).symm, heq⟩
  next => cases h

@[simp] theorem items?_eq_some {items : List Json} : items? v = some items ↔ v = .arr items := by
  cases v <;> simp [items?]

@[simp] theorem fields?_eq_some {fields : List (String × Json)} :
    fields? v = some fields ↔ v = .obj fields := by
  cases v <;> simp [fields?]

theorem mem_typeNames (v : Json) : v.typeName ∈ Schema.unknown.types := by
  cases v <;> simp [Json.typeName, Schema.types]

/-- The schemas without parts. -/
def Schema.isLeaf : Schema → Bool
  | .string _ | .number _ | .boolean | .null | .unknown | .literal _ | .enum _ => true
  | _ => false

/-- A schema without parts passes a value as it is or not at all. -/
theorem parse_leaf {s : Schema} (h : s.parse v = some m) (hs : s.isLeaf = true) :
    m = v ∧ v.typeName ∈ s.types := by
  cases s with
  | string checks =>
    rw [Schema.parse] at h
    obtain ⟨rfl, htype⟩ := parseString_eq_some h
    exact ⟨rfl, by simp [htype, Schema.types]⟩
  | number checks =>
    rw [Schema.parse] at h
    obtain ⟨rfl, htype⟩ := parseNumber_eq_some h
    exact ⟨rfl, by simp [htype, Schema.types]⟩
  | boolean =>
    rw [Schema.parse] at h
    obtain ⟨rfl, htype⟩ := parseBoolean_eq_some h
    exact ⟨rfl, by simp [htype, Schema.types]⟩
  | null =>
    rw [Schema.parse] at h
    obtain ⟨rfl, rfl⟩ := parseConstant_eq_some h
    exact ⟨rfl, by simp [Json.typeName, Schema.types]⟩
  | unknown =>
    rw [Schema.parse] at h
    obtain rfl := Option.some.inj h
    exact ⟨rfl, mem_typeNames v⟩
  | literal value =>
    rw [Schema.parse] at h
    obtain ⟨rfl, rfl⟩ := parseConstant_eq_some h
    exact ⟨rfl, by simp [Schema.types]⟩
  | enum values =>
    rw [Schema.parse] at h
    obtain ⟨rfl, htype⟩ := parseEnum_eq_some h
    exact ⟨rfl, by simp [htype, Schema.types]⟩
  | tuple | array | object | record | union | discriminatedUnion | optional => cases hs

theorem parse_tuple {items : List Schema} (h : (Schema.tuple items).parse v = some m) :
    ∃ vs ms, v = .arr vs ∧ m = .arr ms ∧ Schema.parseTuple items vs = some ms := by
  rw [Schema.parse] at h
  obtain ⟨vs, hv, h⟩ := Option.bind_eq_some_iff.mp h
  obtain ⟨ms, hms, rfl⟩ := Option.map_eq_some_iff.mp h
  exact ⟨vs, ms, items?_eq_some.mp hv, rfl, hms⟩

theorem parse_array {item : Schema} (h : (Schema.array item).parse v = some m) :
    ∃ vs ms, v = .arr vs ∧ m = .arr ms ∧ vs.mapM item.parse = some ms := by
  rw [Schema.parse] at h
  obtain ⟨vs, hv, h⟩ := Option.bind_eq_some_iff.mp h
  obtain ⟨ms, hms, rfl⟩ := Option.map_eq_some_iff.mp h
  exact ⟨vs, ms, items?_eq_some.mp hv, rfl, hms⟩

theorem parse_object {shape : List (String × Schema)} (h : (Schema.object shape).parse v = some m) :
    ∃ fields out, v = .obj fields ∧ m = .obj out ∧ Schema.parseShape shape fields = some out := by
  rw [Schema.parse] at h
  obtain ⟨fields, hv, h⟩ := Option.bind_eq_some_iff.mp h
  obtain ⟨out, hout, rfl⟩ := Option.map_eq_some_iff.mp h
  exact ⟨fields, out, fields?_eq_some.mp hv, rfl, hout⟩

theorem parse_record {value : Schema} (h : (Schema.record value).parse v = some m) :
    ∃ fields out, v = .obj fields ∧ m = .obj (out.filter (·.1 != "__proto__")) ∧
      fields.mapM (fun field => (value.parse field.2).map (field.1, ·)) = some out := by
  rw [Schema.parse] at h
  obtain ⟨fields, hv, h⟩ := Option.bind_eq_some_iff.mp h
  obtain ⟨out, hout, rfl⟩ := Option.map_eq_some_iff.mp h
  exact ⟨fields, out, fields?_eq_some.mp hv, rfl, hout⟩

theorem parse_discriminatedUnion {key : String} {options : List Schema}
    (h : (Schema.discriminatedUnion key options).parse v = some m) :
    ∃ fields value, v = .obj fields ∧ fields.lookup key = some value ∧
      Schema.parseSelected key value options v = some m := by
  rw [Schema.parse] at h
  obtain ⟨fields, hv, h⟩ := Option.bind_eq_some_iff.mp h
  obtain ⟨value, hvalue, h⟩ := Option.bind_eq_some_iff.mp h
  exact ⟨fields, value, fields?_eq_some.mp hv, hvalue, h⟩

theorem parseTuple_nil {vs ms : List Json} (h : Schema.parseTuple [] vs = some ms) :
    vs = [] ∧ ms = [] := by
  cases vs with
  | nil =>
    rw [Schema.parseTuple] at h
    exact ⟨rfl, (Option.some.inj h).symm⟩
  | cons v vs =>
    rw [Schema.parseTuple] at h
    · cases h
    all_goals simp

theorem parseTuple_cons {s : Schema} {items : List Schema} {vs ms : List Json}
    (h : Schema.parseTuple (s :: items) vs = some ms) :
    ∃ v m vs' ms', vs = v :: vs' ∧ ms = m :: ms' ∧ s.parse v = some m ∧
      Schema.parseTuple items vs' = some ms' := by
  cases vs with
  | nil =>
    rw [Schema.parseTuple] at h
    · cases h
    all_goals simp
  | cons v vs =>
    rw [Schema.parseTuple] at h
    obtain ⟨m, hm, h⟩ := Option.bind_eq_some_iff.mp h
    obtain ⟨ms, hms, rfl⟩ := Option.map_eq_some_iff.mp h
    exact ⟨v, m, vs, ms, rfl, rfl, hm, hms⟩

end

section
variable {f : α → Option α} {xs ys : List α}

theorem exists_of_mem_mapM (h : xs.mapM f = some ys) : ∀ y ∈ ys, ∃ x ∈ xs, f x = some y := by
  induction xs generalizing ys with
  | nil =>
    obtain rfl := Option.some.inj h
    simp
  | cons x xs ih =>
    simp only [List.mapM_cons, Option.bind_eq_bind, Option.bind_eq_some_iff] at h
    obtain ⟨y, hy, ys, hys, h⟩ := h
    obtain rfl := Option.some.inj h
    intro z hz
    rcases List.mem_cons.mp hz with rfl | hz
    · exact ⟨x, List.mem_cons_self, hy⟩
    · obtain ⟨x', hmem, hx'⟩ := ih hys z hz
      exact ⟨x', List.mem_cons_of_mem x hmem, hx'⟩

theorem mapM_eq_self (h : ∀ x ∈ xs, f x = some x) : xs.mapM f = some xs := by
  induction xs with
  | nil => rfl
  | cons x xs ih =>
    obtain ⟨hx, hxs⟩ := List.forall_mem_cons.mp h
    simp [hx, ih hxs]

end

section
variable {key : String} {s : Schema} {shape : List (String × Schema)}
  {fields fields' out : List (String × Json)}

theorem lookup_eq_none_of_not_mem (h : key ∉ out.map (·.1)) : out.lookup key = none := by
  rw [List.lookup_eq_none_iff]
  intro field hmem
  refine bne_iff_ne.mpr ?_
  rintro rfl
  exact h (List.mem_map_of_mem hmem)

theorem lookup_cons_of_ne {key' : String} {a : α} {fields : List (String × α)} (h : key ≠ key') :
    ((key', a) :: fields).lookup key = fields.lookup key := by
  rw [List.lookup_cons, beq_false_of_ne h]

/-- A key is absent and may be, or its value passes. -/
theorem parseShape_cons (h : Schema.parseShape ((key, s) :: shape) fields = some out) :
    (fields.lookup key = none ∧ s.takesUndefined = true ∧
      Schema.parseShape shape fields = some out) ∨
    ∃ v m rest, fields.lookup key = some v ∧ s.parse v = some m ∧
      Schema.parseShape shape fields = some rest ∧ out = (key, m) :: rest := by
  rw [Schema.parseShape] at h
  split at h
  next hnone =>
    split at h
    next hundefined => exact .inl ⟨hnone, hundefined, h⟩
    next => cases h
  next v hv =>
    obtain ⟨m, hm, h⟩ := Option.bind_eq_some_iff.mp h
    obtain ⟨rest, hrest, rfl⟩ := Option.map_eq_some_iff.mp h
    exact .inr ⟨v, m, rest, hv, hm, hrest, rfl⟩

theorem keys_parseShape (h : Schema.parseShape shape fields = some out) :
    (out.map (·.1)).Sublist (shape.map (·.1)) := by
  induction shape generalizing out with
  | nil =>
    rw [Schema.parseShape] at h
    obtain rfl := Option.some.inj h
    exact .slnil
  | cons declared shape ih =>
    obtain ⟨key, s⟩ := declared
    rcases parseShape_cons h with ⟨-, -, hrest⟩ | ⟨v, m, rest, -, -, hrest, rfl⟩
    · exact (ih hrest).cons key
    · exact (ih hrest).cons_cons key

/-- Only the values under the declared keys matter. -/
theorem parseShape_congr (h : ∀ key ∈ shape.map (·.1), fields.lookup key = fields'.lookup key) :
    Schema.parseShape shape fields = Schema.parseShape shape fields' := by
  induction shape with
  | nil => rw [Schema.parseShape, Schema.parseShape]
  | cons declared shape ih =>
    obtain ⟨key, s⟩ := declared
    obtain ⟨hkey, hshape⟩ := List.forall_mem_cons.mp h
    rw [Schema.parseShape, Schema.parseShape, hkey, ih hshape]

theorem parseShape_cons_self (hkey : key ∉ shape.map (·.1)) {m : Json} (hm : s.parse m = some m)
    (hout : Schema.parseShape shape out = some out) :
    Schema.parseShape ((key, s) :: shape) ((key, m) :: out) = some ((key, m) :: out) := by
  have hrest : Schema.parseShape shape ((key, m) :: out) = Schema.parseShape shape out := by
    refine parseShape_congr ?_
    intro other hother
    refine lookup_cons_of_ne ?_
    rintro rfl
    exact hkey hother
  rw [Schema.parseShape, List.lookup_cons_self]
  simp only [hm, Option.bind_some, hrest, hout, Option.map_some]

/-- The value under a declared key has passed. -/
theorem lookup_parseShape (hnodup : (shape.map (·.1)).Nodup)
    (h : Schema.parseShape shape fields = some out) (hkey : shape.lookup key = some s) :
    s.parseField (fields.lookup key) = some (out.lookup key) := by
  induction shape generalizing out with
  | nil => cases hkey
  | cons declared shape ih =>
    obtain ⟨declared, s'⟩ := declared
    obtain ⟨hnew, hnodup⟩ := List.nodup_cons.mp hnodup
    by_cases hsame : key = declared
    · subst hsame
      rw [List.lookup_cons_self] at hkey
      obtain rfl := Option.some.inj hkey
      rcases parseShape_cons h with ⟨hnone, hundefined, hrest⟩ | ⟨v, m, rest, hv, hm, -, rfl⟩
      · have hout : key ∉ out.map (·.1) := fun hmem => hnew ((keys_parseShape hrest).subset hmem)
        rw [hnone, lookup_eq_none_of_not_mem hout, Schema.parseField, if_pos hundefined]
      · rw [hv, List.lookup_cons_self, Schema.parseField, hm, Option.map_some]
    · rw [lookup_cons_of_ne hsame] at hkey
      rcases parseShape_cons h with ⟨-, -, hrest⟩ | ⟨v, m, rest, -, -, hrest, rfl⟩
      · exact ih hnodup hrest hkey
      · rw [lookup_cons_of_ne hsame]
        exact ih hnodup hrest hkey

theorem parseField_literal {l : Literal} {v? m? : Option Json}
    (h : (Schema.literal l).parseField v? = some m?) : v? = some l.json ∧ m? = some l.json := by
  cases v? with
  | none =>
    rw [Schema.parseField, Schema.takesUndefined] at h
    · cases h
    all_goals simp
  | some v =>
    rw [Schema.parseField, Schema.parse] at h
    obtain ⟨m, hm, rfl⟩ := Option.map_eq_some_iff.mp h
    obtain ⟨rfl, rfl⟩ := parseConstant_eq_some hm
    exact ⟨rfl, rfl⟩

end

-- ---------------------------------------------------------------------------
-- Types
-- ---------------------------------------------------------------------------

mutual

/-- What passes is of one of the schema's types and keeps its type. -/
theorem typeName_parse : ∀ (s : Schema) {v m : Json}, s.parse v = some m →
    v.typeName ∈ s.types ∧ m.typeName = v.typeName
  | .string _, v, m, h | .number _, v, m, h | .boolean, v, m, h | .null, v, m, h
  | .unknown, v, m, h | .literal _, v, m, h | .enum _, v, m, h => by
    obtain ⟨rfl, htype⟩ := parse_leaf h rfl
    exact ⟨htype, rfl⟩
  | .tuple _, v, m, h => by
    obtain ⟨vs, ms, rfl, rfl, -⟩ := parse_tuple h
    exact ⟨by simp [Json.typeName, Schema.types], rfl⟩
  | .array _, v, m, h => by
    obtain ⟨vs, ms, rfl, rfl, -⟩ := parse_array h
    exact ⟨by simp [Json.typeName, Schema.types], rfl⟩
  | .object _, v, m, h => by
    obtain ⟨fields, out, rfl, rfl, -⟩ := parse_object h
    exact ⟨by simp [Json.typeName, Schema.types], rfl⟩
  | .record _, v, m, h => by
    obtain ⟨fields, out, rfl, rfl, -⟩ := parse_record h
    exact ⟨by simp [Json.typeName, Schema.types], rfl⟩
  | .union options, v, m, h => by
    rw [Schema.parse] at h
    rw [Schema.types]
    exact typeName_parseUnion options h
  | .discriminatedUnion key options, v, m, h => by
    obtain ⟨fields, value, rfl, -, h⟩ := parse_discriminatedUnion h
    exact ⟨by simp [Json.typeName, Schema.types], typeName_parseSelected options h⟩
  | .optional inner, v, m, h => by
    rw [Schema.parse] at h
    rw [Schema.types]
    exact typeName_parse inner h

theorem typeName_parseUnion : ∀ (options : List Schema) {v m : Json},
    Schema.parseUnion options v = some m →
      v.typeName ∈ Schema.unionTypes options ∧ m.typeName = v.typeName
  | [], v, m, h => by
    rw [Schema.parseUnion] at h
    cases h
  | s :: options, v, m, h => by
    rw [Schema.parseUnion, Option.or_eq_some_iff] at h
    rw [Schema.unionTypes, List.mem_append]
    rcases h with h | ⟨-, h⟩
    · obtain ⟨hmem, htype⟩ := typeName_parse s h
      exact ⟨.inl hmem, htype⟩
    · obtain ⟨hmem, htype⟩ := typeName_parseUnion options h
      exact ⟨.inr hmem, htype⟩

theorem typeName_parseSelected : ∀ (options : List Schema) {key : String} {value v m : Json},
    Schema.parseSelected key value options v = some m → m.typeName = v.typeName
  | [], key, value, v, m, h => by
    rw [Schema.parseSelected] at h
    cases h
  | s :: options, key, value, v, m, h => by
    rw [Schema.parseSelected] at h
    split at h
    next => exact (typeName_parse s h).2
    next => exact typeName_parseSelected options h

end

-- ---------------------------------------------------------------------------
-- Stability
-- ---------------------------------------------------------------------------

theorem shape_of_discriminator {key : String} {s : Schema} {value : Json}
    (h : s.discriminator key = some value) :
    ∃ shape l, s = .object shape ∧ shape.lookup key = some (.literal l) ∧ l.json = value := by
  unfold Schema.discriminator at h
  split at h
  next shape =>
    split at h
    next l hl => exact ⟨shape, l, rfl, hl, Option.some.inj h⟩
    next => cases h
  next => cases h

/-- What a discriminator selected has the discriminator again. -/
theorem lookup_parseSelected {key : String} {value v m : Json} (options : List Schema)
    (hwf : Schema.allWellFormed options = true)
    (h : Schema.parseSelected key value options v = some m) :
    ∃ out, m = .obj out ∧ out.lookup key = some value := by
  induction options with
  | nil =>
    rw [Schema.parseSelected] at h
    cases h
  | cons s options ih =>
    rw [Schema.allWellFormed, Bool.and_eq_true] at hwf
    rw [Schema.parseSelected] at h
    split at h
    next hdisc =>
      obtain ⟨shape, l, rfl, hkey, rfl⟩ := shape_of_discriminator hdisc
      rw [Schema.wellFormed, Bool.and_eq_true, decide_eq_true_eq] at hwf
      obtain ⟨fields, out, -, rfl, hout⟩ := parse_object h
      exact ⟨out, rfl, (parseField_literal (lookup_parseShape hwf.1.1 hout hkey)).2⟩
    next => exact ih hwf.2 h

mutual

/-- What a schema has let through it lets through unchanged. -/
theorem parse_parse : ∀ (s : Schema), s.wellFormed = true → ∀ {v m : Json}, s.parse v = some m →
    s.parse m = some m
  | .string _, _, v, m, h | .number _, _, v, m, h | .boolean, _, v, m, h | .null, _, v, m, h
  | .unknown, _, v, m, h | .literal _, _, v, m, h | .enum _, _, v, m, h => by
    obtain ⟨rfl, -⟩ := parse_leaf h rfl
    exact h
  | .tuple items, hwf, v, m, h => by
    rw [Schema.wellFormed] at hwf
    obtain ⟨vs, ms, rfl, rfl, hms⟩ := parse_tuple h
    rw [Schema.parse]
    simp [items?, parseTuple_parseTuple items hwf hms]
  | .array item, hwf, v, m, h => by
    rw [Schema.wellFormed] at hwf
    obtain ⟨vs, ms, rfl, rfl, hms⟩ := parse_array h
    have hself : ∀ m ∈ ms, item.parse m = some m := by
      intro m hm
      obtain ⟨v, -, hv⟩ := exists_of_mem_mapM hms m hm
      exact parse_parse item hwf hv
    rw [Schema.parse]
    simp [items?, mapM_eq_self hself]
  | .object shape, hwf, v, m, h => by
    rw [Schema.wellFormed, Bool.and_eq_true, decide_eq_true_eq] at hwf
    obtain ⟨fields, out, rfl, rfl, hout⟩ := parse_object h
    rw [Schema.parse]
    simp [fields?, parseShape_parseShape shape hwf.1 hwf.2 hout]
  | .record value, hwf, v, m, h => by
    rw [Schema.wellFormed] at hwf
    obtain ⟨fields, out, rfl, rfl, hout⟩ := parse_record h
    have hself : ∀ field ∈ out.filter (·.1 != "__proto__"),
        (value.parse field.2).map (field.1, ·) = some field := by
      intro field hmem
      obtain ⟨field, -, hfield⟩ := exists_of_mem_mapM hout field (List.mem_filter.mp hmem).1
      obtain ⟨m, hm, rfl⟩ := Option.map_eq_some_iff.mp hfield
      rw [parse_parse value hwf hm, Option.map_some]
    rw [Schema.parse]
    simp [fields?, mapM_eq_self hself]
  | .union options, hwf, v, m, h => by
    rw [Schema.wellFormed, Bool.and_eq_true] at hwf
    rw [Schema.parse] at h ⊢
    exact parseUnion_parseUnion options hwf.1 hwf.2 h
  | .discriminatedUnion key options, hwf, v, m, h => by
    rw [Schema.wellFormed] at hwf
    obtain ⟨fields, value, -, -, h⟩ := parse_discriminatedUnion h
    obtain ⟨out, rfl, hout⟩ := lookup_parseSelected options hwf h
    rw [Schema.parse]
    simp [fields?, hout, parseSelected_parseSelected options hwf h]
  | .optional inner, hwf, v, m, h => by
    rw [Schema.wellFormed] at hwf
    rw [Schema.parse] at h ⊢
    exact parse_parse inner hwf h

theorem parseTuple_parseTuple : ∀ (items : List Schema), Schema.allWellFormed items = true →
    ∀ {vs ms : List Json}, Schema.parseTuple items vs = some ms →
      Schema.parseTuple items ms = some ms
  | [], _, vs, ms, h => by
    obtain ⟨rfl, rfl⟩ := parseTuple_nil h
    exact h
  | s :: items, hwf, vs, ms, h => by
    rw [Schema.allWellFormed, Bool.and_eq_true] at hwf
    obtain ⟨v, m, vs, ms, rfl, rfl, hm, hms⟩ := parseTuple_cons h
    rw [Schema.parseTuple, parse_parse s hwf.1 hm, Option.bind_some,
      parseTuple_parseTuple items hwf.2 hms, Option.map_some]

theorem parseShape_parseShape : ∀ (shape : List (String × Schema)), (shape.map (·.1)).Nodup →
    Schema.shapeWellFormed shape = true → ∀ {fields out : List (String × Json)},
      Schema.parseShape shape fields = some out → Schema.parseShape shape out = some out
  | [], _, _, fields, out, h => by
    rw [Schema.parseShape] at h
    obtain rfl := Option.some.inj h
    rw [Schema.parseShape]
  | (key, s) :: shape, hnodup, hwf, fields, out, h => by
    rw [Schema.shapeWellFormed, Bool.and_eq_true] at hwf
    obtain ⟨hnew, hnodup⟩ := List.nodup_cons.mp hnodup
    rcases parseShape_cons h with ⟨-, hundefined, hrest⟩ | ⟨v, m, rest, -, hm, hrest, rfl⟩
    · have habsent : out.lookup key = none :=
        lookup_eq_none_of_not_mem fun hmem => hnew ((keys_parseShape hrest).subset hmem)
      simp only [Schema.parseShape, habsent, hundefined, if_true]
      exact parseShape_parseShape shape hnodup hwf.2 hrest
    · exact parseShape_cons_self hnew (parse_parse s hwf.1 hm)
        (parseShape_parseShape shape hnodup hwf.2 hrest)

theorem parseUnion_parseUnion : ∀ (options : List Schema), Schema.typesDisjoint options = true →
    Schema.allWellFormed options = true → ∀ {v m : Json}, Schema.parseUnion options v = some m →
      Schema.parseUnion options m = some m
  | [], _, _, v, m, h => by
    rw [Schema.parseUnion] at h
    cases h
  | s :: options, hdisjoint, hwf, v, m, h => by
    rw [Schema.typesDisjoint, Bool.and_eq_true, List.all_eq_true] at hdisjoint
    rw [Schema.allWellFormed, Bool.and_eq_true] at hwf
    rw [Schema.parseUnion, Option.or_eq_some_iff] at h ⊢
    rcases h with h | ⟨-, h⟩
    · exact .inl (parse_parse s hwf.1 h)
    -- the output of a later option is not of a type of this one
    · refine .inr ⟨?_, parseUnion_parseUnion options hdisjoint.2 hwf.2 h⟩
      obtain ⟨hmem, htype⟩ := typeName_parseUnion options h
      rw [Option.eq_none_iff_forall_ne_some]
      intro m' hm'
      have hnot := of_decide_eq_true (hdisjoint.1 _ (typeName_parse s hm').1)
      rw [htype] at hnot
      exact hnot hmem

theorem parseSelected_parseSelected : ∀ (options : List Schema),
    Schema.allWellFormed options = true → ∀ {key : String} {value v m : Json},
      Schema.parseSelected key value options v = some m →
        Schema.parseSelected key value options m = some m
  | [], _, key, value, v, m, h => by
    rw [Schema.parseSelected] at h
    cases h
  | s :: options, hwf, key, value, v, m, h => by
    rw [Schema.allWellFormed, Bool.and_eq_true] at hwf
    rw [Schema.parseSelected] at h ⊢
    split at h
    next hdisc => rw [if_pos hdisc, parse_parse s hwf.1 h]
    next hdisc => rw [if_neg hdisc, parseSelected_parseSelected options hwf.2 h]

end

-- ---------------------------------------------------------------------------
-- Keys of the output
-- ---------------------------------------------------------------------------

def Schema.declares (key : String) : Schema → Bool
  | .object shape => decide (key ∈ shape.map (·.1))
  | _ => true

section
variable {key : String} {s : Schema} {v m : Json}

/-- An undeclared key is stripped. -/
theorem lookup_of_not_declares (hkey : s.declares key = false) (h : s.parse v = some m) :
    ∃ out, m = .obj out ∧ out.lookup key = none := by
  cases s with
  | object shape =>
    obtain ⟨fields, out, -, rfl, hout⟩ := parse_object h
    have hnot : key ∉ shape.map (·.1) := of_decide_eq_false hkey
    exact ⟨out, rfl, lookup_eq_none_of_not_mem fun hmem => hnot ((keys_parseShape hout).subset hmem)⟩
  | _ => cases hkey

/-- A key that is declared a literal has it, before and after. -/
theorem lookup_of_literal {shape : List (String × Schema)} {l : Literal}
    (hwf : (Schema.object shape).wellFormed = true) (hkey : shape.lookup key = some (.literal l))
    (h : (Schema.object shape).parse v = some m) :
    ∃ fields out, v = .obj fields ∧ m = .obj out ∧ fields.lookup key = some l.json ∧
      out.lookup key = some l.json := by
  rw [Schema.wellFormed, Bool.and_eq_true, decide_eq_true_eq] at hwf
  obtain ⟨fields, out, rfl, rfl, hout⟩ := parse_object h
  obtain ⟨hin, hout⟩ := parseField_literal (lookup_parseShape hwf.1 hout hkey)
  exact ⟨fields, out, rfl, rfl, hin, hout⟩

theorem exists_of_parseSelected {value : Json} {options : List Schema}
    (h : Schema.parseSelected key value options v = some m) : ∃ s ∈ options, s.parse v = some m := by
  induction options with
  | nil =>
    rw [Schema.parseSelected] at h
    cases h
  | cons s options ih =>
    rw [Schema.parseSelected] at h
    split at h
    next => exact ⟨s, List.mem_cons_self, h⟩
    next =>
      obtain ⟨s', hmem, hs'⟩ := ih h
      exact ⟨s', List.mem_cons_of_mem s hmem, hs'⟩

end

end Rvep.Zod
