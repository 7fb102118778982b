import Mathlib.Data.List.DropRight

/-!
# Header lists

Headers as the Fetch standard keeps them: names compared without regard to
case, any number of values to a name. `get` joins the values of a name. `set`
trims a value, refuses one that no header can carry, and otherwise leaves it as
the only value of its name.
-/

abbrev HeaderList := List (String × String)

namespace HeaderList

def sameName (name other : String) : Bool :=
  name.toList.map Char.toLower == other.toList.map Char.toLower

def values (headers : HeaderList) (name : String) : List String :=
  (headers.filter fun x => sameName x.1 name).map (·.2)

def get (headers : HeaderList) (name : String) : Option String :=
  match headers.values name with
  | [] => none
  | v :: rest => some (rest.foldl (fun joined v => joined ++ ", " ++ v) v)

def isSpace (c : Char) : Bool := c == ' ' || c == '\t' || c == '\n' || c == '\r'

def normalize (value : String) : String :=
  String.ofList ((value.toList.dropWhile isSpace).rdropWhile isSpace)

/-- One byte a character, and no NUL, LF or CR. -/
def carries (value : String) : Bool :=
  value.toList.all fun c => decide (c.toNat < 256) && c.toNat != 0 && c != '\n' && c != '\r'

/-- `value` in the place of the first value of `name`, and no other. -/
def put (name value : String) : HeaderList → HeaderList
  | [] => [(name, value)]
  | x :: rest =>
    if sameName x.1 name then (x.1, value) :: rest.filter fun y => !sameName y.1 name
    else x :: put name value rest

/-- `none` if setting throws. -/
def set? (headers : HeaderList) (name value : String) : Option HeaderList :=
  if carries (normalize value) then some (headers.put name (normalize value)) else none

def without (headers : HeaderList) (names : List String) : HeaderList :=
  headers.filter fun x => !names.any fun name => sameName x.1 name

-- ---------------------------------------------------------------------------
-- Names
-- ---------------------------------------------------------------------------

section
variable {name other value : String} {headers headers' : HeaderList}

@[simp] theorem sameName_self : sameName name name = true := beq_self_eq_true _

theorem sameName_trans {third : String} (h : sameName name other = true)
    (h' : sameName name third = true) : sameName other third = true := by
  simp only [sameName, beq_iff_eq] at h h' ⊢
  rw [← h, h']

theorem get_of_values {v : String} (h : headers.values name = [v]) : headers.get name = some v := by
  rw [get, h]
  rfl

theorem get_congr (h : headers'.values name = headers.values name) :
    headers'.get name = headers.get name := by
  rw [get, get, h]

-- ---------------------------------------------------------------------------
-- What setting a header leaves
-- ---------------------------------------------------------------------------

theorem values_put : (headers.put name value).values name = [value] := by
  induction headers with
  | nil => simp [put, values]
  | cons x rest ih =>
    unfold put
    split
    next hsame => simp [values, hsame]
    next hdiff => simpa [values, hdiff] using ih

theorem values_put_of_ne (h : sameName name other = false) :
    (headers.put name value).values other = headers.values other := by
  induction headers with
  | nil => simp [put, values, h]
  | cons x rest ih =>
    unfold put
    split
    next hsame =>
      have hx : sameName x.1 other = false := by
        by_contra hx
        exact Bool.false_ne_true (h.symm.trans (sameName_trans hsame (by simpa using hx)))
      have hrest (y : String × String) (hy : sameName y.1 other = true) :
          sameName y.1 name = false := by
        by_contra hy'
        exact Bool.false_ne_true (h.symm.trans (sameName_trans (by simpa using hy') hy))
      simp only [values, List.filter_cons, hx, Bool.false_eq_true, if_false, List.filter_filter]
      refine congrArg (List.map _) (List.filter_congr fun y _ => ?_)
      cases hy : sameName y.1 other with
      | false => rfl
      | true => rw [hrest y hy]; rfl
    next hdiff =>
      simp only [values, List.filter_cons] at ih ⊢
      split
      · rw [List.map_cons, List.map_cons, ih]
      · exact ih

theorem get_set (h : headers.set? name value = some headers') :
    headers'.get name = some (normalize value) := by
  unfold set? at h
  split at h
  · obtain rfl := Option.some.inj h
    exact get_of_values values_put
  · exact absurd h.symm (Option.some_ne_none headers')

theorem get_set_of_ne (h : headers.set? name value = some headers')
    (hne : sameName name other = false) : headers'.get other = headers.get other := by
  unfold set? at h
  split at h
  · obtain rfl := Option.some.inj h
    exact get_congr (values_put_of_ne hne)
  · exact absurd h.symm (Option.some_ne_none headers')

/-- Whether a header can be set depends on its value alone. -/
theorem set?_eq_none : headers.set? name value = none ↔ carries (normalize value) = false := by
  unfold set?
  split
  next h => simp [h]
  next h => simpa using h

theorem get_without {names : List String} (h : ∀ name ∈ names, sameName other name = false) :
    (headers.without names).get other = headers.get other := by
  refine get_congr ?_
  simp only [values, without, List.filter_filter]
  refine congrArg (List.map _) (List.filter_congr fun x _ => ?_)
  cases hx : sameName x.1 other with
  | false => rfl
  | true =>
    have hnone : (names.any fun name => sameName x.1 name) = false := by
      rw [List.any_eq_false]
      intro name hname hsame
      exact Bool.false_ne_true ((h name hname).symm.trans (sameName_trans hx hsame))
    rw [hnone]
    rfl

end

theorem normalize_eq_self {value : String} (h : ∀ c ∈ value.toList, isSpace c = false) :
    normalize value = value := by
  have hfront : value.toList.dropWhile isSpace = value.toList := by
    cases hv : value.toList with
    | nil => rfl
    | cons c rest =>
      rw [List.dropWhile_cons, h c (by rw [hv]; exact List.mem_cons_self)]
      rfl
  have hback : value.toList.rdropWhile isSpace = value.toList := by
    rw [List.rdropWhile_eq_self_iff]
    intro hne
    rw [h _ (List.getLast_mem hne)]
    exact Bool.false_ne_true
  rw [normalize, hfront, hback, String.ofList_toList]

end HeaderList
