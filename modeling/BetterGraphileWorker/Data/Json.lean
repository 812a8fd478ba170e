-- SUMMARY: JSON values with the object operations that the jsonb statements and the envelope code use.
import Mathlib.Data.List.Basic

/-!
# JSON values

The values of the `payload` and `result` columns. Two objects that differ only in
key order denote the same value, so an update moves the written field to the front.
-/

namespace BetterGraphileWorker

inductive Json where
  | null
  | bool (b : Bool)
  | num (n : Rat)
  | str (s : String)
  | arr (items : List Json)
  | obj (fields : List (String × Json))

namespace Json

/-- `jsonb_typeof(value) = 'object'`. -/
def isObject : Json → Bool
  | .obj _ => true
  | _ => false

/-- `value === null`. -/
def isNull : Json → Bool
  | .null => true
  | _ => false

/-- `value === true`. -/
def isTrue : Json → Bool
  | .bool b => b
  | _ => false

/-- `value->'key'`: the field of an object. -/
def get? : Json → String → Option Json
  | .obj fields, key => fields.lookup key
  | _, _ => none

/-- `value ? 'key'`. -/
def has (value : Json) (key : String) : Bool := (value.get? key).isSome

/-- `jsonb_set(value, '{key}', field, true)`, also `value || {key: field}`. -/
def set : Json → String → Json → Json
  | .obj fields, key, field => .obj ((key, field) :: fields.filter (·.1 ≠ key))
  | value, _, _ => value

/-- An object without `key`, as rest destructuring leaves it. -/
def remove : Json → String → Json
  | .obj fields, key => .obj (fields.filter (·.1 ≠ key))
  | value, _ => value

theorem lookup_filter_ne {α : Type} {fields : List (String × α)} {key key' : String} :
    (fields.filter (·.1 ≠ key)).lookup key' = if key' = key then none else fields.lookup key' := by
  induction fields with
  | nil => simp
  | cons f fields ih =>
    obtain ⟨k, v⟩ := f
    by_cases hk : k = key <;> by_cases hk' : key' = k
    · subst hk hk'; simpa using ih
    · subst hk; simpa [List.lookup_cons, beq_eq_false_iff_ne.mpr hk'] using ih
    · subst hk'; simp [hk]
    · simpa [List.lookup_cons, hk, beq_eq_false_iff_ne.mpr hk'] using ih

theorem get?_set {value field : Json} {key key' : String} (h : value.isObject = true) :
    (value.set key field).get? key' = if key' = key then some field else value.get? key' := by
  cases value with
  | obj fields =>
    by_cases hk : key' = key
    · subst hk; simp [set, get?]
    · simp only [set, get?, List.lookup_cons, beq_eq_false_iff_ne.mpr hk, lookup_filter_ne, if_neg hk]
  | _ => cases h

theorem get?_remove {value : Json} {key key' : String} :
    (value.remove key).get? key' = if key' = key then none else value.get? key' := by
  cases value with
  | obj fields => exact lookup_filter_ne
  | _ => simp [remove, get?]

@[simp] theorem isObject_set {value field : Json} {key : String} :
    (value.set key field).isObject = value.isObject := by
  cases value <;> rfl

@[simp] theorem isObject_remove {value : Json} {key : String} :
    (value.remove key).isObject = value.isObject := by
  cases value <;> rfl

/-- Only objects have fields. -/
theorem isObject_of_get? {value field : Json} {key : String} (h : value.get? key = some field) :
    value.isObject = true := by
  cases value <;> first | rfl | cases h

end Json

end BetterGraphileWorker
