-- SUMMARY: JavaScript values as inputs and outputs of jobs: assertJsonValue, and the copy that JSON makes of them.
import BetterGraphileWorker.Worker.Requests

/-!
# JavaScript values

Wire inputs and returned values before JSON has copied them. Numbers are doubles, so
there is a negative zero, which JSON writes as zero. Values are trees: a cycle, which
`assertJsonValue` refuses, has none.
-/

namespace BetterGraphileWorker

inductive JsNumber where
  /-- A finite double other than negative zero. -/
  | finite (value : Rat)
  | negativeZero
  /-- NaN and the infinities. -/
  | nonFinite
deriving DecidableEq

/-- `Object.getPrototypeOf` of an object that is no array. -/
inductive Prototype where
  | object
  | null
  /-- The prototype of a class. -/
  | other
deriving DecidableEq

/-- Objects and arrays carry whether they have symbol properties. -/
inductive JsValue where
  | undefined
  | null
  | bool (b : Bool)
  | number (n : JsNumber)
  | string (s : String)
  | array (symbols : Bool) (items : List JsValue)
  | object (prototype : Prototype) (symbols : Bool) (fields : List (String × JsValue))
  /-- A function, a symbol or a bigint. -/
  | other

namespace JsValue

/-! ## Reading JSON -/

mutual

/-- `JSON.parse`. -/
def ofJson : Json → JsValue
  | .null => .null
  | .bool b => .bool b
  | .num n => .number (.finite n)
  | .str s => .string s
  | .arr items => .array false (ofItems items)
  | .obj fields => .object .object false (ofFields fields)

def ofItems : List Json → List JsValue
  | [] => []
  | item :: items => ofJson item :: ofItems items

def ofFields : List (String × Json) → List (String × JsValue)
  | [] => []
  | (key, value) :: fields => (key, ofJson value) :: ofFields fields

end

/-- A value that is stored with a discriminator for undefined. -/
def ofStored : Option Json → JsValue
  | none => .undefined
  | some value => ofJson value

/-! ## Writing JSON -/

mutual

/-- The document of `JSON.stringify`, for a value that `assertJsonValue` accepts. -/
def toJson : JsValue → Json
  | .bool b => .bool b
  | .number (.finite n) => .num n
  | .number .negativeZero => .num 0
  | .string s => .str s
  | .array _ items => .arr (toItems items)
  | .object _ _ fields => .obj (toFields fields)
  | .number .nonFinite | .undefined | .null | .other => .null

def toItems : List JsValue → List Json
  | [] => []
  | item :: items => toJson item :: toItems items

def toFields : List (String × JsValue) → List (String × Json)
  | [] => []
  | (key, value) :: fields => (key, toJson value) :: toFields fields

end

/-- `value === undefined ? undefined : JSON.parse(JSON.stringify(value))`. -/
def snapshot : JsValue → Option Json
  | .undefined => none
  | value => some value.toJson

/-! ## Checking -/

def incompatible : Thrown :=
  .nonRetriable "NonRetriableError" "Value must contain only JSON-compatible values"

def notPlain : Thrown :=
  .nonRetriable "NonRetriableError"
    "JSON values must use plain objects; encode dates and class instances explicitly"

def hasSymbols : Thrown :=
  .nonRetriable "NonRetriableError" "JSON values cannot contain symbol properties"

mutual

/-- `visit` below the root. -/
def visit : JsValue → Except Thrown Unit
  | .null | .string _ | .bool _ | .number (.finite _) | .number .negativeZero => .ok ()
  | .number .nonFinite | .undefined | .other => .error incompatible
  | .array symbols items => if symbols then .error hasSymbols else visitItems items
  | .object prototype symbols fields =>
    if prototype = .other then .error notPlain
    else if symbols then .error hasSymbols
    else visitFields fields

def visitItems : List JsValue → Except Thrown Unit
  | [] => .ok ()
  | item :: items => visit item >>= fun _ => visitItems items

def visitFields : List (String × JsValue) → Except Thrown Unit
  | [] => .ok ()
  | (_, value) :: fields => visit value >>= fun _ => visitFields fields

end

/-- `assertJsonValue(value, true)`: reject values JSON would silently change or omit. -/
def assertJsonValue : JsValue → Except Thrown Unit
  | .undefined => .ok ()
  | value => value.visit

/-- What is thrown for a value that JSON does not hold; it fails its job for good. -/
def Refused (error : Thrown) : Prop :=
  ∃ message : String, error = .nonRetriable "NonRetriableError" message

mutual

theorem refused_of_visit : (value : JsValue) → {error : Thrown} → value.visit = .error error →
    Refused error
  | .null, _, h | .string _, _, h | .bool _, _, h | .number (.finite _), _, h
  | .number .negativeZero, _, h => by cases h
  | .number .nonFinite, _, h | .undefined, _, h | .other, _, h => by cases h; exact ⟨_, rfl⟩
  | .array symbols items, _, h => by
    simp only [visit] at h
    split at h
    · cases h; exact ⟨_, rfl⟩
    · exact refused_of_visitItems items h
  | .object prototype symbols fields, _, h => by
    simp only [visit] at h
    split at h
    · cases h; exact ⟨_, rfl⟩
    · split at h
      · cases h; exact ⟨_, rfl⟩
      · exact refused_of_visitFields fields h

theorem refused_of_visitItems : (items : List JsValue) → {error : Thrown} →
    visitItems items = .error error → Refused error
  | [], _, h => by cases h
  | item :: items, _, h => by
    simp only [visitItems, bind, Except.bind] at h
    split at h
    · rename_i hitem
      cases h
      exact refused_of_visit item hitem
    · exact refused_of_visitItems items h

theorem refused_of_visitFields : (fields : List (String × JsValue)) → {error : Thrown} →
    visitFields fields = .error error → Refused error
  | [], _, h => by cases h
  | (_, value) :: fields, _, h => by
    simp only [visitFields, bind, Except.bind] at h
    split at h
    · rename_i hvalue
      cases h
      exact refused_of_visit value hvalue
    · exact refused_of_visitFields fields h

end

mutual

/-- JSON changes nothing: no negative zero, and no object without a prototype. -/
def plain : JsValue → Bool
  | .undefined | .other | .number .negativeZero | .number .nonFinite => false
  | .null | .bool _ | .string _ | .number (.finite _) => true
  | .array symbols items => !symbols && plainItems items
  | .object prototype symbols fields => prototype = .object && !symbols && plainFields fields

def plainItems : List JsValue → Bool
  | [] => true
  | item :: items => item.plain && plainItems items

def plainFields : List (String × JsValue) → Bool
  | [] => true
  | (_, value) :: fields => value.plain && plainFields fields

end

mutual

theorem ofJson_toJson_iff : (value : JsValue) → (ofJson value.toJson = value ↔ value.plain = true)
  | .undefined | .other | .number .negativeZero | .number .nonFinite => by
    simp [toJson, ofJson, plain]
  | .null | .bool _ | .string _ | .number (.finite _) => by simp [toJson, ofJson, plain]
  | .array symbols items => by
    have hitems := ofItems_toItems_iff items
    cases symbols <;> simp [toJson, ofJson, plain, hitems]
  | .object prototype symbols fields => by
    have hfields := ofFields_toFields_iff fields
    cases prototype <;> cases symbols <;> simp [toJson, ofJson, plain, hfields]

theorem ofItems_toItems_iff :
    (items : List JsValue) → (ofItems (toItems items) = items ↔ plainItems items = true)
  | [] => by simp [toItems, ofItems, plainItems]
  | item :: items => by
    have hitem := ofJson_toJson_iff item
    have hitems := ofItems_toItems_iff items
    simp [toItems, ofItems, plainItems, hitem, hitems]

theorem ofFields_toFields_iff : (fields : List (String × JsValue)) →
    (ofFields (toFields fields) = fields ↔ plainFields fields = true)
  | [] => by simp [toFields, ofFields, plainFields]
  | (key, value) :: fields => by
    have hvalue := ofJson_toJson_iff value
    have hfields := ofFields_toFields_iff fields
    simp [toFields, ofFields, plainFields, hvalue, hfields]

end

/-! ## Values that JSON wrote -/

mutual

theorem toJson_ofJson : (value : Json) → (ofJson value).toJson = value
  | .null | .bool _ | .num _ | .str _ => rfl
  | .arr items => by simp [ofJson, toJson, toItems_ofItems items]
  | .obj fields => by simp [ofJson, toJson, toFields_ofFields fields]

theorem toItems_ofItems : (items : List Json) → toItems (ofItems items) = items
  | [] => rfl
  | item :: items => by simp [ofItems, toItems, toJson_ofJson item, toItems_ofItems items]

theorem toFields_ofFields : (fields : List (String × Json)) → toFields (ofFields fields) = fields
  | [] => rfl
  | (_, value) :: fields => by
    simp [ofFields, toFields, toJson_ofJson value, toFields_ofFields fields]

end

mutual

theorem visit_ofJson : (value : Json) → (ofJson value).visit = .ok ()
  | .null | .bool _ | .num _ | .str _ => rfl
  | .arr items => by simp [ofJson, visit, visitItems_ofItems items]
  | .obj fields => by simp [ofJson, visit, visitFields_ofFields fields]

theorem visitItems_ofItems : (items : List Json) → visitItems (ofItems items) = .ok ()
  | [] => rfl
  | item :: items => by
    have hitem := visit_ofJson item
    have hitems := visitItems_ofItems items
    simp [ofItems, visitItems, hitem, hitems, bind, Except.bind]

theorem visitFields_ofFields : (fields : List (String × Json)) → visitFields (ofFields fields) = .ok ()
  | [] => rfl
  | (_, value) :: fields => by
    have hvalue := visit_ofJson value
    have hfields := visitFields_ofFields fields
    simp [ofFields, visitFields, hvalue, hfields, bind, Except.bind]

end

theorem snapshot_ofStored (value : Option Json) : (ofStored value).snapshot = value := by
  cases value with
  | none => rfl
  | some value =>
    have hcopy := toJson_ofJson value
    cases value <;> simpa [ofStored, snapshot, ofJson] using hcopy

theorem assertJsonValue_ofStored (value : Option Json) : (ofStored value).assertJsonValue = .ok () := by
  cases value with
  | none => rfl
  | some value =>
    have hvisit := visit_ofJson value
    cases value <;> simpa [ofStored, assertJsonValue, ofJson] using hvisit

end JsValue

end BetterGraphileWorker
