-- SUMMARY: What a JSON value reads like once a jsonb column has held it, and which values jsonb refuses.
import Mathlib.Data.Nat.Notation
import BetterGraphileWorker.Data.Payload
import BetterGraphileWorker.Data.WireText

/-!
# jsonb

A `jsonb` column keeps the fields of an object in an order of its own, of which
`JSON.parse` puts the array indices first. Nothing else changes. Strings with U+0000 have
no place in a `jsonb` value, nor have those with unpaired surrogates, which a Lean string
does not contain.
-/

namespace BetterGraphileWorker

/-! ## The order of keys -/

/-- An array index, as JavaScript tells them from other keys. -/
def arrayIndex? (key : String) : Option ℕ :=
  let n := Nat.ofDigitChars 10 key.toList 0
  if key.toList.all Char.isDigit ∧ toString n = key ∧ n < 4294967295 then some n else none

/-- In `jsonb` shorter keys come first, then the order of their bytes decides. -/
def jsonbBefore (key key' : String) : Bool :=
  key.utf8ByteSize < key'.utf8ByteSize || key.utf8ByteSize = key'.utf8ByteSize && !decide (key' < key)

/-- Array indices come first, by their numbers. -/
def readsBefore (key key' : String) : Bool :=
  match arrayIndex? key, arrayIndex? key' with
  | some n, some n' => n ≤ n'
  | some _, none => true
  | none, some _ => false
  | none, none => jsonbBefore key key'

theorem readsBefore_self (key : String) : readsBefore key key = true := by
  unfold readsBefore
  cases arrayIndex? key <;> simp [jsonbBefore]

def insertField (field : String × Json) : List (String × Json) → List (String × Json)
  | [] => [field]
  | other :: fields =>
    if readsBefore field.1 other.1 then field :: other :: fields
    else other :: insertField field fields

/-- Fields move past fields with other keys only. -/
theorem lookup_insertField {field : String × Json} {fields : List (String × Json)} {key : String} :
    (insertField field fields).lookup key = ((field :: fields).lookup key) := by
  induction fields with
  | nil => rfl
  | cons other fields ih =>
    unfold insertField
    split
    · rfl
    · rename_i hafter
      have hne : field.1 ≠ other.1 := by
        intro hkey
        rw [← hkey] at hafter
        exact hafter (readsBefore_self field.1)
      obtain ⟨k, v⟩ := field
      obtain ⟨k', v'⟩ := other
      rw [List.lookup_cons, ih, List.lookup_cons, List.lookup_cons, List.lookup_cons]
      by_cases hk : key = k
      · have hk' : ¬key = k' := fun h => hne (hk.symm.trans h)
        simp [hk, beq_eq_false_iff_ne.mpr hne]
      · simp [beq_eq_false_iff_ne.mpr hk]

/-! ## Reading back -/

namespace Json

mutual

/-- `JSON.parse` of what a `jsonb` column makes of the value. -/
def readBack : Json → Json
  | .arr items => .arr (readItems items)
  | .obj fields => .obj (readFields fields)
  | value => value

def readItems : List Json → List Json
  | [] => []
  | item :: items => readBack item :: readItems items

def readFields : List (String × Json) → List (String × Json)
  | [] => []
  | (key, value) :: fields => insertField (key, readBack value) (readFields fields)

end

variable {value : Json} {key : String}

/-- Every field is there under its key. -/
theorem get?_readBack : value.readBack.get? key = (value.get? key).map readBack := by
  cases value with
  | obj fields =>
    simp only [readBack, get?]
    induction fields with
    | nil => rfl
    | cons field fields ih =>
      obtain ⟨k, v⟩ := field
      rw [readFields, lookup_insertField, List.lookup_cons, List.lookup_cons, ih]
      split <;> rfl
  | _ => rfl

@[simp] theorem isObject_readBack : value.readBack.isObject = value.isObject := by
  cases value <;> rfl

@[simp] theorem isNull_readBack : value.readBack.isNull = value.isNull := by
  cases value <;> rfl

@[simp] theorem isTrue_readBack : value.readBack.isTrue = value.isTrue := by
  cases value <;> rfl

theorem any_isTrue_readBack :
    (value.readBack.get? key).any isTrue = (value.get? key).any isTrue := by
  rw [get?_readBack]
  cases value.get? key <;> simp

/-! ## Refused values -/

/-- Text without U+0000. -/
def nulFree (text : String) : Bool := text.toList.all fun c => c.toNat ≠ 0

mutual

/-- `value::jsonb` does not throw. -/
def casts : Json → Bool
  | .str text => nulFree text
  | .arr items => castsItems items
  | .obj fields => castsFields fields
  | _ => true

def castsItems : List Json → Bool
  | [] => true
  | item :: items => casts item && castsItems items

def castsFields : List (String × Json) → Bool
  | [] => true
  | (key, value) :: fields => nulFree key && casts value && castsFields fields

end

/-! ## Wire values -/

mutual

/-- The value over JavaScript strings. -/
def toWire : Json → Wire
  | .null => .null
  | .bool b => .bool b
  | .num n => .num n
  | .str text => .str (.ofString text)
  | .arr items => .arr (wireItems items)
  | .obj fields => .obj (wireFields fields)

def wireItems : List Json → List Wire
  | [] => []
  | item :: items => toWire item :: wireItems items

def wireFields : List (String × Json) → List (JsString × Wire)
  | [] => []
  | (key, value) :: fields => (.ofString key, toWire value) :: wireFields fields

end

theorem clean_ofString {text : String} : (JsString.ofString text).Clean ↔ nulFree text = true := by
  have hwell : (JsString.ofString text).isWellFormed = true :=
    (JsString.ofString_eq_iff.mp rfl).1
  have hunits : ∀ c : Char, 0 ∈ JsString.units c ↔ c.toNat = 0 := by
    intro c
    have hvalid : c.toNat < 0xD800 ∨ 0xDFFF < c.toNat ∧ c.toNat < 0x110000 := c.valid
    have hzero : ∀ n : ℕ, n < 65536 → (0 = UInt16.ofNat n ↔ n = 0) := by
      intro n hn
      have htoNat : (UInt16.ofNat n).toNat = n := UInt16.toNat_ofNat_of_lt hn
      rw [← UInt16.toNat_inj, htoNat]
      exact eq_comm
    unfold JsString.units
    split
    · rename_i hsmall
      rw [List.mem_singleton, hzero _ hsmall]
    · rename_i hlarge
      rw [List.mem_cons, List.mem_singleton, hzero _ (by omega), hzero _ (by omega)]
      omega
  rw [JsString.Clean, hwell, eq_self, true_and]
  simp only [JsString.ofString, List.mem_flatMap, hunits, nulFree, List.all_eq_true, decide_eq_true_eq,
    not_exists, not_and, ne_eq]

mutual

theorem clean_toWire_iff : (value : Json) → ((∀ s ∈ value.toWire.strings, s.Clean) ↔ value.casts = true)
  | .null | .bool _ | .num _ => by simp [toWire, Wire.strings, casts]
  | .str text => by simpa [toWire, Wire.strings, casts] using clean_ofString
  | .arr items => by simpa [toWire, Wire.strings, casts] using clean_wireItems_iff items
  | .obj fields => by simpa [toWire, Wire.strings, casts] using clean_wireFields_iff fields

theorem clean_wireItems_iff : (items : List Json) →
    ((∀ s ∈ Wire.itemStrings (wireItems items), s.Clean) ↔ castsItems items = true)
  | [] => by simp [wireItems, Wire.itemStrings, castsItems]
  | item :: items => by
    have hitem := clean_toWire_iff item
    have hitems := clean_wireItems_iff items
    simp only [wireItems, Wire.itemStrings, castsItems, List.forall_mem_append, Bool.and_eq_true,
      hitem, hitems]

theorem clean_wireFields_iff : (fields : List (String × Json)) →
    ((∀ s ∈ Wire.fieldStrings (wireFields fields), s.Clean) ↔ castsFields fields = true)
  | [] => by simp [wireFields, Wire.fieldStrings, castsFields]
  | (key, value) :: fields => by
    have hvalue := clean_toWire_iff value
    have hfields := clean_wireFields_iff fields
    simp only [wireFields, Wire.fieldStrings, castsFields, List.cons_append, List.forall_mem_cons,
      List.forall_mem_append, Bool.and_eq_true, clean_ofString, hvalue, hfields, and_assoc]

end

/-- The refused values are those whose text `jsonb` refuses. -/
theorem accepts_toWire : (Cast.jsonb value.toWire).accepts = value.casts := by
  rw [Bool.eq_iff_iff, jsonb_accepts_iff, clean_toWire_iff]

-- the longer key goes last, the array index first
example : readBack (.obj [("items", .null), ("b", .obj [("id", .null), ("a", .null)]), ("7", .null)]) =
    .obj [("7", .null), ("b", .obj [("a", .null), ("id", .null)]), ("items", .null)] := by
  rfl

end Json

/-! ## Envelopes -/

namespace Payload

variable {payload : Json}

theorem isPayloadEnvelope_readBack : isPayloadEnvelope payload.readBack = isPayloadEnvelope payload := by
  have hversion : isVersion2 payload.readBack = isVersion2 payload := by
    unfold isVersion2
    rw [Json.get?_readBack]
    cases payload.get? "__bgw" with
    | none => rfl
    | some value => cases value <;> rfl
  have hnull : ((payload.get? "payload").map Json.readBack).any Json.isNull =
      (payload.get? "payload").any Json.isNull := by
    cases payload.get? "payload" <;> simp
  simp only [isPayloadEnvelope, Json.isObject_readBack, hversion, Json.has, Json.get?_readBack,
    Option.isSome_map, hnull]
  congr 1
  cases payload.get? "payloadUndefined" with
  | none => rfl
  | some value => cases value <;> rfl

/-- The business data of an envelope is read back with it. -/
theorem cleanPayload_readBack : cleanPayload payload.readBack = (cleanPayload payload).map Json.readBack := by
  unfold cleanPayload
  rw [Json.get?_readBack, Json.get?_readBack]
  cases payload.get? "payloadUndefined" with
  | none => rfl
  | some value =>
    cases value with
    | bool b => cases b <;> rfl
    | _ => rfl

theorem waited_readBack : waited payload.readBack = waited payload := Json.any_isTrue_readBack

end Payload

end BetterGraphileWorker
