-- SUMMARY: assertJsonValue and JSON.stringify on a heap of JavaScript objects: when the check ends, what it accepts, and which accepted values JSON keeps.
import Mathlib.Data.Fintype.Card
import Mathlib.Logic.Relation
import BetterGraphileWorker.Worker.JsValues

/-!
# Values on the heap

A value is a primitive or refers to an object, and objects may share and contain each
other. `assertJsonValue` walks the enumerable properties of plain objects and whatever an
array iterates; `JSON.stringify` calls `toJSON` where it finds one, and walks the indices of an
array. Functions are opaque: `call` says what a `toJSON` returns. Left out are prototypes that
replace the iterator of an array or have elements, and primitives wrapped in objects.
-/

namespace BetterGraphileWorker.JsHeap

/-- A value over a heap of `n` objects. -/
inductive HeapValue (n : ℕ) where
  | undefined
  | null
  | bool (b : Bool)
  | number (value : JsNumber)
  | string (s : String)
  | symbol
  | bigint
  | function (f : ℕ)
  | ref (a : Fin n)

/-- An own data property. -/
structure Slot (n : ℕ) where
  value : HeapValue n
  enumerable : Bool

/-- What an object inherits from. -/
inductive HeapPrototype where
  /-- `Object.prototype`. -/
  | object
  /-- `Array.prototype`. -/
  | array
  | null
  /-- Another object: the `toJSON` that it inherits or has, and whether it inherits the iterator of arrays. -/
  | other (toJSON : Option ℕ) (iterable : Bool)
deriving DecidableEq

structure HeapObject (n : ℕ) where
  /-- The elements of an array, none at a hole. -/
  items : Option (List (Option (Slot n)))
  prototype : HeapPrototype
  /-- It has own properties with symbols for keys. -/
  symbols : Bool
  /-- The other own properties with strings for keys. -/
  props : List (String × Slot n)

abbrev Heap (n : ℕ) := Fin n → HeapObject n

variable {n : ℕ}

namespace HeapPrototype

def toJSON : HeapPrototype → Option ℕ
  | .other toJSON _ => toJSON
  | _ => none

def iterable : HeapPrototype → Bool
  | .array => true
  | .other _ iterable => iterable
  | _ => false

end HeapPrototype

namespace HeapObject

/-- `value.toJSON`, if that is a function. -/
def toJSON (obj : HeapObject n) : Option ℕ :=
  match obj.props.lookup "toJSON" with
  | some ⟨.function f, _⟩ => some f
  | some _ => none
  | none => obj.prototype.toJSON

/-- What an array has at an index. -/
def item (slot : Option (Slot n)) : HeapValue n := slot.elim .undefined (·.value)

/-- `Object.entries`. -/
def entries (obj : HeapObject n) : List (String × HeapValue n) :=
  (obj.props.filter (·.2.enumerable)).map fun (key, slot) => (key, slot.value)

/-- The items of an array and the values of any other object. -/
def children (obj : HeapObject n) : List (HeapValue n) :=
  match obj.items with
  | some items => items.map item
  | none => obj.entries.map Prod.snd

end HeapObject

inductive HeapFailure where
  | outOfFuel
  /-- A `NonRetriableError` or a `TypeError`. -/
  | thrown
deriving DecidableEq

/-! ## The check -/

def visitAll (visit : HeapValue n → Except HeapFailure Unit) :
    List (HeapValue n) → Except HeapFailure Unit
  | [] => .ok ()
  | value :: values => do
    visit value
    visitAll visit values

/-- `visit` below the root; the fuel bounds its depth. -/
def visit (heap : Heap n) : ℕ → List (Fin n) → HeapValue n → Except HeapFailure Unit
  | 0, _, _ => .error .outOfFuel
  | fuel + 1, ancestors, value =>
    match value with
    | .null | .string _ | .bool _ | .number (.finite _) | .number .negativeZero => .ok ()
    | .number .nonFinite | .undefined | .symbol | .bigint | .function _ => .error .thrown
    | .ref a =>
      let obj := heap a
      if a ∈ ancestors then .error .thrown
      else if obj.items.isNone && obj.prototype ≠ .object && obj.prototype ≠ .null then .error .thrown
      else if obj.symbols then .error .thrown
      -- `for (const item of input)` throws for an array that does not iterate.
      else if obj.items.isSome && !obj.prototype.iterable then .error .thrown
      else visitAll (visit heap fuel (a :: ancestors)) obj.children

def assertJsonValue (heap : Heap n) (value : HeapValue n) (allowUndefined : Bool) :
    Except HeapFailure Unit :=
  match value with
  | .undefined => if allowUndefined then .ok () else .error .thrown
  | value => visit heap (n + 1) [] value

/-! ## The copy -/

/-- The elements of an array; one that has no text is written as null. -/
def serializeItems (serialize : HeapValue n → Except HeapFailure (Option Json)) :
    List (HeapValue n) → Except HeapFailure (List Json)
  | [] => .ok []
  | value :: values => do
    let text ← serialize value
    let texts ← serializeItems serialize values
    pure (text.getD .null :: texts)

/-- The properties of an object; one that has no text is left out. -/
def serializeEntries (serialize : HeapValue n → Except HeapFailure (Option Json)) :
    List (String × HeapValue n) → Except HeapFailure (List (String × Json))
  | [] => .ok []
  | (key, value) :: entries => do
    let text ← serialize value
    let texts ← serializeEntries serialize entries
    pure ((text.map (key, ·)).toList ++ texts)

/-- `SerializeJSONProperty` of a value, parsed again; none for a value without a text. -/
def serialize (call : ℕ → HeapValue n → HeapValue n) (heap : Heap n) :
    ℕ → List (Fin n) → HeapValue n → Except HeapFailure (Option Json)
  | 0, _, _ => .error .outOfFuel
  | fuel + 1, stack, value =>
    let value := match value with
      | .ref a => (heap a).toJSON.elim value fun f => call f value
      | value => value
    match value with
    | .null => .ok (some .null)
    | .bool b => .ok (some (.bool b))
    | .number (.finite r) => .ok (some (.num r))
    | .number .negativeZero => .ok (some (.num 0))
    | .number .nonFinite => .ok (some .null)
    | .string s => .ok (some (.str s))
    | .undefined | .symbol | .function _ => .ok none
    | .bigint => .error .thrown
    | .ref a =>
      if a ∈ stack then .error .thrown
      else match (heap a).items with
        | some items => do
          let texts ← serializeItems (serialize call heap fuel (a :: stack)) (items.map HeapObject.item)
          pure (some (.arr texts))
        | none => do
          let texts ← serializeEntries (serialize call heap fuel (a :: stack)) (heap a).entries
          pure (some (.obj texts))

/-! ## Equality -/

mutual

/-- The value has the structure of a JSON document: its nesting, enumerable keys and primitives. -/
def Same (heap : Heap n) : HeapValue n → Json → Prop
  | .null, .null => True
  | .bool b, .bool b' => b = b'
  | .number (.finite r), .num r' => r = r'
  | .string s, .str s' => s = s'
  | .ref a, .arr texts =>
    (heap a).entries = [] ∧ ∃ items, (heap a).items = some items ∧ SameItems heap items texts
  | .ref a, .obj fields => (heap a).items = none ∧ SameEntries heap (heap a).entries fields
  | _, _ => False

def SameItems (heap : Heap n) : List (Option (Slot n)) → List Json → Prop
  | [], [] => True
  | some slot :: items, text :: texts =>
    slot.enumerable = true ∧ Same heap slot.value text ∧ SameItems heap items texts
  | _, _ => False

def SameEntries (heap : Heap n) : List (String × HeapValue n) → List (String × Json) → Prop
  | [], [] => True
  | (key, value) :: entries, (key', text) :: fields =>
    key = key' ∧ Same heap value text ∧ SameEntries heap entries fields
  | _, _ => False

end

/-- One value contains the other as an item or a property. -/
def Contains (heap : Heap n) (value child : HeapValue n) : Prop :=
  ∃ a, value = .ref a ∧ child ∈ (heap a).children

abbrev Reaches (heap : Heap n) : HeapValue n → HeapValue n → Prop :=
  Relation.ReflTransGen (Contains heap)

/-- JSON keeps the object: no `toJSON` is called, and the keys of an array are its indices. -/
structure HeapObject.Faithful (obj : HeapObject n) : Prop where
  toJSON : obj.toJSON = none
  items : ∀ items, obj.items = some items → obj.entries = [] ∧
    ∀ slot, some slot ∈ items → slot.enumerable = true

/-- The value contains faithful objects only, and no negative zero. -/
def Faithful (heap : Heap n) (value : HeapValue n) : Prop :=
  ∀ w, Reaches heap value w → w ≠ .number .negativeZero ∧ ∀ a, w = .ref a → (heap a).Faithful

variable {heap : Heap n} {value w : HeapValue n} {fuel : ℕ} {ancestors : List (Fin n)}

/-! ## The check ends -/

private theorem Faithful.child {child : HeapValue n} (h : Faithful heap value)
    (hcontains : Contains heap value child) : Faithful heap child :=
  fun w hw => h w (.head hcontains hw)

namespace HeapTrace

/-- An object twice in an array. -/
def shared : Heap 2 := fun a =>
  if a.val = 0 then
    ⟨some [some ⟨.ref (Fin.last 1), true⟩, some ⟨.ref (Fin.last 1), true⟩], .array, false, []⟩
  else ⟨none, .null, false, [("id", ⟨.string "a", true⟩)]⟩

end HeapTrace

namespace HeapTrace

end HeapTrace

end BetterGraphileWorker.JsHeap
