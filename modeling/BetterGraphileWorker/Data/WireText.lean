-- SUMMARY: JSON values over JavaScript strings, the text that JSON.stringify makes of them, and which texts json, jsonb and text accept.
import Mathlib.Data.List.Basic

/-!
# Texts of wire values

JavaScript strings are sequences of UTF-16 code units, of which the surrogates need not come
in pairs. `JSON.stringify` writes any of them: it escapes the unpaired surrogates and the
control characters. PostgreSQL's `json` keeps that text; `jsonb` reads the escapes and
refuses those of U+0000 and of unpaired surrogates; `text` refuses U+0000 itself.
-/

namespace BetterGraphileWorker

/-- The UTF-16 code units of a string. -/
abbrev JsString := List UInt16

def isHighSurrogate (u : UInt16) : Bool := 0xD800 ≤ u && u ≤ 0xDBFF

def isLowSurrogate (u : UInt16) : Bool := 0xDC00 ≤ u && u ≤ 0xDFFF

namespace JsString

/-- `isWellFormed()`: every surrogate is one of a pair. -/
def isWellFormed : JsString → Bool
  | [] => true
  | [u] => !isHighSurrogate u && !isLowSurrogate u
  | u :: v :: s =>
    if isHighSurrogate u then isLowSurrogate v && isWellFormed s
    else !isLowSurrogate u && isWellFormed (v :: s)

/-- A string that has a value in `jsonb`. -/
def Clean (s : JsString) : Prop := s.isWellFormed = true ∧ 0 ∉ s

instance (s : JsString) : Decidable s.Clean := inferInstanceAs (Decidable (_ ∧ _))

/-- A name of the library, which is ASCII. -/
def ofName (name : String) : JsString := name.toList.map fun c => UInt16.ofNat c.toNat

end JsString

/-! ## String literals -/

/-- A piece of a string literal: a code unit of the text, or an escape of one. -/
inductive LiteralUnit where
  | plain (u : UInt16)
  | escape (u : UInt16)
deriving DecidableEq

/-- The quotation mark, the backslash and the control characters. -/
def isEscaped (u : UInt16) : Bool := u < 0x20 || u == 0x22 || u == 0x5C

/-- `QuoteJSONString`. -/
def quote : JsString → List LiteralUnit
  | [] => []
  | [u] => if isEscaped u || isHighSurrogate u || isLowSurrogate u then [.escape u] else [.plain u]
  | u :: v :: s =>
    if isHighSurrogate u && isLowSurrogate v then .plain u :: .plain v :: quote s
    else if isEscaped u || isHighSurrogate u || isLowSurrogate u then .escape u :: quote (v :: s)
    else .plain u :: quote (v :: s)

/-- The string that PostgreSQL gets for a parameter: UTF-8 has no unpaired surrogates. -/
def encodeText : JsString → JsString
  | [] => []
  | [u] => [if isHighSurrogate u || isLowSurrogate u then 0xFFFD else u]
  | u :: v :: s =>
    if isHighSurrogate u && isLowSurrogate v then u :: v :: encodeText s
    else (if isHighSurrogate u || isLowSurrogate u then 0xFFFD else u) :: encodeText (v :: s)

/-- How `jsonb` reads a literal; `high` says that the escape of a high surrogate came just before. -/
def readLiteral (high : Bool) : List LiteralUnit → Bool
  | [] => !high
  | .plain _ :: rest => !high && readLiteral false rest
  | .escape u :: rest =>
    if isHighSurrogate u then !high && readLiteral true rest
    else if isLowSurrogate u then high && readLiteral false rest
    else !high && u ≠ 0 && readLiteral false rest

/-! ## Values -/

/-- A JSON value with JavaScript strings. -/
inductive Wire where
  | null
  | bool (b : Bool)
  | num (n : Rat)
  | str (s : JsString)
  | arr (items : List Wire)
  | obj (fields : List (JsString × Wire))

namespace Wire

mutual

/-- The strings of a value, keys included, in the order of its text. -/
def strings : Wire → List JsString
  | .str s => [s]
  | .arr items => itemStrings items
  | .obj fields => fieldStrings fields
  | .null | .bool _ | .num _ => []

def itemStrings : List Wire → List JsString
  | [] => []
  | item :: items => strings item ++ itemStrings items

def fieldStrings : List (JsString × Wire) → List JsString
  | [] => []
  | (key, value) :: fields => key :: strings value ++ fieldStrings fields

end

/-- The string literals of `JSON.stringify(value)`. -/
def literals (value : Wire) : List (List LiteralUnit) := value.strings.map quote

def get? : Wire → JsString → Option Wire
  | .obj fields, key => fields.lookup key
  | _, _ => none

/-- `jsonb_set(value, '{key}', field, true)`, also `value || {key: field}`. -/
def set : Wire → JsString → Wire → Wire
  | .obj fields, key, field => .obj ((key, field) :: fields.filter (·.1 ≠ key))
  | value, _, _ => value

/-- An object without `key`. -/
def remove : Wire → JsString → Wire
  | .obj fields, key => .obj (fields.filter (·.1 ≠ key))
  | value, _ => value

end Wire

/-! ## Casts -/

/-- A cast that a statement makes of a parameter or a column. -/
inductive Cast where
  | json (value : Wire)
  | jsonb (value : Wire)
  | text (s : JsString)

/-- `json` takes every JSON text. -/
def Cast.accepts : Cast → Bool
  | .json _ => true
  | .jsonb value => value.literals.all (readLiteral false)
  | .text s => 0 ∉ s

/-! ## What jsonb accepts -/

private theorem ne_zero_of_surrogate {u : UInt16}
    (h : isHighSurrogate u = true ∨ isLowSurrogate u = true) : u ≠ 0 := by
  intro hzero
  rw [hzero] at h
  simp [isHighSurrogate, isLowSurrogate] at h

/-- A literal that continues a high surrogate starts with the escape of a low one. -/
private theorem readLiteral_high {s : JsString} (h : ∀ v ∈ s.head?, isLowSurrogate v = false) :
    readLiteral true (quote s) = false := by
  cases s with
  | nil => rfl
  | cons u s =>
    have hlow : isLowSurrogate u = false := h u rfl
    cases s with
    | nil =>
      simp only [quote]
      split <;> simp [readLiteral, hlow]
    | cons v s =>
      simp only [quote]
      split
      · simp [readLiteral]
      · split <;> simp [readLiteral, hlow]

private theorem clean_cons_cons {u v : UInt16} {s : JsString} :
    JsString.Clean (u :: v :: s) ↔ u ≠ 0 ∧
      if isHighSurrogate u = true then isLowSurrogate v = true ∧ s.Clean
      else isLowSurrogate u = false ∧ JsString.Clean (v :: s) := by
  simp only [JsString.Clean, JsString.isWellFormed, List.mem_cons, not_or]
  split
  · rename_i hhigh
    simp only [Bool.and_eq_true]
    constructor
    · rintro ⟨⟨hlow, hs⟩, hu, -, hzero⟩
      exact ⟨Ne.symm hu, hlow, hs, hzero⟩
    · rintro ⟨hu, hlow, hs, hzero⟩
      exact ⟨⟨hlow, hs⟩, Ne.symm hu, (ne_zero_of_surrogate (.inr hlow)).symm, hzero⟩
  · simp only [Bool.and_eq_true, Bool.not_eq_true']
    constructor
    · rintro ⟨⟨hlow, hs⟩, hu, hzero⟩
      exact ⟨Ne.symm hu, hlow, hs, hzero⟩
    · rintro ⟨hu, hlow, hs, hzero⟩
      exact ⟨⟨hlow, hs⟩, Ne.symm hu, hzero⟩

/-- `jsonb` reads what `JSON.stringify` writes for the well-formed strings without U+0000. -/
theorem readLiteral_quote_iff {s : JsString} : readLiteral false (quote s) = true ↔ s.Clean := by
  induction s using quote.induct with
  | case1 => simp [quote, readLiteral, JsString.Clean, JsString.isWellFormed]
  | case2 u h =>
    have hzero : (0 : UInt16) ∈ [u] ↔ u = 0 := by rw [List.mem_singleton, eq_comm]
    rw [quote, if_pos h, JsString.Clean, hzero]
    cases hhigh : isHighSurrogate u <;> cases hlow : isLowSurrogate u <;>
      simp [hhigh, hlow, readLiteral, JsString.isWellFormed]
  | case3 u h =>
    simp only [Bool.or_eq_true, not_or, Bool.not_eq_true] at h
    have hzero : u ≠ 0 := by
      rintro rfl
      exact absurd h.1.1 (by decide)
    simp [quote, h, readLiteral, JsString.Clean, JsString.isWellFormed, hzero.symm]
  | case4 u v s h ih =>
    have hpair := Bool.and_eq_true_iff.mp h
    rw [clean_cons_cons, if_pos hpair.1, ← ih, quote, if_pos h]
    simp [readLiteral, hpair.2, ne_zero_of_surrogate (.inl hpair.1)]
  | case5 u v s h h' ih =>
    rw [clean_cons_cons, quote, if_neg h, if_pos h', readLiteral, ← ih]
    cases hhigh : isHighSurrogate u with
    | true =>
      have hv : isLowSurrogate v = false := by simpa [hhigh] using h
      have hnone : readLiteral true (quote (v :: s)) = false := by
        apply readLiteral_high
        intro v' hv'
        cases hv'
        exact hv
      simp [hv, hnone]
    | false => cases hlow : isLowSurrogate u <;> simp
  | case6 u v s h h' ih =>
    rw [clean_cons_cons, quote, if_neg h, if_neg h', readLiteral, ← ih]
    simp only [Bool.or_eq_true, not_or, Bool.not_eq_true] at h'
    have hzero : u ≠ 0 := by
      rintro rfl
      exact absurd h'.1.1 (by decide)
    simp [h', hzero]

private theorem replaced_not_surrogate (u : UInt16) :
    let u' := if isHighSurrogate u || isLowSurrogate u then 0xFFFD else u
    isHighSurrogate u' = false ∧ isLowSurrogate u' = false := by
  dsimp only
  split
  · decide
  · rename_i hnot
    simpa using hnot

private theorem isWellFormed_cons {u : UInt16} {s : JsString} (hhigh : isHighSurrogate u = false)
    (hlow : isLowSurrogate u = false) : JsString.isWellFormed (u :: s) = s.isWellFormed := by
  cases s <;> simp [JsString.isWellFormed, hhigh, hlow]

theorem isWellFormed_encodeText {s : JsString} : (encodeText s).isWellFormed = true := by
  induction s using encodeText.induct with
  | case1 => rfl
  | case2 u =>
    obtain ⟨hhigh, hlow⟩ := replaced_not_surrogate u
    rw [encodeText, isWellFormed_cons hhigh hlow]
    rfl
  | case3 u v s hpair ih =>
    have hboth := Bool.and_eq_true_iff.mp hpair
    rw [encodeText, if_pos hpair, JsString.isWellFormed, if_pos hboth.1, hboth.2, ih]
    rfl
  | case4 u v s hpair ih =>
    obtain ⟨hhigh, hlow⟩ := replaced_not_surrogate u
    rw [encodeText, if_neg hpair, isWellFormed_cons hhigh hlow, ih]

/-- A well-formed string reaches the server as it is. -/
theorem encodeText_of_isWellFormed {s : JsString} (h : s.isWellFormed = true) : encodeText s = s := by
  induction s using encodeText.induct with
  | case1 => rfl
  | case2 u =>
    have hu : isHighSurrogate u = false ∧ isLowSurrogate u = false := by
      simpa [JsString.isWellFormed] using h
    simp [encodeText, hu]
  | case3 u v s hpair ih =>
    have hboth := Bool.and_eq_true_iff.mp hpair
    rw [JsString.isWellFormed, if_pos hboth.1, Bool.and_eq_true] at h
    rw [encodeText, if_pos hpair, ih h.2]
  | case4 u v s hpair ih =>
    rw [JsString.isWellFormed] at h
    cases hhigh : isHighSurrogate u with
    | true =>
      simp only [hhigh, if_true, Bool.and_eq_true] at h
      simp [hhigh, h.1] at hpair
    | false =>
      simp only [hhigh, Bool.false_eq_true, if_false, Bool.and_eq_true, Bool.not_eq_true'] at h
      simp [encodeText, hhigh, h.1, ih h.2]

theorem encodeText_eq_iff {s : JsString} : encodeText s = s ↔ s.isWellFormed = true :=
  ⟨fun h => h ▸ isWellFormed_encodeText, encodeText_of_isWellFormed⟩

theorem clean_encodeText {s : JsString} (h : 0 ∉ s) : (encodeText s).Clean := by
  have hreplaced : ∀ u : UInt16, 0 ≠ u → 0 ≠ if isHighSurrogate u || isLowSurrogate u then 0xFFFD else u := by
    intro u hu
    split
    · decide
    · exact hu
  refine ⟨isWellFormed_encodeText, ?_⟩
  induction s using encodeText.induct with
  | case1 => exact List.not_mem_nil
  | case2 u =>
    rw [encodeText, List.mem_singleton]
    exact hreplaced u (by simpa using h)
  | case3 u v s hpair ih =>
    simp only [List.mem_cons, not_or] at h
    rw [encodeText, if_pos hpair, List.mem_cons, List.mem_cons, not_or, not_or]
    exact ⟨h.1, h.2.1, ih h.2.2⟩
  | case4 u v s hpair ih =>
    rw [List.mem_cons, not_or] at h
    rw [encodeText, if_neg hpair, List.mem_cons, not_or]
    exact ⟨hreplaced u h.1, ih h.2⟩

theorem encodeText_eq_of_clean {s : JsString} (h : s.Clean) : encodeText s = s :=
  encodeText_of_isWellFormed h.1

theorem jsonb_accepts_iff {value : Wire} :
    (Cast.jsonb value).accepts = true ↔ ∀ s ∈ value.strings, s.Clean := by
  simp [Cast.accepts, Wire.literals, readLiteral_quote_iff]

/-! ## Texts of the server -/

namespace JsString

/-- The code units of a character. -/
def units (c : Char) : JsString :=
  if c.toNat < 0x10000 then [UInt16.ofNat c.toNat]
  else [UInt16.ofNat (0xD800 + (c.toNat - 0x10000) / 0x400), UInt16.ofNat (0xDC00 + (c.toNat - 0x10000) % 0x400)]

/-- A text of the server as the driver reads it. -/
def ofString (text : String) : JsString := text.toList.flatMap units

def unitChar (u : UInt16) : Char :=
  if isHighSurrogate u || isLowSurrogate u then '\uFFFD' else Char.ofNat u.toNat

def pairChar (u v : UInt16) : Char :=
  Char.ofNat (0x10000 + (u.toNat - 0xD800) * 0x400 + (v.toNat - 0xDC00))

def chars : JsString → List Char
  | [] => []
  | [u] => [unitChar u]
  | u :: v :: s =>
    if isHighSurrogate u && isLowSurrogate v then pairChar u v :: chars s
    else unitChar u :: chars (v :: s)

/-- The text that the server gets for a string, as a Lean string. -/
def utf8 (s : JsString) : String := String.ofList s.chars

private theorem high_iff {u : UInt16} : isHighSurrogate u = true ↔ 0xD800 ≤ u.toNat ∧ u.toNat ≤ 0xDBFF := by
  simp [isHighSurrogate, UInt16.le_iff_toNat_le]

private theorem low_iff {u : UInt16} : isLowSurrogate u = true ↔ 0xDC00 ≤ u.toNat ∧ u.toNat ≤ 0xDFFF := by
  simp [isLowSurrogate, UInt16.le_iff_toNat_le]

private theorem toNat_ofNat {n : ℕ} (h : n < 0xD800 ∨ 0xDFFF < n ∧ n < 0x110000) :
    (Char.ofNat n).toNat = n := by
  have hvalid : n.isValidChar := h
  rw [Char.ofNat, dif_pos hvalid]
  exact UInt32.toNat_ofNatLT

private theorem units_unitChar (u : UInt16) :
    units (unitChar u) = [if isHighSurrogate u || isLowSurrogate u then 0xFFFD else u] := by
  unfold unitChar
  split
  · rfl
  · rename_i hnot
    rw [Bool.or_eq_true, high_iff, low_iff] at hnot
    have hlt := u.toNat_lt
    rw [units, toNat_ofNat (by omega), if_pos (by omega), UInt16.ofNat_toNat]

private theorem units_pairChar {u v : UInt16} (hu : isHighSurrogate u = true) (hv : isLowSurrogate v = true) :
    units (pairChar u v) = [u, v] := by
  rw [high_iff] at hu
  rw [low_iff] at hv
  have hhigh : 0xD800 + (0x10000 + (u.toNat - 0xD800) * 0x400 + (v.toNat - 0xDC00) - 0x10000) / 0x400 = u.toNat := by
    omega
  have hlow : 0xDC00 + (0x10000 + (u.toNat - 0xD800) * 0x400 + (v.toNat - 0xDC00) - 0x10000) % 0x400 = v.toNat := by
    omega
  rw [units, pairChar, toNat_ofNat (by omega), if_neg (by omega), hhigh, hlow, UInt16.ofNat_toNat,
    UInt16.ofNat_toNat]

/-- What comes back is what `encodeText` sends. -/
theorem ofString_utf8 (s : JsString) : ofString s.utf8 = encodeText s := by
  rw [ofString, utf8, String.toList_ofList]
  induction s using encodeText.induct with
  | case1 => rfl
  | case2 u => simp [chars, encodeText, units_unitChar]
  | case3 u v s hpair ih =>
    have hboth := Bool.and_eq_true_iff.mp hpair
    simp [chars, encodeText, hpair, ih, units_pairChar hboth.1 hboth.2]
  | case4 u v s hpair ih =>
    rw [chars, if_neg hpair, List.flatMap_cons, units_unitChar, ih, encodeText, if_neg hpair,
      List.singleton_append]

private theorem chars_units (c : Char) (s : JsString) : chars (units c ++ s) = c :: chars s := by
  have hvalid : c.toNat < 0xD800 ∨ 0xDFFF < c.toNat ∧ c.toNat < 0x110000 := c.valid
  have hc : Char.ofNat c.toNat = c := Char.ofNat_toNat c
  unfold units
  split
  · rename_i hsmall
    have htoNat : (UInt16.ofNat c.toNat).toNat = c.toNat := UInt16.toNat_ofNat_of_lt hsmall
    have hhigh : isHighSurrogate (UInt16.ofNat c.toNat) = false := by
      rw [← Bool.not_eq_true, high_iff]
      omega
    have hlow : isLowSurrogate (UInt16.ofNat c.toNat) = false := by
      rw [← Bool.not_eq_true, low_iff]
      omega
    have hunit : unitChar (UInt16.ofNat c.toNat) = c := by
      simp only [unitChar, hhigh, hlow, Bool.or_self, Bool.false_eq_true, if_false, htoNat, hc]
    rw [List.singleton_append]
    cases s with
    | nil => simp only [chars, hunit]
    | cons v s => rw [chars, hhigh, Bool.false_and, if_neg (by decide), hunit]
  · rename_i hlarge
    have hsize : UInt16.size = 65536 := rfl
    have hu : (UInt16.ofNat (0xD800 + (c.toNat - 0x10000) / 0x400)).toNat =
        0xD800 + (c.toNat - 0x10000) / 0x400 := UInt16.toNat_ofNat_of_lt (by omega)
    have hv : (UInt16.ofNat (0xDC00 + (c.toNat - 0x10000) % 0x400)).toNat =
        0xDC00 + (c.toNat - 0x10000) % 0x400 := UInt16.toNat_ofNat_of_lt (by omega)
    have hhigh := high_iff.mpr (hu.symm ▸ (by omega : 0xD800 ≤ 0xD800 + (c.toNat - 0x10000) / 0x400 ∧
      0xD800 + (c.toNat - 0x10000) / 0x400 ≤ 0xDBFF))
    have hlow := low_iff.mpr (hv.symm ▸ (by omega : 0xDC00 ≤ 0xDC00 + (c.toNat - 0x10000) % 0x400 ∧
      0xDC00 + (c.toNat - 0x10000) % 0x400 ≤ 0xDFFF))
    rw [List.cons_append, List.singleton_append, chars, hhigh, hlow, Bool.and_self, if_pos rfl, pairChar, hu, hv]
    have hnat : 0x10000 + (0xD800 + (c.toNat - 0x10000) / 0x400 - 0xD800) * 0x400 +
        (0xDC00 + (c.toNat - 0x10000) % 0x400 - 0xDC00) = c.toNat := by omega
    rw [hnat, hc]

/-- Every text of the server is sent back as it was. -/
theorem utf8_ofString (text : String) : (ofString text).utf8 = text := by
  have hchars : ∀ l : List Char, chars (l.flatMap units) = l := by
    intro l
    induction l with
    | nil => rfl
    | cons c l ih => rw [List.flatMap_cons, chars_units, ih]
  rw [utf8, ofString, hchars, String.ofList_toList]

/-- The strings that come back are the well-formed ones. -/
theorem ofString_eq_iff {text : String} {s : JsString} :
    ofString text = s ↔ s.isWellFormed = true ∧ text = s.utf8 := by
  constructor
  · rintro rfl
    have hencoded := ofString_utf8 (ofString text)
    rw [utf8_ofString] at hencoded
    exact ⟨encodeText_eq_iff.mp hencoded.symm, (utf8_ofString text).symm⟩
  · rintro ⟨hwell, rfl⟩
    rw [ofString_utf8, encodeText_of_isWellFormed hwell]

end JsString

end BetterGraphileWorker
