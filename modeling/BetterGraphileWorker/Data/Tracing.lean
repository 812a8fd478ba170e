-- SUMMARY: The W3C traceparent: what parses, and that a job's envelope carries the span that enqueued it to the worker.
import Mathlib.Data.Int.Notation
import Mathlib.Data.List.Basic
import BetterGraphileWorker.Data.Payload

/-!
# Tracing

`injectTraceContext` writes the active span of a producer into the envelope as a `traceparent`
text, and `extractProducerLink` reads it from there before the job runs. An envelope is patched
while its job runs, and a continuation gets a copy with a `traceparent` of its own.
-/

namespace BetterGraphileWorker.Tracing

/-! ## Traceparents -/

structure TraceContext where
  traceId : String
  spanId : String
  /-- A number; its lowest byte is sent. -/
  traceFlags : ℤ
deriving DecidableEq

def hexDigits : List Char :=
  ['0', '1', '2', '3', '4', '5', '6', '7', '8', '9', 'a', 'b', 'c', 'd', 'e', 'f']

/-- `(traceFlags & 0xff).toString(16).padStart(2, '0')`. -/
def flagsText (traceFlags : ℤ) : List Char :=
  (Nat.toDigits 16 (traceFlags % 256).toNat).leftpad 2 '0'

def formatTraceparent (traceId spanId : String) (traceFlags : ℤ) : String :=
  "00-" ++ traceId ++ "-" ++ spanId ++ "-" ++ String.ofList (flagsText traceFlags)

/-- `[0-9a-f]{n}`, and what follows it. -/
def hexRun (n : ℕ) (text : List Char) : Option (List Char) :=
  if (text.take n).length = n ∧ (text.take n).all (· ∈ hexDigits) then some (text.drop n) else none

/-- The characters of a pattern, and what follows them. -/
def literal (chars text : List Char) : Option (List Char) :=
  if chars.isPrefixOf text then some (text.drop chars.length) else none

/-- `/^00-[0-9a-f]{32}-[0-9a-f]{16}-[0-9a-f]{2}$/`. -/
def isTraceparent (text : List Char) : Bool :=
  ((literal ['0', '0', '-'] text).bind fun text => (hexRun 32 text).bind fun text =>
    (literal ['-'] text).bind fun text => (hexRun 16 text).bind fun text =>
      (literal ['-'] text).bind fun text => hexRun 2 text) = some []

/-- `Number.parseInt(digits, 16)` of hexadecimal digits. -/
def parseHex (digits : List Char) : ℕ := digits.foldl (fun n c => 16 * n + hexDigits.idxOf c) 0

/-- `/^0+$/`. -/
def allZero (digits : List Char) : Bool := !digits.isEmpty && digits.all (· = '0')

/-- The context of the parts between hyphens. -/
def ofParts : List (List Char) → Option TraceContext
  | [_, traceId, spanId, flags] =>
    if traceId.isEmpty || spanId.isEmpty || flags.isEmpty || allZero traceId || allZero spanId then none
    else some ⟨String.ofList traceId, String.ofList spanId, parseHex flags⟩
  | _ => none

def parseTraceparent (traceparent : String) : Option TraceContext :=
  if isTraceparent traceparent.toList then ofParts (traceparent.toList.splitOn '-') else none

/-- An id of `n` lower case hexadecimal digits, not all of them zero. -/
def IsId (n : ℕ) (id : String) : Prop :=
  id.toList.length = n ∧ (∀ c ∈ id.toList, c ∈ hexDigits) ∧ ∃ c ∈ id.toList, c ≠ '0'

theorem isId_iff (n : ℕ) (id : String) : id.toList.length = n ∧
    id.toList.all (· ∈ hexDigits) = true ∧ id.toList.any (· ≠ '0') = true ↔ IsId n id := by
  simp [IsId]

instance (n : ℕ) (id : String) : Decidable (IsId n id) := decidable_of_iff _ (isId_iff n id)

def TraceContext.WellFormed (context : TraceContext) : Prop :=
  IsId 32 context.traceId ∧ IsId 16 context.spanId

instance (context : TraceContext) : Decidable context.WellFormed := by
  unfold TraceContext.WellFormed; infer_instance

section
variable {n : ℕ} {chars text rest : List Char}

theorem hexRun_eq_some_iff : hexRun n text = some rest ↔
    ∃ digits, text = digits ++ rest ∧ digits.length = n ∧ ∀ c ∈ digits, c ∈ hexDigits := by
  unfold hexRun
  constructor
  · intro h
    split at h
    · rename_i hdigits
      obtain rfl := Option.some.inj h
      refine ⟨text.take n, (List.take_append_drop n text).symm, hdigits.1, ?_⟩
      simpa using hdigits.2
    · cases h
  · rintro ⟨digits, rfl, rfl, hdigits⟩
    have hall : digits.all (fun c => decide (c ∈ hexDigits)) = true :=
      List.all_eq_true.mpr fun c hc => decide_eq_true (hdigits c hc)
    rw [List.take_left, List.drop_left, if_pos ⟨rfl, hall⟩]

theorem literal_eq_some_iff : literal chars text = some rest ↔ text = chars ++ rest := by
  unfold literal
  constructor
  · intro h
    split at h
    · rename_i hprefix
      obtain ⟨rest', rfl⟩ := List.isPrefixOf_iff_prefix.mp hprefix
      rw [List.drop_left] at h
      rw [Option.some.inj h]
    · cases h
  · rintro rfl
    rw [if_pos (List.isPrefixOf_iff_prefix.mpr (List.prefix_append _ _)), List.drop_left]

/-- A traceparent is three runs of digits behind its version. -/
theorem isTraceparent_iff : isTraceparent text = true ↔ ∃ traceId spanId flags,
    text = ['0', '0', '-'] ++ (traceId ++ (['-'] ++ (spanId ++ (['-'] ++ flags)))) ∧
      (traceId.length = 32 ∧ ∀ c ∈ traceId, c ∈ hexDigits) ∧
      (spanId.length = 16 ∧ ∀ c ∈ spanId, c ∈ hexDigits) ∧
      flags.length = 2 ∧ ∀ c ∈ flags, c ∈ hexDigits := by
  simp only [isTraceparent, decide_eq_true_eq, Option.bind_eq_some_iff, literal_eq_some_iff,
    hexRun_eq_some_iff]
  constructor
  · rintro ⟨_, rfl, _, ⟨traceId, rfl, htrace⟩, _, rfl, _, ⟨spanId, rfl, hspan⟩, _, rfl, flags, rfl, hflags⟩
    exact ⟨traceId, spanId, flags, by rw [List.append_nil], htrace, hspan, hflags⟩
  · rintro ⟨traceId, spanId, flags, rfl, htrace, hspan, hflags⟩
    exact ⟨_, rfl, _, ⟨traceId, rfl, htrace⟩, _, rfl, _, ⟨spanId, rfl, hspan⟩, _, rfl, flags,
      (List.append_nil _).symm, hflags⟩

theorem hyphen_of_hex (h : ∀ c ∈ text, c ∈ hexDigits) : '-' ∉ text :=
  fun hmem => absurd (h '-' hmem) (by decide)

/-- Its parts are what the hyphens separate. -/
theorem splitOn_traceparent {traceId spanId flags : List Char} (htrace : ∀ c ∈ traceId, c ∈ hexDigits)
    (hspan : ∀ c ∈ spanId, c ∈ hexDigits) (hflags : ∀ c ∈ flags, c ∈ hexDigits) :
    (['0', '0', '-'] ++ (traceId ++ (['-'] ++ (spanId ++ (['-'] ++ flags))))).splitOn '-' =
      [['0', '0'], traceId, spanId, flags] := by
  have hparts : ∀ l ∈ [['0', '0'], traceId, spanId, flags], '-' ∉ l := by
    intro l hl
    simp only [List.mem_cons, List.not_mem_nil, or_false] at hl
    rcases hl with rfl | rfl | rfl | rfl
    · decide
    · exact hyphen_of_hex htrace
    · exact hyphen_of_hex hspan
    · exact hyphen_of_hex hflags
  have hjoin : ['-'].intercalate [['0', '0'], traceId, spanId, flags] =
      ['0', '0', '-'] ++ (traceId ++ (['-'] ++ (spanId ++ (['-'] ++ flags)))) := by
    simp [List.intercalate]
  rw [← hjoin, List.splitOn_intercalate '-' hparts (List.cons_ne_nil _ _)]

end

/-! ## Flags -/

theorem digitChar_hex : ∀ n < 16, Nat.digitChar n ∈ hexDigits ∧ hexDigits.idxOf (Nat.digitChar n) = n := by
  decide

theorem idxOf_hex {c : Char} (h : c ∈ hexDigits) :
    hexDigits.idxOf c < 16 ∧ Nat.digitChar (hexDigits.idxOf c) = c := by
  have hdigits : hexDigits = (List.range 16).map Nat.digitChar := by decide
  rw [hdigits, List.mem_map] at h
  obtain ⟨n, hmem, rfl⟩ := h
  have hn := List.mem_range.mp hmem
  rw [(digitChar_hex n hn).2]
  exact ⟨hn, rfl⟩

theorem parseHex_pair (c c' : Char) :
    parseHex [c, c'] = 16 * hexDigits.idxOf c + hexDigits.idxOf c' := by
  simp [parseHex]

/-- The digits of a byte, a zero in front of a single one. -/
theorem flagsText_of_lt {n : ℕ} (h : n < 256) :
    flagsText n = [Nat.digitChar (n / 16), Nat.digitChar (n % 16)] := by
  have hbyte : ((n : ℤ) % 256).toNat = n := by omega
  rw [flagsText, hbyte]
  rcases Nat.lt_or_ge n 16 with hsmall | hlarge
  · rw [Nat.toDigits_of_lt_base hsmall, Nat.div_eq_of_lt hsmall, Nat.mod_eq_of_lt hsmall]
    rfl
  · rw [Nat.toDigits_of_base_le (by decide) hlarge, Nat.toDigits_of_lt_base (by omega)]
    rfl

/-- Every byte has two digits, which are read back as the byte. -/
theorem parseHex_flagsText {n : ℕ} (h : n < 256) : (flagsText n).length = 2 ∧
    (∀ c ∈ flagsText n, c ∈ hexDigits) ∧ parseHex (flagsText n) = n := by
  obtain ⟨hhigh, hread⟩ := digitChar_hex (n / 16) (by omega)
  obtain ⟨hlow, hread'⟩ := digitChar_hex (n % 16) (by omega)
  rw [flagsText_of_lt h]
  refine ⟨rfl, ?_, ?_⟩
  · simpa using ⟨hhigh, hlow⟩
  · rw [parseHex_pair, hread, hread']
    omega

theorem flagsText_parseHex {c c' : Char} (hc : c ∈ hexDigits) (hc' : c' ∈ hexDigits) :
    parseHex [c, c'] < 256 ∧ flagsText (parseHex [c, c'] : ℕ) = [c, c'] := by
  obtain ⟨hlt, hchar⟩ := idxOf_hex hc
  obtain ⟨hlt', hchar'⟩ := idxOf_hex hc'
  have hhigh : (16 * hexDigits.idxOf c + hexDigits.idxOf c') / 16 = hexDigits.idxOf c := by omega
  have hlow : (16 * hexDigits.idxOf c + hexDigits.idxOf c') % 16 = hexDigits.idxOf c' := by omega
  rw [parseHex_pair]
  refine ⟨by omega, ?_⟩
  rw [flagsText_of_lt (by omega), hhigh, hlow, hchar, hchar']

theorem flagsText_mod (n : ℤ) : flagsText n = flagsText ((n % 256).toNat : ℕ) := by
  unfold flagsText
  congr 2
  have hnonneg : 0 ≤ n % 256 := Int.emod_nonneg n (by decide)
  have hlt : n % 256 < 256 := Int.emod_lt_of_pos n (by decide)
  omega

theorem flagsText_digits (n : ℤ) : (flagsText n).length = 2 ∧ (∀ c ∈ flagsText n, c ∈ hexDigits) ∧
    parseHex (flagsText n) = n % 256 := by
  have hnonneg : 0 ≤ n % 256 := Int.emod_nonneg n (by decide)
  have hlt : n % 256 < 256 := Int.emod_lt_of_pos n (by decide)
  obtain ⟨hlength, hhex, hparse⟩ := parseHex_flagsText (by omega : (n % 256).toNat < 256)
  rw [flagsText_mod]
  exact ⟨hlength, hhex, by rw [hparse]; omega⟩

/-! ## What parses -/

section
variable {traceId spanId text : String} {context : TraceContext}

theorem toList_formatTraceparent (traceId spanId : String) (traceFlags : ℤ) :
    (formatTraceparent traceId spanId traceFlags).toList = ['0', '0', '-'] ++ (traceId.toList ++
      (['-'] ++ (spanId.toList ++ (['-'] ++ flagsText traceFlags)))) := by
  simp [formatTraceparent]

private theorem not_allZero {n : ℕ} {id : String} (h : IsId n id) : allZero id.toList = false := by
  obtain ⟨-, -, c, hmem, hne⟩ := h
  unfold allZero
  rw [Bool.and_eq_false_iff]
  refine .inr (Bool.eq_false_iff.mpr fun hall => hne ?_)
  exact of_decide_eq_true (List.all_eq_true.mp hall c hmem)

private theorem isId_of_not_allZero {n : ℕ} {id : List Char} (hn : 0 < n) (hlength : id.length = n)
    (hhex : ∀ c ∈ id, c ∈ hexDigits) (hzero : ¬allZero id = true) : IsId n (String.ofList id) := by
  rw [IsId, String.toList_ofList]
  refine ⟨hlength, hhex, ?_⟩
  by_contra hall
  refine hzero ?_
  have hne : id ≠ [] := by
    rintro rfl
    rw [List.length_nil] at hlength
    omega
  rw [allZero, Bool.and_eq_true, List.all_eq_true]
  refine ⟨by simpa using hne, fun c hc => decide_eq_true ?_⟩
  by_contra hc0
  exact hall ⟨c, hc, hc0⟩

private theorem ofParts_eq_some {version traceId spanId flags : List Char}
    (h : ofParts [version, traceId, spanId, flags] = some context) :
    ¬allZero traceId = true ∧ ¬allZero spanId = true ∧
      context = ⟨String.ofList traceId, String.ofList spanId, parseHex flags⟩ := by
  rw [ofParts] at h
  split at h
  · cases h
  · rename_i hzero
    simp only [Bool.or_eq_true, not_or] at hzero
    exact ⟨hzero.1.2, hzero.2, (Option.some.inj h).symm⟩

private theorem ofParts_of_ids {version flags : List Char} (htrace : IsId 32 traceId)
    (hspan : IsId 16 spanId) (hflags : flags.length = 2) :
    ofParts [version, traceId.toList, spanId.toList, flags] = some ⟨traceId, spanId, parseHex flags⟩ := by
  have hne : ∀ {l : List Char} {n : ℕ}, l.length = n → 0 < n → l.isEmpty = false := by
    intro l n hlength hn
    cases l with
    | nil =>
      rw [List.length_nil] at hlength
      omega
    | cons c l => rfl
  rw [ofParts, hne htrace.1 (by decide), hne hspan.1 (by decide), hne hflags (by decide), not_allZero htrace,
    not_allZero hspan, String.ofList_toList, String.ofList_toList]
  rfl

theorem parseTraceparent_eq_some_iff : parseTraceparent text = some context ↔
    context.WellFormed ∧ 0 ≤ context.traceFlags ∧ context.traceFlags < 256 ∧
      text = formatTraceparent context.traceId context.spanId context.traceFlags := by
  unfold parseTraceparent
  constructor
  · intro h
    split at h
    · rename_i hpattern
      obtain ⟨traceId, spanId, flags, htext, htrace, hspan, hlength, hflags⟩ :=
        isTraceparent_iff.mp hpattern
      rw [htext, splitOn_traceparent htrace.2 hspan.2 hflags] at h
      obtain ⟨htrace0, hspan0, rfl⟩ := ofParts_eq_some h
      obtain ⟨c, c', rfl⟩ := List.length_eq_two.mp hlength
      obtain ⟨hlt, hroundtrip⟩ := flagsText_parseHex (hflags c (by simp)) (hflags c' (by simp))
      refine ⟨⟨isId_of_not_allZero (by decide) htrace.1 htrace.2 htrace0,
        isId_of_not_allZero (by decide) hspan.1 hspan.2 hspan0⟩, Int.natCast_nonneg _,
        Int.ofNat_lt.mpr hlt, ?_⟩
      apply String.toList_injective
      rw [htext, toList_formatTraceparent, hroundtrip, String.toList_ofList, String.toList_ofList]
    · cases h
  · rintro ⟨⟨htrace, hspan⟩, hnonneg, hlt, rfl⟩
    obtain ⟨hlength, hhex, hparse⟩ := flagsText_digits context.traceFlags
    have hpattern := isTraceparent_iff.mpr ⟨_, _, _, toList_formatTraceparent context.traceId
      context.spanId context.traceFlags, ⟨htrace.1, htrace.2.1⟩, ⟨hspan.1, hspan.2.1⟩, hlength, hhex⟩
    rw [if_pos hpattern, toList_formatTraceparent, splitOn_traceparent htrace.2.1 hspan.2.1 hhex,
      ofParts_of_ids htrace hspan hlength, hparse, Int.emod_eq_of_lt hnonneg hlt]

/-- Only one choice of parts without hyphens and with two digits at the end makes a text. -/
theorem parts_unique {trace span flags trace' span' flags' : List Char} (htrace : '-' ∉ trace')
    (hspan : '-' ∉ span') (hflags : flags.length = 2) (hflags' : flags'.length = 2)
    (h : trace ++ (['-'] ++ (span ++ (['-'] ++ flags))) =
      trace' ++ (['-'] ++ (span' ++ (['-'] ++ flags')))) : trace = trace' ∧ span = span' := by
  have htail : ∀ {l l' : List Char}, l ++ (['-'] ++ flags) = l' ++ (['-'] ++ flags') → l = l' :=
    fun h => List.append_inj_left' h (by simp [hflags, hflags'])
  rcases List.append_eq_append_iff.mp h with ⟨more, rfl, hrest⟩ | ⟨more, rfl, hrest⟩
  · cases more with
    | nil => exact ⟨(List.append_nil _).symm, htail (List.cons.inj hrest).2⟩
    | cons c more =>
      obtain ⟨rfl, -⟩ := List.cons.inj hrest
      exact absurd (List.mem_append_right _ List.mem_cons_self) htrace
  · cases more with
    | nil => exact ⟨List.append_nil _, htail (List.cons.inj hrest).2.symm⟩
    | cons c more =>
      -- The first hyphen is inside of `trace`, which leaves too little behind the second one.
      have hinner : span' ++ (['-'] ++ flags') = more ++ (['-'] ++ (span ++ (['-'] ++ flags))) :=
        (List.cons.inj hrest).2
      rcases List.append_eq_append_iff.mp hinner with ⟨more', -, hrest'⟩ | ⟨more', rfl, hrest'⟩
      · have hlength := congrArg List.length hrest'
        simp only [List.length_append, List.length_cons, List.length_nil, hflags, hflags'] at hlength
        omega
      · cases more' with
        | nil =>
          have hlength := congrArg List.length hrest'
          simp only [List.length_append, List.length_cons, List.length_nil, hflags, hflags'] at hlength
          omega
        | cons c' more' =>
          obtain ⟨rfl, -⟩ := List.cons.inj hrest'
          exact absurd (List.mem_append_right _ List.mem_cons_self) hspan

/-- A formatted context parses if its ids are well-formed. -/
theorem parseTraceparent_format (context : TraceContext) :
    parseTraceparent (formatTraceparent context.traceId context.spanId context.traceFlags) =
      if context.WellFormed then some { context with traceFlags := context.traceFlags % 256 } else none := by
  have hmod : formatTraceparent context.traceId context.spanId context.traceFlags =
      formatTraceparent context.traceId context.spanId (context.traceFlags % 256) := by
    simp only [formatTraceparent, flagsText, Int.emod_emod_of_dvd _ (Int.dvd_refl 256)]
  split
  · rename_i hwf
    rw [parseTraceparent_eq_some_iff]
    exact ⟨hwf, Int.emod_nonneg _ (by decide), Int.emod_lt_of_pos _ (by decide), hmod⟩
  -- What parses is formatted of well-formed ids, and the text has only one way to be split.
  · rename_i hnot
    cases hparse : parseTraceparent
        (formatTraceparent context.traceId context.spanId context.traceFlags) with
    | none => rfl
    | some context' =>
      obtain ⟨⟨htrace, hspan⟩, -, -, htext⟩ := parseTraceparent_eq_some_iff.mp hparse
      have hchars := congrArg String.toList htext
      rw [toList_formatTraceparent, toList_formatTraceparent] at hchars
      obtain ⟨htrace', hspan'⟩ := parts_unique (hyphen_of_hex htrace.2.1) (hyphen_of_hex hspan.2.1)
        (flagsText_digits _).1 (flagsText_digits _).1 (List.append_cancel_left hchars)
      refine absurd ?_ hnot
      exact ⟨String.toList_injective htrace' ▸ htrace, String.toList_injective hspan' ▸ hspan⟩

end

/--
A text parses exactly if it is formatted of well-formed ids, and as what it is formatted of; of
other ids none is formatted that parses, and of the flags the lowest byte is sent.
-/
theorem traceparent_format :
    (∀ text context, parseTraceparent text = some context ↔
      context.WellFormed ∧ 0 ≤ context.traceFlags ∧ context.traceFlags < 256 ∧
        text = formatTraceparent context.traceId context.spanId context.traceFlags) ∧
    ∀ context : TraceContext,
      parseTraceparent (formatTraceparent context.traceId context.spanId context.traceFlags) =
        if context.WellFormed then some { context with traceFlags := context.traceFlags % 256 } else none :=
  ⟨fun _ _ => parseTraceparent_eq_some_iff, parseTraceparent_format⟩

/-! ## Envelopes -/

/-- What the tracing API answers when it is asked for the active span. -/
inductive ActiveSpan where
  | throws
  /-- There is no API, no active span, or its context is not valid. -/
  | inactive
  | span (context : TraceContext)

/-- The tracing API at an enqueue. -/
structure TracingApi where
  /-- What `propagation.inject` does, if there is a propagation API: it throws, or it may write a `traceparent`. -/
  inject : Option (Except Unit (Option String))
  active : ActiveSpan

def getActiveTraceContext : ActiveSpan → Except Unit (Option TraceContext)
  | .throws => .error ()
  | .inactive => .ok none
  | .span context => .ok (some context)

def formatActive (active : ActiveSpan) : Except Unit (Option String) :=
  (getActiveTraceContext active).map (Option.map fun context =>
    formatTraceparent context.traceId context.spanId context.traceFlags)

/-- Without a `traceparent` of the propagator the active span's own is formatted. -/
def getActiveTraceparent (api : TracingApi) : Except Unit (Option String) :=
  match api.inject with
  | some (.error e) => .error e
  | some (.ok (some traceparent)) => if traceparent ≠ "" then .ok (some traceparent) else formatActive api.active
  | some (.ok none) | none => formatActive api.active

/-- A text that does not parse is not sent, and optional tracing cannot prevent enqueue. -/
def sendable : Except Unit (Option String) → Option String
  | .ok (some traceparent) => if (parseTraceparent traceparent).isSome then some traceparent else none
  | .ok none | .error _ => none

/-- The `traceparent` of `injectTraceContext`. -/
def injectedTraceparent (api : TracingApi) : Option String := sendable (getActiveTraceparent api)

/-- The link and the clean payload; `none` where it throws. -/
def extractProducerLink (payload : Json) : Option (Option TraceContext × Option Json) :=
  if Payload.isPayloadEnvelope payload then
    let parsed := match payload.get? "traceparent" with
      | some (.str traceparent) => parseTraceparent traceparent
      | _ => none
    some (parsed, Payload.cleanPayload payload)
  else none

/-- The propagator writes no `traceparent` but that of the active span. -/
def TracingApi.Propagates (api : TracingApi) : Prop :=
  ∀ traceparent, api.inject = some (.ok (some traceparent)) → traceparent ≠ "" →
    ∃ context, api.active = .span context ∧
      traceparent = formatTraceparent context.traceId context.spanId context.traceFlags

/-- The link that leads back to the active span, if its ids can be sent. -/
def spanLink : ActiveSpan → Option TraceContext
  | .span context =>
    if context.WellFormed then some { context with traceFlags := context.traceFlags % 256 } else none
  | .inactive | .throws => none

/-- There is none if the propagator throws. -/
def linkOf (api : TracingApi) : Option TraceContext :=
  match api.inject with
  | some (.error _) => none
  | some (.ok _) | none => spanLink api.active

/-- The envelopes of a job and its continuations: where they were enqueued, and the first one's data. -/
inductive Carries : Json → TracingApi → Option Json → Prop where
  | enqueued (data : Option Json) (api : TracingApi) :
      Carries (Payload.injectTraceContext data (injectedTraceparent api)) api data
  | checkpointed {payload : Json} {api : TracingApi} {data : Option Json} (id : String)
      (checkpoint : Json) (h : Carries payload api data) :
      Carries (Payload.setStep payload id checkpoint) api data
  | progressed {payload : Json} {api : TracingApi} {data : Option Json} (value : Json)
      (h : Carries payload api data) : Carries (Payload.setProgress payload value) api data
  | waited {payload : Json} {api : TracingApi} {data : Option Json}
      (h : Carries payload api data) : Carries (Payload.markWaited payload) api data
  | continued {payload : Json} {api : TracingApi} {data : Option Json}
      (progress : Option Json) (api' : TracingApi) (h : Carries payload api data) :
      Carries (Payload.continueEnvelope payload progress (injectedTraceparent api')) api' data

section
variable {payload field : Json} {key : String} {link : Option TraceContext} {data : Option Json}
  {api : TracingApi}

private theorem parse_formatted (active : ActiveSpan) :
    (sendable (formatActive active)).bind parseTraceparent = spanLink active := by
  cases active with
  | throws | inactive => rfl
  | span context =>
    have hparse := parseTraceparent_format context
    change (if (parseTraceparent (formatTraceparent context.traceId context.spanId
      context.traceFlags)).isSome then some _ else none).bind parseTraceparent = _
    rw [spanLink, ← hparse]
    split
    · rfl
    · rename_i hnone
      exact (Option.not_isSome_iff_eq_none.mp hnone).symm

/-- What is sent leads back to the active span. -/
theorem parse_injected (h : api.Propagates) : (injectedTraceparent api).bind parseTraceparent = linkOf api := by
  obtain ⟨inject, active⟩ := api
  cases inject with
  | none => exact parse_formatted active
  | some injected =>
    cases injected with
    | error e => rfl
    | ok written =>
      cases written with
      | none => exact parse_formatted active
      -- The propagator writes what the active span is formatted to, unless it is empty.
      | some traceparent =>
        have hsent : getActiveTraceparent ⟨some (.ok (some traceparent)), active⟩ = formatActive active := by
          by_cases hempty : traceparent = ""
          · exact if_neg (not_not.mpr hempty)
          · obtain ⟨context, hactive, htext⟩ := h traceparent rfl hempty
            obtain rfl : active = .span context := hactive
            subst htext
            rw [getActiveTraceparent]
            simp only [ne_eq, hempty, not_false_eq_true, if_true]
            rfl
        rw [injectedTraceparent, hsent]
        exact parse_formatted active

/-- An envelope with a `traceparent` or none, of which the link is read. -/
theorem extractProducerLink_of_get? {traceparent : Option String}
    (henv : Payload.isPayloadEnvelope payload = true)
    (hget : payload.get? "traceparent" = traceparent.map .str) :
    extractProducerLink payload = some (traceparent.bind parseTraceparent, Payload.cleanPayload payload) := by
  simp only [extractProducerLink, henv, if_true, hget]
  cases traceparent <;> rfl

theorem envelope_injected (data : Option Json) (traceparent : Option String) :
    Payload.isPayloadEnvelope (Payload.injectTraceContext data traceparent) = true ∧
      Payload.cleanPayload (Payload.injectTraceContext data traceparent) = data ∧
      (Payload.injectTraceContext data traceparent).get? "traceparent" = traceparent.map .str := by
  cases data <;> cases traceparent <;> exact ⟨rfl, rfl, rfl⟩

/-- A patch of another field leaves the link and the data alone. -/
private theorem extracts_set
    (h : Payload.isPayloadEnvelope payload = true ∧ extractProducerLink payload = some (link, data))
    (hkey : key ≠ "__bgw" ∧ key ≠ "payload" ∧ key ≠ "payloadUndefined") (htrace : key ≠ "traceparent") :
    Payload.isPayloadEnvelope (payload.set key field) = true ∧
      extractProducerLink (payload.set key field) = some (link, data) := by
  obtain ⟨henv, hextract⟩ := h
  have hobj := Payload.isObject_of_isPayloadEnvelope henv
  refine ⟨(Payload.isPayloadEnvelope_set hobj hkey).trans henv, ?_⟩
  rw [← hextract]
  simp only [extractProducerLink, Payload.isPayloadEnvelope_set hobj hkey,
    Payload.cleanPayload_set hobj hkey, Json.get?_set hobj, if_neg htrace.symm]

private theorem envelope_continued (henv : Payload.isPayloadEnvelope payload = true)
    (progress : Option Json) (traceparent : Option String) :
    Payload.isPayloadEnvelope (Payload.continueEnvelope payload progress traceparent) = true ∧
      Payload.cleanPayload (Payload.continueEnvelope payload progress traceparent) =
        Payload.cleanPayload payload ∧
      (Payload.continueEnvelope payload progress traceparent).get? "traceparent" = traceparent.map .str := by
  have hobj := Payload.isObject_of_isPayloadEnvelope henv
  have hinput : ∀ key, Payload.IsInputField key →
      (Payload.continueEnvelope payload progress traceparent).get? key = payload.get? key :=
    fun key h => Payload.get?_continueEnvelope key hobj progress traceparent (h.ne (by decide))
      (h.ne (by decide)) (h.ne (by decide))
  refine ⟨?_, Payload.cleanPayload_congr hinput, ?_⟩
  · rw [Payload.isPayloadEnvelope_congr (Payload.isObject_continueEnvelope _ _) hinput, henv]
  · unfold Payload.continueEnvelope
    cases progress <;> cases traceparent <;> simp [Json.get?_set, Json.get?_remove, hobj]

private theorem carries_extracts (h : Carries payload api data) :
    Payload.isPayloadEnvelope payload = true ∧
      extractProducerLink payload = some ((injectedTraceparent api).bind parseTraceparent, data) := by
  -- Patches keep both; a continuation keeps the data and replaces the link.
  induction h with
  | enqueued data api =>
    obtain ⟨henv, hclean, hget⟩ := envelope_injected data (injectedTraceparent api)
    refine ⟨henv, ?_⟩
    rw [extractProducerLink_of_get? henv hget, hclean]
  | checkpointed id checkpoint h ih => exact extracts_set ih (by decide) (by decide)
  | progressed value h ih => exact extracts_set ih (by decide) (by decide)
  | waited h ih => exact extracts_set ih (by decide) (by decide)
  | @continued payload api data progress api' h ih =>
    obtain ⟨henv, hextract⟩ := ih
    obtain ⟨henv', hclean, hget⟩ := envelope_continued henv progress (injectedTraceparent api')
    refine ⟨henv', ?_⟩
    have hdata : Payload.cleanPayload payload = data := by
      simp only [extractProducerLink, henv, if_true] at hextract
      exact (Prod.mk.inj (Option.some.inj hextract)).2
    rw [extractProducerLink_of_get? henv' hget, hclean, hdata]

/--
Every run of a job and of its continuations is linked to the span that was active when it was
enqueued, and gets the data of the first producer, whatever its envelope went through.
-/
theorem producer_linked (h : Carries payload api data) (hpropagates : api.Propagates) :
    extractProducerLink payload = some (linkOf api, data) := by
  rw [(carries_extracts h).2, parse_injected hpropagates]

end

namespace ContinuedTrace

def spanned (traceFlags : ℤ) : TraceContext :=
  ⟨String.ofList (List.replicate 32 'a'), String.ofList (List.replicate 16 'b'), traceFlags⟩

theorem isId_replicate {n : ℕ} {c : Char} (hn : n ≠ 0) (hc : c ∈ hexDigits) (hc0 : c ≠ '0') :
    IsId n (String.ofList (List.replicate n c)) := by
  rw [IsId, String.toList_ofList]
  refine ⟨List.length_replicate, fun d hd => ?_, c, List.mem_replicate.mpr ⟨hn, rfl⟩, hc0⟩
  rw [List.eq_of_mem_replicate hd]
  exact hc

/-- An active span without a propagator, whose flags do not fit a byte. -/
def first : TracingApi := ⟨none, .span (spanned 257)⟩

/-- A W3C propagator, which writes the flags of the active span as one digit behind a zero. -/
def w3c (context : TraceContext) : TracingApi where
  inject := some (.ok (some ("00-" ++ context.traceId ++ "-" ++ context.spanId ++ "-" ++
    String.ofList ('0' :: Nat.toDigits 16 context.traceFlags.toNat))))
  active := .span context

theorem w3c_propagates : (w3c (spanned 1)).Propagates := by
  rintro traceparent hinject -
  refine ⟨spanned 1, rfl, ?_⟩
  have htext := Option.some.inj (Except.ok.inj (Option.some.inj hinject))
  have hflags : flagsText 1 = ['0', '1'] := flagsText_of_lt (by decide : 1 < 256)
  rw [← htext, formatTraceparent]
  change _ = _ ++ String.ofList (flagsText 1)
  rw [hflags]
  rfl

/-- Enqueued and waited on. -/
def waiting : Json := Payload.markWaited (Payload.injectTraceContext (some (.num 7)) (injectedTraceparent first))

def payload : Json := Payload.continueEnvelope waiting none (injectedTraceparent (w3c (spanned 1)))

end ContinuedTrace

open ContinuedTrace in
/-- The first run is linked to the span that the worker formats, its continuation to the propagator's. -/
theorem producer_linked_continued :
    extractProducerLink waiting = some (some (spanned 1), some (.num 7)) ∧
      extractProducerLink payload = some (some (spanned 1), some (.num 7)) := by
  have hwf (traceFlags : ℤ) : (spanned traceFlags).WellFormed :=
    ⟨isId_replicate (by decide) (by decide) (by decide), isId_replicate (by decide) (by decide) (by decide)⟩
  have hlink : linkOf first = some (spanned 1) := by
    change spanLink (.span (spanned 257)) = _
    rw [spanLink, if_pos (hwf 257)]
    rfl
  have hlink' : linkOf (w3c (spanned 1)) = some (spanned 1) := by
    change spanLink (.span (spanned 1)) = _
    rw [spanLink, if_pos (hwf 1)]
    rfl
  have hfirst : Carries waiting first (some (.num 7)) := .waited (.enqueued (some (.num 7)) first)
  constructor
  · rw [← hlink]
    exact producer_linked hfirst fun _ hinject => by cases hinject
  · rw [← hlink']
    exact producer_linked (.continued none (w3c (spanned 1)) hfirst) w3c_propagates

end BetterGraphileWorker.Tracing
