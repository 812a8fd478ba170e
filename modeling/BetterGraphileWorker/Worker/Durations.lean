-- SUMMARY: The durations that options may name, and the timestamps and Dates that come of them.
import BetterGraphileWorker.Database.Tables
import BetterGraphileWorker.Worker.JsValues
import BetterGraphileWorker.Worker.Registry

/-!
# Durations

The validators accept every number of milliseconds that is a safe integer. PostgreSQL makes
intervals of the durations and adds them to `now()` or subtracts them from it; node-postgres
makes Dates of the `run_at` that come of it. Times are microseconds since 1970.
-/

namespace BetterGraphileWorker.Durations

/-! ## Validation -/

/-- `Number.isSafeInteger`, with the integer. -/
def safeInteger? : JsNumber → Option ℤ
  | .finite value => if value.den = 1 ∧ value.num.natAbs ≤ 9007199254740991 then some value.num else none
  | .negativeZero => some 0
  | .nonFinite => none

/-- A `RangeError` has its message; what was checked is returned as an integer. -/
def assertInteger (value : JsNumber) (label : String) (min max : ℤ) : Except String ℕ :=
  match safeInteger? value with
  | some n =>
    if min ≤ n ∧ n ≤ max then .ok n.toNat
    else .error s!"{label} must be an integer between {min} and {max}"
  | none => .error s!"{label} must be an integer between {min} and {max}"

theorem assertInteger_bounds {value : JsNumber} {label : String} {min max n : ℕ}
    (h : assertInteger value label min max = .ok n) : min ≤ n ∧ n ≤ max := by
  unfold assertInteger at h
  split at h
  · split at h
    · rename_i hbounds
      obtain rfl := Except.ok.inj h
      omega
    · cases h
  · cases h

/-- `DURATION_UNITS`. -/
def durationUnit : Char → Option ℕ
  | 's' => some 1000
  | 'm' => some 60000
  | 'h' => some 3600000
  | 'd' => some 86400000
  | _ => none

/-- `/^(\d+)([smhd])$/`, multiplied out. -/
def durationText (text : String) : Option ℕ :=
  match text.toList.reverse with
  | unit :: digits =>
    if digits ≠ [] ∧ digits.all Char.isDigit then
      (durationUnit unit).map (Nat.ofDigitChars 10 digits.reverse 0 * ·)
    else none
  | [] => none

def parseDuration (value : JsValue) (label : String) : Except String ℕ :=
  let ms : Option ℤ :=
    match value with
    | .string text => (durationText text).map Int.ofNat
    | .number n => safeInteger? n
    | _ => none
  match ms with
  | some ms =>
    if 1 ≤ ms ∧ ms ≤ 9007199254740991 then .ok ms.toNat
    else .error s!"{label} must be a positive number of milliseconds or a string such as \"30m\", \"2h\" or \"7d\""
  | none => .error s!"{label} must be a positive number of milliseconds or a string such as \"30m\", \"2h\" or \"7d\""

/-! ## Options -/

/-- `true` and undefined are `{}`. -/
inductive CrashRecovery where
  | off
  | options (heartbeatInterval staleAfter : Option JsNumber)

structure Options where
  idempotencyTtl : Option JsValue
  waitTimeout : Option JsNumber
  /-- `none` for `false` or undefined, else the `retention` given. -/
  jobOutcomes : Option (Option JsNumber)
  crashRecovery : CrashRecovery

def resolveIdempotencyTtl : Option JsValue → Except String ℕ
  | none => .ok 2592000000
  | some value => parseDuration value "idempotencyTtl"

def checkWaitTimeout : Option JsNumber → Except String (Option ℕ)
  | none => .ok none
  | some timeout => do
    let timeout ← assertInteger timeout "Wait timeout" 1 9007199254740991
    .ok (some timeout)

def resolveOutcomeRetention : Option (Option JsNumber) → Except String (Option ℕ)
  | none => .ok none
  | some retention => do
    let retention ← assertInteger (retention.getD (.finite 604800000)) "jobOutcomes.retention"
      1 9007199254740991
    .ok (some retention)

/-- The heartbeat interval and what is stale. -/
def resolveCrashRecovery : CrashRecovery → Except String (Option (ℕ × ℕ))
  | .off => .ok none
  | .options heartbeatInterval staleAfter => do
    let heartbeatInterval ← assertInteger (heartbeatInterval.getD (.finite 30000))
      "crashRecovery.heartbeatInterval" 1 2147483647
    let staleAfter ← assertInteger (staleAfter.getD (.finite 300000)) "crashRecovery.staleAfter"
      (3 * heartbeatInterval) 9007199254740991
    .ok (some (heartbeatInterval, staleAfter))

/-- The durations in milliseconds, those that are off or not given aside. -/
structure Accepted where
  idempotencyTtl : ℕ
  waitTimeout : Option ℕ
  retention : Option ℕ
  staleAfter : Option ℕ
deriving DecidableEq

def resolve (options : Options) : Except String Accepted := do
  let idempotencyTtl ← resolveIdempotencyTtl options.idempotencyTtl
  let waitTimeout ← checkWaitTimeout options.waitTimeout
  let retention ← resolveOutcomeRetention options.jobOutcomes
  let recovery ← resolveCrashRecovery options.crashRecovery
  .ok ⟨idempotencyTtl, waitTimeout, retention, recovery.map Prod.snd⟩

/-! ## What PostgreSQL computes -/

/-- Intervals of milliseconds in microseconds, through doubles of 53 bits. -/
structure Intervals where
  /-- `$1::float8 * interval '1 millisecond'`. -/
  milliseconds : ℕ → ℤ
  /-- `make_interval(secs => $1::double precision / 1000)`. -/
  seconds : ℕ → ℤ
  milliseconds_near : ∀ ms, ms ≤ 9007199254740991 →
    1000 * ms - 512 ≤ milliseconds ms ∧ milliseconds ms ≤ 1000 * ms + 512
  seconds_near : ∀ ms, ms ≤ 9007199254740991 →
    1000 * ms - 1500 ≤ seconds ms ∧ seconds ms ≤ 1000 * ms + 1500

/-- Between 2000-01-01 and 2100-01-01. -/
def Current (now : ℤ) : Prop := 946684800000000 ≤ now ∧ now ≤ 4102444800000000

/-- From 4714-11-24 BC up to 294276 AD. -/
def IsTimestamptz (t : ℤ) : Prop := -210866803200000000 ≤ t ∧ t < 9224318016000000000

/-- An interval's microseconds have 64 bits. -/
def IsInterval (micros : ℤ) : Prop := -9223372036854775808 ≤ micros ∧ micros ≤ 9223372036854775807

/-- A JavaScript Date of the time is valid. -/
def IsDate (t : ℤ) : Prop := -8640000000000000 ≤ t / 1000 ∧ t / 1000 ≤ 8640000000000000

/-- `exp(least(attempts, 10)) * interval '1 second'`. -/
def backoff (attempts : ℤ) : ℤ := graphileBackoff attempts

section
variable (intervals : Intervals) (d : Accepted) (now : ℤ)

/-- The intervals of the durations, and the longest backoff. -/
inductive Spans : ℤ → Prop where
  | idempotencyTtl : Spans (intervals.milliseconds d.idempotencyTtl)
  | waitTimeout {ms : ℕ} (h : d.waitTimeout = some ms) : Spans (intervals.milliseconds ms)
  | retention {ms : ℕ} (h : d.retention = some ms) : Spans (intervals.seconds ms)
  | staleAfter {ms : ℕ} (h : d.staleAfter = some ms) : Spans (intervals.milliseconds ms)
  | backoff (attempts : ℤ) : Spans (backoff attempts)

/-- `coalesce(groups.deadline, NO_DEADLINE)`. -/
def deadline : ℤ :=
  match d.waitTimeout with
  | some ms => now + intervals.milliseconds ms
  | none => 253370764800000000

/-- The `run_at` of a job that waits, until the failure update of its attempt and after it. -/
inductive RunAt : ℤ → Prop where
  | suspended (attempts : ℤ) : RunAt (deadline intervals d now - backoff attempts)
  | retried (attempts : ℤ) {later : ℤ} (h : Current later) :
    RunAt (max later (deadline intervals d now - backoff attempts) + backoff attempts)

/-- The timestamps that the statements compute. -/
inductive Computes : ℤ → Prop where
  | expiresAt : Computes (now + intervals.milliseconds d.idempotencyTtl)
  | deadline : Computes (deadline intervals d now)
  | runAt {t : ℤ} (h : RunAt intervals d now t) : Computes t
  /-- Outcomes that finished before it are deleted. -/
  | retention {ms : ℕ} (h : d.retention = some ms) : Computes (now - intervals.seconds ms)
  /-- Workers that were last seen before it are dead. -/
  | staleAfter {ms : ℕ} (h : d.staleAfter = some ms) : Computes (now - intervals.milliseconds ms)

/-- No accepted duration leaves the range of a type. -/
structure NeverOverflows : Prop where
  interval : ∀ span, Spans intervals d span → IsInterval span
  timestamp : ∀ t, Computes intervals d now t → IsTimestamptz t
  date : ∀ t, RunAt intervals d now t → IsDate t

/-- A wait ends in the range of a Date, and nothing is kept since before 4714 BC. -/
structure Bounded : Prop where
  waitTimeout : ∀ ms ∈ d.waitTimeout, now + intervals.milliseconds ms < 8640000000000001000
  retention : ∀ ms ∈ d.retention, intervals.seconds ms ≤ now + 210866803200000000
  staleAfter : ∀ ms ∈ d.staleAfter, intervals.milliseconds ms ≤ now + 210866803200000000

end

/-! ## Accepted durations are safe integers -/

theorem assertInteger_le {value : JsNumber} {label : String} {min max : ℤ} {n : ℕ} (hmin : 0 ≤ min)
    (h : assertInteger value label min max = .ok n) : (n : ℤ) ≤ max := by
  unfold assertInteger at h
  split at h
  · split at h
    · rename_i hn
      cases h
      omega
    · cases h
  · cases h

theorem parseDuration_le {value : JsValue} {label : String} {n : ℕ}
    (h : parseDuration value label = .ok n) : n ≤ 9007199254740991 := by
  unfold parseDuration at h
  simp only at h
  split at h
  · split at h
    · rename_i hn
      cases h
      omega
    · cases h
  · cases h

private theorem resolveIdempotencyTtl_le {value : Option JsValue} {n : ℕ}
    (h : resolveIdempotencyTtl value = .ok n) : n ≤ 9007199254740991 := by
  cases value with
  | none =>
    cases h
    decide
  | some value => exact parseDuration_le h

private theorem checkWaitTimeout_le {timeout : Option JsNumber} {n : Option ℕ}
    (h : checkWaitTimeout timeout = .ok n) : ∀ ms ∈ n, ms ≤ 9007199254740991 := by
  cases timeout with
  | none =>
    cases h
    rintro _ ⟨⟩
  | some timeout =>
    obtain ⟨ms, hms, h⟩ := Registry.bind_eq_ok.mp h
    cases h
    rintro _ ⟨⟩
    exact Int.ofNat_le.mp (assertInteger_le (by decide) hms)

private theorem resolveOutcomeRetention_le {option : Option (Option JsNumber)} {n : Option ℕ}
    (h : resolveOutcomeRetention option = .ok n) : ∀ ms ∈ n, ms ≤ 9007199254740991 := by
  cases option with
  | none =>
    cases h
    rintro _ ⟨⟩
  | some retention =>
    obtain ⟨ms, hms, h⟩ := Registry.bind_eq_ok.mp h
    cases h
    rintro _ ⟨⟩
    exact Int.ofNat_le.mp (assertInteger_le (by decide) hms)

private theorem resolveCrashRecovery_le {option : CrashRecovery} {n : Option (ℕ × ℕ)}
    (h : resolveCrashRecovery option = .ok n) : ∀ ms ∈ n.map Prod.snd, ms ≤ 9007199254740991 := by
  cases option with
  | off =>
    cases h
    rintro _ ⟨⟩
  | options heartbeatInterval staleAfter =>
    obtain ⟨interval, -, h⟩ := Registry.bind_eq_ok.mp h
    obtain ⟨ms, hms, h⟩ := Registry.bind_eq_ok.mp h
    cases h
    rintro _ ⟨⟩
    exact Int.ofNat_le.mp (assertInteger_le (by omega) hms)

/-- What `resolve` accepts is at most the largest safe integer. -/
structure Accepted.Safe (d : Accepted) : Prop where
  idempotencyTtl : d.idempotencyTtl ≤ 9007199254740991
  waitTimeout : ∀ ms ∈ d.waitTimeout, ms ≤ 9007199254740991
  retention : ∀ ms ∈ d.retention, ms ≤ 9007199254740991
  staleAfter : ∀ ms ∈ d.staleAfter, ms ≤ 9007199254740991

theorem safe_of_resolve {options : Options} {d : Accepted} (h : resolve options = .ok d) : d.Safe := by
  obtain ⟨ttl, httl, h⟩ := Registry.bind_eq_ok.mp h
  obtain ⟨timeout, htimeout, h⟩ := Registry.bind_eq_ok.mp h
  obtain ⟨retention, hretention, h⟩ := Registry.bind_eq_ok.mp h
  obtain ⟨recovery, hrecovery, h⟩ := Registry.bind_eq_ok.mp h
  cases h
  constructor
  · exact resolveIdempotencyTtl_le httl
  · exact checkWaitTimeout_le htimeout
  · exact resolveOutcomeRetention_le hretention
  · exact resolveCrashRecovery_le hrecovery

/-! ## Ranges -/

theorem backoff_bounds (attempts : ℤ) : 0 ≤ backoff attempts ∧ backoff attempts ≤ 22026465795 := by
  refine ⟨graphileBackoff_nonneg attempts, ?_⟩
  unfold backoff graphileBackoff expSeconds
  split <;> try decide
  rename_i n _
  have hmem : ∀ t ∈ expSecondsNeg, t ≤ 22026465795 := by decide
  rw [List.getD_eq_getElem?_getD]
  cases h : expSecondsNeg[n]? with
  | none => decide
  | some t => exact hmem t (List.mem_of_getElem? h)

section
variable {intervals : Intervals} {options : Options} {d : Accepted} {now t : ℤ}

/-- A deadline is not before the wait, and in the range of a Date if the timeout is bounded. -/
theorem deadline_bounds (hsafe : d.Safe) (hnow : Current now) (hbounded : Bounded intervals d now) :
    now - 512 ≤ deadline intervals d now ∧ deadline intervals d now < 8640000000000001000 := by
  unfold Current at hnow
  unfold deadline
  cases htimeout : d.waitTimeout with
  | none =>
    simp only
    omega
  | some ms =>
    have hnear := intervals.milliseconds_near ms (hsafe.waitTimeout ms htimeout)
    have hend := hbounded.waitTimeout ms htimeout
    simp only
    omega

/-- A `run_at` is near the deadline, or a backoff after the present. -/
theorem RunAt.bounds (hsafe : d.Safe) (hnow : Current now) (hbounded : Bounded intervals d now)
    (h : RunAt intervals d now t) : now - 30000000000 ≤ t ∧ t < 8640000000000001000 := by
  have hdeadline := deadline_bounds hsafe hnow hbounded
  unfold Current at hnow
  cases h with
  | suspended attempts =>
    have hbackoff := backoff_bounds attempts
    omega
  | retried attempts hlater =>
    have hbackoff := backoff_bounds attempts
    unfold Current at hlater
    omega

theorem Spans.isInterval {span : ℤ} (hsafe : d.Safe) (h : Spans intervals d span) : IsInterval span := by
  unfold IsInterval
  cases h with
  | idempotencyTtl =>
    have hsafe := hsafe.idempotencyTtl
    have hnear := intervals.milliseconds_near _ hsafe
    omega
  | waitTimeout h =>
    have hsafe := hsafe.waitTimeout _ h
    have hnear := intervals.milliseconds_near _ hsafe
    omega
  | retention h =>
    have hsafe := hsafe.retention _ h
    have hnear := intervals.seconds_near _ hsafe
    omega
  | staleAfter h =>
    have hsafe := hsafe.staleAfter _ h
    have hnear := intervals.milliseconds_near _ hsafe
    omega
  | backoff attempts =>
    have hbackoff := backoff_bounds attempts
    omega

theorem Computes.isTimestamptz (hsafe : d.Safe) (hnow : Current now)
    (hbounded : Bounded intervals d now) (h : Computes intervals d now t) : IsTimestamptz t := by
  unfold IsTimestamptz
  cases h with
  | expiresAt =>
    have hsafe := hsafe.idempotencyTtl
    have hnear := intervals.milliseconds_near _ hsafe
    unfold Current at hnow
    omega
  | deadline =>
    have hdeadline := deadline_bounds hsafe hnow hbounded
    unfold Current at hnow
    omega
  | runAt h =>
    have hbounds := h.bounds hsafe hnow hbounded
    unfold Current at hnow
    omega
  | retention h =>
    have hnear := intervals.seconds_near _ (hsafe.retention _ h)
    have hbegin := hbounded.retention _ h
    unfold Current at hnow
    omega
  | staleAfter h =>
    have hnear := intervals.milliseconds_near _ (hsafe.staleAfter _ h)
    have hbegin := hbounded.staleAfter _ h
    unfold Current at hnow
    omega

/--
For the durations that the validators accept, no interval, timestamp or Date leaves its range
if and only if the wait ends before the end of the Dates, and the retention and the staleness
begin after the begin of the timestamps.
-/
theorem accepted_durations_iff (h : resolve options = .ok d) (hnow : Current now) :
    NeverOverflows intervals d now ↔ Bounded intervals d now := by
  have hsafe := safe_of_resolve h
  constructor
  · intro hnever
    constructor
    · intro ms hms
      have hdate := hnever.date _ (.retried 0 hnow)
      have hdeadline : deadline intervals d now = now + intervals.milliseconds ms := by
        rw [deadline, hms]
      unfold IsDate at hdate
      omega
    · intro ms hms
      have hbegin := (hnever.timestamp _ (.retention hms)).1
      omega
    · intro ms hms
      have hbegin := (hnever.timestamp _ (.staleAfter hms)).1
      omega
  · intro hbounded
    constructor
    · intro span hspan
      exact hspan.isInterval hsafe
    · intro t ht
      exact ht.isTimestamptz hsafe hnow hbounded
    · intro t ht
      have hbounds := ht.bounds hsafe hnow hbounded
      unfold Current at hnow
      unfold IsDate
      omega

end

namespace Trace

/-- Exact up to 2^53 microseconds, and as doubles are from 2^62 on. -/
def intervals : Intervals where
  milliseconds ms := if ms ≤ 9007199254740 then 1000 * ms else (1000 * ms + 512) / 1024 * 1024
  seconds ms := 1000 * ms
  milliseconds_near ms _ := by
    split <;> omega
  seconds_near ms _ := by omega

/-- A week of outcomes, two-day keys, a wait of an hour and the default crash recovery. -/
def usual : Options :=
  ⟨some (.string "2d"), some (.finite 3600000), some none, .options none none⟩

/-- `Number.MAX_SAFE_INTEGER` everywhere. -/
def longest : Options :=
  ⟨some (.number (.finite 9007199254740991)), some (.finite 9007199254740991), none,
    .options none (some (.finite 9007199254740991))⟩

/-- 2026-07-01T00:00:00Z. -/
def now : ℤ := 1782864000000000

end Trace

theorem accepted_durations_usual : resolve Trace.usual =
      .ok ⟨172800000, some 3600000, some 604800000, some 300000⟩ ∧
    NeverOverflows Trace.intervals ⟨172800000, some 3600000, some 604800000, some 300000⟩
      Trace.now := by
  have hresolve : resolve Trace.usual =
      .ok ⟨172800000, some 3600000, some 604800000, some 300000⟩ := by decide
  refine ⟨hresolve, (accepted_durations_iff hresolve (by unfold Current; decide)).mpr ?_⟩
  constructor <;> rintro _ ⟨⟩ <;> decide

/-- The sweep for dead workers throws, and a Date of the deadline is invalid. -/
theorem accepted_durations_overflow : resolve Trace.longest =
      .ok ⟨9007199254740991, some 9007199254740991, none, some 9007199254740991⟩ ∧
    ¬IsTimestamptz (Trace.now - Trace.intervals.milliseconds 9007199254740991) ∧
    ¬IsDate (Trace.now + Trace.intervals.milliseconds 9007199254740991) ∧
    ¬NeverOverflows Trace.intervals
      ⟨9007199254740991, some 9007199254740991, none, some 9007199254740991⟩ Trace.now := by
  have hsweep : ¬IsTimestamptz (Trace.now - Trace.intervals.milliseconds 9007199254740991) := by
    unfold IsTimestamptz
    decide
  refine ⟨by decide, hsweep, ?_, fun hnever => hsweep ?_⟩
  · unfold IsDate
    decide
  · exact hnever.timestamp _ (.staleAfter rfl)

end BetterGraphileWorker.Durations
