import PaymentsProcessor.Database
import PaymentsProcessor.OutboxDispatcher.Dispatching
import Mathlib.Algebra.Order.Monoid.WithTop
import Mathlib.Tactic.Positivity

namespace PaymentsProcessor

open Python Concurrency PaymentsConstants

-- A positive setting without its rounding. `⊤` is an infinite one.
def extended : PyFloat → WithTop ℚ
  | .finite q => q
  | _ => ⊤

-- What the backoff of a row is meant to be: `min(cap, initial * 2 ** attempts)`.
def exact_backoff (config : OutboxDispatcherConfig) (attempts : ℕ) : WithTop ℚ :=
  min (extended config.OUTBOX_BACKOFF_MAX_SECONDS)
    ((extended config.OUTBOX_BACKOFF_INITIAL_SECONDS).map fun q => q * 2 ^ attempts)

def Positive (x : PyFloat) : Prop := (PyFloat.finite 0).lt x = true

-- The instant so many seconds later, to the microsecond.
def later (now : DateTime) (seconds : ℚ) : DateTime := now + roundHalfEven (seconds * 1000000)

-- So many seconds are a time delta, and lead to a date that there is.
def Datable (now : DateTime) (seconds : ℚ) : Prop :=
  roundHalfEven (seconds * 1000000) < 1000000000 * 86400000000 ∧
    DateTime.min ≤ later now seconds ∧ later now seconds ≤ DateTime.max

section Floats

theorem positive_iff {x : PyFloat} :
    Positive x ↔ (∃ q, x = .finite q ∧ 0 < q) ∨ x = .inf false := by
  cases x with
  | finite q => simp [Positive, PyFloat.lt]
  | inf b => simp [Positive, PyFloat.lt]
  | nan => simp [Positive, PyFloat.lt]

theorem floor_le_roundHalfEven (q : ℚ) : ⌊q⌋ ≤ roundHalfEven q := by
  unfold roundHalfEven
  simp only
  split
  · omega
  · split
    · omega
    · split <;> omega

theorem roundHalfEven_le_floor (q : ℚ) : roundHalfEven q ≤ ⌊q⌋ + 1 := by
  unfold roundHalfEven
  simp only
  split
  · omega
  · split
    · omega
    · split <;> omega

theorem lt_limit {seconds : ℚ}
    (h : roundHalfEven (seconds * 1000000) < 1000000000 * 86400000000) :
    seconds < PyFloat.limit := by
  have hfloor : ⌊seconds * 1000000⌋ < 1000000000 * 86400000000 :=
    (floor_le_roundHalfEven _).trans_lt h
  have hlt : seconds * 1000000 < 1000000000 * 86400000000 := by exact_mod_cast Int.floor_lt.mp hfloor
  have hlimit : (1000000000 * 86400000000 : ℚ) ≤ PyFloat.limit := calc
    (1000000000 * 86400000000 : ℚ) ≤ 2 ^ 100 := by norm_num
    _ ≤ PyFloat.limit := pow_le_pow_right₀ (by norm_num) (by norm_num)
  linarith

-- The bounds of time deltas and dates are all that can stop a positive delay.
theorem add_timedelta_iff {now t : DateTime} {seconds : ℚ} (hpos : 0 < seconds) :
    ((timedelta (.finite seconds)).bind fun delta => DateTime.add now delta) = .ok t ↔
      Datable now seconds ∧ t = later now seconds := by
  have hnonneg : 0 ≤ roundHalfEven (seconds * 1000000) := by
    refine le_trans ?_ (floor_le_roundHalfEven _)
    exact Int.floor_nonneg.mpr (by positivity)
  unfold Datable later
  simp only [timedelta]
  by_cases hlong : 1000000000 * 86400000000 ≤ roundHalfEven (seconds * 1000000)
  · rw [if_pos (.inr hlong)]
    exact iff_of_false nofun fun h => by omega
  · rw [if_neg (by omega)]
    simp only [Except.bind, DateTime.add]
    split
    · rename_i hout
      refine iff_of_false nofun ?_
      rintro ⟨⟨_, hmin, hmax⟩, _⟩
      exact hout.elim (not_lt.mpr hmin) (not_lt.mpr hmax)
    · rename_i hin
      obtain ⟨hmin, hmax⟩ := not_or.mp hin
      rw [Except.ok.injEq, eq_comm]
      exact ⟨fun h => ⟨⟨by omega, not_lt.mp hmin, not_lt.mp hmax⟩, h⟩, fun h => h.2⟩

theorem ofNat_two_pow (n : ℕ) :
    PyFloat.ofNat (2 ^ n) = if n < 1024 then .ok (.finite (2 ^ n)) else .error .OverflowError := by
  have hlimit : PyFloat.limit ≤ ((2 ^ n : ℕ) : ℚ) ↔ 1024 ≤ n := by
    rw [PyFloat.limit, Nat.cast_pow, Nat.cast_ofNat]
    exact pow_le_pow_iff_right₀ (by norm_num)
  unfold PyFloat.ofNat
  by_cases h : n < 1024
  · rw [if_neg (by rw [hlimit]; omega), if_pos h, Nat.cast_pow, Nat.cast_ofNat]
  · rw [if_pos (by rw [hlimit]; omega), if_neg h]

theorem mul_two_pow {q : ℚ} (hq : 0 < q) (n : ℕ) :
    (PyFloat.finite q).mul (.finite (2 ^ n)) =
      if PyFloat.limit ≤ q * 2 ^ n then .inf false else .finite (q * 2 ^ n) := by
  have hpos : 0 < q * 2 ^ n := by positivity
  have hlimit : 0 < PyFloat.limit := by norm_num [PyFloat.limit]
  simp only [PyFloat.mul, PyFloat.ofRat]
  rw [if_neg (show ¬q * 2 ^ n ≤ -PyFloat.limit by linarith)]

theorem inf_mul_two_pow (n : ℕ) :
    (PyFloat.inf false).mul (.finite (2 ^ n)) = .inf false := by
  have hne : (2 : ℚ) ^ n ≠ 0 := by positivity
  have hpos : ¬(2 : ℚ) ^ n < 0 := not_lt.mpr (by positivity)
  simp [PyFloat.mul, PyFloat.isZero, PyFloat.negative, hne, hpos]

end Floats

section Delay

variable {config : OutboxDispatcherConfig} {attempts : ℕ} {seconds : ℚ}
variable (hinitial : Positive config.OUTBOX_BACKOFF_INITIAL_SECONDS)
variable (hcap : Positive config.OUTBOX_BACKOFF_MAX_SECONDS)

include hinitial hcap

-- Where the product overflows, the cap is below it: the overflow is harmless.
theorem exact_backoff_eq_iff (hseconds : seconds < PyFloat.limit) :
    config.OUTBOX_BACKOFF_MAX_SECONDS.min
        (config.OUTBOX_BACKOFF_INITIAL_SECONDS.mul (.finite (2 ^ attempts))) = .finite seconds ↔
      exact_backoff config attempts = seconds := by
  unfold exact_backoff
  obtain ⟨cap, hc, _⟩ | hc := positive_iff.mp hcap
  all_goals obtain ⟨initial, hi, hpos⟩ | hi := positive_iff.mp hinitial
  all_goals rw [hc, hi]
  · rw [mul_two_pow hpos]
    simp only [extended, WithTop.map_coe, ← WithTop.coe_min, WithTop.coe_inj]
    by_cases hover : PyFloat.limit ≤ initial * 2 ^ attempts
    · simp only [hover, if_true, PyFloat.min, PyFloat.lt, Bool.false_eq_true, if_false,
        PyFloat.finite.injEq]
      constructor
      · rintro rfl
        exact min_eq_left (by linarith)
      · intro h
        rcases min_choice cap (initial * 2 ^ attempts) with hm | hm <;> linarith
    · simp only [hover, if_false, PyFloat.min, PyFloat.lt, decide_eq_true_eq]
      split
      · rw [min_eq_right (by linarith), PyFloat.finite.injEq]
      · rw [min_eq_left (by linarith), PyFloat.finite.injEq]
  · rw [inf_mul_two_pow]
    simp [extended, PyFloat.min, PyFloat.lt]
  · rw [mul_two_pow hpos]
    simp only [extended, WithTop.map_coe, min_eq_right le_top, WithTop.coe_inj]
    by_cases hover : PyFloat.limit ≤ initial * 2 ^ attempts
    · simp only [hover, if_true, PyFloat.min, PyFloat.lt, Bool.not_false, Bool.and_true,
        Bool.false_eq_true, if_false, reduceCtorEq, false_iff]
      linarith
    · simp [hover, PyFloat.min, PyFloat.lt]
  · rw [inf_mul_two_pow]
    simp [extended, PyFloat.min, PyFloat.lt]

theorem exact_backoff_pos (h : exact_backoff config attempts = seconds) : 0 < seconds := by
  unfold exact_backoff at h
  rcases min_choice (extended config.OUTBOX_BACKOFF_MAX_SECONDS) ((extended
    config.OUTBOX_BACKOFF_INITIAL_SECONDS).map fun q => q * 2 ^ attempts) with hm | hm
  · rw [hm] at h
    obtain ⟨cap, hc, hpos⟩ | hc := positive_iff.mp hcap
    · rw [hc, extended, WithTop.coe_inj] at h
      exact h ▸ hpos
    · rw [hc] at h
      cases h
  · rw [hm] at h
    obtain ⟨initial, hi, hpos⟩ | hi := positive_iff.mp hinitial
    · rw [hi, extended, WithTop.map_coe, WithTop.coe_inj] at h
      rw [← h]
      positivity
    · rw [hi] at h
      cases h

end Delay

theorem exact_backoff_mono (config : OutboxDispatcherConfig) (attempts : ℕ)
    (hinitial : Positive config.OUTBOX_BACKOFF_INITIAL_SECONDS) :
    exact_backoff config attempts ≤ exact_backoff config (attempts + 1) := by
  unfold exact_backoff
  apply min_le_min_left
  obtain ⟨initial, hi, hpos⟩ | hi := positive_iff.mp hinitial
  · rw [hi]
    simp only [extended, WithTop.map_coe, WithTop.coe_le_coe]
    exact mul_le_mul_of_nonneg_left (pow_le_pow_right₀ (by norm_num) (by omega)) hpos.le
  · rw [hi]
    exact le_rfl

section Bump

variable {service : OutboxService} {attempts : ℕ} {now t : DateTime}

theorem next_attempt_eq_iff
    (hinitial : Positive service.outbox_dispatcher_config.OUTBOX_BACKOFF_INITIAL_SECONDS)
    (hcap : Positive service.outbox_dispatcher_config.OUTBOX_BACKOFF_MAX_SECONDS) :
    next_attempt service attempts now = .ok t ↔ attempts < 1024 ∧ ∃ seconds : ℚ,
      exact_backoff service.outbox_dispatcher_config attempts = seconds ∧ Datable now seconds ∧
        t = later now seconds := by
  have hcompute : service._compute_backoff_seconds attempts = if attempts < 1024 then
      .ok (service.outbox_dispatcher_config.OUTBOX_BACKOFF_MAX_SECONDS.min
        (service.outbox_dispatcher_config.OUTBOX_BACKOFF_INITIAL_SECONDS.mul
          (.finite (2 ^ attempts))))
      else .error .OverflowError := by
    unfold OutboxService._compute_backoff_seconds
    rw [ofNat_two_pow]
    split <;> rfl
  unfold next_attempt
  rw [hcompute]
  by_cases hattempts : attempts < 1024
  · rw [if_pos hattempts]
    constructor
    · intro h
      refine ⟨hattempts, ?_⟩
      cases hdelay : service.outbox_dispatcher_config.OUTBOX_BACKOFF_MAX_SECONDS.min
        (service.outbox_dispatcher_config.OUTBOX_BACKOFF_INITIAL_SECONDS.mul
          (.finite (2 ^ attempts))) with
      | finite seconds =>
          rw [hdelay] at h
          have hlimit : seconds < PyFloat.limit := by
            apply lt_limit
            by_contra hlong
            have hraises : timedelta (.finite seconds) = .error .OverflowError := by
              simp only [timedelta]
              exact if_pos (.inr (by omega))
            simp only [bind, Except.bind, hraises] at h
            cases h
          have hexact := (exact_backoff_eq_iff hinitial hcap hlimit).mp hdelay
          exact ⟨seconds, hexact,
            (add_timedelta_iff (exact_backoff_pos hinitial hcap hexact)).mp h⟩
      | inf b =>
          rw [hdelay] at h
          cases h
      | nan =>
          rw [hdelay] at h
          cases h
    · rintro ⟨_, seconds, hexact, hdatable, rfl⟩
      rw [(exact_backoff_eq_iff hinitial hcap (lt_limit hdatable.1)).mpr hexact]
      exact (add_timedelta_iff (exact_backoff_pos hinitial hcap hexact)).mpr ⟨hdatable, rfl⟩
  · rw [if_neg hattempts]
    exact iff_of_false nofun fun h => hattempts h.1

end Bump

section Failures

variable {service : OutboxService} {row row' : Outbox} {x : Exn} {now t : DateTime}

-- The calls of a failed publish that has the row tried again at `t`.
def rescheduling (row : Outbox) (x : Exn) (now t : DateTime) : List Call :=
  [⟨publish_row row, .error x⟩, ⟨.now, .ok now⟩,
   ⟨.execute (.bump_attempt row.id x.str t), .ok ()⟩]

-- A row that has failed to be published so many times in succession, since it
-- was as the first one says.
inductive FailedRun (service : OutboxService) (row : Outbox) : ℕ → Outbox → Prop where
  | unpublished : FailedRun service row 0 row
  | failed {failures : ℕ} {row' : Outbox} {x : Exn} {now t : DateTime} (time : DateTime)
      (hrun : FailedRun service row failures row') (hx : x.isinstance .Exception)
      (hexec : Exec (_process_row service row') (rescheduling row' x now t) (.ok ())) :
      FailedRun service row (failures + 1) (row'.set_attempt x.str t time)

theorem FailedRun.attempts {failures : ℕ} (h : FailedRun service row failures row') :
    row'.attempts = row.attempts + failures := by
  induction h with
  | unpublished => rfl
  | failed time _ _ _ ih =>
      simp only [Outbox.set_attempt, ih]
      omega

theorem exec_rescheduling_iff (hx : x.isinstance .Exception) :
    Exec (_process_row service row) (rescheduling row x now t) (.ok ()) ↔
      next_attempt service row.attempts now = .ok t := by
  unfold rescheduling
  rw [exec_unpublished_iff hx]
  constructor
  · intro h
    obtain ⟨e, _, he, _⟩ | ⟨clock, rest, he, ⟨y, rfl, rfl, _⟩ | ⟨now', rfl, ⟨e, _, rfl, _⟩ |
      ⟨t', hnext, rfl⟩⟩⟩ := exec_bump_attempt h
    · cases he
    · cases he
    · cases he
    · cases he
      exact hnext
  · exact exec_bumped _

-- The row is tried again after the exact backoff of its failures.
def BacksOff (service : OutboxService) (row : Outbox) (failures : ℕ) (x : Exn) (now : DateTime) :
    Prop :=
  ∃ seconds : ℚ, exact_backoff service.outbox_dispatcher_config failures = seconds ∧
    Exec (_process_row service row) (rescheduling row x now (later now seconds)) (.ok ())

variable (hinitial : Positive service.outbox_dispatcher_config.OUTBOX_BACKOFF_INITIAL_SECONDS)
variable (hcap : Positive service.outbox_dispatcher_config.OUTBOX_BACKOFF_MAX_SECONDS)

include hinitial hcap

-- After any number of failures, the next one schedules the row as it should
-- until the power of two has no double, or there is no such date.
theorem backoff_is_exact_iff {failures : ℕ} (hrun : FailedRun service row failures row')
    (hnew : row.attempts = 0) (hx : x.isinstance .Exception) (now : DateTime) :
    (BacksOff service row' failures x now ∧
      exact_backoff service.outbox_dispatcher_config failures ≤
        exact_backoff service.outbox_dispatcher_config (failures + 1)) ↔
      failures < 1024 ∧ ∃ seconds : ℚ,
        exact_backoff service.outbox_dispatcher_config failures = seconds ∧ Datable now seconds := by
  have hattempts : row'.attempts = failures := by
    rw [hrun.attempts, hnew, Nat.zero_add]
  rw [and_iff_left (exact_backoff_mono _ _ hinitial)]
  unfold BacksOff
  constructor
  · rintro ⟨seconds, _, hexec⟩
    have hnext := (exec_rescheduling_iff hx).mp hexec
    rw [hattempts] at hnext
    obtain ⟨hlt, seconds', hexact, hdatable, _⟩ := (next_attempt_eq_iff hinitial hcap).mp hnext
    exact ⟨hlt, seconds', hexact, hdatable⟩
  · rintro ⟨hlt, seconds, hexact, hdatable⟩
    refine ⟨seconds, hexact, (exec_rescheduling_iff hx).mpr ?_⟩
    rw [hattempts]
    exact (next_attempt_eq_iff hinitial hcap).mpr ⟨hlt, seconds, hexact, hdatable, rfl⟩

end Failures

namespace Scenario

-- The defaults of the settings.
def outbox_service : OutboxService := ⟨⟨100, .finite 1, .finite 2, .finite 60⟩⟩

def new_row : Outbox where
  id := 7
  aggregate_type := PAYMENT_AGGREGATE_TYPE
  aggregate_id := 7
  event_type := PAYMENT_CREATED_EVENT_TYPE
  routing_key := PAYMENT_CREATED_ROUTING_KEY
  payload := event_payload 7
  status := .PENDING
  attempts := 0
  next_attempt_at := 5
  published_at := none
  last_error := none
  created_at := 5
  updated_at := none

def broker_down : Exn := .Exception "AMQPConnectionError" "broker down"

theorem positive_settings :
    Positive outbox_service.outbox_dispatcher_config.OUTBOX_BACKOFF_INITIAL_SECONDS ∧
      Positive outbox_service.outbox_dispatcher_config.OUTBOX_BACKOFF_MAX_SECONDS :=
  ⟨positive_iff.mpr (.inl ⟨2, rfl, by norm_num⟩), positive_iff.mpr (.inl ⟨60, rfl, by norm_num⟩)⟩

theorem backoff_datable (failures : ℕ) : ∃ seconds : ℚ,
    exact_backoff outbox_service.outbox_dispatcher_config failures = seconds ∧
      Datable 10 seconds := by
  have hexact : exact_backoff outbox_service.outbox_dispatcher_config failures =
      (min 60 (2 * 2 ^ failures) : ℚ) := by
    rw [WithTop.coe_min]
    rfl
  refine ⟨_, hexact, ?_⟩
  have hlo : 0 ≤ ⌊(min 60 (2 * 2 ^ failures) : ℚ) * 1000000⌋ :=
    Int.floor_nonneg.mpr (by positivity)
  have hhi : ⌊(min 60 (2 * 2 ^ failures) : ℚ) * 1000000⌋ ≤ 60000000 := by
    apply Int.floor_le_iff.mpr
    have := min_le_left (60 : ℚ) (2 * 2 ^ failures)
    push_cast
    linarith
  have hround := roundHalfEven_le_floor (min 60 (2 * 2 ^ failures) * 1000000)
  have hfloor := floor_le_roundHalfEven (min 60 (2 * 2 ^ failures) * 1000000)
  refine ⟨by omega, ?_, ?_⟩
  · show (-62135596800000000 : ℤ) ≤ 10 + _
    omega
  · show (10 + _ : ℤ) ≤ 253402300799999999
    omega

theorem long_outage (failures : ℕ) (h : failures ≤ 1024) :
    ∃ row, FailedRun outbox_service new_row failures row := by
  induction failures with
  | zero => exact ⟨new_row, .unpublished⟩
  | succ failures ih =>
      obtain ⟨row, hrun⟩ := ih (by omega)
      obtain ⟨seconds, hexact, hdatable⟩ := backoff_datable failures
      have hnext : next_attempt outbox_service row.attempts 10 = .ok (later 10 seconds) := by
        refine (next_attempt_eq_iff positive_settings.1 positive_settings.2).mpr ?_
        have hattempts : row.attempts = failures := by
          rw [hrun.attempts]
          exact Nat.zero_add _
        rw [hattempts]
        exact ⟨by omega, seconds, hexact, hdatable, rfl⟩
      exact ⟨_, .failed 11 hrun rfl ((exec_rescheduling_iff (x := broker_down) rfl).mpr hnext)⟩

end Scenario

theorem third_failure_backs_off : ∃ row, FailedRun Scenario.outbox_service Scenario.new_row 3 row ∧
    BacksOff Scenario.outbox_service row 3 Scenario.broker_down 10 := by
  obtain ⟨row, hrun⟩ := Scenario.long_outage 3 (by decide)
  exact ⟨row, hrun, ((backoff_is_exact_iff Scenario.positive_settings.1 Scenario.positive_settings.2
    hrun rfl rfl 10).mpr ⟨by decide, Scenario.backoff_datable 3⟩).1⟩

-- The backoff of the 1025th failure is never computed: 2 ** 1024 has no double,
-- and the exception leaves the handler and takes the batch down.
theorem failure_1024_escapes : ∃ row, FailedRun Scenario.outbox_service Scenario.new_row 1024 row ∧
    (∀ now, ¬BacksOff Scenario.outbox_service row 1024 Scenario.broker_down now) ∧
      Exec (_process_row Scenario.outbox_service row) [⟨publish_row row, .error Scenario.broker_down⟩]
        (.error (.python .OverflowError)) := by
  obtain ⟨row, hrun⟩ := Scenario.long_outage 1024 le_rfl
  have hattempts : row.attempts = 1024 := hrun.attempts
  refine ⟨row, hrun, ?_, ?_⟩
  · rintro now ⟨seconds, _, hexec⟩
    have hnext := (exec_rescheduling_iff rfl).mp hexec
    rw [hattempts, next_attempt_eq_iff Scenario.positive_settings.1
      Scenario.positive_settings.2] at hnext
    omega
  · refine (exec_unpublished_iff rfl).mpr ?_
    refine Exec.bind_iff.mpr ⟨[], .error (.python .OverflowError), [], rfl, ?_, rfl, rfl⟩
    rw [hattempts, OutboxService._compute_backoff_seconds, ofNat_two_pow]
    exact .ret _

end PaymentsProcessor
