/- What a mode takes for a value between two multiples of a step, and that the steps of clock units divide the day. -/
import CivilTime.Choice
import CivilTime.Proofs.Outcome
import Mathlib.Algebra.Order.Ring.Abs
import Mathlib.Algebra.Order.Ring.Int
import Mathlib.Tactic.ByContra

namespace CivilTime

namespace RoundingMode

/-- The multiple of a step, counted from an origin, that a mode takes for a value: the next one down or up, or one
that is at most half a step away. Between two of these the mode decides. -/
def Takes (mode : RoundingMode) (origin step value result : Int) : Prop :=
  step ∣ result - origin ∧
  match mode with
  | floor => result ≤ value ∧ value < result + step
  | ceil => result - step < value ∧ value ≤ result
  | halfFloor => 2 * |result - value| ≤ step ∧ (2 * |result - value| = step → result < value)
  | halfCeil => 2 * |result - value| ≤ step ∧ (2 * |result - value| = step → value < result)
  | halfEven => 2 * |result - value| ≤ step ∧ (2 * |result - value| = step → 2 * step ∣ result - origin)

variable {mode : RoundingMode} {origin step value value' result result' : Int}

theorem takes_sub_origin :
    mode.Takes 0 step (value - origin) (result - origin) ↔ mode.Takes origin step value result := by
  cases mode with
  | floor =>
    simp only [Takes, Int.sub_zero]
    omega
  | ceil =>
    simp only [Takes, Int.sub_zero]
    omega
  | halfFloor => simp only [Takes, Int.sub_zero, sub_sub_sub_cancel_right, sub_lt_sub_iff_right]
  | halfCeil => simp only [Takes, Int.sub_zero, sub_sub_sub_cancel_right, sub_lt_sub_iff_right]
  | halfEven => simp only [Takes, Int.sub_zero, sub_sub_sub_cancel_right]

/-- A multiple is taken for itself. -/
theorem takes_self (hstep : 0 < step) (h : step ∣ value - origin) : mode.Takes origin step value value := by
  have htie : ¬2 * |value - value| = step := by
    rw [Int.sub_self, abs_zero]
    omega
  have hnear : 2 * |value - value| ≤ step := by
    rw [Int.sub_self, abs_zero]
    omega
  refine ⟨h, ?_⟩
  cases mode with
  | floor => exact ⟨Int.le_refl _, Int.lt_add_of_pos_right _ hstep⟩
  | ceil => exact ⟨Int.sub_lt_self _ hstep, Int.le_refl _⟩
  | halfFloor => exact ⟨hnear, fun h => absurd h htie⟩
  | halfCeil => exact ⟨hnear, fun h => absurd h htie⟩
  | halfEven => exact ⟨hnear, fun h => absurd h htie⟩

/-- Results the wrong way round would be a step apart. Down and up this is too far, and to the nearer one it leaves both
values in the middle, where a mode takes one of the two only. -/
theorem Takes.mono (hstep : 0 < step) (h : mode.Takes origin step value result)
    (h' : mode.Takes origin step value' result') (hle : value ≤ value') : result ≤ result' := by
  by_contra hlt
  obtain ⟨hdvd, hresult⟩ := h
  obtain ⟨hdvd', hresult'⟩ := h'
  have hapart : step ≤ result - result' := by
    refine Int.le_of_dvd (by omega) ?_
    have hsub := Int.dvd_sub hdvd hdvd'
    rwa [sub_sub_sub_cancel_right] at hsub
  cases mode with
  | floor =>
    simp only at hresult hresult'
    omega
  | ceil =>
    simp only at hresult hresult'
    omega
  | halfFloor =>
    simp only [Int.abs_eq_natAbs] at hresult hresult'
    omega
  | halfCeil =>
    simp only [Int.abs_eq_natAbs] at hresult hresult'
    omega
  | halfEven =>
    simp only [Int.abs_eq_natAbs] at hresult hresult'
    have heven := Int.dvd_sub (hresult.2 (by omega)) (hresult'.2 (by omega))
    rw [sub_sub_sub_cancel_right] at heven
    have hle := Int.le_of_dvd (by omega) heven
    exact absurd hstep (by omega)

theorem Takes.unique (hstep : 0 < step) (h : mode.Takes origin step value result)
    (h' : mode.Takes origin step value result') : result = result' :=
  Int.le_antisymm (h.mono hstep h' (Int.le_refl _)) (h'.mono hstep h (Int.le_refl _))

section
variable {quotient remainder : Int} (hr0 : 0 ≤ remainder) (hr : remainder < step)
include hr0 hr

theorem takes_down (h : mode.goesUp quotient remainder step = false) :
    mode.Takes 0 step (quotient * step + remainder) (quotient * step) := by
  have hmultiple : step ∣ quotient * step - 0 := by
    rw [Int.sub_zero]
    exact Int.dvd_mul_left _ _
  by_cases hzero : remainder = 0
  · rw [hzero, Int.add_zero]
    exact takes_self (by omega) hmultiple
  have hdistance : |quotient * step - (quotient * step + remainder)| = remainder := by
    rw [sub_add_cancel_left, abs_neg, abs_of_nonneg hr0]
  refine ⟨hmultiple, ?_⟩
  unfold goesUp at h
  rw [if_neg hzero] at h
  cases mode with
  | floor =>
    simp only
    omega
  | ceil => cases h
  | halfFloor =>
    simp only [decide_eq_false_iff_not, hdistance] at h ⊢
    omega
  | halfCeil =>
    simp only [decide_eq_false_iff_not, hdistance] at h ⊢
    omega
  | halfEven =>
    simp only [decide_eq_false_iff_not, hdistance] at h ⊢
    refine ⟨by omega, fun htie => ?_⟩
    have heven : 2 ∣ quotient := by omega
    rw [Int.sub_zero]
    exact mul_dvd_mul_right heven step

theorem takes_up (h : mode.goesUp quotient remainder step = true) :
    mode.Takes 0 step (quotient * step + remainder) ((quotient + 1) * step) := by
  have hnext : (quotient + 1) * step = quotient * step + step := by rw [Int.add_mul, Int.one_mul]
  have hdistance : |(quotient + 1) * step - (quotient * step + remainder)| = step - remainder := by
    rw [hnext, add_sub_add_left_eq_sub, abs_of_nonneg (by omega)]
  have hzero : remainder ≠ 0 := by
    rintro rfl
    cases h
  refine ⟨by rw [Int.sub_zero]; exact Int.dvd_mul_left _ _, ?_⟩
  unfold goesUp at h
  rw [if_neg hzero] at h
  cases mode with
  | floor => cases h
  | ceil =>
    simp only
    omega
  | halfFloor =>
    simp only [decide_eq_true_eq, hdistance] at h ⊢
    omega
  | halfCeil =>
    simp only [decide_eq_true_eq, hdistance] at h ⊢
    omega
  | halfEven =>
    simp only [decide_eq_true_eq, hdistance] at h ⊢
    refine ⟨by omega, fun htie => ?_⟩
    have heven : 2 ∣ quotient + 1 := by omega
    rw [Int.sub_zero]
    exact mul_dvd_mul_right heven step

end

/-- Rounding takes the multiple that the mode promises. -/
theorem takes_roundTo (hstep : 0 < step) : mode.Takes 0 step value (mode.roundTo value step) := by
  have hvalue : value = Int.fdiv value step * step + Int.fmod value step := by
    rw [Int.mul_comm, Int.mul_fdiv_add_fmod]
  have hr0 := Int.fmod_nonneg_of_pos value hstep
  have hr := Int.fmod_lt_of_pos value hstep
  cases h : mode.goesUp (Int.fdiv value step) (Int.fmod value step) step with
  | false =>
    have hdown := takes_down hr0 hr h
    rw [← hvalue] at hdown
    simpa only [roundTo, h, Bool.false_eq_true, if_false] using hdown
  | true =>
    have hup := takes_up hr0 hr h
    rw [← hvalue] at hup
    simpa only [roundTo, h, if_true] using hup

end RoundingMode

namespace TimeUnit

/-- So many of a unit make up one of the next larger kind, and so many of these a day. -/
theorem limit_nanos_dvd (unit : TimeUnit) : unit.limit * unit.nanos ∣ nanosPerDay := by
  cases unit <;> decide

theorem Allows.dvd {unit : TimeUnit} {n : Int} (h : unit.Allows n) : 0 < n ∧ n ∣ unit.limit := by
  cases unit with
  | day =>
    rw [show n = 1 from h]
    decide
  | _ => exact ⟨h.1, Int.dvd_of_emod_eq_zero h.2.2⟩

theorem nanos_pos (unit : TimeUnit) : 0 < unit.nanos := by
  cases unit <;> decide

theorem step_eq_ok {unit : TimeUnit} {increment : Datum} {step : Int} : unit.step increment = .ok step ↔
    ∃ n, increment.int? = some n ∧ unit.Allows n ∧ n * unit.nanos = step := by
  unfold TimeUnit.step
  cases increment.int? with
  | none => simp
  | some n =>
    by_cases ha : unit.Allows n
    · simp [ha]
    · simp [ha]

/-- Every step that is accepted divides the day. -/
theorem step_dvd_day {unit : TimeUnit} {increment : Datum} {step : Int} (h : unit.step increment = .ok step) :
    0 < step ∧ step ∣ nanosPerDay := by
  obtain ⟨n, -, hallows, rfl⟩ := step_eq_ok.mp h
  obtain ⟨hn, hdvd⟩ := hallows.dvd
  exact ⟨Int.mul_pos hn unit.nanos_pos, (Int.mul_dvd_mul_right _ hdvd).trans unit.limit_nanos_dvd⟩

end TimeUnit

end CivilTime
