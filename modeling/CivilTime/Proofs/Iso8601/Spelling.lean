/- The texts of one value differ only in zeros behind a fraction and in how its offset is spelled. -/
import CivilTime.Proofs.Iso8601.Forms

namespace CivilTime.Iso8601

open Text

theorem DateText.fields_eq_iff {x y : DateText} : x.fields = y.fields ↔ x = y := by
  constructor
  · intro h
    simp only [fields, Prod.mk.injEq, DigitRun.value_inj] at h
    obtain ⟨hyear, hmonth, hday⟩ := h
    cases x
    cases y
    cases hyear
    cases hmonth
    cases hday
    rfl
  · rintro rfl
    rfl

namespace ClockText

variable {x y : ClockText}

/-- The digits behind the point. There are none if there is no point. -/
def fractionDigits (x : ClockText) : List Char := (x.fraction.map DigitRun.chars).getD []

/-- The same digits up to the seconds, and of the fractions one is the other with zeros at its end. -/
def Respells (x y : ClockText) : Prop :=
  (x.hour = y.hour ∧ x.minute = y.minute ∧ x.second = y.second) ∧
    ∃ k, x.fractionDigits = y.fractionDigits ++ List.replicate k '0' ∨
      y.fractionDigits = x.fractionDigits ++ List.replicate k '0'

theorem nanosecond_eq (x : ClockText) : x.nanosecond = fractionNanos x.fractionDigits := by
  unfold nanosecond fractionDigits
  cases x.fraction with
  | none => rfl
  | some f => rfl

theorem isDigit_of_mem_fractionDigits (x : ClockText) : ∀ c ∈ x.fractionDigits, c.isDigit = true := by
  unfold fractionDigits
  cases x.fraction with
  | none => nofun
  | some f => exact f.isDigit

theorem length_fractionDigits_le (x : ClockText) : x.fractionDigits.length ≤ 9 := by
  unfold fractionDigits
  cases x.fraction with
  | none => decide
  | some f => exact f.le_most

theorem fields_eq_iff : x.fields = y.fields ↔ x.Respells y := by
  simp only [fields, Prod.mk.injEq, DigitRun.value_inj, Respells, and_assoc, nanosecond_eq]
  rw [fractionNanos_eq_iff x.isDigit_of_mem_fractionDigits y.isDigit_of_mem_fractionDigits x.length_fractionDigits_le
    y.length_fractionDigits_le]

end ClockText

namespace OffsetText

variable {x y : OffsetText} {s t : Option (DigitRun 2 2)}

/-- The digits of the seconds. Those that are not written are zeros. -/
def secondsDigits : Option (DigitRun 2 2) → List Char
  | none => ['0', '0']
  | some s => s.chars

/-- A `Z`, or only zeros behind either sign. -/
def IsZero : OffsetText → Prop
  | utc => True
  | numeric _ hours minutes seconds =>
    hours.chars = ['0', '0'] ∧ minutes.chars = ['0', '0'] ∧ secondsDigits seconds = ['0', '0']

/-- Two spellings of zero, or the same but for seconds that are written as zeros or not at all. -/
inductive Respells : OffsetText → OffsetText → Prop
  | zero {x y : OffsetText} : x.IsZero → y.IsZero → Respells x y
  | seconds {negative : Bool} {hours minutes : DigitRun 2 2} {s t : Option (DigitRun 2 2)} :
    secondsDigits s = secondsDigits t → Respells (numeric negative hours minutes s) (numeric negative hours minutes t)

theorem secondsValue_inj : secondsValue s = secondsValue t ↔ secondsDigits s = secondsDigits t := by
  have hvalue (u : Option (DigitRun 2 2)) : secondsValue u = Nat.ofDigitChars 10 (secondsDigits u) 0 := by
    cases u with
    | none => rfl
    | some u => rfl
  have hdigits (u : Option (DigitRun 2 2)) : secondsDigits u = fixed 2 (secondsValue u) := by
    cases u with
    | none => rfl
    | some u => exact u.fixed_value.symm
  constructor
  · intro h
    rw [hdigits s, h, ← hdigits t]
  · intro h
    rw [hvalue s, h, ← hvalue t]

theorem value_eq_zero_iff {n : DigitRun 2 2} : n.value = 0 ↔ n.chars = ['0', '0'] := by
  constructor
  · intro h
    rw [← n.fixed_value, h]
    rfl
  · intro h
    rw [DigitRun.value, h]
    rfl

theorem total_eq_zero_iff : x.total = 0 ↔ x.IsZero := by
  cases x with
  | utc => exact iff_of_true rfl trivial
  | numeric negative hours minutes seconds =>
    have hseconds : secondsValue seconds = 0 ↔ secondsDigits seconds = ['0', '0'] :=
      secondsValue_inj (t := none)
    simp only [IsZero, ← value_eq_zero_iff, ← hseconds, total, secondsPerHour, secondsPerMinute]
    split <;> omega

/-- Offsets in range come to the same number only if they are spellings of one. -/
theorem total_eq_iff (hx : x.InRange) (hy : y.InRange) : x.total = y.total ↔ x.Respells y := by
  constructor
  · intro h
    by_cases hzero : x.total = 0
    · exact .zero (total_eq_zero_iff.mp hzero) (total_eq_zero_iff.mp (h ▸ hzero))
    cases x with
    | utc => exact absurd rfl hzero
    | numeric negative hours minutes seconds =>
      cases y with
      | utc => exact absurd h hzero
      | numeric negative' hours' minutes' seconds' =>
        obtain ⟨-, hm, hs⟩ := hx
        obtain ⟨-, hm', hs'⟩ := hy
        have hsame : negative = negative' ∧ hours.value = hours'.value ∧ minutes.value = minutes'.value ∧
            secondsValue seconds = secondsValue seconds' := by
          simp only [total, secondsPerHour, secondsPerMinute] at h hzero
          -- With opposite signs both are zero.
          cases negative <;> cases negative' <;> simp only [↓reduceIte, Bool.false_eq_true] at h hzero <;>
            simp only [true_and, false_and, reduceCtorEq] <;> omega
        rw [DigitRun.value_inj, DigitRun.value_inj, secondsValue_inj] at hsame
        obtain ⟨rfl, rfl, rfl, hseconds⟩ := hsame
        exact .seconds hseconds
  · rintro (⟨hx, hy⟩ | hseconds)
    · rw [total_eq_zero_iff.mpr hx, total_eq_zero_iff.mpr hy]
    · rw [total, total, secondsValue_inj.mpr hseconds]

end OffsetText

end CivilTime.Iso8601
