/- Day numbers count the supported days in the order of the calendar, without a hole, and lead back to them. -/
import CivilTime.Proofs.Iso8601.Fields
import Mathlib.Data.Set.Operations
import Mathlib.Order.Interval.Set.Defs

namespace CivilTime

namespace YearMonthDay
open Calendar

/-- The order of the calendar: by year, then by month, then by day. -/
def Before (x y : YearMonthDay) : Prop :=
  x.year < y.year ∨ (x.year = y.year ∧ (x.month < y.month ∨ (x.month = y.month ∧ x.day < y.day)))

instance (x y : YearMonthDay) : Decidable (x.Before y) := by
  unfold Before
  infer_instance

/-- The next day of the month. After the last one comes the first of the next month, and after that of December
the first of January. -/
def next (x : YearMonthDay) : YearMonthDay :=
  if x.day < monthLength x.year x.month then { x with day := x.day + 1 }
  else if x.month < 12 then { year := x.year, month := x.month + 1, day := 1 }
  else { year := x.year + 1, month := 1, day := 1 }

variable {x y : YearMonthDay}

theorem before_iff (hx : x.Exists) (hy : y.Exists) :
    x.Before y ↔ x.monthIndex < y.monthIndex ∨ (x.monthIndex = y.monthIndex ∧ x.day < y.day) := by
  obtain ⟨hx1, hx12, -⟩ := hx
  obtain ⟨hy1, hy12, -⟩ := hy
  simp only [Before, monthIndex]
  omega

theorem exists_first (year month : Int) (h1 : 1 ≤ month) (h12 : month ≤ 12) : Exists { year, month, day := 1 } :=
  ⟨h1, h12, Int.le_refl 1, Int.le_trans (by decide : (1 : Int) ≤ 28) (monthLength_pos year month)⟩

theorem exists_next (h : x.Exists) : x.next.Exists := by
  obtain ⟨h1, h12, hd1, hd⟩ := h
  unfold next
  split
  · rename_i hlt
    exact ⟨h1, h12, Int.le_add_one hd1, hlt⟩
  · split
    · rename_i hm
      exact exists_first x.year (x.month + 1) (by omega) hm
    · exact exists_first (x.year + 1) 1 (by decide) (by decide)

/-- A month ends where the next one starts. -/
theorem dayNumber_of_next_month (hx : x.Exists) (hy : y.Exists) (hindex : y.monthIndex = x.monthIndex + 1)
    (hlast : x.day = monthLength x.year x.month) (hfirst : y.day = 1) : y.dayNumber = x.dayNumber + 1 := by
  rw [dayNumber_eq_monthStart hx, dayNumber_eq_monthStart hy, hindex, monthStart_after hx, hlast, hfirst]
  omega

theorem dayNumber_next (h : x.Exists) : x.next.dayNumber = x.dayNumber + 1 := by
  have hnext := exists_next h
  have h12 := h.2.1
  have hd := h.2.2.2
  unfold next at *
  by_cases hlt : x.day < monthLength x.year x.month
  · rw [if_pos hlt]
    simp only [dayNumber]
    omega
  · have hlast : x.day = monthLength x.year x.month := by omega
    rw [if_neg hlt] at *
    by_cases hm : x.month < 12
    · rw [if_pos hm] at *
      refine dayNumber_of_next_month h hnext ?_ hlast rfl
      simp only [monthIndex]
      omega
    · rw [if_neg hm] at *
      refine dayNumber_of_next_month h hnext ?_ hlast rfl
      simp only [monthIndex]
      omega

end YearMonthDay

namespace Calendar
open YearMonthDay

/-- The number of the day that has the fields. They need not be integers. -/
def numberOfFields (year month day : Datum) : Except Fault Int := Date.dayNumber <$> Date.ofFields year month day

/-- The number of a supported day, from its year, month and day. -/
def numberOfDay (x : YearMonthDay) : Except Fault Int := numberOfFields (.int x.year) (.int x.month) (.int x.day)

/-- The days of the years 1 to 9999. -/
def supportedDays : Set YearMonthDay := {x | (1 ≤ x.year ∧ x.year ≤ 9999) ∧ x.Exists}

/-- The field is an integer of the range. -/
def isWithin (low high : Int) (d : Datum) : Bool := d.int?.any fun n => decide (low ≤ n ∧ n ≤ high)

/-- The field that keeps a year, month and day from being a supported day. A complaint names it if it is an integer. -/
def refusedField (year month day : Datum) : Datum :=
  if !isWithin firstYear lastYear year then year else if !isWithin 1 12 month then month else day

variable {x y : YearMonthDay} {n : Int} {year month day : Datum}

theorem numberOfDay_eq_ok : numberOfDay x = .ok n ↔ ∃ d : Date, d.ymd = x ∧ d.dayNumber = n := by
  simp only [numberOfDay, numberOfFields, map_eq_ok, Date.ofFields_int, Date.ofYmd_eq_ok]

theorem exists_numberOfDay_iff : (∃ n, numberOfDay x = .ok n) ↔ x ∈ supportedDays := by
  simp only [numberOfDay_eq_ok]
  refine Iff.trans ?_ Date.exists_ymd_eq_iff
  constructor
  · rintro ⟨n, d, hd, -⟩
    exact ⟨d, hd⟩
  · rintro ⟨d, hd⟩
    exact ⟨d.dayNumber, d, hd, rfl⟩

theorem supported_of_checkedFields (h : checkedFields year month day = .ok x) : x ∈ supportedDays := by
  obtain ⟨y, -, h⟩ := bind_eq_ok.mp h
  obtain ⟨⟨⟩, hyear, h⟩ := bind_eq_ok.mp h
  obtain ⟨m, -, h⟩ := bind_eq_ok.mp h
  obtain ⟨⟨⟩, hmonth, h⟩ := bind_eq_ok.mp h
  obtain ⟨d, -, h⟩ := bind_eq_ok.mp h
  obtain ⟨⟨⟩, hday, h⟩ := bind_eq_ok.mp h
  cases h
  obtain ⟨h1, h12⟩ := check_eq_ok.mp hmonth
  exact ⟨check_eq_ok.mp hyear, h1, h12, check_eq_ok.mp hday⟩

section
variable {low high : Int}

theorem isWithin_int : isWithin low high (.int n) = true ↔ low ≤ n ∧ n ≤ high := decide_eq_true_iff

theorem isWithin_of_none {d : Datum} (h : d.int? = none) : isWithin low high d = false := by
  rw [isWithin, h]
  rfl

theorem refusedField_year (h : isWithin firstYear lastYear year = false) : refusedField year month day = year := by
  rw [refusedField, h]
  rfl

theorem refusedField_month (hyear : isWithin firstYear lastYear year = true) (h : isWithin 1 12 month = false) :
    refusedField year month day = month := by
  rw [refusedField, hyear, h]
  rfl

theorem refusedField_day (hyear : isWithin firstYear lastYear year = true) (hmonth : isWithin 1 12 month = true) :
    refusedField year month day = day := by
  rw [refusedField, hyear, hmonth]
  rfl

end

/-- A field is refused, or it is an integer of its range and something behind it is refused. -/
theorem field_error {α : Type} {field : DateField} {found : Datum} {low high : Int} {judge : Int → Except Fault Unit}
    {complaint : Int → Fault} {next : Int → Except Fault α} {f : Fault}
    (h : (do
      let n ← integerField field found
      judge n
      next n) = .error f)
    (hjudge : ∀ n, judge n = if low ≤ n ∧ n ≤ high then .ok () else .error (complaint n))
    (hcomplaint : ∀ n, (complaint n).kind = .invalidDate ∧ (complaint n).shown = [n]) :
    (isWithin low high found = false ∧ f.kind = .invalidDate ∧
      (Error.fault f).kind = ErrorKind.invalidDate.naming found.int?.toList) ∨
    ∃ n, found = .int n ∧ (low ≤ n ∧ n ≤ high) ∧ next n = .error f := by
  rcases bind_eq_error.mp h with hfield | ⟨n, hfield, hrest⟩
  · obtain ⟨rfl, hnone⟩ := integerField_error hfield
    rw [hnone]
    exact Or.inl ⟨isWithin_of_none hnone, rfl, rfl⟩
  cases integerField_eq_ok.mp hfield
  rcases bind_eq_error.mp hrest with hjudged | ⟨⟨⟩, hjudged, hnext⟩
  · rw [hjudge] at hjudged
    obtain ⟨hrange, rfl⟩ := check_eq_error.mp hjudged
    obtain ⟨hkind, hshown⟩ := hcomplaint n
    refine Or.inl ⟨Bool.eq_false_iff.mpr (mt isWithin_int.mp hrange), hkind, ?_⟩
    rw [Error.kind, Error.raised, Error.shown, hkind, hshown]
    rfl
  · rw [hjudge] at hjudged
    exact Or.inr ⟨n, rfl, check_eq_ok.mp hjudged, hnext⟩

/-- The year and the month are written out with a day that is refused too, but they have few digits. -/
theorem dayRange_kind {year month day : Int} (hyear : 1 ≤ year ∧ year ≤ 9999) (hmonth : 1 ≤ month ∧ month ≤ 12) :
    (Error.fault (.dayRange year month day)).kind = ErrorKind.invalidDate.naming [day] := by
  have hy : Text.Writable year := Text.writable_of_natAbs_le (by omega)
  have hm : Text.Writable month := Text.writable_of_natAbs_le (by omega)
  have hshown : (∀ n ∈ [year, month, day], Text.Writable n) ↔ ∀ n ∈ [day], Text.Writable n := by
    simp only [List.forall_mem_cons, hy, hm, true_and]
  exact if_congr hshown rfl rfl

/-- A check that is passed leaves the blame to the fields behind it. -/
theorem checkedFields_error {f : Fault} (h : checkedFields year month day = .error f) : f.kind = .invalidDate ∧
    (Error.fault f).kind = ErrorKind.invalidDate.naming (refusedField year month day).int?.toList := by
  rcases field_error h (fun _ => rfl) (fun _ => ⟨rfl, rfl⟩) with ⟨hout, hkind⟩ | ⟨y, rfl, hyear, hrest⟩
  · rw [refusedField_year hout]
    exact hkind
  rcases field_error hrest (fun _ => rfl) (fun _ => ⟨rfl, rfl⟩) with ⟨hout, hkind⟩ | ⟨m, rfl, hmonth, hrest'⟩
  · rw [refusedField_month (isWithin_int.mpr hyear) hout]
    exact hkind
  rw [refusedField_day (isWithin_int.mpr hyear) (isWithin_int.mpr hmonth)]
  rcases bind_eq_error.mp hrest' with hfield | ⟨d, hfield, hjudged⟩
  · obtain ⟨rfl, hnone⟩ := integerField_error hfield
    rw [hnone]
    exact ⟨rfl, rfl⟩
  cases integerField_eq_ok.mp hfield
  rcases bind_eq_error.mp hjudged with hcheck | ⟨⟨⟩, -, hend⟩
  · obtain ⟨-, rfl⟩ := check_eq_error.mp hcheck
    exact ⟨rfl, dayRange_kind hyear hmonth⟩
  · cases hend

/-- The number of a day that passes the checks is in range, so only the checks refuse a day. -/
theorem ofFields_error {f : Fault} (h : Date.ofFields year month day = .error f) : f.kind = .invalidDate ∧
    (Error.fault f).kind = ErrorKind.invalidDate.naming (refusedField year month day).int?.toList := by
  rcases bind_eq_error.mp h with h | ⟨x, hx, h⟩
  · exact checkedFields_error h
  · obtain ⟨d, rfl⟩ := Date.exists_ymd_eq_iff.mpr (supported_of_checkedFields hx)
    rw [d.dayNumber_ymd, dateAt_eq_ok.mpr rfl] at h
    cases h

end Calendar

end CivilTime
