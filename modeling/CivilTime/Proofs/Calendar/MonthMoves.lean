/- Moving by months keeps days in order. Two moves in a row are one, but for what the month between cuts off. -/
import CivilTime.Proofs.Calendar.Order

namespace CivilTime

namespace YearMonthDay
open Calendar

/-- The day comes before the other one, or is the same. -/
def UpTo (x y : YearMonthDay) : Prop := x.Before y ∨ x = y

variable {x y : YearMonthDay} {a b m n : Int}

theorem fields_eq_of_monthIndex (hx : x.Exists) (hy : y.Exists) (h : x.monthIndex = y.monthIndex) :
    x.year = y.year ∧ x.month = y.month := by
  rw [← monthIndex_div hx, ← monthIndex_mod hx, h]
  exact ⟨monthIndex_div hy, monthIndex_mod hy⟩

theorem upTo_iff (hx : x.Exists) (hy : y.Exists) :
    x.UpTo y ↔ x.monthIndex < y.monthIndex ∨ (x.monthIndex = y.monthIndex ∧ x.day ≤ y.day) := by
  rw [UpTo, before_iff hx hy]
  constructor
  · rintro ((h | ⟨hindex, hday⟩) | rfl)
    · exact Or.inl h
    · exact Or.inr ⟨hindex, Int.le_of_lt hday⟩
    · exact Or.inr ⟨rfl, Int.le_refl _⟩
  · rintro (h | ⟨hindex, hday⟩)
    · exact Or.inl (Or.inl h)
    · rcases Int.lt_or_eq_of_le hday with hlt | heq
      · exact Or.inl (Or.inr ⟨hindex, hlt⟩)
      · obtain ⟨hyear, hmonth⟩ := fields_eq_of_monthIndex hx hy hindex
        obtain ⟨year, month, day⟩ := x
        cases hyear
        cases hmonth
        cases heq
        exact Or.inr rfl

theorem addMonths_upTo (hx : x.Exists) (hy : y.Exists) (h : x.UpTo y) (m : Int) :
    (x.addMonths m).UpTo (y.addMonths m) := by
  rw [upTo_iff hx hy] at h
  rw [upTo_iff (exists_addMonths hx m) (exists_addMonths hy m), addMonths_monthIndex, addMonths_monthIndex]
  rcases h with hlt | ⟨heq, hday⟩
  · exact Or.inl (Int.add_lt_add_right hlt m)
  · -- Both days are cut off at the end of the same month.
    refine Or.inr ⟨by rw [heq], ?_⟩
    simp only [addMonths, heq]
    omega

theorem addMonths_before (h : x.Exists) (hmn : m < n) : (x.addMonths m).Before (x.addMonths n) := by
  rw [before_iff (exists_addMonths h m) (exists_addMonths h n), addMonths_monthIndex, addMonths_monthIndex]
  exact Or.inl (Int.add_lt_add_left hmn _)

/-- The second move reaches the month of both together, with a day that both months have. -/
theorem addMonths_addMonths (x : YearMonthDay) (a b : Int) :
    (x.addMonths a).addMonths b =
      { x.addMonths (a + b) with day := min (x.addMonths a).day (x.addMonths (a + b)).day } := by
  have hindex : (x.addMonths a).monthIndex + b = x.monthIndex + (a + b) := by
    rw [addMonths_monthIndex, Int.add_assoc]
  have hle := addMonths_day_le x a
  rw [addMonths, hindex]
  simp only [addMonths, mk.injEq, true_and] at hle ⊢
  omega

theorem addMonths_day_of_exists (h : Exists { x.addMonths a with day := x.day }) : (x.addMonths a).day = x.day :=
  min_eq_left h.2.2.2

end YearMonthDay

namespace Calendar
open YearMonthDay

variable {x e f : YearMonthDay} {m : Int}

/-- The move is refused by the year alone: month and day that it leads to are those of some day. -/
theorem addMonths_eq_ok_iff (h : x.Exists) : addMonths x m = .ok e ↔ e ∈ supportedDays ∧ e = x.addMonths m := by
  have hmoved := exists_addMonths h m
  dsimp only [addMonths]
  split
  · rename_i hyear
    rw [Except.ok.injEq]
    constructor
    · rintro rfl
      exact ⟨⟨hyear, hmoved⟩, rfl⟩
    · rintro ⟨-, rfl⟩
      rfl
  · rename_i hyear
    refine iff_of_false nofun ?_
    rintro ⟨⟨hsupported, -⟩, rfl⟩
    exact hyear hsupported

theorem exists_addMonths_iff (h : x.Exists) :
    (∃ e, addMonths x m = .ok e) ↔ (x.monthIndex + m) / 12 ∈ Set.Icc 1 9999 := by
  simp only [addMonths_eq_ok_iff h]
  constructor
  · rintro ⟨e, ⟨hyear, -⟩, rfl⟩
    exact hyear
  · exact fun hyear => ⟨x.addMonths m, ⟨hyear, exists_addMonths h m⟩, rfl⟩

theorem fails_addMonths (h : x.Exists) {kind : ErrorKind} :
    Fails (liftM (addMonths x m)) kind ↔
      kind = ErrorKind.rangeOverflow.naming [(x.monthIndex + m) / 12] ∧ (x.monthIndex + m) / 12 ∉ Set.Icc 1 9999 := by
  rw [← exists_addMonths_iff h]
  refine fails_iff_of_error_kind fun f hf => ?_
  rw [addMonths_error hf]
  rfl

/-- A move by months leads to a supported day of the month at that distance, to the last one if the day of month is not
in it. It is refused if that month is not in the years 1 to 9999, and then as out of range if the year can be written
out. Moves by the same months keep the order of days, and more months lead to a later day. A second move reaches the
same month as one move by both, and the same day unless the month between has cut it off. -/
theorem months_move_in_order {x : YearMonthDay} (hx : x ∈ supportedDays) :
    (∀ m,
      (∀ e, addMonths x m = .ok e →
        e ∈ supportedDays ∧ e.monthIndex = x.monthIndex + m ∧ e.day = min x.day (monthLength e.year e.month)) ∧
      ((∃ e, addMonths x m = .ok e) ↔ (x.monthIndex + m) / 12 ∈ Set.Icc 1 9999) ∧
      ∀ kind, Fails (liftM (addMonths x m)) kind ↔
        kind = ErrorKind.rangeOverflow.naming [(x.monthIndex + m) / 12] ∧
          (x.monthIndex + m) / 12 ∉ Set.Icc 1 9999) ∧
    (∀ y ∈ supportedDays, ∀ m e f, addMonths x m = .ok e → addMonths y m = .ok f → x.UpTo y → e.UpTo f) ∧
    (∀ m n e f, addMonths x m = .ok e → addMonths x n = .ok f → m < n → e.Before f) ∧
    ∀ a b e f, addMonths x a = .ok e → addMonths e b = .ok f →
      ∃ g, addMonths x (a + b) = .ok g ∧ f.year = g.year ∧ f.month = g.month ∧ f.day ≤ g.day ∧
        (Exists { e with day := x.day } → f.day = g.day) := by
  refine ⟨fun m => ⟨fun e he => ?_, exists_addMonths_iff hx.2, fun _ => fails_addMonths hx.2⟩,
    fun y hy m e f he hf h => ?_, fun m n e f he hf h => ?_, fun a b e f he hf => ?_⟩
  · obtain ⟨hsupported, rfl⟩ := (addMonths_eq_ok_iff hx.2).mp he
    exact ⟨hsupported, addMonths_monthIndex x m, rfl⟩
  · obtain ⟨-, rfl⟩ := (addMonths_eq_ok_iff hx.2).mp he
    obtain ⟨-, rfl⟩ := (addMonths_eq_ok_iff hy.2).mp hf
    exact addMonths_upTo hx.2 hy.2 h m
  · obtain ⟨-, rfl⟩ := (addMonths_eq_ok_iff hx.2).mp he
    obtain ⟨-, rfl⟩ := (addMonths_eq_ok_iff hx.2).mp hf
    exact addMonths_before hx.2 h
  · obtain ⟨-, rfl⟩ := (addMonths_eq_ok_iff hx.2).mp he
    obtain ⟨⟨hyear, -⟩, hmoved⟩ := (addMonths_eq_ok_iff (exists_addMonths hx.2 a)).mp hf
    rw [addMonths_addMonths] at hmoved
    subst hmoved
    refine ⟨x.addMonths (a + b), (addMonths_eq_ok_iff hx.2).mpr ⟨⟨hyear, exists_addMonths hx.2 _⟩, rfl⟩, rfl, rfl,
      min_le_right _ _, fun hday => ?_⟩
    have hkept := addMonths_day_of_exists hday
    have hle := addMonths_day_le x (a + b)
    simp only [hkept]
    omega

/-- From the end of January a month leads to the leap day, as it does from the day before, and another one to the 29th
of March, not the 31st. Over two thousand years back there is no such month. -/
theorem months_move_in_order_from_end_of_january :
    let january : YearMonthDay := ⟨2024, 1, 31⟩
    let before : YearMonthDay := ⟨2024, 1, 30⟩
    let leapDay : YearMonthDay := ⟨2024, 2, 29⟩
    let march : YearMonthDay := ⟨2024, 3, 29⟩
    (january ∈ supportedDays ∧ before ∈ supportedDays ∧ before.UpTo january) ∧
      (addMonths january 1 = .ok leapDay ∧ addMonths before 1 = .ok leapDay ∧ leapDay.UpTo leapDay) ∧
      (addMonths leapDay 1 = .ok march ∧ addMonths january 2 = .ok ⟨2024, 3, 31⟩ ∧ leapDay.Before ⟨2024, 3, 31⟩) ∧
      (∃ g, addMonths january (1 + 1) = .ok g ∧ march.month = g.month ∧ march.day ≤ g.day) ∧
      (∃ g, addMonths january (-1 + 2) = .ok g ∧ leapDay.day = g.day) ∧
      Fails (liftM (addMonths january (-24277))) .rangeOverflow := by
  intro january before leapDay march
  have hjanuary : january ∈ supportedDays := ⟨by decide, by decide⟩
  have hbefore : before ∈ supportedDays := ⟨by decide, by decide⟩
  have hupTo : before.UpTo january := Or.inl (by decide)
  obtain ⟨-, hmono, -⟩ := months_move_in_order hbefore
  obtain ⟨hmove, -, hstrict, htwice⟩ := months_move_in_order hjanuary
  obtain ⟨g, hg, -, hmonth, hday, -⟩ := htwice 1 1 leapDay march rfl rfl
  obtain ⟨k, hk, -, -, -, hkept⟩ := htwice (-1) 2 ⟨2023, 12, 31⟩ leapDay rfl rfl
  exact ⟨⟨hjanuary, hbefore, hupTo⟩, ⟨rfl, rfl, hmono january hjanuary 1 _ _ rfl rfl hupTo⟩,
    ⟨rfl, rfl, hstrict 1 2 _ _ rfl rfl (by decide)⟩, ⟨g, hg, hmonth, hday⟩, ⟨k, hk, hkept (by decide)⟩,
    ((hmove _).2.2 _).mpr ⟨by decide, fun h => absurd h.1 (by decide)⟩⟩

/-- So many years ahead of 2024 that the year has a digit too many: the move is not refused as out of range. -/
theorem year_with_too_many_digits_is_not_named :
    let january : YearMonthDay := ⟨2024, 1, 1⟩
    let months : Int := 12 * ((10 ^ Text.maxDigits : Nat) - 1)
    january ∈ supportedDays ∧ (january.monthIndex + months) / 12 ∉ Set.Icc 1 9999 ∧
      Fails (liftM (addMonths january months)) .unfitValue ∧
      ¬Fails (liftM (addMonths january months)) .rangeOverflow := by
  intro january months
  have hyear : (january.monthIndex + months) / 12 = 2023 + (10 ^ Text.maxDigits : Nat) := by
    simp only [january, months, monthIndex]
    omega
  have hlong : ¬Text.Writable ((january.monthIndex + months) / 12) := Text.not_writable_of_le (by omega)
  have hout : (january.monthIndex + months) / 12 ∉ Set.Icc 1 9999 := by
    intro hnamed
    obtain ⟨hfirst, hlast⟩ := Set.mem_Icc.mp hnamed
    exact hlong (Text.writable_of_natAbs_le (by omega))
  have hfails : Fails (liftM (addMonths january months)) .unfitValue :=
    (fails_addMonths (by decide)).mpr ⟨(naming_of_not_writable List.mem_cons_self hlong).symm, hout⟩
  exact ⟨⟨by decide, by decide⟩, hout, hfails, fun h => by cases hfails.unique h⟩

end Calendar

end CivilTime
