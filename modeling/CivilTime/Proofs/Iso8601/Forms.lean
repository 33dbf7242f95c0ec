/- The written forms of dates, times and offsets, and that each reader accepts just these. What the fields say is
judged apart from their form. -/
import CivilTime.Iso8601.Reader
import CivilTime.Proofs.Iso8601.Fields
import CivilTime.Proofs.Text.DigitRun

namespace CivilTime

namespace Iso8601

open Text Text.Reader

/-- Year, month and day with hyphens between them. -/
structure DateText where
  year : DigitRun 4 4
  month : DigitRun 2 2
  day : DigitRun 2 2

namespace DateText

def chars (x : DateText) : List Char := x.year.chars ++ '-' :: (x.month.chars ++ '-' :: x.day.chars)

def fields (x : DateText) : Nat × Nat × Nat := (x.year.value, x.month.value, x.day.value)

def ymd (x : DateText) : YearMonthDay := ⟨x.year.value, x.month.value, x.day.value⟩

/-- The calendar has the day, and not in year 0. -/
def Valid (x : DateText) : Prop := 1 ≤ x.year.value ∧ x.ymd.Exists

/-- The date has the fields that are written. -/
def Denotes (x : DateText) (d : Date) : Prop :=
  d.year = x.year.value ∧ d.month = x.month.value ∧ d.day = x.day.value

end DateText

/-- Hour, minute and second with colons between them, and perhaps a fraction of the second. -/
structure ClockText where
  hour : DigitRun 2 2
  minute : DigitRun 2 2
  second : DigitRun 2 2
  fraction : Option (DigitRun 1 9)

namespace ClockText

def chars (x : ClockText) : List Char :=
  x.hour.chars ++ ':' :: (x.minute.chars ++ ':' :: (x.second.chars ++ fractionChars x.fraction))

def nanosecond (x : ClockText) : Nat := fractionBillionths x.fraction

def fields (x : ClockText) : Nat × Nat × Nat × Nat := (x.hour.value, x.minute.value, x.second.value, x.nanosecond)

/-- The fields are those of a clock. -/
def Valid (x : ClockText) : Prop := x.hour.value ≤ 23 ∧ x.minute.value ≤ 59 ∧ x.second.value ≤ 59

/-- The time has the fields that are written. -/
def Denotes (x : ClockText) (t : TimeOfDay) : Prop :=
  t.hour = x.hour.value ∧ t.minute = x.minute.value ∧ t.second = x.second.value ∧ t.nanosecond = x.nanosecond

end ClockText

/-- A `Z`, or a sign with hours, minutes and perhaps seconds. -/
inductive OffsetText where
  | utc
  | numeric (negative : Bool) (hours minutes : DigitRun 2 2) (seconds : Option (DigitRun 2 2))

namespace OffsetText

def secondsChars : Option (DigitRun 2 2) → List Char
  | none => []
  | some s => ':' :: s.chars

def chars : OffsetText → List Char
  | utc => ['Z']
  | numeric negative hours minutes seconds =>
    (if negative then '-' else '+') :: (hours.chars ++ ':' :: (minutes.chars ++ secondsChars seconds))

/-- Seconds that are not written are none. -/
def secondsValue (seconds : Option (DigitRun 2 2)) : Nat := (seconds.map DigitRun.value).getD 0

/-- The fields are those of a clock. -/
def InRange : OffsetText → Prop
  | utc => True
  | numeric _ hours minutes seconds => hours.value ≤ 23 ∧ minutes.value ≤ 59 ∧ secondsValue seconds ≤ 59

/-- Seconds in all, with a sign. -/
def total : OffsetText → Int
  | utc => 0
  | numeric negative hours minutes seconds =>
    let size : Int := hours.value * secondsPerHour + minutes.value * secondsPerMinute + secondsValue seconds
    if negative then -size else size

/-- Seconds could still follow. -/
def isOpen : OffsetText → Bool
  | numeric _ _ _ none => true
  | _ => false

end OffsetText

namespace DateText

variable {x : DateText} {d : Date}

theorem denotes_iff : x.Denotes d ↔ d.ymd = x.ymd := by
  constructor
  · rintro ⟨hyear, hmonth, hday⟩
    rw [ymd, ← hyear, ← hmonth, ← hday]
    rfl
  · intro h
    exact ⟨congrArg YearMonthDay.year h, congrArg YearMonthDay.month h, congrArg YearMonthDay.day h⟩

theorem dateOf_eq_ok : dateOf x.fields = .ok d ↔ x.Denotes d := Date.ofYmd_eq_ok.trans denotes_iff.symm

/-- Four digits can be no year after the last. -/
theorem exists_denotes_iff : (∃ d, x.Denotes d) ↔ x.Valid := by
  have hlast : x.year.value < 10000 := x.year.value_lt
  simp only [denotes_iff, Date.exists_ymd_eq_iff, Valid]
  have hyear : 1 ≤ x.ymd.year ∧ x.ymd.year ≤ 9999 ↔ 1 ≤ x.year.value := by
    simp only [ymd]
    omega
  rw [hyear]

theorem Denotes.fields_eq (h : x.Denotes d) : x.fields = dateFields d := by
  obtain ⟨hyear, hmonth, hday⟩ := h
  rw [dateFields, hyear, hmonth, hday]
  rfl

theorem Denotes.dayNumber_eq (h : x.Denotes d) : d.dayNumber = x.ymd.dayNumber := by
  rw [← d.dayNumber_ymd, denotes_iff.mp h]

end DateText

namespace ClockText

variable {x : ClockText} {t : TimeOfDay}

theorem timeOf_eq_ok : timeOf x.fields = .ok t ↔ x.Denotes t := TimeOfDay.ofClock_eq_ok

/-- No fraction is too long for a second. -/
theorem exists_denotes_iff : (∃ t, x.Denotes t) ↔ x.Valid := by
  have hfraction : x.nanosecond < 10 ^ 9 := fractionBillionths_lt x.fraction
  simp only [Denotes, TimeOfDay.exists_fields_eq_iff, Valid]
  omega

theorem Denotes.fields_eq (h : x.Denotes t) : x.fields = timeFields t := by
  obtain ⟨hhour, hminute, hsecond, hnanosecond⟩ := h
  rw [timeFields, hhour, hminute, hsecond, hnanosecond]
  rfl

theorem Denotes.nanos_eq (h : x.Denotes t) :
    t.nanos = TimeOfDay.nanosOfClock x.hour.value x.minute.value x.second.value x.nanosecond := by
  obtain ⟨hhour, hminute, hsecond, hnanosecond⟩ := h
  rw [t.nanos_eq_fields, hhour, hminute, hsecond, hnanosecond]
  rfl

end ClockText

theorem localOf_eq_ok {x : DateText} {y : ClockText} {l : LocalDateTime} :
    localOf x.fields y.fields = .ok l ↔ x.Denotes l.date ∧ y.Denotes l.time := by
  rw [← DateText.dateOf_eq_ok, ← ClockText.timeOf_eq_ok]
  constructor
  · intro h
    obtain ⟨date, hdate, h⟩ := bind_eq_ok.mp h
    obtain ⟨time, htime, h⟩ := bind_eq_ok.mp h
    cases h
    exact ⟨hdate, htime⟩
  · rintro ⟨hdate, htime⟩
    exact bind_eq_ok.mpr ⟨l.date, hdate, bind_eq_ok.mpr ⟨l.time, htime, rfl⟩⟩

namespace OffsetText

variable {x : OffsetText}

/-- Offsets in range are less than a day. -/
theorem InRange.total_bounds (h : x.InRange) : -secondsPerDay < x.total ∧ x.total < secondsPerDay := by
  cases x with
  | utc => decide
  | numeric negative hours minutes seconds =>
    obtain ⟨hh, hm, hs⟩ := h
    simp only [total, secondsPerDay, secondsPerHour, secondsPerMinute]
    split <;> omega

theorem ends_chars {p : Char → Bool} (hz : p 'Z' = false) (hplus : p '+' = false) (hminus : p '-' = false)
    (x : OffsetText) (rest : List Char) : Ends p (x.chars ++ rest) := by
  cases x with
  | utc => exact ends_cons hz _
  | numeric negative hours minutes seconds =>
    cases negative with
    | true => exact ends_cons hminus _
    | false => exact ends_cons hplus _

end OffsetText

variable {cs rest : List Char}

theorem readDate_eq_ok {fields : Nat × Nat × Nat} :
    readDate cs = .ok (fields, rest) ↔ ∃ x : DateText, cs = x.chars ++ rest ∧ x.fields = fields := by
  unfold readDate
  simp only [bind_run_eq_ok, digits_eq_ok, expect_eq_ok]
  constructor
  · rintro ⟨_, _, ⟨y, rfl, rfl⟩, _, _, rfl, _, _, ⟨m, rfl, rfl⟩, _, _, rfl, _, _, ⟨d, rfl, rfl⟩, h⟩
    cases h
    refine ⟨⟨y, m, d⟩, ?_, rfl⟩
    simp only [DateText.chars, List.append_assoc, List.cons_append]
  · rintro ⟨x, rfl, rfl⟩
    simp only [DateText.chars, List.append_assoc, List.cons_append]
    exact ⟨_, _, ⟨x.year, rfl, rfl⟩, (), _, rfl, _, _, ⟨x.month, rfl, rfl⟩, (), _, rfl, _, _, ⟨x.day, rfl, rfl⟩, rfl⟩

/-- A time is read up to the last digit of its fraction, or of its seconds if no point follows them. -/
theorem readTime_eq_ok {fields : Nat × Nat × Nat × Nat} :
    readTime cs = .ok (fields, rest) ↔ ∃ x : ClockText, cs = x.chars ++ rest ∧ x.fields = fields ∧
      Ends (if x.fraction.isSome then Char.isDigit else (· == '.')) rest := by
  unfold readTime
  simp only [bind_run_eq_ok, digits_eq_ok, expect_eq_ok, fraction?_eq_ok]
  constructor
  · rintro ⟨_, _, ⟨h, rfl, rfl⟩, _, _, rfl, _, _, ⟨m, rfl, rfl⟩, _, _, rfl, _, _, ⟨s, rfl, rfl⟩, _, _,
      ⟨f, rfl, rfl, hends⟩, hreturn⟩
    cases hreturn
    refine ⟨⟨h, m, s, f⟩, ?_, rfl, hends⟩
    simp only [ClockText.chars, List.append_assoc, List.cons_append]
  · rintro ⟨x, rfl, rfl, hends⟩
    simp only [ClockText.chars, List.append_assoc, List.cons_append]
    exact ⟨_, _, ⟨x.hour, rfl, rfl⟩, (), _, rfl, _, _, ⟨x.minute, rfl, rfl⟩, (), _, rfl, _, _, ⟨x.second, rfl, rfl⟩,
      _, _, ⟨x.fraction, rfl, rfl, hends⟩, rfl⟩

theorem readSign_eq_ok {problem : Problem} {negative : Bool} :
    readSign problem cs = .ok (negative, rest) ↔ cs = (if negative then '-' else '+') :: rest := by
  unfold readSign
  constructor
  · intro h
    obtain ⟨_, _, hplus, h⟩ := bind_run_eq_ok.mp h
    rcases accept_eq_ok.mp hplus with ⟨rfl, rfl⟩ | ⟨rfl, -, rfl⟩
    · cases h
      rfl
    · obtain ⟨_, _, hminus, h⟩ := bind_run_eq_ok.mp h
      rcases accept_eq_ok.mp hminus with ⟨rfl, rfl⟩ | ⟨rfl, -, rfl⟩
      · cases h
        rfl
      · cases h
  · rintro rfl
    cases negative with
    | true =>
      refine bind_run_eq_ok.mpr ⟨false, '-' :: rest, accept_of_ends (ends_cons rfl rest), ?_⟩
      exact bind_run_eq_ok.mpr ⟨true, rest, accept_cons _ _, rfl⟩
    | false => exact bind_run_eq_ok.mpr ⟨true, rest, accept_cons _ _, rfl⟩

/-- Seconds of an offset are taken if a colon comes next. -/
theorem offsetSeconds_eq_ok {α : Type} {field : String} {go : Nat → Reader α} {a : α} :
    (do if ← accept [':'] then digits 2 field >>= go else pure 0 >>= go : Reader α) cs = .ok (a, rest) ↔
      ∃ (x : Option (DigitRun 2 2)) (mid : List Char), cs = OffsetText.secondsChars x ++ mid ∧
        (x = none → Ends (· == ':') mid) ∧ go (OffsetText.secondsValue x) mid = .ok (a, rest) := by
  simp only [bind_run_eq_ok, accept_eq_ok]
  constructor
  · rintro ⟨_, mid, ⟨rfl, rfl⟩ | ⟨rfl, hends, rfl⟩, h⟩
    · obtain ⟨_, behind, hdigits, hgo⟩ := bind_run_eq_ok.mp h
      obtain ⟨x, rfl, rfl⟩ := digits_eq_ok.mp hdigits
      exact ⟨some x, behind, rfl, nofun, hgo⟩
    · exact ⟨none, _, rfl, fun _ => hends, h⟩
  · rintro ⟨x, mid, rfl, hends, h⟩
    cases x with
    | none => exact ⟨false, mid, Or.inr ⟨rfl, hends rfl, rfl⟩, h⟩
    | some x => exact ⟨true, _, Or.inl ⟨rfl, rfl⟩, bind_run_eq_ok.mpr ⟨_, mid, digits_eq_ok.mpr ⟨x, rfl, rfl⟩, h⟩⟩

/-- An offset is read with its seconds if a colon follows its minutes. -/
theorem readOffset_eq_ok {n : Int} : readOffset cs = .ok (n, rest) ↔
    ∃ x : OffsetText, cs = x.chars ++ rest ∧ x.InRange ∧ x.total = n ∧ (x.isOpen → Ends (· == ':') rest) := by
  unfold readOffset
  constructor
  · intro h
    obtain ⟨_, _, hzulu, hread⟩ := bind_run_eq_ok.mp h
    rcases accept_eq_ok.mp hzulu with ⟨rfl, rfl⟩ | ⟨rfl, -, rfl⟩
    · cases hread
      exact ⟨.utc, rfl, trivial, rfl, nofun⟩
    -- Behind the sign there is one way to go up to the colon before the seconds, where it parts.
    · simp only [Bool.false_eq_true, ↓reduceIte, bind_run_eq_ok, digits_eq_ok, expect_eq_ok, readSign_eq_ok] at hread
      obtain ⟨negative, _, rfl, _, _, ⟨hours, rfl, rfl⟩, _, _, rfl, _, _, ⟨minutes, rfl, rfl⟩, _, _, hcolon, hlast⟩ :=
        hread
      obtain ⟨seconds, mid, rfl, hends, hjudged⟩ :=
        offsetSeconds_eq_ok.mp (bind_run_eq_ok.mpr ⟨_, _, hcolon, hlast⟩)
      split at hjudged
      · cases hjudged
      · rename_i hrange
        cases hjudged
        refine ⟨.numeric negative hours minutes seconds, ?_, ?_, rfl, ?_⟩
        · simp only [OffsetText.chars, List.append_assoc, List.cons_append]
        · simpa only [OffsetText.InRange, not_or, Nat.not_lt] using hrange
        · intro hopen
          cases seconds with
          | none => exact hends rfl
          | some s => cases hopen
  · rintro ⟨x, rfl, hrange, rfl, hends⟩
    cases x with
    | utc => exact bind_run_eq_ok.mpr ⟨true, rest, accept_cons _ _, rfl⟩
    | numeric negative hours minutes seconds =>
      simp only [OffsetText.chars, List.append_assoc, List.cons_append]
      refine bind_run_eq_ok.mpr ⟨false, _, accept_of_ends (ends_cons ?_ _), ?_⟩
      · cases negative <;> rfl
      refine bind_run_eq_ok.mpr ⟨negative, _, readSign_eq_ok.mpr rfl, ?_⟩
      refine bind_run_eq_ok.mpr ⟨_, _, digits_eq_ok.mpr ⟨hours, rfl, rfl⟩, ?_⟩
      refine bind_run_eq_ok.mpr ⟨(), _, expect_eq_ok.mpr rfl, ?_⟩
      refine bind_run_eq_ok.mpr ⟨_, _, digits_eq_ok.mpr ⟨minutes, rfl, rfl⟩, ?_⟩
      refine offsetSeconds_eq_ok.mpr ⟨seconds, rest, rfl, ?_, ?_⟩
      · rintro rfl
        exact hends rfl
      · rw [if_neg]
        · rfl
        · simpa only [OffsetText.InRange, not_or, Nat.not_lt] using hrange

end Iso8601

open Text Text.Reader Iso8601

variable {text : String}

theorem Date.parse_eq_ok {d : Date} :
    Date.parse text = .ok d ↔ ∃ x : DateText, text.toList = x.chars ∧ x.Denotes d := by
  unfold Date.parse
  simp only [read_eq_ok, bind_run_eq_ok, readDate_eq_ok, finish_eq_ok, build_eq_ok]
  constructor
  · rintro ⟨_, _, _, ⟨x, hchars, rfl⟩, _, _, ⟨rfl, rfl⟩, hd, rfl⟩
    rw [List.append_nil] at hchars
    exact ⟨x, hchars, DateText.dateOf_eq_ok.mp hd⟩
  · rintro ⟨x, hchars, hd⟩
    rw [← x.chars.append_nil] at hchars
    exact ⟨[], _, _, ⟨x, hchars, rfl⟩, (), [], ⟨rfl, rfl⟩, DateText.dateOf_eq_ok.mpr hd, rfl⟩

theorem TimeOfDay.parse_eq_ok {t : TimeOfDay} :
    TimeOfDay.parse text = .ok t ↔ ∃ x : ClockText, text.toList = x.chars ∧ x.Denotes t := by
  unfold TimeOfDay.parse
  simp only [read_eq_ok, bind_run_eq_ok, readTime_eq_ok, finish_eq_ok, build_eq_ok]
  constructor
  · rintro ⟨_, _, _, ⟨x, hchars, rfl, -⟩, _, _, ⟨rfl, rfl⟩, ht, rfl⟩
    rw [List.append_nil] at hchars
    exact ⟨x, hchars, ClockText.timeOf_eq_ok.mp ht⟩
  · rintro ⟨x, hchars, ht⟩
    rw [← x.chars.append_nil] at hchars
    exact ⟨[], _, _, ⟨x, hchars, rfl, ends_nil _⟩, (), [], ⟨rfl, rfl⟩, ClockText.timeOf_eq_ok.mpr ht, rfl⟩

theorem LocalDateTime.parse_eq_ok {l : LocalDateTime} : LocalDateTime.parse text = .ok l ↔
    ∃ (x : DateText) (y : ClockText), text.toList = x.chars ++ 'T' :: y.chars ∧
      x.Denotes l.date ∧ y.Denotes l.time := by
  unfold LocalDateTime.parse
  simp only [read_eq_ok, bind_run_eq_ok, readDate_eq_ok, expect_eq_ok, readTime_eq_ok, finish_eq_ok, build_eq_ok]
  constructor
  · rintro ⟨_, _, _, ⟨x, hchars, rfl⟩, _, _, rfl, _, _, ⟨y, rfl, rfl, -⟩, _, _, ⟨rfl, rfl⟩, hl, rfl⟩
    rw [List.append_nil] at hchars
    exact ⟨x, y, hchars, localOf_eq_ok.mp hl⟩
  · rintro ⟨x, y, hchars, hl⟩
    rw [← y.chars.append_nil] at hchars
    exact ⟨[], _, _, ⟨x, hchars, rfl⟩, (), _, rfl, _, _, ⟨y, rfl, rfl, ends_nil _⟩, (), [], ⟨rfl, rfl⟩,
      localOf_eq_ok.mpr hl, rfl⟩

end CivilTime
