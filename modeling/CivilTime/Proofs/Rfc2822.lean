/- Timestamps of RFC 2822: which texts are read, and that reading and writing undo each other. -/
import CivilTime.Proofs.Rfc3339.Grammar
import CivilTime.Rfc2822

namespace CivilTime

theorem Weekday.exists_getElem?_all (w : Weekday) : ∃ i : Nat, Weekday.all[i]? = some w :=
  List.getElem?_of_mem (by cases w <;> decide)

namespace Rfc2822

open Text Text.Reader Iso8601 Rfc3339

variable {cs rest : List Char} {i : Nat} {field : String}

/-- Different names of three characters. -/
structure AreNames (names : List (List Char)) : Prop where
  nodup : names.Nodup
  length_eq : ∀ name ∈ names, name.length = 3

theorem areNames_weekday : AreNames weekdayNames := ⟨by decide, by decide⟩

theorem areNames_month : AreNames monthNames := ⟨by decide, by decide⟩

theorem readName_eq_ok {names : List (List Char)} (h : AreNames names) :
    readName names field cs = .ok (i, rest) ↔ ∃ name, names[i]? = some name ∧ cs = name ++ rest := by
  have hfind (name : List Char) : names.findIdx? (· == name) = some i ↔ names[i]? = some name := by
    rw [List.findIdx?_eq_some_iff_getElem, List.getElem?_eq_some_iff]
    refine exists_congr fun hi => ?_
    rw [beq_iff_eq, and_iff_left_iff_imp]
    rintro hname j hj hother
    rw [beq_iff_eq, ← hname] at hother
    exact absurd ((h.nodup.getElem_inj_iff).mp hother) (Nat.ne_of_lt hj)
  constructor
  · intro hread
    unfold readName at hread
    split at hread
    · rename_i j hj
      cases hread
      exact ⟨cs.take 3, (hfind _).mp hj, (List.take_append_drop 3 cs).symm⟩
    · cases hread
  · rintro ⟨name, hname, rfl⟩
    have hlen := h.length_eq name (List.mem_of_getElem? hname)
    rw [readName, List.take_left' hlen, List.drop_left' hlen, (hfind name).mpr hname]

def monthName (month : Fin 12) : List Char := monthNames.get month

theorem readName_weekday_eq_ok : readName weekdayNames field cs = .ok (i, rest) ↔
    ∃ w : Weekday, Weekday.all[i]? = some w ∧ cs = w.shortName.toList ++ rest := by
  rw [readName_eq_ok areNames_weekday, weekdayNames]
  simp only [List.getElem?_map, Option.map_eq_some_iff]
  constructor
  · rintro ⟨_, ⟨w, hw, rfl⟩, hcs⟩
    exact ⟨w, hw, hcs⟩
  · rintro ⟨w, hw, hcs⟩
    exact ⟨_, ⟨w, hw, rfl⟩, hcs⟩

theorem readName_month_eq_ok : readName monthNames field cs = .ok (i, rest) ↔
    ∃ month : Fin 12, cs = monthName month ++ rest ∧ month = i := by
  rw [readName_eq_ok areNames_month]
  constructor
  · rintro ⟨name, hname, rfl⟩
    obtain ⟨hi, rfl⟩ := List.getElem?_eq_some_iff.mp hname
    exact ⟨⟨i, hi⟩, rfl, rfl⟩
  · rintro ⟨month, rfl, rfl⟩
    exact ⟨_, List.getElem?_eq_getElem month.isLt, rfl⟩

/-- A weekday and a day, a month by its name, a year, a time without a fraction, and a sign with hours and minutes. -/
structure MailText where
  weekday : Weekday
  day : DigitRun 2 2
  month : Fin 12
  year : DigitRun 4 4
  hour : DigitRun 2 2
  minute : DigitRun 2 2
  second : DigitRun 2 2
  negative : Bool
  hours : DigitRun 2 2
  minutes : DigitRun 2 2

namespace MailText

def dateChars (weekday : Weekday) (day : DigitRun 2 2) (month : Fin 12) (year : DigitRun 4 4) : List Char :=
  weekday.shortName.toList ++ ',' :: ' ' :: (day.chars ++ ' ' :: (monthName month ++ ' ' :: (year.chars ++ [' '])))

def clockChars (hour minute second : DigitRun 2 2) : List Char :=
  hour.chars ++ ':' :: (minute.chars ++ ':' :: (second.chars ++ [' ']))

def offsetChars (negative : Bool) (hours minutes : DigitRun 2 2) : List Char :=
  (if negative then '-' else '+') :: (hours.chars ++ minutes.chars)

/-- What stands before the offset. -/
def wallChars (x : MailText) : List Char :=
  dateChars x.weekday x.day x.month x.year ++ clockChars x.hour x.minute x.second

def chars (x : MailText) : List Char := x.wallChars ++ offsetChars x.negative x.hours x.minutes

def text (x : MailText) : String := String.ofList x.chars

/-- The same fields with a number for the month. -/
def timestamp (x : MailText) : TimestampText where
  date := ⟨x.year, .ofFixed 2 (x.month.val + 1), x.day⟩
  clock := ⟨x.hour, x.minute, x.second, none⟩
  offset := .numeric x.negative x.hours x.minutes none

/-- The fields are in order, and the date is on the weekday. -/
structure Valid (x : MailText) : Prop where
  timestamp : x.timestamp.Valid
  weekday : Weekday.ofDayNumber x.timestamp.date.ymd.dayNumber = x.weekday

/-- The value has the fields that are written, and its date is on the weekday. -/
structure Denotes (x : MailText) (v : OffsetDateTime) : Prop where
  timestamp : x.timestamp.Denotes v
  weekday : v.wall.date.weekday = x.weekday

variable {x : MailText} {v : OffsetDateTime}

theorem date_fields (x : MailText) : x.timestamp.date.fields = (x.year.value, x.month.val + 1, x.day.value) := by
  have hmonth := x.month.isLt
  have hvalue : (DigitRun.ofFixed 2 (x.month.val + 1)).value = x.month + 1 := DigitRun.value_ofFixed (by omega)
  exact congrArg (fun month => (x.year.value, month, x.day.value)) hvalue

theorem offset_total (x : MailText) : x.timestamp.offset.total =
    (let size : Int := x.hours.value * secondsPerHour + x.minutes.value * secondsPerMinute
     if x.negative then -size else size) := by
  show (if x.negative then -(_ + (0 : Int)) else _ + (0 : Int)) = _
  rw [Int.add_zero]

theorem offset_inRange_iff : x.timestamp.offset.InRange ↔ x.hours.value ≤ 23 ∧ x.minutes.value ≤ 59 := by
  show _ ∧ _ ∧ 0 ≤ 59 ↔ _
  rw [and_iff_left (Nat.zero_le 59)]

theorem exists_denotes_iff (hoffset : x.timestamp.offset.InRange) : (∃ v, x.Denotes v) ↔ x.Valid := by
  constructor
  · rintro ⟨v, hv, hweekday⟩
    refine ⟨(TimestampText.exists_denotes_iff hoffset).mp ⟨v, hv⟩, ?_⟩
    rw [← hv.date.dayNumber_eq, ← hweekday]
    rfl
  · rintro ⟨hvalid, hweekday⟩
    obtain ⟨v, hv⟩ := (TimestampText.exists_denotes_iff hoffset).mpr hvalid
    refine ⟨v, hv, ?_⟩
    rw [← hweekday, ← hv.date.dayNumber_eq]
    rfl

end MailText

section
variable {α : Type} {a : α}

/-- The weekday and the date with the blank before the time. -/
theorem readDate_eq_ok {go : Nat → Nat → Nat → Nat → Reader α} :
    (do
      let weekday ← readName weekdayNames "weekday"
      expect [',', ' ']
      let day ← digits 2 "day"
      expect [' ']
      let month ← readName monthNames "month"
      expect [' ']
      let year ← digits 4 "year"
      expect [' ']
      go weekday day month year : Reader α) cs = .ok (a, rest) ↔
    ∃ (i : Nat) (w : Weekday) (day : DigitRun 2 2) (month : Fin 12) (year : DigitRun 4 4) (mid : List Char),
      Weekday.all[i]? = some w ∧ cs = MailText.dateChars w day month year ++ mid ∧
        go i day.value month year.value mid = .ok (a, rest) := by
  simp only [bind_run_eq_ok, readName_weekday_eq_ok, readName_month_eq_ok, expect_literal_eq_ok, digits_eq_ok,
    MailText.dateChars, List.append_assoc, List.cons_append, List.nil_append]
  constructor
  · rintro ⟨i, _, ⟨w, hw, rfl⟩, _, _, rfl, _, _, ⟨day, rfl, rfl⟩, _, _, rfl, _, _, ⟨month, rfl, rfl⟩, _, _, rfl,
      _, _, ⟨year, rfl, rfl⟩, _, mid, rfl, h⟩
    exact ⟨i, w, day, month, year, mid, hw, rfl, h⟩
  · rintro ⟨i, w, day, month, year, mid, hw, rfl, h⟩
    exact ⟨i, _, ⟨w, hw, rfl⟩, (), _, rfl, _, _, ⟨day, rfl, rfl⟩, (), _, rfl, _, _, ⟨month, rfl, rfl⟩, (), _, rfl,
      _, _, ⟨year, rfl, rfl⟩, (), mid, rfl, h⟩

/-- The time with the blank before the offset. -/
theorem readClock_eq_ok {go : Nat → Nat → Nat → Reader α} :
    (do
      let hour ← digits 2 "hour"
      expect [':']
      let minute ← digits 2 "minute"
      expect [':']
      let second ← digits 2 "second"
      expect [' ']
      go hour minute second : Reader α) cs = .ok (a, rest) ↔
    ∃ (hour minute second : DigitRun 2 2) (mid : List Char), cs = MailText.clockChars hour minute second ++ mid ∧
      go hour.value minute.value second.value mid = .ok (a, rest) := by
  simp only [bind_run_eq_ok, expect_literal_eq_ok, digits_eq_ok, MailText.clockChars, List.append_assoc,
    List.cons_append, List.nil_append]
  constructor
  · rintro ⟨_, _, ⟨hour, rfl, rfl⟩, _, _, rfl, _, _, ⟨minute, rfl, rfl⟩, _, _, rfl, _, _, ⟨second, rfl, rfl⟩,
      _, mid, rfl, h⟩
    exact ⟨hour, minute, second, mid, rfl, h⟩
  · rintro ⟨hour, minute, second, mid, rfl, h⟩
    exact ⟨_, _, ⟨hour, rfl, rfl⟩, (), _, rfl, _, _, ⟨minute, rfl, rfl⟩, (), _, rfl, _, _, ⟨second, rfl, rfl⟩,
      (), mid, rfl, h⟩

end

theorem readOffset_eq_ok {fields : Bool × Nat × Nat} : readOffset cs = .ok (fields, rest) ↔
    ∃ (negative : Bool) (hours minutes : DigitRun 2 2),
      cs = MailText.offsetChars negative hours minutes ++ rest ∧ (negative, hours.value, minutes.value) = fields := by
  unfold readOffset
  simp only [bind_run_eq_ok, readSign_eq_ok, digits_eq_ok, pure_run_eq_ok, MailText.offsetChars, List.cons_append,
    List.append_assoc]
  constructor
  · rintro ⟨negative, _, rfl, _, _, ⟨hours, rfl, rfl⟩, _, _, ⟨minutes, rfl, rfl⟩, rfl, rfl⟩
    exact ⟨negative, hours, minutes, rfl, rfl⟩
  · rintro ⟨negative, hours, minutes, rfl, rfl⟩
    exact ⟨negative, _, rfl, _, _, ⟨hours, rfl, rfl⟩, _, _, ⟨minutes, rfl, rfl⟩, rfl, rfl⟩

theorem readTimestamp_eq_ok {v : OffsetDateTime} : readTimestamp cs = .ok (v, rest) ↔
    rest = [] ∧ ∃ x : MailText, cs = x.chars ∧ x.timestamp.offset.InRange ∧ x.Denotes v := by
  unfold readTimestamp
  constructor
  · intro h
    obtain ⟨i, w, day, month, year, _, hw, rfl, hclock⟩ := readDate_eq_ok.mp h
    obtain ⟨hour, minute, second, _, rfl, hbehind⟩ := readClock_eq_ok.mp hclock
    obtain ⟨_, _, hoffset, hjudged⟩ := bind_run_eq_ok.mp hbehind
    obtain ⟨negative, hours, minutes, rfl, rfl⟩ := readOffset_eq_ok.mp hoffset
    simp only [bind_run_eq_ok, finish_eq_ok, stopIf_eq_ok, build_eq_ok] at hjudged
    obtain ⟨_, _, ⟨rfl, rfl⟩, hrange, wall, _, ⟨hwall, rfl⟩, hweekday, o, _, ⟨ho, rfl⟩, hv, rfl⟩ := hjudged
    rw [hw, Option.getD_some, ne_eq, not_not] at hweekday
    rw [not_or, Nat.not_lt, Nat.not_lt] at hrange
    let x : MailText := ⟨w, day, month, year, hour, minute, second, negative, hours, minutes⟩
    rw [← x.date_fields] at hwall
    obtain ⟨hdate, hclock⟩ := localOf_eq_ok.mp (show localOf _ x.timestamp.clock.fields = .ok wall from hwall)
    obtain ⟨rfl, rfl⟩ := OffsetDateTime.of_eq_ok.mp hv
    refine ⟨rfl, x, ?_, MailText.offset_inRange_iff.mpr hrange, ⟨hdate, hclock, ?_⟩, hweekday⟩
    · rw [List.append_nil, ← List.append_assoc]
      rfl
    · rw [x.offset_total]
      exact Offset.ofSeconds_eq_ok.mp ho
  · rintro ⟨rfl, x, rfl, hrange, ⟨hdate, hclock, ho⟩, hweekday⟩
    obtain ⟨i, hi⟩ := x.weekday.exists_getElem?_all
    have hwall := localOf_eq_ok.mpr ⟨hdate, hclock⟩
    rw [x.date_fields] at hwall
    rw [x.offset_total] at ho
    rw [MailText.offset_inRange_iff, ← Nat.not_lt, ← Nat.not_lt, ← not_or] at hrange
    refine readDate_eq_ok.mpr ⟨i, x.weekday, x.day, x.month, x.year, _, hi, List.append_assoc .., ?_⟩
    refine readClock_eq_ok.mpr ⟨x.hour, x.minute, x.second, _, rfl, ?_⟩
    have hoffset : readOffset (MailText.offsetChars x.negative x.hours x.minutes) =
        .ok ((x.negative, x.hours.value, x.minutes.value), []) :=
      readOffset_eq_ok.mpr ⟨x.negative, x.hours, x.minutes, (List.append_nil _).symm, rfl⟩
    refine bind_run_eq_ok.mpr ⟨_, [], hoffset, ?_⟩
    refine bind_run_eq_ok.mpr ⟨(), [], finish_eq_ok.mpr ⟨rfl, rfl⟩, ?_⟩
    simp only [bind_run_eq_ok, stopIf_eq_ok, build_eq_ok]
    refine ⟨hrange, v.wall, [], ⟨hwall, rfl⟩, ?_, v.offset, [],
      ⟨Offset.ofSeconds_eq_ok.mpr ho, rfl⟩, OffsetDateTime.of_eq_ok.mpr ⟨rfl, rfl⟩, rfl⟩
    rw [hi, Option.getD_some, hweekday]
    exact not_not.mpr rfl

theorem worded_readName (names : List (List Char)) (field : String) (cs : List Char) :
    Worded (readName names field) cs := by
  intro s hs
  unfold readName at hs
  split at hs
  · cases hs
  · cases hs
    exact List.forall_mem_nil _

theorem worded_readOffset (cs : List Char) : Worded readOffset cs := by
  refine (worded_readSign rfl cs).bind fun _ cs _ => (worded_digits 2 _ cs).bind fun _ cs _ => ?_
  exact (worded_digits 2 _ cs).bind fun _ cs _ => worded_pure _ cs

theorem worded_readTimestamp (cs : List Char) : Worded readTimestamp cs := by
  refine (worded_readName _ _ cs).bind fun _ cs _ => (worded_expect _ cs).bind fun _ cs _ => ?_
  refine (worded_digits 2 _ cs).bind fun _ cs hday => (worded_expect _ cs).bind fun _ cs _ => ?_
  refine (worded_readName _ _ cs).bind fun _ cs hmonth => (worded_expect _ cs).bind fun _ cs _ => ?_
  refine (worded_digits 4 _ cs).bind fun _ cs hyear => (worded_expect _ cs).bind fun _ cs _ => ?_
  refine (worded_digits 2 _ cs).bind fun _ cs hhour => (worded_expect _ cs).bind fun _ cs _ => ?_
  refine (worded_digits 2 _ cs).bind fun _ cs hminute => (worded_expect _ cs).bind fun _ cs _ => ?_
  refine (worded_digits 2 _ cs).bind fun _ cs hsecond => (worded_expect _ cs).bind fun _ cs _ => ?_
  refine (worded_readOffset cs).bind fun _ cs hoffset => (worded_finish cs).bind fun _ cs _ => ?_
  obtain ⟨day, -, rfl⟩ := digits_eq_ok.mp hday
  obtain ⟨month, -, rfl⟩ := readName_month_eq_ok.mp hmonth
  obtain ⟨year, -, rfl⟩ := digits_eq_ok.mp hyear
  obtain ⟨hour, -, rfl⟩ := digits_eq_ok.mp hhour
  obtain ⟨minute, -, rfl⟩ := digits_eq_ok.mp hminute
  obtain ⟨second, -, rfl⟩ := digits_eq_ok.mp hsecond
  obtain ⟨negative, hours, minutes, -, rfl⟩ := readOffset_eq_ok.mp hoffset
  -- The weekday has no part in what is refused.
  let x : MailText := ⟨.monday, day, month, year, hour, minute, second, negative, hours, minutes⟩
  have hfields (f : Fault) (h : localOf x.timestamp.date.fields x.timestamp.clock.fields = .error f) :
      ∀ n ∈ f.shown, Writable n := localOf_writable _ _ h
  dsimp only
  refine worded_stopIf rfl fun hrange => ?_
  rw [not_or, Nat.not_lt, Nat.not_lt] at hrange
  have htotal := (x.offset_inRange_iff.mpr hrange).writable_total
  rw [x.date_fields] at hfields
  rw [x.offset_total] at htotal
  refine (worded_build hfields cs).bind fun _ cs _ => worded_stopIf rfl fun _ => ?_
  refine (worded_build (fun _ => Offset.ofSeconds_writable htotal) cs).bind fun _ cs _ => ?_
  exact worded_build (fun _ => OffsetDateTime.of_writable) cs

namespace MailText

variable {x : MailText} {v : OffsetDateTime}

theorem Denotes.nanosecond_eq_zero (h : x.Denotes v) : v.wall.nanosecond = 0 := h.timestamp.clock.2.2.2

theorem Denotes.whole_minutes (h : x.Denotes v) : v.offset.seconds % 60 = 0 := by
  rw [h.timestamp.offset, x.offset_total]
  simp only [secondsPerHour, secondsPerMinute]
  split <;> omega

theorem Denotes.offset_natAbs (h : x.Denotes v) :
    v.offset.seconds.natAbs = x.hours.value * 3600 + x.minutes.value * 60 := by
  rw [h.timestamp.offset, x.offset_total]
  simp only [secondsPerHour, secondsPerMinute]
  split <;> omega

theorem Denotes.monthNames_eq (h : x.Denotes v) :
    monthNames[(v.wall.month - 1).toNat]?.getD [] = monthName x.month := by
  have hmonth : v.wall.month = (DigitRun.ofFixed 2 (x.month.val + 1)).value := h.timestamp.date.2.1
  have hlt := x.month.isLt
  rw [DigitRun.value_ofFixed (by omega)] at hmonth
  have hindex : (v.wall.month - 1).toNat = x.month.val := by omega
  rw [hindex, List.getElem?_eq_getElem x.month.isLt, Option.getD_some]
  rfl

/-- A value is written with the fields of a text that denotes it. Only the sign is up to the offset. -/
theorem Denotes.chars_eq (hrange : x.timestamp.offset.InRange) (h : x.Denotes v) : Rfc2822.chars v =
    x.wallChars ++ (if v.offset.seconds < 0 then '-' else '+') :: (x.hours.chars ++ x.minutes.chars) := by
  obtain ⟨-, hminutes⟩ := offset_inRange_iff.mp hrange
  obtain ⟨hyear, -, hday⟩ := h.timestamp.date
  obtain ⟨hhour, hminute, hsecond, -⟩ := h.timestamp.clock
  have hoffset := h.offset_natAbs
  have hhours : v.offset.seconds.natAbs / 60 / 60 = x.hours.value := by omega
  have hminutes : v.offset.seconds.natAbs / 60 % 60 = x.minutes.value := by omega
  simp only [Rfc2822.chars, wallChars, dateChars, clockChars, LocalDateTime.day, LocalDateTime.year, LocalDateTime.hour,
    LocalDateTime.minute, LocalDateTime.second, h.monthNames_eq, h.weekday, hyear, hday, hhour, hminute, hsecond,
    hhours, hminutes, Int.toNat_natCast, DigitRun.fixed_value, List.append_assoc, List.cons_append, List.nil_append]
  rfl

/-- The offset is a minus before nothing but zeros. -/
def IsNegativeZero (x : MailText) : Prop := offsetChars x.negative x.hours x.minutes = "-0000".toList

theorem IsNegativeZero.offsetChars_eq (h : x.IsNegativeZero) :
    offsetChars x.negative x.hours x.minutes = "-0000".toList := h

theorem isNegativeZero_iff : x.IsNegativeZero ↔ x.negative = true ∧ x.hours.value = 0 ∧ x.minutes.value = 0 := by
  have hlen : x.hours.chars.length = ['0', '0'].length := Nat.le_antisymm x.hours.le_most x.hours.least_le
  have happend : x.hours.chars ++ x.minutes.chars = ['0', '0'] ++ ['0', '0'] ↔
      x.hours.chars = ['0', '0'] ∧ x.minutes.chars = ['0', '0'] := by
    constructor
    · exact fun h => List.append_inj h hlen
    · rintro ⟨h, h'⟩
      rw [h, h']
  have hsign : (if x.negative then '-' else '+') = '-' ↔ x.negative = true := by
    cases x.negative <;> decide
  rw [OffsetText.value_eq_zero_iff, OffsetText.value_eq_zero_iff, ← happend, ← hsign]
  exact iff_of_eq (List.cons.injEq ..)

theorem length_offsetChars (x : MailText) :
    (offsetChars x.negative x.hours x.minutes).length = "-0000".toList.length := by
  rw [offsetChars, List.length_cons, List.length_append, Nat.le_antisymm x.hours.le_most x.hours.least_le,
    Nat.le_antisymm x.minutes.le_most x.minutes.least_le]
  rfl

theorem Denotes.seconds_neg_iff (h : x.Denotes v) :
    v.offset.seconds < 0 ↔ x.negative = true ∧ ¬x.IsNegativeZero := by
  have htotal := h.timestamp.offset
  rw [x.offset_total] at htotal
  simp only [secondsPerHour, secondsPerMinute] at htotal
  rw [isNegativeZero_iff]
  cases hnegative : x.negative with
  | false =>
    rw [hnegative, if_neg Bool.false_ne_true] at htotal
    refine iff_of_false (by omega) fun hx => Bool.false_ne_true hx.1
  | true =>
    rw [hnegative, if_pos rfl] at htotal
    simp only [true_and]
    omega

theorem Denotes.chars_eq_chars (hrange : x.timestamp.offset.InRange) (h : x.Denotes v) (hx : ¬x.IsNegativeZero) :
    Rfc2822.chars v = x.chars := by
  have hneg := h.seconds_neg_iff
  rw [and_iff_left hx] at hneg
  rw [h.chars_eq hrange, chars, offsetChars]
  simp only [hneg]

/-- A zero is written with a plus. -/
theorem Denotes.chars_of_isNegativeZero (hrange : x.timestamp.offset.InRange) (h : x.Denotes v)
    (hx : x.IsNegativeZero) : Rfc2822.chars v = x.wallChars ++ "+0000".toList := by
  have hneg : ¬v.offset.seconds < 0 := fun hlt => (h.seconds_neg_iff.mp hlt).2 hx
  rw [h.chars_eq hrange, if_neg hneg]
  exact congrArg (fun cs => x.wallChars ++ '+' :: cs) (List.cons.inj hx).2

/-- Whole seconds and an offset of whole minutes can be written. -/
theorem exists_denotes (hnanos : v.wall.nanosecond = 0) (hminutes : v.offset.seconds % 60 = 0) :
    ∃ x : MailText, x.timestamp.offset.InRange ∧ x.Denotes v ∧ x.chars = Rfc2822.chars v := by
  have hyear := v.wall.date.year_bounds
  have hmonth := v.wall.date.month_bounds
  have hday := v.wall.date.day_bounds
  have hlen := Calendar.monthLength_le v.wall.date.year v.wall.date.month
  have hhour := v.wall.time.hour_bounds
  have hminute := v.wall.time.minute_bounds
  have hsecond := v.wall.time.second_bounds
  have hlow := v.offset.neg_day_lt
  have hhigh := v.offset.lt_day
  simp only [secondsPerDay] at hlow hhigh
  let x : MailText := ⟨v.wall.date.weekday, .ofFixed 2 v.wall.date.day.toNat, ⟨(v.wall.date.month - 1).toNat, by omega⟩,
    .ofFixed 4 v.wall.date.year.toNat, .ofFixed 2 v.wall.time.hour.toNat, .ofFixed 2 v.wall.time.minute.toNat,
    .ofFixed 2 v.wall.time.second.toNat, decide (v.offset.seconds < 0), .ofFixed 2 (v.offset.seconds.natAbs / 60 / 60),
    .ofFixed 2 (v.offset.seconds.natAbs / 60 % 60)⟩
  have hhours : x.hours.value = v.offset.seconds.natAbs / 60 / 60 := DigitRun.value_ofFixed (by omega)
  have hminutes' : x.minutes.value = v.offset.seconds.natAbs / 60 % 60 := DigitRun.value_ofFixed (by omega)
  have hrange : x.timestamp.offset.InRange := offset_inRange_iff.mpr (by omega)
  have hdate : x.timestamp.date.Denotes v.wall.date := by
    refine ⟨(DigitRun.natCast_value_ofFixed (by omega) (by omega)).symm, ?_,
      (DigitRun.natCast_value_ofFixed (by omega) (by omega)).symm⟩
    have hvalue : x.timestamp.date.month.value = x.month.val + 1 := DigitRun.value_ofFixed (by omega)
    have hindex : x.month.val = (v.wall.date.month - 1).toNat := rfl
    omega
  have hclock : x.timestamp.clock.Denotes v.wall.time :=
    ⟨(DigitRun.natCast_value_ofFixed (by omega) (by omega)).symm,
      (DigitRun.natCast_value_ofFixed (by omega) (by omega)).symm,
      (DigitRun.natCast_value_ofFixed (by omega) (by omega)).symm, hnanos⟩
  have hoffset : v.offset.seconds = x.timestamp.offset.total := by
    rw [x.offset_total]
    simp only [hhours, hminutes', secondsPerHour, secondsPerMinute, x, decide_eq_true_eq]
    split <;> omega
  have hx : x.Denotes v := ⟨⟨hdate, hclock, hoffset⟩, rfl⟩
  refine ⟨x, hrange, hx, (hx.chars_eq_chars hrange fun hzero => ?_).symm⟩
  obtain ⟨hnegative, hzero, hzero'⟩ := isNegativeZero_iff.mp hzero
  have hlt : v.offset.seconds < 0 := of_decide_eq_true hnegative
  omega

end MailText

end Rfc2822

namespace OffsetDateTime

open Text Text.Reader Iso8601 Rfc3339 Rfc2822

variable {text : String} {v : OffsetDateTime}

theorem parseRfc2822_eq_ok : OffsetDateTime.parseRfc2822 text = .ok v ↔
    ∃ x : MailText, x.Valid ∧ text = x.text ∧ x.Denotes v := by
  unfold OffsetDateTime.parseRfc2822
  simp only [read_eq_ok, Rfc2822.readTimestamp_eq_ok]
  constructor
  · rintro ⟨_, rfl, x, hchars, hrange, hv⟩
    refine ⟨x, (MailText.exists_denotes_iff hrange).mp ⟨v, hv⟩, ?_, hv⟩
    rw [MailText.text, ← hchars, String.ofList_toList]
  · rintro ⟨x, hx, rfl, hv⟩
    exact ⟨[], rfl, x, String.toList_ofList, hx.timestamp.offset, hv⟩

theorem formatRfc2822_eq_ok (hnanos : v.wall.nanosecond = 0) (hminutes : v.offset.seconds % 60 = 0) :
    v.formatRfc2822 = .ok (String.ofList (Rfc2822.chars v)) := by
  rw [formatRfc2822, if_neg (not_not.mpr hnanos), if_neg (not_not.mpr hminutes)]

theorem parseRfc2822_error_kind {e : Error} (h : OffsetDateTime.parseRfc2822 text = .error e) :
    e.kind = .invalidFormat := read_error_kind (Rfc2822.worded_readTimestamp _) h

theorem fails_formatRfc2822_iff : Fails v.formatRfc2822 .invalidFormat ↔
    v.wall.nanosecond ≠ 0 ∨ v.offset.seconds % 60 ≠ 0 := by
  constructor
  · intro h
    by_contra hwhole
    rw [not_or, not_not, not_not] at hwhole
    exact h.ne_ok _ (formatRfc2822_eq_ok hwhole.1 hwhole.2)
  · intro h
    unfold formatRfc2822
    split
    · exact fails_error.mpr rfl
    · rename_i hnanos
      rw [if_pos (h.resolve_left hnanos)]
      exact fails_error.mpr rfl

/-- What is read is written again as it was, but for a minus before a zero offset. -/
theorem formatRfc2822_of_parse (h : OffsetDateTime.parseRfc2822 text = .ok v) :
    (∀ head, text = head ++ "-0000" → v.formatRfc2822 = .ok (head ++ "+0000")) ∧
      ((∀ head, text ≠ head ++ "-0000") → v.formatRfc2822 = .ok text) := by
  obtain ⟨x, hx, rfl, hv⟩ := parseRfc2822_eq_ok.mp h
  have hrange := hx.timestamp.offset
  rw [formatRfc2822_eq_ok hv.nanosecond_eq_zero hv.whole_minutes]
  constructor
  · intro head htext
    have hchars := congrArg String.toList htext
    rw [MailText.text, String.toList_ofList, String.toList_append, MailText.chars] at hchars
    obtain ⟨hhead, hzero⟩ := List.append_inj' hchars x.length_offsetChars
    rw [hv.chars_of_isNegativeZero hrange hzero, hhead, String.ofList_append, String.ofList_toList,
      String.ofList_toList]
  · intro htext
    rw [hv.chars_eq_chars hrange fun hzero => ?_]
    · rfl
    · refine htext (String.ofList x.wallChars) ?_
      rw [MailText.text, MailText.chars, hzero.offsetChars_eq, String.ofList_append, String.ofList_toList]

theorem parseRfc2822_of_format (hnanos : v.wall.nanosecond = 0) (hminutes : v.offset.seconds % 60 = 0) :
    OffsetDateTime.parseRfc2822 (String.ofList (Rfc2822.chars v)) = .ok v := by
  obtain ⟨x, hrange, hv, hchars⟩ := MailText.exists_denotes hnanos hminutes
  refine parseRfc2822_eq_ok.mpr ⟨x, (MailText.exists_denotes_iff hrange).mp ⟨v, hv⟩, ?_, hv⟩
  rw [MailText.text, hchars]

/-- Values with whole seconds and an offset of whole minutes are written, others are refused, and what is written is
read back to the value. What is read is written again letter by letter, but `-0000` at the end becomes `+0000`. A text
is read if it is of the form, names the weekday of its date, has all fields in order and denotes an instant in range,
and the value then has these fields. -/
theorem rfc2822_reads_what_it_writes :
    (∀ v : OffsetDateTime, Fails v.formatRfc2822 .invalidFormat ↔
      v.wall.nanosecond ≠ 0 ∨ ¬(secondsPerMinute ∣ v.offset.seconds)) ∧
    (∀ v : OffsetDateTime, v.wall.nanosecond = 0 → secondsPerMinute ∣ v.offset.seconds →
      ∃ text, v.formatRfc2822 = .ok text ∧ OffsetDateTime.parseRfc2822 text = .ok v) ∧
    (∀ text v, OffsetDateTime.parseRfc2822 text = .ok v →
      (∀ head, text = head ++ "-0000" → v.formatRfc2822 = .ok (head ++ "+0000")) ∧
      ((∀ head, text ≠ head ++ "-0000") → v.formatRfc2822 = .ok text)) ∧
    (∀ text v, OffsetDateTime.parseRfc2822 text = .ok v ↔
      ∃ x : MailText, x.Valid ∧ text = x.text ∧ x.Denotes v) ∧
    ∀ text, (∀ x : MailText, x.Valid → text ≠ x.text) →
      Fails (OffsetDateTime.parseRfc2822 text) .invalidFormat := by
  refine ⟨fun v => ?_, fun v hnanos hminutes => ?_, fun _ _ => formatRfc2822_of_parse, fun _ _ => parseRfc2822_eq_ok,
    fun text htext => fails_of_ne_ok (fun _ => parseRfc2822_error_kind) fun v hv => ?_⟩
  · rw [fails_formatRfc2822_iff, Int.dvd_iff_emod_eq_zero]
    rfl
  · have hwhole := Int.emod_eq_zero_of_dvd hminutes
    exact ⟨_, formatRfc2822_eq_ok hnanos hwhole, parseRfc2822_of_format hnanos hwhole⟩
  · obtain ⟨x, hx, htext', -⟩ := parseRfc2822_eq_ok.mp hv
    exact htext x hx htext'

/-- A second before midnight on a leap day at Greenwich, with either sign, and on no other weekday. -/
theorem rfc2822_reads_leap_day :
    let zero : DigitRun 2 2 := .ofChars ['0', '0'] rfl (by decide) (by decide)
    let last : DigitRun 2 2 := .ofChars ['5', '9'] rfl (by decide) (by decide)
    let x : MailText := ⟨.thursday, .ofChars ['2', '9'] rfl (by decide) (by decide), 1,
      .ofChars ['2', '0', '2', '4'] rfl (by decide) (by decide), .ofChars ['2', '3'] rfl (by decide) (by decide), last,
      last, true, zero, zero⟩
    let v : OffsetDateTime := ⟨⟨⟨2460370, by decide, by decide⟩, ⟨86399000000000, by decide, by decide⟩⟩, .utc,
      by decide, by decide⟩
    x.text = "Thu, 29 Feb 2024 23:59:59 -0000" ∧ x.Valid ∧ OffsetDateTime.parseRfc2822 x.text = .ok v ∧
      v.formatRfc2822 = .ok "Thu, 29 Feb 2024 23:59:59 +0000" ∧
      (v.wall.nanosecond = 0 ∧ secondsPerMinute ∣ v.offset.seconds ∧
        OffsetDateTime.parseRfc2822 "Thu, 29 Feb 2024 23:59:59 +0000" = .ok v) ∧
      (∀ head, "Thu, 29 Feb 2024 23:59:59 +0000" ≠ head ++ "-0000") ∧
      Fails (OffsetDateTime.parseRfc2822 "Wed, 29 Feb 2024 23:59:59 +0000") .invalidFormat := by
  intro zero last x v
  obtain ⟨-, hwritten, hread, haccepted, hrefused⟩ := rfc2822_reads_what_it_writes
  have hx : x.Valid := by
    refine ⟨⟨⟨by decide, by decide⟩, ⟨by decide, by decide, by decide⟩, ⟨by decide, by decide, by decide⟩,
      ⟨by decide, by decide⟩⟩, by decide⟩
  have hv : x.Denotes v :=
    ⟨⟨⟨by decide, by decide, by decide⟩, ⟨by decide, by decide, by decide, by decide⟩, by decide⟩, by decide⟩
  have htext : x.text = "Thu, 29 Feb 2024 23:59:59 -0000" := by decide
  have hparse := (haccepted x.text v).mpr ⟨x, hx, rfl, hv⟩
  have hformat := (hread x.text v hparse).1 "Thu, 29 Feb 2024 23:59:59 " (by decide)
  have hplus (head : String) : "Thu, 29 Feb 2024 23:59:59 +0000" ≠ head ++ "-0000" := by
    intro h
    have hchars := congrArg String.toList h
    rw [String.toList_append] at hchars
    have hsplit : "Thu, 29 Feb 2024 23:59:59 ".toList ++ "+0000".toList = head.toList ++ "-0000".toList := hchars
    exact absurd (List.append_inj' hsplit rfl).2 (by decide)
  have hwrong : ∀ y : MailText, y.Valid → "Wed, 29 Feb 2024 23:59:59 +0000" ≠ y.text := by
    intro y hy htext
    have hnone : (OffsetDateTime.parseRfc2822 "Wed, 29 Feb 2024 23:59:59 +0000").isOk = false := by decide +kernel
    obtain ⟨w, hw⟩ := (MailText.exists_denotes_iff hy.timestamp.offset).mpr hy
    rw [(haccepted _ w).mpr ⟨y, hy, htext, hw⟩] at hnone
    cases hnone
  obtain ⟨text, hsame, hback⟩ := hwritten v (by decide) (by decide)
  have hagain : v.formatRfc2822 = .ok "Thu, 29 Feb 2024 23:59:59 +0000" := by
    rw [hformat] at hsame
    cases hsame
    exact (hread _ v hback).2 hplus
  rw [hagain] at hsame
  cases hsame
  exact ⟨htext, hx, hparse, hagain, ⟨by decide, by decide, hback⟩, hplus, hrefused _ hwrong⟩

end OffsetDateTime

end CivilTime
