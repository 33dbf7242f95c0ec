/- Dates, times and offsets are read back from their texts. -/
import CivilTime.Iso8601.Writer
import CivilTime.Proofs.Iso8601.Forms

namespace CivilTime

open Text Text.Reader Iso8601

namespace Iso8601

theorem dateOf_dateFields (d : Date) : dateOf (dateFields d) = .ok d := by
  have hy := d.year_bounds.1
  have hm := d.month_bounds.1
  have hd := d.day_bounds.1
  rw [dateOf, dateFields, Int.toNat_of_nonneg (by omega), Int.toNat_of_nonneg (by omega),
    Int.toNat_of_nonneg (by omega), d.ofYmd_fields]

theorem timeOf_timeFields (t : TimeOfDay) : timeOf (timeFields t) = .ok t := by
  rw [timeOf, timeFields, Int.toNat_of_nonneg t.hour_bounds.1, Int.toNat_of_nonneg t.minute_bounds.1,
    Int.toNat_of_nonneg t.second_bounds.1, Int.toNat_of_nonneg t.nanosecond_bounds.1, t.ofClock_fields]

theorem localOf_fields (l : LocalDateTime) : localOf (dateFields l.date) (timeFields l.time) = .ok l := by
  rw [localOf, dateOf_dateFields, timeOf_timeFields]
  rfl

theorem exists_dateText (d : Date) : ∃ x : DateText, x.chars = d.chars ∧ x.fields = dateFields d := by
  have hy := d.year_bounds
  have hm := d.month_bounds
  have hd := d.day_bounds
  have hlen := Calendar.monthLength_le d.year d.month
  refine ⟨⟨.ofFixed 4 d.year.toNat, .ofFixed 2 d.month.toNat, .ofFixed 2 d.day.toNat⟩, ?_, ?_⟩
  · simp only [Date.chars, List.append_assoc, List.cons_append]
    rfl
  · rw [DateText.fields, DigitRun.value_ofFixed (by omega), DigitRun.value_ofFixed (by omega),
      DigitRun.value_ofFixed (by omega)]
    rfl

theorem readDate_chars (d : Date) (rest : List Char) :
    readDate (d.chars ++ rest) = .ok (dateFields d, rest) := by
  obtain ⟨x, hchars, hfields⟩ := exists_dateText d
  exact readDate_eq_ok.mpr ⟨x, by rw [hchars], hfields⟩

theorem exists_clockText (t : TimeOfDay) : ∃ x : ClockText, x.chars = t.chars ∧ x.fields = timeFields t := by
  have hh := t.hour_bounds
  have hm := t.minute_bounds
  have hs := t.second_bounds
  have hn := t.nanosecond_bounds
  have hlt : t.nanosecond.toNat < 10 ^ 9 := by omega
  obtain ⟨fraction, hchars, hvalue⟩ := exists_fractionChars_eq hlt
  refine ⟨⟨.ofFixed 2 t.hour.toNat, .ofFixed 2 t.minute.toNat, .ofFixed 2 t.second.toNat, fraction⟩, ?_, ?_⟩
  · simp only [TimeOfDay.chars, List.append_assoc, List.cons_append, ← hchars]
    rfl
  · rw [ClockText.fields, DigitRun.value_ofFixed (by omega), DigitRun.value_ofFixed (by omega),
      DigitRun.value_ofFixed (by omega), ClockText.nanosecond, hvalue]
    rfl

/-- A time is read back if neither a digit nor a point follows it. -/
theorem readTime_chars (t : TimeOfDay) {rest : List Char} (hdot : Ends (· == '.') rest)
    (hdigit : Ends Char.isDigit rest) : readTime (t.chars ++ rest) = .ok (timeFields t, rest) := by
  obtain ⟨x, hchars, hfields⟩ := exists_clockText t
  refine readTime_eq_ok.mpr ⟨x, by rw [hchars], hfields, ?_⟩
  split
  · exact hdigit
  · exact hdot

theorem readOffset_utc (rest : List Char) : readOffset ('Z' :: rest) = .ok (0, rest) :=
  readOffset_eq_ok.mpr ⟨.utc, rfl, trivial, rfl, nofun⟩

/-- Seconds of an offset are written only if there are any. -/
theorem exists_secondsText {n : Nat} (h : n < 10 ^ 2) : ∃ x : Option (DigitRun 2 2),
    OffsetText.secondsChars x = (if n = 0 then [] else ':' :: fixed 2 n) ∧ OffsetText.secondsValue x = n := by
  by_cases h0 : n = 0
  · exact ⟨none, (if_pos h0).symm, h0.symm⟩
  · exact ⟨some (.ofFixed 2 n), (if_neg h0).symm, DigitRun.value_ofFixed h⟩

theorem exists_offsetText (o : Offset) :
    ∃ x : OffsetText, x.chars = o.chars ∧ x.InRange ∧ x.total = o.seconds := by
  have hlow := o.neg_day_lt
  have hhigh := o.lt_day
  simp only [secondsPerDay] at hlow hhigh
  have hhours : o.seconds.natAbs / 3600 < 10 ^ 2 := by omega
  have hminutes : o.seconds.natAbs % 3600 / 60 < 10 ^ 2 := by omega
  obtain ⟨seconds, hchars, hvalue⟩ := exists_secondsText (n := o.seconds.natAbs % 60) (by omega)
  refine ⟨.numeric (decide (o.seconds < 0)) (.ofFixed 2 (o.seconds.natAbs / 3600))
    (.ofFixed 2 (o.seconds.natAbs % 3600 / 60)) seconds, ?_, ?_, ?_⟩
  · simp only [Offset.chars, OffsetText.chars, List.append_assoc, List.cons_append, ← hchars, decide_eq_true_eq]
    rfl
  · rw [OffsetText.InRange, DigitRun.value_ofFixed hhours, DigitRun.value_ofFixed hminutes, hvalue]
    omega
  · simp only [OffsetText.total, DigitRun.value_ofFixed hhours, DigitRun.value_ofFixed hminutes, hvalue, secondsPerHour,
      secondsPerMinute, decide_eq_true_eq]
    split <;> omega

/-- An offset is read back from its sign, hours, minutes and seconds if no colon follows it. -/
theorem readOffset_chars (o : Offset) {rest : List Char} (hcolon : Ends (· == ':') rest) :
    readOffset (o.chars ++ rest) = .ok (o.seconds, rest) := by
  obtain ⟨x, hchars, hrange, htotal⟩ := exists_offsetText o
  exact readOffset_eq_ok.mpr ⟨x, by rw [hchars], hrange, htotal, fun _ => hcolon⟩

end Iso8601

theorem Date.parse_text (d : Date) : Date.parse d.text = .ok d := by
  have hread := of_append_nil (readDate_chars d [])
  refine read_of_ok ?_
  rw [bind_of_ok hread, bind_of_ok finish_nil, dateOf_dateFields, build_ok]

theorem TimeOfDay.parse_text (t : TimeOfDay) : TimeOfDay.parse t.text = .ok t := by
  have hread := of_append_nil (readTime_chars t (ends_nil _) (ends_nil _))
  refine read_of_ok ?_
  rw [bind_of_ok hread, bind_of_ok finish_nil, timeOf_timeFields, build_ok]

theorem LocalDateTime.parse_text (l : LocalDateTime) : LocalDateTime.parse l.text = .ok l := by
  have htime := of_append_nil (readTime_chars l.time (ends_nil _) (ends_nil _))
  refine read_of_ok ?_
  rw [LocalDateTime.chars, bind_of_ok (readDate_chars l.date _), bind_of_ok (expect_cons _ _), bind_of_ok htime,
    bind_of_ok finish_nil, localOf_fields, build_ok]

theorem Offset.parse_text (o : Offset) : Offset.parse o.text = .ok o := by
  have hread := of_append_nil (readOffset_chars o (ends_nil _))
  refine read_of_ok ?_
  rw [bind_of_ok hread, bind_of_ok finish_nil, o.ofSeconds_seconds, build_ok]

end CivilTime
