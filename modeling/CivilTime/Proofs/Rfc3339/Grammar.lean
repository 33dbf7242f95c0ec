/- Timestamps are accepted if they are of the form, with fields in order and an instant in range. What is accepted has
the fields that are written, and texts of one value are spellings of each other. -/
import CivilTime.Proofs.Iso8601.Spelling
import CivilTime.Proofs.ZonedDateTime.Text
import CivilTime.Value.Order

namespace CivilTime

namespace Rfc3339

open Text Text.Reader Iso8601

/-- A date, a `T`, a time and an offset. -/
structure TimestampText where
  date : DateText
  clock : ClockText
  offset : OffsetText

namespace TimestampText

def chars (x : TimestampText) : List Char := x.date.chars ++ 'T' :: (x.clock.chars ++ x.offset.chars)

def text (x : TimestampText) : String := String.ofList x.chars

/-- Nanoseconds from the epoch to the reading, less the offset. -/
def nanos (x : TimestampText) : Int :=
  (x.date.ymd.dayNumber - Calendar.epochDay) * nanosPerDay +
    TimeOfDay.nanosOfClock x.clock.hour.value x.clock.minute.value x.clock.second.value x.clock.nanosecond -
    x.offset.total * nanosPerSecond

/-- The day is in the calendar, the fields are those of a clock, and the instant is in range. -/
structure Valid (x : TimestampText) : Prop where
  date : x.date.Valid
  clock : x.clock.Valid
  offset : x.offset.InRange
  instant : Instant.InRange x.nanos

/-- The value has the fields that are written and their offset. -/
structure Denotes (x : TimestampText) (v : OffsetDateTime) : Prop where
  date : x.date.Denotes v.wall.date
  clock : x.clock.Denotes v.wall.time
  offset : v.offset.seconds = x.offset.total

/-- The same but for zeros at the end of the fraction and the spelling of the offset. -/
structure Respells (x y : TimestampText) : Prop where
  date : x.date = y.date
  clock : x.clock.Respells y.clock
  offset : x.offset.Respells y.offset

variable {x y : TimestampText} {v w : OffsetDateTime}

theorem Denotes.nanos_eq (h : x.Denotes v) : v.nanos = x.nanos := by
  show v.wall.epochNanos - v.offset.nanos = x.nanos
  rw [LocalDateTime.epochNanos, h.date.dayNumber_eq, h.clock.nanos_eq, Offset.nanos, h.offset, nanos]

theorem exists_denotes_iff (hoffset : x.offset.InRange) : (∃ v, x.Denotes v) ↔ x.Valid := by
  constructor
  · rintro ⟨v, h⟩
    exact ⟨DateText.exists_denotes_iff.mp ⟨_, h.date⟩, ClockText.exists_denotes_iff.mp ⟨_, h.clock⟩, hoffset,
      h.nanos_eq ▸ v.toInstant.inRange_nanos⟩
  · intro h
    obtain ⟨date, hdate⟩ := DateText.exists_denotes_iff.mpr h.date
    obtain ⟨time, htime⟩ := ClockText.exists_denotes_iff.mpr h.clock
    obtain ⟨hlow, hhigh⟩ := hoffset.total_bounds
    have hnanos : (LocalDateTime.mk date time).epochNanos - (Offset.mk x.offset.total hlow hhigh).nanos = x.nanos := by
      rw [LocalDateTime.epochNanos, hdate.dayNumber_eq, htime.nanos_eq]
      rfl
    obtain ⟨hfirst, hlast⟩ := h.instant
    rw [← hnanos] at hfirst hlast
    exact ⟨⟨⟨date, time⟩, ⟨_, hlow, hhigh⟩, hfirst, hlast⟩, hdate, htime, rfl⟩

/-- Timestamps of one value are spellings of each other, and spellings of each other have one value. -/
theorem respells_iff (hx : x.offset.InRange) (hy : y.offset.InRange) (hv : x.Denotes v) (hw : y.Denotes w) :
    x.Respells y ↔ v = w := by
  constructor
  · rintro ⟨hdate, hclock, hoffset⟩
    have hwall : localOf x.date.fields x.clock.fields = .ok w.wall := by
      rw [hdate, ClockText.fields_eq_iff.mpr hclock]
      exact localOf_eq_ok.mpr ⟨hw.date, hw.clock⟩
    have htotal := (OffsetText.total_eq_iff hx hy).mpr hoffset
    refine OffsetDateTime.ext_wall_offset ?_ (Offset.ext_seconds ?_)
    · exact Except.ok.inj ((localOf_eq_ok.mpr ⟨hv.date, hv.clock⟩).symm.trans hwall)
    · rw [hv.offset, hw.offset, htotal]
  · rintro rfl
    refine ⟨DateText.fields_eq_iff.mp ?_, ClockText.fields_eq_iff.mp ?_, (OffsetText.total_eq_iff hx hy).mp ?_⟩
    · rw [hv.date.fields_eq, hw.date.fields_eq]
    · rw [hv.clock.fields_eq, hw.clock.fields_eq]
    · rw [← hv.offset, hw.offset]

end TimestampText

variable {cs rest : List Char}

/-- A timestamp is read with the seconds of its offset if a colon follows the minutes. -/
theorem readTimestamp_eq_ok {v : OffsetDateTime} : readTimestamp cs = .ok (v, rest) ↔
    ∃ x : TimestampText, cs = x.chars ++ rest ∧ x.offset.InRange ∧ x.Denotes v ∧
      (x.offset.isOpen → Ends (· == ':') rest) := by
  unfold readTimestamp
  simp only [bind_run_eq_ok, readDate_eq_ok, expect_eq_ok, readTime_eq_ok, readOffset_eq_ok, build_eq_ok]
  constructor
  · rintro ⟨_, _, ⟨date, rfl, rfl⟩, _, _, rfl, _, _, ⟨clock, rfl, rfl, -⟩, _, _, ⟨offset, rfl, hrange, rfl, hopen⟩,
      wall, _, ⟨hwall, rfl⟩, o, _, ⟨ho, rfl⟩, hv, rfl⟩
    obtain ⟨hdate, hclock⟩ := localOf_eq_ok.mp hwall
    obtain ⟨rfl, rfl⟩ := OffsetDateTime.of_eq_ok.mp hv
    refine ⟨⟨date, clock, offset⟩, ?_, hrange, ⟨hdate, hclock, Offset.ofSeconds_eq_ok.mp ho⟩, hopen⟩
    simp only [TimestampText.chars, List.append_assoc, List.cons_append]
  · rintro ⟨x, rfl, hrange, hv, hopen⟩
    simp only [TimestampText.chars, List.append_assoc, List.cons_append]
    have hwall := localOf_eq_ok.mpr ⟨hv.date, hv.clock⟩
    have ho := Offset.ofSeconds_eq_ok.mpr hv.offset
    refine ⟨_, _, ⟨x.date, rfl, rfl⟩, (), _, rfl, _, _, ⟨x.clock, rfl, rfl, ?_⟩, _, _,
      ⟨x.offset, rfl, hrange, rfl, hopen⟩, v.wall, _, ⟨hwall, rfl⟩, v.offset, _, ⟨ho, rfl⟩,
      OffsetDateTime.of_eq_ok.mpr ⟨rfl, rfl⟩, rfl⟩
    split
    · exact x.offset.ends_chars rfl rfl rfl rest
    · exact x.offset.ends_chars rfl rfl rfl rest

/-- A timestamp and a name in brackets are read with nothing behind them. -/
theorem readZoned_eq_ok {text id : String} {v : OffsetDateTime} : read .zoned readZoned text = .ok (v, id) ↔
    ∃ x : TimestampText, text.toList = x.chars ++ '[' :: (id.toList ++ [']']) ∧ x.Valid ∧ x.Denotes v ∧
      IsBracketName id := by
  unfold readZoned
  simp only [read_eq_ok, bind_run_eq_ok, readTimestamp_eq_ok, expect_eq_ok, takeWhile_eq_ok]
  constructor
  · rintro ⟨_, _, _, ⟨x, hchars, hrange, hv, -⟩, _, _, rfl, name, _, ⟨rfl, hname, -⟩, hread⟩
    split at hread
    · cases hread
    · rename_i hne
      simp only [bind_run_eq_ok, expect_eq_ok, finish_eq_ok, pure_run_eq_ok, Prod.mk.injEq] at hread
      obtain ⟨_, _, rfl, _, _, ⟨rfl, rfl⟩, ⟨rfl, rfl⟩, rfl⟩ := hread
      refine ⟨x, ?_, (TimestampText.exists_denotes_iff hrange).mp ⟨_, hv⟩, hv, ?_, ?_⟩
      · rw [hchars, String.toList_ofList]
      · exact fun h => hne (String.toList_ofList.symm.trans (congrArg String.toList h))
      · rw [String.toList_ofList]
        exact hname
  · rintro ⟨x, hchars, hx, hv, hid⟩
    have hne : id.toList ≠ [] := fun h => hid.ne_empty (String.ext h)
    refine ⟨[], v, _, ⟨x, hchars, hx.offset, hv, fun _ => ends_cons rfl _⟩, (), _, rfl, id.toList, [']'],
      ⟨rfl, hid.isZoneChar, ends_cons rfl _⟩, ?_⟩
    rw [if_neg hne]
    simp only [bind_run_eq_ok, expect_eq_ok, finish_eq_ok, pure_run_eq_ok]
    exact ⟨(), [], rfl, (), [], ⟨rfl, rfl⟩, by rw [String.ofList_toList], rfl⟩

end Rfc3339

namespace OffsetDateTime

open Text Text.Reader Iso8601 Rfc3339

variable {text : String} {x : TimestampText} {v : OffsetDateTime}

theorem parse_eq_ok : OffsetDateTime.parse text = .ok v ↔
    ∃ x : TimestampText, x.Valid ∧ text = x.text ∧ x.Denotes v := by
  unfold OffsetDateTime.parse
  simp only [read_eq_ok, bind_run_eq_ok, readTimestamp_eq_ok, finish_eq_ok, pure_run_eq_ok]
  constructor
  · rintro ⟨_, _, _, ⟨x, hchars, hrange, hv, -⟩, _, _, ⟨rfl, rfl⟩, rfl, rfl⟩
    rw [List.append_nil] at hchars
    refine ⟨x, (TimestampText.exists_denotes_iff hrange).mp ⟨_, hv⟩, ?_, hv⟩
    rw [TimestampText.text, ← hchars, String.ofList_toList]
  · rintro ⟨x, hx, rfl, hv⟩
    refine ⟨[], v, [], ⟨x, ?_, hx.offset, hv, fun _ => ends_nil _⟩, (), [], ⟨rfl, rfl⟩, rfl, rfl⟩
    rw [TimestampText.text, String.toList_ofList, List.append_nil]

theorem exists_parse_iff : (∃ v, OffsetDateTime.parse text = .ok v) ↔ ∃ x : TimestampText, x.Valid ∧ text = x.text := by
  constructor
  · rintro ⟨v, h⟩
    obtain ⟨x, hx, htext, -⟩ := parse_eq_ok.mp h
    exact ⟨x, hx, htext⟩
  · rintro ⟨x, hx, rfl⟩
    obtain ⟨v, hv⟩ := (TimestampText.exists_denotes_iff hx.offset).mpr hx
    exact ⟨v, parse_eq_ok.mpr ⟨x, hx, rfl, hv⟩⟩

theorem denotes_of_parse (hx : x.Valid) (h : OffsetDateTime.parse x.text = .ok v) : x.Denotes v := by
  obtain ⟨u, hu⟩ := (TimestampText.exists_denotes_iff hx.offset).mpr hx
  have hparse := parse_eq_ok.mpr ⟨x, hx, rfl, hu⟩
  rw [h] at hparse
  cases hparse
  exact hu

/-- A text is accepted if it is a date, a `T`, a time with a fraction of up to nine digits or none, and an offset, all
with fields in order, and denotes an instant in range. The value has these fields, and any other text is refused as not
being of the form. Two texts that are accepted have exactly equal values if they differ at most in zeros at the end of
the fraction and in the spelling of one offset. -/
theorem parse_accepts_timestamps :
    (∀ text v, OffsetDateTime.parse text = .ok v ↔ ∃ x : TimestampText, x.Valid ∧ text = x.text ∧ x.Denotes v) ∧
    (∀ text, (∃ v, OffsetDateTime.parse text = .ok v) ↔ ∃ x : TimestampText, x.Valid ∧ text = x.text) ∧
    (∀ text, (∀ x : TimestampText, x.Valid → text ≠ x.text) → Fails (OffsetDateTime.parse text) .invalidFormat) ∧
    ∀ x y : TimestampText, x.Valid → y.Valid → ∀ v w, OffsetDateTime.parse x.text = .ok v →
      OffsetDateTime.parse y.text = .ok w →
      (Value.exactEqual? (.offsetDateTime v) (.offsetDateTime w) = some true ↔ x.Respells y) := by
  refine ⟨fun _ _ => parse_eq_ok, fun _ => exists_parse_iff, fun text htext => ?_, ?_⟩
  · refine fails_of_ne_ok (fun _ => parse_error_kind) fun v hv => ?_
    obtain ⟨x, hx, htext'⟩ := exists_parse_iff.mp ⟨v, hv⟩
    exact htext x hx htext'
  · intro x y hx hy v w hv hw
    have hdenotes := denotes_of_parse hx hv
    have hdenotes' := denotes_of_parse hy hw
    rw [exactEqual_iff, TimestampText.respells_iff hx.offset hy.offset hdenotes hdenotes']

/-- The last half second of a leap day at Greenwich, in two spellings. -/
theorem parse_accepts_leap_day :
    let date : DateText := ⟨.ofChars ['2', '0', '2', '4'] rfl (by decide) (by decide),
      .ofChars ['0', '2'] rfl (by decide) (by decide), .ofChars ['2', '9'] rfl (by decide) (by decide)⟩
    let hour : DigitRun 2 2 := .ofChars ['2', '3'] rfl (by decide) (by decide)
    let minute : DigitRun 2 2 := .ofChars ['5', '9'] rfl (by decide) (by decide)
    let zero : DigitRun 2 2 := .ofChars ['0', '0'] rfl (by decide) (by decide)
    let half : DigitRun 1 9 := .ofChars ['5'] rfl (by decide) (by decide)
    let half' : DigitRun 1 9 := .ofChars ['5', '0', '0'] rfl (by decide) (by decide)
    let x : TimestampText := ⟨date, ⟨hour, minute, minute, some half⟩, .numeric true zero zero none⟩
    let y : TimestampText := ⟨date, ⟨hour, minute, minute, some half'⟩, .utc⟩
    (x.text = "2024-02-29T23:59:59.5-00:00" ∧ y.text = "2024-02-29T23:59:59.500Z") ∧ (x.Valid ∧ y.Valid) ∧
      (∃ v w, OffsetDateTime.parse x.text = .ok v ∧ OffsetDateTime.parse y.text = .ok w ∧
        Value.exactEqual? (.offsetDateTime v) (.offsetDateTime w) = some true) ∧
      Fails (OffsetDateTime.parse "") .invalidFormat := by
  intro date hour minute zero half half' x y
  obtain ⟨-, haccepted, hrefused, hequal⟩ := parse_accepts_timestamps
  have hdate : date.Valid := ⟨by decide, by decide⟩
  have hx : x.Valid := ⟨hdate, ⟨by decide, by decide, by decide⟩, ⟨by decide, by decide, by decide⟩,
    ⟨by decide, by decide⟩⟩
  have hy : y.Valid := ⟨hdate, ⟨by decide, by decide, by decide⟩, trivial, ⟨by decide, by decide⟩⟩
  obtain ⟨v, hv⟩ := (haccepted x.text).mpr ⟨x, hx, rfl⟩
  obtain ⟨w, hw⟩ := (haccepted y.text).mpr ⟨y, hy, rfl⟩
  have hrespells : x.Respells y :=
    ⟨rfl, ⟨⟨rfl, rfl, rfl⟩, 2, Or.inr rfl⟩, .zero ⟨rfl, rfl, rfl⟩ trivial⟩
  refine ⟨⟨rfl, rfl⟩, ⟨hx, hy⟩, ⟨v, w, hv, hw, (hequal x y hx hy v w hv hw).mpr hrespells⟩, hrefused "" ?_⟩
  intro z _ hz
  have hchars : z.chars = [] := String.toList_ofList.symm.trans (congrArg String.toList hz.symm)
  exact absurd hchars (List.append_ne_nil_of_right_ne_nil _ (List.cons_ne_nil _ _))

end OffsetDateTime

end CivilTime
