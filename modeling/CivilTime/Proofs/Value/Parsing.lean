/- Whatever a text is, reading it gives a value that is in order or the complaint that the text is not of the form;
only the name of a zone can also be unknown. -/
import CivilTime.Proofs.Iso8601.DurationReader
import CivilTime.Proofs.Rfc2822
import CivilTime.Proofs.ZonedDateTime.Text
import CivilTime.Value.Iso8601

namespace CivilTime

open Text Iso8601 Rfc3339

variable {α β : Type}

/-- Reading gives a value with the property, or the text is not of the form. -/
def Reads (valid : α → Prop) (x : Except Error α) : Prop :=
  (∃ a, x = .ok a ∧ valid a) ∨ Fails x .invalidFormat

theorem reads_of_error_kind {valid : α → Prop} {x : Except Error α} (hvalid : ∀ a, valid a)
    (hkind : ∀ e, x = .error e → e.kind = .invalidFormat) : Reads valid x := by
  cases x with
  | ok a => exact Or.inl ⟨a, rfl, hvalid a⟩
  | error e => exact Or.inr ⟨e, rfl, hkind e rfl⟩

theorem Reads.map {valid : α → Prop} {valid' : β → Prop} {x : Except Error α} {f : α → β} (h : Reads valid x)
    (hf : ∀ a, valid a → valid' (f a)) : Reads valid' (f <$> x) := by
  rcases h with ⟨a, rfl, ha⟩ | h
  · exact Or.inl ⟨f a, rfl, hf a ha⟩
  · exact Or.inr (h.map f)

namespace Date

/-- The fields name a day of the calendar in a supported year. -/
def Valid (d : Date) : Prop := (1 ≤ d.year ∧ d.year ≤ 9999) ∧ d.ymd.Exists

theorem valid (d : Date) : d.Valid := ⟨d.year_bounds, d.exists_ymd⟩

theorem reads_parse (text : String) : Reads Valid (Date.parse text) :=
  reads_of_error_kind valid fun _ => parse_error_kind

end Date

namespace TimeOfDay

/-- The fields are those of a clock. -/
def Valid (t : TimeOfDay) : Prop :=
  (0 ≤ t.hour ∧ t.hour ≤ 23) ∧ (0 ≤ t.minute ∧ t.minute ≤ 59) ∧ (0 ≤ t.second ∧ t.second ≤ 59) ∧
    (0 ≤ t.nanosecond ∧ t.nanosecond ≤ 999999999)

theorem valid (t : TimeOfDay) : t.Valid := ⟨t.hour_bounds, t.minute_bounds, t.second_bounds, t.nanosecond_bounds⟩

theorem reads_parse (text : String) : Reads Valid (TimeOfDay.parse text) :=
  reads_of_error_kind valid fun _ => parse_error_kind

end TimeOfDay

namespace LocalDateTime

def Valid (l : LocalDateTime) : Prop := l.date.Valid ∧ l.time.Valid

theorem valid (l : LocalDateTime) : l.Valid := ⟨l.date.valid, l.time.valid⟩

theorem reads_parse (text : String) : Reads Valid (LocalDateTime.parse text) :=
  reads_of_error_kind valid fun _ => parse_error_kind

end LocalDateTime

namespace Offset

def Valid (o : Offset) : Prop := -86400 < o.seconds ∧ o.seconds < 86400

theorem valid (o : Offset) : o.Valid := ⟨o.neg_day_lt, o.lt_day⟩

theorem reads_parse (text : String) : Reads Valid (Offset.parse text) :=
  reads_of_error_kind valid fun _ => parse_error_kind

end Offset

namespace Duration

def Valid (d : Duration) : Prop := OneSign d.months d.days d.nanos ∧ Bounded d.months d.days d.nanos

theorem valid (d : Duration) : d.Valid := ⟨d.oneSign, d.bounded⟩

theorem reads_parse (text : String) : Reads Valid (Duration.parse text) :=
  reads_of_error_kind valid fun _ => parse_error_kind

end Duration

namespace OffsetDateTime

/-- The reading and the offset denote an instant in range. -/
def Valid (x : OffsetDateTime) : Prop :=
  x.wall.Valid ∧ x.offset.Valid ∧ Instant.InRange (x.wall.epochNanos - x.offset.nanos)

theorem valid (x : OffsetDateTime) : x.Valid := ⟨x.wall.valid, x.offset.valid, x.toInstant.inRange_nanos⟩

theorem reads_parse (text : String) : Reads Valid (OffsetDateTime.parse text) :=
  reads_of_error_kind valid fun _ => parse_error_kind

theorem reads_parseRfc2822 (text : String) : Reads Valid (OffsetDateTime.parseRfc2822 text) :=
  reads_of_error_kind valid fun _ => parseRfc2822_error_kind

theorem exists_of_eq_error {wall : LocalDateTime} {o : Offset}
    (h : ¬Instant.InRange (wall.epochNanos - o.nanos)) : ∃ f, of wall o = .error f := by
  cases hof : of wall o with
  | error f => exact ⟨f, rfl⟩
  | ok x =>
    obtain ⟨rfl, rfl⟩ := of_eq_ok.mp hof
    exact absurd x.toInstant.inRange_nanos h

end OffsetDateTime

namespace ZonedDateTime

/-- The zone is known, its offset is the one in effect at the instant, and the reading is that of its clocks. -/
def Valid (x : ZonedDateTime) : Prop :=
  x.wall.Valid ∧ Instant.InRange x.nanos ∧ ∃ z, x.resolver.zones.find? x.zoneId = some z ∧
    z.InEffect x.instant.unixSeconds x.period ∧ x.nanos ∈ z.readings x.wall.epochNanos

theorem valid (x : ZonedDateTime) : x.Valid := ⟨x.wall.valid, x.instant.inRange_nanos, x.exists_inEffect⟩

variable {text : String} {r : Resolver}

/-- A zoned text gives a value, is not of the form, or is of the form and names no zone of the resolver. -/
theorem parse_cases (text : String) (r : Resolver) :
    (∃ v, ZonedDateTime.parse text r = .ok v) ∨ Fails (ZonedDateTime.parse text r) .invalidFormat ∨
      (Fails (ZonedDateTime.parse text r) .unknownZone ∧
        ∃ x id, Reader.read .zoned readZoned text = .ok (x, id) ∧ r.zones.find? id = none) := by
  have hreads : Reads (fun _ => True) (Reader.read .zoned readZoned text) :=
    reads_of_error_kind (fun _ => trivial) fun _ => Reader.read_error_kind (worded_readZoned _)
  rcases hreads with ⟨⟨x, id⟩, hread, -⟩ | hread
  · cases hparse : ZonedDateTime.parse text r with
    | ok v => exact Or.inl ⟨v, rfl⟩
    | error e =>
      rcases parse_eq_error hread hparse with ⟨rfl, hz⟩ | hformat
      · exact Or.inr (Or.inr ⟨fails_error.mpr rfl, x, id, hread, hz⟩)
      · exact Or.inr (Or.inl (fails_error.mpr hformat))
  · exact Or.inr (Or.inl (hread.bind _))

theorem fails_parse_unknownZone : Fails (ZonedDateTime.parse text r) .unknownZone ↔
    ∃ x id, Reader.read .zoned readZoned text = .ok (x, id) ∧ r.zones.find? id = none := by
  constructor
  · intro h
    rcases parse_cases text r with ⟨v, hv⟩ | hformat | ⟨-, hunknown⟩
    · exact absurd hv (h.ne_ok v)
    · cases h.unique hformat
    · exact hunknown
  · rintro ⟨x, id, hread, hz⟩
    exact ⟨_, parse_of_unknown hread hz, rfl⟩

theorem reads_parse (text : String) (r : Resolver) :
    Reads Valid (ZonedDateTime.parse text r) ∨ Fails (ZonedDateTime.parse text r) .unknownZone := by
  rcases parse_cases text r with ⟨v, hv⟩ | hformat | ⟨hunknown, -⟩
  · exact Or.inl (Or.inl ⟨v, hv, v.valid⟩)
  · exact Or.inl (Or.inr hformat)
  · exact Or.inr hunknown

/-- A zoned text is refused if clocks in the zone read a time outside the supported years. -/
theorem fails_parse_of_reading {id : String} {z : Zone} {wall : LocalDateTime} {o : Offset} {p : Period}
    (hz : r.zones.find? id = some z) (hid : IsBracketName id)
    (hp : z.InEffect ((wall.epochNanos - o.nanos) / nanosPerSecond) p)
    (hreading : ∀ l : LocalDateTime, l.epochNanos ≠ wall.epochNanos - o.nanos + p.offset.nanos) :
    Fails (ZonedDateTime.parse (zonedText wall o id) r) .invalidFormat := by
  refine fails_parse_zonedText hz hid fun v hv => ?_
  obtain ⟨-, p', hp', rfl⟩ := (exists_parse_zonedText_iff hz hid).mp ⟨v, hv⟩
  rw [hp'.unique hp] at hreading
  exact hreading wall (by omega)

end ZonedDateTime

namespace Value

/-- What each type requires of its values. -/
def Valid : Value → Prop
  | date d => d.Valid
  | time t => t.Valid
  | localDateTime l => l.Valid
  | instant i => Instant.InRange i.nanos
  | offset o => o.Valid
  | offsetDateTime x => x.Valid
  | zonedDateTime x => x.Valid
  | duration d _ => d.Valid
  | unchecked _ => False

theorem getLast?_of_zoned {cs : List Char} (h : shape cs = .zoned) : cs.getLast? = some ']' := by
  unfold shape at h
  split at h
  · cases h
  · split at h
    · assumption
    · split at h
      · simp only at h
        split at h <;> cases h
      · split at h <;> cases h

/-- A text of any form is read or refused; for the zone to be unknown there have to be brackets and a resolver. -/
theorem reads_parseIso8601 (text : String) (r : Option Resolver) :
    Reads Valid (parseIso8601 text r) ∨
      (Fails (parseIso8601 text r) .unknownZone ∧ text.toList.getLast? = some ']' ∧ r.isSome) := by
  unfold parseIso8601
  split
  · exact Or.inl ((Duration.reads_parse text).map fun _ hd => hd)
  · rename_i hshape
    cases r with
    | none => exact Or.inl (Or.inr (fails_error.mpr rfl))
    | some r =>
      rcases ZonedDateTime.reads_parse text r with h | h
      · exact Or.inl (h.map fun _ hx => hx)
      · exact Or.inr ⟨h.map _, getLast?_of_zoned hshape, rfl⟩
  · exact Or.inl ((OffsetDateTime.reads_parse text).map fun _ hx => hx)
  · exact Or.inl ((LocalDateTime.reads_parse text).map fun _ hl => hl)
  · exact Or.inl ((TimeOfDay.reads_parse text).map fun _ ht => ht)
  · exact Or.inl ((Date.reads_parse text).map fun _ hd => hd)

end Value

/-- What a refused value is called is among what reading turns into its own complaint. -/
theorem Fault.kind_mem (f : Fault) :
    f.kind ∈ [ErrorKind.validation, .invalidDate, .invalidTime, .rangeOverflow] := by
  cases f <;> simp [kind]

theorem Rfc2822.readName_lt {names : List (List Char)} {field : String} {cs rest : List Char} {i : Nat}
    (h : readName names field cs = .ok (i, rest)) : i < names.length := by
  unfold readName at h
  split at h
  · rename_i j hj
    cases h
    exact (List.findIdx?_eq_some_iff_findIdx_eq.mp hj).1
  · cases h

/-- Every text is read to a value that is in order, or refused as not being of the form. Only a text with a zone in
brackets can also name an unknown zone, and it does if that is all that is wrong with it. Fields that are in order by
themselves are refused in the same way: an instant or a reading out of range, or a duration past its bounds. No
refusal of a value is of another kind than reading expects, and no name is looked up outside its list. -/
theorem parsers_fail_in_one_way :
    (∀ text : String,
      Reads Date.Valid (Date.parse text) ∧ Reads TimeOfDay.Valid (TimeOfDay.parse text) ∧
      Reads LocalDateTime.Valid (LocalDateTime.parse text) ∧ Reads Offset.Valid (Offset.parse text) ∧
      Reads Duration.Valid (Duration.parse text) ∧ Reads OffsetDateTime.Valid (OffsetDateTime.parse text) ∧
      Reads OffsetDateTime.Valid (OffsetDateTime.parseRfc2822 text) ∧
      Reads (fun i => Instant.InRange i.nanos) (Instant.parse text) ∧
      (∀ r : Resolver,
        (Reads ZonedDateTime.Valid (ZonedDateTime.parse text r) ∨ Fails (ZonedDateTime.parse text r) .unknownZone) ∧
        (Fails (ZonedDateTime.parse text r) .unknownZone ↔
          ∃ x id, Reader.read .zoned readZoned text = .ok (x, id) ∧ r.zones.find? id = none)) ∧
      ∀ r : Option Resolver, Reads Value.Valid (Value.parseIso8601 text r) ∨
        (Fails (Value.parseIso8601 text r) .unknownZone ∧ text.toList.getLast? = some ']' ∧ r.isSome)) ∧
    (∀ (wall : LocalDateTime) (o : Offset), ¬Instant.InRange (wall.epochNanos - o.nanos) →
      Fails (OffsetDateTime.parse (String.ofList (wall.chars ++ o.chars))) .invalidFormat ∧
      Fails (Instant.parse (String.ofList (wall.chars ++ o.chars))) .invalidFormat ∧
      ∀ id r, Fails (ZonedDateTime.parse (zonedText wall o id) r) .invalidFormat) ∧
    (∀ (r : Resolver) (id : String) (z : Zone) (wall : LocalDateTime) (o : Offset) (p : Period),
      r.zones.find? id = some z → IsBracketName id →
      z.InEffect ((wall.epochNanos - o.nanos) / nanosPerSecond) p →
      (∀ l : LocalDateTime, l.epochNanos ≠ wall.epochNanos - o.nanos + p.offset.nanos) →
      Fails (ZonedDateTime.parse (zonedText wall o id) r) .invalidFormat) ∧
    (∀ (negative : Bool) (dateGroups clockGroups : List Group), InOrder dateGroups clockGroups →
      ∀ f, durationOf negative dateGroups clockGroups = .error f →
        Fails (Duration.parse (String.ofList (durationChars negative dateGroups clockGroups))) .invalidFormat) ∧
    (∀ f : Fault, f.kind ∈ [ErrorKind.validation, .invalidDate, .invalidTime, .rangeOverflow]) ∧
    ∀ names field cs i rest, Rfc2822.readName names field cs = .ok (i, rest) → i < names.length := by
  refine ⟨fun text => ⟨Date.reads_parse text, TimeOfDay.reads_parse text, LocalDateTime.reads_parse text,
    Offset.reads_parse text, Duration.reads_parse text, OffsetDateTime.reads_parse text,
    OffsetDateTime.reads_parseRfc2822 text, ?_,
    fun r => ⟨ZonedDateTime.reads_parse text r, ZonedDateTime.fails_parse_unknownZone⟩,
    Value.reads_parseIso8601 text⟩, ?_, fun _ _ _ _ _ _ => ZonedDateTime.fails_parse_of_reading,
    fun _ _ _ hgroups => (parse_durationChars hgroups).2, Fault.kind_mem, fun _ _ _ _ _ => Rfc2822.readName_lt⟩
  · exact (OffsetDateTime.reads_parse text).map fun x _ => x.toInstant.inRange_nanos
  · intro wall o hrange
    obtain ⟨f, hf⟩ := OffsetDateTime.exists_of_eq_error hrange
    have hparse := OffsetDateTime.fails_parse hf
    exact ⟨hparse, hparse.map _, fun id r => (fails_readZoned hf).bind _⟩

/-- The last reading is past the end of the range an hour west of Greenwich, clocks an hour to the east are then in the
year 10000, and ten thousand years are longer than any duration. -/
theorem parsers_fail_past_the_end :
    let west : Offset := ⟨-3600, by decide, by decide⟩
    let east : Period := ⟨⟨3600, by decide, by decide⟩, "+01", .bool false⟩
    let r : Resolver := .ofZones ⟨[(.text "Etc/Plus1", ⟨east, []⟩)], List.pairwise_singleton _ _⟩
    let years : Group := ⟨10000, 0, 'Y'⟩
    Fails (OffsetDateTime.parse (String.ofList (LocalDateTime.max.chars ++ west.chars))) .invalidFormat ∧
      Fails (ZonedDateTime.parse (zonedText .max .utc "Etc/Plus1") r) .invalidFormat ∧
      Fails (Duration.parse (String.ofList (durationChars false [years] []))) .invalidFormat := by
  intro west east r years
  have hspec := parsers_fail_in_one_way
  have hrange : ¬Instant.InRange (LocalDateTime.max.epochNanos - west.nanos) := by
    rintro ⟨-, h⟩
    revert h
    decide
  have hreading (l : LocalDateTime) :
      l.epochNanos ≠ LocalDateTime.max.epochNanos - Offset.utc.nanos + east.offset.nanos := by
    intro hl
    have hlast := l.epochNanos_bounds.2
    rw [hl] at hlast
    revert hlast
    decide
  have hgroups : InOrder [years] [] := by
    refine ⟨?_, by decide, nofun, by decide, Or.inl (List.cons_ne_nil _ _)⟩
    intro g hg
    rw [List.mem_singleton.mp hg]
    exact .ofCount (by decide) rfl (by decide)
  have hmade : durationOf false [years] [] = .error (.monthsOverflow 120000) := by
    simp [durationOf, years, countOf, fractionOf, Duration.ofParts, Duration.OneSign, Duration.maxMonths]
  exact ⟨(hspec.2.1 _ _ hrange).1,
    hspec.2.2.1 r "Etc/Plus1" _ _ _ east rfl (.of_all (by decide) (by decide)) (Zone.inEffect_iff.mpr rfl) hreading,
    hspec.2.2.2.1 false [years] [] hgroups _ hmade⟩

end CivilTime
