/- Values are the same again after they were written as texts or as records. -/
import CivilTime.Exchange.Record
import CivilTime.Proofs.Value.Dispatch
import CivilTime.Proofs.ZonedDateTime.Text
import CivilTime.Value.Order

namespace CivilTime

open Text Rfc3339

namespace Value

/-- A value can be read back with a resolver: a zoned one needs its own, and a zone that can stand in brackets. -/
def Readable : Value → Option Resolver → Prop
  | zonedDateTime x, r => r = some x.resolver ∧ IsBracketName x.zoneId
  | unchecked _, _ => False
  | _, _ => True

/-- The value that comes back from a record. The nanoseconds of a duration are then shown as a number. -/
def restored : Value → Value
  | duration d _ => ofDuration d
  | v => v

/-- The value that comes back from a text that is told by its shape: for an instant it is the reading at offset
zero. -/
def reread : Value → Value
  | instant i => offsetDateTime i.atUtc
  | v => v.restored

theorem ofList_ne_empty {cs : List Char} (h : cs ≠ []) : String.ofList cs ≠ "" := fun he => by
  have hcs := congrArg String.toList he
  rw [String.toList_ofList] at hcs
  exact h hcs

variable {v : Value} {r : Option Resolver}

theorem text_ne_empty (h : v.Readable r) : v.text ≠ "" := by
  cases v with
  | date d => exact ofList_ne_empty (by simp [Date.chars])
  | time t => exact ofList_ne_empty (by simp [TimeOfDay.chars])
  | localDateTime l => exact ofList_ne_empty (by simp [LocalDateTime.chars])
  | instant i => exact ofList_ne_empty (by simp [Instant.chars, OffsetDateTime.chars, LocalDateTime.chars])
  | offset o => exact ofList_ne_empty (by simp [Offset.chars])
  | offsetDateTime x => exact ofList_ne_empty (by simp [OffsetDateTime.chars, LocalDateTime.chars])
  | zonedDateTime x => exact ofList_ne_empty (by simp [ZonedDateTime.chars])
  | duration d truth =>
    refine ofList_ne_empty ?_
    rw [d.chars_eq_durationChars]
    cases d.isNegative <;> exact List.cons_ne_nil _ _
  | unchecked d => exact h.elim

theorem parseAs_text {kind : ValueKind} (h : v.Readable r) (hk : v.kind? = some kind) :
    parseAs kind v.text r = .ok v.restored := by
  cases v with
  | date d => cases hk; exact map_eq_ok.mpr ⟨d, d.parse_text, rfl⟩
  | time t => cases hk; exact map_eq_ok.mpr ⟨t, t.parse_text, rfl⟩
  | localDateTime l => cases hk; exact map_eq_ok.mpr ⟨l, l.parse_text, rfl⟩
  | instant i => cases hk; exact map_eq_ok.mpr ⟨i, i.parse_text, rfl⟩
  | offset o => cases hk; exact map_eq_ok.mpr ⟨o, o.parse_text, rfl⟩
  | offsetDateTime x => cases hk; exact map_eq_ok.mpr ⟨x, x.parse_text, rfl⟩
  | zonedDateTime x =>
    cases hk
    obtain ⟨rfl, hid⟩ := h
    exact map_eq_ok.mpr ⟨x, x.parse_text hid, rfl⟩
  | duration d truth => cases hk; exact map_eq_ok.mpr ⟨d, d.parse_text, rfl⟩
  | unchecked d => exact h.elim

/-- A record is read by its type and text, whatever else it lists. -/
theorem ofRecord_fields {kind : ValueKind} {text : String} (hne : text ≠ "") (more : List (String × Datum)) :
    ofRecord (.record (("_type", .text kind.name) :: ("value", .text text) :: more)) r = parseAs kind text r := by
  have hgiven : (Datum.text kind.name).isGiven = true := by cases kind <;> rfl
  have htype : (Datum.record (("_type", .text kind.name) :: ("value", .text text) :: more)).field? "_type" =
      some (.text kind.name) := rfl
  have hvalue : (Datum.record (("_type", .text kind.name) :: ("value", .text text) :: more)).field? "value" =
      some (.text text) := rfl
  simp only [ofRecord, htype, hgiven, if_true, hvalue, Option.bind_some, Datum.text?, if_neg hne,
    ValueKind.ofName?_name]

theorem exists_toRecord_eq {kind : ValueKind} (hk : v.kind? = some kind) :
    ∃ more, v.toRecord = .ok (.record (("_type", .text kind.name) :: ("value", .text v.text) :: more)) := by
  cases v <;> cases hk <;> exact ⟨_, rfl⟩

theorem exists_kind (h : v.Readable r) : ∃ kind, v.kind? = some kind := by
  cases v with
  | unchecked d => exact h.elim
  | _ => exact ⟨_, rfl⟩

theorem exists_toRecord (h : v.Readable r) :
    ∃ record, v.toRecord = .ok record ∧ ofRecord record r = .ok v.restored := by
  obtain ⟨kind, hk⟩ := exists_kind h
  obtain ⟨more, hrecord⟩ := exists_toRecord_eq hk
  refine ⟨_, hrecord, ?_⟩
  rw [ofRecord_fields (text_ne_empty h), parseAs_text h hk]

theorem formatIso8601_eq (h : v.Readable r) : v.formatIso8601 = .ok v.text := by
  cases v with
  | unchecked d => exact h.elim
  | _ => rfl

/-- A text is read by its shape, and so by the reader of its form. -/
theorem parseIso8601_text (h : v.Readable r) (hk : v.kind? ≠ some .offset) :
    parseIso8601 v.text r = .ok v.reread := by
  refine parseIso8601_eq_ok.mpr ?_
  cases v with
  | date d => exact ⟨_, .date d.parse_text⟩
  | time t => exact ⟨_, .time t.parse_text⟩
  | localDateTime l => exact ⟨_, .localDateTime l.parse_text⟩
  -- The text of an instant has the form of an offset date-time, and is read as one.
  | instant i => exact ⟨_, .timestamp i.atUtc.parse_text⟩
  | offset o => exact absurd rfl hk
  | offsetDateTime x => exact ⟨_, .timestamp x.parse_text⟩
  | zonedDateTime x =>
    obtain ⟨rfl, hid⟩ := h
    exact ⟨_, .zoned rfl (x.parse_text hid)⟩
  | duration d truth => exact ⟨_, .duration d.parse_text⟩
  | unchecked d => exact h.elim

theorem compare_self_eq (n : Int) : (some (compare n n) == some Ordering.eq) = true := by simp

/-- What is read back is equal to what was written, and of its type. -/
theorem equal_restored (h : v.Readable r) : v.restored.kind? = v.kind? ∧ v.equal v.restored = true := by
  refine ⟨by cases v <;> rfl, ?_⟩
  cases v with
  | duration d truth => exact decide_eq_true rfl
  | unchecked d => exact h.elim
  | _ => exact compare_self_eq _

theorem equal_reread (h : v.Readable r) : v.equal v.reread = true := by
  cases v with
  | instant i =>
    have hnanos : (i.atUtc).nanos = i.nanos := congrArg Instant.nanos i.toInstant_atUtc
    show (some (compare i.nanos i.atUtc.nanos) == some Ordering.eq) = true
    rw [hnanos]
    exact compare_self_eq _
  | _ => exact (equal_restored h).2

theorem exactEqual?_restored (h : v.exactNanos?.isSome) : v.exactEqual? v.restored = some true := by
  cases v with
  | instant i => exact congrArg some (decide_eq_true rfl)
  | offsetDateTime x => exact congrArg some (decide_eq_true ⟨rfl, rfl⟩)
  | zonedDateTime x => exact congrArg some (decide_eq_true ⟨rfl, rfl⟩)
  | _ => cases h

end Value

/-- Every type reads its canonical texts back. Records give the same value again, and so do texts that are told apart
by their shapes, of any type but an offset; an instant is then a reading at offset zero. -/
theorem text_and_record_round_trip :
    (∀ d : Date, Date.parse d.text = .ok d) ∧ (∀ t : TimeOfDay, TimeOfDay.parse t.text = .ok t) ∧
    (∀ l : LocalDateTime, LocalDateTime.parse l.text = .ok l) ∧ (∀ i : Instant, Instant.parse i.text = .ok i) ∧
    (∀ x : OffsetDateTime, OffsetDateTime.parse x.text = .ok x) ∧ (∀ o : Offset, Offset.parse o.text = .ok o) ∧
    (∀ d : Duration, Duration.parse d.text = .ok d) ∧
    (∀ x : ZonedDateTime, IsBracketName x.zoneId → ZonedDateTime.parse x.text x.resolver = .ok x) ∧
    ∀ (v : Value) (r : Option Resolver), v.Readable r →
      (∃ record, v.toRecord = .ok record ∧ Value.ofRecord record r = .ok v.restored) ∧
      (v.kind? ≠ some .offset →
        ∃ text, v.formatIso8601 = .ok text ∧ Value.parseIso8601 text r = .ok v.reread) ∧
      (v.restored.kind? = v.kind? ∧ v.equal v.restored = true) ∧ v.equal v.reread = true ∧
      (v.exactNanos?.isSome → v.exactEqual? v.restored = some true) := by
  refine ⟨Date.parse_text, TimeOfDay.parse_text, LocalDateTime.parse_text, Instant.parse_text,
    OffsetDateTime.parse_text, Offset.parse_text, Duration.parse_text, ZonedDateTime.parse_text, fun v r h => ?_⟩
  exact ⟨Value.exists_toRecord h, fun hk => ⟨v.text, Value.formatIso8601_eq h, Value.parseIso8601_text h hk⟩,
    Value.equal_restored h, Value.equal_reread h, Value.exactEqual?_restored⟩

/-- A time that clocks show twice is read back as the later one. -/
theorem text_and_record_of_repeated_hour :
    let p : Period := ⟨⟨7200, by decide, by decide⟩, "CEST", .bool true⟩
    let q : Period := ⟨⟨3600, by decide, by decide⟩, "CET", .bool false⟩
    let z : Zone := ⟨p, [⟨1698541200, q⟩]⟩
    let r : Resolver := .ofZones ⟨[(.text "Europe/Berlin", z)], List.pairwise_singleton _ _⟩
    ∃ x : ZonedDateTime, x.nanos = 1698543000000000000 ∧ x.offset = q.offset ∧
      IsBracketName x.zoneId ∧ (Value.zonedDateTime x).Readable (some r) ∧
      ZonedDateTime.parse x.text r = .ok x ∧
      (∃ record, (Value.zonedDateTime x).toRecord = .ok record ∧
        Value.ofRecord record (some r) = .ok (.zonedDateTime x)) ∧
      Value.exactEqual? (.zonedDateTime x) (.zonedDateTime x) = some true := by
  intro p q z r
  have hz : r.zones.find? "Europe/Berlin" = some z := rfl
  let later : Instant := ⟨1698543000000000000, by decide, by decide⟩
  have hperiod : r.periodAt "Europe/Berlin" later = .ok q := Resolver.periodAt_eq_ok hz later
  let x : ZonedDateTime := ⟨r, "Europe/Berlin", later, q,
    ⟨⟨2460247, by decide, by decide⟩, ⟨9000000000000, by decide, by decide⟩⟩, hperiod, rfl⟩
  have hid : IsBracketName "Europe/Berlin" := .of_all (by decide) (by decide)
  have hreadable : (Value.zonedDateTime x).Readable (some r) := ⟨rfl, hid⟩
  have hspec := text_and_record_round_trip.2.2.2.2.2.2.2
  exact ⟨x, rfl, rfl, hid, hreadable, hspec.1 x hid, (hspec.2 _ _ hreadable).1,
    (hspec.2 _ _ hreadable).2.2.2.2 rfl⟩

end CivilTime
