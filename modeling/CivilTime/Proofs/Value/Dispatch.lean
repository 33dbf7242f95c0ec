/- Reading a text by its shape agrees with the readers of the forms, of which at most one accepts the text. -/
import CivilTime.Proofs.Value.Parsing
import CivilTime.Proofs.Value.Shape

namespace CivilTime.Value

open Iso8601 Rfc3339

/-- The reader of a form accepts the text for a value. That of zoned texts needs a resolver. -/
inductive Parses (text : String) (r : Option Resolver) : Shape → Value → Prop where
  | duration {d : Duration} (h : Duration.parse text = .ok d) : Parses text r .duration (ofDuration d)
  | zoned {r' : Resolver} {x : ZonedDateTime} (hr : r = some r') (h : ZonedDateTime.parse text r' = .ok x) :
      Parses text r .zoned (zonedDateTime x)
  | timestamp {x : OffsetDateTime} (h : OffsetDateTime.parse text = .ok x) :
      Parses text r .timestamp (offsetDateTime x)
  | localDateTime {l : LocalDateTime} (h : LocalDateTime.parse text = .ok l) :
      Parses text r .localDateTime (localDateTime l)
  | time {t : TimeOfDay} (h : TimeOfDay.parse text = .ok t) : Parses text r .time (time t)
  | date {d : Date} (h : Date.parse text = .ok d) : Parses text r .date (date d)

variable {text : String} {r : Option Resolver} {s s' : Shape} {v v' : Value}

/-- What a reader accepts has the shape of its form. -/
theorem Parses.shape_eq (h : Parses text r s v) : shape text.toList = s := by
  cases h with
  | duration h =>
    obtain ⟨x, -, rfl, -⟩ := Duration.parse_eq_ok.mp h
    rw [DurationText.text, String.toList_ofList, shape_duration]
  | zoned hr h =>
    obtain ⟨⟨y, id⟩, hread, -⟩ := bind_eq_ok.mp h
    obtain ⟨x, hchars, -⟩ := readZoned_eq_ok.mp hread
    rw [hchars, shape_zoned]
  | timestamp h =>
    obtain ⟨x, -, rfl, -⟩ := OffsetDateTime.parse_eq_ok.mp h
    rw [TimestampText.text, String.toList_ofList, shape_timestamp]
  | localDateTime h =>
    obtain ⟨x, y, hchars, -⟩ := LocalDateTime.parse_eq_ok.mp h
    rw [hchars, shape_localDateTime]
  | time h =>
    obtain ⟨x, hchars, -⟩ := TimeOfDay.parse_eq_ok.mp h
    rw [hchars, shape_clock]
  | date h =>
    obtain ⟨x, hchars, -⟩ := Date.parse_eq_ok.mp h
    rw [hchars, shape_date]

theorem parseIso8601_eq_ok : parseIso8601 text r = .ok v ↔ ∃ s, Parses text r s v := by
  constructor
  · intro h
    unfold parseIso8601 at h
    split at h
    · obtain ⟨d, hd, rfl⟩ := map_eq_ok.mp h
      exact ⟨_, .duration hd⟩
    · split at h
      · cases h
      · obtain ⟨x, hx, rfl⟩ := map_eq_ok.mp h
        exact ⟨_, .zoned rfl hx⟩
    · obtain ⟨x, hx, rfl⟩ := map_eq_ok.mp h
      exact ⟨_, .timestamp hx⟩
    · obtain ⟨l, hl, rfl⟩ := map_eq_ok.mp h
      exact ⟨_, .localDateTime hl⟩
    · obtain ⟨t, ht, rfl⟩ := map_eq_ok.mp h
      exact ⟨_, .time ht⟩
    · obtain ⟨d, hd, rfl⟩ := map_eq_ok.mp h
      exact ⟨_, .date hd⟩
  · rintro ⟨s, h⟩
    unfold parseIso8601
    rw [h.shape_eq]
    cases h with
    | duration h => exact map_eq_ok.mpr ⟨_, h, rfl⟩
    | zoned hr h =>
      subst hr
      exact map_eq_ok.mpr ⟨_, h, rfl⟩
    | timestamp h => exact map_eq_ok.mpr ⟨_, h, rfl⟩
    | localDateTime h => exact map_eq_ok.mpr ⟨_, h, rfl⟩
    | time h => exact map_eq_ok.mpr ⟨_, h, rfl⟩
    | date h => exact map_eq_ok.mpr ⟨_, h, rfl⟩

theorem Parses.unique (h : Parses text r s v) (h' : Parses text r s' v') : s = s' ∧ v = v' := by
  have hv := parseIso8601_eq_ok.mpr ⟨s, h⟩
  rw [parseIso8601_eq_ok.mpr ⟨s', h'⟩] at hv
  exact ⟨h.shape_eq.symm.trans h'.shape_eq, (Except.ok.inj hv).symm⟩

/-- At most one of the readers accepts a text. If one does, reading by the shape gives its value, and if none does, it
refuses the text as not being of the form or for its zone. -/
theorem parseIso8601_agrees_with_readers (text : String) (r : Option Resolver) :
    (∀ s s' v v', Parses text r s v → Parses text r s' v' → s = s' ∧ v = v') ∧
    (∀ s v, Parses text r s v → parseIso8601 text r = .ok v) ∧
    ((∀ s v, ¬Parses text r s v) →
      Fails (parseIso8601 text r) .invalidFormat ∨ Fails (parseIso8601 text r) .unknownZone) := by
  refine ⟨fun _ _ _ _ => Parses.unique, fun s v h => parseIso8601_eq_ok.mpr ⟨s, h⟩, fun hnone => ?_⟩
  rcases reads_parseIso8601 text r with (⟨v, hv, -⟩ | hformat) | ⟨hzone, -⟩
  · obtain ⟨s, h⟩ := parseIso8601_eq_ok.mp hv
    exact absurd h (hnone s v)
  · exact Or.inl hformat
  · exact Or.inr hzone

/-- A zone with a `T` and a plus in its name, and a day that no calendar has. -/
theorem parseIso8601_agrees_on_named_zone :
    let p : Period := ⟨⟨-18000, by decide, by decide⟩, "-05", .bool false⟩
    let r : Resolver := .ofZones ⟨[(.text "Etc/GMT+5", ⟨p, []⟩)], List.pairwise_singleton _ _⟩
    let text := "2024-01-15T09:00:00-05:00[Etc/GMT+5]"
    (∃ x : ZonedDateTime, x.nanos = 1705327200000000000 ∧ Parses text (some r) .zoned (zonedDateTime x) ∧
      parseIso8601 text (some r) = .ok (zonedDateTime x) ∧
      ∀ s v, Parses text (some r) s v → s = .zoned ∧ v = zonedDateTime x) ∧
    (∀ s v, ¬Parses "2024-02-30" none s v) ∧
    (Fails (parseIso8601 "2024-02-30" none) .invalidFormat ∨ Fails (parseIso8601 "2024-02-30" none) .unknownZone) := by
  intro p r text
  obtain ⟨hunique, hvalue, -⟩ := parseIso8601_agrees_with_readers text (some r)
  obtain ⟨-, -, hrefused⟩ := parseIso8601_agrees_with_readers "2024-02-30" none
  have hz : r.zones.find? "Etc/GMT+5" = some ⟨p, []⟩ := rfl
  let i : Instant := ⟨1705327200000000000, by decide, by decide⟩
  let wall : LocalDateTime := ⟨⟨2460325, by decide, by decide⟩, ⟨32400000000000, by decide, by decide⟩⟩
  let x : ZonedDateTime := ⟨r, "Etc/GMT+5", i, p, wall, Resolver.periodAt_eq_ok hz i, rfl⟩
  have hid : IsBracketName "Etc/GMT+5" := .of_all (by decide) (by decide)
  have htext : zonedText wall p.offset "Etc/GMT+5" = text := by decide
  have hx : Parses text (some r) .zoned (zonedDateTime x) := by
    have hparse := x.parse_text hid
    rw [x.text_eq_zonedText] at hparse
    exact .zoned rfl (htext ▸ hparse)
  have hnone : ∀ s v, ¬Parses "2024-02-30" none s v := by
    intro s v h
    cases h with
    | duration h => cases h
    | zoned hr h => cases hr
    | timestamp h => cases h
    | localDateTime h => cases h
    | time h => cases h
    | date h => cases h
  refine ⟨⟨x, rfl, hx, hvalue _ _ hx, fun s v h => ?_⟩, hnone, hrefused hnone⟩
  exact hunique _ _ _ _ h hx

end CivilTime.Value
