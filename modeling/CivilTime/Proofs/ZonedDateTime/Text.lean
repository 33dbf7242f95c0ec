/- Which texts of a wall-clock time, an offset and a zone are accepted: those whose offset is that of an instant at
which the zone shows the time. -/
import CivilTime.Proofs.Rfc3339
import CivilTime.Proofs.ZonedDateTime.Reading

namespace CivilTime

open Rfc3339

/-- The count of nanoseconds is that of an instant. -/
def Instant.InRange (n : Int) : Prop := firstNanos ≤ n ∧ n ≤ lastNanos

theorem Instant.inRange_nanos (i : Instant) : InRange i.nanos := ⟨i.firstNanos_le, i.le_lastNanos⟩

/-- What an answer about a reading says of the offsets that are accepted with it: there is none in a gap, the one in
effect if the reading is unique and its instant in range, and in a fold those of its first and last instant as far
as these are in range. -/
def Zone.Admits (z : Zone) (wall : Int) (accepted : Set Offset) : Resolution → Prop
  | .unique p => ∃ i, z.readings wall = {i} ∧ accepted = {o | o = p.offset ∧ Instant.InRange i}
  | .fold p q _ => ∃ i j, i < j ∧ IsLeast (z.readings wall) i ∧ IsGreatest (z.readings wall) j ∧
      (p.offset ∈ accepted ↔ Instant.InRange i) ∧ (q.offset ∈ accepted ↔ Instant.InRange j)
  | .gap _ _ _ => z.readings wall = ∅ ∧ accepted = ∅

namespace ZonedDateTime

variable {r : Resolver} {id : String} {wall : LocalDateTime} {o : Offset}

theorem toOffset_nanos (v : ZonedDateTime) : v.wall.epochNanos - v.offset.nanos = v.nanos := by
  have h := v.wall_eq
  simp only [offset, nanos]
  omega

theorem ofInstant_of_unknown {i : Instant} (hz : r.zones.find? id = none) :
    ofInstant i id r = .error (.unknownZone (.text id)) := by
  have hperiod : r.periodAt id i = .error (.unknownZone (.text id)) := by
    simp only [Resolver.periodAt, Resolver.lookup, Resolver.zone, hz, bind, Except.bind]
  unfold ofInstant
  split
  · rename_i e he
    rw [hperiod] at he
    cases he
    rfl
  · rename_i p hp
    rw [hperiod] at hp
    cases hp

/-- A value can only fail to be made of an instant for its zone or for its reading. -/
theorem ofInstant_eq_error {i : Instant} {e : Error} (h : ofInstant i id r = .error e) :
    (e = .unknownZone (.text id) ∧ r.zones.find? id = none) ∨ e = .fault .readingOverflow := by
  cases hz : r.zones.find? id with
  | none =>
    rw [ofInstant_of_unknown hz] at h
    cases h
    exact Or.inl ⟨rfl, rfl⟩
  | some z =>
    unfold ofInstant at h
    split at h
    · rename_i e' hperiod
      rw [Resolver.periodAt_eq_ok hz] at hperiod
      cases hperiod
    · split at h
      · rename_i f hreading
        cases h
        rw [LocalDateTime.ofEpochNanos_eq_error hreading]
        exact Or.inr rfl
      · cases h

/-- What is read stands for its instant in the zone, if the offset is the one in effect. -/
theorem parse_eq_ok {text : String} {x : OffsetDateTime} {v : ZonedDateTime}
    (h : Text.Reader.read .zoned readZoned text = .ok (x, id)) :
    ZonedDateTime.parse text r = .ok v ↔ ofInstant x.toInstant id r = .ok v ∧ v.offset = x.offset := by
  simp only [ZonedDateTime.parse, h, bind, Except.bind]
  cases hmade : ofInstant x.toInstant id r with
  | error e => cases e <;> simp [throw, throwThe, MonadExceptOf.throw]
  | ok w =>
    by_cases ho : w.offset = x.offset
    · simp only [if_pos ho, pure, Except.pure, Except.ok.injEq]
      constructor
      · rintro rfl
        exact ⟨rfl, ho⟩
      · exact fun hw => hw.1
    · simp only [if_neg ho, Except.ok.injEq]
      refine iff_of_false nofun ?_
      rintro ⟨rfl, hv⟩
      exact ho hv

theorem parse_of_unknown {text : String} {x : OffsetDateTime}
    (h : Text.Reader.read .zoned readZoned text = .ok (x, id)) (hz : r.zones.find? id = none) :
    ZonedDateTime.parse text r = .error (.unknownZone (.text id)) := by
  simp only [ZonedDateTime.parse, h, bind, Except.bind, ofInstant_of_unknown hz]
  rfl

/-- Once a text has been read, all that can be wrong beside its form is that its zone is not known. -/
theorem parse_eq_error {text : String} {x : OffsetDateTime} {e : Error}
    (h : Text.Reader.read .zoned readZoned text = .ok (x, id)) (he : ZonedDateTime.parse text r = .error e) :
    (e = .unknownZone (.text id) ∧ r.zones.find? id = none) ∨ e.kind = .invalidFormat := by
  simp only [ZonedDateTime.parse, h, bind, Except.bind] at he
  cases hmade : ofInstant x.toInstant id r with
  | error e' =>
    rw [hmade] at he
    rcases ofInstant_eq_error hmade with ⟨rfl, hz⟩ | rfl
    · cases he
      exact Or.inl ⟨rfl, hz⟩
    · cases he
      exact Or.inr rfl
  | ok w =>
    rw [hmade] at he
    by_cases ho : w.offset = x.offset
    · simp only [if_pos ho] at he
      cases he
    · simp only [if_neg ho] at he
      cases he
      exact Or.inr rfl

/-- A zoned text gives the value that has its reading, offset and zone. -/
theorem parse_zonedText_eq_ok (hid : IsBracketName id) {v : ZonedDateTime} :
    ZonedDateTime.parse (zonedText wall o id) r = .ok v ↔
      v.wall = wall ∧ v.offset = o ∧ v.zoneId = id ∧ v.resolver = r := by
  constructor
  · intro h
    cases hof : OffsetDateTime.of wall o with
    | error f => exact absurd h (((fails_readZoned hof).bind _).ne_ok v)
    | ok x =>
      obtain ⟨hmade, hoffset⟩ := (parse_eq_ok (readZoned_of_ok hid hof)).mp h
      obtain ⟨rfl, rfl⟩ := OffsetDateTime.of_eq_ok.mp hof
      obtain ⟨hinstant, hzone, hresolver⟩ := ofInstant_fields hmade
      refine ⟨?_, hoffset, hzone, hresolver⟩
      -- The offset is as stated, so the reading at the instant is the one that was written.
      have hnanos : v.nanos = x.wall.epochNanos - x.offset.nanos := congrArg Instant.nanos hinstant
      have hv := v.toOffset_nanos
      rw [hoffset] at hv
      exact LocalDateTime.ext_epochNanos (by omega)
  · rintro ⟨rfl, rfl, rfl, rfl⟩
    have hof : OffsetDateTime.of v.wall v.offset = .ok v.toOffset := OffsetDateTime.of_eq_ok.mpr ⟨rfl, rfl⟩
    refine (parse_eq_ok (readZoned_of_ok hid hof)).mpr ⟨?_, rfl⟩
    rw [v.toOffset_toInstant, v.ofInstant_self]

theorem parse_text (v : ZonedDateTime) (hid : IsBracketName v.zoneId) :
    ZonedDateTime.parse v.text v.resolver = .ok v := by
  rw [v.text_eq_zonedText]
  exact (parse_zonedText_eq_ok hid).mpr ⟨rfl, rfl, rfl, rfl⟩

/-- The offsets with which a reading is accepted as a text in the zone. -/
def acceptedOffsets (r : Resolver) (id : String) (wall : LocalDateTime) : Set Offset :=
  {o | ∃ v, ZonedDateTime.parse (zonedText wall o id) r = .ok v}

section
variable {z : Zone} (hz : r.zones.find? id = some z) (hid : IsBracketName id)
include hz hid

/-- The instant that a zoned text denotes is in range, and its offset is in effect there. -/
theorem exists_parse_zonedText_iff : (∃ v, ZonedDateTime.parse (zonedText wall o id) r = .ok v) ↔
    Instant.InRange (wall.epochNanos - o.nanos) ∧
      ∃ p, z.InEffect ((wall.epochNanos - o.nanos) / nanosPerSecond) p ∧ p.offset = o := by
  constructor
  · rintro ⟨v, hv⟩
    obtain ⟨rfl, rfl, rfl, rfl⟩ := (parse_zonedText_eq_ok hid).mp hv
    rw [v.toOffset_nanos]
    refine ⟨v.instant.inRange_nanos, v.period, ?_, rfl⟩
    rw [Zone.inEffect_iff, period_eq_periodAt hz]
    rfl
  · rintro ⟨⟨h0, h1⟩, p, hp, rfl⟩
    have hperiod : r.periodAt id ⟨wall.epochNanos - p.offset.nanos, h0, h1⟩ = .ok p := by
      rw [Resolver.periodAt_eq_ok hz]
      exact congrArg Except.ok (Zone.inEffect_iff.mp hp)
    exact ⟨⟨r, id, ⟨wall.epochNanos - p.offset.nanos, h0, h1⟩, p, wall, hperiod, by simp only; omega⟩,
      (parse_zonedText_eq_ok hid).mpr ⟨rfl, rfl, rfl, rfl⟩⟩

theorem fails_parse_zonedText (h : ∀ v, ZonedDateTime.parse (zonedText wall o id) r ≠ .ok v) :
    Fails (ZonedDateTime.parse (zonedText wall o id) r) .invalidFormat := by
  cases hof : OffsetDateTime.of wall o with
  | error f => exact (fails_readZoned hof).bind _
  | ok x =>
    cases hparse : ZonedDateTime.parse (zonedText wall o id) r with
    | ok v => exact absurd hparse (h v)
    | error e =>
      rcases parse_eq_error (readZoned_of_ok hid hof) hparse with ⟨-, hunknown⟩ | hkind
      · rw [hz] at hunknown
        cases hunknown
      · exact fails_error.mpr hkind

/-- Each instant at which the zone shows the reading has its own offset, and those are the offsets that are
accepted. -/
theorem bijOn_acceptedOffsets (wall : LocalDateTime) :
    Set.BijOn (fun i : Instant => (z.periodAt i.unixSeconds).offset) {i | i.nanos ∈ z.readings wall.epochNanos}
      (acceptedOffsets r id wall) := by
  -- The reading and the offset in effect give the instant back, so no two instants share an offset.
  have hnanos (i : Instant) (hi : i.nanos ∈ z.readings wall.epochNanos) :
      wall.epochNanos - (z.periodAt i.unixSeconds).offset.nanos = i.nanos := by
    have hread := Zone.mem_readings.mp hi
    simp only [Instant.unixSeconds]
    omega
  refine ⟨fun i hi => ?_, fun i hi j hj he => ?_, fun o ho => ?_⟩
  · refine (exists_parse_zonedText_iff hz hid).mpr ?_
    rw [hnanos i hi]
    exact ⟨i.inRange_nanos, _, Zone.inEffect_iff.mpr rfl, rfl⟩
  · refine Instant.ext_nanos ?_
    rw [← hnanos i hi, ← hnanos j hj]
    exact congrArg (fun o : Offset => wall.epochNanos - o.nanos) he
  · obtain ⟨⟨h0, h1⟩, p, hp, rfl⟩ := (exists_parse_zonedText_iff hz hid).mp ho
    refine ⟨⟨wall.epochNanos - p.offset.nanos, h0, h1⟩, ⟨p, hp, by simp only; omega⟩, ?_⟩
    exact congrArg Period.offset (Zone.inEffect_iff.mp hp)

theorem offset_mem_acceptedOffsets {i : Int} {p : Period} (hp : z.InEffect (i / nanosPerSecond) p)
    (hi : i ∈ z.readings wall.epochNanos) : p.offset ∈ acceptedOffsets r id wall ↔ Instant.InRange i := by
  have hread := Zone.mem_readings.mp hi
  rw [Zone.inEffect_iff.mp hp] at hread
  have hnanos : wall.epochNanos - p.offset.nanos = i := by omega
  refine (exists_parse_zonedText_iff hz hid).trans ?_
  rw [hnanos]
  exact ⟨fun h => h.1, fun h => ⟨h, p, hp, rfl⟩⟩

/-- What is accepted is what the answer of the resolver says. -/
theorem exists_resolve_admits (wall : LocalDateTime) :
    ∃ answer, r.resolve id wall = .ok answer ∧ z.Admits wall.epochNanos (acceptedOffsets r id wall) answer := by
  obtain ⟨answer, hanswer, hshows⟩ := Resolver.exists_resolve_shows hz wall
  refine ⟨answer, hanswer, ?_⟩
  cases answer with
  | unique p =>
    obtain ⟨i, hi, hp⟩ := hshows
    refine ⟨i, hi, Set.ext fun o => ?_⟩
    constructor
    · intro ho
      obtain ⟨hrange, p', hp', rfl⟩ := (exists_parse_zonedText_iff hz hid).mp ho
      have hread : wall.epochNanos - p'.offset.nanos ∈ z.readings wall.epochNanos := ⟨p', hp', by omega⟩
      rw [hi, Set.mem_singleton_iff] at hread
      rw [hread] at hp' hrange
      exact ⟨congrArg Period.offset (hp'.unique hp), hrange⟩
    · rintro ⟨rfl, hrange⟩
      exact (offset_mem_acceptedOffsets hz hid hp (hi ▸ Set.mem_singleton i)).mpr hrange
  | fold p q t =>
    obtain ⟨i, j, hi, hj, hp, hq, hit, htj⟩ := hshows
    exact ⟨i, j, by omega, hi, hj, offset_mem_acceptedOffsets hz hid hp hi.1,
      offset_mem_acceptedOffsets hz hid hq hj.1⟩
  | gap p q t =>
    have himage := (bijOn_acceptedOffsets hz hid wall).image_eq
    refine ⟨hshows.1, ?_⟩
    rw [← himage, hshows.1]
    exact Set.image_empty _

end

/-- A text of a reading, an offset and a zone is accepted exactly if the zone has that offset at the instant that
the two denote, and that instant is in range; the value has that reading, offset and instant, and everything else is
no valid text. So the offsets that are accepted are those of the instants in range at which the zone shows the
reading, each instant with an offset of its own, in accord with the answer of the resolver. -/
theorem zonedText_accepted_iff (r : Resolver) (id : String) (z : Zone) (wall : LocalDateTime)
    (hz : r.zones.find? id = some z) (hid : IsBracketName id) :
    (∀ o : Offset,
      ((∃ v, ZonedDateTime.parse (zonedText wall o id) r = .ok v) ↔
        Instant.InRange (wall.epochNanos - o.nanos) ∧
          ∃ p, z.InEffect ((wall.epochNanos - o.nanos) / nanosPerSecond) p ∧ p.offset = o) ∧
      (∀ v, ZonedDateTime.parse (zonedText wall o id) r = .ok v →
        v.wall = wall ∧ v.offset = o ∧ v.nanos = wall.epochNanos - o.nanos ∧ v.zoneId = id ∧ v.resolver = r) ∧
      ((∀ v, ZonedDateTime.parse (zonedText wall o id) r ≠ .ok v) →
        Fails (ZonedDateTime.parse (zonedText wall o id) r) .invalidFormat)) ∧
    Set.BijOn (fun i : Instant => (z.periodAt i.unixSeconds).offset) {i | i.nanos ∈ z.readings wall.epochNanos}
      (acceptedOffsets r id wall) ∧
    ∃ answer, r.resolve id wall = .ok answer ∧
      z.Admits wall.epochNanos (acceptedOffsets r id wall) answer := by
  refine ⟨fun o => ⟨exists_parse_zonedText_iff hz hid, fun v hv => ?_, fails_parse_zonedText hz hid⟩,
    bijOn_acceptedOffsets hz hid wall, exists_resolve_admits hz hid wall⟩
  obtain ⟨rfl, rfl, rfl, rfl⟩ := (parse_zonedText_eq_ok hid).mp hv
  exact ⟨rfl, rfl, v.toOffset_nanos.symm, rfl, rfl⟩

/-- Half an hour into the night in which clocks are set back from three to two, both offsets are accepted. -/
theorem zonedText_accepted_in_repeated_hour :
    let p : Period := ⟨⟨7200, by decide, by decide⟩, "CEST", .bool true⟩
    let q : Period := ⟨⟨3600, by decide, by decide⟩, "CET", .bool false⟩
    let z : Zone := ⟨p, [⟨1698541200, q⟩]⟩
    let r : Resolver := .ofZones ⟨[(.text "Europe/Berlin", z)], List.pairwise_singleton _ _⟩
    let wall : LocalDateTime := ⟨⟨2460247, by decide, by decide⟩, ⟨9000000000000, by decide, by decide⟩⟩
    r.zones.find? "Europe/Berlin" = some z ∧ IsBracketName "Europe/Berlin" ∧
      (∃ v, ZonedDateTime.parse (zonedText wall p.offset "Europe/Berlin") r = .ok v) ∧
      (∃ v, ZonedDateTime.parse (zonedText wall q.offset "Europe/Berlin") r = .ok v) ∧
      Fails (ZonedDateTime.parse (zonedText wall .utc "Europe/Berlin") r) .invalidFormat := by
  intro p q z r wall
  have hz : r.zones.find? "Europe/Berlin" = some z := rfl
  have hid : IsBracketName "Europe/Berlin" := .of_all (by decide) (by decide)
  have hspec := (zonedText_accepted_iff r "Europe/Berlin" z wall hz hid).1
  refine ⟨hz, hid, (hspec _).1.mpr ⟨⟨by decide, by decide⟩, p, Zone.inEffect_iff.mpr rfl, rfl⟩,
    (hspec _).1.mpr ⟨⟨by decide, by decide⟩, q, Zone.inEffect_iff.mpr rfl, rfl⟩, (hspec _).2.2 fun v hv => ?_⟩
  obtain ⟨-, period, hp, ho⟩ := (hspec _).1.mp ⟨v, hv⟩
  rw [← Zone.inEffect_iff.mp hp] at ho
  revert ho
  decide

/-- A zone may have no name at all, but then no text of it is accepted. -/
theorem zonedText_of_unnamed_zone_refused :
    let p : Period := ⟨.utc, "UTC", .bool false⟩
    let z : Zone := ⟨p, []⟩
    let r : Resolver := .ofZones ⟨[(.text "", z)], List.pairwise_singleton _ _⟩
    let wall : LocalDateTime := ⟨⟨2460325, by decide, by decide⟩, .midnight⟩
    r.zones.find? "" = some z ∧ (∀ c ∈ "".toList, isZoneChar c = true) ∧
      Instant.InRange (wall.epochNanos - Offset.utc.nanos) ∧
      z.InEffect ((wall.epochNanos - Offset.utc.nanos) / nanosPerSecond) p ∧ p.offset = .utc ∧
      ¬∃ v, ZonedDateTime.parse (zonedText wall .utc "") r = .ok v := by
  intro p z r wall
  refine ⟨rfl, List.all_eq_true.mp rfl, ⟨by decide, by decide⟩, Zone.inEffect_iff.mpr rfl, rfl, ?_⟩
  rintro ⟨v, hv⟩
  exact (fails_readZoned_of_empty.bind _).ne_ok v hv

end ZonedDateTime

end CivilTime
