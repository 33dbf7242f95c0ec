/- Values bound to the time line keep their instant through all changes of their form, and values in a zone have the
period in effect and the reading that goes with it, whatever they were made by. -/
import CivilTime.Proofs.ZonedDateTime.Move
import CivilTime.Proofs.ZonedDateTime.Text
import CivilTime.Value.Conversion
import CivilTime.Value.Order

namespace CivilTime

namespace Resolver

theorem eq_text_of_zoneName {zone : Datum} {id : String} (h : zoneName zone = .ok id) : zone = .text id := by
  unfold zoneName at h
  split at h
  · cases h
    rfl
  · cases h

/-- What a resolver remembers does not show in its answers. -/
theorem periodAt_eq_of_zones_eq {r r' : Resolver} (h : r.zones = r'.zones) (id : String) (i : Instant) :
    r.periodAt id i = r'.periodAt id i := by
  simp only [periodAt, lookup_eq, zone, h]

end Resolver

namespace ZonedDateTime

/-- The value is in a zone of a resolver, with the period in effect at its instant and what clocks then read. -/
structure IsIn (x : ZonedDateTime) (id : String) (r : Resolver) : Prop where
  zoneId_eq : x.zoneId = id
  resolver_eq : x.resolver = r
  in_effect : ∃ z, r.zones.find? id = some z ∧ z.InEffect x.instant.unixSeconds x.period
  period_eq : r.periodAt id x.instant = .ok x.period
  wall_eq : x.wall.epochNanos = x.nanos + x.period.offset.nanos

variable {x z : ZonedDateTime} {id : String} {r : Resolver}

theorem isIn_self (x : ZonedDateTime) : x.IsIn x.zoneId x.resolver := by
  obtain ⟨z, hz, heffect, -⟩ := x.exists_inEffect
  exact ⟨rfl, rfl, ⟨z, hz, heffect⟩, x.period_eq, x.wall_eq⟩

theorem isIn_of_ofInstant {i : Instant} (h : ofInstant i id r = .ok x) : x.IsIn id r := by
  obtain ⟨rfl, rfl, rfl⟩ := ofInstant_fields h
  exact x.isIn_self

theorem isIn_of_addWith {d : Duration} {locate : LocalDateTime → Except Error Instant}
    (h : z.addWith d locate = .ok x) : x.IsIn z.zoneId z.resolver := by
  by_cases hd : d.hasDatePart = true
  · obtain ⟨_, _, i, -, -, -, h⟩ := (addWith_date hd).mp h
    exact isIn_of_ofInstant h
  · obtain ⟨i, -, h⟩ := (addWith_exact hd).mp h
    exact isIn_of_ofInstant h

theorem isIn_of_subtractWith {d : Duration} {locate : LocalDateTime → Except Error Instant}
    (h : z.subtractWith d locate = .ok x) : x.IsIn z.zoneId z.resolver := by
  obtain ⟨start, -, h⟩ := bind_eq_ok.mp h
  obtain ⟨moved, hmoved, h⟩ := bind_eq_ok.mp h
  split at h
  · obtain ⟨wall, -, h⟩ := bind_eq_ok.mp h
    obtain ⟨i, -, h⟩ := bind_eq_ok.mp h
    exact isIn_of_ofInstant h
  · cases h
    exact isIn_of_ofInstant hmoved

theorem isIn_of_ofWallNamed {wall : LocalDateTime} {names : PolicyNames}
    (h : ofWallNamed wall (.text id) r names = .ok x) : x.IsIn id r := by
  obtain ⟨i, -, h⟩ := bind_eq_ok.mp h
  exact isIn_of_ofInstant h

/-- The value is what an operation gives for a zone of a resolver. An operation on a value keeps to the zone and the
resolver of that value. -/
inductive Returned : ZonedDateTime → String → Resolver → Prop
  | ofInstant {i id r x} (h : ofInstant i id r = .ok x) : Returned x id r
  | ofWall {wall id r fold gap x} (h : ofWall wall id r fold gap = .ok x) : Returned x id r
  | ofWallNamed {wall id r names x} (h : ofWallNamed wall (.text id) r names = .ok x) : Returned x id r
  | ofFields {f id r names x} (h : ofFields f (.text id) r names = .ok x) : Returned x id r
  | parse {text r x} (h : ZonedDateTime.parse text r = .ok x) : Returned x x.zoneId r
  | add {z : ZonedDateTime} {d fold gap x} (h : z.add d fold gap = .ok x) : Returned x z.zoneId z.resolver
  | addNamed {z : ZonedDateTime} {d names x} (h : z.addNamed d names = .ok x) : Returned x z.zoneId z.resolver
  | subtract {z : ZonedDateTime} {d fold gap x} (h : z.subtract d fold gap = .ok x) : Returned x z.zoneId z.resolver
  | subtractNamed {z : ZonedDateTime} {d names x} (h : z.subtractNamed d names = .ok x) : Returned x z.zoneId z.resolver
  | replace {z : ZonedDateTime} {c names x} (h : z.replace c names = .ok x) : Returned x z.zoneId z.resolver

theorem Returned.isIn (h : Returned x id r) : x.IsIn id r := by
  cases h with
  | ofInstant h => exact isIn_of_ofInstant h
  | ofWall h =>
    obtain ⟨i, -, h⟩ := bind_eq_ok.mp h
    exact isIn_of_ofInstant h
  | ofWallNamed h => exact isIn_of_ofWallNamed h
  | ofFields h =>
    obtain ⟨wall, -, h⟩ := bind_eq_ok.mp h
    exact isIn_of_ofWallNamed h
  | @parse text r x h =>
    obtain ⟨⟨y, id⟩, hread, -⟩ := bind_eq_ok.mp h
    obtain ⟨hmade, -⟩ := (parse_eq_ok hread).mp h
    obtain ⟨-, rfl, -⟩ := ofInstant_fields hmade
    exact isIn_of_ofInstant hmade
  | add h => exact isIn_of_addWith h
  | addNamed h => exact isIn_of_addWith h
  | subtract h => exact isIn_of_subtractWith h
  | subtractNamed h => exact isIn_of_subtractWith h
  | replace h =>
    obtain ⟨wall, -, h⟩ := bind_eq_ok.mp h
    obtain ⟨i, -, h⟩ := bind_eq_ok.mp h
    exact isIn_of_ofInstant h

/-- The value as a resolver with the same zones has it. -/
def withResolver (x : ZonedDateTime) (r : Resolver) (h : r.zones = x.resolver.zones) : ZonedDateTime :=
  { x with
    resolver := r
    period_eq := (Resolver.periodAt_eq_of_zones_eq h x.zoneId x.instant).trans x.period_eq }

theorem ofInstant_withResolver (x : ZonedDateTime) (r : Resolver) (h : r.zones = x.resolver.zones) :
    ofInstant x.instant x.zoneId r = .ok (x.withResolver r h) :=
  ofInstant_self (x.withResolver r h)

end ZonedDateTime

namespace Value

/-- What a value has to become: of the type, and at the offset or in the zone that was asked for. -/
inductive Becomes : Value → Conversion → Value → Prop
  | toInstant {v i} : Becomes v .toInstant (instant i)
  | toOffset {v o x} (h : x.offset = o) : Becomes v (.toOffset (some o)) (offsetDateTime x)
  | atUtc {i x} (h : x.offset = Offset.utc) : Becomes (instant i) (.toOffset none) (offsetDateTime x)
  | keepOffset {z x} (hwall : x.wall = z.wall) (hoffset : x.offset = z.offset) :
      Becomes (zonedDateTime z) (.toOffset none) (offsetDateTime x)
  | toZone {v id r x} (h : x.IsIn id r) : Becomes v (.toZone (.text id) (some r)) (zonedDateTime x)
  | keepResolver {z id x} (h : x.IsIn id z.resolver) :
      Becomes (zonedDateTime z) (.toZone (.text id) none) (zonedDateTime x)

theorem ofInstantNamed_eq_ok {i : Instant} {zone : Datum} {r : Resolver} {w : Value}
    (h : (do let y ← ZonedDateTime.ofInstantNamed i zone r; return zonedDateTime y : Except Error Value) = .ok w) :
    ∃ id x, zone = .text id ∧ w = zonedDateTime x ∧ x.IsIn id r ∧ x.instant = i := by
  obtain ⟨x, hx, hw⟩ := bind_eq_ok.mp h
  obtain ⟨id, hid, hx⟩ := bind_eq_ok.mp hx
  cases hw
  exact ⟨id, x, Resolver.eq_text_of_zoneName hid, rfl, ZonedDateTime.isIn_of_ofInstant hx,
    (ZonedDateTime.ofInstant_fields hx).1⟩

theorem ofInstant_eq_ok {i : Instant} {o : Offset} {w : Value}
    (h : (do let y ← OffsetDateTime.ofInstant i o; return offsetDateTime y : Except Error Value) = .ok w) :
    ∃ x, w = offsetDateTime x ∧ x.offset = o ∧ x.toInstant = i := by
  obtain ⟨x, hx, hw⟩ := bind_eq_ok.mp h
  obtain ⟨hi, ho⟩ := OffsetDateTime.ofInstant_eq_ok.mp (liftM_eq_ok.mp hx)
  cases hw
  exact ⟨x, rfl, ho, hi⟩

/-- A conversion gives what was asked for and does not move the instant. -/
theorem convert_eq_ok {v w : Value} {c : Conversion} (h : v.convert c = .ok w) :
    v.Becomes c w ∧ w.exactNanos? = v.exactNanos? := by
  cases c with
  | toInstant =>
    cases v with
    | offsetDateTime x | zonedDateTime x =>
      cases h
      exact ⟨.toInstant, rfl⟩
    | _ => cases h
  | toOffset o =>
    cases v with
    | instant i =>
      obtain ⟨x, rfl, ho, rfl⟩ := ofInstant_eq_ok h
      refine ⟨?_, rfl⟩
      cases o with
      | none => exact .atUtc ho
      | some o => exact .toOffset ho
    | offsetDateTime y =>
      cases o with
      | none => cases h
      | some o =>
        obtain ⟨x, rfl, ho, hi⟩ := ofInstant_eq_ok h
        exact ⟨.toOffset ho, congrArg some (congrArg Instant.nanos hi)⟩
    | zonedDateTime z =>
      cases o with
      | none =>
        cases h
        exact ⟨.keepOffset rfl rfl, congrArg some (congrArg Instant.nanos z.toOffset_toInstant)⟩
      | some o => cases h
    | _ => cases h
  | toZone zone r =>
    cases v with
    | instant i | offsetDateTime y =>
      cases r with
      | none => cases h
      | some r =>
        obtain ⟨id, x, rfl, rfl, hx, hi⟩ := ofInstantNamed_eq_ok h
        exact ⟨.toZone hx, congrArg some (congrArg Instant.nanos hi)⟩
    | zonedDateTime z =>
      obtain ⟨id, x, rfl, rfl, hx, hi⟩ := ofInstantNamed_eq_ok h
      refine ⟨?_, congrArg some (congrArg Instant.nanos hi)⟩
      cases r with
      | none => exact .keepResolver hx
      | some r => exact .toZone hx
    | _ => cases h

theorem exactNanos?_of_conversions {first last : Value} {steps : List Conversion}
    (h : steps.foldlM convert first = .ok last) : last.exactNanos? = first.exactNanos? := by
  induction steps generalizing first with
  | nil =>
    cases h
    rfl
  | cons c steps ih =>
    rw [List.foldlM_cons] at h
    obtain ⟨v, hv, h⟩ := bind_eq_ok.mp h
    rw [ih h, (convert_eq_ok hv).2]

/-- The conversions from the last value to the form of the first one: to its type, and at its offset or in its zone
as a resolver has it. -/
def wayBack (first last : Value) (r : Resolver) : List Conversion :=
  match first, last with
  | instant _, instant _ => []
  | instant _, _ => [.toInstant]
  | offsetDateTime x, zonedDateTime _ => [.toInstant, .toOffset (some x.offset)]
  | offsetDateTime x, _ => [.toOffset (some x.offset)]
  | zonedDateTime x, _ => [.toZone (.text x.zoneId) (some r)]
  | _, _ => []

section
variable {v : Value} {i : Instant} (h : v.exactNanos? = some i.nanos)
include h

theorem cases_of_exactNanos? : v = instant i ∨ (∃ x, v = offsetDateTime x ∧ x.toInstant = i) ∨
    ∃ x, v = zonedDateTime x ∧ x.instant = i := by
  cases v with
  | instant x => exact Or.inl (congrArg instant (Instant.ext_nanos (Option.some.inj h)))
  | offsetDateTime x => exact Or.inr (Or.inl ⟨x, rfl, Instant.ext_nanos (Option.some.inj h)⟩)
  | zonedDateTime x => exact Or.inr (Or.inr ⟨x, rfl, Instant.ext_nanos (Option.some.inj h)⟩)
  | _ => cases h

theorem wayBack_instant (r : Resolver) : ((instant i).wayBack v r).foldlM convert v = .ok (instant i) := by
  rcases cases_of_exactNanos? h with rfl | ⟨x, rfl, rfl⟩ | ⟨x, rfl, rfl⟩
  · rfl
  · rfl
  · rfl

theorem wayBack_offsetDateTime {x : OffsetDateTime} (hx : x.toInstant = i) (r : Resolver) :
    ((offsetDateTime x).wayBack v r).foldlM convert v = .ok (offsetDateTime x) := by
  have hback : (instant i).convert (.toOffset (some x.offset)) = .ok (offsetDateTime x) :=
    bind_eq_ok.mpr ⟨x, liftM_eq_ok.mpr (OffsetDateTime.ofInstant_eq_ok.mpr ⟨hx, rfl⟩), rfl⟩
  rcases cases_of_exactNanos? h with rfl | ⟨y, rfl, rfl⟩ | ⟨y, rfl, rfl⟩
  · exact bind_eq_ok.mpr ⟨_, hback, rfl⟩
  · exact bind_eq_ok.mpr ⟨_, hback, rfl⟩
  · exact bind_eq_ok.mpr ⟨_, rfl, bind_eq_ok.mpr ⟨_, hback, rfl⟩⟩

theorem wayBack_zonedDateTime {x : ZonedDateTime} (hx : x.instant = i) {r : Resolver}
    (hr : r.zones = x.resolver.zones) :
    ((zonedDateTime x).wayBack v r).foldlM convert v = .ok (zonedDateTime (x.withResolver r hr)) := by
  have hback : (instant i).convert (.toZone (.text x.zoneId) (some r)) = .ok (zonedDateTime (x.withResolver r hr)) :=
    bind_eq_ok.mpr ⟨_, hx ▸ ZonedDateTime.ofInstant_withResolver x r hr, rfl⟩
  rcases cases_of_exactNanos? h with rfl | ⟨y, rfl, rfl⟩ | ⟨y, rfl, rfl⟩
  · exact bind_eq_ok.mpr ⟨_, hback, rfl⟩
  · exact bind_eq_ok.mpr ⟨_, hback, rfl⟩
  · exact bind_eq_ok.mpr ⟨_, hback, rfl⟩

end

/-- From any value at the same instant there is a way back, and it needs the zones of the first value only. -/
theorem exists_wayBack {first last : Value} {n : Int} (hfirst : first.exactNanos? = some n)
    (hlast : last.exactNanos? = some n) (r : Resolver)
    (hr : ∀ x, first = zonedDateTime x → r.zones = x.resolver.zones) :
    ∃ back, (first.wayBack last r).foldlM convert last = .ok back ∧ back.exactEqual? first = some true ∧
      back.date? = first.date? ∧ back.time? = first.time? := by
  cases first with
  | instant i =>
    obtain rfl : i.nanos = n := Option.some.inj hfirst
    exact ⟨_, wayBack_instant hlast r, by simp [exactEqual?], rfl, rfl⟩
  | offsetDateTime x =>
    obtain rfl : x.toInstant.nanos = n := Option.some.inj hfirst
    exact ⟨_, wayBack_offsetDateTime hlast rfl r, by simp [exactEqual?], rfl, rfl⟩
  | zonedDateTime x =>
    obtain rfl : x.instant.nanos = n := Option.some.inj hfirst
    have hr := hr x rfl
    refine ⟨_, wayBack_zonedDateTime hlast rfl hr, ?_, rfl, rfl⟩
    simp [exactEqual?, ZonedDateTime.withResolver, ZonedDateTime.nanos]
  | _ => cases hfirst

/-- A conversion gives what was asked for. Any number of them end at the instant that they started from, and from
there lead back to the first value, with a resolver that may have been asked questions since. What is returned in a
zone has the period that is in effect and the reading that goes with it. -/
theorem conversions_keep_instant :
    (∀ (v w : Value) (c : Conversion), v.convert c = .ok w → v.Becomes c w) ∧
    (∀ (first last : Value) (steps : List Conversion) (n : Int), first.exactNanos? = some n →
      steps.foldlM convert first = .ok last →
      last.exactNanos? = some n ∧
      (∀ x, last = zonedDateTime x → x.IsIn x.zoneId x.resolver) ∧
      ∀ r, (∀ x, first = zonedDateTime x → r.zones = x.resolver.zones) →
        ∃ back, (first.wayBack last r).foldlM convert last = .ok back ∧ back.exactEqual? first = some true ∧
          back.date? = first.date? ∧ back.time? = first.time?) ∧
    ∀ (x : ZonedDateTime) (id : String) (r : Resolver), x.Returned id r → x.IsIn id r := by
  refine ⟨fun v w c h => (convert_eq_ok h).1, ?_, fun x id r h => h.isIn⟩
  intro first last steps n hfirst hsteps
  have hlast := (exactNanos?_of_conversions hsteps).trans hfirst
  exact ⟨hlast, fun x _ => x.isIn_self, exists_wayBack hfirst hlast⟩

/-- Clocks twelve and three quarter hours ahead. -/
def farAhead : Zone := ⟨⟨⟨45900, by decide, by decide⟩, "+1245", .bool false⟩, []⟩

def farAheadResolver : Resolver := .ofZones ⟨[(.text "Pacific/Chatham", farAhead)], List.pairwise_singleton _ _⟩

/-- The first midnight of the range at twelve hours behind. -/
def firstMidnightBehind : OffsetDateTime :=
  ⟨LocalDateTime.min, ⟨-43200, by decide, by decide⟩, by decide, by decide⟩

/-- The same instant by the clocks ahead: 00:45 on the next day. -/
def secondMidnightAhead : ZonedDateTime where
  resolver := farAheadResolver
  zoneId := "Pacific/Chatham"
  instant := firstMidnightBehind.toInstant
  period := farAhead.initial
  wall := ⟨⟨Calendar.firstDay + 1, by decide, by decide⟩, ⟨2700000000000, by decide, by decide⟩⟩
  period_eq := (Resolver.periodAt_eq_ok (z := farAhead) rfl _).trans rfl
  wall_eq := rfl

/-- Further behind there would be no reading in range, and the resolver on the way back remembers the zone. -/
theorem conversions_keep_instant_of_first_midnight :
    let first := zonedDateTime secondMidnightAhead
    let steps : List Conversion := [.toOffset none, .toOffset (some firstMidnightBehind.offset), .toInstant]
    let last := instant firstMidnightBehind.toInstant
    let asked := farAheadResolver.remember "Pacific/Chatham"
    (offsetDateTime secondMidnightAhead.toOffset).Becomes (.toOffset (some firstMidnightBehind.offset))
        (offsetDateTime firstMidnightBehind) ∧
      first.exactNanos? = some secondMidnightAhead.nanos ∧ steps.foldlM convert first = .ok last ∧
      asked.zones = secondMidnightAhead.resolver.zones ∧
      (∃ back, [.toZone (.text "Pacific/Chatham") (some asked)].foldlM convert last = .ok back ∧
        back.exactEqual? first = some true ∧ back.date? = first.date? ∧ back.time? = first.time?) ∧
      secondMidnightAhead.Returned "Pacific/Chatham" farAheadResolver ∧
      secondMidnightAhead.IsIn "Pacific/Chatham" farAheadResolver := by
  intro first steps last asked
  have hbehind : (offsetDateTime secondMidnightAhead.toOffset).convert
      (.toOffset (some firstMidnightBehind.offset)) = .ok (offsetDateTime firstMidnightBehind) :=
    bind_eq_ok.mpr ⟨firstMidnightBehind, liftM_eq_ok.mpr (OffsetDateTime.ofInstant_eq_ok.mpr ⟨rfl, rfl⟩), rfl⟩
  have hsteps : steps.foldlM convert first = .ok last :=
    bind_eq_ok.mpr ⟨_, rfl, bind_eq_ok.mpr ⟨_, hbehind, rfl⟩⟩
  have hzones : asked.zones = secondMidnightAhead.resolver.zones := Resolver.remember_zones _ _
  have hreturned : secondMidnightAhead.Returned "Pacific/Chatham" farAheadResolver :=
    .ofInstant (ZonedDateTime.ofInstant_self secondMidnightAhead)
  obtain ⟨hbecomes, hchain, hisIn⟩ := conversions_keep_instant
  obtain ⟨-, -, hback⟩ := hchain first last steps _ rfl hsteps
  refine ⟨hbecomes _ _ _ hbehind, rfl, hsteps, hzones, hback asked ?_, hreturned, hisIn _ _ _ hreturned⟩
  intro x hx
  rw [← zonedDateTime.inj hx]
  exact hzones

end Value

end CivilTime
