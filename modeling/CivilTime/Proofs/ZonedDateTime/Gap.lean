/- A time that clocks skip is taken as far past the change as it lies past the start of the gap, and if no other change
comes in between, clocks then read it moved on by the length of the gap. -/
import CivilTime.Proofs.Zone.NamedChange
import CivilTime.Proofs.ZonedDateTime.Reading

namespace CivilTime

open Zone

section
variable {r : Resolver} {id : String} {z : Zone} {wall : LocalDateTime} {p q : Period} {t : Int} {i : Instant}
  {fold : FoldPolicy}

/-- A time in a gap is read with the offset before the gap. -/
theorem Resolver.nanos_of_shiftForward (hgap : r.resolve id wall = .ok (.gap p q t))
    (hi : r.instantOf id wall fold .shiftForward = .ok i) : i.nanos = wall.epochNanos - p.offset.nanos := by
  rw [instantOf, hgap] at hi
  exact Instant.ofNanos_eq_ok.mp (liftM_eq_ok.mp hi)

/-- Where no other change follows up to an instant in the length of a gap, the period after the gap is in effect. -/
theorem Zone.periodAt_after_gap (hq : z.InEffect t q) (hti : t * nanosPerSecond ≤ i.nanos)
    (hquiet : ∀ u ∈ z.transitions, ¬(t < u.time ∧ u.time * nanosPerSecond ≤ i.nanos)) :
    z.periodAt i.unixSeconds = q := by
  rw [← inEffect_iff.mp hq]
  refine periodAt_of_quiet ?_ ?_
  · simp only [Instant.unixSeconds, nanosPerSecond] at *
    omega
  · rintro u hu ⟨htu, hui⟩
    refine hquiet u hu ⟨htu, ?_⟩
    simp only [Instant.unixSeconds, nanosPerSecond] at *
    omega

/-- Where a reading lies that is moved on by some seconds, in range or not. -/
def LocalDateTime.movedOn (l : LocalDateTime) (seconds : Int) : Int := l.epochNanos + seconds * nanosPerSecond

namespace ZonedDateTime

/-- A clock in the zone reads an instant with the offset in effect at it, if the reading is in range. -/
theorem exists_ofInstant_iff (hp : r.periodAt id i = .ok p) :
    (∀ x, ofInstant i id r = .ok x → x.wall.epochNanos = i.nanos + p.offset.nanos) ∧
      ((∃ x, ofInstant i id r = .ok x) ↔ ∃ l : LocalDateTime, l.epochNanos = i.nanos + p.offset.nanos) := by
  have hwall (x : ZonedDateTime) (hx : ofInstant i id r = .ok x) :
      x.wall.epochNanos = i.nanos + p.offset.nanos := by
    obtain ⟨rfl, rfl, rfl⟩ := ofInstant_fields hx
    have hperiod := x.period_eq
    rw [hp] at hperiod
    rw [Except.ok.inj hperiod]
    exact x.wall_eq
  refine ⟨hwall, ?_⟩
  constructor
  · rintro ⟨x, hx⟩
    exact ⟨x.wall, hwall x hx⟩
  · rintro ⟨l, hl⟩
    exact ⟨_, ofInstant_self ⟨r, id, i, p, l, hp, hl⟩⟩

end ZonedDateTime
end

namespace ZonedDateTime

/-- In a table in ascending order, a time in a gap is taken for an instant in the length of the gap from the change on,
as far past the change as the time is past the start of the gap. Unless another change comes first, a clock in the
zone reads that instant as the time moved on by the difference of the offsets, which is not before the end of the gap;
there is such a value if the reading is in range. -/
theorem shiftForward_keeps_distance (r : Resolver) (id : String) (z : Zone) (wall : LocalDateTime) (p q : Period)
    (t : Int) (fold : FoldPolicy) (i : Instant) (h : r.zones.find? id = some z)
    (hascending : ascending z.transitions = true) (hgap : r.resolve id wall = .ok (.gap p q t))
    (hi : r.instantOf id wall fold .shiftForward = .ok i) :
    (t * nanosPerSecond ≤ i.nanos ∧
      i.nanos < (t + q.offset.seconds - p.offset.seconds) * nanosPerSecond) ∧
    i.nanos - t * nanosPerSecond = wall.epochNanos - (t + p.offset.seconds) * nanosPerSecond ∧
    ((∀ u ∈ z.transitions, ¬(t < u.time ∧ u.time * nanosPerSecond ≤ i.nanos)) →
      (t + q.offset.seconds) * nanosPerSecond ≤ wall.movedOn (q.offset.seconds - p.offset.seconds) ∧
      (∀ x, ofWall wall id r fold .shiftForward = .ok x →
        x.wall.epochNanos = wall.movedOn (q.offset.seconds - p.offset.seconds)) ∧
      ((∃ x, ofWall wall id r fold .shiftForward = .ok x) ↔
        ∃ l : LocalDateTime, l.epochNanos = wall.movedOn (q.offset.seconds - p.offset.seconds))) := by
  obtain ⟨-, hstart, hend⟩ := Resolver.shows_of_resolve h hgap
  have hnanos := Resolver.nanos_of_shiftForward hgap hi
  have hlands : t * nanosPerSecond ≤ i.nanos := by omega
  refine ⟨⟨hlands, ?_⟩, ?_, fun hquiet => ?_⟩
  · simp only [Offset.nanos, nanosPerSecond] at *
    omega
  · simp only [Offset.nanos, nanosPerSecond] at *
    omega
  · obtain ⟨e, he, -, rfl, rfl⟩ := Resolver.exists_first_of_gap h hgap
    have hq := (distinct_of_ascending hascending).inEffect he.mem
    have hperiod : r.periodAt id i = .ok e.period := by
      rw [Resolver.periodAt_eq_ok h, periodAt_after_gap hq hlands hquiet]
    have hmade : ofWall wall id r fold .shiftForward = ofInstant i id r := by
      rw [ofWall, hi]
      rfl
    have hreading : wall.movedOn (e.period.offset.seconds - p.offset.seconds) =
        i.nanos + e.period.offset.nanos := by
      simp only [LocalDateTime.movedOn, Offset.nanos, nanosPerSecond] at *
      omega
    rw [hmade, hreading]
    refine ⟨?_, exists_ofInstant_iff hperiod⟩
    simp only [Offset.nanos, nanosPerSecond] at *
    omega

/-- 02:30 in the night in which clocks are set forward from two to three is taken for half past three. -/
theorem shiftForward_keeps_distance_in_spring :
    let p : Period := ⟨⟨3600, by decide, by decide⟩, "CET", .bool false⟩
    let q : Period := ⟨⟨7200, by decide, by decide⟩, "CEST", .bool true⟩
    let z : Zone := ⟨p, [⟨1679792400, q⟩]⟩
    let r : Resolver := .ofZones ⟨[(.text "Europe/Berlin", z)], List.pairwise_singleton _ _⟩
    let day : Date := ⟨2460030, by decide, by decide⟩
    let wall : LocalDateTime := ⟨day, ⟨9000000000000, by decide, by decide⟩⟩
    let later : LocalDateTime := ⟨day, ⟨12600000000000, by decide, by decide⟩⟩
    let i : Instant := ⟨1679794200000000000, by decide, by decide⟩
    (r.zones.find? "Europe/Berlin" = some z ∧ ascending z.transitions = true ∧
      r.resolve "Europe/Berlin" wall = .ok (.gap p q 1679792400) ∧
      r.instantOf "Europe/Berlin" wall .reject .shiftForward = .ok i) ∧
      i.nanos - 1679792400 * nanosPerSecond = 1800 * nanosPerSecond ∧
      ∃ x, ofWall wall "Europe/Berlin" r .reject .shiftForward = .ok x ∧ x.wall = later := by
  intro p q z r day wall later i
  have hz : r.zones.find? "Europe/Berlin" = some z := rfl
  have hgap : r.resolve "Europe/Berlin" wall = .ok (.gap p q 1679792400) := by cbv
  have hi : r.instantOf "Europe/Berlin" wall .reject .shiftForward = .ok i := by
    rw [Resolver.instantOf, hgap]
    rfl
  obtain ⟨-, hdistance, hreads⟩ :=
    shiftForward_keeps_distance r "Europe/Berlin" z wall p q _ .reject i hz rfl hgap hi
  have hquiet : ∀ u ∈ z.transitions, ¬(1679792400 < u.time ∧ u.time * nanosPerSecond ≤ i.nanos) := by
    intro u hu hlater
    rw [List.mem_singleton.mp hu] at hlater
    exact absurd hlater.1 (Int.lt_irrefl _)
  obtain ⟨-, hwall, hmade⟩ := hreads hquiet
  have hlater : later.epochNanos = wall.movedOn (q.offset.seconds - p.offset.seconds) := rfl
  obtain ⟨x, hx⟩ := hmade.mpr ⟨later, hlater⟩
  exact ⟨⟨hz, rfl, hgap, hi⟩, hdistance, x, hx, LocalDateTime.ext_epochNanos ((hwall x hx).trans hlater.symm)⟩

end ZonedDateTime
end CivilTime
