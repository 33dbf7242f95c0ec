/- Instants and the times that clocks in a zone read at them determine each other, as far as the policies
allow. -/
import CivilTime.Proofs.Zone.Selection
import CivilTime.Proofs.ZonedDateTime.Landing

namespace CivilTime

namespace ZonedDateTime

variable {x : ZonedDateTime} {z : Zone}

theorem period_eq_periodAt (h : x.resolver.zones.find? x.zoneId = some z) :
    x.period = z.periodAt x.instant.unixSeconds := by
  have hp := x.period_eq
  rw [Resolver.periodAt_eq_ok h] at hp
  exact (Except.ok.inj hp).symm

/-- The instant of a value is one at which its reading is shown. -/
theorem nanos_mem_readings (h : x.resolver.zones.find? x.zoneId = some z) :
    x.nanos ∈ z.readings x.wall.epochNanos := by
  have hp : (z.periodAt (x.nanos / nanosPerSecond)).offset = x.period.offset := by
    rw [period_eq_periodAt h]
    rfl
  rw [Zone.mem_readings, hp]
  exact x.wall_eq.symm

/-- The zone of a value is known, and its offset in effect is the one by which clocks show the reading. -/
theorem exists_inEffect (x : ZonedDateTime) : ∃ z, x.resolver.zones.find? x.zoneId = some z ∧
    z.InEffect x.instant.unixSeconds x.period ∧ x.nanos ∈ z.readings x.wall.epochNanos := by
  obtain ⟨z, hz⟩ := Resolver.exists_find?_of_periodAt x.period_eq
  exact ⟨z, hz, Zone.inEffect_iff.mpr (period_eq_periodAt hz).symm, nanos_mem_readings hz⟩

theorem wall_of_ofInstant {i : Instant} {id : String} {r : Resolver} (hz : r.zones.find? id = some z)
    (h : ofInstant i id r = .ok x) {wall : LocalDateTime} (hi : i.nanos ∈ z.readings wall.epochNanos) :
    x.wall = wall := by
  obtain ⟨rfl, rfl, rfl⟩ := ofInstant_fields h
  have hw := x.wall_eq
  rw [period_eq_periodAt hz] at hw
  exact LocalDateTime.ext_epochNanos (hw.trans (Zone.mem_readings.mp hi))

/-- A time that the zone shows is the reading of the value made from it. -/
theorem wall_of_ofWall {wall : LocalDateTime} {id : String} {r : Resolver} {fold : FoldPolicy} {gap : GapPolicy}
    (hz : r.zones.find? id = some z) (hne : (z.readings wall.epochNanos).Nonempty)
    (h : ofWall wall id r fold gap = .ok x) : x.wall = wall := by
  obtain ⟨i, hi, hx⟩ := bind_eq_ok.mp h
  refine wall_of_ofInstant hz hx ?_
  rcases Resolver.instantOf_cases hz wall fold gap with ⟨j, hj, he⟩ | ⟨-, -, he⟩ | ⟨-, -, he⟩
  · rw [he, liftM_eq_ok, Instant.ofNanos_eq_ok] at hi
    rw [hi]
    exact hj.mem hne
  · rw [he] at hi
    cases hi
  · rw [he] at hi
    cases hi

/-- The first and the last instant at which the reading of a value is shown lie around the value, and they are
what the reading stands for under the policies that ask for them. -/
theorem exists_bracket (h : x.resolver.zones.find? x.zoneId = some z) :
    ∃ i j, IsLeast (z.readings x.wall.epochNanos) i ∧ IsGreatest (z.readings x.wall.epochNanos) j ∧
      ∀ gap, x.resolver.instantOf x.zoneId x.wall .earlier gap = liftM (Instant.ofNanos i) ∧
        x.resolver.instantOf x.zoneId x.wall .later gap = liftM (Instant.ofNanos j) := by
  have hne : (z.readings x.wall.epochNanos).Nonempty := ⟨_, nanos_mem_readings h⟩
  have hearlier (gap : GapPolicy) : ∃ i, IsLeast (z.readings x.wall.epochNanos) i ∧
      x.resolver.instantOf x.zoneId x.wall .earlier gap = liftM (Instant.ofNanos i) := by
    rcases Resolver.instantOf_cases h x.wall .earlier gap with ⟨i, hi, he⟩ | ⟨-, hf, -⟩ | ⟨hempty, -, -⟩
    · exact ⟨i, hi.isLeast hne, he⟩
    · cases hf
    · exact absurd hempty hne.ne_empty
  have hlater (gap : GapPolicy) : ∃ j, IsGreatest (z.readings x.wall.epochNanos) j ∧
      x.resolver.instantOf x.zoneId x.wall .later gap = liftM (Instant.ofNanos j) := by
    rcases Resolver.instantOf_cases h x.wall .later gap with ⟨j, hj, he⟩ | ⟨-, hf, -⟩ | ⟨hempty, -, -⟩
    · exact ⟨j, hj.isGreatest hne, he⟩
    · cases hf
    · exact absurd hempty hne.ne_empty
  obtain ⟨i, hi, -⟩ := hearlier .reject
  obtain ⟨j, hj, -⟩ := hlater .reject
  refine ⟨i, j, hi, hj, fun gap => ?_⟩
  -- The first and the last are unique, so they do not depend on the policy for gaps.
  obtain ⟨i', hi', he⟩ := hearlier gap
  obtain ⟨j', hj', hl⟩ := hlater gap
  rw [hi.unique hi', hj.unique hj']
  exact ⟨he, hl⟩

/-- Whether the reading is shown at another instant too. -/
theorem exists_isAmbiguous (h : x.resolver.zones.find? x.zoneId = some z) :
    ∃ b, x.isAmbiguous = .ok b ∧ (b = true ↔ ∃ i ∈ z.readings x.wall.epochNanos, i ≠ x.nanos) := by
  obtain ⟨answer, hanswer, hshows⟩ := Resolver.exists_resolve_shows h x.wall
  have hx := nanos_mem_readings h
  refine ⟨answer.isFold, ?_, ?_⟩
  · rw [isAmbiguous, hanswer]
    rfl
  cases answer with
  | unique p =>
    obtain ⟨i, hi, -⟩ := hshows
    rw [hi] at hx ⊢
    refine iff_of_false Bool.false_ne_true ?_
    rintro ⟨j, hj, hne⟩
    exact hne ((Set.mem_singleton_iff.mp hj).trans (Set.mem_singleton_iff.mp hx).symm)
  | fold p q t =>
    obtain ⟨i, j, hi, hj, -, -, hit, htj⟩ := hshows
    refine iff_of_true rfl ?_
    -- The first and the last differ, so one of them is not the instant of the value.
    by_cases he : i = x.nanos
    · exact ⟨j, hj.1, by omega⟩
    · exact ⟨i, hi.1, he⟩
  | gap p q t =>
    rw [hshows.1] at hx
    exact absurd hx (Set.notMem_empty _)

end ZonedDateTime

theorem Instant.fails_ofNanos {n : Int} {kind : ErrorKind} (hn : Text.Writable n) :
    Fails (liftM (Instant.ofNanos n)) kind ↔
      kind = .rangeOverflow ∧ (n < Instant.firstNanos ∨ Instant.lastNanos < n) := by
  rw [fails_iff_of_error_kind fun _ => ofNanos_error_kind hn]
  simp only [ofNanos_eq_ok]
  refine and_congr_right fun _ => ?_
  constructor
  · intro hnone
    by_contra hrange
    exact hnone ⟨⟨n, by omega, by omega⟩, rfl⟩
  · rintro hout ⟨i, rfl⟩
    have hfirst := i.firstNanos_le
    have hlast := i.le_lastNanos
    omega

section
variable {r : Resolver} {id : String} {z : Zone} (h : r.zones.find? id = some z) (wall : LocalDateTime)
  (fold : FoldPolicy) (gap : GapPolicy)
include h

theorem Resolver.instantOf_eq_ok {i : Instant} :
    r.instantOf id wall fold gap = .ok i ↔ z.Selects wall.epochNanos fold gap i.nanos := by
  rcases Resolver.instantOf_cases h wall fold gap with ⟨j, hj, he⟩ | ⟨hn, hf, he⟩ | ⟨hempty, hg, he⟩
  · rw [he, liftM_eq_ok, Instant.ofNanos_eq_ok]
    constructor
    · intro hi
      rw [hi]
      exact hj
    · intro hi
      exact hi.unique hj
  · rw [he]
    exact iff_of_false (by simp) fun hi => hi.not_rejected.1 ⟨hn, hf⟩
  · rw [he]
    exact iff_of_false (by simp) fun hi => hi.not_rejected.2 ⟨hempty, hg⟩

/-- There are three ways to fail: each policy refuses, or the selected instant is out of range. -/
theorem Resolver.fails_instantOf {kind : ErrorKind} : Fails (r.instantOf id wall fold gap) kind ↔
    (kind = .ambiguousTime ∧ (z.readings wall.epochNanos).Nontrivial ∧ fold = .reject) ∨
    (kind = .skippedTime ∧ z.readings wall.epochNanos = ∅ ∧ gap = .reject) ∨
    (kind = .rangeOverflow ∧ ∃ i, z.Selects wall.epochNanos fold gap i ∧
      (i < Instant.firstNanos ∨ Instant.lastNanos < i)) := by
  rcases Resolver.instantOf_cases h wall fold gap with ⟨j, hj, he⟩ | ⟨hn, hf, he⟩ | ⟨hempty, hg, he⟩
  · obtain ⟨o, ho⟩ := hj.exists_eq_sub
    rw [he, Instant.fails_ofNanos (ho ▸ wall.writable_sub_offset o)]
    constructor
    · rintro ⟨hk, hout⟩
      exact Or.inr (Or.inr ⟨hk, j, hj, hout⟩)
    · rintro (⟨-, hr⟩ | ⟨-, hr⟩ | ⟨hk, i, hi, hout⟩)
      · exact absurd hr hj.not_rejected.1
      · exact absurd hr hj.not_rejected.2
      · rw [hj.unique hi]
        exact ⟨hk, hout⟩
  · rw [he, fails_error]
    constructor
    · rintro rfl
      exact Or.inl ⟨rfl, hn, hf⟩
    · rintro (⟨rfl, -⟩ | ⟨-, hempty, -⟩ | ⟨-, i, hi, -⟩)
      · rfl
      · exact absurd hempty hn.ne_empty
      · exact absurd ⟨hn, hf⟩ hi.not_rejected.1
  · rw [he, fails_error]
    constructor
    · rintro rfl
      exact Or.inr (Or.inl ⟨rfl, hempty, hg⟩)
    · rintro (⟨-, hn, -⟩ | ⟨rfl, -⟩ | ⟨-, i, hi, -⟩)
      · exact absurd hempty hn.ne_empty
      · rfl
      · exact absurd ⟨hempty, hg⟩ hi.not_rejected.2

end

/-- A wall-clock time is taken for the instant that the policies select, unless one of them refuses or the instant
is out of range; a time that is shown is read from the value made of it. The reading of a value is taken for
instants around it, and it is ambiguous if another instant shows it too. -/
theorem instant_and_wall_determine_each_other :
    (∀ (r : Resolver) (id : String) (z : Zone) (wall : LocalDateTime) (fold : FoldPolicy) (gap : GapPolicy),
      r.zones.find? id = some z →
      (∀ answer, r.resolve id wall = .ok answer ↔ (Lookup.ofZone z).resolve? wall.epochNanos = some answer) ∧
      (∀ i, r.instantOf id wall fold gap = .ok i ↔ z.Selects wall.epochNanos fold gap i.nanos) ∧
      (∀ kind, Fails (r.instantOf id wall fold gap) kind ↔
        (kind = .ambiguousTime ∧ (z.readings wall.epochNanos).Nontrivial ∧ fold = .reject) ∨
        (kind = .skippedTime ∧ z.readings wall.epochNanos = ∅ ∧ gap = .reject) ∨
        (kind = .rangeOverflow ∧ ∃ i, z.Selects wall.epochNanos fold gap i ∧
          (i < Instant.firstNanos ∨ Instant.lastNanos < i))) ∧
      ∀ x, (z.readings wall.epochNanos).Nonempty → ZonedDateTime.ofWall wall id r fold gap = .ok x →
        x.wall = wall) ∧
    ∀ x : ZonedDateTime, ∃ z, x.resolver.zones.find? x.zoneId = some z ∧
      (∃ i j, i ≤ x.nanos ∧ x.nanos ≤ j ∧
        ∀ gap, x.resolver.instantOf x.zoneId x.wall .earlier gap = liftM (Instant.ofNanos i) ∧
          x.resolver.instantOf x.zoneId x.wall .later gap = liftM (Instant.ofNanos j)) ∧
      ∃ b, x.isAmbiguous = .ok b ∧ (b = true ↔ ∃ i ∈ z.readings x.wall.epochNanos, i ≠ x.nanos) := by
  constructor
  · intro r id z wall fold gap h
    exact ⟨Resolver.resolve_eq_ok h, fun _ => Resolver.instantOf_eq_ok h wall fold gap,
      fun _ => Resolver.fails_instantOf h wall fold gap, fun _ hne => ZonedDateTime.wall_of_ofWall h hne⟩
  · intro x
    obtain ⟨z, h⟩ := Resolver.exists_find?_of_periodAt x.period_eq
    have hx := ZonedDateTime.nanos_mem_readings h
    obtain ⟨i, j, hi, hj, hpolicies⟩ := ZonedDateTime.exists_bracket h
    exact ⟨z, h, ⟨i, j, hi.2 hx, hj.2 hx, hpolicies⟩, ZonedDateTime.exists_isAmbiguous h⟩

/-- Half an hour before and half an hour after clocks are set back by an hour. -/
theorem instant_and_wall_of_repeated_hour :
    let p : Period := ⟨⟨7200, by decide, by decide⟩, "CEST", .bool true⟩
    let q : Period := ⟨⟨3600, by decide, by decide⟩, "CET", .bool false⟩
    let z : Zone := ⟨p, [⟨1698541200, q⟩]⟩
    let r : Resolver := .ofZones ⟨[(.text "Europe/Berlin", z)], List.pairwise_singleton _ _⟩
    let wall : LocalDateTime := ⟨⟨2460247, by decide, by decide⟩, ⟨9000000000000, by decide, by decide⟩⟩
    let later : Instant := ⟨1698543000000000000, by decide, by decide⟩
    r.zones.find? "Europe/Berlin" = some z ∧ (z.readings wall.epochNanos).Nontrivial ∧
      Fails (r.instantOf "Europe/Berlin" wall .reject .reject) .ambiguousTime ∧
      r.instantOf "Europe/Berlin" wall .later .reject = .ok later := by
  intro p q z r wall later
  have hz : r.zones.find? "Europe/Berlin" = some z := rfl
  have hfirst : 1698539400000000000 ∈ z.readings wall.epochNanos := Zone.mem_readings.mpr rfl
  have hlast : later.nanos ∈ z.readings wall.epochNanos := Zone.mem_readings.mpr rfl
  have hn : (z.readings wall.epochNanos).Nontrivial := ⟨_, hfirst, _, hlast, by decide⟩
  have hgreatest : IsGreatest (z.readings wall.epochNanos) later.nanos := by
    refine ⟨hlast, fun i hi => ?_⟩
    obtain ⟨period, hp, hi⟩ := hi
    have hoffset : 3600000000000 ≤ period.offset.nanos := by
      rcases hp with ⟨-, rfl⟩ | ⟨_, t, ht, rfl⟩
      · decide
      · rw [List.mem_singleton.mp ht.mem]
        decide
    have hwall : wall.epochNanos = later.nanos + 3600000000000 := rfl
    omega
  have hspec := instant_and_wall_determine_each_other.1 r "Europe/Berlin" z wall
  refine ⟨hz, hn, ?_, ?_⟩
  · exact ((hspec .reject .reject hz).2.2.1 _).mpr (Or.inl ⟨rfl, hn, rfl⟩)
  · exact ((hspec .later .reject hz).2.1 later).mpr (.last hn rfl hgreatest)

end CivilTime
