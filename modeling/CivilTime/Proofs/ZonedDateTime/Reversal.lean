/- When a subtraction undoes an addition in a zone: always if only nanoseconds are added, and with days if the reading
is shown once and the shifted one is shown at all. -/
import CivilTime.Proofs.Difference
import CivilTime.Proofs.Value.Conversion
import CivilTime.Proofs.ZonedDateTime.Gap
import CivilTime.Proofs.ZonedDateTime.Move

namespace CivilTime

open Calendar

theorem LocalDateTime.shiftDate_days_eq_ok {l s : LocalDateTime} {days : Int} :
    l.shiftDate 0 days = .ok s ↔ s.date.dayNumber = l.date.dayNumber + days ∧ s.time = l.time := by
  rw [shiftDate_eq_ok, shifted_zero, shifted_zero, Int.add_zero]
  exact and_iff_right (supported_dayNumber l.date)

/-- Days are taken back as they were added. -/
theorem LocalDateTime.shiftDate_neg_days {l s : LocalDateTime} {days : Int} (h : l.shiftDate 0 days = .ok s) :
    s.shiftDate 0 (-days) = .ok l := by
  obtain ⟨hdate, htime⟩ := shiftDate_days_eq_ok.mp h
  exact shiftDate_days_eq_ok.mpr ⟨by omega, htime.symm⟩

namespace Resolver

variable {r : Resolver} {id : String} {z : Zone} {wall : LocalDateTime}

/-- A time outside gaps is shown. -/
theorem readings_nonempty (h : r.zones.find? id = some z) (hgap : ∀ p q t, r.resolve id wall ≠ .ok (.gap p q t)) :
    (z.readings wall.epochNanos).Nonempty := by
  obtain ⟨answer, hanswer, hshows⟩ := exists_resolve_shows h wall
  cases answer with
  | unique p =>
    obtain ⟨i, hi, -⟩ := hshows
    rw [hi]
    exact Set.singleton_nonempty i
  | fold p q t =>
    obtain ⟨i, -, hi, -⟩ := hshows
    exact ⟨i, hi.1⟩
  | gap p q t => exact absurd hanswer (hgap p q t)

end Resolver

namespace ZonedDateTime

variable {x y : ZonedDateTime} {d : Duration} {locate locate' : LocalDateTime → Except Error Instant} {z : Zone}

/-- At an instant that reads a time, the zone has a value with this reading. -/
theorem exists_withInstant {i : Instant} {wall : LocalDateTime} (hz : x.resolver.zones.find? x.zoneId = some z)
    (hi : i.nanos ∈ z.readings wall.epochNanos) : ∃ m, x.withInstant i = .ok m ∧ m.wall = wall := by
  obtain ⟨-, hmade⟩ := exists_ofInstant_iff (Resolver.periodAt_eq_ok hz i)
  obtain ⟨m, hm⟩ := hmade.mpr ⟨wall, (Zone.mem_readings.mp hi).symm⟩
  exact ⟨m, hm, wall_of_ofInstant hz hm hi⟩

theorem subtractWith_addWith_exact (hd : ¬d.hasDatePart = true) (hadd : x.addWith d locate = .ok y) :
    y.subtractWith d locate' = .ok x := by
  obtain ⟨i, hi, hy⟩ := (addWith_exact hd).mp hadd
  obtain ⟨rfl, hreads⟩ := withInstant_fields hy
  rw [subtractWith_exact hd (Instant.addNanos_neg hi), hreads]
  exact x.withInstant_self

/-- If the time that days lead to is shown at the instant it is taken for, the way back comes through this instant and
this time, and on to what the first reading is taken for. -/
theorem subtractWith_addWith_days (hz : x.resolver.zones.find? x.zoneId = some z) (hmonths : d.months = 0)
    (hdays : d.days ≠ 0) (hadd : x.addWith d locate = .ok y)
    (hshown : ∀ l s, x.wall.shiftDate 0 d.days = .ok l → locate l = .ok s → s.nanos ∈ z.readings l.epochNanos) :
    y.subtractWith d locate' = locate' x.wall >>= x.withInstant := by
  have hd : d.hasDatePart = true := Duration.hasDatePart_iff.mpr fun h => hdays h.2
  obtain ⟨l, s, i, hl, hs, hi, hy⟩ := (addWith_date hd).mp hadd
  rw [hmonths] at hl
  obtain ⟨rfl, hreads⟩ := withInstant_fields hy
  obtain ⟨m, hm, hwall⟩ := exists_withInstant hz (hshown l s hl hs)
  have hreturn : m.wall.shiftDate (-d.months) (-d.days) = .ok x.wall := by
    rw [hwall, hmonths, Int.neg_zero]
    exact LocalDateTime.shiftDate_neg_days hl
  rw [subtractWith_date hd (Instant.addNanos_neg hi) (hreads ▸ hm) hreturn, hreads]

theorem instantOf_wall_of_unique {p : Period} (hz : x.resolver.zones.find? x.zoneId = some z)
    (hunique : x.resolver.resolve x.zoneId x.wall = .ok (.unique p)) (fold : FoldPolicy) (gap : GapPolicy) :
    x.resolver.instantOf x.zoneId x.wall fold gap = .ok x.instant := by
  obtain ⟨i, hi, -⟩ := Resolver.shows_of_resolve hz hunique
  obtain rfl : x.nanos = i := by
    have hx := nanos_mem_readings hz
    rwa [hi] at hx
  exact (Resolver.instantOf_eq_ok hz x.wall fold gap).mpr (.only hi)

/-- Subtracting undoes an addition of nanoseconds always. It undoes one of days, whatever the zone changes on the way,
if the reading of the start is shown once and the one that the days lead to is not skipped. -/
theorem subtract_undoes_add_in_zone (x y : ZonedDateTime) (d : Duration) (fold fold' : FoldPolicy)
    (gap gap' : GapPolicy) (hmonths : d.months = 0) (hadd : x.add d fold gap = .ok y) :
    (d.days = 0 → y.subtract d fold' gap' = .ok x) ∧
    (d.days ≠ 0 → (∃ p, x.resolver.resolve x.zoneId x.wall = .ok (.unique p)) →
      (∀ l, x.wall.shiftDate 0 d.days = .ok l → ∀ p q t, x.resolver.resolve x.zoneId l ≠ .ok (.gap p q t)) →
      y.subtract d fold' gap' = .ok x) := by
  obtain ⟨z, hz, -⟩ := x.exists_inEffect
  refine ⟨fun hdays => ?_, ?_⟩
  · exact subtractWith_addWith_exact (fun hd => Duration.hasDatePart_iff.mp hd ⟨hmonths, hdays⟩) hadd
  · rintro hdays ⟨p, hunique⟩ hgap
    have hshown (l : LocalDateTime) (s : Instant) (hl : x.wall.shiftDate 0 d.days = .ok l)
        (hs : x.resolver.instantOf x.zoneId l fold gap = .ok s) : s.nanos ∈ z.readings l.epochNanos :=
      ((Resolver.instantOf_eq_ok hz l fold gap).mp hs).mem (Resolver.readings_nonempty hz (hgap l hl))
    obtain ⟨hid, hr, -⟩ := isIn_of_addWith hadd
    -- The policies of the way back have no say, since the reading of the start is shown once.
    rw [subtract, subtractWith_addWith_days hz hmonths hdays hadd hshown, hid, hr,
      bind_of_eq_ok (instantOf_wall_of_unique hz hunique fold' gap')]
    exact x.withInstant_self

/-- From 02:30 on the day before clocks are set back from three to two, a day and an hour lead over the second 02:30 to
half past three, and so do 26 hours. Both are undone. -/
theorem subtract_undoes_add_in_zone_in_autumn :
    let p : Period := ⟨⟨7200, by decide, by decide⟩, "CEST", .bool true⟩
    let q : Period := ⟨⟨3600, by decide, by decide⟩, "CET", .bool false⟩
    let z : Zone := ⟨p, [⟨1698541200, q⟩]⟩
    let r : Resolver := .ofZones ⟨[(.text "Europe/Berlin", z)], List.pairwise_singleton _ _⟩
    let clock : TimeOfDay := ⟨9000000000000, by decide, by decide⟩
    let x : ZonedDateTime := ⟨r, "Europe/Berlin", ⟨1698453000000000000, by decide, by decide⟩, p,
      ⟨⟨2460246, by decide, by decide⟩, clock⟩, by cbv, by decide⟩
    let y : ZonedDateTime := ⟨r, "Europe/Berlin", ⟨1698546600000000000, by decide, by decide⟩, q,
      ⟨⟨2460247, by decide, by decide⟩, ⟨12600000000000, by decide, by decide⟩⟩, by cbv, by decide⟩
    let dayAndHour : Duration := ⟨0, 1, 3600000000000, by decide, by decide⟩
    let elapsed : Duration := ⟨0, 0, 93600000000000, by decide, by decide⟩
    (r.resolve "Europe/Berlin" x.wall = .ok (.unique p) ∧
      r.resolve "Europe/Berlin" ⟨⟨2460247, by decide, by decide⟩, clock⟩ = .ok (.fold p q 1698541200) ∧
      x.add dayAndHour .later .reject = .ok y ∧ x.add elapsed .reject .reject = .ok y) ∧
      y.subtract dayAndHour .reject .reject = .ok x ∧ y.subtract elapsed .reject .reject = .ok x := by
  intro p q z r clock x y dayAndHour elapsed
  let repeated : LocalDateTime := ⟨⟨2460247, by decide, by decide⟩, clock⟩
  have hunique : r.resolve "Europe/Berlin" x.wall = .ok (.unique p) := by cbv
  have hfold : r.resolve "Europe/Berlin" repeated = .ok (.fold p q 1698541200) := by cbv
  have hmoved : x.wall.shiftDate 0 1 = .ok repeated := LocalDateTime.shiftDate_days_eq_ok.mpr ⟨rfl, rfl⟩
  have hsecond : r.instantOf "Europe/Berlin" repeated .later .reject =
      .ok ⟨1698543000000000000, by decide, by decide⟩ := by
    rw [Resolver.instantOf, hfold]
    rfl
  have hday : x.add dayAndHour .later .reject = .ok y :=
    (addWith_date rfl).mpr ⟨repeated, _, y.instant, hmoved, hsecond, rfl, y.withInstant_self⟩
  have helapsed : x.add elapsed .reject .reject = .ok y :=
    (addWith_exact (d := elapsed) (by decide)).mpr ⟨y.instant, rfl, y.withInstant_self⟩
  obtain ⟨-, hundone⟩ := subtract_undoes_add_in_zone x y dayAndHour .later .reject .reject .reject rfl hday
  obtain ⟨hundone', -⟩ := subtract_undoes_add_in_zone x y elapsed .reject .reject .reject .reject rfl helapsed
  refine ⟨⟨hunique, hfold, hday, helapsed⟩, hundone (by decide) ⟨p, hunique⟩ fun l hl => ?_, hundone' rfl⟩
  obtain rfl : repeated = l := Except.ok.inj (hmoved.symm.trans hl)
  rw [hfold]
  rintro _ _ _ ⟨⟩

end ZonedDateTime
end CivilTime
