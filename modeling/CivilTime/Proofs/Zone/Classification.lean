/- A wall-clock time is unique, in a fold or in a gap as the instants at which the zone shows it say. -/
import CivilTime.Proofs.Zone.Rearranged
import Mathlib.Order.Bounds.Basic

namespace CivilTime

namespace Zone

/-- The instants at which a clock in the zone reads a time, whether or not they are in range. -/
def readings (z : Zone) (wall : Int) : Set Int :=
  {i | ∃ p, z.InEffect (i / nanosPerSecond) p ∧ i + p.offset.nanos = wall}

variable {z : Zone} {wall : Int}

theorem mem_readings {i : Int} :
    i ∈ z.readings wall ↔ i + (z.periodAt (i / nanosPerSecond)).offset.nanos = wall := by
  constructor
  · rintro ⟨p, hp, hi⟩
    rwa [inEffect_iff.mp hp]
  · intro hi
    exact ⟨_, inEffect_periodAt z _, hi⟩

/-- What an answer says about the instants that read a time. -/
def Shows (z : Zone) (wall : Int) : Resolution → Prop
  | .unique p => ∃ i, z.readings wall = {i} ∧ z.InEffect (i / nanosPerSecond) p
  | .fold p q t => ∃ i j, IsLeast (z.readings wall) i ∧ IsGreatest (z.readings wall) j ∧
      z.InEffect (i / nanosPerSecond) p ∧ z.InEffect (j / nanosPerSecond) q ∧
      i < t * nanosPerSecond ∧ t * nanosPerSecond ≤ j
  | .gap p q t => z.readings wall = ∅ ∧
      t * nanosPerSecond + p.offset.nanos ≤ wall ∧ wall < t * nanosPerSecond + q.offset.nanos

theorem window_of_mem {i : Int} (h : i ∈ z.readings wall) :
    Lookup.windowStart wall ≤ i / nanosPerSecond ∧ i / nanosPerSecond ≤ Lookup.windowEnd wall :=
  Lookup.window_of_reading (mem_readings.mp h)

/-- Between two instants that show the same time the clocks were changed. -/
theorem exists_change_between {i j : Int} (hi : i ∈ z.readings wall) (hj : j ∈ z.readings wall) (hij : i < j) :
    ∃ c ∈ (Lookup.direct z).nearby wall, i < c.time * nanosPerSecond ∧ c.time * nanosPerSecond ≤ j := by
  have hle : i / nanosPerSecond ≤ j / nanosPerSecond := by
    simp only [nanosPerSecond]
    omega
  rcases periodAt_window z hle with he | ⟨c, hc, -⟩
  · have hi := mem_readings.mp hi
    have hj := mem_readings.mp hj
    rw [he] at hj
    omega
  · obtain ⟨t, -, hb, rfl⟩ := mem_changesBetween.mp hc
    refine ⟨_, changesBetween_mono (window_of_mem hi).1 (window_of_mem hj).2 hc, ?_⟩
    simp only [nanosPerSecond] at *
    omega

/-- Where a function first exceeds a value it has passed it in one step. -/
theorem exists_crossing {f : Int → Int} {lo hi w : Int} (h : lo ≤ hi) (hlo : f lo ≤ w) (hhi : w < f hi) :
    ∃ s, lo < s ∧ s ≤ hi ∧ f (s - 1) ≤ w ∧ w < f s := by
  induction hi, h using Int.leInduction with
  | base => omega
  | succ hi hle ih =>
    by_cases hw : w < f hi
    · obtain ⟨s, hs, hsh, hcross⟩ := ih hw
      exact ⟨s, hs, by omega, hcross⟩
    · refine ⟨hi + 1, by omega, Int.le_refl _, ?_, hhi⟩
      rw [Int.add_sub_cancel]
      exact Int.not_lt.mp hw

/-- If no instant shows a time, then some change takes the clocks over it. -/
theorem exists_gapChange (h : z.readings wall = ∅) :
    ∃ c ∈ (Lookup.direct z).nearby wall, c.time * nanosPerSecond + c.before.offset.nanos ≤ wall ∧
      wall < c.time * nanosPerSecond + c.after.offset.nanos := by
  have hne (s : Int) : s + (z.periodAt s).offset.seconds ≠ wall / nanosPerSecond := by
    intro hs
    have hmem : s * nanosPerSecond + wall % nanosPerSecond ∈ z.readings wall := by
      have hdiv : (s * nanosPerSecond + wall % nanosPerSecond) / nanosPerSecond = s := by
        simp only [nanosPerSecond]
        omega
      rw [mem_readings, hdiv]
      simp only [Offset.nanos, nanosPerSecond] at *
      omega
    rw [h] at hmem
    exact hmem
  have h0 := (z.periodAt (Lookup.windowStart wall)).offset.lt_day
  have h1 := (z.periodAt (Lookup.windowEnd wall)).offset.neg_day_lt
  have hstart := Lookup.windowStart_eq wall
  have hend := Lookup.windowEnd_eq wall
  obtain ⟨s, hs, hsh, hbefore, hafter⟩ := exists_crossing (f := fun s => s + (z.periodAt s).offset.seconds)
    (w := wall / nanosPerSecond) (Lookup.windowStart_le_windowEnd wall) (by omega) (by omega)
  have hlt := Int.lt_iff_le_and_ne.mpr ⟨hbefore, hne (s - 1)⟩
  have hchange : z.periodAt s ≠ z.periodAt (s - 1) := by
    intro he
    rw [he] at hafter
    omega
  obtain ⟨c, hc, rfl, hcb, hca⟩ := exists_change hs hsh hchange
  refine ⟨c, hc, ?_⟩
  rw [hcb, hca]
  simp only [Offset.nanos, nanosPerSecond] at *
  omega

end Zone

namespace Lookup

theorem nodup_eraseDups {α : Type} [BEq α] [LawfulBEq α] (l : List α) : l.eraseDups.Nodup := by
  cases l with
  | nil => exact List.nodup_nil
  | cons a l =>
    have hlt : (l.filter fun b => !b == a).length < l.length + 1 :=
      Nat.lt_succ_of_le (List.length_filter_le _ l)
    rw [List.eraseDups_cons, List.nodup_cons]
    refine ⟨?_, nodup_eraseDups _⟩
    intro ha
    simpa using (List.mem_filter.mp (List.mem_eraseDups.mp ha)).2
termination_by l.length

variable {z : Zone} {wall : Int}

theorem occurrenceAt?_eq_some {x : Lookup} {offset : Offset} {o : Occurrence} :
    x.occurrenceAt? wall offset = some o ↔ o.instant = wall - offset.nanos ∧
      o.period = x.periodAt (o.instant / nanosPerSecond) ∧ o.period.offset = offset := by
  unfold occurrenceAt?
  constructor
  · intro h
    by_cases he : (x.periodAt ((wall - offset.nanos) / nanosPerSecond)).offset = offset
    · rw [if_pos he] at h
      cases h
      exact ⟨rfl, rfl, he⟩
    · rw [if_neg he] at h
      cases h
  · rintro ⟨hi, hp, ho⟩
    obtain ⟨i, p⟩ := o
    dsimp only at hi hp ho
    subst hi
    subst hp
    exact if_pos ho

theorem offset_mem_offsetsNear {s : Int} (hlo : windowStart wall ≤ s) (hhi : s ≤ windowEnd wall) :
    (z.periodAt s).offset ∈ (direct z).offsetsNear wall := by
  rw [offsetsNear, List.mem_eraseDups]
  rcases z.periodAt_window hlo with he | ⟨c, hc, hp⟩
  · rw [he]
    exact List.mem_cons_self
  · rw [← hp]
    have hc := Zone.changesBetween_mono (Int.le_refl _) hhi hc
    exact List.mem_cons_of_mem _ (List.mem_map.mpr ⟨c, hc, rfl⟩)

theorem mem_occurrences {o : Occurrence} : o ∈ (direct z).occurrences wall ↔
    o.instant ∈ z.readings wall ∧ o.period = z.periodAt (o.instant / nanosPerSecond) := by
  rw [occurrences, List.mem_mergeSort, List.mem_filterMap]
  constructor
  · rintro ⟨offset, -, ho⟩
    obtain ⟨hi, hp, rfl⟩ := occurrenceAt?_eq_some.mp ho
    refine ⟨Zone.mem_readings.mpr ?_, hp⟩
    rw [← show o.period = z.periodAt (o.instant / nanosPerSecond) from hp]
    omega
  · rintro ⟨hi, hp⟩
    have hw := Zone.window_of_mem hi
    have hi := Zone.mem_readings.mp hi
    rw [← hp] at hi
    refine ⟨o.period.offset, ?_, occurrenceAt?_eq_some.mpr ⟨by omega, hp, rfl⟩⟩
    rw [hp]
    exact offset_mem_offsetsNear hw.1 hw.2

theorem occurrences_pairwise (x : Lookup) (wall : Int) :
    (x.occurrences wall).Pairwise fun a b => a.instant < b.instant := by
  have hle : (x.occurrences wall).Pairwise fun a b => decide (a.instant ≤ b.instant) = true := by
    apply List.pairwise_mergeSort
    · intro a b c hab hbc
      exact decide_eq_true (Int.le_trans (of_decide_eq_true hab) (of_decide_eq_true hbc))
    · intro a b
      rw [Bool.or_eq_true, decide_eq_true_eq, decide_eq_true_eq]
      exact Int.le_total _ _
  have hfound : ((x.offsetsNear wall).filterMap (x.occurrenceAt? wall)).Pairwise
      fun a b => a.instant ≠ b.instant := by
    refine List.Pairwise.filterMap _ ?_ (nodup_eraseDups _)
    intro o o' hne a ha b hb he
    obtain ⟨ha, -, -⟩ := occurrenceAt?_eq_some.mp ha
    obtain ⟨hb, -, -⟩ := occurrenceAt?_eq_some.mp hb
    refine hne (Offset.ext_seconds ?_)
    simp only [Offset.nanos, nanosPerSecond] at ha hb
    omega
  have hne := hfound.perm (List.mergeSort_perm _ fun a b => decide (a.instant ≤ b.instant)).symm Ne.symm
  exact hle.imp₂ (fun a b hab hn => Int.lt_iff_le_and_ne.mpr ⟨of_decide_eq_true hab, hn⟩) hne

theorem mem_readings_iff {i : Int} :
    i ∈ z.readings wall ↔ ∃ o ∈ (direct z).occurrences wall, o.instant = i := by
  constructor
  · intro hi
    exact ⟨⟨i, z.periodAt (i / nanosPerSecond)⟩, mem_occurrences.mpr ⟨hi, rfl⟩, rfl⟩
  · rintro ⟨o, ho, rfl⟩
    exact (mem_occurrences.mp ho).1

theorem inEffect_of_mem_occurrences {o : Occurrence} (h : o ∈ (direct z).occurrences wall) :
    z.InEffect (o.instant / nanosPerSecond) o.period :=
  Zone.inEffect_iff.mpr (mem_occurrences.mp h).2.symm

section
variable {first : Occurrence} {rest : List Occurrence} (h : (direct z).occurrences wall = first :: rest)
include h

theorem isLeast_first : IsLeast (z.readings wall) first.instant := by
  have hsorted := (direct z).occurrences_pairwise wall
  rw [h] at hsorted
  refine ⟨mem_readings_iff.mpr ⟨first, by rw [h]; exact List.mem_cons_self, rfl⟩, ?_⟩
  intro i hi
  obtain ⟨o, ho, rfl⟩ := mem_readings_iff.mp hi
  rw [h] at ho
  rcases List.mem_cons.mp ho with rfl | ho
  · exact Int.le_refl _
  · exact Int.le_of_lt ((List.pairwise_cons.mp hsorted).1 o ho)

theorem isGreatest_last (hl : rest ≠ []) : IsGreatest (z.readings wall) (rest.getLast hl).instant := by
  have hsorted := (direct z).occurrences_pairwise wall
  rw [h, ← List.dropLast_append_getLast hl, ← List.cons_append] at hsorted
  refine ⟨mem_readings_iff.mpr ⟨rest.getLast hl, ?_, rfl⟩, ?_⟩
  · rw [h]
    exact List.mem_cons_of_mem _ (List.getLast_mem hl)
  · intro i hi
    obtain ⟨o, ho, rfl⟩ := mem_readings_iff.mp hi
    rw [h, ← List.dropLast_append_getLast hl, ← List.cons_append] at ho
    rcases List.mem_append.mp ho with ho | ho
    · exact Int.le_of_lt ((List.pairwise_append.mp hsorted).2.2 o ho _ List.mem_cons_self)
    · rw [List.mem_singleton.mp ho]

end

theorem exists_foldChange? {i j : Int} (hi : i ∈ z.readings wall) (hj : j ∈ z.readings wall) (hij : i < j) :
    ∃ c, (direct z).foldChange? wall i j = some c ∧
      i < c.time * nanosPerSecond ∧ c.time * nanosPerSecond ≤ j := by
  obtain ⟨c, hc, hbetween⟩ := Zone.exists_change_between hi hj hij
  have hsome : ((direct z).foldChange? wall i j).isSome :=
    List.find?_isSome.mpr ⟨c, hc, decide_eq_true hbetween⟩
  obtain ⟨c', hc'⟩ := Option.isSome_iff_exists.mp hsome
  have hfound := List.find?_some (show List.find? _ _ = some c' from hc')
  exact ⟨c', hc', of_decide_eq_true hfound⟩

theorem exists_gapChange? (h : z.readings wall = ∅) :
    ∃ c, (direct z).gapChange? wall = some c ∧ c.time * nanosPerSecond + c.before.offset.nanos ≤ wall ∧
      wall < c.time * nanosPerSecond + c.after.offset.nanos := by
  obtain ⟨c, hc, hcross⟩ := Zone.exists_gapChange h
  have hsome : ((direct z).gapChange? wall).isSome :=
    List.find?_isSome.mpr ⟨c, hc, decide_eq_true hcross⟩
  obtain ⟨c', hc'⟩ := Option.isSome_iff_exists.mp hsome
  have hfound := List.find?_some (show List.find? _ _ = some c' from hc')
  exact ⟨c', hc', of_decide_eq_true hfound⟩

/-- Every time gets an answer, and the answer is right. -/
theorem exists_resolve? (z : Zone) (wall : Int) :
    ∃ answer, (direct z).resolve? wall = some answer ∧ z.Shows wall answer := by
  unfold resolve?
  cases h : (direct z).occurrences wall with
  | nil =>
    have hempty : z.readings wall = ∅ := by
      refine Set.eq_empty_iff_forall_notMem.mpr fun i hi => ?_
      obtain ⟨o, ho, -⟩ := mem_readings_iff.mp hi
      rw [h] at ho
      exact List.not_mem_nil ho
    obtain ⟨c, hc, hcross⟩ := exists_gapChange? hempty
    exact ⟨.gap c.before c.after c.time, congrArg (Option.map _) hc, hempty, hcross⟩
  | cons first rest =>
    have hfirst : first ∈ (direct z).occurrences wall := by
      rw [h]
      exact List.mem_cons_self
    cases rest with
    | nil =>
      refine ⟨.unique first.period, rfl, first.instant, ?_, inEffect_of_mem_occurrences hfirst⟩
      ext i
      rw [mem_readings_iff, h, Set.mem_singleton_iff]
      constructor
      · rintro ⟨o, ho, rfl⟩
        rw [List.mem_singleton.mp ho]
      · rintro rfl
        exact ⟨first, List.mem_cons_self, rfl⟩
    | cons second rest =>
      have hne : second :: rest ≠ [] := List.cons_ne_nil _ _
      have hlast : (second :: rest).getLast hne ∈ (direct z).occurrences wall := by
        rw [h]
        exact List.mem_cons_of_mem _ (List.getLast_mem hne)
      have hsorted := (direct z).occurrences_pairwise wall
      rw [h] at hsorted
      have hlt := (List.pairwise_cons.mp hsorted).1 _ (List.getLast_mem hne)
      obtain ⟨c, hc, hbetween⟩ := exists_foldChange? (isLeast_first h).1 (isGreatest_last h hne).1 hlt
      exact ⟨.fold first.period ((second :: rest).getLast hne).period c.time, congrArg (Option.map _) hc,
        _, _, isLeast_first h, isGreatest_last h hne, inEffect_of_mem_occurrences hfirst,
        inEffect_of_mem_occurrences hlast, hbetween⟩

end Lookup

namespace Resolver

theorem exists_resolve_shows {r : Resolver} {id : String} {z : Zone} (h : r.zones.find? id = some z)
    (wall : LocalDateTime) : ∃ answer, r.resolve id wall = .ok answer ∧ z.Shows wall.epochNanos answer := by
  obtain ⟨answer, hanswer, hshows⟩ := Lookup.exists_resolve? z wall.epochNanos
  refine ⟨answer, ?_, hshows⟩
  rw [resolve, lookup_eq_ok h]
  simp only [bind, Except.bind, (Lookup.agrees_ofZone z).resolve?_eq, hanswer]
  rfl

/-- Every wall-clock time of a zone gets an answer: it is unique if one instant shows it, in a fold if several
do, of which the first and the last are told, and in a gap if none does. -/
theorem exists_resolve (r : Resolver) (id : String) (z : Zone) (wall : LocalDateTime)
    (h : r.zones.find? id = some z) :
    ∃ answer, r.resolve id wall = .ok answer ∧ z.Shows wall.epochNanos answer ∧
      ((∃ p, answer = .unique p) ↔ ∃ i, z.readings wall.epochNanos = {i}) ∧
      ((∃ p q t, answer = .fold p q t) ↔ (z.readings wall.epochNanos).Nontrivial) ∧
      ((∃ p q t, answer = .gap p q t) ↔ z.readings wall.epochNanos = ∅) := by
  obtain ⟨answer, hanswer, hshows⟩ := exists_resolve_shows h wall
  refine ⟨answer, hanswer, hshows, ?_⟩
  cases answer with
  | unique p =>
    obtain ⟨i, hi, -⟩ := hshows
    rw [hi]
    simp
  | fold p q t =>
    obtain ⟨i, j, hi, hj, -, -, hit, htj⟩ := hshows
    have hne : (z.readings wall.epochNanos).Nontrivial := ⟨i, hi.1, j, hj.1, by omega⟩
    have hsingle : ¬∃ i, z.readings wall.epochNanos = {i} := by
      rintro ⟨k, hk⟩
      rw [hk] at hne
      exact Set.not_nontrivial_singleton hne
    simp [hne, hsingle, hne.ne_empty]
  | gap p q t =>
    obtain ⟨hempty, -⟩ := hshows
    rw [hempty]
    simp [eq_comm]

/-- Half an hour before and half an hour after clocks are set back by an hour. -/
theorem exists_resolve_repeated_hour :
    let p : Period := ⟨⟨7200, by decide, by decide⟩, "CEST", .bool true⟩
    let q : Period := ⟨⟨3600, by decide, by decide⟩, "CET", .bool false⟩
    let z : Zone := ⟨p, [⟨1698541200, q⟩]⟩
    let r : Resolver := .ofZones ⟨[(.text "Europe/Berlin", z)], List.pairwise_singleton _ _⟩
    let wall : LocalDateTime := ⟨⟨2460247, by decide, by decide⟩, ⟨9000000000000, by decide, by decide⟩⟩
    r.zones.find? "Europe/Berlin" = some z ∧
      ∃ earlier later t, r.resolve "Europe/Berlin" wall = .ok (.fold earlier later t) ∧
        z.Shows wall.epochNanos (.fold earlier later t) := by
  intro p q z r wall
  have hz : r.zones.find? "Europe/Berlin" = some z := rfl
  have hfirst : 1698539400000000000 ∈ z.readings wall.epochNanos := Zone.mem_readings.mpr rfl
  have hlast : 1698543000000000000 ∈ z.readings wall.epochNanos := Zone.mem_readings.mpr rfl
  obtain ⟨answer, hanswer, hshows, -, hfold, -⟩ := exists_resolve r "Europe/Berlin" z wall hz
  obtain ⟨earlier, later, t, rfl⟩ := hfold.mpr ⟨_, hfirst, _, hlast, by decide⟩
  exact ⟨hz, earlier, later, t, hanswer, hshows⟩

end Resolver
end CivilTime
