/- The change of the clocks that an answer names for a time that is skipped or shown more than once. Both names are
of the first entry of the table that fits, and neither is always right: the entry may be replaced by another one for
the same second, or it may not set the clocks back. -/
import CivilTime.Proofs.Zone.Selection
import Mathlib.Data.List.Permutation

namespace CivilTime

namespace Zone

/-- Of the entries of a table that meet a condition this one begins first. Of several that begin together it is the
one listed first. -/
def IsFirst (transitions : List Transition) (p : Transition → Prop) (t : Transition) : Prop :=
  ∃ before after, transitions = before ++ t :: after ∧ p t ∧ (∀ u ∈ before, p u → t.time < u.time) ∧
    ∀ u ∈ after, p u → t.time ≤ u.time

section
variable {l : List Transition} {p : Transition → Prop} {t u : Transition}

theorem IsFirst.mem (h : IsFirst l p t) : t ∈ l := by
  obtain ⟨before, after, rfl, -⟩ := h
  exact List.mem_append_right before List.mem_cons_self

theorem IsFirst.holds (h : IsFirst l p t) : p t := by
  obtain ⟨before, after, -, ht, -⟩ := h
  exact ht

theorem IsFirst.time_le (h : IsFirst l p t) (hu : u ∈ l) (hp : p u) : t.time ≤ u.time := by
  obtain ⟨before, after, rfl, -, hbefore, hafter⟩ := h
  rcases List.mem_append.mp hu with hu | hu
  · exact Int.le_of_lt (hbefore u hu hp)
  · rcases List.mem_cons.mp hu with rfl | hu
    · exact Int.le_refl _
    · exact hafter u hu hp

theorem IsFirst.unique (h : IsFirst l p t) (h' : IsFirst l p u) : t = u := by
  have htu := h.time_le h'.mem h'.holds
  have hut := h'.time_le h.mem h.holds
  obtain ⟨before, after, rfl, ht, hbefore, -⟩ := h
  obtain ⟨before', after', he, hu, hbefore', -⟩ := h'
  -- Neither is listed before the other, as it would then begin earlier.
  rcases List.append_eq_append_iff.mp he with ⟨skipped, rfl, hrest⟩ | ⟨skipped, rfl, hrest⟩
  · cases skipped with
    | nil => exact (List.cons.inj hrest).1
    | cons v skipped =>
      obtain ⟨rfl, -⟩ := List.cons.inj hrest
      have := hbefore' t (List.mem_append_right before List.mem_cons_self) ht
      omega
  · cases skipped with
    | nil => exact (List.cons.inj hrest).1.symm
    | cons v skipped =>
      obtain ⟨rfl, -⟩ := List.cons.inj hrest
      have := hbefore u (List.mem_append_right before' List.mem_cons_self) hu
      omega

theorem IsFirst.congr {q : Transition → Prop} (h : IsFirst l p t) (hpq : ∀ u, p u ↔ q u) : IsFirst l q t := by
  obtain rfl : p = q := funext fun u => propext (hpq u)
  exact h

theorem IsFirst.cons_of_not {q : Transition → Prop} (h : IsFirst l q t) (hu : q u → t.time < u.time) :
    IsFirst (u :: l) q t := by
  obtain ⟨before, after, rfl, ht, hbefore, hafter⟩ := h
  refine ⟨u :: before, after, rfl, ht, ?_, hafter⟩
  intro v hv hq
  rcases List.mem_cons.mp hv with rfl | hv
  · exact hu hq
  · exact hbefore v hv hq

end

/-- The first entry that a search finds in a table sorted by time, where entries that begin together keep their
order. -/
theorem isFirst_of_find? {l : List Transition} {p q : Transition → Bool} {t : Transition}
    (h : ((l.filter q).mergeSort fun a b => decide (a.time ≤ b.time)).find? p = some t) :
    IsFirst l (fun u => q u = true ∧ p u = true) t := by
  induction l with
  | nil => simp at h
  | cons u l ih =>
    by_cases hq : q u = true
    · rw [List.filter_cons_of_pos hq] at h
      obtain ⟨early, late, hsorted, hrest, hlater⟩ :=
        List.mergeSort_cons time_le_trans time_le_total u (l.filter q)
      have hle := pairwise_mergeSort_time (u :: l.filter q)
      rw [hsorted] at h hle
      rw [hrest] at ih
      rw [List.find?_append] at h ih
      cases hearly : early.find? p with
      | some v =>
        rw [hearly, Option.some_or] at h
        obtain rfl : v = t := Option.some.inj h
        refine (ih (by rw [hearly, Option.some_or])).cons_of_not fun _ => ?_
        simpa using hlater v (List.mem_of_find?_eq_some hearly)
      | none =>
        rw [hearly, Option.none_or] at h ih
        by_cases hp : p u = true
        · rw [List.find?_cons_of_pos hp] at h
          obtain rfl : u = t := Option.some.inj h
          refine ⟨[], l, rfl, ⟨hq, hp⟩, fun v hv => absurd hv List.not_mem_nil, ?_⟩
          rintro v hv ⟨hvq, hvp⟩
          have hmem : v ∈ early ++ late := by
            rw [← hrest, List.mem_mergeSort]
            exact List.mem_filter.mpr ⟨hv, hvq⟩
          rcases List.mem_append.mp hmem with hv | hv
          · exact absurd hvp (List.find?_eq_none.mp hearly v hv)
          · exact (List.pairwise_cons.mp (List.pairwise_append.mp hle).2.1).1 v hv
        · rw [List.find?_cons_of_neg hp] at h
          exact (ih h).cons_of_not fun hu => absurd hu.2 hp
    · rw [List.filter_cons_of_neg hq] at h
      exact (ih h).cons_of_not fun hu => absurd hu.1 hq

variable {z : Zone} {wall : Int}

/-- The entry takes the clocks from at most the time to past it. -/
def Skips (z : Zone) (wall : Int) (t : Transition) : Prop :=
  t.time * nanosPerSecond + (z.periodAt (t.time - 1)).offset.nanos ≤ wall ∧
    wall < t.time * nanosPerSecond + t.period.offset.nanos

/-- The first entry that skips the time is in effect when it begins: no entry listed after it for the same second
has another period. -/
def FirstSkipHolds (z : Zone) (wall : Int) : Prop :=
  ∀ t, IsFirst z.transitions (z.Skips wall) t → z.InEffect t.time t.period

/-- The first entry that begins after an instant sets the clocks back. -/
def SetsBackAfter (z : Zone) (i : Int) : Prop :=
  ∀ t, IsFirst z.transitions (fun u => i < u.time * nanosPerSecond) t →
    t.period.offset < (z.periodAt (i / nanosPerSecond)).offset

/-- Where entries do not share a second, each of them is in effect when it begins. -/
theorem Distinct.inEffect (h : z.Distinct) {t : Transition} (ht : t ∈ z.transitions) :
    z.InEffect t.time t.period := by
  obtain ⟨i, hi⟩ := List.mem_iff_getElem?.mp ht
  refine Or.inr ⟨i, t, ⟨hi, Int.le_refl _, ?_⟩, rfl⟩
  intro j u hu hus
  rcases Int.lt_or_eq_of_le hus with hlt | he
  · exact Or.inl hlt
  · exact Or.inr ⟨he, Nat.le_of_eq (h.getElem_inj hu hi he)⟩

theorem distinct_of_ascending (h : ascending z.transitions = true) : z.Distinct :=
  List.pairwise_map.mpr ((pairwise_of_ascending h).imp Int.ne_of_lt)

/-- No offset takes an entry that skips the time out of the window. -/
theorem Skips.window {t : Transition} (h : z.Skips wall t) :
    Lookup.windowStart wall < t.time ∧ t.time ≤ Lookup.windowEnd wall := by
  obtain ⟨hbefore, hafter⟩ := h
  have h0 := (z.periodAt (t.time - 1)).offset.neg_day_lt
  have h1 := t.period.offset.lt_day
  simp only [Offset.nanos, Lookup.windowStart, Lookup.windowEnd, nanosPerSecond, nanosPerDay, secondsPerDay] at *
  omega

/-- Up to the first entry after an instant the period stays that of the instant. -/
theorem periodAt_before_first {i : Int} {t : Transition}
    (h : IsFirst z.transitions (fun u => i < u.time * nanosPerSecond) t) :
    z.periodAt (t.time - 1) = z.periodAt (i / nanosPerSecond) := by
  have ht := h.holds
  refine periodAt_of_quiet ?_ ?_
  · simp only [nanosPerSecond] at *
    omega
  · rintro u hu hb
    have := h.time_le hu (by simp only [nanosPerSecond] at *; omega)
    omega

/-- Where a function ends lower than it started it has gone down in one step. -/
theorem exists_drop {f : Int → Int} {lo hi : Int} (h : lo ≤ hi) (hlt : f hi < f lo) :
    ∃ s, lo < s ∧ s ≤ hi ∧ f s < f (s - 1) := by
  induction hi, h using Int.leInduction with
  | base => omega
  | succ hi hle ih =>
    by_cases hw : f hi < f lo
    · obtain ⟨s, hs, hsh, hdrop⟩ := ih hw
      exact ⟨s, hs, by omega, hdrop⟩
    · refine ⟨hi + 1, by omega, Int.le_refl _, ?_⟩
      rw [Int.add_sub_cancel]
      omega

end Zone

namespace Lookup
open Zone

variable {z : Zone} {wall : Int}

/-- What a search among the changes near a time finds is the first entry that fits. -/
theorem isFirst_of_find?_nearby {p : Change → Bool} {c : Change}
    (h : ((direct z).nearby wall).find? p = some c) : ∃ t, c = ZoneIndex.changeOf z t ∧
      IsFirst z.transitions (fun u => (windowStart wall < u.time ∧ u.time ≤ windowEnd wall) ∧
        p (ZoneIndex.changeOf z u) = true) t := by
  have h : (((z.transitions.filter fun u => decide (windowStart wall < u.time ∧ u.time ≤ windowEnd wall)).mergeSort
      fun a b => decide (a.time ≤ b.time)).map (ZoneIndex.changeOf z)).find? p = some c := h
  rw [List.find?_map] at h
  obtain ⟨t, ht, rfl⟩ := Option.map_eq_some_iff.mp h
  exact ⟨t, rfl, (isFirst_of_find? ht).congr fun u => by rw [decide_eq_true_eq]; rfl⟩

theorem gapChange?_eq_some {c : Change} (h : (direct z).gapChange? wall = some c) :
    ∃ t, c = ZoneIndex.changeOf z t ∧ IsFirst z.transitions (z.Skips wall) t := by
  obtain ⟨t, rfl, ht⟩ := isFirst_of_find?_nearby h
  refine ⟨t, rfl, ht.congr fun u => ?_⟩
  rw [decide_eq_true_eq]
  exact and_iff_right_of_imp Skips.window

theorem foldChange?_eq_some {i j : Int} {c : Change} (hi : i ∈ z.readings wall) (hj : j ∈ z.readings wall)
    (h : (direct z).foldChange? wall i j = some c) : ∃ t, c = ZoneIndex.changeOf z t ∧
      t.time * nanosPerSecond ≤ j ∧ IsFirst z.transitions (fun u => i < u.time * nanosPerSecond) t := by
  obtain ⟨t, rfl, ht⟩ := isFirst_of_find?_nearby h
  have hwi := (window_of_mem hi).1
  have hwj := (window_of_mem hj).2
  have hbetween (u : Transition) : ((windowStart wall < u.time ∧ u.time ≤ windowEnd wall) ∧
      decide (i < (ZoneIndex.changeOf z u).time * nanosPerSecond ∧
        (ZoneIndex.changeOf z u).time * nanosPerSecond ≤ j) = true) ↔
      i < u.time * nanosPerSecond ∧ u.time * nanosPerSecond ≤ j := by
    rw [decide_eq_true_eq]
    refine and_iff_right_of_imp fun hu => ?_
    simp only [ZoneIndex.changeOf, nanosPerSecond] at *
    omega
  obtain ⟨before, after, he, ⟨hit, htj⟩, hbefore, hafter⟩ := ht.congr hbetween
  -- What begins after the last instant begins later than the entry too.
  refine ⟨t, rfl, htj, before, after, he, hit, fun u hu hiu => ?_, fun u hu hiu => ?_⟩
  · by_cases huj : u.time * nanosPerSecond ≤ j
    · exact hbefore u hu ⟨hiu, huj⟩
    · simp only [nanosPerSecond] at *
      omega
  · by_cases huj : u.time * nanosPerSecond ≤ j
    · exact hafter u hu ⟨hiu, huj⟩
    · simp only [nanosPerSecond] at *
      omega

theorem gapChange?_of_resolve? {p q : Period} {t : Int} (h : (direct z).resolve? wall = some (.gap p q t)) :
    ∃ c, (direct z).gapChange? wall = some c ∧ c.before = p ∧ c.after = q ∧ c.time = t := by
  unfold resolve? at h
  split at h
  · obtain ⟨c, hc, hgap⟩ := Option.map_eq_some_iff.mp h
    cases hgap
    exact ⟨c, hc, rfl, rfl, rfl⟩
  · cases h
  · obtain ⟨c, -, hfold⟩ := Option.map_eq_some_iff.mp h
    cases hfold

theorem foldChange?_of_resolve? {p q : Period} {t : Int} (h : (direct z).resolve? wall = some (.fold p q t)) :
    ∃ i j c, IsLeast (z.readings wall) i ∧ IsGreatest (z.readings wall) j ∧
      (direct z).foldChange? wall i j = some c ∧ c.time = t := by
  unfold resolve? at h
  split at h
  · obtain ⟨c, -, hgap⟩ := Option.map_eq_some_iff.mp h
    cases hgap
  · cases h
  · rename_i first second rest hocc
    obtain ⟨c, hc, hfold⟩ := Option.map_eq_some_iff.mp h
    cases hfold
    exact ⟨_, _, c, isLeast_first hocc, isGreatest_last hocc (List.cons_ne_nil _ _), hc, rfl⟩

end Lookup

namespace Resolver
open Zone

section
variable {r : Resolver} {id : String} {z : Zone} {wall : LocalDateTime} {p q : Period} {t : Int}

theorem resolve_direct (h : r.zones.find? id = some z) (answer : Resolution) :
    r.resolve id wall = .ok answer ↔ (Lookup.direct z).resolve? wall.epochNanos = some answer := by
  rw [resolve_eq_ok h, (Lookup.agrees_ofZone z).resolve?_eq]

theorem shows_of_resolve (h : r.zones.find? id = some z) {answer : Resolution}
    (hanswer : r.resolve id wall = .ok answer) : z.Shows wall.epochNanos answer := by
  obtain ⟨found, hfound, hshows⟩ := exists_resolve_shows h wall
  rw [hanswer] at hfound
  cases hfound
  exact hshows

/-- A gap is named after the first entry that skips the time. -/
theorem exists_first_of_gap (h : r.zones.find? id = some z) (hgap : r.resolve id wall = .ok (.gap p q t)) :
    ∃ e, IsFirst z.transitions (z.Skips wall.epochNanos) e ∧ p = z.periodAt (t - 1) ∧ q = e.period ∧ t = e.time := by
  obtain ⟨c, hc, rfl, rfl, rfl⟩ := Lookup.gapChange?_of_resolve? ((resolve_direct h _).mp hgap)
  obtain ⟨e, rfl, he⟩ := Lookup.gapChange?_eq_some hc
  exact ⟨e, he, rfl, rfl, rfl⟩

/-- A fold is named after the first entry that begins after the first instant that shows the time. -/
theorem exists_first_of_fold (h : r.zones.find? id = some z) (hfold : r.resolve id wall = .ok (.fold p q t)) :
    ∃ i j e, IsLeast (z.readings wall.epochNanos) i ∧ IsGreatest (z.readings wall.epochNanos) j ∧
      IsFirst z.transitions (fun u => i < u.time * nanosPerSecond) e ∧ t = e.time ∧ t * nanosPerSecond ≤ j := by
  obtain ⟨i, j, c, hi, hj, hc, rfl⟩ := Lookup.foldChange?_of_resolve? ((resolve_direct h _).mp hfold)
  obtain ⟨e, rfl, hej, he⟩ := Lookup.foldChange?_eq_some hi.1 hj.1 hc
  exact ⟨i, j, e, hi, hj, he, rfl, hej⟩

end

/-- The periods of a gap enclose the time, and the earlier one is in effect just before the change. The later one is in
effect from the change on exactly if the first entry that skips the time holds, as any entry does that shares its second
with no other. -/
theorem gap_names_effective_change_iff (r : Resolver) (id : String) (z : Zone) (wall : LocalDateTime)
    (p q : Period) (t : Int) (h : r.zones.find? id = some z) (hgap : r.resolve id wall = .ok (.gap p q t)) :
    z.InEffect (t - 1) p ∧
    (t * nanosPerSecond + p.offset.nanos ≤ wall.epochNanos ∧ wall.epochNanos < t * nanosPerSecond + q.offset.nanos) ∧
    (z.InEffect t q ↔ z.FirstSkipHolds wall.epochNanos) ∧ (z.Distinct → z.InEffect t q) ∧
    ∀ i : Instant, i.unixSeconds = t → (r.periodAt id i = .ok q ↔ z.InEffect t q) := by
  obtain ⟨-, hbounds⟩ := shows_of_resolve h hgap
  obtain ⟨e, he, rfl, rfl, rfl⟩ := exists_first_of_gap h hgap
  refine ⟨inEffect_periodAt z _, hbounds, ?_, fun hz => hz.inEffect he.mem, ?_⟩
  · constructor
    · intro heffect e' he'
      rwa [he'.unique he]
    · intro hholds
      exact hholds e he
  · rintro i hi
    rw [periodAt_eq_ok h, hi, Except.ok.injEq, inEffect_iff]

/-- 02:30 in the night in which clocks are set forward from two to three. -/
theorem gap_names_effective_change_of_spring :
    let p : Period := ⟨⟨3600, by decide, by decide⟩, "CET", .bool false⟩
    let q : Period := ⟨⟨7200, by decide, by decide⟩, "CEST", .bool true⟩
    let z : Zone := ⟨p, [⟨1679792400, q⟩]⟩
    let r : Resolver := .ofZones ⟨[(.text "Europe/Berlin", z)], List.pairwise_singleton _ _⟩
    let wall : LocalDateTime := ⟨⟨2460030, by decide, by decide⟩, ⟨9000000000000, by decide, by decide⟩⟩
    r.zones.find? "Europe/Berlin" = some z ∧ r.resolve "Europe/Berlin" wall = .ok (.gap p q 1679792400) ∧
      z.InEffect (1679792400 - 1) p ∧ z.InEffect 1679792400 q := by
  intro p q z r wall
  have hz : r.zones.find? "Europe/Berlin" = some z := rfl
  have hgap : r.resolve "Europe/Berlin" wall = .ok (.gap p q 1679792400) := by cbv
  have hdistinct : z.Distinct := List.nodup_singleton _
  have hspec := gap_names_effective_change_iff r "Europe/Berlin" z wall p q _ hz hgap
  exact ⟨hz, hgap, hspec.1, hspec.2.2.2.1 hdistinct⟩

/-- Of two entries for one second the first is replaced at once, but a gap is named after it. -/
theorem gap_names_replaced_entry :
    let p : Period := ⟨.utc, "", .bool false⟩
    let q : Period := ⟨⟨7200, by decide, by decide⟩, "", .bool false⟩
    let q' : Period := ⟨⟨3600, by decide, by decide⟩, "", .bool false⟩
    let z : Zone := ⟨p, [⟨0, q⟩, ⟨0, q'⟩]⟩
    let r : Resolver := .ofZones ⟨[(.text "Z", z)], List.pairwise_singleton _ _⟩
    let wall : LocalDateTime := ⟨⟨2440588, by decide, by decide⟩, ⟨1800000000000, by decide, by decide⟩⟩
    r.zones.find? "Z" = some z ∧ r.resolve "Z" wall = .ok (.gap p q 0) ∧ z.InEffect 0 q' ∧ ¬z.InEffect 0 q := by
  intro p q q' z r wall
  have hgap : r.resolve "Z" wall = .ok (.gap p q 0) := by cbv
  have hlast : z.InEffect 0 q' := inEffect_iff.mpr rfl
  have hne : q.offset ≠ q'.offset := by decide
  exact ⟨rfl, hgap, hlast, fun hq => hne (congrArg Period.offset (hq.unique hlast))⟩

/-- In a table in ascending order, the two instants of a fold lie around the change after which it is named, and as far
apart as the offsets of their periods, the earlier one being larger. Some change between them sets the clocks back,
but the named one does so exactly if the first entry after the earlier instant does. -/
theorem fold_names_set_back_iff (r : Resolver) (id : String) (z : Zone) (wall : LocalDateTime) (p q : Period) (t : Int)
    (h : r.zones.find? id = some z) (hascending : ascending z.transitions = true)
    (hfold : r.resolve id wall = .ok (.fold p q t)) :
    ∃ i j, IsLeast (z.readings wall.epochNanos) i ∧ IsGreatest (z.readings wall.epochNanos) j ∧
      (z.InEffect (i / nanosPerSecond) p ∧ z.InEffect (j / nanosPerSecond) q) ∧
      (i < t * nanosPerSecond ∧ t * nanosPerSecond ≤ j) ∧
      q.offset < p.offset ∧ j - i = (p.offset.seconds - q.offset.seconds) * nanosPerSecond ∧
      (∃ s, t ≤ s ∧ s * nanosPerSecond ≤ j ∧ (z.periodAt s).offset < (z.periodAt (s - 1)).offset) ∧
      ((z.periodAt t).offset < (z.periodAt (t - 1)).offset ↔ z.SetsBackAfter i) := by
  obtain ⟨i, j, hi, hj, hp, hq, hit, htj⟩ := shows_of_resolve h hfold
  obtain ⟨i', j', e, hi', hj', he, rfl, -⟩ := exists_first_of_fold h hfold
  obtain rfl := hi.unique hi'
  have hdistance : j - i = (p.offset.seconds - q.offset.seconds) * nanosPerSecond := by
    have hri := mem_readings.mp hi.1
    have hrj := mem_readings.mp hj.1
    rw [inEffect_iff.mp hp] at hri
    rw [inEffect_iff.mp hq] at hrj
    simp only [Offset.nanos, nanosPerSecond] at *
    omega
  have hoffset : q.offset.seconds < p.offset.seconds := by
    simp only [nanosPerSecond] at *
    omega
  have hbefore := periodAt_before_first he
  have heffect := inEffect_iff.mp ((distinct_of_ascending hascending).inEffect he.mem)
  refine ⟨i, j, hi, hj, ⟨hp, hq⟩, ⟨hit, htj⟩, hoffset, hdistance, ?_, ?_⟩
  · obtain ⟨s, hs, hsj, hdrop⟩ := exists_drop (f := fun s => (z.periodAt s).offset.seconds)
      (show e.time - 1 ≤ j / nanosPerSecond by simp only [nanosPerSecond] at *; omega)
      (by rwa [hbefore, inEffect_iff.mp hp, inEffect_iff.mp hq])
    refine ⟨s, by omega, ?_, hdrop⟩
    simp only [nanosPerSecond] at *
    omega
  · rw [hbefore, heffect]
    constructor
    · intro hback e' he'
      rwa [he'.unique he]
    · intro hback
      exact hback e he

/-- Half an hour before and half an hour after clocks are set back by an hour. -/
theorem fold_names_set_back_of_autumn :
    let p : Period := ⟨⟨7200, by decide, by decide⟩, "CEST", .bool true⟩
    let q : Period := ⟨⟨3600, by decide, by decide⟩, "CET", .bool false⟩
    let z : Zone := ⟨p, [⟨1698541200, q⟩]⟩
    let r : Resolver := .ofZones ⟨[(.text "Europe/Berlin", z)], List.pairwise_singleton _ _⟩
    let wall : LocalDateTime := ⟨⟨2460247, by decide, by decide⟩, ⟨9000000000000, by decide, by decide⟩⟩
    r.zones.find? "Europe/Berlin" = some z ∧ ascending z.transitions = true ∧
      r.resolve "Europe/Berlin" wall = .ok (.fold p q 1698541200) ∧
      ∃ i j, IsLeast (z.readings wall.epochNanos) i ∧ IsGreatest (z.readings wall.epochNanos) j ∧
        j - i = 3600 * nanosPerSecond := by
  intro p q z r wall
  have hz : r.zones.find? "Europe/Berlin" = some z := rfl
  have hfold : r.resolve "Europe/Berlin" wall = .ok (.fold p q 1698541200) := by cbv
  obtain ⟨i, j, hi, hj, -, -, -, hdistance, -⟩ :=
    fold_names_set_back_iff r "Europe/Berlin" z wall p q _ hz rfl hfold
  exact ⟨hz, rfl, hfold, i, j, hi, hj, hdistance⟩

/-- Half an hour before the clocks are set back only the abbreviation changes, and a fold is named after that. -/
theorem fold_names_renaming :
    let p : Period := ⟨⟨7200, by decide, by decide⟩, "A", .bool false⟩
    let p' : Period := ⟨⟨7200, by decide, by decide⟩, "B", .bool false⟩
    let q : Period := ⟨⟨3600, by decide, by decide⟩, "C", .bool false⟩
    let z : Zone := ⟨p, [⟨10000, p'⟩, ⟨11800, q⟩]⟩
    let r : Resolver := .ofZones ⟨[(.text "Z", z)], List.pairwise_singleton _ _⟩
    let wall : LocalDateTime := ⟨⟨2440588, by decide, by decide⟩, ⟨16200000000000, by decide, by decide⟩⟩
    r.zones.find? "Z" = some z ∧ ascending z.transitions = true ∧ r.resolve "Z" wall = .ok (.fold p q 10000) ∧
      (z.periodAt 10000).offset = (z.periodAt (10000 - 1)).offset := by
  intro p p' q z r wall
  have hfold : r.resolve "Z" wall = .ok (.fold p q 10000) := by cbv
  exact ⟨rfl, rfl, hfold, rfl⟩

end Resolver
end CivilTime
