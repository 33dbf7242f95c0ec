/- Where no two transitions begin together, neither the order of a table nor what a resolver remembers has an
influence on its answers. -/
import CivilTime.Proofs.Outcome
import CivilTime.Proofs.Zone.Index
import CivilTime.ZonedDateTime.Operations
import Mathlib.Data.List.Nodup

namespace CivilTime

namespace Lookup

/-- Two tables that cannot be told apart by asking. -/
structure Agrees (x y : Lookup) : Prop where
  periodAt_eq : x.periodAt = y.periodAt
  changesBetween_eq : x.changesBetween = y.changesBetween

theorem Agrees.symm {x y : Lookup} (h : x.Agrees y) : y.Agrees x :=
  ⟨h.periodAt_eq.symm, h.changesBetween_eq.symm⟩

theorem Agrees.trans {x y w : Lookup} (h : x.Agrees y) (h' : y.Agrees w) : x.Agrees w :=
  ⟨h.periodAt_eq.trans h'.periodAt_eq, h.changesBetween_eq.trans h'.changesBetween_eq⟩

/-- Two tables that cannot be told apart by asking about the window around a time. -/
structure AgreesNear (x y : Lookup) (wall : Int) : Prop where
  periodAt_eq : ∀ s, windowStart wall ≤ s → s ≤ windowEnd wall → x.periodAt s = y.periodAt s
  nearby_eq : x.nearby wall = y.nearby wall

theorem windowStart_eq (wall : Int) : windowStart wall = wall / nanosPerSecond - secondsPerDay := by
  simp only [windowStart, nanosPerDay, nanosPerSecond, secondsPerDay]
  omega

theorem windowEnd_eq (wall : Int) : windowEnd wall = wall / nanosPerSecond + secondsPerDay := by
  simp only [windowEnd, nanosPerDay, nanosPerSecond, secondsPerDay]
  omega

theorem windowStart_le_windowEnd (wall : Int) : windowStart wall ≤ windowEnd wall := by
  rw [windowStart_eq, windowEnd_eq]
  simp only [secondsPerDay]
  omega

/-- No offset takes a reading out of the window. -/
theorem window_of_reading {i wall : Int} {o : Offset} (h : i + o.nanos = wall) :
    windowStart wall ≤ i / nanosPerSecond ∧ i / nanosPerSecond ≤ windowEnd wall := by
  have h0 := o.neg_day_lt
  have h1 := o.lt_day
  simp only [Offset.nanos, windowStart, windowEnd, nanosPerSecond, nanosPerDay, secondsPerDay] at *
  omega

/-- An answer about a time does not ask about anything outside the window. -/
theorem AgreesNear.resolve?_eq {x y : Lookup} {wall : Int} (h : x.AgreesNear y wall) :
    x.resolve? wall = y.resolve? wall := by
  have hoccurrence : x.occurrenceAt? wall = y.occurrenceAt? wall := by
    funext o
    have hw := window_of_reading (Int.sub_add_cancel wall o.nanos)
    rw [occurrenceAt?, occurrenceAt?, h.periodAt_eq _ hw.1 hw.2]
  have hoccurrences : x.occurrences wall = y.occurrences wall := by
    rw [occurrences, occurrences, offsetsNear, offsetsNear, hoccurrence, h.nearby_eq,
      h.periodAt_eq _ (Int.le_refl _) (windowStart_le_windowEnd wall)]
  have hfold : x.foldChange? wall = y.foldChange? wall := by
    funext first last
    rw [foldChange?, foldChange?, h.nearby_eq]
  unfold resolve?
  rw [hoccurrences, hfold, gapChange?, gapChange?, h.nearby_eq]

theorem Agrees.near {x y : Lookup} (h : x.Agrees y) (wall : Int) : x.AgreesNear y wall :=
  ⟨fun s _ _ => congrFun h.periodAt_eq s, by rw [nearby, nearby, h.changesBetween_eq]⟩

theorem Agrees.resolve?_eq {x y : Lookup} (h : x.Agrees y) (wall : Int) : x.resolve? wall = y.resolve? wall :=
  (h.near wall).resolve?_eq

/-- Whether a table is bisected or not, the answers are those of its entries. -/
theorem agrees_ofZone (z : Zone) : (ofZone z).Agrees (direct z) := by
  unfold ofZone
  cases hx : ZoneIndex.ofZone? z with
  | none => exact ⟨rfl, rfl⟩
  | some x =>
    obtain ⟨h, rfl⟩ := ZoneIndex.ofZone?_eq_some.mp hx
    constructor
    · funext s
      exact ZoneIndex.periodAt_ofAscending h s
    · funext lo hi
      exact ZoneIndex.changesBetween_ofAscending h lo hi

end Lookup

namespace Zone

/-- The same table with its transitions by ascending time. -/
def ascended (z : Zone) : Zone :=
  { z with transitions := z.transitions.mergeSort fun a b => decide (a.time ≤ b.time) }

theorem ascended_perm (z : Zone) : z.ascended.transitions.Perm z.transitions := List.mergeSort_perm _ _

theorem time_le_trans (a b c : Transition) (hab : decide (a.time ≤ b.time) = true)
    (hbc : decide (b.time ≤ c.time) = true) : decide (a.time ≤ c.time) = true :=
  decide_eq_true (Int.le_trans (of_decide_eq_true hab) (of_decide_eq_true hbc))

theorem time_le_total (a b : Transition) : (decide (a.time ≤ b.time) || decide (b.time ≤ a.time)) = true := by
  rw [Bool.or_eq_true, decide_eq_true_eq, decide_eq_true_eq]
  exact Int.le_total _ _

theorem pairwise_mergeSort_time (l : List Transition) :
    (l.mergeSort fun a b => decide (a.time ≤ b.time)).Pairwise fun a b => a.time ≤ b.time := by
  have h : (l.mergeSort fun a b => decide (a.time ≤ b.time)).Pairwise fun a b =>
      decide (a.time ≤ b.time) = true :=
    List.pairwise_mergeSort time_le_trans time_le_total l
  exact h.imp of_decide_eq_true

section
variable {z z' : Zone}

/-- No two transitions begin together. -/
def Distinct (z : Zone) : Prop := (z.transitions.map Transition.time).Nodup

theorem Distinct.of_perm (h : z.Distinct) (hp : z'.transitions.Perm z.transitions) : z'.Distinct :=
  (hp.map Transition.time).nodup_iff.mpr h

theorem Distinct.getElem_inj (h : z.Distinct) {i j : Nat} {t u : Transition} (ht : z.transitions[i]? = some t)
    (hu : z.transitions[j]? = some u) (he : t.time = u.time) : i = j := by
  obtain ⟨hi, rfl⟩ := List.getElem?_eq_some_iff.mp ht
  obtain ⟨hj, rfl⟩ := List.getElem?_eq_some_iff.mp hu
  have hi' : i < (z.transitions.map Transition.time).length := by rwa [List.length_map]
  have hj' : j < (z.transitions.map Transition.time).length := by rwa [List.length_map]
  have he' : (z.transitions.map Transition.time)[i] = (z.transitions.map Transition.time)[j] := by
    rw [List.getElem_map, List.getElem_map]
    exact he
  exact (List.Nodup.getElem_inj_iff h).mp he'

theorem Distinct.eq_of_time_eq (h : z.Distinct) {t u : Transition} (ht : t ∈ z.transitions)
    (hu : u ∈ z.transitions) (he : t.time = u.time) : t = u := by
  obtain ⟨i, hi⟩ := List.mem_iff_getElem?.mp ht
  obtain ⟨j, hj⟩ := List.mem_iff_getElem?.mp hu
  have hij := h.getElem_inj hi hj he
  subst hij
  rw [hi] at hj
  exact Option.some.inj hj

theorem Distinct.ascending_ascended (h : z.Distinct) : ascending z.ascended.transitions = true := by
  refine ascending_of_pairwise ?_
  have hd : (z.ascended.transitions.map Transition.time).Nodup := h.of_perm z.ascended_perm
  have hne : z.ascended.transitions.Pairwise fun a b => a.time ≠ b.time := List.pairwise_map.mp hd
  have hle : z.ascended.transitions.Pairwise fun a b => a.time ≤ b.time := pairwise_mergeSort_time _
  exact hle.imp₂ (fun a b hab hn => Int.lt_iff_le_and_ne.mpr ⟨hab, hn⟩) hne

/-- The latest transition is found wherever it is listed. -/
theorem InEffect.of_perm {s : Int} {p : Period} (h : z.InEffect s p) (hz : z.Distinct)
    (hi : z'.initial = z.initial) (hp : z'.transitions.Perm z.transitions) : z'.InEffect s p := by
  rcases h with ⟨hnone, rfl⟩ | ⟨i, t, ht, rfl⟩
  · exact Or.inl ⟨fun t ht => hnone t (hp.mem_iff.mp ht), hi.symm⟩
  · obtain ⟨j, hj⟩ := List.mem_iff_getElem?.mp (hp.mem_iff.mpr ht.mem)
    refine Or.inr ⟨j, t, ⟨hj, ht.2.1, ?_⟩, rfl⟩
    intro k u hk hus
    obtain ⟨k', hk'⟩ := List.mem_iff_getElem?.mp (hp.mem_iff.mp (List.mem_of_getElem? hk))
    rcases ht.2.2 k' u hk' hus with hlt | ⟨he, -⟩
    · exact Or.inl hlt
    · exact Or.inr ⟨he, Nat.le_of_eq ((hz.of_perm hp).getElem_inj hk hj he)⟩

theorem agrees_of_perm (hz : z.Distinct) (hi : z'.initial = z.initial)
    (hp : z'.transitions.Perm z.transitions) : (Lookup.direct z').Agrees (.direct z) := by
  have hperiod (s : Int) : z'.periodAt s = z.periodAt s :=
    inEffect_iff.mp ((inEffect_periodAt z s).of_perm hz hi hp)
  refine ⟨funext hperiod, ?_⟩
  funext lo hi
  show z'.changesBetween lo hi = z.changesBetween lo hi
  simp only [changesBetween, hperiod]
  congr 1
  refine List.Perm.eq_of_pairwise ?_ (pairwise_mergeSort_time _) (pairwise_mergeSort_time _) ?_
  · intro a b ha hb hab hba
    have ha := List.mem_of_mem_filter ((List.mergeSort_perm _ _).mem_iff.mp ha)
    have hb := List.mem_of_mem_filter ((List.mergeSort_perm _ _).mem_iff.mp hb)
    exact hz.eq_of_time_eq (hp.mem_iff.mp ha) hb (Int.le_antisymm hab hba)
  · exact (List.mergeSort_perm _ _).trans ((hp.filter _).trans (List.mergeSort_perm _ _).symm)

end
end Zone

namespace Resolver

theorem remember_zones (r : Resolver) (id : String) : (r.remember id).zones = r.zones := by
  unfold remember
  split
  · rfl
  · split <;> rfl

theorem remembered_zones (r : Resolver) (asked : List String) : (asked.foldl remember r).zones = r.zones := by
  induction asked generalizing r with
  | nil => rfl
  | cons id asked ih =>
    rw [List.foldl_cons, ih, remember_zones]

theorem lookup_eq_ok {r : Resolver} {id : String} {z : Zone} (h : r.zones.find? id = some z) :
    r.lookup id = .ok (Lookup.ofZone z) := by
  rw [lookup_eq, zone, h]
  rfl

theorem periodAt_eq_ok {r : Resolver} {id : String} {z : Zone} (h : r.zones.find? id = some z) (i : Instant) :
    r.periodAt id i = .ok (z.periodAt i.unixSeconds) := by
  have hperiod : (Lookup.ofZone z).periodAt = z.periodAt := (Lookup.agrees_ofZone z).periodAt_eq
  rw [periodAt, lookup_eq_ok h, ← hperiod]
  rfl

variable {r s : Resolver} {id : String} {x y : Lookup}

theorem periodAt_congr (hr : r.lookup id = .ok x) (hs : s.lookup id = .ok y) (h : x.Agrees y) (i : Instant) :
    r.periodAt id i = s.periodAt id i := by
  rw [periodAt, periodAt, hr, hs]
  simp only [bind, Except.bind, h.periodAt_eq]

theorem resolve_congr (hr : r.lookup id = .ok x) (hs : s.lookup id = .ok y) (h : x.Agrees y)
    (wall : LocalDateTime) : r.resolve id wall = s.resolve id wall := by
  rw [resolve, resolve, hr, hs]
  simp only [bind, Except.bind, h.resolve?_eq]

theorem instantNamed_congr (h : ∀ wall, r.resolve id wall = s.resolve id wall) (wall : LocalDateTime)
    (names : PolicyNames) : r.instantNamed (.text id) wall names = s.instantNamed (.text id) wall names := by
  have hinstant (fold : FoldPolicy) (gap : GapPolicy) :
      r.instantOf id wall fold gap = s.instantOf id wall fold gap := by
    rw [instantOf, instantOf, h]
  simp only [instantNamed, zoneName, bind, Except.bind, hinstant]

end Resolver

/-- Bisection gives the answers of the whole table. If no two transitions begin together, then a resolver that
holds the table in any order, and has been asked anything before, answers like one that holds it in ascending
order and has not been asked yet. -/
theorem answers_eq_of_rearranged :
    (∀ (z : Zone) (x : ZoneIndex), ZoneIndex.ofZone? z = some x →
      (∀ s, x.periodAt s = z.periodAt s) ∧ ∀ lo hi, x.changesBetween lo hi = z.changesBetween lo hi) ∧
    ∀ z : Zone, z.Distinct → Zone.ascending z.ascended.transitions = true ∧
      ∀ (z' : Zone) (id : String) (r : Resolver) (zones : ZoneSet) (asked : List String),
        z'.initial = z.initial → z'.transitions.Perm z.transitions →
        r.zones.find? id = some z' → zones.find? id = some z.ascended →
        (∀ i, (asked.foldl Resolver.remember r).periodAt id i = (Resolver.ofZones zones).periodAt id i) ∧
        (∀ wall, (asked.foldl Resolver.remember r).resolve id wall = (Resolver.ofZones zones).resolve id wall) ∧
        ∀ wall names, (asked.foldl Resolver.remember r).instantNamed (.text id) wall names =
          (Resolver.ofZones zones).instantNamed (.text id) wall names := by
  constructor
  · intro z x hx
    obtain ⟨h, rfl⟩ := ZoneIndex.ofZone?_eq_some.mp hx
    exact ⟨ZoneIndex.periodAt_ofAscending h, ZoneIndex.changesBetween_ofAscending h⟩
  · intro z hz
    refine ⟨hz.ascending_ascended, ?_⟩
    intro z' id r zones asked hi hp hr hs
    have hr : (asked.foldl Resolver.remember r).lookup id = .ok (.ofZone z') :=
      Resolver.lookup_eq_ok (by rw [Resolver.remembered_zones, hr])
    have hs : (Resolver.ofZones zones).lookup id = .ok (.ofZone z.ascended) := Resolver.lookup_eq_ok hs
    have hagree : (Lookup.ofZone z').Agrees (.ofZone z.ascended) :=
      (Lookup.agrees_ofZone z').trans
        ((Zone.agrees_of_perm (hz.of_perm z.ascended_perm) hi (hp.trans z.ascended_perm.symm)).trans
          (Lookup.agrees_ofZone z.ascended).symm)
    have hresolve := Resolver.resolve_congr hr hs hagree
    exact ⟨Resolver.periodAt_congr hr hs hagree, hresolve, Resolver.instantNamed_congr hresolve⟩

/-- A table that lists its transitions from the last to the first, asked at a second between the two, and about a
reading that is repeated when clocks are set back at the later one. -/
theorem answers_eq_of_descending :
    let p : Period := ⟨Offset.utc, "UTC", .bool false⟩
    let q : Period := ⟨⟨3600, by decide, by decide⟩, "UTC+1", .bool true⟩
    let z : Zone := ⟨p, [⟨100000, p⟩, ⟨0, q⟩]⟩
    let r : Resolver := .ofZones ⟨[(.text "Z", z)], List.pairwise_singleton _ _⟩
    let zones : ZoneSet := ⟨[(.text "Z", z.ascended)], List.pairwise_singleton _ _⟩
    let between : Instant := ⟨50000000000000, by decide, by decide⟩
    let repeated : LocalDateTime := ⟨⟨2440589, by decide, by decide⟩, ⟨14400000000000, by decide, by decide⟩⟩
    (z.Distinct ∧ r.zones.find? "Z" = some z ∧ zones.find? "Z" = some z.ascended) ∧
      (∃ x, ZoneIndex.ofZone? z.ascended = some x ∧ x.periodAt 50000 = q) ∧
      (["Z", "Y"].foldl Resolver.remember r).periodAt "Z" between = .ok q ∧
      (["Z", "Y"].foldl Resolver.remember r).resolve "Z" repeated = (Resolver.ofZones zones).resolve "Z" repeated := by
  intro p q z r zones between repeated
  have hz : z.Distinct := show ([100000, 0] : List Int).Nodup by decide
  have hr : r.zones.find? "Z" = some z := rfl
  have hzones : zones.find? "Z" = some z.ascended := rfl
  have hsorted : z.ascended = ⟨p, [⟨0, q⟩, ⟨100000, p⟩]⟩ := by
    simp [z, Zone.ascended, List.mergeSort, List.MergeSort.Internal.splitInTwo]
  have hperiod : z.ascended.periodAt 50000 = q := by
    rw [hsorted]
    rfl
  obtain ⟨hascending, hanswers⟩ := answers_eq_of_rearranged.2 z hz
  obtain ⟨hperiodAt, hresolve, -⟩ := hanswers z "Z" r zones ["Z", "Y"] rfl (List.Perm.refl _) hr hzones
  have hx : ZoneIndex.ofZone? z.ascended = some (.ofAscending z.ascended) :=
    ZoneIndex.ofZone?_eq_some.mpr ⟨hascending, rfl⟩
  refine ⟨⟨hz, hr, hzones⟩, ⟨_, hx, ?_⟩, ?_, hresolve repeated⟩
  · rw [(answers_eq_of_rearranged.1 _ _ hx).1 50000, hperiod]
  · rw [hperiodAt between, Resolver.periodAt_eq_ok hzones]
    exact congrArg Except.ok hperiod

end CivilTime
