/- The period in effect at a second, said without a way to look it up, and the changes between two seconds. -/
import CivilTime.Zone.Lookup
import Mathlib.Data.Int.LeastGreatest
import Mathlib.Data.List.Induction

namespace CivilTime.Zone

/-- Of the transitions that have begun by a second, this one began last. Of several that began together it
is the one listed last. -/
def IsLatest (transitions : List Transition) (seconds : Int) (i : Nat) (t : Transition) : Prop :=
  transitions[i]? = some t ∧ t.time ≤ seconds ∧
    ∀ j u, transitions[j]? = some u → u.time ≤ seconds → u.time < t.time ∨ (u.time = t.time ∧ j ≤ i)

/-- The period that holds in a zone at a second. -/
def InEffect (z : Zone) (seconds : Int) (p : Period) : Prop :=
  ((∀ t ∈ z.transitions, seconds < t.time) ∧ p = z.initial) ∨
    ∃ i t, IsLatest z.transitions seconds i t ∧ p = t.period

variable {l : List Transition} {s : Int}

theorem IsLatest.mem {i : Nat} {t : Transition} (h : IsLatest l s i t) : t ∈ l :=
  List.mem_of_getElem? h.1

theorem IsLatest.unique {i j : Nat} {t u : Transition} (h : IsLatest l s i t) (h' : IsLatest l s j u) : t = u := by
  obtain ⟨ht, hts, hlast⟩ := h
  obtain ⟨hu, hus, hlast'⟩ := h'
  have hij : i = j := by
    have := hlast j u hu hus
    have := hlast' i t ht hts
    omega
  subst hij
  rw [ht] at hu
  exact Option.some.inj hu

theorem InEffect.unique {z : Zone} {p q : Period} (h : z.InEffect s p) (h' : z.InEffect s q) : p = q := by
  rcases h with ⟨hnone, rfl⟩ | ⟨i, t, ht, rfl⟩ <;> rcases h' with ⟨hnone', rfl⟩ | ⟨j, u, hu, rfl⟩
  · rfl
  · exact absurd hu.2.1 (Int.not_le.mpr (hnone u hu.mem))
  · exact absurd ht.2.1 (Int.not_le.mpr (hnone' t ht.mem))
  · rw [ht.unique hu]

theorem latest?_append (l : List Transition) (t : Transition) (s : Int) :
    latest? (l ++ [t]) s =
      if t.time ≤ s ∧ (latest? l s).all (fun b => decide (b.time ≤ t.time)) then some t
      else latest? l s := by
  unfold latest?
  rw [List.foldl_append]
  rfl

theorem isLatest_append_self {t : Transition} (ht : t.time ≤ s)
    (h : ∀ u ∈ l, u.time ≤ s → u.time ≤ t.time) :
    IsLatest (l ++ [t]) s l.length t := by
  refine ⟨List.getElem?_concat_length, ht, ?_⟩
  intro j u hu hus
  by_cases hj : j < l.length
  · rw [List.getElem?_append_left hj] at hu
    have := h u (List.mem_of_getElem? hu) hus
    omega
  · rw [List.getElem?_append_right (Nat.not_lt.mp hj)] at hu
    obtain ⟨hlt, he⟩ := List.getElem?_eq_some_iff.mp hu
    rw [List.length_singleton] at hlt
    rw [List.getElem_singleton] at he
    exact Or.inr ⟨congrArg Transition.time he.symm, by omega⟩

theorem IsLatest.append {i : Nat} {t u : Transition} (h : IsLatest l s i u)
    (ht : t.time ≤ s → t.time < u.time) :
    IsLatest (l ++ [t]) s i u := by
  obtain ⟨hu, hus, hlast⟩ := h
  have hi := (List.getElem?_eq_some_iff.mp hu).1
  refine ⟨by rw [List.getElem?_append_left hi, hu], hus, ?_⟩
  intro j v hv hvs
  by_cases hj : j < l.length
  · rw [List.getElem?_append_left hj] at hv
    exact hlast j v hv hvs
  · rw [List.getElem?_append_right (Nat.not_lt.mp hj)] at hv
    rw [List.mem_singleton.mp (List.mem_of_getElem? hv)] at hvs ⊢
    exact Or.inl (ht hvs)

theorem latest?_spec (l : List Transition) (s : Int) :
    (latest? l s = none ∧ ∀ t ∈ l, s < t.time) ∨ ∃ i t, latest? l s = some t ∧ IsLatest l s i t := by
  induction l using List.reverseRecOn with
  | nil => exact Or.inl ⟨rfl, fun t ht => absurd ht List.not_mem_nil⟩
  | append_singleton l t ih =>
    rw [latest?_append]
    rcases ih with ⟨he, hnone⟩ | ⟨i, u, he, hu⟩
    · rw [he]
      by_cases ht : t.time ≤ s
      · refine Or.inr ⟨l.length, t, if_pos ⟨ht, rfl⟩, isLatest_append_self ht ?_⟩
        intro v hv hvs
        exact absurd (hnone v hv) (Int.not_lt.mpr hvs)
      · refine Or.inl ⟨if_neg fun h => ht h.1, ?_⟩
        intro v hv
        rcases List.mem_append.mp hv with hv | hv
        · exact hnone v hv
        · rw [List.mem_singleton.mp hv]
          exact Int.not_le.mp ht
    · rw [he]
      simp only [Option.all_some, decide_eq_true_eq]
      by_cases ht : t.time ≤ s ∧ u.time ≤ t.time
      · refine Or.inr ⟨l.length, t, if_pos ht, isLatest_append_self ht.1 ?_⟩
        intro v hv hvs
        obtain ⟨j, hj⟩ := List.mem_iff_getElem?.mp hv
        have := hu.2.2 j v hj hvs
        omega
      · exact Or.inr ⟨i, u, if_neg ht, hu.append fun hts => by omega⟩

theorem inEffect_periodAt (z : Zone) (s : Int) : z.InEffect s (z.periodAt s) := by
  unfold periodAt
  rcases latest?_spec z.transitions s with ⟨he, hnone⟩ | ⟨i, t, he, ht⟩
  · rw [he]
    exact Or.inl ⟨hnone, rfl⟩
  · rw [he]
    exact Or.inr ⟨i, t, ht, rfl⟩

theorem inEffect_iff {z : Zone} {p : Period} : z.InEffect s p ↔ z.periodAt s = p := by
  constructor
  · intro h
    exact (inEffect_periodAt z s).unique h
  · rintro rfl
    exact inEffect_periodAt z s

theorem mem_changesBetween {z : Zone} {lo hi : Int} {c : Change} :
    c ∈ z.changesBetween lo hi ↔ ∃ t ∈ z.transitions, (lo < t.time ∧ t.time ≤ hi) ∧
      c = { time := t.time, before := z.periodAt (t.time - 1), after := t.period } := by
  simp only [changesBetween, List.mem_map, List.mem_mergeSort, List.mem_filter, decide_eq_true_eq]
  constructor
  · rintro ⟨t, ⟨ht, hb⟩, rfl⟩
    exact ⟨t, ht, hb, rfl⟩
  · rintro ⟨t, ht, hb, rfl⟩
    exact ⟨t, ⟨ht, hb⟩, rfl⟩

theorem changesBetween_mono {z : Zone} {lo hi lo' hi' : Int} (hlo : lo' ≤ lo) (hhi : hi ≤ hi') {c : Change}
    (h : c ∈ z.changesBetween lo hi) : c ∈ z.changesBetween lo' hi' := by
  obtain ⟨t, ht, hb, rfl⟩ := mem_changesBetween.mp h
  exact mem_changesBetween.mpr ⟨t, ht, ⟨by omega, by omega⟩, rfl⟩

theorem periodAt_step (z : Zone) (s : Int) :
    z.periodAt s = z.periodAt (s - 1) ∨ ∃ t ∈ z.transitions, t.time = s ∧ z.periodAt s = t.period := by
  rcases inEffect_periodAt z s with ⟨hnone, hp⟩ | ⟨i, t, ht, hp⟩
  · refine Or.inl (inEffect_iff.mp (Or.inl ⟨?_, hp⟩)).symm
    intro t hmem
    have := hnone t hmem
    omega
  · by_cases hts : t.time = s
    · exact Or.inr ⟨t, ht.mem, hts, hp⟩
    · refine Or.inl (inEffect_iff.mp (Or.inr ⟨i, t, ⟨ht.1, ?_, ?_⟩, hp⟩)).symm
      · have := ht.2.1
        omega
      · intro j u hu hus
        exact ht.2.2 j u hu (by omega)

theorem exists_change {z : Zone} {lo hi : Int} (hlo : lo < s) (hhi : s ≤ hi)
    (h : z.periodAt s ≠ z.periodAt (s - 1)) :
    ∃ c ∈ z.changesBetween lo hi, c.time = s ∧ c.before = z.periodAt (s - 1) ∧ c.after = z.periodAt s := by
  obtain ⟨t, ht, rfl, hp⟩ := (periodAt_step z s).resolve_left h
  exact ⟨_, mem_changesBetween.mpr ⟨t, ht, ⟨hlo, hhi⟩, rfl⟩, rfl, rfl, hp.symm⟩

/-- From one second to a later one, the period is the first one or one that a change has brought. -/
theorem periodAt_window (z : Zone) {lo s : Int} (h : lo ≤ s) :
    z.periodAt s = z.periodAt lo ∨ ∃ c ∈ z.changesBetween lo s, c.after = z.periodAt s := by
  induction s, h using Int.leInduction with
  | base => exact Or.inl rfl
  | succ s hs ih =>
    by_cases he : z.periodAt (s + 1) = z.periodAt (s + 1 - 1)
    · rw [Int.add_sub_cancel] at he
      rw [he]
      rcases ih with ih | ⟨c, hc, hp⟩
      · exact Or.inl ih
      · exact Or.inr ⟨c, changesBetween_mono (Int.le_refl lo) (by omega) hc, hp⟩
    · obtain ⟨c, hc, -, -, hp⟩ := exists_change (show lo < s + 1 by omega) (Int.le_refl _) he
      exact Or.inr ⟨c, hc, hp⟩

/-- As long as no transition begins, the period stays. -/
theorem periodAt_of_quiet {z : Zone} {lo s : Int} (h : lo ≤ s)
    (hquiet : ∀ t ∈ z.transitions, ¬(lo < t.time ∧ t.time ≤ s)) : z.periodAt s = z.periodAt lo := by
  refine (periodAt_window z h).resolve_right ?_
  rintro ⟨c, hc, -⟩
  obtain ⟨t, ht, hb, -⟩ := mem_changesBetween.mp hc
  exact hquiet t ht hb

end CivilTime.Zone
