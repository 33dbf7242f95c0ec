/- Bisection of an ascending table finds what going through all its entries finds. -/
import CivilTime.Proofs.Zone.InEffect

namespace CivilTime

namespace Zone

theorem pairwise_of_ascending {l : List Transition} (h : ascending l = true) :
    l.Pairwise fun a b => a.time < b.time := by
  fun_induction ascending l with
  | case1 a b r ih =>
    rw [Bool.and_eq_true, decide_eq_true_eq] at h
    have hr := ih h.2
    refine List.pairwise_cons.mpr ⟨?_, hr⟩
    intro c hc
    rcases List.mem_cons.mp hc with rfl | hc
    · exact h.1
    · exact Int.lt_trans h.1 ((List.pairwise_cons.mp hr).1 c hc)
  | case2 l hl =>
    match l, hl with
    | [], _ => exact List.Pairwise.nil
    | [a], _ => exact List.pairwise_singleton _ a
    | a :: b :: r, hl => exact absurd rfl (hl a b r)

theorem ascending_of_pairwise {l : List Transition} (h : l.Pairwise fun a b => a.time < b.time) :
    ascending l = true := by
  fun_induction ascending l with
  | case1 a b r ih =>
    have hc := List.pairwise_cons.mp h
    rw [Bool.and_eq_true, decide_eq_true_eq]
    exact ⟨hc.1 b List.mem_cons_self, ih hc.2⟩
  | case2 => rfl

end Zone

namespace ZoneIndex

/-- All times below the position are at most the second, and all from it on are later. -/
theorem countUpTo_spec {times : Array Int} {s : Int} {lo hi : Nat} {h : hi ≤ times.size}
    (hsorted : ∀ i j (hj : j < times.size), (hij : i < j) → times[i] < times[j]) (hle : lo ≤ hi)
    (hlo : ∀ i (hi : i < times.size), i < lo → times[i] ≤ s)
    (hhi : ∀ i (hb : i < times.size), hi ≤ i → s < times[i]) (i : Nat) (hi' : i < times.size) :
    times[i] ≤ s ↔ i < countUpTo times s lo hi h := by
  fun_induction countUpTo times s lo hi h with
  | case1 lo hi h hlt mid hmid hs ih =>
    refine ih hsorted hmid.1 hlo ?_
    intro k hk hmk
    rcases Nat.lt_or_eq_of_le hmk with hmk | rfl
    · exact Int.lt_trans hs (hsorted mid k hk hmk)
    · exact hs
  | case2 lo hi h hlt mid hmid hs ih =>
    refine ih hsorted hmid.2 ?_ hhi
    intro k hk hkm
    rcases Nat.lt_or_eq_of_le (Nat.le_of_lt_succ hkm) with hkm | rfl
    · exact Int.le_trans (Int.le_of_lt (hsorted k mid (by omega) hkm)) (Int.not_lt.mp hs)
    · exact Int.not_lt.mp hs
  | case3 lo hi h hlt =>
    by_cases hil : i < lo
    · exact iff_of_true (hlo i hi' hil) hil
    · exact iff_of_false (Int.not_le.mpr (hhi i hi' (by omega))) hil

theorem size_periods_eq (z : Zone) : (z.initial :: z.transitions.map Transition.period).toArray.size =
    (z.transitions.map Transition.time).toArray.size + 1 := by
  rw [List.size_toArray, List.size_toArray, List.length_cons, List.length_map, List.length_map]

/-- The index of a table that is taken to be in ascending order. -/
def ofAscending (z : Zone) : ZoneIndex where
  times := (z.transitions.map Transition.time).toArray
  periods := (z.initial :: z.transitions.map Transition.period).toArray
  size_periods := size_periods_eq z

theorem ofZone?_eq_some {z : Zone} {x : ZoneIndex} :
    ofZone? z = some x ↔ Zone.ascending z.transitions = true ∧ ofAscending z = x := by
  unfold ofZone?
  by_cases h : Zone.ascending z.transitions = true
  · rw [if_pos h, Option.some.injEq, and_iff_right h]
    rfl
  · rw [if_neg h]
    constructor
    · intro he
      cases he
    · rintro ⟨ha, -⟩
      exact absurd ha h

section
variable {z : Zone} {s : Int}

theorem size_times (z : Zone) : (ofAscending z).times.size = z.transitions.length := by
  simp only [ofAscending, List.size_toArray, List.length_map]

theorem time_le_iff (h : Zone.ascending z.transitions = true) (i : Nat) (hi : i < z.transitions.length) :
    z.transitions[i].time ≤ s ↔ i < (ofAscending z).position s := by
  have hsize := size_times z
  have htime (k : Nat) (hk : k < (ofAscending z).times.size) (hk' : k < z.transitions.length) :
      (ofAscending z).times[k] = z.transitions[k].time := by
    simp only [ofAscending, List.getElem_toArray, List.getElem_map]
  have hsorted := List.pairwise_iff_getElem.mp (Zone.pairwise_of_ascending h)
  rw [← htime i (by omega) hi]
  refine countUpTo_spec ?_ (Nat.zero_le _) ?_ ?_ i (by omega)
  · intro i j hj hij
    rw [htime i (by omega) (by omega), htime j hj (by omega)]
    exact hsorted i j (by omega) (by omega) hij
  · intro i _ hlt
    exact absurd hlt (Nat.not_lt_zero i)
  · intro i hlt hle
    exact absurd hlt (Nat.not_lt.mpr hle)

/-- The period at a position holds as long as just the times below the position have come. -/
theorem inEffect_periods (h : Zone.ascending z.transitions = true) (p : Nat)
    (hp : p < (ofAscending z).periods.size)
    (hle : ∀ i (hi : i < z.transitions.length), z.transitions[i].time ≤ s ↔ i < p) :
    z.InEffect s (ofAscending z).periods[p] := by
  have hsorted := List.pairwise_iff_getElem.mp (Zone.pairwise_of_ascending h)
  cases p with
  | zero =>
    refine Or.inl ⟨?_, rfl⟩
    intro t ht
    obtain ⟨i, hi, rfl⟩ := List.mem_iff_getElem.mp ht
    exact Int.not_le.mp fun hs => Nat.not_lt_zero i ((hle i hi).mp hs)
  | succ k =>
    have hk : k < z.transitions.length := by
      simp only [ofAscending, List.size_toArray, List.length_cons, List.length_map] at hp
      omega
    refine Or.inr ⟨k, z.transitions[k], ⟨List.getElem?_eq_getElem hk, ?_, ?_⟩, ?_⟩
    · exact (hle k hk).mpr (Nat.lt_succ_self k)
    · intro j u hu hus
      obtain ⟨hj, rfl⟩ := List.getElem?_eq_some_iff.mp hu
      rcases Nat.lt_or_eq_of_le (Nat.le_of_lt_succ ((hle j hj).mp hus)) with hjk | rfl
      · exact Or.inl (hsorted j k hj hk hjk)
      · exact Or.inr ⟨rfl, Nat.le_refl j⟩
    · simp only [ofAscending, List.getElem_toArray, List.getElem_cons_succ, List.getElem_map]

theorem periodAt_ofAscending (h : Zone.ascending z.transitions = true) (s : Int) :
    (ofAscending z).periodAt s = z.periodAt s :=
  (Zone.inEffect_iff.mp (inEffect_periods h _ _ (time_le_iff h))).symm

/-- What a change of the table looks like when the periods around it are looked up one by one. -/
def changeOf (z : Zone) (t : Transition) : Change :=
  { time := t.time, before := z.periodAt (t.time - 1), after := t.period }

theorem change_ofAscending (h : Zone.ascending z.transitions = true) (i : Nat) (hi : i < z.transitions.length)
    (hi' : i < (ofAscending z).times.size) : (ofAscending z).change i hi' = changeOf z z.transitions[i] := by
  have hsize := (ofAscending z).size_periods
  have hbefore : z.InEffect (z.transitions[i].time - 1) (ofAscending z).periods[i] := by
    refine inEffect_periods h i _ ?_
    intro j hj
    have hsorted := List.pairwise_iff_getElem.mp (Zone.pairwise_of_ascending h)
    rcases Nat.lt_trichotomy i j with hij | rfl | hji
    · have := hsorted i j hi hj hij
      omega
    · omega
    · have := hsorted j i hj hi hji
      omega
  rw [changeOf, Zone.inEffect_iff.mp hbefore]
  simp only [change, ofAscending, List.getElem_toArray, List.getElem_cons_succ, List.getElem_map]

theorem changes_range' (h : Zone.ascending z.transitions = true) (n start : Nat) :
    ((List.range' start n).filterMap fun i =>
      if hi : i < (ofAscending z).times.size then some ((ofAscending z).change i hi) else none) =
      ((z.transitions.drop start).take n).map (changeOf z) := by
  have hsize := size_times z
  induction n generalizing start with
  | zero => rfl
  | succ n ih =>
    rw [List.range'_succ, List.filterMap_cons, ih]
    by_cases hs : start < z.transitions.length
    · rw [dif_pos (by omega), List.drop_eq_getElem_cons hs, List.take_succ_cons, List.map_cons]
      simp only [change_ofAscending h start hs]
    · rw [dif_neg (by omega), List.drop_eq_nil_of_le (by omega), List.drop_eq_nil_of_le (by omega),
        List.take_nil, List.take_nil]

end

/-- A filter that lets pass just a stretch of positions takes that stretch. -/
theorem filter_eq_take_drop {α : Type} {p : α → Bool} (l : List α) (start stop : Nat)
    (h : ∀ i (hi : i < l.length), p l[i] = true ↔ start ≤ i ∧ i < stop) :
    l.filter p = (l.drop start).take (stop - start) := by
  induction l generalizing start stop with
  | nil => simp
  | cons a l ih =>
    have ha := h 0 (by simp)
    have htail (i : Nat) (hi : i < l.length) := h (i + 1) (by simpa using hi)
    simp only [List.getElem_cons_zero, List.getElem_cons_succ] at ha htail
    cases start with
    | zero =>
      cases stop with
      | zero =>
        rw [List.filter_cons_of_neg (by rw [ha]; omega), ih 0 0 fun i hi => by rw [htail i hi]; omega]
        rfl
      | succ stop =>
        rw [List.filter_cons_of_pos (by rw [ha]; omega), ih 0 stop fun i hi => by rw [htail i hi]; omega]
        rfl
    | succ start =>
      rw [List.filter_cons_of_neg (by rw [ha]; omega),
        ih start (stop - 1) fun i hi => by rw [htail i hi]; omega, List.drop_succ_cons]
      congr 1
      omega

theorem changesBetween_ofAscending {z : Zone} (h : Zone.ascending z.transitions = true) (lo hi : Int) :
    (ofAscending z).changesBetween lo hi = z.changesBetween lo hi := by
  have hfilter := filter_eq_take_drop (p := fun t => decide (lo < t.time ∧ t.time ≤ hi)) z.transitions
    ((ofAscending z).position lo) ((ofAscending z).position hi) (by
      intro i hi'
      rw [decide_eq_true_eq, ← Int.not_le, time_le_iff h i hi', time_le_iff h i hi', Nat.not_lt])
  have hsorted : (z.transitions.filter fun t => decide (lo < t.time ∧ t.time ≤ hi)).Pairwise
      fun a b => decide (a.time ≤ b.time) = true :=
    ((Zone.pairwise_of_ascending h).imp fun hab => decide_eq_true (Int.le_of_lt hab)).filter _
  dsimp only [changesBetween, Zone.changesBetween]
  rw [List.mergeSort_of_pairwise hsorted, hfilter, changes_range' h]
  rfl

end ZoneIndex
end CivilTime
