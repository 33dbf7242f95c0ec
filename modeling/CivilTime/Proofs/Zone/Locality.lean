/- A time is judged by the entries of a table within a day of it and by the period in effect a day before it. Whatever
else the table holds has no influence on the answer. -/
import CivilTime.Proofs.Zone.Selection
import Mathlib.Data.List.Permutation

namespace CivilTime

namespace Zone

/-- The entry begins after the one second and up to the other. -/
def isBetween (lo hi : Int) (t : Transition) : Bool := decide (lo < t.time ∧ t.time ≤ hi)

theorem isBetween_iff {lo hi : Int} {t : Transition} : isBetween lo hi t = true ↔ lo < t.time ∧ t.time ≤ hi :=
  decide_eq_true_iff

/-- The table as it is seen from one second up to another: the period in effect at the first, and the entries that
begin after it. -/
def seenBetween (z : Zone) (lo hi : Int) : Zone where
  initial := z.periodAt lo
  transitions := z.transitions.filter (isBetween lo hi)

section
variable {z : Zone} {l : List Transition} {lo hi s : Int} {t u : Transition}

theorem latest?_eq_some (h : latest? l s = some u) : u ∈ l ∧ u.time ≤ s := by
  rcases latest?_spec l s with ⟨he, -⟩ | ⟨i, v, he, hv⟩
  · rw [he] at h
    cases h
  · rw [he] at h
    cases h
    exact ⟨hv.mem, hv.2.1⟩

theorem latest?_append_of_lt (h : s < t.time) : latest? (l ++ [t]) s = latest? l s := by
  rw [latest?_append, if_neg]
  exact fun hc => Int.not_le.mpr h hc.1

theorem latest?_append_of_le (hs : t.time ≤ s) (h : ∀ u, latest? l s = some u → u.time ≤ t.time) :
    latest? (l ++ [t]) s = some t := by
  rw [latest?_append, if_pos]
  refine ⟨hs, ?_⟩
  cases hu : latest? l s with
  | none => rfl
  | some u => exact decide_eq_true (h u hu)

theorem latest?_append_of_replaced (h : latest? l s = some u) (hlt : t.time < u.time) :
    latest? (l ++ [t]) s = some u := by
  rw [latest?_append, if_neg, h]
  rintro ⟨-, hle⟩
  rw [h, Option.all_some, decide_eq_true_eq] at hle
  exact Int.not_le.mpr hlt hle

/-- The latest entry is one of those that begin after a second, or else the one that was the latest at that second. -/
theorem latest?_eq_or (hlo : lo ≤ s) (hhi : s ≤ hi) :
    latest? l s = (latest? (l.filter (isBetween lo hi)) s).or (latest? l lo) := by
  -- One more entry at the end of the list takes the place of what was the latest so far, in both lists or in none.
  induction l using List.reverseRecOn with
  | nil => rfl
  | append_singleton l t ih =>
    rw [List.filter_append]
    by_cases hbetween : isBetween lo hi t = true
    · obtain ⟨hlt, -⟩ := isBetween_iff.mp hbetween
      rw [List.filter_cons_of_pos hbetween, List.filter_nil, latest?_append_of_lt hlt]
      by_cases hts : t.time ≤ s
      · cases hf : latest? (l.filter (isBetween lo hi)) s with
        | none =>
          rw [hf, Option.none_or] at ih
          have hold (u : Transition) (hu : latest? l s = some u) : u.time ≤ t.time := by
            rw [ih] at hu
            have := (latest?_eq_some hu).2
            omega
          rw [latest?_append_of_le hts hold, latest?_append_of_le hts (by simp [hf]), Option.some_or]
        | some u =>
          rw [hf, Option.some_or] at ih
          by_cases hut : u.time ≤ t.time
          · rw [latest?_append_of_le hts (by simpa [ih] using hut), latest?_append_of_le hts (by simpa [hf] using hut),
              Option.some_or]
          · rw [latest?_append_of_replaced ih (Int.not_le.mp hut), latest?_append_of_replaced hf (Int.not_le.mp hut),
              Option.some_or]
      · rw [latest?_append_of_lt (Int.not_le.mp hts), latest?_append_of_lt (Int.not_le.mp hts), ih]
    · rw [List.filter_cons_of_neg hbetween, List.filter_nil, List.append_nil]
      rw [isBetween_iff] at hbetween
      by_cases hts : t.time ≤ lo
      · cases hf : latest? (l.filter (isBetween lo hi)) s with
        | none =>
          rw [hf, Option.none_or] at ih
          rw [Option.none_or, latest?_append, latest?_append, ih]
          simp only [hts, Int.le_trans hts hlo]
        | some u =>
          rw [hf, Option.some_or] at ih
          obtain ⟨hlt, -⟩ := isBetween_iff.mp (List.mem_filter.mp (latest?_eq_some hf).1).2
          rw [latest?_append_of_replaced ih (by omega), Option.some_or]
      · rw [latest?_append_of_lt (by omega), latest?_append_of_lt (by omega), ih]

/-- Looking at a second of the window, the rest of the table is not missed. -/
theorem periodAt_seenBetween (z : Zone) (hlo : lo ≤ s) (hhi : s ≤ hi) :
    (z.seenBetween lo hi).periodAt s = z.periodAt s := by
  rw [periodAt.eq_def z s, latest?_eq_or hlo hhi, seenBetween, periodAt]
  dsimp only
  cases latest? (z.transitions.filter (isBetween lo hi)) s with
  | none => rfl
  | some t => rfl

theorem changesBetween_seenBetween (z : Zone) (lo hi : Int) :
    (z.seenBetween lo hi).changesBetween lo hi = z.changesBetween lo hi := by
  have hentries : (z.seenBetween lo hi).transitions.filter (isBetween lo hi) =
      z.transitions.filter (isBetween lo hi) := by
    rw [seenBetween, List.filter_filter]
    simp only [Bool.and_self]
  show (((z.seenBetween lo hi).transitions.filter (isBetween lo hi)).mergeSort _).map _ =
    ((z.transitions.filter (isBetween lo hi)).mergeSort _).map _
  rw [hentries]
  refine List.map_congr_left fun t ht => ?_
  obtain ⟨hlt, hle⟩ := isBetween_iff.mp (List.mem_filter.mp (List.mem_mergeSort.mp ht)).2
  rw [periodAt_seenBetween z (by omega) (by omega)]

end

/-- Two tables look the same within a day of a second: the same period is in effect a day before it, and they hold the
same entries up to a day after it, listed in the same order. -/
structure SameAround (z z' : Zone) (second : Int) : Prop where
  exists_inEffect : ∃ p, z.InEffect (second - secondsPerDay) p ∧ z'.InEffect (second - secondsPerDay) p
  entries_eq : z.transitions.filter (isBetween (second - secondsPerDay) (second + secondsPerDay)) =
    z'.transitions.filter (isBetween (second - secondsPerDay) (second + secondsPerDay))

theorem SameAround.seenBetween_eq {z z' : Zone} {second : Int} (h : z.SameAround z' second) :
    z.seenBetween (second - secondsPerDay) (second + secondsPerDay) =
      z'.seenBetween (second - secondsPerDay) (second + secondsPerDay) := by
  obtain ⟨p, hp, hp'⟩ := h.exists_inEffect
  rw [seenBetween, seenBetween, inEffect_iff.mp hp, inEffect_iff.mp hp', h.entries_eq]

end Zone

namespace Lookup

/-- A time is judged by what is seen of the table in the window around it. -/
theorem agreesNear_seenBetween (z : Zone) (wall : Int) :
    (direct (z.seenBetween (windowStart wall) (windowEnd wall))).AgreesNear (direct z) wall :=
  ⟨fun _ => z.periodAt_seenBetween, z.changesBetween_seenBetween _ _⟩

theorem resolve?_of_sameAround {z z' : Zone} {wall : Int} (h : z.SameAround z' (wall / nanosPerSecond)) :
    (ofZone z).resolve? wall = (ofZone z').resolve? wall := by
  have hseen := h.seenBetween_eq
  rw [← windowStart_eq, ← windowEnd_eq] at hseen
  calc (ofZone z).resolve? wall
    _ = (direct z).resolve? wall := (agrees_ofZone z).resolve?_eq wall
    _ = (direct (z.seenBetween (windowStart wall) (windowEnd wall))).resolve? wall :=
        (agreesNear_seenBetween z wall).resolve?_eq.symm
    _ = (direct (z'.seenBetween (windowStart wall) (windowEnd wall))).resolve? wall := by rw [hseen]
    _ = (direct z').resolve? wall := (agreesNear_seenBetween z' wall).resolve?_eq
    _ = (ofZone z').resolve? wall := ((agrees_ofZone z').resolve?_eq wall).symm

end Lookup

namespace Resolver

variable {r r' : Resolver} {id id' : String} {wall : LocalDateTime} {answer : Resolution}

/-- The instant follows from the answer alone, and the zone is only named in a refusal. -/
theorem instantOf_of_resolve (h : r.resolve id wall = .ok answer) (h' : r'.resolve id' wall = .ok answer)
    (fold : FoldPolicy) (gap : GapPolicy) :
    SameOutcome (r.instantOf id wall fold gap) (r'.instantOf id' wall fold gap) := by
  rw [instantOf, instantOf, h, h']
  cases answer with
  | unique p => exact .refl _
  | fold p q t =>
    by_cases hf : fold = .reject
    · subst hf
      exact sameOutcome_error rfl
    · simp only [bind, Except.bind, if_neg hf]
      exact .refl _
  | gap p q t =>
    by_cases hg : gap = .reject
    · subst hg
      exact sameOutcome_error rfl
    · simp only [bind, Except.bind, if_neg hg]
      exact .refl _

/-- Two resolvers whose tables look the same within a day of a time, be they in order or not, give the same answer for
it: the same periods and the same change, and under each policy the same instant or a refusal of the same kind. -/
theorem answers_eq_of_sameAround (r r' : Resolver) (id id' : String) (z z' : Zone) (wall : LocalDateTime)
    (h : r.zones.find? id = some z) (h' : r'.zones.find? id' = some z')
    (hsame : z.SameAround z' (wall.epochNanos / nanosPerSecond)) :
    (∃ answer, r.resolve id wall = .ok answer ∧ r'.resolve id' wall = .ok answer) ∧
      ∀ fold gap, SameOutcome (r.instantOf id wall fold gap) (r'.instantOf id' wall fold gap) := by
  obtain ⟨answer, hanswer, -⟩ := exists_resolve_shows h wall
  have hanswer' : r'.resolve id' wall = .ok answer := by
    rw [resolve_eq_ok h', ← Lookup.resolve?_of_sameAround hsame]
    exact (resolve_eq_ok h answer).mp hanswer
  exact ⟨⟨answer, hanswer, hanswer'⟩, instantOf_of_resolve hanswer hanswer'⟩

/-- A table of one entry, and one that lists older entries behind it and begins with another period. -/
theorem answers_eq_of_older_entries :
    let p : Period := ⟨⟨3600, by decide, by decide⟩, "CET", .bool false⟩
    let q : Period := ⟨⟨7200, by decide, by decide⟩, "CEST", .bool true⟩
    let z : Zone := ⟨p, [⟨1679792400, q⟩]⟩
    let z' : Zone := ⟨q, [⟨1679792400, q⟩, ⟨1648342800, q⟩, ⟨1667091600, p⟩]⟩
    let r : Resolver := .ofZones ⟨[(.text "Short", z)], List.pairwise_singleton _ _⟩
    let r' : Resolver := .ofZones ⟨[(.text "Long", z')], List.pairwise_singleton _ _⟩
    let wall : LocalDateTime := ⟨⟨2460030, by decide, by decide⟩, ⟨9000000000000, by decide, by decide⟩⟩
    (r.zones.find? "Short" = some z ∧ r'.zones.find? "Long" = some z' ∧
      z.SameAround z' (wall.epochNanos / nanosPerSecond)) ∧
      Zone.ascending z.transitions = true ∧ Zone.ascending z'.transitions = false ∧
      r.resolve "Short" wall = .ok (.gap p q 1679792400) ∧ r'.resolve "Long" wall = .ok (.gap p q 1679792400) := by
  intro p q z z' r r' wall
  have hsame : z.SameAround z' (wall.epochNanos / nanosPerSecond) :=
    ⟨⟨p, Zone.inEffect_iff.mpr rfl, Zone.inEffect_iff.mpr rfl⟩, rfl⟩
  have hgap : r.resolve "Short" wall = .ok (.gap p q 1679792400) := by cbv
  obtain ⟨⟨answer, hanswer, hanswer'⟩, -⟩ :=
    answers_eq_of_sameAround r r' "Short" "Long" z z' wall rfl rfl hsame
  rw [hgap] at hanswer
  cases hanswer
  exact ⟨⟨rfl, rfl, hsame⟩, rfl, rfl, hgap, hanswer'⟩

end Resolver
end CivilTime
