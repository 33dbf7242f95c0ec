/- Which instant a wall-clock time stands for under the policies, and when they refuse to choose one. -/
import CivilTime.Proofs.Zone.Classification

namespace CivilTime

namespace Zone

/-- The instant that the policies select for a wall-clock time, whether or not it is in range. The policies
are not asked about a time that is shown once. -/
inductive Selects (z : Zone) (wall : Int) (fold : FoldPolicy) (gap : GapPolicy) : Int → Prop
  | only {i : Int} : z.readings wall = {i} → Selects z wall fold gap i
  | first {i : Int} : (z.readings wall).Nontrivial → fold = .earlier ∨ fold = .compatible →
      IsLeast (z.readings wall) i → Selects z wall fold gap i
  | last {i : Int} : (z.readings wall).Nontrivial → fold = .later →
      IsGreatest (z.readings wall) i → Selects z wall fold gap i
  | shifted {p q : Period} {t : Int} : z.readings wall = ∅ → gap = .shiftForward →
      (Lookup.ofZone z).resolve? wall = some (.gap p q t) → Selects z wall fold gap (wall - p.offset.nanos)

variable {z : Zone} {wall i j : Int} {fold : FoldPolicy} {gap : GapPolicy}

theorem Selects.unique (h : z.Selects wall fold gap i) (h' : z.Selects wall fold gap j) : i = j := by
  have hsingle {k : Int} (hk : z.readings wall = {k}) : ¬(z.readings wall).Nontrivial := by
    rw [hk]
    exact Set.not_nontrivial_singleton
  -- A reading is shown once, more than once or never; only a fold leaves a choice, which its policy makes.
  cases h with
  | only hi =>
    cases h' with
    | only hj => exact Set.singleton_injective (hi.symm.trans hj)
    | first hn => exact absurd hn (hsingle hi)
    | last hn => exact absurd hn (hsingle hi)
    | shifted he => exact absurd (hi.symm.trans he) (Set.singleton_ne_empty _)
  | first hn hf hi =>
    cases h' with
    | only hj => exact absurd hn (hsingle hj)
    | first _ _ hj => exact hi.unique hj
    | last _ hl => subst hl; simp at hf
    | shifted he => exact absurd he hn.ne_empty
  | last hn hl hi =>
    cases h' with
    | only hj => exact absurd hn (hsingle hj)
    | first _ hf => subst hl; simp at hf
    | last _ _ hj => exact hi.unique hj
    | shifted he => exact absurd he hn.ne_empty
  | shifted he _ hr =>
    cases h' with
    | only hj => exact absurd (hj.symm.trans he) (Set.singleton_ne_empty _)
    | first hn => exact absurd he hn.ne_empty
    | last hn => exact absurd he hn.ne_empty
    | shifted _ _ hr' =>
      rw [hr] at hr'
      cases hr'
      rfl

/-- A time that is shown is taken for one of the instants that show it. -/
theorem Selects.mem (h : z.Selects wall fold gap i) (hne : (z.readings wall).Nonempty) : i ∈ z.readings wall := by
  cases h with
  | only hi =>
    rw [hi]
    exact Set.mem_singleton _
  | first _ _ hi => exact hi.1
  | last _ _ hi => exact hi.1
  | shifted he => exact absurd he hne.ne_empty

theorem Selects.isLeast (h : z.Selects wall .earlier gap i) (hne : (z.readings wall).Nonempty) :
    IsLeast (z.readings wall) i := by
  cases h with
  | only hi =>
    rw [hi]
    exact isLeast_singleton
  | first _ _ hi => exact hi
  | last _ hl => cases hl
  | shifted he => exact absurd he hne.ne_empty

theorem Selects.isGreatest (h : z.Selects wall .later gap i) (hne : (z.readings wall).Nonempty) :
    IsGreatest (z.readings wall) i := by
  cases h with
  | only hi =>
    rw [hi]
    exact isGreatest_singleton
  | first _ hf => simp at hf
  | last _ _ hi => exact hi
  | shifted he => exact absurd he hne.ne_empty

/-- An instant is selected by the offset of some period. -/
theorem Selects.exists_eq_sub (h : z.Selects wall fold gap i) : ∃ o : Offset, i = wall - o.nanos := by
  rcases (z.readings wall).eq_empty_or_nonempty with hempty | hne
  · cases h with
    | only hi => exact absurd (hi.symm.trans hempty) (Set.singleton_ne_empty _)
    | first hn => exact absurd hempty hn.ne_empty
    | last hn => exact absurd hempty hn.ne_empty
    | shifted _ _ hr => exact ⟨_, rfl⟩
  · obtain ⟨p, -, hi⟩ := h.mem hne
    exact ⟨p.offset, by omega⟩

/-- The policies do not refuse a time for which they select an instant. -/
theorem Selects.not_rejected (h : z.Selects wall fold gap i) :
    ¬((z.readings wall).Nontrivial ∧ fold = .reject) ∧ ¬(z.readings wall = ∅ ∧ gap = .reject) := by
  cases h with
  | only hi =>
    rw [hi]
    exact ⟨fun hr => Set.not_nontrivial_singleton hr.1, fun hr => Set.singleton_ne_empty _ hr.1⟩
  | first hn hf =>
    refine ⟨?_, fun hr => hn.ne_empty hr.1⟩
    rintro ⟨-, rfl⟩
    simp at hf
  | last hn hl =>
    refine ⟨?_, fun hr => hn.ne_empty hr.1⟩
    rintro ⟨-, rfl⟩
    cases hl
  | shifted he hg =>
    refine ⟨fun hr => hr.1.ne_empty he, ?_⟩
    rintro ⟨-, rfl⟩
    cases hg

end Zone

namespace Resolver

variable {r : Resolver} {id : String} {z : Zone}

theorem resolve_eq_ok (h : r.zones.find? id = some z) {wall : LocalDateTime} (answer : Resolution) :
    r.resolve id wall = .ok answer ↔ (Lookup.ofZone z).resolve? wall.epochNanos = some answer := by
  rw [resolve, lookup_eq_ok h]
  simp only [bind, Except.bind]
  cases (Lookup.ofZone z).resolve? wall.epochNanos with
  | none => exact iff_of_false (by simp [throw, throwThe, MonadExceptOf.throw]) (by simp)
  | some found => simp [pure, Except.pure]

/-- Either the policies select an instant, which is then judged by its range, or one of them refuses the time. -/
theorem instantOf_cases (h : r.zones.find? id = some z) (wall : LocalDateTime) (fold : FoldPolicy) (gap : GapPolicy) :
    (∃ i, z.Selects wall.epochNanos fold gap i ∧
      r.instantOf id wall fold gap = liftM (Instant.ofNanos i)) ∨
    ((z.readings wall.epochNanos).Nontrivial ∧ fold = .reject ∧
      r.instantOf id wall fold gap = .error (.ambiguous wall id)) ∨
    (z.readings wall.epochNanos = ∅ ∧ gap = .reject ∧
      r.instantOf id wall fold gap = .error (.skipped wall id)) := by
  obtain ⟨answer, hanswer, hshows⟩ := Lookup.exists_resolve? z wall.epochNanos
  rw [← (Lookup.agrees_ofZone z).resolve?_eq] at hanswer
  -- The period that the answer names gives the instant back from its reading.
  have hread {i : Int} {p : Period} (hi : i ∈ z.readings wall.epochNanos)
      (hp : z.InEffect (i / nanosPerSecond) p) : wall.epochNanos - p.offset.nanos = i := by
    have hi := Zone.mem_readings.mp hi
    rw [Zone.inEffect_iff.mp hp] at hi
    omega
  rw [instantOf, (resolve_eq_ok h _).mpr hanswer]
  cases answer with
  | unique p =>
    obtain ⟨i, hi, hp⟩ := hshows
    refine Or.inl ⟨i, .only hi, ?_⟩
    rw [← hread (by rw [hi]; exact Set.mem_singleton i) hp]
    rfl
  | fold p q t =>
    obtain ⟨i, j, hi, hj, hp, hq, hit, htj⟩ := hshows
    have hn : (z.readings wall.epochNanos).Nontrivial := ⟨i, hi.1, j, hj.1, by omega⟩
    cases fold with
    | earlier =>
      refine Or.inl ⟨i, .first hn (Or.inl rfl) hi, ?_⟩
      rw [← hread hi.1 hp]
      rfl
    | later =>
      refine Or.inl ⟨j, .last hn rfl hj, ?_⟩
      rw [← hread hj.1 hq]
      rfl
    | compatible =>
      refine Or.inl ⟨i, .first hn (Or.inr rfl) hi, ?_⟩
      rw [← hread hi.1 hp]
      rfl
    | reject => exact Or.inr (Or.inl ⟨hn, rfl, rfl⟩)
  | gap p q t =>
    cases gap with
    | shiftForward => exact Or.inl ⟨_, .shifted hshows.1 rfl hanswer, rfl⟩
    | reject => exact Or.inr (Or.inr ⟨hshows.1, rfl, rfl⟩)

end Resolver
end CivilTime
