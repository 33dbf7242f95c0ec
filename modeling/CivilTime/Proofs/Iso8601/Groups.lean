/- Groups of a duration are read as far as they come in the order of their units, each at most once. -/
import CivilTime.Iso8601.DurationReader
import CivilTime.Proofs.Text.DigitRun

namespace CivilTime.Iso8601

open Text Text.Reader

/-- A count, and perhaps a fraction behind it. -/
structure GroupText where
  count : DigitRun 1 18
  fraction : Option (DigitRun 1 9)

namespace GroupText

def chars (x : GroupText) (unit : Char) : List Char := x.count.chars ++ (fractionChars x.fraction ++ [unit])

def group (x : GroupText) (unit : Char) : Group := ⟨x.count.value, fractionBillionths x.fraction, unit⟩

/-- Only seconds can have a fraction, and only where fractions are read. -/
def Allowed (fractions : Bool) (unit : Char) (x : GroupText) : Prop :=
  x.fraction.isSome = true → fractions = true ∧ unit = 'S'

end GroupText

/-- Different characters that are no part of a number. -/
structure AreUnits (units : List Char) : Prop where
  nodup : units.Nodup
  isDigit : ∀ u ∈ units, u.isDigit = false
  ne_dot : ∀ u ∈ units, u ≠ '.'

theorem AreUnits.of_all {units : List Char} (hnodup : units.Nodup)
    (h : units.all (fun u => !u.isDigit && u != '.') = true) : AreUnits units := by
  simp only [List.all_eq_true, Bool.and_eq_true, Bool.not_eq_true', bne_iff_ne] at h
  exact ⟨hnodup, fun u hu => (h u hu).1, fun u hu => (h u hu).2⟩

theorem areUnits_date : AreUnits ['Y', 'M', 'D'] := .of_all (by decide) rfl

theorem areUnits_clock : AreUnits ['H', 'M', 'S'] := .of_all (by decide) rfl

theorem AreUnits.tail {u : Char} {units : List Char} (h : AreUnits (u :: units)) : AreUnits units :=
  ⟨h.nodup.of_cons, fun v hv => h.isDigit v (List.mem_cons_of_mem u hv),
    fun v hv => h.ne_dot v (List.mem_cons_of_mem u hv)⟩

theorem AreUnits.ne_of_mem {u v : Char} {units : List Char} (h : AreUnits (u :: units)) (hv : v ∈ units) : u ≠ v :=
  fun he => (List.nodup_cons.mp h.nodup).1 (he ▸ hv)

/-- What is taken by reading groups: for each unit in turn a group with it, or nothing. -/
inductive Taken (fractions : Bool) : List Char → List Group → List Char → Prop
  | nil : Taken fractions [] [] []
  | leftOut {unit : Char} {units : List Char} {groups : List Group} {cs : List Char} :
    Taken fractions units groups cs → Taken fractions (unit :: units) groups cs
  | group {unit : Char} {units : List Char} {groups : List Group} {cs : List Char} (x : GroupText) :
    x.Allowed fractions unit → Taken fractions units groups cs →
      Taken fractions (unit :: units) (x.group unit :: groups) (x.chars unit ++ cs)

variable {fractions : Bool} {unit : Char} {units cs rest : List Char} {g : Group} {groups : List Group}

theorem readUnit_eq_ok {hasFraction : Bool} {u : Char} : readUnit units hasFraction cs = .ok (u, rest) ↔
    cs = u :: rest ∧ u ∈ units ∧ (hasFraction = true → u = 'S') := by
  constructor
  · intro h
    cases cs with
    | nil => cases h
    | cons c r =>
      simp only [readUnit] at h
      split at h
      · rename_i hc
        split at h
        · cases h
        · rename_i hfraction
          cases h
          exact ⟨rfl, hc, fun hf => Decidable.not_not.mp fun hs => hfraction ⟨hf, hs⟩⟩
      · cases h
  · rintro ⟨rfl, hu, hfraction⟩
    have hseconds : ¬(hasFraction = true ∧ u ≠ 'S') := fun h => h.2 (hfraction h.1)
    simp only [readUnit, if_pos hu, if_neg hseconds]

/-- Where fractions are read, one is taken if a point comes next. -/
theorem groupFraction_eq_ok {α : Type} {go : Option Nat → Reader α} {a : α} :
    (if fractions then fraction? >>= go else pure none >>= go : Reader α) cs = .ok (a, rest) ↔
      ∃ (x : Option (DigitRun 1 9)) (mid : List Char), cs = fractionChars x ++ mid ∧
        (x.isSome = true → fractions = true) ∧
        (fractions = true → Ends (if x.isSome then Char.isDigit else (· == '.')) mid) ∧
        go (x.map DigitRun.billionths) mid = .ok (a, rest) := by
  cases fractions with
  | true =>
    rw [if_pos rfl, bind_run_eq_ok]
    constructor
    · rintro ⟨_, mid, h, hgo⟩
      obtain ⟨x, rfl, rfl, hends⟩ := fraction?_eq_ok.mp h
      exact ⟨x, mid, rfl, fun _ => rfl, fun _ => hends, hgo⟩
    · rintro ⟨x, mid, rfl, -, hends, hgo⟩
      exact ⟨_, mid, fraction?_eq_ok.mpr ⟨x, rfl, rfl, hends rfl⟩, hgo⟩
  | false =>
    constructor
    · intro hgo
      exact ⟨none, cs, rfl, nofun, nofun, hgo⟩
    · rintro ⟨x, mid, rfl, hnone, -, hgo⟩
      cases x with
      | none => exact hgo
      | some x => exact absurd (hnone rfl) Bool.false_ne_true

theorem readGroup_eq_ok (hunits : AreUnits units) : readGroup units fractions cs = .ok (g, rest) ↔
    ∃ (x : GroupText) (u : Char), u ∈ units ∧ x.Allowed fractions u ∧ cs = x.chars u ++ rest ∧ x.group u = g := by
  unfold readGroup
  constructor
  · intro h
    obtain ⟨_, _, hnumber, hread⟩ := bind_run_eq_ok.mp h
    obtain ⟨count, rfl, rfl, -⟩ := number_eq_ok.mp hnumber
    obtain ⟨fraction, _, rfl, hallowed, -, hread⟩ := groupFraction_eq_ok.mp hread
    obtain ⟨u, _, hunit, hreturn⟩ := bind_run_eq_ok.mp hread
    obtain ⟨rfl, hu, hseconds⟩ := readUnit_eq_ok.mp hunit
    cases hreturn
    refine ⟨⟨count, fraction⟩, u, hu, fun hf => ⟨hallowed hf, hseconds (Option.isSome_map.trans hf)⟩, ?_, rfl⟩
    simp only [GroupText.chars, List.append_assoc, List.cons_append, List.nil_append]
  · rintro ⟨x, u, hu, hallowed, rfl, rfl⟩
    have hdigit : Ends Char.isDigit (u :: rest) := ends_cons (hunits.isDigit u hu) rest
    have hdot : Ends (· == '.') (u :: rest) := by
      refine ends_cons ?_ rest
      exact beq_false_of_ne (hunits.ne_dot u hu)
    simp only [GroupText.chars, List.append_assoc, List.cons_append, List.nil_append]
    refine bind_run_eq_ok.mpr ⟨_, _, number_eq_ok.mpr ⟨x.count, rfl, rfl, ends_fractionChars rfl hdigit x.fraction⟩, ?_⟩
    refine groupFraction_eq_ok.mpr ⟨x.fraction, u :: rest, rfl, fun hf => (hallowed hf).1, ?_, ?_⟩
    · intro _
      split
      · exact hdigit
      · exact hdot
    · have hseconds (hf : (x.fraction.map DigitRun.billionths).isSome = true) : u = 'S' :=
        (hallowed (Option.isSome_map.symm.trans hf)).2
      exact bind_run_eq_ok.mpr ⟨u, rest, readUnit_eq_ok.mpr ⟨rfl, hu, hseconds⟩, rfl⟩

/-- Nothing is read where no digit comes next, and otherwise a group and then groups with later units. -/
theorem readGroups_step (hunits : AreUnits units) : readGroups fractions units cs = .ok (groups, rest) ↔
    (groups = [] ∧ cs = rest ∧ Ends Char.isDigit rest) ∨
      ∃ (x : GroupText) (u : Char) (later : List Group) (mid : List Char), (u ∈ units ∧ x.Allowed fractions u) ∧
        groups = x.group u :: later ∧ cs = x.chars u ++ mid ∧
        readGroups fractions (unitsAfter u units) mid = .ok (later, rest) := by
  rw [readGroups.eq_def, bind_run_eq_ok]
  constructor
  · rintro ⟨taken, _, hdigit, hread⟩
    obtain ⟨rfl, hends⟩ := atDigit_eq_ok.mp hdigit
    cases taken with
    | false =>
      cases hread
      exact Or.inl ⟨rfl, rfl, hends.mp rfl⟩
    | true =>
      obtain ⟨_, mid, hgroup, hlater⟩ := bind_run_eq_ok.mp hread
      obtain ⟨x, u, hu, hallowed, rfl, rfl⟩ := (readGroup_eq_ok hunits).mp hgroup
      cases units with
      | nil => cases hu
      | cons v units =>
        obtain ⟨later, _, hlater, hreturn⟩ := bind_run_eq_ok.mp hlater
        cases hreturn
        exact Or.inr ⟨x, u, later, mid, ⟨hu, hallowed⟩, rfl, rfl, hlater⟩
  · rintro (⟨rfl, rfl, hends⟩ | ⟨x, u, later, mid, ⟨hu, hallowed⟩, rfl, rfl, hlater⟩)
    · exact ⟨false, cs, atDigit_eq_ok.mpr ⟨rfl, iff_of_true rfl hends⟩, rfl⟩
    · have hdigit : ¬Ends Char.isDigit (x.chars u ++ mid) := by
        rw [GroupText.chars, List.append_assoc]
        exact x.count.not_ends _
      refine ⟨true, _, atDigit_eq_ok.mpr ⟨rfl, iff_of_false nofun hdigit⟩, ?_⟩
      refine bind_run_eq_ok.mpr ⟨_, mid, (readGroup_eq_ok hunits).mpr ⟨x, u, hu, hallowed, rfl, rfl⟩, ?_⟩
      cases units with
      | nil => cases hu
      | cons v units => exact bind_run_eq_ok.mpr ⟨later, rest, hlater, rfl⟩

theorem unitsAfter_self (u : Char) (units : List Char) : unitsAfter u (u :: units) = units := by
  simp [unitsAfter]

theorem unitsAfter_of_ne {u v : Char} (h : v ≠ u) (units : List Char) :
    unitsAfter u (v :: units) = unitsAfter u units := by
  simp [unitsAfter, h]

/-- The first unit is either left out or that of the first group. -/
theorem readGroups_cons (hunits : AreUnits (unit :: units)) :
    readGroups fractions (unit :: units) cs = .ok (groups, rest) ↔
      readGroups fractions units cs = .ok (groups, rest) ∨
      ∃ (x : GroupText) (later : List Group) (mid : List Char), x.Allowed fractions unit ∧
        groups = x.group unit :: later ∧ cs = x.chars unit ++ mid ∧
        readGroups fractions units mid = .ok (later, rest) := by
  rw [readGroups_step hunits, readGroups_step hunits.tail]
  constructor
  · rintro (hnone | ⟨x, u, later, mid, ⟨hu, hallowed⟩, hgroups, hcs, hlater⟩)
    · exact Or.inl (Or.inl hnone)
    -- A later unit uses up the first one too, so behind it the same units are left with the first one and without.
    rcases List.mem_cons.mp hu with rfl | hu
    · rw [unitsAfter_self] at hlater
      exact Or.inr ⟨x, later, mid, hallowed, hgroups, hcs, hlater⟩
    · rw [unitsAfter_of_ne (hunits.ne_of_mem hu)] at hlater
      exact Or.inl (Or.inr ⟨x, u, later, mid, ⟨hu, hallowed⟩, hgroups, hcs, hlater⟩)
  · rintro ((hnone | ⟨x, u, later, mid, ⟨hu, hallowed⟩, hgroups, hcs, hlater⟩) |
      ⟨x, later, mid, hallowed, hgroups, hcs, hlater⟩)
    · exact Or.inl hnone
    · rw [← unitsAfter_of_ne (hunits.ne_of_mem hu)] at hlater
      exact Or.inr ⟨x, u, later, mid, ⟨List.mem_cons_of_mem _ hu, hallowed⟩, hgroups, hcs, hlater⟩
    · rw [← unitsAfter_self unit units] at hlater
      exact Or.inr ⟨x, unit, later, mid, ⟨List.mem_cons_self, hallowed⟩, hgroups, hcs, hlater⟩

theorem readGroups_nil : readGroups fractions [] cs = .ok (groups, rest) ↔
    groups = [] ∧ cs = rest ∧ Ends Char.isDigit rest := by
  rw [readGroups_step ⟨List.nodup_nil, nofun, nofun⟩, or_iff_left]
  rintro ⟨_, _, _, _, ⟨hu, -⟩, -⟩
  cases hu

/-- Groups are read up to where no digit follows. -/
theorem readGroups_eq_ok (hunits : AreUnits units) : readGroups fractions units cs = .ok (groups, rest) ↔
    ∃ taken, Taken fractions units groups taken ∧ cs = taken ++ rest ∧ Ends Char.isDigit rest := by
  induction units generalizing cs groups with
  | nil =>
    rw [readGroups_nil]
    constructor
    · rintro ⟨rfl, rfl, hends⟩
      exact ⟨[], .nil, rfl, hends⟩
    · rintro ⟨_, h, rfl, hends⟩
      cases h
      exact ⟨rfl, rfl, hends⟩
  | cons unit units ih =>
    rw [readGroups_cons hunits, ih hunits.tail]
    constructor
    · rintro (⟨taken, h, rfl, hends⟩ | ⟨x, later, mid, hallowed, rfl, rfl, hlater⟩)
      · exact ⟨taken, .leftOut h, rfl, hends⟩
      · obtain ⟨taken, h, rfl, hends⟩ := (ih hunits.tail).mp hlater
        exact ⟨x.chars unit ++ taken, .group x hallowed h, (List.append_assoc _ _ _).symm, hends⟩
    · rintro ⟨_, h, rfl, hends⟩
      cases h with
      | leftOut h => exact Or.inl ⟨_, h, rfl, hends⟩
      | group x hallowed h =>
        exact Or.inr ⟨x, _, _, hallowed, rfl, List.append_assoc _ _ _, (ih hunits.tail).mpr ⟨_, h, rfl, hends⟩⟩

end CivilTime.Iso8601
