/- Durations are read back from their texts. -/
import CivilTime.Iso8601.Writer
import CivilTime.Proofs.Iso8601.Wording

namespace CivilTime

open Text Text.Reader Iso8601

namespace Iso8601

namespace Group

/-- The group as it is written. -/
def chars (g : Group) : List Char := decimal g.count ++ Text.fraction g.fraction ++ [g.unit]

def isCounted (g : Group) : Bool := g.count != 0 || g.fraction != 0

theorem eq_zero_of_not_isCounted {g : Group} (h : ¬g.isCounted) : g.count = 0 ∧ g.fraction = 0 := by
  simpa [isCounted] using h

/-- The group can be read where fractions are allowed or not: its numbers are not too long, its unit is no
part of a number, and only seconds have a fraction. -/
structure Readable (fractions : Bool) (g : Group) : Prop where
  count_lt : g.count < 10 ^ 18
  fraction_lt : g.fraction < 10 ^ 9
  isDigit_unit : g.unit.isDigit = false
  unit_ne_dot : g.unit ≠ '.'
  fraction_ne : g.fraction ≠ 0 → fractions = true ∧ g.unit = 'S'

theorem Readable.ofCount {fractions : Bool} {n : Nat} {unit : Char} (hn : n < 10 ^ 18)
    (hdigit : unit.isDigit = false) (hdot : unit ≠ '.') : Readable fractions ⟨n, 0, unit⟩ :=
  ⟨hn, (by decide : 0 < 10 ^ 9), hdigit, hdot, fun h => absurd rfl h⟩

end Group

variable {fractions : Bool} {units : List Char} {g : Group} {rest : List Char}

/-- A group is written with a count and, if it has one, a fraction. -/
theorem Group.Readable.exists_text (hg : g.Readable fractions) :
    ∃ x : GroupText, x.Allowed fractions g.unit ∧ x.chars g.unit = g.chars ∧ x.group g.unit = g := by
  obtain ⟨fraction, hchars, hvalue⟩ := exists_fractionChars_eq hg.fraction_lt
  refine ⟨⟨.ofDecimal (by decide) hg.count_lt, fraction⟩, ?_, ?_, ?_⟩
  · intro hsome
    refine hg.fraction_ne fun h0 => ?_
    rw [h0] at hchars
    cases fraction with
    | none => cases hsome
    | some f => cases hchars
  · rw [GroupText.chars, hchars, Group.chars, List.append_assoc]
    rfl
  · rw [GroupText.group, DigitRun.value_ofDecimal, hvalue]

/-- Groups with units in order are taken as they come. -/
theorem taken_of_sublist {gs : List Group} (hgs : ∀ g ∈ gs, g.Readable fractions)
    (hunits : (gs.map Group.unit).Sublist units) : Taken fractions units gs (gs.flatMap Group.chars) := by
  -- Each group uses up its unit and those before it, so the groups vary with the units still to come.
  induction units generalizing gs with
  | nil =>
    rw [List.map_eq_nil_iff.mp (List.sublist_nil.mp hunits)]
    exact .nil
  | cons u units ih =>
    cases gs with
    | nil => exact .leftOut (ih nofun (List.nil_sublist _))
    | cons g gs =>
      cases hunits with
      | cons _ hlater => exact .leftOut (ih hgs hlater)
      | cons_cons _ hlater =>
        obtain ⟨x, hallowed, hchars, hgroup⟩ := (hgs g List.mem_cons_self).exists_text
        have htaken := Taken.group x hallowed (ih (fun g hg => hgs g (List.mem_cons_of_mem _ hg)) hlater)
        rwa [hchars, hgroup] at htaken

theorem readGroups_chars {gs : List Group} (hunits : AreUnits units) (hgs : ∀ g ∈ gs, g.Readable fractions)
    (horder : (gs.map Group.unit).Sublist units) (h : Ends Char.isDigit rest) :
    readGroups fractions units (gs.flatMap Group.chars ++ rest) = .ok (gs, rest) :=
  (readGroups_eq_ok hunits).mpr ⟨_, taken_of_sublist hgs horder, rfl, h⟩

/-- Groups before and, if there are any, after a `T`. -/
def partsChars (dateGroups clockGroups : List Group) : List Char :=
  dateGroups.flatMap Group.chars ++ if clockGroups = [] then [] else 'T' :: clockGroups.flatMap Group.chars

/-- Groups that a duration may consist of: their units come in order, and there is a group. -/
structure InOrder (dateGroups clockGroups : List Group) : Prop where
  date : ∀ g ∈ dateGroups, g.Readable false
  dateUnits : (dateGroups.map Group.unit).Sublist ['Y', 'M', 'D']
  clock : ∀ g ∈ clockGroups, g.Readable true
  clockUnits : (clockGroups.map Group.unit).Sublist ['H', 'M', 'S']
  ne_nil : dateGroups ≠ [] ∨ clockGroups ≠ []

theorem readParts_chars {dateGroups clockGroups : List Group} (hgroups : InOrder dateGroups clockGroups) :
    readParts (partsChars dateGroups clockGroups) = .ok ((dateGroups, clockGroups), []) := by
  have hdate {rest : List Char} (h : Ends Char.isDigit rest) :
      readGroups false ['Y', 'M', 'D'] (dateGroups.flatMap Group.chars ++ rest) = .ok (dateGroups, rest) :=
    readGroups_chars areUnits_date hgroups.date hgroups.dateUnits h
  unfold readParts partsChars
  by_cases h : clockGroups = []
  · rw [if_pos h, bind_of_ok (hdate (ends_nil _)), bind_of_ok (accept_of_ends (ends_nil _)), if_neg Bool.false_ne_true,
      if_neg (hgroups.ne_nil.resolve_right (not_not_intro h)), h]
    rfl
  · have hclock := of_append_nil (readGroups_chars areUnits_clock hgroups.clock hgroups.clockUnits (ends_nil _))
    rw [if_neg h, bind_of_ok (hdate (ends_cons rfl _)), bind_of_ok (accept_cons _ _), if_pos rfl, bind_of_ok hclock,
      if_neg h]
    rfl

/-- A sign, a `P` and groups. -/
def durationChars (negative : Bool) (dateGroups clockGroups : List Group) : List Char :=
  (if negative then ['-', 'P'] else ['P']) ++ partsChars dateGroups clockGroups

/-- Groups in order are read as the duration that they make, and refused if they make none. -/
theorem parse_durationChars {negative : Bool} {dateGroups clockGroups : List Group}
    (hgroups : InOrder dateGroups clockGroups) :
    (∀ d, durationOf negative dateGroups clockGroups = .ok d →
      Duration.parse (String.ofList (durationChars negative dateGroups clockGroups)) = .ok d) ∧
    ∀ f, durationOf negative dateGroups clockGroups = .error f →
      Fails (Duration.parse (String.ofList (durationChars negative dateGroups clockGroups))) .invalidFormat := by
  have hsign : accept ['-'] (durationChars negative dateGroups clockGroups) =
      .ok (negative, 'P' :: partsChars dateGroups clockGroups) := by
    cases negative with
    | true => exact accept_cons _ _
    | false => exact accept_of_ends (ends_cons rfl _)
  have hrun : (accept ['-'] >>= fun negative => expect ['P'] >>= fun _ => readParts >>= fun parts =>
      finish >>= fun _ => build (durationOf negative parts.1 parts.2) : Reader Duration)
      (durationChars negative dateGroups clockGroups) = build (durationOf negative dateGroups clockGroups) [] := by
    rw [bind_of_ok hsign, bind_of_ok (expect_cons _ _), bind_of_ok (readParts_chars hgroups)]
    exact bind_of_ok finish_nil
  constructor
  · intro d hd
    exact read_of_ok (hrun.trans (hd ▸ build_ok d []))
  · intro f hf
    exact fails_read_of_error (worded_duration _) (hrun.trans (hf ▸ build_error f []))

theorem countOf_cons_self (g : Group) (gs : List Group) : countOf g.unit (g :: gs) = g.count := by
  simp [countOf]

theorem countOf_cons_of_ne {unit : Char} (h : g.unit ≠ unit) (gs : List Group) :
    countOf unit (g :: gs) = countOf unit gs := by
  rw [countOf, List.find?_cons_of_neg (by simpa using h)]
  rfl

theorem countOf_of_notMem {unit : Char} {gs : List Group} (h : unit ∉ gs.map Group.unit) : countOf unit gs = 0 := by
  induction gs with
  | nil => rfl
  | cons g gs ih =>
    rw [List.map_cons, List.mem_cons, not_or] at h
    rw [countOf_cons_of_ne (Ne.symm h.1), ih h.2]

/-- The count of a unit is the same if groups that count nothing are left out. -/
theorem countOf_filter {gs : List Group} (hunits : (gs.map Group.unit).Nodup) (hg : g ∈ gs) :
    countOf g.unit (gs.filter Group.isCounted) = g.count := by
  induction gs with
  | nil => cases hg
  | cons a gs ih =>
    obtain ⟨hnotMem, hrest⟩ := List.nodup_cons.mp hunits
    by_cases ha : a.isCounted
    · rw [List.filter_cons_of_pos ha]
      rcases List.mem_cons.mp hg with rfl | hg
      · exact countOf_cons_self _ _
      · have hne : a.unit ≠ g.unit := fun he => hnotMem (he ▸ List.mem_map_of_mem hg)
        rw [countOf_cons_of_ne hne, ih hrest hg]
    · rw [List.filter_cons_of_neg ha]
      rcases List.mem_cons.mp hg with rfl | hg
      · rw [(Group.eq_zero_of_not_isCounted ha).1]
        refine countOf_of_notMem fun hm => ?_
        obtain ⟨b, hb, he⟩ := List.mem_map.mp hm
        exact hnotMem (he ▸ List.mem_map_of_mem (List.mem_filter.mp hb).1)
      · exact ih hrest hg

theorem fractionOf_filter (gs : List Group) : fractionOf (gs.filter Group.isCounted) = fractionOf gs := by
  induction gs with
  | nil => rfl
  | cons g gs ih =>
    by_cases hg : g.isCounted
    · rw [List.filter_cons_of_pos hg]
      exact congrArg (g.fraction + ·) ih
    · have h0 := (Group.eq_zero_of_not_isCounted hg).2
      rw [List.filter_cons_of_neg hg, ih]
      show _ = g.fraction + fractionOf gs
      rw [h0, Nat.zero_add]

end Iso8601

namespace Duration

/-- Years, months and days to be written. -/
def dateGroups (d : Duration) : List Group :=
  [⟨d.months.natAbs / 12, 0, 'Y'⟩, ⟨d.months.natAbs % 12, 0, 'M'⟩, ⟨d.days.natAbs, 0, 'D'⟩]

/-- Hours, minutes and seconds to be written. -/
def clockGroups (d : Duration) : List Group :=
  [⟨d.nanos.natAbs / 3600000000000, 0, 'H'⟩, ⟨d.nanos.natAbs % 3600000000000 / 60000000000, 0, 'M'⟩,
    ⟨d.nanos.natAbs % 60000000000 / 1000000000, d.nanos.natAbs % 1000000000, 'S'⟩]

/-- The groups after the `T`. The empty duration is written as no seconds. -/
def writtenClock (d : Duration) : List Group :=
  if d.isZero then [⟨0, 0, 'S'⟩] else d.clockGroups.filter Group.isCounted

theorem flatMap_filter_cons (g : Group) (gs : List Group) :
    ((g :: gs).filter Group.isCounted).flatMap Group.chars =
      (if g.isCounted then g.chars else []) ++ (gs.filter Group.isCounted).flatMap Group.chars := by
  rw [List.filter_cons]
  split <;> rfl

theorem unitChars_eq_group (n : Nat) (unit : Char) :
    unitChars n unit = if (⟨n, 0, unit⟩ : Group).isCounted then Group.chars ⟨n, 0, unit⟩ else [] := by
  by_cases h : n = 0
  · simp [unitChars, Group.isCounted, h]
  · simp [unitChars, Group.isCounted, Group.chars, Text.fraction, h]

theorem secondChars_eq_group (seconds nanos : Nat) : secondChars seconds nanos =
    if (⟨seconds, nanos, 'S'⟩ : Group).isCounted then Group.chars ⟨seconds, nanos, 'S'⟩ else [] := by
  by_cases h : seconds = 0 ∧ nanos = 0
  · simp [secondChars, Group.isCounted, h]
  · have hcounted : (⟨seconds, nanos, 'S'⟩ : Group).isCounted = true := by
      simp only [Group.isCounted, Bool.or_eq_true, bne_iff_ne]
      omega
    rw [secondChars, if_neg h, if_pos hcounted]
    rfl

theorem flatMap_dateGroups (d : Duration) : (d.dateGroups.filter Group.isCounted).flatMap Group.chars =
    unitChars (d.months.natAbs / 12) 'Y' ++ unitChars (d.months.natAbs % 12) 'M'
      ++ unitChars d.days.natAbs 'D' := by
  simp only [dateGroups, flatMap_filter_cons, ← unitChars_eq_group, List.filter_nil, List.flatMap_nil,
    List.append_nil, List.append_assoc]

theorem flatMap_clockGroups (d : Duration) : (d.clockGroups.filter Group.isCounted).flatMap Group.chars =
    unitChars (d.nanos.natAbs / 3600000000000) 'H'
      ++ unitChars (d.nanos.natAbs % 3600000000000 / 60000000000) 'M'
      ++ secondChars (d.nanos.natAbs % 60000000000 / 1000000000) (d.nanos.natAbs % 1000000000) := by
  simp only [clockGroups, flatMap_filter_cons, ← unitChars_eq_group, ← secondChars_eq_group, List.filter_nil,
    List.flatMap_nil, List.append_nil, List.append_assoc]

theorem filter_dateGroups_eq_nil (d : Duration) :
    d.dateGroups.filter Group.isCounted = [] ↔ d.months = 0 ∧ d.days = 0 := by
  simp only [dateGroups, List.filter_eq_nil_iff, List.mem_cons, List.not_mem_nil, or_false, Group.isCounted,
    Bool.or_eq_true, bne_iff_ne, ne_eq, not_or, Decidable.not_not, forall_eq_or_imp, forall_eq,
    and_true]
  omega

theorem filter_clockGroups_eq_nil (d : Duration) :
    d.clockGroups.filter Group.isCounted = [] ↔ d.nanos.natAbs = 0 := by
  simp only [clockGroups, List.filter_eq_nil_iff, List.mem_cons, List.not_mem_nil, or_false, Group.isCounted,
    Bool.or_eq_true, bne_iff_ne, ne_eq, not_or, Decidable.not_not, forall_eq_or_imp, forall_eq,
    and_true]
  omega

theorem eq_zero_of_isZero {d : Duration} (h : d.isZero) : d = zero := by
  simp only [isZero, Bool.and_eq_true, beq_iff_eq] at h
  exact ext_parts h.1.1 h.1.2 h.2

theorem chars_eq_durationChars (d : Duration) :
    d.chars = durationChars d.isNegative (d.dateGroups.filter Group.isCounted) d.writtenClock := by
  by_cases h0 : d.isZero
  · rw [eq_zero_of_isZero h0]
    rfl
  · simp only [chars, durationChars, writtenClock, partsChars, if_neg h0, flatMap_dateGroups, flatMap_clockGroups,
      filter_clockGroups_eq_nil, List.append_assoc, List.cons_append]

theorem readable_dateGroups (d : Duration) : ∀ g ∈ d.dateGroups, g.Readable false := by
  have hm := d.bounded.1
  have hd := d.bounded.2.1
  simp only [maxMonths, maxDays] at hm hd
  simp only [dateGroups, List.forall_mem_cons]
  exact ⟨.ofCount (by omega) rfl (by decide), .ofCount (by omega) rfl (by decide),
    .ofCount (by omega) rfl (by decide), nofun⟩

theorem readable_clockGroups (d : Duration) : ∀ g ∈ d.clockGroups, g.Readable true := by
  have hn := d.bounded.2.2
  simp only [maxNanos, maxDays, nanosPerDay] at hn
  simp only [clockGroups, List.forall_mem_cons]
  refine ⟨.ofCount (by omega) rfl (by decide), .ofCount (by omega) rfl (by decide), ?_, nofun⟩
  exact ⟨by simp only; omega, by simp only; omega, rfl, by simp only; decide, fun _ => ⟨rfl, rfl⟩⟩

theorem inOrder_groups (d : Duration) : InOrder (d.dateGroups.filter Group.isCounted) d.writtenClock where
  date g hg := d.readable_dateGroups g (List.mem_filter.mp hg).1
  dateUnits := List.filter_sublist.map Group.unit
  clock g hg := by
    unfold writtenClock at hg
    split at hg
    · rw [List.mem_singleton.mp hg]
      exact .ofCount (by decide) rfl (by decide)
    · exact d.readable_clockGroups g (List.mem_filter.mp hg).1
  clockUnits := by
    unfold writtenClock
    split
    · decide
    · exact List.filter_sublist.map Group.unit
  ne_nil := by
    by_cases h0 : d.isZero
    · refine Or.inr ?_
      rw [writtenClock, if_pos h0]
      exact List.cons_ne_nil _ _
    · rw [writtenClock, if_neg h0, Ne, Ne, filter_dateGroups_eq_nil, filter_clockGroups_eq_nil]
      simp only [isZero, Bool.and_eq_true, beq_iff_eq] at h0
      omega

/-- The counts of the groups, with the sign, make the duration again. -/
theorem durationOf_groups (d : Duration) :
    durationOf d.isNegative (d.dateGroups.filter Group.isCounted) d.writtenClock = .ok d := by
  by_cases h0 : d.isZero
  · rw [eq_zero_of_isZero h0]
    rfl
  have hdate (g : Group) (hg : g ∈ d.dateGroups) :
      countOf g.unit (d.dateGroups.filter Group.isCounted) = g.count := countOf_filter (by simp [dateGroups]) hg
  have hclock (g : Group) (hg : g ∈ d.clockGroups) :
      countOf g.unit (d.clockGroups.filter Group.isCounted) = g.count := countOf_filter (by simp [clockGroups]) hg
  -- Every unit has one group, so what was left out was zero.
  have hy : countOf 'Y' _ = _ := hdate _ (.head _)
  have hm : countOf 'M' _ = _ := hdate _ (.tail _ (.head _))
  have hd : countOf 'D' _ = _ := hdate _ (.tail _ (.tail _ (.head _)))
  have hh : countOf 'H' _ = _ := hclock _ (.head _)
  have hmin : countOf 'M' _ = _ := hclock _ (.tail _ (.head _))
  have hs : countOf 'S' _ = _ := hclock _ (.tail _ (.tail _ (.head _)))
  have hf : fractionOf (d.clockGroups.filter Group.isCounted) = d.nanos.natAbs % 1000000000 :=
    (fractionOf_filter d.clockGroups).trans (by simp [fractionOf, clockGroups])
  have hsign := d.oneSign
  simp only [OneSign] at hsign
  rw [writtenClock, if_neg h0, durationOf, hy, hm, hd, hh, hmin, hs, hf]
  simp only [isNegative, decide_eq_true_eq, nanosPerHour, nanosPerMinute, nanosPerSecond]
  refine ofParts_eq_ok.mpr ⟨?_, ?_, ?_⟩
  all_goals
    split <;> omega

theorem parse_text (d : Duration) : Duration.parse d.text = .ok d := by
  rw [text, d.chars_eq_durationChars]
  exact (parse_durationChars d.inOrder_groups).1 d d.durationOf_groups

end Duration

end CivilTime
