/- Durations are accepted if they are of the form and come to totals in range, and the value has these totals. -/
import CivilTime.Proofs.Iso8601.Wording
import CivilTime.Proofs.Outcome

namespace CivilTime

namespace Iso8601

open Text Text.Reader

def countChars (unit : Char) : Option (DigitRun 1 18) → List Char
  | none => []
  | some n => n.chars ++ [unit]

def countGroups (unit : Char) : Option (DigitRun 1 18) → List Group
  | none => []
  | some n => [⟨n.value, 0, unit⟩]

def secondsChars : Option GroupText → List Char
  | none => []
  | some x => x.chars 'S'

def secondsGroups : Option GroupText → List Group
  | none => []
  | some x => [x.group 'S']

namespace Taken

variable {fractions : Bool} {unit : Char} {units cs : List Char} {groups : List Group}

/-- Of other units than seconds there is a whole count or none. -/
theorem cons_iff_of_whole (hwhole : ¬(fractions = true ∧ unit = 'S')) : Taken fractions (unit :: units) groups cs ↔
    ∃ (n : Option (DigitRun 1 18)) (later : List Group) (mid : List Char), Taken fractions units later mid ∧
      groups = countGroups unit n ++ later ∧ cs = countChars unit n ++ mid := by
  constructor
  · intro h
    cases h with
    | leftOut h => exact ⟨none, _, _, h, rfl, rfl⟩
    | group x hallowed h =>
      obtain ⟨count, fraction⟩ := x
      cases fraction with
      | none => exact ⟨some count, _, _, h, rfl, rfl⟩
      | some f => exact absurd (hallowed rfl) hwhole
  · rintro ⟨n, later, mid, h, rfl, rfl⟩
    cases n with
    | none => exact .leftOut h
    | some n => exact .group ⟨n, none⟩ nofun h

theorem nil_iff : Taken fractions [] groups cs ↔ groups = [] ∧ cs = [] := by
  constructor
  · intro h
    cases h
    exact ⟨rfl, rfl⟩
  · rintro ⟨rfl, rfl⟩
    exact .nil

theorem seconds_iff : Taken true ['S'] groups cs ↔
    ∃ s : Option GroupText, groups = secondsGroups s ∧ cs = secondsChars s := by
  constructor
  · intro h
    cases h with
    | leftOut h =>
      obtain ⟨rfl, rfl⟩ := nil_iff.mp h
      exact ⟨none, rfl, rfl⟩
    | group x hallowed h =>
      obtain ⟨rfl, rfl⟩ := nil_iff.mp h
      exact ⟨some x, rfl, List.append_nil _⟩
  · rintro ⟨s, rfl, rfl⟩
    cases s with
    | none => exact .leftOut .nil
    | some x =>
      have h : Taken true ['S'] [x.group 'S'] (x.chars 'S' ++ []) := .group x (fun _ => ⟨rfl, rfl⟩) .nil
      rwa [List.append_nil] at h

end Taken

/-- A sign and counts of years, months, days, hours and minutes, and of seconds with a fraction. Any of them may be
left out. -/
structure DurationText where
  negative : Bool
  years : Option (DigitRun 1 18)
  months : Option (DigitRun 1 18)
  days : Option (DigitRun 1 18)
  hours : Option (DigitRun 1 18)
  minutes : Option (DigitRun 1 18)
  seconds : Option GroupText

namespace DurationText

def dateGroups (x : DurationText) : List Group :=
  countGroups 'Y' x.years ++ (countGroups 'M' x.months ++ countGroups 'D' x.days)

def clockGroups (x : DurationText) : List Group :=
  countGroups 'H' x.hours ++ (countGroups 'M' x.minutes ++ secondsGroups x.seconds)

def dateChars (x : DurationText) : List Char :=
  countChars 'Y' x.years ++ (countChars 'M' x.months ++ countChars 'D' x.days)

def clockChars (x : DurationText) : List Char :=
  countChars 'H' x.hours ++ (countChars 'M' x.minutes ++ secondsChars x.seconds)

def hasDate (x : DurationText) : Bool := x.years.isSome || x.months.isSome || x.days.isSome

def hasClock (x : DurationText) : Bool := x.hours.isSome || x.minutes.isSome || x.seconds.isSome

/-- A `T` stands before hours, minutes and seconds if there are any. -/
def partsChars (x : DurationText) : List Char :=
  x.dateChars ++ if x.hasClock then 'T' :: x.clockChars else []

def chars (x : DurationText) : List Char := (if x.negative then ['-'] else []) ++ 'P' :: x.partsChars

def text (x : DurationText) : String := String.ofList x.chars

def countValue (n : Option (DigitRun 1 18)) : Nat := (n.map DigitRun.value).getD 0

/-- Whole seconds and the nanoseconds of their fraction. -/
def secondsNanos : Option GroupText → Int
  | none => 0
  | some x => x.count.value * nanosPerSecond + fractionBillionths x.fraction

def sign (x : DurationText) : Int := if x.negative then -1 else 1

def totalMonths (x : DurationText) : Int := x.sign * (12 * countValue x.years + countValue x.months)

def totalDays (x : DurationText) : Int := x.sign * countValue x.days

def totalNanos (x : DurationText) : Int :=
  x.sign * (countValue x.hours * nanosPerHour + countValue x.minutes * nanosPerMinute + secondsNanos x.seconds)

/-- The value has the totals of what is written. -/
def Denotes (x : DurationText) (d : Duration) : Prop :=
  d.months = x.totalMonths ∧ d.days = x.totalDays ∧ d.nanos = x.totalNanos

/-- Something is counted, and the totals are in range. -/
structure Valid (x : DurationText) : Prop where
  counts : x.hasDate = true ∨ x.hasClock = true
  bounded : Duration.Bounded x.totalMonths x.totalDays x.totalNanos

variable {x : DurationText} {d : Duration}

theorem countValue_nonneg (n : Option (DigitRun 1 18)) : (0 : Int) ≤ countValue n := Int.natCast_nonneg _

theorem secondsNanos_nonneg (s : Option GroupText) : 0 ≤ secondsNanos s := by
  cases s with
  | none => decide
  | some x =>
    simp only [secondsNanos, nanosPerSecond]
    omega

theorem oneSign (x : DurationText) : Duration.OneSign x.totalMonths x.totalDays x.totalNanos := by
  have hy := countValue_nonneg x.years
  have hm := countValue_nonneg x.months
  have hd := countValue_nonneg x.days
  have hh := countValue_nonneg x.hours
  have hmin := countValue_nonneg x.minutes
  have hs := secondsNanos_nonneg x.seconds
  simp only [Duration.OneSign, totalMonths, totalDays, totalNanos, sign, nanosPerHour, nanosPerMinute]
  split <;> omega

/-- The totals make a duration if they are in range. -/
theorem exists_denotes_iff : (∃ d, x.Denotes d) ↔ Duration.Bounded x.totalMonths x.totalDays x.totalNanos := by
  constructor
  · rintro ⟨d, hmonths, hdays, hnanos⟩
    rw [← hmonths, ← hdays, ← hnanos]
    exact d.bounded
  · intro h
    exact ⟨⟨_, _, _, x.oneSign, h⟩, rfl, rfl, rfl⟩

theorem countOf_dateGroups (x : DurationText) : countOf 'Y' x.dateGroups = countValue x.years ∧
    countOf 'M' x.dateGroups = countValue x.months ∧ countOf 'D' x.dateGroups = countValue x.days := by
  unfold dateGroups
  cases x.years <;> cases x.months <;> cases x.days <;> exact ⟨rfl, rfl, rfl⟩

theorem countOf_clockGroups (x : DurationText) : countOf 'H' x.clockGroups = countValue x.hours ∧
    countOf 'M' x.clockGroups = countValue x.minutes ∧
    (countOf 'S' x.clockGroups * nanosPerSecond + fractionOf x.clockGroups : Int) = secondsNanos x.seconds := by
  unfold clockGroups
  cases x.hours <;> cases x.minutes <;> cases x.seconds <;> refine ⟨rfl, rfl, ?_⟩ <;>
    simp [countOf, fractionOf, countGroups, secondsGroups, secondsNanos, GroupText.group]

theorem durationOf_eq_ok : durationOf x.negative x.dateGroups x.clockGroups = .ok d ↔ x.Denotes d := by
  obtain ⟨hyears, hmonths, hdays⟩ := x.countOf_dateGroups
  obtain ⟨hhours, hminutes, hseconds⟩ := x.countOf_clockGroups
  unfold durationOf
  rw [hyears, hmonths, hdays, hhours, hminutes, Int.add_assoc, hseconds, Duration.ofParts_eq_ok, Int.mul_comm _ 12]
  exact Iff.rfl

theorem dateGroups_ne_nil_iff : x.dateGroups ≠ [] ↔ x.hasDate = true := by
  unfold dateGroups hasDate
  cases x.years <;> cases x.months <;> cases x.days <;> simp [countGroups]

theorem clockGroups_ne_nil_iff : x.clockGroups ≠ [] ↔ x.hasClock = true := by
  unfold clockGroups hasClock
  cases x.hours <;> cases x.minutes <;> cases x.seconds <;> simp [countGroups, secondsGroups]

end DurationText

variable {cs rest : List Char} {groups : List Group}

theorem readDateGroups_eq_ok : readGroups false ['Y', 'M', 'D'] cs = .ok (groups, rest) ↔
    ∃ years months days : Option (DigitRun 1 18),
      groups = countGroups 'Y' years ++ (countGroups 'M' months ++ countGroups 'D' days) ∧
      cs = countChars 'Y' years ++ (countChars 'M' months ++ countChars 'D' days) ++ rest ∧ Ends Char.isDigit rest := by
  have hwhole {unit : Char} : ¬(false = true ∧ unit = 'S') := fun h => Bool.false_ne_true h.1
  rw [readGroups_eq_ok areUnits_date]
  simp only [Taken.cons_iff_of_whole hwhole, Taken.nil_iff]
  constructor
  · rintro ⟨_, ⟨y, _, _, ⟨m, _, _, ⟨d, _, _, ⟨rfl, rfl⟩, rfl, rfl⟩, rfl, rfl⟩, rfl, rfl⟩, rfl, hends⟩
    exact ⟨y, m, d, by rw [List.append_nil], by rw [List.append_nil], hends⟩
  · rintro ⟨y, m, d, rfl, rfl, hends⟩
    have hdays : countGroups 'D' d = countGroups 'D' d ++ [] ∧ countChars 'D' d = countChars 'D' d ++ [] :=
      ⟨(List.append_nil _).symm, (List.append_nil _).symm⟩
    exact ⟨_, ⟨y, _, _, ⟨m, _, _, ⟨d, [], [], ⟨rfl, rfl⟩, hdays⟩, rfl, rfl⟩, rfl, rfl⟩, rfl, hends⟩

theorem readClockGroups_eq_ok : readGroups true ['H', 'M', 'S'] cs = .ok (groups, rest) ↔
    ∃ (hours minutes : Option (DigitRun 1 18)) (seconds : Option GroupText),
      groups = countGroups 'H' hours ++ (countGroups 'M' minutes ++ secondsGroups seconds) ∧
      cs = countChars 'H' hours ++ (countChars 'M' minutes ++ secondsChars seconds) ++ rest ∧
      Ends Char.isDigit rest := by
  have hhours : ¬(true = true ∧ 'H' = 'S') := by decide
  have hminutes : ¬(true = true ∧ 'M' = 'S') := by decide
  rw [readGroups_eq_ok areUnits_clock]
  simp only [Taken.cons_iff_of_whole hhours, Taken.cons_iff_of_whole hminutes, Taken.seconds_iff]
  constructor
  · rintro ⟨_, ⟨h, _, _, ⟨m, _, _, ⟨s, rfl, rfl⟩, rfl, rfl⟩, rfl, rfl⟩, rfl, hends⟩
    exact ⟨h, m, s, rfl, rfl, hends⟩
  · rintro ⟨h, m, s, rfl, rfl, hends⟩
    exact ⟨_, ⟨h, _, _, ⟨m, _, _, ⟨s, rfl, rfl⟩, rfl, rfl⟩, rfl, rfl⟩, rfl, hends⟩

/-- The whole of a text is read as groups before and after a `T`. -/
theorem readParts_eq_ok (negative : Bool) {parts : List Group × List Group} : readParts cs = .ok (parts, []) ↔
    ∃ x : DurationText, x.negative = negative ∧ (x.hasDate = true ∨ x.hasClock = true) ∧ cs = x.partsChars ∧
      (x.dateGroups, x.clockGroups) = parts := by
  unfold readParts
  constructor
  · intro h
    obtain ⟨_, _, hdate, hafter⟩ := bind_run_eq_ok.mp h
    obtain ⟨years, months, days, rfl, rfl, -⟩ := readDateGroups_eq_ok.mp hdate
    obtain ⟨_, _, hmark, hparts⟩ := bind_run_eq_ok.mp hafter
    rcases accept_eq_ok.mp hmark with ⟨rfl, rfl⟩ | ⟨rfl, -, rfl⟩
    · obtain ⟨_, _, hclock, hcounts⟩ := bind_run_eq_ok.mp hparts
      obtain ⟨hours, minutes, seconds, rfl, rfl, -⟩ := readClockGroups_eq_ok.mp hclock
      let x : DurationText := ⟨negative, years, months, days, hours, minutes, seconds⟩
      split at hcounts
      · cases hcounts
      · rename_i hne
        cases hcounts
        have hx : x.hasClock = true := x.clockGroups_ne_nil_iff.mp hne
        refine ⟨x, rfl, Or.inr hx, ?_, rfl⟩
        rw [DurationText.partsChars, if_pos hx, List.append_nil]
        rfl
    -- Without a `T` the text is over, and something must have been counted by then.
    · let x : DurationText := ⟨negative, years, months, days, none, none, none⟩
      rw [if_neg Bool.false_ne_true] at hparts
      split at hparts
      · cases hparts
      · rename_i hne
        cases hparts
        exact ⟨x, rfl, Or.inl (x.dateGroups_ne_nil_iff.mp hne), rfl, rfl⟩
  · rintro ⟨x, rfl, hcounts, rfl, rfl⟩
    have hdate {rest : List Char} (hends : Ends Char.isDigit rest) :
        readGroups false ['Y', 'M', 'D'] (x.dateChars ++ rest) = .ok (x.dateGroups, rest) :=
      readDateGroups_eq_ok.mpr ⟨x.years, x.months, x.days, rfl, rfl, hends⟩
    have hclock : readGroups true ['H', 'M', 'S'] x.clockChars = .ok (x.clockGroups, []) :=
      readClockGroups_eq_ok.mpr ⟨x.hours, x.minutes, x.seconds, rfl, (List.append_nil _).symm, ends_nil _⟩
    by_cases hx : x.hasClock = true
    · rw [DurationText.partsChars, if_pos hx, bind_of_ok (hdate (ends_cons rfl _)), bind_of_ok (accept_cons _ _),
        if_pos rfl, bind_of_ok hclock, if_neg (x.clockGroups_ne_nil_iff.mpr hx)]
      rfl
    · have hnone : x.clockGroups = [] := Decidable.not_not.mp fun hne => hx (x.clockGroups_ne_nil_iff.mp hne)
      rw [DurationText.partsChars, if_neg hx, bind_of_ok (hdate (ends_nil _)), bind_of_ok (accept_of_ends (ends_nil _)),
        if_neg Bool.false_ne_true, if_neg (x.dateGroups_ne_nil_iff.mpr (hcounts.resolve_right hx)), hnone]
      rfl

end Iso8601

namespace Duration

open Text Text.Reader Iso8601

variable {text : String} {d : Duration}

theorem parse_eq_ok : Duration.parse text = .ok d ↔ ∃ x : DurationText, x.Valid ∧ text = x.text ∧ x.Denotes d := by
  unfold Duration.parse
  simp only [read_eq_ok, bind_run_eq_ok, accept_eq_ok, expect_eq_ok, finish_eq_ok, build_eq_ok]
  constructor
  · rintro ⟨_, negative, _, hsign, _, _, rfl, ⟨dateGroups, clockGroups⟩, _, hparts, _, _, ⟨rfl, rfl⟩, hmade, rfl⟩
    obtain ⟨x, rfl, hcounts, rfl, hgroups⟩ := (readParts_eq_ok negative).mp hparts
    cases hgroups
    have hd := DurationText.durationOf_eq_ok.mp hmade
    refine ⟨x, ⟨hcounts, DurationText.exists_denotes_iff.mp ⟨d, hd⟩⟩, ?_, hd⟩
    rw [DurationText.text, DurationText.chars, ← String.ofList_toList (s := text)]
    rcases hsign with ⟨hx, htext⟩ | ⟨hx, -, htext⟩
    · rw [htext, if_pos hx]
      rfl
    · rw [htext, if_neg (hx ▸ Bool.false_ne_true)]
      rfl
  · rintro ⟨x, hx, rfl, hd⟩
    have hparts := (readParts_eq_ok x.negative).mpr ⟨x, rfl, hx.counts, rfl, rfl⟩
    refine ⟨[], x.negative, 'P' :: x.partsChars, ?_, (), _, rfl, _, [], hparts, (), [], ⟨rfl, rfl⟩,
      DurationText.durationOf_eq_ok.mpr hd, rfl⟩
    rw [DurationText.text, String.toList_ofList, DurationText.chars]
    cases x.negative with
    | true => exact Or.inl ⟨rfl, rfl⟩
    | false => exact Or.inr ⟨rfl, ends_cons rfl _, rfl⟩

theorem exists_parse_iff : (∃ d, Duration.parse text = .ok d) ↔ ∃ x : DurationText, x.Valid ∧ text = x.text := by
  constructor
  · rintro ⟨d, h⟩
    obtain ⟨x, hx, htext, -⟩ := parse_eq_ok.mp h
    exact ⟨x, hx, htext⟩
  · rintro ⟨x, hx, htext⟩
    obtain ⟨d, hd⟩ := DurationText.exists_denotes_iff.mpr hx.bounded
    exact ⟨d, parse_eq_ok.mpr ⟨x, hx, htext, hd⟩⟩

/-- A text is accepted if it is a `P` with counts of years, months and days behind it, and behind a `T` of hours,
minutes and seconds, each at most once and in this order, and something is counted. Counts have up to eighteen digits,
only seconds have a fraction, of up to nine digits, and a minus before the `P` holds for all of them. The totals have to
be in range and are those of the value. Any other text is refused as not being of the form. -/
theorem parse_accepts_units_in_order :
    (∀ text d, Duration.parse text = .ok d ↔ ∃ x : DurationText, x.Valid ∧ text = x.text ∧ x.Denotes d) ∧
    (∀ text, (∃ d, Duration.parse text = .ok d) ↔ ∃ x : DurationText, x.Valid ∧ text = x.text) ∧
    ∀ text, (∀ x : DurationText, x.Valid → text ≠ x.text) → Fails (Duration.parse text) .invalidFormat := by
  refine ⟨fun _ _ => parse_eq_ok, fun _ => exists_parse_iff, fun text htext =>
    fails_of_ne_ok (fun _ => parse_error_kind) fun d hd => ?_⟩
  obtain ⟨x, hx, htext'⟩ := exists_parse_iff.mp ⟨d, hd⟩
  exact htext x hx htext'

/-- Two years and three months and a little more than two hours back. Nothing at all is no duration. -/
theorem parse_accepts_years_and_hours :
    let two : DigitRun 1 18 := .ofChars ['2'] rfl (by decide) (by decide)
    let three : DigitRun 1 18 := .ofChars ['0', '3'] rfl (by decide) (by decide)
    let fraction : DigitRun 1 9 := .ofChars ['6', '0'] rfl (by decide) (by decide)
    let x : DurationText := ⟨true, some two, some three, none, some two, none, some ⟨three, some fraction⟩⟩
    x.text = "-P2Y03MT2H03.60S" ∧ x.Valid ∧
      (∃ d, Duration.parse x.text = .ok d ∧ d.months = -27 ∧ d.days = 0 ∧ d.nanos = -7203600000000) ∧
      Fails (Duration.parse "") .invalidFormat := by
  intro two three fraction x
  obtain ⟨hvalue, -, hrefused⟩ := parse_accepts_units_in_order
  have hx : x.Valid := ⟨Or.inl rfl, by decide⟩
  have hparse := (hvalue x.text ⟨-27, 0, -7203600000000, by decide, by decide⟩).mpr
    ⟨x, hx, rfl, by decide, by decide, by decide⟩
  refine ⟨rfl, hx, ⟨_, hparse, rfl, rfl, rfl⟩, hrefused "" ?_⟩
  intro y _ hy
  have hchars : y.chars = [] := String.toList_ofList.symm.trans (congrArg String.toList hy.symm)
  exact absurd hchars (List.append_ne_nil_of_right_ne_nil _ (List.cons_ne_nil _ _))

end Duration

end CivilTime
