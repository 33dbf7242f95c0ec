/- Fields have few digits, so a complaint about a date, a time, an offset or a duration that has been read can always be
written out, and the text is refused as not being of the form. -/
import CivilTime.OffsetDateTime.Operations
import CivilTime.Proofs.Duration
import CivilTime.Proofs.Iso8601.Forms
import CivilTime.Proofs.Iso8601.Groups

namespace CivilTime

open Text Text.Reader Iso8601

/-! What is made from fields names one of them where it is refused. -/

section
variable {f : Fault}

theorem Date.ofYmd_writable {year month day : Int} (hyear : Writable year) (hmonth : Writable month)
    (hday : Writable day) (h : ofYmd year month day = .error f) : ∀ n ∈ f.shown, Writable n := by
  rcases bind_eq_error.mp h with h | ⟨x, -, h⟩
  · rcases bind_eq_error.mp h with h | ⟨⟨⟩, -, h⟩
    · rw [(check_eq_error.mp h).2]
      exact List.forall_mem_singleton.mpr hyear
    rcases bind_eq_error.mp h with h | ⟨⟨⟩, -, h⟩
    · rw [(check_eq_error.mp h).2]
      exact List.forall_mem_singleton.mpr hmonth
    rcases bind_eq_error.mp h with h | ⟨⟨⟩, -, h⟩
    · rw [(check_eq_error.mp h).2]
      simp only [Fault.shown, List.forall_mem_cons, hyear, hmonth, hday, true_and]
      exact List.forall_mem_nil _
    · cases h
  · rw [Calendar.dateAt_error h]
    exact List.forall_mem_nil _

theorem TimeOfDay.ofClock_writable {hour minute second nanosecond : Int} (hhour : Writable hour)
    (hminute : Writable minute) (hsecond : Writable second) (hnanosecond : Writable nanosecond)
    (h : ofClock hour minute second nanosecond = .error f) : ∀ n ∈ f.shown, Writable n := by
  rcases bind_eq_error.mp h with h | ⟨⟨⟩, hhour', h⟩
  · rw [(check_eq_error.mp h).2]
    exact List.forall_mem_singleton.mpr hhour
  rcases bind_eq_error.mp h with h | ⟨⟨⟩, hminute', h⟩
  · rw [(check_eq_error.mp h).2]
    exact List.forall_mem_singleton.mpr hminute
  rcases bind_eq_error.mp h with h | ⟨⟨⟩, hsecond', h⟩
  · rw [(check_eq_error.mp h).2]
    exact List.forall_mem_singleton.mpr hsecond
  rcases bind_eq_error.mp h with h | ⟨⟨⟩, hnanosecond', h⟩
  · rw [(check_eq_error.mp h).2]
    exact List.forall_mem_singleton.mpr hnanosecond
  -- Fields that pass make a time, so nothing is refused behind them.
  · obtain ⟨t, ht⟩ := exists_fields_eq_iff.mpr
      ⟨check_eq_ok.mp hhour', check_eq_ok.mp hminute', check_eq_ok.mp hsecond', check_eq_ok.mp hnanosecond'⟩
    have hnanos : t.nanos = nanosOfClock hour minute second nanosecond := by
      rw [t.nanos_eq_fields, ht.1, ht.2.1, ht.2.2.1, ht.2.2.2]
      rfl
    rw [ofNanos_eq_ok.mpr hnanos] at h
    cases h

theorem Offset.ofSeconds_writable {seconds : Int} (hseconds : Writable seconds) (h : ofSeconds seconds = .error f) :
    ∀ n ∈ f.shown, Writable n := by
  unfold ofSeconds at h
  split at h
  · cases h
  · cases h
    exact List.forall_mem_singleton.mpr hseconds

theorem OffsetDateTime.of_writable {wall : LocalDateTime} {o : Offset} (h : of wall o = .error f) :
    ∀ n ∈ f.shown, Writable n := by
  unfold of at h
  split at h
  · cases h
  · cases h
    exact List.forall_mem_singleton.mpr (wall.writable_sub_offset o)

end

namespace Iso8601

theorem writable_value {least most : Nat} (x : DigitRun least most) (h : most ≤ 18) : Writable x.value := by
  have hlt := x.value_lt
  have hle : 10 ^ most ≤ 10 ^ 18 := Nat.pow_le_pow_right (by decide) h
  exact writable_of_natAbs_le (by omega)

variable {f : Fault}

theorem dateOf_writable (x : DateText) (h : dateOf x.fields = .error f) : ∀ n ∈ f.shown, Writable n :=
  Date.ofYmd_writable (writable_value x.year (by decide)) (writable_value x.month (by decide))
    (writable_value x.day (by decide)) h

theorem timeOf_writable (x : ClockText) (h : timeOf x.fields = .error f) : ∀ n ∈ f.shown, Writable n := by
  have hfraction := fractionBillionths_lt x.fraction
  have hnanosecond : Writable x.nanosecond := by
    refine writable_of_natAbs_le ?_
    rw [ClockText.nanosecond]
    omega
  exact TimeOfDay.ofClock_writable (writable_value x.hour (by decide)) (writable_value x.minute (by decide))
    (writable_value x.second (by decide)) hnanosecond h

theorem localOf_writable (x : DateText) (y : ClockText) (h : localOf x.fields y.fields = .error f) :
    ∀ n ∈ f.shown, Writable n := by
  rcases bind_eq_error.mp h with h | ⟨d, -, h⟩
  · exact dateOf_writable x h
  rcases bind_eq_error.mp h with h | ⟨t, -, h⟩
  · exact timeOf_writable y h
  · cases h

theorem OffsetText.InRange.writable_total {x : OffsetText} (h : x.InRange) : Writable x.total := by
  have hbounds := h.total_bounds
  simp only [secondsPerDay] at hbounds
  exact writable_of_natAbs_le (by omega)

/-! Readers of fields stop where the form is not met. -/

theorem worded_readDate (cs : List Char) : Worded readDate cs := by
  refine (worded_digits 4 "year" cs).bind fun _ cs _ => (worded_expect _ cs).bind fun _ cs _ => ?_
  refine (worded_digits 2 "month" cs).bind fun _ cs _ => (worded_expect _ cs).bind fun _ cs _ => ?_
  exact (worded_digits 2 "day" cs).bind fun _ cs _ => worded_pure _ cs

theorem worded_readTime (cs : List Char) : Worded readTime cs := by
  refine (worded_digits 2 "hour" cs).bind fun _ cs _ => (worded_expect _ cs).bind fun _ cs _ => ?_
  refine (worded_digits 2 "minute" cs).bind fun _ cs _ => (worded_expect _ cs).bind fun _ cs _ => ?_
  exact (worded_digits 2 "second" cs).bind fun _ cs _ => (worded_fraction? cs).bind fun _ cs _ => worded_pure _ cs

theorem worded_readSign {problem : Problem} (h : problem.shown = []) (cs : List Char) :
    Worded (readSign problem) cs := by
  refine (worded_accept _ cs).bind fun plus cs _ => ?_
  cases plus with
  | true => exact worded_pure false cs
  | false =>
    refine (worded_accept _ cs).bind fun minus cs _ => ?_
    cases minus with
    | true => exact worded_pure true cs
    | false => exact worded_stop h cs

theorem worded_readOffset (cs : List Char) : Worded readOffset cs := by
  refine (worded_accept _ cs).bind fun zulu cs _ => ?_
  cases zulu with
  | true => exact worded_pure 0 cs
  | false =>
    refine (worded_readSign rfl cs).bind fun negative cs _ => (worded_digits 2 _ cs).bind fun hours cs _ => ?_
    refine (worded_expect _ cs).bind fun _ cs _ => (worded_digits 2 _ cs).bind fun minutes cs _ => ?_
    have hjudged (seconds : Nat) (cs : List Char) : Worded (do
        if 23 < hours ∨ 59 < minutes ∨ 59 < seconds then stop .offsetFieldRange
        else
          let size : Int := hours * secondsPerHour + minutes * secondsPerMinute + seconds
          return if negative then -size else size : Reader Int) cs := by
      split
      · exact worded_stop rfl cs
      · exact worded_pure _ cs
    refine (worded_accept _ cs).bind fun colon cs _ => ?_
    cases colon with
    | true => exact (worded_digits 2 _ cs).bind fun seconds cs _ => hjudged seconds cs
    | false => exact hjudged 0 cs

theorem worded_readUnit (units : List Char) (hasFraction : Bool) (cs : List Char) :
    Worded (readUnit units hasFraction) cs := by
  intro s hs
  unfold readUnit at hs
  split at hs
  · cases hs
    exact List.forall_mem_nil _
  · split at hs
    · split at hs
      · cases hs
        exact List.forall_mem_nil _
      · cases hs
    · cases hs
      exact List.forall_mem_nil _

theorem worded_readGroup (units : List Char) (fractions : Bool) (cs : List Char) :
    Worded (readGroup units fractions) cs := by
  refine (worded_number cs).bind fun count cs _ => ?_
  have hunit (fraction : Option Nat) (cs : List Char) : Worded (do
      let unit ← readUnit units fraction.isSome
      return { count, fraction := fraction.getD 0, unit } : Reader Group) cs :=
    (worded_readUnit units _ cs).bind fun _ cs _ => worded_pure _ cs
  cases fractions with
  | true => exact (worded_fraction? cs).bind fun fraction cs _ => hunit fraction cs
  | false => exact hunit none cs

theorem worded_readGroups (fractions : Bool) (units cs : List Char) : Worded (readGroups fractions units) cs := by
  rw [readGroups.eq_def]
  refine Worded.bind (p := atDigit) (worded_of_ok rfl) fun digit cs _ => ?_
  cases digit with
  | false => exact worded_pure [] cs
  | true =>
    refine (worded_readGroup units fractions cs).bind fun group cs _ => ?_
    cases units with
    | nil => exact worded_pure [group] cs
    | cons c r =>
      have hlater := worded_readGroups fractions (unitsAfter group.unit (c :: r)) cs
      exact hlater.bind fun groups cs _ => worded_pure (group :: groups) cs
termination_by units.length
decreasing_by exact length_unitsAfter_lt _ _ _

theorem worded_readParts (cs : List Char) : Worded readParts cs := by
  refine (worded_readGroups _ _ cs).bind fun dateGroups cs _ => (worded_accept _ cs).bind fun mark cs _ => ?_
  cases mark with
  | true =>
    refine (worded_readGroups _ _ cs).bind fun clockGroups cs _ => ?_
    split
    · exact worded_stop rfl cs
    · exact worded_pure _ cs
  | false =>
    rw [if_neg Bool.false_ne_true]
    split
    · exact worded_stop rfl cs
    · exact worded_pure _ cs

/-- At most three groups with counts and fractions as they are read. -/
structure Short (groups : List Group) : Prop where
  length_le : groups.length ≤ 3
  count_lt : ∀ g ∈ groups, g.count < 10 ^ 18
  fraction_lt : ∀ g ∈ groups, g.fraction < 10 ^ 9

variable {fractions : Bool} {units cs rest : List Char} {groups : List Group}

theorem short_nil : Short [] := ⟨Nat.zero_le 3, nofun, nofun⟩

theorem Taken.length_le (h : Taken fractions units groups cs) : groups.length ≤ units.length := by
  induction h with
  | nil => exact Nat.le_refl 0
  | leftOut _ ih => exact Nat.le_succ_of_le ih
  | group _ _ _ ih => exact Nat.succ_le_succ ih

theorem Taken.count_lt (h : Taken fractions units groups cs) : ∀ g ∈ groups, g.count < 10 ^ 18 := by
  induction h with
  | nil => exact nofun
  | leftOut _ ih => exact ih
  | group x _ _ ih => exact List.forall_mem_cons.mpr ⟨x.count.value_lt, ih⟩

theorem Taken.fraction_lt (h : Taken fractions units groups cs) : ∀ g ∈ groups, g.fraction < 10 ^ 9 := by
  induction h with
  | nil => exact nofun
  | leftOut _ ih => exact ih
  | group x _ _ ih => exact List.forall_mem_cons.mpr ⟨fractionBillionths_lt x.fraction, ih⟩

theorem short_of_readGroups (hunits : AreUnits units) (hlength : units.length ≤ 3)
    (h : readGroups fractions units cs = .ok (groups, rest)) : Short groups := by
  obtain ⟨taken, h, -, -⟩ := (readGroups_eq_ok hunits).mp h
  exact ⟨h.length_le.trans hlength, h.count_lt, h.fraction_lt⟩

theorem short_of_readParts {parts : List Group × List Group} (h : readParts cs = .ok (parts, rest)) :
    Short parts.1 ∧ Short parts.2 := by
  obtain ⟨dateGroups, _, hdate, h⟩ := bind_run_eq_ok.mp h
  have hdate := short_of_readGroups areUnits_date (Nat.le_refl 3) hdate
  obtain ⟨mark, _, -, h⟩ := bind_run_eq_ok.mp h
  cases mark with
  | true =>
    obtain ⟨clockGroups, _, hclock, h⟩ := bind_run_eq_ok.mp h
    split at h
    · cases h
    · cases h
      exact ⟨hdate, short_of_readGroups areUnits_clock (Nat.le_refl 3) hclock⟩
  | false =>
    rw [if_neg Bool.false_ne_true] at h
    split at h
    · cases h
    · cases h
      exact ⟨hdate, short_nil⟩

theorem Short.countOf_lt (h : Short groups) (unit : Char) : countOf unit groups < 10 ^ 18 := by
  unfold countOf
  cases hfind : groups.find? fun g => g.unit == unit with
  | none => exact Nat.pow_pos (by decide)
  | some g => exact h.count_lt g (List.mem_of_find?_eq_some hfind)

theorem fractionOf_le (h : ∀ g ∈ groups, g.fraction < 10 ^ 9) : fractionOf groups ≤ groups.length * 10 ^ 9 := by
  induction groups with
  | nil => exact Nat.zero_le _
  | cons g r ih =>
    have hg := h g List.mem_cons_self
    have hr := ih fun x hx => h x (List.mem_cons_of_mem g hx)
    rw [List.length_cons, Nat.succ_mul]
    exact (Nat.add_le_add hg.le hr).trans (Nat.le_of_eq (Nat.add_comm _ _))

theorem Short.fractionOf_le (h : Short groups) : fractionOf groups ≤ 3 * 10 ^ 9 :=
  (Iso8601.fractionOf_le h.fraction_lt).trans (Nat.mul_le_mul_right _ h.length_le)

theorem durationOf_writable {f : Fault} {negative : Bool} {dateGroups clockGroups : List Group}
    (hdate : Short dateGroups) (hclock : Short clockGroups)
    (h : durationOf negative dateGroups clockGroups = .error f) : ∀ n ∈ f.shown, Writable n := by
  have hyears := hdate.countOf_lt 'Y'
  have hmonths := hdate.countOf_lt 'M'
  have hdays := hdate.countOf_lt 'D'
  have hhours := hclock.countOf_lt 'H'
  have hminutes := hclock.countOf_lt 'M'
  have hseconds := hclock.countOf_lt 'S'
  have hfraction := hclock.fractionOf_le
  refine Duration.ofParts_writable ?_ ?_ ?_ h
  · cases negative <;> simp only [Bool.false_eq_true, if_true, if_false] <;> omega
  · cases negative <;> simp only [Bool.false_eq_true, if_true, if_false] <;> omega
  · simp only [nanosPerHour, nanosPerMinute, nanosPerSecond]
    cases negative <;> simp only [Bool.false_eq_true, if_true, if_false] <;> omega

end Iso8601

/-! Whatever a text is, a parser that gives no value says that it is not of the form. -/

section
variable {text : String} {e : Error}

theorem Date.parse_error_kind (h : Date.parse text = .error e) : e.kind = .invalidFormat := by
  refine read_error_kind ((worded_readDate _).bind fun fields cs hfields => ?_) h
  obtain ⟨x, -, rfl⟩ := readDate_eq_ok.mp hfields
  exact (worded_finish cs).bind fun _ cs _ => worded_build (fun _ => dateOf_writable x) cs

theorem TimeOfDay.parse_error_kind (h : TimeOfDay.parse text = .error e) : e.kind = .invalidFormat := by
  refine read_error_kind ((worded_readTime _).bind fun fields cs hfields => ?_) h
  obtain ⟨x, -, rfl, -⟩ := readTime_eq_ok.mp hfields
  exact (worded_finish cs).bind fun _ cs _ => worded_build (fun _ => timeOf_writable x) cs

theorem LocalDateTime.parse_error_kind (h : LocalDateTime.parse text = .error e) : e.kind = .invalidFormat := by
  refine read_error_kind ((worded_readDate _).bind fun date cs hdate => ?_) h
  refine (worded_expect _ cs).bind fun _ cs _ => (worded_readTime cs).bind fun time cs htime => ?_
  obtain ⟨x, -, rfl⟩ := readDate_eq_ok.mp hdate
  obtain ⟨y, -, rfl, -⟩ := readTime_eq_ok.mp htime
  exact (worded_finish cs).bind fun _ cs _ => worded_build (fun _ => localOf_writable x y) cs

theorem Offset.parse_error_kind (h : Offset.parse text = .error e) : e.kind = .invalidFormat := by
  refine read_error_kind ((worded_readOffset _).bind fun seconds cs hseconds => ?_) h
  obtain ⟨x, -, hrange, rfl, -⟩ := readOffset_eq_ok.mp hseconds
  exact (worded_finish cs).bind fun _ cs _ => worded_build (fun _ => Offset.ofSeconds_writable hrange.writable_total) cs

/-- What a duration is read by. -/
theorem Iso8601.worded_duration (cs : List Char) : Worded (do
    let negative ← accept ['-']
    expect ['P']
    let (dateGroups, timeGroups) ← readParts
    finish
    build (durationOf negative dateGroups timeGroups) : Reader Duration) cs := by
  refine (worded_accept _ cs).bind fun negative cs _ => (worded_expect _ cs).bind fun _ cs _ => ?_
  refine (worded_readParts cs).bind fun parts cs hparts => (worded_finish cs).bind fun _ cs _ => ?_
  obtain ⟨hdate, hclock⟩ := short_of_readParts hparts
  exact worded_build (fun _ => durationOf_writable hdate hclock) cs

theorem Duration.parse_error_kind (h : Duration.parse text = .error e) : e.kind = .invalidFormat :=
  read_error_kind (worded_duration _) h

end

end CivilTime
