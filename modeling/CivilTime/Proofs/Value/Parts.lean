/- Values are made again from the numbers that they are taken apart into, and from no other numbers. -/
import CivilTime.Proofs.Calendar.Order
import CivilTime.Proofs.Value.RoundTrip
import CivilTime.Value.Parts

namespace CivilTime

open Calendar

/-! A field is taken only as the integer that the value holds. -/

section
variable {a b c : Datum}

theorem TimeOfDay.ofNanosField_eq_ok {t : TimeOfDay} : ofNanosField a = .ok t ↔ a = .int t.nanos := by
  cases a with
  | int n =>
    rw [Datum.int.injEq, eq_comm (a := n)]
    exact ofNanos_eq_ok
  | _ => exact iff_of_false nofun nofun

theorem Instant.ofDatum_eq_ok {i : Instant} : ofDatum a = .ok i ↔ a = .int i.nanos := by
  cases a with
  | int n =>
    rw [Datum.int.injEq, eq_comm (a := n)]
    exact ofNanos_eq_ok
  | _ => exact iff_of_false nofun nofun

theorem Offset.ofDatum_eq_ok {o : Offset} : ofDatum a = .ok o ↔ a = .int o.seconds := by
  cases a with
  | int n =>
    rw [Datum.int.injEq, eq_comm (a := n)]
    exact ofSeconds_eq_ok
  | _ => exact iff_of_false nofun nofun

theorem TimeOfDay.ofNanosField_error {n : Int} {f : Fault} (h : ofNanosField (.int n) = .error f) :
    f = .dayNanosRange n ∧ ¬(0 ≤ n ∧ n < nanosPerDay) := by
  have hmade : ofNanos n = .error f := h
  unfold ofNanos timeAt ofNanos? at hmade
  split at hmade
  · cases hmade
  · rename_i hnone
    cases hmade
    exact ⟨rfl, fun hn => by simp [hn] at hnone⟩

theorem Date.ofDayNumberField_error {n : Int} {f : Fault} (h : ofDayNumberField (.int n) = .error f) :
    f = .dayNumberRange n ∧ ¬Supported n := by
  have hmade : ofDayNumber n = .error f := h
  refine ⟨dateAt_error hmade, fun hn => ?_⟩
  have hdate : ofDayNumberField (.int n) = .ok ⟨n, hn.1, hn.2⟩ := ofDayNumberField_eq_ok.mpr rfl
  rw [hdate] at h
  cases h

theorem Date.supported_of_ofDayNumberField {n : Int} {d : Date} (h : ofDayNumberField (.int n) = .ok d) :
    Supported n := by
  cases ofDayNumberField_eq_ok.mp h
  exact supported_dayNumber d

theorem Offset.ofDatum_error {n : Int} {f : Fault} (h : ofDatum (.int n) = .error f) :
    f = .offsetRange n ∧ ¬(-86400 < n ∧ n < 86400) := by
  have hmade : ofSeconds n = .error f := h
  unfold ofSeconds at hmade
  split at hmade
  · cases hmade
  · rename_i hnone
    cases hmade
    exact ⟨rfl, fun hn => by simp [ofSeconds?, secondsPerDay, hn] at hnone⟩

theorem Instant.ofDatum_error {n : Int} {f : Fault} (h : ofDatum (.int n) = .error f) : f = .instantOverflow n := by
  have hmade : ofNanos n = .error f := h
  unfold ofNanos at hmade
  split at hmade
  · cases hmade
  · cases hmade
    rfl

/-- Signs and sizes are judged as they are for parts that are known to be integers. -/
theorem Duration.ofPartFields_whole {n : Int} (hc : c.quantity? = some (.whole n)) (months days : Int) :
    ofPartFields (.int months) (.int days) c = liftM (ofParts months days n) := by
  have hmake : makeOfPartFields (.int months) (.int days) c = make months days (.whole n) := by
    simp only [makeOfPartFields, makeOfPartFields.integerPart, Datum.int?, hc]
    rfl
  rw [ofPartFields, hmake, make]
  cases ofParts months days n <;> rfl

theorem Duration.integerPart_eq_ok {name : String} {n : Int} :
    makeOfPartFields.integerPart name a = .ok n ↔ a = .int n := by
  cases a <;> simp [makeOfPartFields.integerPart, Datum.int?]

/-- Nanoseconds with a fraction make no duration with whole ones. -/
theorem Duration.make_eq_whole {d : Duration} {m n : Int} {q : Quantity} (h : make m n q = .ok (.whole d)) :
    d.months = m ∧ d.days = n ∧ q = .whole d.nanos := by
  cases q with
  | whole k =>
    obtain ⟨d', hd', hwhole⟩ := bind_eq_ok.mp h
    cases hwhole
    obtain ⟨hm, hn, hk⟩ := ofParts_eq_ok.mp (liftM_eq_ok.mp hd')
    exact ⟨hm, hn, congrArg _ hk.symm⟩
  | fractional x =>
    unfold make at h
    dsimp only at h
    split at h
    · cases h
    · obtain ⟨d', -, hrest⟩ := bind_eq_ok.mp h
      split at hrest
      · cases hrest
      · cases hrest

theorem Duration.ofPartFields_eq_ok {d : Duration} : ofPartFields a b c = .ok d ↔
    a = .int d.months ∧ b = .int d.days ∧ c.quantity? = some (.whole d.nanos) := by
  constructor
  · intro h
    obtain ⟨made, hmade, hwhole⟩ := bind_eq_ok.mp h
    cases made with
    | fractional => cases hwhole
    | whole d' =>
      cases hwhole
      obtain ⟨m, hm, hrest⟩ := bind_eq_ok.mp hmade
      obtain ⟨n, hn, hlast⟩ := bind_eq_ok.mp hrest
      rw [integerPart_eq_ok.mp (liftM_eq_ok.mp hm), integerPart_eq_ok.mp (liftM_eq_ok.mp hn)]
      cases hc : c.quantity? with
      | none =>
        rw [hc] at hlast
        cases hlast
      | some q =>
        rw [hc] at hlast
        obtain ⟨rfl, rfl, rfl⟩ := make_eq_whole hlast
        exact ⟨rfl, rfl, rfl⟩
  · rintro ⟨rfl, rfl, hc⟩
    rw [ofPartFields_whole hc]
    exact liftM_eq_ok.mpr (ofParts_parts d)

end

variable {α β : Type}

/-- The operation fails only by refusing a value. -/
def OnlyRefuses (x : Except Error α) : Prop := ∀ e, x = .error e → ∃ f : Fault, e = .fault f

theorem onlyRefuses_ok (a : α) : OnlyRefuses (.ok a : Except Error α) := fun _ h => by cases h

theorem onlyRefuses_liftM (x : Except Fault α) : OnlyRefuses (liftM x) := fun _ h => by
  obtain ⟨f, -, rfl⟩ := liftM_eq_error.mp h
  exact ⟨f, rfl⟩

theorem OnlyRefuses.bind {x : Except Error α} {f : α → Except Error β} (hx : OnlyRefuses x)
    (hf : ∀ a, OnlyRefuses (f a)) : OnlyRefuses (x >>= f) := by
  intro e h
  rcases bind_eq_error.mp h with h | ⟨a, -, h⟩
  · exact hx e h
  · exact hf a e h

namespace ValueKind

/-- How many numbers a value of the type is made of. A value in a zone is made of none. -/
def partCount : ValueKind → Nat
  | date => 3
  | time => 1
  | localDateTime => 2
  | instant => 1
  | offset => 1
  | offsetDateTime => 3
  | zonedDateTime => 0
  | duration => 3

/-- What has to hold of numbers to be the parts of a value of the type. -/
def Fits : ValueKind → List Int → Prop
  | date, [year, month, day] => (1 ≤ year ∧ year ≤ 9999) ∧ YearMonthDay.Exists { year, month, day }
  | time, [nanos] => 0 ≤ nanos ∧ nanos < nanosPerDay
  | localDateTime, [day, nanos] => Supported day ∧ 0 ≤ nanos ∧ nanos < nanosPerDay
  | instant, [nanos] => Instant.InRange nanos
  | offset, [seconds] => -86400 < seconds ∧ seconds < 86400
  | offsetDateTime, [day, nanos, seconds] =>
    (Supported day ∧ 0 ≤ nanos ∧ nanos < nanosPerDay) ∧ (-86400 < seconds ∧ seconds < 86400) ∧
      Instant.InRange ((day - epochDay) * nanosPerDay + nanos - seconds * nanosPerSecond)
  | duration, [months, days, nanos] => Duration.OneSign months days nanos ∧ Duration.Bounded months days nanos
  | _, _ => False

/-- The numbers that the complaint writes out where numbers are refused as the parts of a value. A complaint about an
instant or about signs writes out none of them. -/
def named : ValueKind → List Int → List Int
  | date, [year, month, day] => (refusedField (.int year) (.int month) (.int day)).int?.toList
  | time, [nanos] => [nanos]
  | localDateTime, [day, nanos] => if Supported day then [nanos] else [day]
  | instant, [nanos] => [nanos]
  | offset, [seconds] => [seconds]
  | offsetDateTime, [day, nanos, seconds] =>
    if ¬Supported day then [day]
    else if ¬(0 ≤ nanos ∧ nanos < nanosPerDay) then [nanos]
    else if ¬(-86400 < seconds ∧ seconds < 86400) then [seconds] else []
  | duration, [months, days, nanos] =>
    if Duration.OneSign months days nanos then [Duration.firstExceeding months days nanos] else []
  | _, _ => []

theorem mem_of_mem_named {kind : ValueKind} {ns : List Int} {n : Int} (h : n ∈ kind.named ns) : n ∈ ns := by
  unfold named at h
  split at h
  · rename_i year month day
    have hfield : refusedField (.int year) (.int month) (.int day) ∈ [year, month, day].map Datum.int := by
      unfold refusedField
      split
      · simp
      · split <;> simp
    obtain ⟨k, hk, hint⟩ := List.mem_map.mp hfield
    rw [← hint] at h
    rwa [List.mem_singleton.mp h]
  · exact h
  · split at h <;> simp [List.mem_singleton.mp h]
  · exact h
  · exact h
  · split at h
    · simp [List.mem_singleton.mp h]
    · split at h
      · simp [List.mem_singleton.mp h]
      · split at h
        · simp [List.mem_singleton.mp h]
        · cases h
  · split at h
    · rename_i months days nanos _
      rcases Duration.firstExceeding_eq (m := months) (d := days) (n := nanos) with he | he | he
      all_goals simp [List.mem_singleton.mp h, he]
    · cases h
  · cases h

end ValueKind

namespace Value

/-- A value of one of the types that are made of numbers. Nanoseconds that are shown as a truth value are zero or
one. -/
def IsMadeOfNumbers : Value → Prop
  | zonedDateTime _ | unchecked _ => False
  | duration d truth => truth = true → d.nanos = 0 ∨ d.nanos = 1
  | _ => True

variable {kind : ValueKind} {args : List Datum} {ns : List Int} {v : Value} {a b c : Datum}

theorem durationOfParts_eq_ok : durationOfParts a b c = .ok v ↔ ∃ d truth, v = duration d truth ∧
    v.IsMadeOfNumbers ∧ a = .int d.months ∧ b = .int d.days ∧ c = shownNanos d truth := by
  rw [durationOfParts, bind_eq_ok]
  constructor
  · rintro ⟨d, hd, hv⟩
    obtain ⟨rfl, rfl, hc⟩ := Duration.ofPartFields_eq_ok.mp hd
    cases c with
    | int n =>
      cases hc
      cases hv
      exact ⟨d, false, rfl, nofun, rfl, rfl, rfl⟩
    | bool t =>
      have hnanos : (if t then 1 else 0) = d.nanos := by
        injection hc with hc
        injection hc
      cases hv
      refine ⟨d, true, rfl, fun _ => ?_, rfl, rfl, ?_⟩
      · rw [← hnanos]
        cases t <;> simp
      · simp only [shownNanos, ← hnanos, if_true]
        cases t <;> rfl
    | _ => cases hc
  · rintro ⟨d, truth, rfl, hmade, rfl, rfl, rfl⟩
    cases truth with
    | false => exact ⟨d, Duration.ofPartFields_eq_ok.mpr ⟨rfl, rfl, rfl⟩, rfl⟩
    | true =>
      refine ⟨d, Duration.ofPartFields_eq_ok.mpr ⟨rfl, rfl, ?_⟩, rfl⟩
      rcases hmade rfl with h | h
      · simp [shownNanos, Datum.quantity?, h]
      · simp [shownNanos, Datum.quantity?, h]

theorem exists_parts (h : v.IsMadeOfNumbers) : ∃ kind args, v.kind? = some kind ∧ v.parts = .ok args := by
  cases v with
  | zonedDateTime z => exact h.elim
  | unchecked d => exact h.elim
  | _ => exact ⟨_, _, rfl, rfl⟩

theorem parts_of_ofParts (hlength : args.length = kind.partCount) (h : ofParts kind args = .ok v) :
    v.kind? = some kind ∧ v.IsMadeOfNumbers ∧ v.parts = .ok args := by
  cases kind with
  | date =>
    obtain ⟨a, b, c, rfl⟩ := List.length_eq_three.mp hlength
    obtain ⟨d, hd, hv⟩ := bind_eq_ok.mp h
    obtain ⟨rfl, rfl, rfl⟩ := Date.ofFields_eq_ok.mp (liftM_eq_ok.mp hd)
    cases hv
    exact ⟨rfl, trivial, rfl⟩
  | time =>
    obtain ⟨a, rfl⟩ := List.length_eq_one_iff.mp hlength
    obtain ⟨t, ht, hv⟩ := bind_eq_ok.mp h
    obtain rfl := TimeOfDay.ofNanosField_eq_ok.mp (liftM_eq_ok.mp ht)
    cases hv
    exact ⟨rfl, trivial, rfl⟩
  | localDateTime =>
    obtain ⟨a, b, rfl⟩ := List.length_eq_two.mp hlength
    obtain ⟨d, hd, hrest⟩ := bind_eq_ok.mp h
    obtain ⟨t, ht, hv⟩ := bind_eq_ok.mp hrest
    obtain rfl := Date.ofDayNumberField_eq_ok.mp (liftM_eq_ok.mp hd)
    obtain rfl := TimeOfDay.ofNanosField_eq_ok.mp (liftM_eq_ok.mp ht)
    cases hv
    exact ⟨rfl, trivial, rfl⟩
  | instant =>
    obtain ⟨a, rfl⟩ := List.length_eq_one_iff.mp hlength
    obtain ⟨i, hi, hv⟩ := bind_eq_ok.mp h
    obtain rfl := Instant.ofDatum_eq_ok.mp (liftM_eq_ok.mp hi)
    cases hv
    exact ⟨rfl, trivial, rfl⟩
  | offset =>
    obtain ⟨a, rfl⟩ := List.length_eq_one_iff.mp hlength
    obtain ⟨o, ho, hv⟩ := bind_eq_ok.mp h
    obtain rfl := Offset.ofDatum_eq_ok.mp (liftM_eq_ok.mp ho)
    cases hv
    exact ⟨rfl, trivial, rfl⟩
  | offsetDateTime =>
    obtain ⟨a, b, c, rfl⟩ := List.length_eq_three.mp hlength
    obtain ⟨d, hd, hrest⟩ := bind_eq_ok.mp h
    obtain ⟨t, ht, hrest⟩ := bind_eq_ok.mp hrest
    obtain ⟨o, ho, hrest⟩ := bind_eq_ok.mp hrest
    obtain ⟨x, hx, hv⟩ := bind_eq_ok.mp hrest
    obtain ⟨hwall, hoffset⟩ := OffsetDateTime.of_eq_ok.mp (liftM_eq_ok.mp hx)
    obtain rfl := Date.ofDayNumberField_eq_ok.mp (liftM_eq_ok.mp hd)
    obtain rfl := TimeOfDay.ofNanosField_eq_ok.mp (liftM_eq_ok.mp ht)
    obtain rfl := Offset.ofDatum_eq_ok.mp (liftM_eq_ok.mp ho)
    cases hv
    refine ⟨rfl, trivial, ?_⟩
    rw [parts, hwall, hoffset]
  | duration =>
    obtain ⟨a, b, c, rfl⟩ := List.length_eq_three.mp hlength
    obtain ⟨d, truth, rfl, hmade, rfl, rfl, rfl⟩ := durationOfParts_eq_ok.mp h
    exact ⟨rfl, hmade, rfl⟩
  | zonedDateTime => cases h

theorem ofParts_of_parts (hmade : v.IsMadeOfNumbers) (hkind : v.kind? = some kind) (h : v.parts = .ok args) :
    args.length = kind.partCount ∧ ofParts kind args = .ok v := by
  cases v with
  | date d =>
    cases hkind
    cases h
    refine ⟨rfl, bind_eq_ok.mpr ⟨d, ?_, rfl⟩⟩
    exact liftM_eq_ok.mpr (Date.ofFields_eq_ok.mpr ⟨rfl, rfl, rfl⟩)
  | time t =>
    cases hkind
    cases h
    refine ⟨rfl, bind_eq_ok.mpr ⟨t, ?_, rfl⟩⟩
    exact liftM_eq_ok.mpr (TimeOfDay.ofNanosField_eq_ok.mpr rfl)
  | localDateTime l =>
    cases hkind
    cases h
    have hd := Date.ofDayNumberField_eq_ok.mpr (rfl : Datum.int l.date.dayNumber = _)
    have ht := TimeOfDay.ofNanosField_eq_ok.mpr (rfl : Datum.int l.time.nanos = _)
    exact ⟨rfl, bind_eq_ok.mpr ⟨l.date, liftM_eq_ok.mpr hd, bind_eq_ok.mpr ⟨l.time, liftM_eq_ok.mpr ht, rfl⟩⟩⟩
  | instant i =>
    cases hkind
    cases h
    refine ⟨rfl, bind_eq_ok.mpr ⟨i, ?_, rfl⟩⟩
    exact liftM_eq_ok.mpr (Instant.ofDatum_eq_ok.mpr rfl)
  | offset o =>
    cases hkind
    cases h
    refine ⟨rfl, bind_eq_ok.mpr ⟨o, ?_, rfl⟩⟩
    exact liftM_eq_ok.mpr (Offset.ofDatum_eq_ok.mpr rfl)
  | offsetDateTime x =>
    cases hkind
    cases h
    have hd := Date.ofDayNumberField_eq_ok.mpr (rfl : Datum.int x.wall.date.dayNumber = _)
    have ht := TimeOfDay.ofNanosField_eq_ok.mpr (rfl : Datum.int x.wall.time.nanos = _)
    have ho := Offset.ofDatum_eq_ok.mpr (rfl : Datum.int x.offset.seconds = _)
    have hx := OffsetDateTime.of_eq_ok.mpr ⟨(rfl : x.wall = _), (rfl : x.offset = _)⟩
    exact ⟨rfl, bind_eq_ok.mpr ⟨x.wall.date, liftM_eq_ok.mpr hd, bind_eq_ok.mpr ⟨x.wall.time, liftM_eq_ok.mpr ht,
      bind_eq_ok.mpr ⟨x.offset, liftM_eq_ok.mpr ho, bind_eq_ok.mpr ⟨x, liftM_eq_ok.mpr hx, rfl⟩⟩⟩⟩⟩
  | duration d truth =>
    cases hkind
    cases h
    exact ⟨rfl, durationOfParts_eq_ok.mpr ⟨d, truth, rfl, hmade, rfl, rfl, rfl⟩⟩
  | zonedDateTime z => exact hmade.elim
  | unchecked d => exact hmade.elim

theorem map_int_injective : Function.Injective (List.map Datum.int) :=
  List.map_injective_iff.mpr fun _ _ => Datum.int.inj

/-- Numbers that a value is taken apart into are what its type asks of them. -/
theorem fits_of_parts (hkind : v.kind? = some kind) (h : v.parts = .ok (ns.map .int)) : kind.Fits ns := by
  cases v with
  | date d =>
    cases hkind
    obtain rfl : [d.year, d.month, d.day] = ns := map_int_injective (Except.ok.inj h)
    exact ⟨d.year_bounds, d.exists_ymd⟩
  | time t =>
    cases hkind
    obtain rfl : [t.nanos] = ns := map_int_injective (Except.ok.inj h)
    exact ⟨t.nonneg, t.lt_day⟩
  | localDateTime l =>
    cases hkind
    obtain rfl : [l.date.dayNumber, l.time.nanos] = ns := map_int_injective (Except.ok.inj h)
    exact ⟨supported_dayNumber l.date, l.time.nonneg, l.time.lt_day⟩
  | instant i =>
    cases hkind
    obtain rfl : [i.nanos] = ns := map_int_injective (Except.ok.inj h)
    exact i.inRange_nanos
  | offset o =>
    cases hkind
    obtain rfl : [o.seconds] = ns := map_int_injective (Except.ok.inj h)
    exact ⟨o.neg_day_lt, o.lt_day⟩
  | offsetDateTime x =>
    cases hkind
    obtain rfl : [x.wall.date.dayNumber, x.wall.time.nanos, x.offset.seconds] = ns :=
      map_int_injective (Except.ok.inj h)
    exact ⟨⟨supported_dayNumber x.wall.date, x.wall.time.nonneg, x.wall.time.lt_day⟩,
      ⟨x.offset.neg_day_lt, x.offset.lt_day⟩, x.toInstant.inRange_nanos⟩
  | duration d truth =>
    cases hkind
    cases truth with
    | false =>
      obtain rfl : [d.months, d.days, d.nanos] = ns := map_int_injective (Except.ok.inj h)
      exact ⟨d.oneSign, d.bounded⟩
    | true =>
      have hmem : Datum.bool (d.nanos != 0) ∈ ns.map .int := by
        rw [← Except.ok.inj h]
        simp [shownNanos]
      obtain ⟨n, -, hn⟩ := List.mem_map.mp hmem
      cases hn
  | zonedDateTime z => cases h
  | unchecked d => cases hkind

theorem exists_of_fits (h : kind.Fits ns) :
    ∃ v : Value, v.kind? = some kind ∧ v.IsMadeOfNumbers ∧ v.parts = .ok (ns.map .int) := by
  unfold ValueKind.Fits at h
  split at h
  · rename_i year month day
    obtain ⟨d, hd⟩ : ∃ d : Date, d.ymd = { year, month, day } := Date.exists_ymd_eq_iff.mpr h
    refine ⟨date d, rfl, trivial, ?_⟩
    rw [parts, Date.year, Date.month, Date.day, hd]
    rfl
  · exact ⟨time ⟨_, h.1, h.2⟩, rfl, trivial, rfl⟩
  · obtain ⟨⟨hfirst, hlast⟩, hnonneg, hlt⟩ := h
    exact ⟨localDateTime ⟨⟨_, hfirst, hlast⟩, ⟨_, hnonneg, hlt⟩⟩, rfl, trivial, rfl⟩
  · exact ⟨instant ⟨_, h.1, h.2⟩, rfl, trivial, rfl⟩
  · exact ⟨offset ⟨_, h.1, h.2⟩, rfl, trivial, rfl⟩
  · obtain ⟨⟨⟨hfirst, hlast⟩, hnonneg, hlt⟩, ⟨hwest, heast⟩, hearly, hlate⟩ := h
    exact ⟨offsetDateTime ⟨⟨⟨_, hfirst, hlast⟩, ⟨_, hnonneg, hlt⟩⟩, ⟨_, hwest, heast⟩, hearly, hlate⟩, rfl, trivial,
      rfl⟩
  · exact ⟨duration ⟨_, _, _, h.1, h.2⟩ false, rfl, fun htruth => absurd htruth Bool.false_ne_true, rfl⟩
  · exact h.elim

theorem exists_ofParts_iff (hlength : ns.length = kind.partCount) :
    (∃ v, ofParts kind (ns.map .int) = .ok v) ↔ kind.Fits ns := by
  constructor
  · rintro ⟨v, hv⟩
    obtain ⟨hkind, -, hparts⟩ := parts_of_ofParts ((List.length_map _).trans hlength) hv
    exact fits_of_parts hkind hparts
  · intro h
    obtain ⟨v, hkind, hmade, hparts⟩ := exists_of_fits h
    exact ⟨v, (ofParts_of_parts hmade hkind hparts).2⟩

theorem onlyRefuses_ofParts (hkind : kind ≠ .zonedDateTime) (hlength : ns.length = kind.partCount) :
    OnlyRefuses (ofParts kind (ns.map .int)) := by
  cases kind with
  | date =>
    obtain ⟨y, m, d, rfl⟩ := List.length_eq_three.mp hlength
    exact (onlyRefuses_liftM _).bind fun _ => onlyRefuses_ok _
  | time =>
    obtain ⟨n, rfl⟩ := List.length_eq_one_iff.mp hlength
    exact (onlyRefuses_liftM _).bind fun _ => onlyRefuses_ok _
  | localDateTime =>
    obtain ⟨d, n, rfl⟩ := List.length_eq_two.mp hlength
    exact (onlyRefuses_liftM _).bind fun _ => (onlyRefuses_liftM _).bind fun _ => onlyRefuses_ok _
  | instant =>
    obtain ⟨n, rfl⟩ := List.length_eq_one_iff.mp hlength
    exact (onlyRefuses_liftM _).bind fun _ => onlyRefuses_ok _
  | offset =>
    obtain ⟨n, rfl⟩ := List.length_eq_one_iff.mp hlength
    exact (onlyRefuses_liftM _).bind fun _ => onlyRefuses_ok _
  | offsetDateTime =>
    obtain ⟨d, n, o, rfl⟩ := List.length_eq_three.mp hlength
    exact (onlyRefuses_liftM _).bind fun _ => (onlyRefuses_liftM _).bind fun _ => (onlyRefuses_liftM _).bind fun _ =>
      (onlyRefuses_liftM _).bind fun _ => onlyRefuses_ok _
  | duration =>
    obtain ⟨m, d, n, rfl⟩ := List.length_eq_three.mp hlength
    refine OnlyRefuses.bind ?_ fun _ => onlyRefuses_ok _
    rw [Duration.ofPartFields_whole (Datum.quantity?_int n)]
    exact onlyRefuses_liftM _
  | zonedDateTime => exact absurd rfl hkind

/-- The parts of a reading at an offset are judged one after the other, and the instant last. -/
theorem error_kind_of_offsetDateTime {f : Fault} {d n o : Int}
    (h : ofParts .offsetDateTime [.int d, .int n, .int o] = .error (.fault f)) :
    (Error.fault f).kind = f.kind.naming (ValueKind.offsetDateTime.named [d, n, o]) := by
  rcases liftM_bind_eq_fault.mp h with hday | ⟨date, hday, hrest⟩
  · obtain ⟨rfl, hunsupported⟩ := Date.ofDayNumberField_error hday
    rw [ValueKind.named, if_pos hunsupported]
    rfl
  rw [ValueKind.named, if_neg (not_not.mpr (Date.supported_of_ofDayNumberField hday))]
  rcases liftM_bind_eq_fault.mp hrest with hclock | ⟨time, hclock, hrest'⟩
  · obtain ⟨rfl, hnanos⟩ := TimeOfDay.ofNanosField_error hclock
    rw [if_pos hnanos]
    rfl
  cases TimeOfDay.ofNanosField_eq_ok.mp hclock
  rw [if_neg (not_not.mpr ⟨time.nonneg, time.lt_day⟩)]
  rcases liftM_bind_eq_fault.mp hrest' with hoffset | ⟨offset, hoffset, hlast⟩
  · obtain ⟨rfl, hseconds⟩ := Offset.ofDatum_error hoffset
    rw [if_pos hseconds]
    rfl
  cases Offset.ofDatum_eq_ok.mp hoffset
  rw [if_neg (not_not.mpr ⟨offset.neg_day_lt, offset.lt_day⟩), naming_nil]
  exact naming_of_writable (OffsetDateTime.of_writable (liftM_bind_ok_eq_fault.mp hlast))

/-- Whatever is wrong with numbers, the refusal is of its own kind if the numbers that it names can be written out. -/
theorem error_kind_of_ofParts {f : Fault} (hlength : ns.length = kind.partCount)
    (h : ofParts kind (ns.map .int) = .error (.fault f)) : (Error.fault f).kind = f.kind.naming (kind.named ns) := by
  cases kind with
  | date =>
    obtain ⟨y, m, d, rfl⟩ := List.length_eq_three.mp hlength
    obtain ⟨hkind, hnaming⟩ := ofFields_error (liftM_bind_ok_eq_fault.mp h)
    rw [hnaming, hkind]
    rfl
  | time =>
    obtain ⟨n, rfl⟩ := List.length_eq_one_iff.mp hlength
    rw [(TimeOfDay.ofNanosField_error (liftM_bind_ok_eq_fault.mp h)).1]
    rfl
  | localDateTime =>
    obtain ⟨d, n, rfl⟩ := List.length_eq_two.mp hlength
    rcases liftM_bind_eq_fault.mp h with hday | ⟨date, hday, hrest⟩
    · obtain ⟨rfl, hunsupported⟩ := Date.ofDayNumberField_error hday
      rw [ValueKind.named, if_neg hunsupported]
      rfl
    · rw [ValueKind.named, if_pos (Date.supported_of_ofDayNumberField hday),
        (TimeOfDay.ofNanosField_error (liftM_bind_ok_eq_fault.mp hrest)).1]
      rfl
  | instant =>
    obtain ⟨n, rfl⟩ := List.length_eq_one_iff.mp hlength
    rw [Instant.ofDatum_error (liftM_bind_ok_eq_fault.mp h)]
    rfl
  | offset =>
    obtain ⟨n, rfl⟩ := List.length_eq_one_iff.mp hlength
    rw [(Offset.ofDatum_error (liftM_bind_ok_eq_fault.mp h)).1]
    rfl
  | offsetDateTime =>
    obtain ⟨d, n, o, rfl⟩ := List.length_eq_three.mp hlength
    exact error_kind_of_offsetDateTime h
  | duration =>
    obtain ⟨m, d, n, rfl⟩ := List.length_eq_three.mp hlength
    have hmade : durationOfParts (.int m) (.int d) (.int n) = .error (.fault f) := h
    rw [durationOfParts, Duration.ofPartFields_whole (Datum.quantity?_int n)] at hmade
    rcases Duration.ofParts_error (liftM_bind_ok_eq_fault.mp hmade) with ⟨-, hshown, hsign⟩ | ⟨rfl, hsign⟩
    · rw [ValueKind.named, if_pos hsign, ← hshown]
      rfl
    · rw [ValueKind.named, if_neg hsign]
      rfl
  | zonedDateTime => cases h

theorem restored_of_exactNanos? (h : v.exactNanos?.isSome) : v.restored = v := by
  cases v with
  | duration d truth => cases h
  | _ => rfl

/-- Taking a value apart into numbers and making it again are inverse. Every value but one in a zone comes back from its
parts, with its offset if it has one. Whatever can be made of as many parts as its type asks for has these parts.
Integers make a value if each is in its range and, for a reading at an offset, the instant too, and for a duration the
signs agree; all others are refused, and not in another way than values are, as long as the integers that the refusal
names can be written out. -/
theorem parts_and_values_are_inverse (v : Value) (kind : ValueKind) :
    (v.IsMadeOfNumbers → ∃ own args, v.kind? = some own ∧ v.parts = .ok args ∧
      args.length = own.partCount ∧ ofParts own args = .ok v ∧
      (v.exactNanos?.isSome → v.exactEqual? v = some true)) ∧
    (∀ args, args.length = kind.partCount → ofParts kind args = .ok v →
      v.kind? = some kind ∧ v.IsMadeOfNumbers ∧ v.parts = .ok args) ∧
    ∀ ns : List Int, kind ≠ .zonedDateTime → ns.length = kind.partCount →
      ((∃ w, ofParts kind (ns.map .int) = .ok w) ↔ kind.Fits ns) ∧
      (¬kind.Fits ns → ∃ f : Fault, ofParts kind (ns.map .int) = .error (.fault f) ∧
        f.kind ∈ [ErrorKind.validation, .invalidDate, .invalidTime, .rangeOverflow] ∧
        (Error.fault f).kind = f.kind.naming (kind.named ns) ∧
        ((∀ n ∈ ns, Text.Writable n) → (Error.fault f).kind = f.kind)) := by
  refine ⟨fun hmade => ?_, fun _ => parts_of_ofParts, fun ns hkind hlength =>
    ⟨exists_ofParts_iff hlength, fun hfits => ?_⟩⟩
  · obtain ⟨kind, args, hkind, hparts⟩ := exists_parts hmade
    obtain ⟨hlength, hagain⟩ := ofParts_of_parts hmade hkind hparts
    refine ⟨kind, args, hkind, hparts, hlength, hagain, fun hexact => ?_⟩
    have hequal := exactEqual?_restored hexact
    rwa [restored_of_exactNanos? hexact] at hequal
  · cases h : ofParts kind (ns.map .int) with
    | ok v => exact absurd ((exists_ofParts_iff hlength).mp ⟨v, h⟩) hfits
    | error e =>
      obtain ⟨f, rfl⟩ := onlyRefuses_ofParts hkind hlength e h
      have hnaming := error_kind_of_ofParts hlength h
      refine ⟨f, rfl, f.kind_mem, hnaming, fun hall => ?_⟩
      rw [hnaming]
      exact naming_of_writable fun n hn => hall n (ValueKind.mem_of_mem_named hn)

/-- The last reading at offset zero comes back. A second further west its instant is past the end, and a month less a
day is no duration, which is what the complaint is about. -/
theorem parts_and_values_are_inverse_at_last_reading :
    let last : OffsetDateTime := ⟨.max, .utc, by decide, by decide⟩
    let truth : List Datum := [.int 1, .int 2, .bool true]
    ((offsetDateTime last).IsMadeOfNumbers ∧ ∃ kind args, (offsetDateTime last).kind? = some kind ∧
      ofParts kind args = .ok (offsetDateTime last) ∧
      (offsetDateTime last).exactEqual? (offsetDateTime last) = some true) ∧
      (∃ v, ofParts .duration truth = .ok v ∧ v.parts = .ok truth) ∧
      (∃ v, ofParts .date ([2024, 2, 29].map .int) = .ok v) ∧
      (∃ f : Fault, ofParts .offsetDateTime ([5373484, 86399999999999, -1].map .int) = .error (.fault f)) ∧
      ∃ f : Fault, ofParts .duration ([1, -1, 0].map .int) = .error (.fault f) ∧ (Error.fault f).kind = f.kind := by
  intro last truth
  let leapDay : Value := date ⟨2460370, by decide, by decide⟩
  let counted : Duration := ⟨1, 2, 1, by decide, by decide⟩
  obtain ⟨hagain, -, hreading⟩ := parts_and_values_are_inverse (offsetDateTime last) .offsetDateTime
  obtain ⟨-, hparts, hduration⟩ := parts_and_values_are_inverse (duration counted true) .duration
  obtain ⟨-, -, hdate⟩ := parts_and_values_are_inverse leapDay .date
  obtain ⟨own, args, hown, -, -, hmade, hexact⟩ := hagain trivial
  have htruth : ofParts .duration truth = .ok (duration counted true) := rfl
  obtain ⟨f, hf, -⟩ := (hreading [5373484, 86399999999999, -1] nofun rfl).2 <| by
    rintro ⟨-, -, -, hlate⟩
    revert hlate
    decide
  obtain ⟨g, hg, -, -, hwritable⟩ := (hduration [1, -1, 0] nofun rfl).2 <| by
    rintro ⟨hsign, -⟩
    revert hsign
    decide
  exact ⟨⟨trivial, own, args, hown, hmade, hexact rfl⟩, ⟨_, htruth, (hparts truth rfl htruth).2.2⟩,
    (hdate [2024, 2, 29] nofun rfl).1.mpr ⟨by decide, by decide⟩, ⟨f, hf⟩,
    ⟨g, hg, hwritable fun n hn => Text.writable_of_natAbs_le (by simp at hn; omega)⟩⟩

/-- So many nanoseconds after the epoch that their number has a digit too many: they make no instant, but the complaint
is not one of those about values. -/
theorem nanoseconds_with_too_many_digits_are_not_named :
    let nanos : Int := (10 ^ Text.maxDigits : Nat)
    [nanos].length = ValueKind.instant.partCount ∧
      Fails (ofParts .instant ([nanos].map .int)) .unfitValue ∧
      ∀ kind ∈ [ErrorKind.validation, .invalidDate, .invalidTime, .rangeOverflow],
        ¬Fails (ofParts .instant ([nanos].map .int)) kind := by
  intro nanos
  have hlong : ¬Text.Writable nanos := Text.not_writable_of_le (Int.le_refl _)
  have hfails : Fails (ofParts .instant ([nanos].map .int)) .unfitValue := by
    cases hmade : Instant.ofDatum (.int nanos) with
    | ok i =>
      have hfirst := i.firstNanos_le
      have hlast := i.le_lastNanos
      rw [← Datum.int.inj (Instant.ofDatum_eq_ok.mp hmade)] at hfirst hlast
      simp only [Instant.firstNanos, Instant.lastNanos, firstDay, lastDay, epochDay, nanosPerDay] at hfirst hlast
      exact absurd (Text.writable_of_natAbs_le (by omega)) hlong
    | error f =>
      have hparts : ofParts .instant ([nanos].map .int) = .error (.fault f) :=
        liftM_bind_ok_eq_fault.mpr hmade
      rw [hparts, Instant.ofDatum_error hmade, fails_error]
      exact naming_of_not_writable List.mem_cons_self hlong
  refine ⟨rfl, hfails, fun kind hkind h => ?_⟩
  cases hfails.unique h
  revert hkind
  decide

end Value

end CivilTime
