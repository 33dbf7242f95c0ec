/- Sums and multiples of durations: what they are, the laws between them, and when they are refused. -/
import CivilTime.Duration.Operations
import CivilTime.Proofs.Outcome
import Mathlib.Algebra.Order.Ring.Abs
import Mathlib.Algebra.Order.Ring.Int
import Mathlib.Tactic.Positivity.Basic

namespace CivilTime.Duration

/-- One component is positive and another one negative. -/
def MixedSigns (months days nanos : Int) : Prop :=
  (0 < months ∨ 0 < days ∨ 0 < nanos) ∧ (months < 0 ∨ days < 0 ∨ nanos < 0)

/-- Some component is of a size that no duration has. -/
def Exceeds (months days nanos : Int) : Prop :=
  maxMonths < |months| ∨ maxDays < |days| ∨ maxNanos < |nanos|

/-- The component that is named when a duration is refused for its size: the first that is too large. -/
def firstExceeding (months days nanos : Int) : Int :=
  if maxMonths < |months| then months else if maxDays < |days| then days else nanos

/-- A duration is made of parts as they are. Mixed signs are refused, and otherwise sizes that are too large. -/
structure MadeOf (result : Except Fault Duration) (months days nanos : Int) : Prop where
  value : ∀ r, result = .ok r ↔ r.months = months ∧ r.days = days ∧ r.nanos = nanos
  returns : (∃ r, result = .ok r) ↔ ¬MixedSigns months days nanos ∧ ¬Exceeds months days nanos
  fails : ∀ kind, Fails (liftM result) kind ↔ (kind = .validation ∧ MixedSigns months days nanos) ∨
    (kind = .rangeOverflow ∧ ¬MixedSigns months days nanos ∧ Exceeds months days nanos)

section
variable {m d n : Int}

theorem oneSign_iff : OneSign m d n ↔ ¬MixedSigns m d n := by
  unfold OneSign MixedSigns
  omega

theorem bounded_iff : Bounded m d n ↔ ¬Exceeds m d n := by
  simp only [Bounded, Exceeds, not_or, Int.not_lt, abs_le]

theorem ofParts_error {f : Fault} (h : ofParts m d n = .error f) :
    (f.kind = .rangeOverflow ∧ f.shown = [firstExceeding m d n] ∧ OneSign m d n) ∨
      (f = .mixedSigns ∧ ¬OneSign m d n) := by
  unfold ofParts at h
  by_cases hs : OneSign m d n
  · rw [dif_pos hs] at h
    refine Or.inl ?_
    simp only [firstExceeding, ← not_le, abs_le, ite_not]
    repeat' split at h
    all_goals cases h
    all_goals simp [Fault.kind, Fault.shown, *]
  · rw [dif_neg hs] at h
    cases h
    exact Or.inr ⟨rfl, hs⟩

theorem exists_ofParts_iff : (∃ r, ofParts m d n = .ok r) ↔ ¬MixedSigns m d n ∧ ¬Exceeds m d n := by
  rw [← oneSign_iff, ← bounded_iff]
  simp only [ofParts_eq_ok]
  constructor
  · rintro ⟨r, rfl, rfl, rfl⟩
    exact ⟨r.oneSign, r.bounded⟩
  · rintro ⟨hs, hb⟩
    exact ⟨⟨m, d, n, hs, hb⟩, rfl, rfl, rfl⟩

theorem fails_ofParts {kind : ErrorKind} : Fails (liftM (ofParts m d n)) kind ↔
    (kind = .validation ∧ MixedSigns m d n) ∨
      (kind = ErrorKind.rangeOverflow.naming [firstExceeding m d n] ∧ ¬MixedSigns m d n ∧ Exceeds m d n) := by
  have hreturns := exists_ofParts_iff (m := m) (d := d) (n := n)
  cases h : ofParts m d n with
  | ok r =>
    obtain ⟨hs, hb⟩ := hreturns.mp ⟨r, h⟩
    refine iff_of_false not_fails_ok ?_
    rintro (⟨-, hmixed⟩ | ⟨-, -, hexceeds⟩)
    · exact hs hmixed
    · exact hb hexceeds
  | error f =>
    have hnone : ¬(¬MixedSigns m d n ∧ ¬Exceeds m d n) := by
      rw [← hreturns, h]
      rintro ⟨r, hr⟩
      cases hr
    refine fails_error.trans ?_
    rcases ofParts_error h with ⟨hkind, hshown, hs⟩ | ⟨rfl, hs⟩
    · have hs := oneSign_iff.mp hs
      have hexceeds : Exceeds m d n := not_not.mp fun hb => hnone ⟨hs, hb⟩
      simp only [Error.kind, Error.raised, Error.shown, hkind, hshown, hs, hexceeds, and_false, false_or,
        not_false_eq_true, and_true]
      exact eq_comm
    · have hs := not_not.mp (mt oneSign_iff.mpr hs)
      simp only [Error.kind, Error.raised, Error.shown, Fault.kind, Fault.shown, naming_nil, hs, and_true,
        not_true_eq_false, false_and, and_false, or_false]
      exact eq_comm

theorem firstExceeding_eq : firstExceeding m d n = m ∨ firstExceeding m d n = d ∨ firstExceeding m d n = n := by
  unfold firstExceeding
  split
  · exact Or.inl rfl
  · split
    · exact Or.inr (Or.inl rfl)
    · exact Or.inr (Or.inr rfl)

theorem natAbs_firstExceeding_le {bound : Nat} (hm : m.natAbs ≤ bound) (hd : d.natAbs ≤ bound)
    (hn : n.natAbs ≤ bound) : (firstExceeding m d n).natAbs ≤ bound := by
  rcases firstExceeding_eq (m := m) (d := d) (n := n) with h | h | h
  all_goals
    rw [h]
    assumption

/-- Parts that are not excessive are refused in words that can be written out. -/
theorem ofParts_writable {f : Fault} (hm : m.natAbs ≤ 10 ^ 40) (hd : d.natAbs ≤ 10 ^ 40) (hn : n.natAbs ≤ 10 ^ 40)
    (h : ofParts m d n = .error f) : ∀ n ∈ f.shown, Text.Writable n := by
  rcases ofParts_error h with ⟨-, hshown, -⟩ | ⟨rfl, -⟩
  · rw [hshown]
    exact List.forall_mem_singleton.mpr (Text.writable_of_natAbs_le (natAbs_firstExceeding_le hm hd hn))
  · exact List.forall_mem_nil _

theorem madeOf_ofParts (hm : m.natAbs ≤ 10 ^ 40) (hd : d.natAbs ≤ 10 ^ 40) (hn : n.natAbs ≤ 10 ^ 40) :
    MadeOf (ofParts m d n) m d n := by
  refine ⟨fun _ => ofParts_eq_ok, exists_ofParts_iff, fun kind => ?_⟩
  rw [fails_ofParts, naming_of_natAbs_le (natAbs_firstExceeding_le hm hd hn)]

end

variable {a b r s : Duration}

theorem add_eq_ok : a.add b = .ok s ↔
    s.months = a.months + b.months ∧ s.days = a.days + b.days ∧ s.nanos = a.nanos + b.nanos := ofParts_eq_ok

theorem scale_eq_ok {k : Int} : a.scale k = .ok r ↔
    r.months = a.months * k ∧ r.days = a.days * k ∧ r.nanos = a.nanos * k := ofParts_eq_ok

theorem madeOf_add (a b : Duration) :
    MadeOf (a.add b) (a.months + b.months) (a.days + b.days) (a.nanos + b.nanos) := by
  have ha := a.bounded
  have hb := b.bounded
  simp only [Bounded, maxMonths, maxNanos, maxDays, nanosPerDay] at ha hb
  exact madeOf_ofParts (by omega) (by omega) (by omega)

theorem add_comm (a b : Duration) : a.add b = b.add a := by
  simp only [add, Int.add_comm]

theorem sub_of_add (h : a.add b = .ok s) : s.sub b = .ok a := by
  obtain ⟨hm, hd, hn⟩ := add_eq_ok.mp h
  refine add_eq_ok.mpr ?_
  simp only [neg_months, neg_days, neg_nanos]
  omega

theorem neg_add (h : a.add b = .ok s) : (-a).add (-b) = .ok (-s) := by
  obtain ⟨hm, hd, hn⟩ := add_eq_ok.mp h
  refine add_eq_ok.mpr ?_
  simp only [neg_months, neg_days, neg_nanos]
  omega

theorem neg_add_iff : a.add b = .ok s ↔ (-a).add (-b) = .ok (-s) := by
  refine ⟨neg_add, fun h => ?_⟩
  have h' := neg_add h
  rwa [neg_neg, neg_neg, neg_neg] at h'

theorem OneSign.mul {m d n : Int} (h : OneSign m d n) (k : Int) : OneSign (m * k) (d * k) (n * k) := by
  rcases Int.le_total 0 k with hk | hk
  · refine h.imp ?_ ?_
    · rintro ⟨hm, hd, hn⟩
      exact ⟨Int.mul_nonneg hm hk, Int.mul_nonneg hd hk, Int.mul_nonneg hn hk⟩
    · rintro ⟨hm, hd, hn⟩
      exact ⟨Int.mul_nonpos_of_nonpos_of_nonneg hm hk, Int.mul_nonpos_of_nonpos_of_nonneg hd hk,
        Int.mul_nonpos_of_nonpos_of_nonneg hn hk⟩
  · refine (h.imp ?_ ?_).symm
    · rintro ⟨hm, hd, hn⟩
      exact ⟨Int.mul_nonpos_of_nonneg_of_nonpos hm hk, Int.mul_nonpos_of_nonneg_of_nonpos hd hk,
        Int.mul_nonpos_of_nonneg_of_nonpos hn hk⟩
    · rintro ⟨hm, hd, hn⟩
      exact ⟨Int.mul_nonneg_of_nonpos_of_nonpos hm hk, Int.mul_nonneg_of_nonpos_of_nonpos hd hk,
        Int.mul_nonneg_of_nonpos_of_nonpos hn hk⟩

theorem not_mixedSigns_scale (a : Duration) (k : Int) : ¬MixedSigns (a.months * k) (a.days * k) (a.nanos * k) :=
  oneSign_iff.mp (a.oneSign.mul k)

theorem exists_scale_iff {k : Int} :
    (∃ r, a.scale k = .ok r) ↔ ¬Exceeds (a.months * k) (a.days * k) (a.nanos * k) :=
  exists_ofParts_iff.trans (and_iff_right (a.not_mixedSigns_scale k))

theorem fails_scale {k : Int} {kind : ErrorKind} : Fails (liftM (a.scale k)) kind ↔
    kind = ErrorKind.rangeOverflow.naming [firstExceeding (a.months * k) (a.days * k) (a.nanos * k)] ∧
      Exceeds (a.months * k) (a.days * k) (a.nanos * k) := by
  have hs := a.not_mixedSigns_scale k
  refine fails_ofParts.trans ?_
  simp only [hs, and_false, false_or, not_false_eq_true, true_and]

theorem fails_scale_of_not_writable {k : Int} (h : ¬Text.Writable (a.months * k)) :
    Exceeds (a.months * k) (a.days * k) (a.nanos * k) ∧ Fails (liftM (a.scale k)) .unfitValue := by
  have hmonths : maxMonths < |a.months * k| := by
    by_contra hle
    rw [not_lt, abs_le] at hle
    simp only [maxMonths] at hle
    exact h (Text.writable_of_natAbs_le (by omega))
  have hfirst : firstExceeding (a.months * k) (a.days * k) (a.nanos * k) = a.months * k := if_pos hmonths
  refine ⟨Or.inl hmonths, fails_scale.mpr ⟨?_, Or.inl hmonths⟩⟩
  rw [hfirst, naming_of_not_writable List.mem_cons_self h]

theorem Exceeds.mul_mono {m d n k l : Int} (h : Exceeds (m * k) (d * k) (n * k)) (hkl : |k| ≤ |l|) :
    Exceeds (m * l) (d * l) (n * l) := by
  have hle (x : Int) : |x * k| ≤ |x * l| := by
    rw [abs_mul, abs_mul]
    gcongr
  exact h.imp (lt_of_lt_of_le · (hle m)) (Or.imp (lt_of_lt_of_le · (hle d)) (lt_of_lt_of_le · (hle n)))

theorem abs_natCast_le {m n : Nat} (h : m ≤ n) : |(m : Int)| ≤ |(n : Int)| := by
  rwa [Nat.abs_cast, Nat.abs_cast, Int.ofNat_le]

/-- Where a multiple is accepted, the smaller ones are. -/
theorem exists_scale_of_le {k l : Int} (hkl : |k| ≤ |l|) (h : a.scale l = .ok r) : ∃ s, a.scale k = .ok s :=
  exists_scale_iff.mpr fun hexceeds => exists_scale_iff.mp ⟨r, h⟩ (hexceeds.mul_mono hkl)

theorem scale_neg {k : Int} (h : a.scale k = .ok r) : a.scale (-k) = .ok (-r) := by
  obtain ⟨hm, hd, hn⟩ := scale_eq_ok.mp h
  refine scale_eq_ok.mpr ?_
  simp only [neg_months, neg_days, neg_nanos, hm, hd, hn, Int.mul_neg, and_self]

theorem scale_scale {k l : Int} (h : a.scale k = .ok s) : s.scale l = a.scale (k * l) := by
  obtain ⟨hm, hd, hn⟩ := scale_eq_ok.mp h
  simp only [scale, hm, hd, hn, Int.mul_assoc]

/-- A duration added so many times, one after the other. The first sum that is refused ends it. -/
def addedTimes (a : Duration) : Nat → Except Fault Duration
  | 0 => .ok zero
  | n + 1 => do
    let s ← addedTimes a n
    s.add a

theorem scale_succ {n : Nat} (h : a.scale n = .ok s) : s.add a = .ok r ↔ a.scale (n + 1 : Nat) = .ok r := by
  obtain ⟨hm, hd, hn⟩ := scale_eq_ok.mp h
  rw [add_eq_ok, scale_eq_ok, hm, hd, hn]
  simp only [Int.natCast_add, Int.natCast_one, Int.mul_add, Int.mul_one]

/-- If the whole multiple is accepted, so is every sum before it. -/
theorem addedTimes_eq_ok {n : Nat} : a.addedTimes n = .ok r ↔ a.scale n = .ok r := by
  induction n generalizing r with
  | zero =>
    have hzero : a.scale (0 : Nat) = .ok zero := scale_eq_ok.mpr (by simp [zero])
    rw [hzero]
    rfl
  | succ n ih =>
    rw [addedTimes, bind_eq_ok]
    constructor
    · rintro ⟨s, hs, hr⟩
      exact (scale_succ (ih.mp hs)).mp hr
    · intro hr
      obtain ⟨s, hs⟩ := exists_scale_of_le (abs_natCast_le n.le_succ) hr
      exact ⟨s, ih.mpr hs, (scale_succ hs).mpr hr⟩

/-- Sums and multiples are taken part by part. A sum can be taken back, in either order of its terms, and negation is
always possible and goes through it. A multiple is never refused for its signs, only for its size, and the component
that is too large is named if it can be written out. A multiple is the sum of so many terms, each of which can be
reached, goes through negation, and a multiple of a multiple is one of the duration. -/
theorem sums_and_multiples_agree (a b : Duration) :
    MadeOf (a.add b) (a.months + b.months) (a.days + b.days) (a.nanos + b.nanos) ∧
    (∀ s, a.add b = .ok s → s.sub b = .ok a ∧ b.add a = .ok s) ∧
    (ofParts (-a.months) (-a.days) (-a.nanos) = .ok (-a) ∧ -(-a) = a) ∧
    (∀ s, a.add b = .ok s ↔ (-a).add (-b) = .ok (-s)) ∧
    (∀ k : Int,
      ((∃ r, a.scale k = .ok r) ↔ ¬Exceeds (a.months * k) (a.days * k) (a.nanos * k)) ∧
      ∀ kind, Fails (liftM (a.scale k)) kind ↔
        kind = ErrorKind.rangeOverflow.naming [firstExceeding (a.months * k) (a.days * k) (a.nanos * k)] ∧
          Exceeds (a.months * k) (a.days * k) (a.nanos * k)) ∧
    (∀ (n : Nat) r, a.scale n = .ok r → a.addedTimes n = .ok r ∧ ∀ m ≤ n, ∃ s, a.addedTimes m = .ok s) ∧
    (∀ (k : Int) r, a.scale k = .ok r → a.scale (-k) = .ok (-r)) ∧
    ∀ (k l : Int) s, a.scale k = .ok s → s.scale l = a.scale (k * l) := by
  refine ⟨madeOf_add a b, fun s h => ⟨sub_of_add h, add_comm a b ▸ h⟩, ⟨ofParts_parts (-a), neg_neg a⟩,
    fun s => neg_add_iff, fun k => ⟨exists_scale_iff, fun _ => fails_scale⟩,
    fun n r h => ⟨addedTimes_eq_ok.mpr h, fun m hm => ?_⟩, fun k r => scale_neg, fun k l s => scale_scale⟩
  obtain ⟨s, hs⟩ := exists_scale_of_le (abs_natCast_le hm) h
  exact ⟨s, addedTimes_eq_ok.mpr hs⟩

/-- A month and a day: three times the sum of both, and what a day less than a month would be. -/
theorem sums_and_multiples_agree_on_month_and_day :
    let month : Duration := ⟨1, 0, 0, by decide, by decide⟩
    let day : Duration := ⟨0, 1, 0, by decide, by decide⟩
    let both : Duration := ⟨1, 1, 0, by decide, by decide⟩
    let three : Duration := ⟨3, 3, 0, by decide, by decide⟩
    (month.add day = .ok both ∧ both.sub day = .ok month ∧ (-month).add (-day) = .ok (-both)) ∧
      Fails (liftM (month.add (-day))) .validation ∧
      (both.scale 3 = .ok three ∧ both.addedTimes 3 = .ok three ∧ both.scale (-3) = .ok (-three)) ∧
      three.scale (-2) = both.scale (3 * -2) ∧ Fails (liftM (both.scale 119989)) .rangeOverflow := by
  intro month day both three
  obtain ⟨-, hback, -, hneg, -⟩ := sums_and_multiples_agree month day
  obtain ⟨hmade, -⟩ := sums_and_multiples_agree month (-day)
  obtain ⟨-, -, -, -, hscale, htimes, hscaleNeg, hscaleScale⟩ := sums_and_multiples_agree both zero
  have hboth : month.add day = .ok both := rfl
  have hthree : both.scale 3 = .ok three := rfl
  refine ⟨⟨hboth, (hback _ hboth).1, (hneg _).mp hboth⟩, ?_,
    ⟨hthree, (htimes 3 three hthree).1, hscaleNeg _ _ hthree⟩, hscaleScale _ _ _ hthree, ?_⟩
  · exact (hmade.fails _).mpr (Or.inl ⟨rfl, by decide, by decide⟩)
  · exact ((hscale 119989).2 _).mpr ⟨by decide, Or.inl (by decide)⟩

/-- Ten months so many times that their number has a digit too many: the multiple is not refused as out of range. -/
theorem months_with_too_many_digits_are_not_named :
    let months : Duration := ⟨10, 0, 0, by decide, by decide⟩
    let k : Int := (10 ^ (Text.maxDigits - 1) : Nat)
    Exceeds (months.months * k) (months.days * k) (months.nanos * k) ∧
      Fails (liftM (months.scale k)) .unfitValue ∧ ¬Fails (liftM (months.scale k)) .rangeOverflow := by
  intro months k
  have hpow {digits : Nat} (h : 0 < digits) : 10 ^ (digits - 1) * 10 = 10 ^ digits := Nat.pow_pred_mul h
  have hlong : ¬Text.Writable (months.months * k) := by
    refine Text.not_writable_of_le ?_
    rw [← hpow (show 0 < Text.maxDigits by decide), Int.natCast_mul, Int.mul_comm]
    exact Int.le_refl _
  obtain ⟨hexceeds, hfails⟩ := fails_scale_of_not_writable hlong
  exact ⟨hexceeds, hfails, fun h => nomatch hfails.unique h⟩

end CivilTime.Duration
