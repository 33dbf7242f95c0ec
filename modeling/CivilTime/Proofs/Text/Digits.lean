/- Numbers read back from their digits. -/
import CivilTime.Text.Digits
import Mathlib.Algebra.Group.Nat.Defs
import Mathlib.Data.List.Induction

namespace CivilTime.Text

theorem isDigit_of_mem_fixed {width n : Nat} {c : Char} (h : c ∈ fixed width n) : c.isDigit = true := by
  induction width generalizing n with
  | zero => cases h
  | succ width ih =>
    rcases List.mem_append.mp h with h | h
    · exact ih h
    · rw [List.mem_singleton.mp h, Nat.isDigit_digitChar]
      exact decide_eq_true (Nat.mod_lt n (by decide))

theorem ofDigitChars_fixed_of_lt {width n : Nat} (h : n < 10 ^ width) :
    Nat.ofDigitChars 10 (fixed width n) 0 = n :=
  (ofDigitChars_fixed width n).trans (Nat.mod_eq_of_lt h)

theorem exists_digitChar {c : Char} (h : c.isDigit = true) :
    ∃ d < 10, c.toNat - '0'.toNat = d ∧ Nat.digitChar d = c := by
  obtain ⟨h0, h9⟩ := Char.isDigit_iff_toNat.mp h
  have hzero : '0'.toNat = 48 := rfl
  have hnine : '9'.toNat = 57 := rfl
  have hlt : c.toNat - '0'.toNat < 10 := by omega
  refine ⟨c.toNat - '0'.toNat, hlt, rfl, Char.toNat_inj.mp ?_⟩
  rw [Nat.toNat_digitChar_of_lt_ten hlt]
  omega

/-- Digits are written again from the number that they denote. -/
theorem fixed_ofDigitChars {cs : List Char} (h : ∀ c ∈ cs, c.isDigit = true) :
    fixed cs.length (Nat.ofDigitChars 10 cs 0) = cs := by
  induction cs using List.reverseRecOn with
  | nil => rfl
  | append_singleton cs c ih =>
    obtain ⟨d, hd, hc, hchar⟩ := exists_digitChar (h c (List.mem_append_right _ List.mem_cons_self))
    have hcs := ih fun c hc => h c (List.mem_append_left _ hc)
    have hvalue : Nat.ofDigitChars 10 (cs ++ [c]) 0 = 10 * Nat.ofDigitChars 10 cs 0 + d := by
      rw [Nat.ofDigitChars_append, Nat.ofDigitChars_cons, Nat.ofDigitChars_nil, hc]
    have hdiv : (10 * Nat.ofDigitChars 10 cs 0 + d) / 10 = Nat.ofDigitChars 10 cs 0 := by omega
    have hmod : (10 * Nat.ofDigitChars 10 cs 0 + d) % 10 = d := by omega
    rw [hvalue, List.length_append, List.length_singleton, fixed, hdiv, hmod, hcs, hchar]

theorem ofDigitChars_lt {cs : List Char} (h : ∀ c ∈ cs, c.isDigit = true) :
    Nat.ofDigitChars 10 cs 0 < 10 ^ cs.length := by
  have hvalue := ofDigitChars_fixed cs.length (Nat.ofDigitChars 10 cs 0)
  rw [fixed_ofDigitChars h] at hvalue
  rw [hvalue]
  exact Nat.mod_lt _ (Nat.pow_pos (by decide))

theorem decimal_ne_nil (n : Nat) : decimal n ≠ [] := Nat.toDigits_ne_nil

theorem length_decimal_le {n width : Nat} (hw : 0 < width) (h : n < 10 ^ width) :
    (decimal n).length ≤ width :=
  (Nat.length_toDigits_le_iff (by decide) hw).mpr h

theorem writable_iff {n : Int} : Writable n ↔ n.natAbs < 10 ^ maxDigits :=
  Nat.length_toDigits_le_iff (by decide) (by decide)

/-- Whatever is reckoned from fields that have been checked is far from the limit. -/
theorem writable_of_natAbs_le {n : Int} (h : n.natAbs ≤ 10 ^ 40) : Writable n := by
  have hlt : 10 ^ 40 < 10 ^ maxDigits := Nat.pow_lt_pow_right (by decide) (by decide)
  exact writable_iff.mpr (Nat.lt_of_le_of_lt h hlt)

theorem not_writable_of_le {n : Int} (h : (10 ^ maxDigits : Nat) ≤ n) : ¬Writable n := by
  rw [writable_iff]
  omega

open fraction (dropZeros)

/-- What is dropped are zeros at the end. -/
theorem exists_dropZeros (cs : List Char) : ∃ k, cs = dropZeros cs ++ List.replicate k '0' := by
  induction cs with
  | nil => exact ⟨0, rfl⟩
  | cons c r ih =>
    obtain ⟨k, hk⟩ := ih
    unfold dropZeros
    cases hr : dropZeros r with
    | nil =>
      rw [hr, List.nil_append] at hk
      by_cases hc : c = '0'
      · exact ⟨k + 1, by rw [if_pos hc, hc, hk]; rfl⟩
      · exact ⟨k, by rw [if_neg hc, hk]; rfl⟩
    | cons d s =>
      rw [hr] at hk
      exact ⟨k, congrArg (c :: ·) hk⟩

theorem mem_of_mem_dropZeros {cs : List Char} {c : Char} (h : c ∈ dropZeros cs) : c ∈ cs := by
  obtain ⟨k, hk⟩ := exists_dropZeros cs
  rw [hk]
  exact List.mem_append_left _ h

theorem length_dropZeros_le (cs : List Char) : (dropZeros cs).length ≤ cs.length := by
  obtain ⟨k, hk⟩ := exists_dropZeros cs
  have h := congrArg List.length hk
  rw [List.length_append] at h
  omega

/-- Zeros at the end of a fraction are made up for by its scale. -/
theorem fractionNanos_append_zeros {cs : List Char} {k : Nat} (h : cs.length + k ≤ 9) :
    fractionNanos (cs ++ List.replicate k '0') = fractionNanos cs := by
  have hscale : 9 - cs.length = k + (9 - (cs.length + k)) := by omega
  show Nat.ofDigitChars 10 (cs ++ List.replicate k '0') 0 * 10 ^ (9 - (cs ++ List.replicate k '0').length) =
    Nat.ofDigitChars 10 cs 0 * 10 ^ (9 - cs.length)
  rw [List.length_append, List.length_replicate, Nat.ofDigitChars_append, Nat.ofDigitChars_replicate_zero, hscale,
    Nat.pow_add, Nat.mul_comm (10 ^ k), Nat.mul_assoc]

theorem fractionNanos_fixed {n : Nat} (h : n < 10 ^ 9) : fractionNanos (fixed 9 n) = n := by
  rw [fractionNanos, length_fixed, ofDigitChars_fixed_of_lt h]
  exact Nat.mul_one n

theorem fractionNanos_dropZeros {n : Nat} (h : n < 10 ^ 9) :
    fractionNanos (dropZeros (fixed 9 n)) = n := by
  obtain ⟨k, hk⟩ := exists_dropZeros (fixed 9 n)
  have hlen := congrArg List.length hk
  rw [length_fixed, List.length_append, List.length_replicate] at hlen
  rw [← fractionNanos_append_zeros (Nat.le_of_eq hlen.symm), ← hk, fractionNanos_fixed h]

/-- A fraction of at most nine digits is written to all nine by zeros at its end. -/
theorem fixed_fractionNanos {cs : List Char} (h : ∀ c ∈ cs, c.isDigit = true) (hlen : cs.length ≤ 9) :
    fixed 9 (fractionNanos cs) = cs ++ List.replicate (9 - cs.length) '0' := by
  have hall : (cs ++ List.replicate (9 - cs.length) '0').length = 9 := by
    rw [List.length_append, List.length_replicate]
    omega
  have hdigit : ∀ c ∈ cs ++ List.replicate (9 - cs.length) '0', c.isDigit = true := by
    intro c hc
    rcases List.mem_append.mp hc with hc | hc
    · exact h c hc
    · rw [List.eq_of_mem_replicate hc]
      rfl
  have hfixed := fixed_ofDigitChars hdigit
  rw [hall] at hfixed
  rw [← fractionNanos_append_zeros (Nat.le_of_eq (Nat.add_sub_cancel' hlen)), fractionNanos, hall]
  exact (congrArg (fixed 9) (Nat.mul_one _)).trans hfixed

/-- Fractions of at most nine digits are equal if one of them is the other with zeros at its end. -/
theorem fractionNanos_eq_iff {cs ds : List Char} (hcs : ∀ c ∈ cs, c.isDigit = true) (hds : ∀ c ∈ ds, c.isDigit = true)
    (hclen : cs.length ≤ 9) (hdlen : ds.length ≤ 9) :
    fractionNanos cs = fractionNanos ds ↔
      ∃ k, cs = ds ++ List.replicate k '0' ∨ ds = cs ++ List.replicate k '0' := by
  constructor
  · intro h
    have hfixed := congrArg (fixed 9) h
    rw [fixed_fractionNanos hcs hclen, fixed_fractionNanos hds hdlen] at hfixed
    rcases List.append_eq_append_iff.mp hfixed with ⟨zeros, hd, hzeros⟩ | ⟨zeros, hc, hzeros⟩
    · obtain ⟨-, hrep, -⟩ := List.append_eq_replicate_iff.mp hzeros.symm
      exact ⟨zeros.length, Or.inr (hrep ▸ hd)⟩
    · obtain ⟨-, hrep, -⟩ := List.append_eq_replicate_iff.mp hzeros.symm
      exact ⟨zeros.length, Or.inl (hrep ▸ hc)⟩
  · rintro ⟨k, rfl | rfl⟩
    · rw [List.length_append, List.length_replicate] at hclen
      exact fractionNanos_append_zeros hclen
    · rw [List.length_append, List.length_replicate] at hdlen
      exact (fractionNanos_append_zeros hdlen).symm

theorem dropZeros_fixed_ne_nil {n : Nat} (h0 : n ≠ 0) (h : n < 10 ^ 9) :
    dropZeros (fixed 9 n) ≠ [] := by
  intro he
  have hvalue := fractionNanos_dropZeros h
  rw [he] at hvalue
  exact h0 hvalue.symm

end CivilTime.Text
