/- A text of each form has the shape of the form. -/
import CivilTime.Proofs.Iso8601.DurationGrammar
import CivilTime.Proofs.Rfc3339.Grammar
import CivilTime.Value.Iso8601

namespace CivilTime

open Text

section
variable {c : Char}

theorem Text.ne_of_isDigit {d : Char} (hd : d.isDigit = true) (hc : c.isDigit = false) : d ≠ c := by
  rintro rfl
  exact Bool.false_ne_true (hc.symm.trans hd)

theorem Text.DigitRun.notMem_chars {least most : Nat} (hc : c.isDigit = false) (x : DigitRun least most) :
    c ∉ x.chars :=
  fun h => ne_of_isDigit (x.isDigit c h) hc rfl

theorem Text.notMem_fractionChars (hc : c.isDigit = false) (hdot : c ≠ '.') (x : Option (DigitRun 1 9)) :
    c ∉ fractionChars x := by
  cases x with
  | none => exact List.not_mem_nil
  | some x => exact List.not_mem_cons_of_ne_of_not_mem hdot (x.notMem_chars hc)

namespace Iso8601

theorem DateText.notMem_chars (hc : c.isDigit = false) (hdash : c ≠ '-') (x : DateText) : c ∉ x.chars := by
  simp only [chars, List.mem_append, List.mem_cons, DigitRun.notMem_chars hc, hdash, or_self, not_false_iff]

theorem ClockText.notMem_chars (hc : c.isDigit = false) (hcolon : c ≠ ':') (hdot : c ≠ '.') (x : ClockText) :
    c ∉ x.chars := by
  simp only [chars, List.mem_append, List.mem_cons, DigitRun.notMem_chars hc, notMem_fractionChars hc hdot, hcolon,
    or_self, not_false_iff]

theorem OffsetText.notMem_chars (hc : c.isDigit = false) (hz : c ≠ 'Z') (hcolon : c ≠ ':') (hplus : c ≠ '+')
    (hminus : c ≠ '-') (x : OffsetText) : c ∉ x.chars := by
  cases x with
  | utc => exact List.not_mem_cons_of_ne_of_not_mem hz List.not_mem_nil
  | numeric negative hours minutes seconds =>
    have hsign : c ≠ if negative then '-' else '+' := by cases negative <;> assumption
    have hseconds : c ∉ secondsChars seconds := by
      cases seconds with
      | none => exact List.not_mem_nil
      | some s => exact List.not_mem_cons_of_ne_of_not_mem hcolon (s.notMem_chars hc)
    simp only [chars, List.mem_append, List.mem_cons, DigitRun.notMem_chars hc, hcolon, hsign, hseconds, or_self,
      not_false_iff]

end Iso8601
end

namespace Value

open Iso8601 Rfc3339

theorem getLast?_ne_of_notMem {c : Char} {cs : List Char} (h : c ∉ cs) : cs.getLast? ≠ some c :=
  fun hlast => h (List.mem_of_getLast? hlast)

/-- A text that starts with digits is no duration. -/
theorem not_duration_of_digits {least most : Nat} (x : DigitRun (least + 1) most) (cs : List Char) :
    ¬(['P'].isPrefixOf (x.chars ++ cs) ∨ ['-', 'P'].isPrefixOf (x.chars ++ cs)) := by
  obtain ⟨c, r, hc⟩ := List.exists_cons_of_length_pos (Nat.lt_of_lt_of_le (Nat.succ_pos least) x.least_le)
  have hdigit : c.isDigit = true := x.isDigit c (hc ▸ List.mem_cons_self)
  have hp : ('P' == c) = false := beq_false_of_ne (ne_of_isDigit hdigit rfl).symm
  have hdash : ('-' == c) = false := beq_false_of_ne (ne_of_isDigit hdigit rfl).symm
  simp only [hc, List.cons_append, List.isPrefixOf_cons_cons, hp, hdash, Bool.false_and, Bool.false_eq_true, or_self,
    not_false_iff]

theorem not_duration_of_date (x : DateText) (cs : List Char) :
    ¬(['P'].isPrefixOf (x.chars ++ cs) ∨ ['-', 'P'].isPrefixOf (x.chars ++ cs)) := by
  rw [DateText.chars, List.append_assoc]
  exact not_duration_of_digits x.year _

theorem shape_duration (x : DurationText) : shape x.chars = .duration := by
  rw [shape, if_pos]
  rw [DurationText.chars]
  cases x.negative with
  | true => exact Or.inr rfl
  | false => exact Or.inl rfl

theorem shape_date (x : DateText) : shape x.chars = .date := by
  have hstart := not_duration_of_date x []
  rw [List.append_nil] at hstart
  -- The third character is a digit of the year.
  have hcolon : x.chars[2]? ≠ some ':' := by
    intro h
    rw [DateText.chars, List.getElem?_append_left (Nat.lt_of_lt_of_le (by decide) x.year.least_le)] at h
    exact x.year.notMem_chars rfl (List.mem_of_getElem? h)
  rw [shape, if_neg hstart, if_neg (getLast?_ne_of_notMem (x.notMem_chars rfl (by decide))),
    if_neg (x.notMem_chars rfl (by decide)), if_neg hcolon]

theorem shape_clock (x : ClockText) : shape x.chars = .time := by
  have hlen : x.hour.chars.length = 2 := Nat.le_antisymm x.hour.le_most x.hour.least_le
  have hbracket : ']' ∉ x.chars := x.notMem_chars rfl (by decide) (by decide)
  have hcolon : x.chars[2]? = some ':' := by
    rw [ClockText.chars, List.getElem?_append_right (Nat.le_of_eq hlen), hlen]
    rfl
  have hstart : ¬(['P'].isPrefixOf x.chars ∨ ['-', 'P'].isPrefixOf x.chars) := not_duration_of_digits x.hour _
  rw [shape, if_neg hstart, if_neg (getLast?_ne_of_notMem hbracket),
    if_neg (x.notMem_chars rfl (by decide) (by decide)), if_pos hcolon]

/-- What stands behind a date is found behind the `T`. -/
theorem tail_dropWhile (x : DateText) (cs : List Char) :
    ((x.chars ++ 'T' :: cs).dropWhile (· != 'T')).tail = cs := by
  have hx : ∀ c ∈ x.chars, (c != 'T') = true := fun c hc => by
    rw [bne_iff_ne]
    rintro rfl
    exact x.notMem_chars rfl (by decide) hc
  rw [List.dropWhile_append_of_pos hx]
  rfl

/-- Behind the `T`, an offset makes the difference. -/
theorem shape_date_append {x : DateText} {cs : List Char} (hbracket : ']' ∉ cs) : shape (x.chars ++ 'T' :: cs) =
    if cs.getLast? = some 'Z' ∨ '+' ∈ cs ∨ '-' ∈ cs then .timestamp else .localDateTime := by
  have hlast : ']' ∉ x.chars ++ 'T' :: cs := by
    rw [List.mem_append, List.mem_cons]
    rintro (h | h | h)
    · exact x.notMem_chars rfl (by decide) h
    · cases h
    · exact hbracket h
  have hmem : 'T' ∈ x.chars ++ 'T' :: cs := List.mem_append_right _ List.mem_cons_self
  rw [shape, if_neg (not_duration_of_date x _), if_neg (getLast?_ne_of_notMem hlast), if_pos hmem,
    tail_dropWhile]

theorem shape_localDateTime (x : DateText) (y : ClockText) : shape (x.chars ++ 'T' :: y.chars) = .localDateTime := by
  have hoffset : ¬(y.chars.getLast? = some 'Z' ∨ '+' ∈ y.chars ∨ '-' ∈ y.chars) := by
    rintro (h | h | h)
    · exact getLast?_ne_of_notMem (y.notMem_chars rfl (by decide) (by decide)) h
    · exact y.notMem_chars rfl (by decide) (by decide) h
    · exact y.notMem_chars rfl (by decide) (by decide) h
  rw [shape_date_append (y.notMem_chars rfl (by decide) (by decide)), if_neg hoffset]

theorem shape_timestamp (x : TimestampText) : shape x.chars = .timestamp := by
  have hbracket : ']' ∉ x.clock.chars ++ x.offset.chars := by
    rw [List.mem_append, not_or]
    exact ⟨x.clock.notMem_chars rfl (by decide) (by decide),
      x.offset.notMem_chars rfl (by decide) (by decide) (by decide) (by decide)⟩
  rw [TimestampText.chars, shape_date_append hbracket, if_pos]
  cases x.offset with
  | utc => exact Or.inl List.getLast?_concat
  | numeric negative hours minutes seconds =>
    cases negative with
    | true => exact Or.inr (Or.inr (List.mem_append_right _ List.mem_cons_self))
    | false => exact Or.inr (Or.inl (List.mem_append_right _ List.mem_cons_self))

/-- A bracket at the end counts before anything inside the brackets does. -/
theorem shape_zoned (x : TimestampText) (id : List Char) : shape (x.chars ++ '[' :: (id ++ [']'])) = .zoned := by
  have hlast : (x.chars ++ '[' :: (id ++ [']'])).getLast? = some ']' := by
    rw [← List.cons_append, ← List.append_assoc]
    exact List.getLast?_concat
  rw [shape, if_neg, if_pos hlast]
  rw [TimestampText.chars, List.append_assoc]
  exact not_duration_of_date x.date _

end Value

end CivilTime
