/- Which texts readers accept: each takes a text of exactly its form off the front. -/
import CivilTime.Proofs.Text.Reader

namespace CivilTime.Text

/-- Digits, not fewer than `least` and not more than `most`. -/
structure DigitRun (least most : Nat) where
  chars : List Char
  isDigit : ∀ c ∈ chars, c.isDigit = true
  least_le : least ≤ chars.length
  le_most : chars.length ≤ most

namespace DigitRun

variable {least most width : Nat}

theorem ext_chars {x y : DigitRun least most} (h : x.chars = y.chars) : x = y := by
  cases x
  cases y
  cases h
  rfl

/-- Digits given one by one. -/
def ofChars (cs : List Char) (h : cs.all Char.isDigit = true) (hleast : least ≤ cs.length) (hmost : cs.length ≤ most) :
    DigitRun least most :=
  ⟨cs, List.all_eq_true.mp h, hleast, hmost⟩

/-- A number with leading zeros. -/
def ofFixed (width n : Nat) : DigitRun width width :=
  ⟨fixed width n, fun _ => isDigit_of_mem_fixed, Nat.le_of_eq (length_fixed width n).symm,
    Nat.le_of_eq (length_fixed width n)⟩

/-- A number without leading zeros. -/
def ofDecimal {n : Nat} (hmost : 0 < most) (h : n < 10 ^ most) : DigitRun 1 most :=
  ⟨decimal n, fun _ => isDigit_of_mem_decimal, List.length_pos_iff.mpr (decimal_ne_nil n), length_decimal_le hmost h⟩

/-- The number in decimal. -/
def value (x : DigitRun least most) : Nat := Nat.ofDigitChars 10 x.chars 0

/-- The number behind a point, in billionths. -/
def billionths (x : DigitRun 1 9) : Nat := x.value * 10 ^ (9 - x.chars.length)

theorem ne_nil (x : DigitRun 1 most) : x.chars ≠ [] := by
  intro h
  have := x.least_le
  rw [h] at this
  exact Nat.not_succ_le_zero 0 this

theorem not_ends (x : DigitRun 1 most) (rest : List Char) : ¬Ends Char.isDigit (x.chars ++ rest) := by
  intro h
  obtain ⟨c, r, hc⟩ := List.exists_cons_of_ne_nil x.ne_nil
  rw [hc] at h
  have hdigit := x.isDigit c (hc ▸ List.mem_cons_self)
  rw [h c rfl] at hdigit
  cases hdigit

theorem value_ofFixed {n : Nat} (h : n < 10 ^ width) : (ofFixed width n).value = n := ofDigitChars_fixed_of_lt h

theorem natCast_value_ofFixed {n : Int} (h0 : 0 ≤ n) (h : n.toNat < 10 ^ width) :
    ((ofFixed width n.toNat).value : Int) = n := by
  rw [value_ofFixed h, Int.toNat_of_nonneg h0]

theorem value_ofDecimal {n : Nat} (hmost : 0 < most) (h : n < 10 ^ most) : (ofDecimal hmost h).value = n :=
  ofDigitChars_decimal n

theorem fixed_value (x : DigitRun width width) : fixed width x.value = x.chars := by
  have h := fixed_ofDigitChars x.isDigit
  rwa [Nat.le_antisymm x.le_most x.least_le] at h

/-- Of two numbers with one width the digits are the same if the values are. -/
theorem value_inj {x y : DigitRun width width} : x.value = y.value ↔ x = y := by
  constructor
  · intro h
    apply ext_chars
    rw [← x.fixed_value, ← y.fixed_value, h]
  · rintro rfl
    rfl

theorem value_lt (x : DigitRun least most) : x.value < 10 ^ most :=
  Nat.lt_of_lt_of_le (ofDigitChars_lt x.isDigit) (Nat.pow_le_pow_right (by decide) x.le_most)

theorem billionths_lt (x : DigitRun 1 9) : x.billionths < 10 ^ 9 := by
  have hlen := x.le_most
  calc x.value * 10 ^ (9 - x.chars.length)
    _ < 10 ^ x.chars.length * 10 ^ (9 - x.chars.length) :=
        Nat.mul_lt_mul_of_pos_right (ofDigitChars_lt x.isDigit) (Nat.pow_pos (by decide))
    _ = 10 ^ 9 := by rw [← Nat.pow_add, Nat.add_sub_cancel' hlen]

end DigitRun

/-- A fraction as it is written, or nothing. -/
def fractionChars : Option (DigitRun 1 9) → List Char
  | none => []
  | some f => '.' :: f.chars

/-- Nothing counts as zero. -/
def fractionBillionths (x : Option (DigitRun 1 9)) : Nat := (x.map DigitRun.billionths).getD 0

theorem fractionBillionths_lt (x : Option (DigitRun 1 9)) : fractionBillionths x < 10 ^ 9 := by
  cases x with
  | none => decide
  | some x => exact x.billionths_lt

/-- A fraction is written with digits, or not at all if it is zero. -/
theorem exists_fractionChars_eq {n : Nat} (h : n < 10 ^ 9) :
    ∃ x, fractionChars x = Text.fraction n ∧ fractionBillionths x = n := by
  by_cases h0 : n = 0
  · exact ⟨none, by rw [h0]; rfl, h0.symm⟩
  · have hlen := length_dropZeros_le (fixed 9 n)
    rw [length_fixed] at hlen
    refine ⟨some ⟨fraction.dropZeros (fixed 9 n), fun c hc => isDigit_of_mem_fixed (mem_of_mem_dropZeros hc),
      List.length_pos_iff.mpr (dropZeros_fixed_ne_nil h0 h), hlen⟩, ?_, fractionNanos_dropZeros h⟩
    rw [Text.fraction, if_neg h0]
    rfl

theorem ends_fractionChars {p : Char → Bool} {rest : List Char} (hdot : p '.' = false) (h : Ends p rest)
    (x : Option (DigitRun 1 9)) : Ends p (fractionChars x ++ rest) := by
  cases x with
  | none => exact h
  | some x => exact ends_cons hdot _

namespace Reader

variable {α β : Type} {p : Reader α} {f : α → Reader β} {a : α} {b : β} {c : Char} {cs rest : List Char}

theorem bind_run_eq_ok : (p >>= f) cs = .ok (b, rest) ↔ ∃ a mid, p cs = .ok (a, mid) ∧ f a mid = .ok (b, rest) := by
  show (p cs >>= fun x => f x.1 x.2) = _ ↔ _
  rw [bind_eq_ok]
  constructor
  · rintro ⟨⟨a, mid⟩, ha, hb⟩
    exact ⟨a, mid, ha, hb⟩
  · rintro ⟨a, mid, ha, hb⟩
    exact ⟨(a, mid), ha, hb⟩

theorem map_run_eq_ok {g : α → β} : (g <$> p) cs = .ok (b, rest) ↔ ∃ a, p cs = .ok (a, rest) ∧ g a = b := by
  constructor
  · intro h
    obtain ⟨a, mid, ha, hb⟩ := bind_run_eq_ok.mp (show (p >>= fun a => pure (g a)) cs = .ok (b, rest) from h)
    cases hb
    exact ⟨a, ha, rfl⟩
  · rintro ⟨a, ha, rfl⟩
    exact map_of_ok ha

theorem pure_run_eq_ok {a' : α} : (pure a : Reader α) cs = .ok (a', rest) ↔ a = a' ∧ cs = rest := by
  rw [pure_run, Except.ok.injEq, Prod.mk.injEq]

theorem atDigit_eq_ok {taken : Bool} : atDigit cs = .ok (taken, rest) ↔
    cs = rest ∧ (taken = false ↔ Ends Char.isDigit cs) := by
  have hends : (cs.head?.map Char.isDigit).getD false = false ↔ Ends Char.isDigit cs := by
    cases cs with
    | nil => exact iff_of_true rfl (ends_nil _)
    | cons c r => exact ⟨fun h => ends_cons h r, fun h => h c rfl⟩
  rw [atDigit, Except.ok.injEq, Prod.mk.injEq, and_comm, ← hends]
  cases taken <;> simp

theorem expect_literal_eq_ok {literal : List Char} {u : Unit} :
    expect literal cs = .ok (u, rest) ↔ cs = literal ++ rest := by
  constructor
  · intro h
    rw [expect] at h
    split at h
    · rename_i hpre
      obtain ⟨r, rfl⟩ := List.isPrefixOf_iff_prefix.mp hpre
      rw [List.drop_left] at h
      cases h
      rfl
    · cases h
  · rintro rfl
    rw [expect, if_pos (List.isPrefixOf_iff_prefix.mpr (List.prefix_append literal rest)), List.drop_left]

theorem expect_eq_ok {u : Unit} : expect [c] cs = .ok (u, rest) ↔ cs = c :: rest := expect_literal_eq_ok

theorem accept_eq_ok {taken : Bool} : accept [c] cs = .ok (taken, rest) ↔
    (taken = true ∧ cs = c :: rest) ∨ (taken = false ∧ Ends (· == c) cs ∧ cs = rest) := by
  constructor
  · intro h
    cases cs with
    | nil =>
      cases h
      exact Or.inr ⟨rfl, ends_nil _, rfl⟩
    | cons d r =>
      by_cases hd : d = c
      · subst hd
        rw [accept_cons] at h
        cases h
        exact Or.inl ⟨rfl, rfl⟩
      · have hends : Ends (· == c) (d :: r) := ends_cons (by simpa using hd) r
        rw [accept_of_ends hends] at h
        cases h
        exact Or.inr ⟨rfl, hends, rfl⟩
  · rintro (⟨rfl, rfl⟩ | ⟨rfl, hends, rfl⟩)
    · exact accept_cons c rest
    · exact accept_of_ends hends

theorem digits_eq_ok {width n : Nat} {field : String} :
    digits width field cs = .ok (n, rest) ↔ ∃ x : DigitRun width width, cs = x.chars ++ rest ∧ x.value = n := by
  constructor
  · intro h
    rw [digits] at h
    split at h
    · rename_i hchunk
      obtain ⟨hlen, hall⟩ := hchunk
      cases h
      exact ⟨⟨cs.take width, List.all_eq_true.mp hall, Nat.le_of_eq hlen.symm, Nat.le_of_eq hlen⟩,
        (List.take_append_drop width cs).symm, rfl⟩
    · cases h
  · rintro ⟨x, rfl, rfl⟩
    have hlen := Nat.le_antisymm x.le_most x.least_le
    rw [digits, List.take_left' hlen, List.drop_left' hlen, if_pos ⟨hlen, List.all_eq_true.mpr x.isDigit⟩]
    rfl

theorem takeWhile_eq_ok {q : Char → Bool} {run : List Char} :
    takeWhile q cs = .ok (run, rest) ↔ cs = run ++ rest ∧ (∀ c ∈ run, q c = true) ∧ Ends q rest := by
  constructor
  · intro h
    cases h
    refine ⟨List.takeWhile_append_dropWhile.symm, List.all_eq_true.mp List.all_takeWhile, ?_⟩
    intro c hc
    have hdrop := List.head?_dropWhile_not q cs
    rwa [Option.mem_def.mp hc] at hdrop
  · rintro ⟨rfl, hrun, hends⟩
    exact takeWhile_append hrun hends

/-- A run of digits is read up to its end and must not be empty or too long. -/
theorem digitRun_eq_ok {most : Nat} {empty long : Problem} {g : List Char → α} :
    (do
      let run ← takeWhile Char.isDigit
      if run = [] then stop empty else if most < run.length then stop long else return g run : Reader α) cs =
        .ok (a, rest) ↔
      ∃ x : DigitRun 1 most, cs = x.chars ++ rest ∧ g x.chars = a ∧ Ends Char.isDigit rest := by
  simp only [bind_run_eq_ok, takeWhile_eq_ok]
  constructor
  · rintro ⟨run, mid, ⟨rfl, hrun, hends⟩, h⟩
    by_cases hnil : run = []
    · rw [if_pos hnil] at h
      cases h
    · rw [if_neg hnil] at h
      by_cases hlong : most < run.length
      · rw [if_pos hlong] at h
        cases h
      · rw [if_neg hlong] at h
        cases h
        exact ⟨⟨run, hrun, List.length_pos_iff.mpr hnil, Nat.not_lt.mp hlong⟩, rfl, rfl, hends⟩
  · rintro ⟨x, rfl, rfl, hends⟩
    refine ⟨x.chars, rest, ⟨rfl, x.isDigit, hends⟩, ?_⟩
    rw [if_neg x.ne_nil, if_neg (Nat.not_lt.mpr x.le_most)]
    rfl

theorem number_eq_ok {n : Nat} : number cs = .ok (n, rest) ↔
    ∃ x : DigitRun 1 18, cs = x.chars ++ rest ∧ x.value = n ∧ Ends Char.isDigit rest := digitRun_eq_ok

theorem fraction_eq_ok {n : Nat} : fraction cs = .ok (n, rest) ↔
    ∃ x : DigitRun 1 9, cs = x.chars ++ rest ∧ x.billionths = n ∧ Ends Char.isDigit rest := digitRun_eq_ok

/-- A fraction is taken up to its last digit, and none is taken if no point comes next. -/
theorem fraction?_eq_ok {o : Option Nat} : fraction? cs = .ok (o, rest) ↔
    ∃ x : Option (DigitRun 1 9), cs = fractionChars x ++ rest ∧ x.map DigitRun.billionths = o ∧
      Ends (if x.isSome then Char.isDigit else (· == '.')) rest := by
  unfold fraction?
  simp only [bind_run_eq_ok, accept_eq_ok]
  constructor
  · rintro ⟨taken, mid, ⟨rfl, rfl⟩ | ⟨rfl, hends, rfl⟩, h⟩
    · obtain ⟨n, hn, rfl⟩ := map_run_eq_ok.mp (show (some <$> fraction) mid = .ok (o, rest) from h)
      obtain ⟨x, rfl, rfl, hends⟩ := fraction_eq_ok.mp hn
      exact ⟨some x, rfl, rfl, hends⟩
    · cases h
      exact ⟨none, rfl, rfl, hends⟩
  · rintro ⟨x, rfl, rfl, hends⟩
    cases x with
    | none => exact ⟨false, rest, Or.inr ⟨rfl, hends, rfl⟩, rfl⟩
    | some x => exact ⟨true, _, Or.inl ⟨rfl, rfl⟩, map_of_ok (fraction_eq_ok.mpr ⟨x, rfl, rfl, hends⟩)⟩

theorem finish_eq_ok {u : Unit} : finish cs = .ok (u, rest) ↔ cs = [] ∧ rest = [] := by
  cases cs with
  | nil =>
    rw [finish_nil, Except.ok.injEq, Prod.mk.injEq, and_iff_right rfl, and_iff_right rfl]
    exact eq_comm
  | cons c r => exact iff_of_false nofun nofun

theorem build_eq_ok {made : Except Fault α} : build made cs = .ok (a, rest) ↔ made = .ok a ∧ cs = rest := by
  cases made with
  | error f => exact iff_of_false nofun nofun
  | ok b => rw [build_ok, Except.ok.injEq, Except.ok.injEq, Prod.mk.injEq]

/-- A reader goes on if it does not stop. -/
theorem stopIf_eq_ok {q : Prop} [Decidable q] {problem : Problem} {go : Unit → Reader α} {next : Reader α} :
    (if q then stop problem >>= go else next : Reader α) cs = .ok (a, rest) ↔ ¬q ∧ next cs = .ok (a, rest) := by
  by_cases h : q
  · rw [if_pos h]
    exact iff_of_false nofun fun hq => hq.1 h
  · rw [if_neg h, and_iff_right h]

theorem read_eq_ok {form : Form} {text : String} :
    read form p text = .ok a ↔ ∃ rest, p text.toList = .ok (a, rest) := by
  rw [read]
  cases p text.toList with
  | error s =>
    constructor
    · intro h
      cases h
    · rintro ⟨rest, h⟩
      cases h
  | ok x =>
    constructor
    · intro h
      cases h
      exact ⟨x.2, rfl⟩
    · rintro ⟨rest, h⟩
      cases h
      rfl

end Reader
end CivilTime.Text
