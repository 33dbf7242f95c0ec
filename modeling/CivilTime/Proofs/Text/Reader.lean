/- What readers take off a text that was written for them. -/
import CivilTime.Proofs.Outcome
import CivilTime.Proofs.Text.Digits
import CivilTime.Text.Reader

namespace CivilTime.Text

/-- A run of characters of the class is over where this text begins. -/
def Ends (p : Char → Bool) (rest : List Char) : Prop := ∀ c ∈ rest.head?, p c = false

theorem ends_nil (p : Char → Bool) : Ends p [] := by
  rintro c ⟨⟩

theorem ends_cons {p : Char → Bool} {c : Char} (h : p c = false) (rest : List Char) : Ends p (c :: rest) := by
  rintro d ⟨⟩
  exact h

theorem Ends.takeWhile_eq_nil {p : Char → Bool} {rest : List Char} (h : Ends p rest) : rest.takeWhile p = [] := by
  cases rest with
  | nil => rfl
  | cons c r => rw [List.takeWhile_cons, h c rfl]; rfl

theorem Ends.dropWhile_eq_self {p : Char → Bool} {rest : List Char} (h : Ends p rest) :
    rest.dropWhile p = rest := by
  cases rest with
  | nil => rfl
  | cons c r => rw [List.dropWhile_cons, h c rfl]; rfl

namespace Reader

variable {α β : Type} {p : Reader α} {f : α → Reader β} {a : α} {cs rest : List Char}

/-- A reader that has read goes on with what is left. -/
theorem bind_of_ok (h : p cs = .ok (a, rest)) : (p >>= f) cs = f a rest := by
  show (p cs >>= fun x => f x.1 x.2) = _
  rw [h]
  rfl

/-- A text may be followed by nothing at all. -/
theorem of_append_nil {result : Except Stop (α × List Char)} (h : p (cs ++ []) = result) : p cs = result := by
  rwa [List.append_nil] at h

theorem bind_of_error {s : Stop} (h : p cs = .error s) : (p >>= f) cs = .error s := by
  show (p cs >>= fun x => f x.1 x.2) = _
  rw [h]
  rfl

theorem map_of_ok {g : α → β} (h : p cs = .ok (a, rest)) : (g <$> p) cs = .ok (g a, rest) := by
  show (p cs >>= fun x => pure (g x.1, x.2)) = _
  rw [h]
  rfl

theorem pure_run (a : α) (rest : List Char) : (pure a : Reader α) rest = .ok (a, rest) := rfl

theorem accept_append (literal rest : List Char) : accept literal (literal ++ rest) = .ok (true, rest) := by
  rw [accept, if_pos (List.isPrefixOf_iff_prefix.mpr (List.prefix_append literal rest)), List.drop_left]

theorem accept_cons (c : Char) (rest : List Char) : accept [c] (c :: rest) = .ok (true, rest) :=
  accept_append [c] rest

theorem accept_of_ends {c : Char} (h : Ends (· == c) rest) : accept [c] rest = .ok (false, rest) := by
  cases rest with
  | nil => rfl
  | cons d r =>
    have hd := h d rfl
    rw [accept, if_neg]
    rw [List.isPrefixOf_cons_cons, Bool.and_eq_true, beq_iff_eq]
    rintro ⟨rfl, -⟩
    simp at hd

theorem expect_cons (c : Char) (rest : List Char) : expect [c] (c :: rest) = .ok ((), rest) := by
  rw [expect, if_pos]
  · rfl
  · rw [List.isPrefixOf_cons_cons, beq_self_eq_true]
    rfl

theorem takeWhile_append {q : Char → Bool} {run : List Char} (hrun : ∀ c ∈ run, q c = true) (h : Ends q rest) :
    takeWhile q (run ++ rest) = .ok (run, rest) := by
  rw [takeWhile, List.takeWhile_append_of_pos hrun, List.dropWhile_append_of_pos hrun, h.takeWhile_eq_nil,
    h.dropWhile_eq_self, List.append_nil]

theorem finish_nil : finish [] = .ok ((), []) := rfl

theorem build_ok (a : α) (rest : List Char) : build (.ok a) rest = .ok (a, rest) := rfl

theorem build_error (f : Fault) (rest : List Char) :
    (build (.error f) : Reader α) rest = .error ⟨.refused f, rest⟩ := rfl

theorem read_of_ok {form : Form} (h : p cs = .ok (a, [])) : read form p (String.ofList cs) = .ok a := by
  rw [read, String.toList_ofList, h]

/-- Where the reader stops on the text, every integer in its complaint can be written out. -/
def Worded (p : Reader α) (cs : List Char) : Prop := ∀ s, p cs = .error s → ∀ n ∈ s.problem.shown, Writable n

theorem worded_of_ok (h : p cs = .ok (a, rest)) : Worded p cs := by
  intro s hs
  rw [h] at hs
  cases hs

theorem Worded.bind (hp : Worded p cs) (hf : ∀ a mid, p cs = .ok (a, mid) → Worded (f a) mid) :
    Worded (p >>= f) cs := by
  intro s hs
  cases h : p cs with
  | error s' =>
    rw [bind_of_error h] at hs
    cases hs
    exact hp s h
  | ok x =>
    rw [bind_of_ok h] at hs
    exact hf x.1 x.2 h s hs

theorem worded_pure (a : α) (cs : List Char) : Worded (pure a : Reader α) cs := worded_of_ok (pure_run a cs)

/-- Only a refused value brings integers into a complaint. -/
theorem worded_stop {problem : Problem} (h : problem.shown = []) (cs : List Char) :
    Worded (stop problem : Reader α) cs := by
  intro s hs
  cases hs
  rw [h]
  exact List.forall_mem_nil _

theorem worded_stopIf {q : Prop} [Decidable q] {problem : Problem} {go : Unit → Reader α} {next : Reader α}
    (h : problem.shown = []) (hnext : ¬q → Worded next cs) : Worded (if q then stop problem >>= go else next) cs := by
  split
  · exact (worded_stop h cs).bind fun _ _ hstop => by cases hstop
  · rename_i hq
    exact hnext hq

theorem worded_accept (literal cs : List Char) : Worded (accept literal) cs := by
  intro s hs
  unfold accept at hs
  split at hs <;> cases hs

theorem worded_expect (literal cs : List Char) : Worded (expect literal) cs := by
  intro s hs
  unfold expect at hs
  split at hs
  · cases hs
  · cases hs
    exact List.forall_mem_nil _

theorem worded_digits (count : Nat) (field : String) (cs : List Char) : Worded (digits count field) cs := by
  intro s hs
  unfold digits at hs
  dsimp only at hs
  split at hs
  · cases hs
  · cases hs
    exact List.forall_mem_nil _

theorem worded_digitRun {most : Nat} {empty long : Problem} {g : List Char → α} (hempty : empty.shown = [])
    (hlong : long.shown = []) (cs : List Char) :
    Worded (do
      let run ← takeWhile Char.isDigit
      if run = [] then stop empty else if most < run.length then stop long else return g run : Reader α) cs := by
  refine Worded.bind (worded_of_ok rfl) fun run mid _ => ?_
  split
  · exact worded_stop hempty mid
  · split
    · exact worded_stop hlong mid
    · exact worded_pure _ mid

theorem worded_number (cs : List Char) : Worded number cs := worded_digitRun rfl rfl cs

theorem worded_fraction? (cs : List Char) : Worded fraction? cs := by
  refine (worded_accept ['.'] cs).bind fun taken mid _ => ?_
  cases taken with
  | false => exact worded_pure none mid
  | true => exact Worded.bind (worded_digitRun rfl rfl mid) fun n rest _ => worded_pure (some n) rest

theorem worded_finish (cs : List Char) : Worded finish cs := by
  intro s hs
  cases cs with
  | nil => cases hs
  | cons c r =>
    cases hs
    exact List.forall_mem_nil _

theorem worded_build {made : Except Fault α} (h : ∀ f, made = .error f → ∀ n ∈ f.shown, Writable n)
    (cs : List Char) : Worded (build made) cs := by
  intro s hs
  cases made with
  | ok a => cases hs
  | error f =>
    cases hs
    exact h f rfl

/-- A text that is not read is not of the form, whatever stopped the reader. -/
theorem read_error_kind {form : Form} {text : String} {e : Error} (hp : Worded p text.toList)
    (h : read form p text = .error e) : e.kind = .invalidFormat := by
  unfold read at h
  split at h
  · cases h
  · rename_i s hs
    cases h
    exact naming_of_writable (hp s hs)

theorem fails_read_of_error {form : Form} {s : Stop} (hp : Worded p cs) (h : p cs = .error s) :
    Fails (read form p (String.ofList cs)) .invalidFormat := by
  cases hread : read form p (String.ofList cs) with
  | error e => exact ⟨e, rfl, read_error_kind (by rwa [String.toList_ofList]) hread⟩
  | ok a =>
    rw [read, String.toList_ofList, h] at hread
    cases hread

end Reader

end CivilTime.Text
