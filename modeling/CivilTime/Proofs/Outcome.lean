/- Taking a checked operation apart into its steps. -/
import CivilTime.Error
import CivilTime.Proofs.Text.Digits

namespace CivilTime

variable {ε α β : Type}

theorem bind_eq_ok {x : Except ε α} {f : α → Except ε β} {b : β} :
    (x >>= f) = .ok b ↔ ∃ a, x = .ok a ∧ f a = .ok b := by
  cases x with
  | error e => simp [bind, Except.bind]
  | ok a => simp [bind, Except.bind]

theorem bind_of_eq_ok {x : Except ε α} {a : α} (h : x = .ok a) (f : α → Except ε β) : x >>= f = f a := by
  rw [h]
  rfl

theorem bind_eq_error {x : Except ε α} {f : α → Except ε β} {e : ε} :
    (x >>= f) = .error e ↔ x = .error e ∨ ∃ a, x = .ok a ∧ f a = .error e := by
  cases x with
  | error e' => simp [bind, Except.bind]
  | ok a => simp [bind, Except.bind]

theorem map_eq_ok {x : Except ε α} {f : α → β} {b : β} :
    (f <$> x) = .ok b ↔ ∃ a, x = .ok a ∧ f a = b := by
  cases x with
  | error e => simp [Functor.map, Except.map]
  | ok a => simp [Functor.map, Except.map]

theorem mapError_eq_ok {x : Except ε α} {f : ε → β} {a : α} : x.mapError f = .ok a ↔ x = .ok a := by
  cases x with
  | error e =>
    constructor
    · intro h
      cases h
    · intro h
      cases h
  | ok b =>
    constructor
    · intro h
      cases h
      rfl
    · intro h
      cases h
      rfl

theorem mapError_eq_error {x : Except ε α} {f : ε → β} {e : β} :
    x.mapError f = .error e ↔ ∃ e', x = .error e' ∧ e = f e' := by
  cases x with
  | error e' =>
    constructor
    · intro h
      cases h
      exact ⟨e', rfl, rfl⟩
    · rintro ⟨_, h, rfl⟩
      cases h
      rfl
  | ok b =>
    constructor
    · intro h
      cases h
    · rintro ⟨_, h, _⟩
      cases h

/-- A check passes if its condition holds. -/
theorem check_eq_ok {p : Prop} [Decidable p] {e : ε} {u : Unit} :
    (if p then .ok () else .error e : Except ε Unit) = .ok u ↔ p := by
  split
  · rename_i h
    exact iff_of_true rfl h
  · rename_i h
    exact iff_of_false nofun h

theorem check_eq_error {p : Prop} [Decidable p] {e e' : ε} :
    (if p then .ok () else .error e : Except ε Unit) = .error e' ↔ ¬p ∧ e' = e := by
  split
  · rename_i h
    exact iff_of_false nofun fun hn => hn.1 h
  · rename_i h
    rw [Except.error.injEq, and_iff_right h]
    exact eq_comm

/-- What comes after a refusal is reached if its condition does not hold. -/
theorem unless_eq_ok {p : Prop} [Decidable p] {e : ε} {x : Except ε α} {a : α} :
    (if p then .error e else x) = .ok a ↔ ¬p ∧ x = .ok a := by
  split
  · rename_i h
    exact iff_of_false nofun fun hn => hn.1 h
  · rename_i h
    exact (and_iff_right h).symm

/-- The operation ends with an error of the kind. -/
def Fails (x : Except Error α) (kind : ErrorKind) : Prop := ∃ e, x = .error e ∧ e.kind = kind

theorem fails_error {e : Error} {kind : ErrorKind} : Fails (.error e : Except Error α) kind ↔ e.kind = kind := by
  constructor
  · rintro ⟨_, h, hk⟩
    cases h
    exact hk
  · intro hk
    exact ⟨e, rfl, hk⟩

theorem not_fails_ok {a : α} {kind : ErrorKind} : ¬Fails (.ok a : Except Error α) kind := by
  rintro ⟨_, h, -⟩
  cases h

theorem Fails.unique {x : Except Error α} {kind kind' : ErrorKind} (h : Fails x kind) (h' : Fails x kind') :
    kind = kind' := by
  obtain ⟨e, rfl, rfl⟩ := h
  exact fails_error.mp h'

theorem Fails.ne_ok {x : Except Error α} {kind : ErrorKind} (h : Fails x kind) (a : α) : x ≠ .ok a := by
  rintro rfl
  exact not_fails_ok h

/-- An operation that gives no value fails, in the way in which it fails at all. -/
theorem fails_of_ne_ok {x : Except Error α} {kind : ErrorKind} (hkind : ∀ e, x = .error e → e.kind = kind)
    (h : ∀ a, x ≠ .ok a) : Fails x kind := by
  cases x with
  | ok a => exact absurd rfl (h a)
  | error e => exact ⟨e, rfl, hkind e rfl⟩

/-- What comes after a failure is not reached. -/
theorem Fails.bind {x : Except Error α} {kind : ErrorKind} (h : Fails x kind) (f : α → Except Error β) :
    Fails (x >>= f) kind := by
  obtain ⟨e, rfl, hk⟩ := h
  exact ⟨e, rfl, hk⟩

theorem Fails.map {x : Except Error α} {kind : ErrorKind} (h : Fails x kind) (f : α → β) :
    Fails (f <$> x) kind := by
  obtain ⟨e, rfl, hk⟩ := h
  exact ⟨e, rfl, hk⟩

/-- Two operations end alike: with the same value, or with errors of the same kind. -/
def SameOutcome (x y : Except Error α) : Prop :=
  (∀ a, x = .ok a ↔ y = .ok a) ∧ ∀ kind, Fails x kind ↔ Fails y kind

theorem SameOutcome.refl (x : Except Error α) : SameOutcome x x := ⟨fun _ => Iff.rfl, fun _ => Iff.rfl⟩

theorem sameOutcome_error {e e' : Error} (h : e.kind = e'.kind) :
    SameOutcome (.error e : Except Error α) (.error e') := by
  constructor
  · intro a
    exact iff_of_false nofun nofun
  · intro kind
    rw [fails_error, fails_error, h]

theorem liftM_eq_ok {x : Except Fault α} {a : α} : (liftM x : Except Error α) = .ok a ↔ x = .ok a :=
  mapError_eq_ok

theorem liftM_eq_error {x : Except Fault α} {e : Error} :
    (liftM x : Except Error α) = .error e ↔ ∃ f, x = .error f ∧ e = .fault f :=
  mapError_eq_error

/-- A step refuses a value, or it is passed and a later one does. -/
theorem liftM_bind_eq_fault {x : Except Fault α} {g : α → Except Error β} {f : Fault} :
    (liftM x >>= g) = .error (.fault f) ↔ x = .error f ∨ ∃ a, x = .ok a ∧ g a = .error (.fault f) := by
  rw [bind_eq_error, liftM_eq_error]
  simp only [liftM_eq_ok, Error.fault.injEq, exists_eq_right']

/-- Where nothing is judged after a step, the refusal is that of the step. -/
theorem liftM_bind_ok_eq_fault {x : Except Fault α} {g : α → β} {f : Fault} :
    (liftM x >>= fun a => .ok (g a) : Except Error β) = .error (.fault f) ↔ x = .error f := by
  refine liftM_bind_eq_fault.trans (or_iff_left ?_)
  rintro ⟨_, -, h⟩
  cases h

section
variable {kind : ErrorKind} {n : Int} {ns : List Int}

theorem naming_of_writable (h : ∀ n ∈ ns, Text.Writable n) : kind.naming ns = kind := if_pos h

theorem naming_of_not_writable (hmem : n ∈ ns) (h : ¬Text.Writable n) : kind.naming ns = .unfitValue :=
  if_neg fun hall => h (hall n hmem)

@[simp] theorem naming_nil : kind.naming [] = kind := naming_of_writable (List.forall_mem_nil _)

theorem naming_of_natAbs_le (h : n.natAbs ≤ 10 ^ 40) : kind.naming [n] = kind :=
  naming_of_writable (List.forall_mem_singleton.mpr (Text.writable_of_natAbs_le h))

end

/-- Even where a reading at an offset denotes no instant in range, the distance from the epoch has few digits. -/
theorem LocalDateTime.writable_sub_offset (wall : LocalDateTime) (offset : Offset) :
    Text.Writable (wall.epochNanos - offset.nanos) := by
  have hwall := wall.epochNanos_bounds
  have hoffset := offset.nanos_bounds
  refine Text.writable_of_natAbs_le ?_
  simp only [nanosPerDay, Instant.firstNanos, Instant.lastNanos, Calendar.firstDay, Calendar.lastDay,
    Calendar.epochDay] at *
  omega

/-- An operation that fails in one way only does so if it gives no value. -/
theorem fails_iff_of_error_kind {x : Except Fault α} {only kind : ErrorKind}
    (h : ∀ f, x = .error f → (Error.fault f).kind = only) :
    Fails (liftM x) kind ↔ kind = only ∧ ¬∃ a, x = .ok a := by
  cases x with
  | ok a => exact iff_of_false not_fails_ok fun hn => hn.2 ⟨a, rfl⟩
  | error f =>
    have hnone : ¬∃ a, (.error f : Except Fault α) = .ok a := nofun
    rw [and_iff_left hnone, ← h f rfl]
    exact fails_error.trans eq_comm

end CivilTime
