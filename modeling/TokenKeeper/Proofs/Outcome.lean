/-!
# Steps that may fail

What the success of a row of steps says of each of them. A step that succeeds hands its value on
(`bind_eq_ok_iff`), and a check that is passed lets the row go on (`guard_eq_ok_iff`). The row fails
only in ways in which one of its steps does (`FailsOnly.bind`).
-/

namespace TokenKeeper
variable {ε φ α β : Type}

theorem ok_of_toOption {x : Except ε α} {a : α} (h : x.toOption = some a) :
    x = .ok a := by
  cases x with
  | error e => cases h
  | ok b => cases h; rfl

@[simp]
theorem mapError_ok (f : ε → φ) (a : α) : Except.mapError f (.ok a) = .ok a := rfl

@[simp]
theorem mapError_error (f : ε → φ) (e : ε) :
    Except.mapError f (.error e : Except ε α) = .error (f e) := rfl

theorem bind_eq_ok_iff {part : Except ε α} {next : α → Except ε β} {b : β} :
    part.bind next = .ok b ↔ ∃ a, part = .ok a ∧ next a = .ok b := by
  cases part with
  | error e => exact ⟨fun h => (nomatch h), fun ⟨_, h, _⟩ => (nomatch h)⟩
  | ok a => exact ⟨fun h => ⟨a, rfl, h⟩, fun ⟨_, rfl, h⟩ => h⟩

/-- A check hands nothing on. -/
theorem check_bind_eq_ok_iff {part : Except ε Unit} {next : Unit → Except ε β} {b : β} :
    part.bind next = .ok b ↔ part = .ok () ∧ next () = .ok b :=
  bind_eq_ok_iff.trans ⟨fun ⟨(), h⟩ => h, fun h => ⟨(), h⟩⟩

theorem map_eq_ok_iff {part : Except ε α} {f : α → β} {b : β} :
    part.map f = .ok b ↔ ∃ a, part = .ok a ∧ b = f a := by
  cases part with
  | error e => exact ⟨fun h => (nomatch h), fun ⟨_, h, _⟩ => (nomatch h)⟩
  | ok a => exact ⟨fun h => ⟨a, rfl, (Except.ok.inj h).symm⟩, fun ⟨_, rfl, h⟩ => h ▸ rfl⟩

theorem bind_eq_error_iff {part : Except ε α} {next : α → Except ε β} {e : ε} :
    part.bind next = .error e ↔ part = .error e ∨ ∃ a, part = .ok a ∧ next a = .error e := by
  cases part <;> simp [Except.bind]

theorem map_eq_error_iff {part : Except ε α} {f : α → β} {e : ε} :
    part.map f = .error e ↔ part = .error e := by
  cases part <;> simp [Except.map]

theorem guard_eq_ok_iff {c : Prop} [Decidable c] {e : ε} {next : PUnit → Except ε β} {b : β} :
    (if c then (throw e : Except ε PUnit) >>= next else next ⟨⟩) = .ok b ↔
      ¬ c ∧ next ⟨⟩ = .ok b := by
  split
  · next h => exact ⟨fun h' => (nomatch h'), fun h' => absurd h h'.1⟩
  · next h => exact ⟨fun h' => ⟨h, h'⟩, And.right⟩

/-- Every failure is of the kind `P`. -/
def FailsOnly (P : ε → Prop) (outcome : Except ε α) : Prop := ∀ e, outcome = .error e → P e

namespace FailsOnly
variable {P : ε → Prop}

theorem ok (a : α) : FailsOnly P (.ok a) := fun _ h => nomatch h

theorem error {e : ε} (h : P e) : FailsOnly (α := α) P (.error e) :=
  fun _ he => Except.error.inj he ▸ h

theorem bind {part : Except ε α} {next : α → Except ε β} (h : FailsOnly P part)
    (hnext : ∀ a, FailsOnly P (next a)) : FailsOnly P (part.bind next) := by
  cases part with
  | error e => exact error (h e rfl)
  | ok a => exact hnext a

theorem map {part : Except ε α} (h : FailsOnly P part) (f : α → β) :
    FailsOnly P (part.map f) := by
  cases part with
  | error e => exact error (h e rfl)
  | ok a => exact ok (f a)

end FailsOnly

end TokenKeeper
