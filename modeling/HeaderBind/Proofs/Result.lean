/-!
# `HeaderBind.Proofs.Result`: steps that may be refused

Every checker of the program answers with a value or a refusal, and goes on with the value of the
step in front. These lemmas take such a chain apart at a value: it was reached exactly when every
step was accepted.
-/

set_option autoImplicit false

namespace HeaderBind

variable {α β ε ε' : Type}

/-- Two steps in a row are accepted when both are, the second one on the value of the first. -/
theorem bind_eq_ok_iff {first : Except ε α} {next : α → Except ε β} {value : β} :
    first >>= next = .ok value ↔ ∃ made, first = .ok made ∧ next made = .ok value := by
  cases first with
  | error fault =>
      constructor
      · intro h
        cases h
      · rintro ⟨made, h, -⟩
        cases h
  | ok made =>
      constructor
      · intro h
        exact ⟨made, rfl, h⟩
      · rintro ⟨other, h, hnext⟩
        cases h
        exact hnext

/-- A check in front of a step only has to be passed. -/
theorem check_bind_eq_ok_iff {first : Except ε Unit} {next : Unit → Except ε β} {value : β} :
    first >>= next = .ok value ↔ first = .ok () ∧ next () = .ok value := by
  rw [bind_eq_ok_iff]
  exact ⟨fun ⟨_, h⟩ => h, fun h => ⟨(), h⟩⟩

/-- Another wording for the refusals changes nothing about what is accepted. -/
theorem mapError_eq_ok_iff {first : Except ε α} {wrap : ε → ε'} {value : α} :
    first.mapError wrap = .ok value ↔ first = .ok value := by
  cases first with
  | error fault =>
      constructor <;>
        · intro h
          cases h
  | ok made =>
      constructor <;>
        · intro h
          cases h
          rfl

/-- What is left of a result when its refusal is forgotten. -/
theorem toOption_eq_some_iff {first : Except ε α} {value : α} :
    first.toOption = some value ↔ first = .ok value := by
  cases first with
  | error fault => exact ⟨nofun, nofun⟩
  | ok made => exact ⟨fun h => congrArg Except.ok (Option.some.inj h), fun h => by cases h; rfl⟩

/-- A value that is made into another one at the end. -/
theorem map_eq_ok_iff {first : Except ε α} {make : α → β} {value : β} :
    first.map make = .ok value ↔ ∃ made, first = .ok made ∧ make made = value := by
  cases first with
  | error fault =>
      constructor
      · intro h
        cases h
      · rintro ⟨made, h, -⟩
        cases h
  | ok made =>
      constructor
      · intro h
        cases h
        exact ⟨made, rfl, rfl⟩
      · rintro ⟨other, h, rfl⟩
        cases h
        rfl

/-! ### Refusals -/

/-- Two steps in a row are refused by the first one, or by the second one on its value. -/
theorem bind_eq_error_iff {first : Except ε α} {next : α → Except ε β} {fault : ε} :
    first >>= next = .error fault
      ↔ first = .error fault ∨ ∃ made, first = .ok made ∧ next made = .error fault := by
  cases first with
  | error cause =>
      constructor
      · intro h
        cases h
        exact .inl rfl
      · rintro (h | ⟨made, h, -⟩) <;> cases h
        rfl
  | ok made =>
      constructor
      · exact fun h => .inr ⟨made, rfl, h⟩
      · rintro (h | ⟨other, h, hnext⟩) <;> cases h
        exact hnext

/-- Another wording is one of a refusal. -/
theorem mapError_eq_error_iff {first : Except ε α} {wrap : ε → ε'} {fault : ε'} :
    first.mapError wrap = .error fault ↔ ∃ cause, first = .error cause ∧ wrap cause = fault := by
  cases first with
  | error cause =>
      constructor
      · intro h
        cases h
        exact ⟨cause, rfl, rfl⟩
      · rintro ⟨other, h, rfl⟩
        cases h
        rfl
  | ok made =>
      constructor
      · intro h
        cases h
      · rintro ⟨cause, h, -⟩
        cases h

/-- What a value is made into does not decide whether there is one. -/
theorem map_eq_error_iff {first : Except ε α} {make : α → β} {fault : ε} :
    first.map make = .error fault ↔ first = .error fault := by
  cases first with
  | error cause =>
      constructor <;>
        · intro h
          cases h
          rfl
  | ok made =>
      constructor <;>
        · intro h
          cases h

end HeaderBind
