import HeaderBind.Json.Room

/-!
# `HeaderBind.Proofs.Json.Room`: which values have a text

A value has a text in some room if every integer in it can be written and the values in it do not
stand deeper inside one another than the room allows. It is a property of the value and of those
inside it, so it is inherited (`textFault?_of_mem_array`, `textFault?_of_mem_object`), and more room
does no harm (`textFault?_mono`).
-/

set_option autoImplicit false

namespace HeaderBind.Json

/-- All items of an array have a text when each of them has one. -/
theorem itemsFault?_eq_none_iff {room : Nat} {items : List Json} :
    itemsFault? room items = none ↔ ∀ item ∈ items, item.textFault? room = none := by
  induction items with
  | nil => simp [itemsFault?]
  | cons item items ih => rw [itemsFault?, Option.or_eq_none_iff, ih, List.forall_mem_cons]

/-- All fields of an object have a text when the value of each of them has one. -/
theorem fieldsFault?_eq_none_iff {room : Nat} {fields : List (String × Json)} :
    fieldsFault? room fields = none ↔ ∀ field ∈ fields, field.2.textFault? room = none := by
  induction fields with
  | nil => simp [fieldsFault?]
  | cons field fields ih => rw [fieldsFault?, Option.or_eq_none_iff, ih, List.forall_mem_cons]

/-- The fault of an array is that of one of its items. -/
theorem exists_of_itemsFault? {room : Nat} {items : List Json} {fault : TextFault}
    (h : itemsFault? room items = some fault) :
    ∃ item ∈ items, item.textFault? room = some fault := by
  induction items with
  | nil => cases h
  | cons item items ih =>
      rw [itemsFault?, Option.or_eq_some_iff] at h
      rcases h with hitem | ⟨-, hitems⟩
      · exact ⟨item, List.mem_cons_self, hitem⟩
      · obtain ⟨other, hother, hfault⟩ := ih hitems
        exact ⟨other, List.mem_cons_of_mem item hother, hfault⟩

/-- The fault of an object is that of the value of one of its fields. -/
theorem exists_of_fieldsFault? {room : Nat} {fields : List (String × Json)} {fault : TextFault}
    (h : fieldsFault? room fields = some fault) :
    ∃ field ∈ fields, field.2.textFault? room = some fault := by
  induction fields with
  | nil => cases h
  | cons field fields ih =>
      rw [fieldsFault?, Option.or_eq_some_iff] at h
      rcases h with hfield | ⟨-, hfields⟩
      · exact ⟨field, List.mem_cons_self, hfield⟩
      · obtain ⟨other, hother, hfault⟩ := ih hfields
        exact ⟨other, List.mem_cons_of_mem field hother, hfault⟩

@[simp] theorem textFault?_array_eq_none_iff {room : Nat} {items : List Json} :
    (array items).textFault? (room + 1) = none ↔ ∀ item ∈ items, item.textFault? room = none := by
  rw [textFault?, itemsFault?_eq_none_iff]

@[simp] theorem textFault?_object_eq_none_iff {room : Nat} {fields : List (String × Json)} :
    (object fields).textFault? (room + 1) = none
      ↔ ∀ field ∈ fields, field.2.textFault? room = none := by
  rw [textFault?, fieldsFault?_eq_none_iff]

@[simp] theorem textFault?_integer_eq_none_iff {room : Nat} {n : Int} :
    (integer n).textFault? (room + 1) = none ↔ Numeral.isWritable n = true := by
  rw [textFault?]
  cases Numeral.isWritable n <;> simp

@[simp] theorem textFault?_string (room : Nat) (s : String) :
    (string s).textFault? (room + 1) = none := rfl

@[simp] theorem textFault?_bool (room : Nat) (value : Bool) :
    (bool value).textFault? (room + 1) = none := rfl

@[simp] theorem textFault?_null (room : Nat) : null.textFault? (room + 1) = none := rfl

/-- A value that has a text in some room has one in any larger room. -/
theorem textFault?_mono {room more : Nat} (hmore : room ≤ more) {value : Json}
    (h : value.textFault? room = none) : value.textFault? more = none := by
  induction room generalizing more value with
  | zero =>
      rw [textFault?] at h
      cases h
  | succ room ih =>
      obtain ⟨more, rfl⟩ : ∃ rest, more = rest + 1 := ⟨more - 1, by omega⟩
      have hinner : room ≤ more := Nat.le_of_succ_le_succ hmore
      cases value with
      | array items =>
          rw [textFault?_array_eq_none_iff] at h ⊢
          exact fun item hitem => ih hinner (h item hitem)
      | object fields =>
          rw [textFault?_object_eq_none_iff] at h ⊢
          exact fun field hfield => ih hinner (h field hfield)
      | integer n =>
          rw [textFault?] at h ⊢
          exact h
      | _ => rfl

/-- What has a text leaves none of its items without one. -/
theorem textFault?_of_mem_array {room : Nat} {items : List Json}
    (h : (array items).textFault? room = none) {item : Json} (hitem : item ∈ items) :
    item.textFault? room = none := by
  cases room with
  | zero =>
      rw [textFault?] at h
      cases h
  | succ room =>
      rw [textFault?_array_eq_none_iff] at h
      exact textFault?_mono (Nat.le_succ room) (h item hitem)

/-- What has a text leaves none of its fields without one. -/
theorem textFault?_of_mem_object {room : Nat} {fields : List (String × Json)}
    (h : (object fields).textFault? room = none) {field : String × Json} (hfield : field ∈ fields) :
    field.2.textFault? room = none := by
  cases room with
  | zero =>
      rw [textFault?] at h
      cases h
  | succ room =>
      rw [textFault?_object_eq_none_iff] at h
      exact textFault?_mono (Nat.le_succ room) (h field hfield)

/-! ### Spelling in some room -/

theorem spellIn_eq_ok_iff {room : Nat} {value : Json} {spell : Json → String} {text : String} :
    value.spellIn room spell = .ok text ↔ value.textFault? room = none ∧ spell value = text := by
  rw [spellIn]
  cases value.textFault? room <;> simp

theorem spellIn_eq_error_iff {room : Nat} {value : Json} {spell : Json → String}
    {fault : TextFault} :
    value.spellIn room spell = .error fault ↔ value.textFault? room = some fault := by
  rw [spellIn]
  cases value.textFault? room <;> simp

example : textFault? 2 (.array [.object [("a", .null)]]) = some .tooDeep := by decide

end HeaderBind.Json
