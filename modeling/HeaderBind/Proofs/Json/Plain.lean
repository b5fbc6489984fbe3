import Mathlib.Order.Basic
import HeaderBind.Json.Printer
import HeaderBind.Proofs.Json.Reordered
import HeaderBind.Proofs.Json.Room

/-!
# `HeaderBind.Proofs.Json.Plain`: values that a document says in full

`Plain` values are those without a number that has a fraction or an exponent, with integers that are
short enough to be written and with every key of an object once. How deep the values inside one
another stand is all that can keep a plain value from being written
(`Plain.textFault?_eq_none_iff`). Writing puts the keys of all objects in order first. That keeps a
plain value plain (`Plain.sortKeys`) and as deep as it is (`Plain.depth_sortKeys`), and it is the
only thing that writing changes about a value (`reordered_sortKeys`).
-/

set_option autoImplicit false

namespace HeaderBind.Json

/-- A value of nulls, switches, integers that can be written, texts, arrays and objects, at any
depth. An object holds every key once. -/
inductive Plain : Json → Prop
  | null : Plain .null
  | bool (value : Bool) : Plain (.bool value)
  | integer {value : Int} (short : Numeral.isWritable value = true) : Plain (.integer value)
  | string (value : String) : Plain (.string value)
  | array {items : List Json} (each : ∀ item ∈ items, Plain item) : Plain (.array items)
  | object {fields : List (String × Json)} (keys : (Entries.keys fields).Nodup)
      (each : ∀ field ∈ fields, Plain field.2) : Plain (.object fields)

attribute [simp] Plain.null Plain.bool Plain.string

@[simp] theorem plain_integer_iff {value : Int} :
    Plain (.integer value) ↔ Numeral.isWritable value = true :=
  ⟨fun | .integer short => short, .integer⟩

@[simp] theorem plain_array_iff {items : List Json} :
    Plain (.array items) ↔ ∀ item ∈ items, Plain item :=
  ⟨fun | .array each => each, .array⟩

@[simp] theorem plain_object_iff {fields : List (String × Json)} :
    Plain (.object fields) ↔ (Entries.keys fields).Nodup ∧ ∀ field ∈ fields, Plain field.2 :=
  ⟨fun | .object keys each => ⟨keys, each⟩, fun h => .object h.1 h.2⟩

theorem Plain.tidy {value : Json} (h : Plain value) : Tidy value := by
  induction h with
  | null => exact .null
  | bool value => exact .bool value
  | integer short => exact .integer _
  | string value => exact .string value
  | array each ih => exact .array ih
  | object keys each ih => exact .object keys ih

/-! ### How deep values stand -/

mutual

/-- How deep the values inside one another stand, if one that is neither an array nor an object
counts for so much. -/
def depth (leaf : Nat) : Json → Nat
  | .array items => itemsDepth leaf items + 1
  | .object fields => fieldsDepth leaf fields + 1
  | _ => leaf

/-- The depth of the deepest item of an array. -/
def itemsDepth (leaf : Nat) : List Json → Nat
  | [] => 0
  | item :: items => max (depth leaf item) (itemsDepth leaf items)

/-- The depth of the deepest field of an object. -/
def fieldsDepth (leaf : Nat) : List (String × Json) → Nat
  | [] => 0
  | (_, value) :: fields => max (depth leaf value) (fieldsDepth leaf fields)

end

/-- How many values stand inside one another at most, the innermost one included. -/
def height (value : Json) : Nat :=
  value.depth 1

/-- How many arrays and objects stand inside one another at most. -/
def nesting (value : Json) : Nat :=
  value.depth 0

variable {leaf room : Nat}

@[simp] theorem depth_array_le_iff {items : List Json} :
    (array items).depth leaf ≤ room + 1 ↔ ∀ item ∈ items, item.depth leaf ≤ room := by
  rw [depth, Nat.add_le_add_iff_right]
  induction items with
  | nil => simp [itemsDepth]
  | cons item items ih => rw [itemsDepth, Nat.max_le, ih, List.forall_mem_cons]

@[simp] theorem depth_object_le_iff {fields : List (String × Json)} :
    (object fields).depth leaf ≤ room + 1 ↔ ∀ field ∈ fields, field.2.depth leaf ≤ room := by
  rw [depth, Nat.add_le_add_iff_right]
  induction fields with
  | nil => simp [fieldsDepth]
  | cons field fields ih => rw [fieldsDepth, Nat.max_le, ih, List.forall_mem_cons]

/-- No integer keeps a plain value from being written, so it has a text in every room that it fits
in. -/
theorem Plain.textFault?_eq_none_iff {value : Json} (h : Plain value) :
    value.textFault? room = none ↔ value.height ≤ room := by
  rw [height]
  induction h generalizing room with
  | @array items each ih =>
      cases room with
      | zero => simp [textFault?, depth]
      | succ room =>
          rw [textFault?_array_eq_none_iff, depth_array_le_iff]
          exact forall₂_congr fun item hitem => ih item hitem
  | @object fields keys each ih =>
      cases room with
      | zero => simp [textFault?, depth]
      | succ room =>
          rw [textFault?_object_eq_none_iff, depth_object_le_iff]
          exact forall₂_congr fun field hfield => ih field hfield
  | integer short => cases room <;> simp [textFault?, depth, short]
  | _ => cases room <;> simp [textFault?, depth]

/-- All that can be wrong with a plain value is that it stands too deep. -/
theorem Plain.eq_tooDeep_of_textFault? {value : Json} (h : Plain value) {fault : TextFault}
    (hfault : value.textFault? room = some fault) : fault = .tooDeep := by
  induction h generalizing room with
  | @array items each ih =>
      cases room with
      | zero =>
          cases hfault
          rfl
      | succ room =>
          obtain ⟨item, hitem, hinner⟩ := exists_of_itemsFault? hfault
          exact ih item hitem hinner
  | @object fields keys each ih =>
      cases room with
      | zero =>
          cases hfault
          rfl
      | succ room =>
          obtain ⟨field, hfield, hinner⟩ := exists_of_fieldsFault? hfault
          exact ih field hfield hinner
  | integer short => cases room <;> simp_all [textFault?]
  | _ => cases room <;> simp_all [textFault?]

/-- A plain value that does not fit in a room stands too deep for it. -/
theorem Plain.textFault?_eq_tooDeep {value : Json} (h : Plain value) (hdeep : room < value.height) :
    value.textFault? room = some .tooDeep := by
  cases hfault : value.textFault? room with
  | none => exact absurd (h.textFault?_eq_none_iff.mp hfault) (Nat.not_le_of_lt hdeep)
  | some fault => rw [h.eq_tooDeep_of_textFault? hfault]

/-! ### Keys in order -/

theorem sortItemKeys_eq_map (items : List Json) : sortItemKeys items = items.map sortKeys := by
  induction items with
  | nil => rfl
  | cons item items ih => rw [sortItemKeys, ih, List.map_cons]

theorem sortFieldKeys_eq_map (fields : List (String × Json)) :
    sortFieldKeys fields = fields.map fun field => (field.1, field.2.sortKeys) := by
  induction fields with
  | nil => rfl
  | cons field fields ih => rw [sortFieldKeys, ih, List.map_cons]

/-- The fields of an object in order, the keys of every object in them sorted. -/
def sortedFields (fields : List (String × Json)) : List (String × Json) :=
  (sortFieldKeys fields).mergeSort fun first second => keyLe first.1 second.1

theorem mem_sortedFields {fields : List (String × Json)} {field : String × Json} :
    field ∈ sortedFields fields ↔ ∃ given ∈ fields, (given.1, given.2.sortKeys) = field := by
  rw [sortedFields, (List.mergeSort_perm _ _).mem_iff, sortFieldKeys_eq_map, List.mem_map]

theorem keys_sortedFields_perm (fields : List (String × Json)) :
    (Entries.keys (sortedFields fields)).Perm (Entries.keys fields) := by
  refine ((List.mergeSort_perm _ _).map Prod.fst).trans ?_
  rw [sortFieldKeys_eq_map, List.map_map]
  exact List.Perm.refl _

theorem Plain.sortKeys {value : Json} (h : Plain value) : Plain value.sortKeys := by
  induction h with
  | null => exact .null
  | bool value => exact .bool value
  | integer short => exact .integer short
  | string value => exact .string value
  | @array items each ih =>
      rw [Json.sortKeys, sortItemKeys_eq_map]
      exact .array (List.forall_mem_map.mpr ih)
  | @object fields keys each ih =>
      show Plain (.object (sortedFields fields))
      refine .object ((keys_sortedFields_perm fields).nodup_iff.mpr keys) fun field hfield => ?_
      obtain ⟨given, hgiven, rfl⟩ := mem_sortedFields.mp hfield
      exact ih given hgiven

/-- Sorting the keys leaves a value as deep as it is. -/
theorem Plain.depth_sortKeys {value : Json} (h : Plain value) :
    value.sortKeys.depth leaf = value.depth leaf := by
  refine eq_of_forall_ge_iff fun room => ?_
  induction h generalizing room with
  | @array items each ih =>
      rw [Json.sortKeys, sortItemKeys_eq_map]
      cases room with
      | zero => simp [depth]
      | succ room =>
          rw [depth_array_le_iff, depth_array_le_iff, List.forall_mem_map]
          exact forall₂_congr fun item hitem => ih item hitem room
  | @object fields keys each ih =>
      show (Json.object (sortedFields fields)).depth leaf ≤ room ↔ _
      cases room with
      | zero => simp [depth]
      | succ room =>
          rw [depth_object_le_iff, depth_object_le_iff]
          constructor
          · intro hsorted field hfield
            exact (ih field hfield room).mp (hsorted _ (mem_sortedFields.mpr ⟨field, hfield, rfl⟩))
          · intro hgiven field hfield
            obtain ⟨given, hmem, rfl⟩ := mem_sortedFields.mp hfield
            exact (ih given hmem room).mpr (hgiven given hmem)
  | _ => rfl

/-- Sorting the keys changes nothing but their order. -/
theorem reordered_sortKeys {value : Json} (h : Tidy value) : Reordered value value.sortKeys := by
  induction h with
  | null => exact .null
  | bool value => exact .bool value
  | integer value => exact .integer value
  | number value => exact .number value
  | string value => exact .string value
  | @array items each ih =>
      rw [sortKeys, sortItemKeys_eq_map]
      have hitems : List.Forall₂ Reordered items (items.map sortKeys) :=
        List.forall₂_map_right_iff.mpr (List.forall₂_same.mpr ih)
      exact .array hitems.length_eq fun _ _ hpair => List.forall₂_zip hitems hpair
  | @object fields keys each ih =>
      show Reordered (.object fields) (.object (sortedFields fields))
      refine .object keys (keys_sortedFields_perm fields).symm
        fun key value other hvalue hother => ?_
      obtain ⟨given, hgiven, hsame⟩ := mem_sortedFields.mp (Entries.mem_of_get? hother)
      cases hsame
      -- The key occurs once, so the field that was sorted is the one that was found.
      rw [Entries.get?_of_mem keys hgiven] at hvalue
      cases hvalue
      exact ih given hgiven

end HeaderBind.Json
