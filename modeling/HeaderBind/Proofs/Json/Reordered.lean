import HeaderBind.Proofs.Json.Keys
import Mathlib.Data.List.Forall2
import Mathlib.Data.List.Zip

/-!
# `HeaderBind.Proofs.Json.Reordered`: values up to the order of keys

The keys of an object stand in an order, and two documents that say the same may differ in it.
`Reordered` relates values that are equal but for the order of the keys in their objects, at any
depth: arrays go item by item, and objects have the same keys, each of them once, with related
values under each key.

Whoever asks a value for a key cannot tell the difference (`Reordered.field?`), and a value without
objects in it is related to itself only (`Rigid`). What goes over all keys of an object sees them in
another order, and sorting them undoes it (`sortTexts_eq_of_perm`).
-/

set_option autoImplicit false

namespace HeaderBind

namespace Entries

variable {α : Type} {entries : Entries α}

/-- Where no key occurs twice, an entry is found under its key. -/
theorem get?_of_mem (hnodup : entries.keys.Nodup) {key : String} {value : α}
    (h : (key, value) ∈ entries) : get? entries key = some value := by
  induction entries with
  | nil => cases h
  | cons entry rest ih =>
      obtain ⟨hfresh, hrest⟩ := List.nodup_cons.mp hnodup
      rw [get?_cons]
      rcases List.mem_cons.mp h with rfl | h
      · rw [if_pos rfl]
      · have hne : entry.1 ≠ key := by
          rintro rfl
          exact hfresh (List.mem_map.mpr ⟨_, h, rfl⟩)
        rw [if_neg hne, ih hrest h]

theorem get?_eq_none_iff {key : String} : get? entries key = none ↔ key ∉ entries.keys := by
  rw [← isSome_get?_iff, Option.not_isSome_iff_eq_none]

end Entries

namespace Json

/-- Values that are equal up to the order of the keys in their objects, at any depth. -/
inductive Reordered : Json → Json → Prop
  | null : Reordered .null .null
  | bool (value : Bool) : Reordered (.bool value) (.bool value)
  | integer (value : Int) : Reordered (.integer value) (.integer value)
  | number (value : Binary64) : Reordered (.number value) (.number value)
  | string (value : String) : Reordered (.string value) (.string value)
  /-- Arrays are compared item by item. -/
  | array {items others : List Json} (length : items.length = others.length)
      (each : ∀ item other, (item, other) ∈ items.zip others → Reordered item other) :
      Reordered (.array items) (.array others)
  /-- Objects have the same keys, each of them once, and are compared key by key. -/
  | object {fields others : List (String × Json)} (nodup : (Entries.keys fields).Nodup)
      (keys : (Entries.keys fields).Perm (Entries.keys others))
      (each : ∀ key value other, Entries.get? fields key = some value →
        Entries.get? others key = some other → Reordered value other) :
      Reordered (.object fields) (.object others)

namespace Reordered

variable {first second : Json}

theorem symm (h : Reordered first second) : Reordered second first := by
  induction h with
  | null => exact .null
  | bool value => exact .bool value
  | integer value => exact .integer value
  | number value => exact .number value
  | string value => exact .string value
  | @array items others length each ih =>
      refine .array length.symm fun other item hpair => ih item other ?_
      rw [← List.zip_swap] at hpair
      obtain ⟨pair, hmem, hsame⟩ := List.mem_map.mp hpair
      cases hsame
      exact hmem
  | object nodup keys each ih =>
      exact .object (keys.nodup_iff.mp nodup) keys.symm fun key other value hother hvalue =>
        ih key value other hvalue hother

/-- Related arrays have related items, in step. -/
theorem forall₂ {items others : List Json} (h : Reordered (.array items) (.array others)) :
    List.Forall₂ Reordered items others := by
  cases h with
  | array length each => exact List.forall₂_iff_zip.mpr ⟨length, fun hpair => each _ _ hpair⟩

/-- An item of the second of two related arrays is related to one of the first. -/
theorem exists_of_mem_items {items others : List Json} (h : List.Forall₂ Reordered items others)
    {other : Json} (hmem : other ∈ others) : ∃ item ∈ items, Reordered item other := by
  induction h with
  | nil => cases hmem
  | cons hfirst _ ih =>
      rcases List.mem_cons.mp hmem with rfl | hrest
      · exact ⟨_, List.mem_cons_self, hfirst⟩
      · obtain ⟨item, hitem, hrelated⟩ := ih hrest
        exact ⟨item, List.mem_cons_of_mem _ hitem, hrelated⟩

/-- Related objects have related values under each key, or none. -/
theorem get? {fields others : List (String × Json)}
    (h : Reordered (.object fields) (.object others)) (key : String) :
    Option.Rel Reordered (Entries.get? fields key) (Entries.get? others key) := by
  cases h with
  | object nodup keys each =>
      cases hvalue : Entries.get? fields key with
      | none =>
          have hother : Entries.get? others key = none := by
            rw [Entries.get?_eq_none_iff] at hvalue ⊢
            exact fun hmem => hvalue (keys.mem_iff.mpr hmem)
          rw [hother]
          exact .none
      | some value =>
          have hthere : (Entries.get? others key).isSome = true := by
            rw [Entries.isSome_get?_iff, ← keys.mem_iff, ← Entries.isSome_get?_iff, hvalue]
            rfl
          obtain ⟨other, hother⟩ := Option.isSome_iff_exists.mp hthere
          rw [hother]
          exact .some (each key value other hvalue hother)

theorem field? (h : Reordered first second) (key : String) :
    Option.Rel Reordered (first.field? key) (second.field? key) := by
  cases h with
  | object nodup keys each => exact get? (.object nodup keys each) key
  | _ => exact .none

theorem isSome_eq_of_rel {value other : Option Json} (h : Option.Rel Reordered value other) :
    value.isSome = other.isSome := by
  cases h <;> rfl

/-- Two readings that are related both find nothing, or related values. -/
theorem none_or_some {value other : Option Json} (h : Option.Rel Reordered value other) :
    (value = none ∧ other = none) ∨
      ∃ own its, value = some own ∧ other = some its ∧ Reordered own its := by
  cases h with
  | none => exact .inl ⟨rfl, rfl⟩
  | some hrelated => exact .inr ⟨_, _, rfl, rfl, hrelated⟩

/-- A null counts as a missing value in both. -/
theorem given? (h : Reordered first second) (key : String) :
    Option.Rel Reordered (first.given? key) (second.given? key) := by
  unfold Json.given?
  rcases none_or_some (h.field? key) with ⟨hvalue, hother⟩ | ⟨value, other, hvalue, hother, hsame⟩
  · rw [hvalue, hother]
    exact .none
  · rw [hvalue, hother]
    cases hsame with
    | null => exact .none
    | _ => exact .some (by constructor <;> assumption)

/-- A field of one object has a related one in the other. -/
theorem exists_of_mem {fields others : List (String × Json)}
    (h : Reordered (.object fields) (.object others)) {key : String} {other : Json}
    (hmem : (key, other) ∈ others) : ∃ value, (key, value) ∈ fields ∧ Reordered value other := by
  have hget := h.get? key
  cases h with
  | object nodup keys each =>
      rw [Entries.get?_of_mem (keys.nodup_iff.mp nodup) hmem] at hget
      cases hvalue : Entries.get? fields key with
      | none =>
          rw [hvalue] at hget
          cases hget
      | some value =>
          rw [hvalue] at hget
          cases hget with
          | some hrelated => exact ⟨value, Entries.mem_of_get? hvalue, hrelated⟩

theorem nonEmptyText?_eq (h : Reordered first second) :
    first.nonEmptyText? = second.nonEmptyText? := by
  cases h <;> rfl

end Reordered

/-! ### Comparing two values -/

mutual

/-- Whether two values are equal up to the order of keys. -/
def isReordered : Json → Json → Bool
  | .null, .null => true
  | .bool value, .bool other => decide (value = other)
  | .integer value, .integer other => decide (value = other)
  | .number value, .number other => decide (value = other)
  | .string value, .string other => decide (value = other)
  | .array items, .array others => areReordered items others
  | .object fields, .object others =>
    decide (Entries.keys fields).Nodup &&
      decide ((Entries.keys fields).Perm (Entries.keys others)) && haveReordered others fields
  | _, _ => false

/-- Whether two lists of values are, item by item. -/
def areReordered : List Json → List Json → Bool
  | [], [] => true
  | item :: items, other :: others => isReordered item other && areReordered items others
  | _, _ => false

/-- Whether each of some fields has a value in an object that is equal to its own in this way. -/
def haveReordered (others : List (String × Json)) : List (String × Json) → Bool
  | [] => true
  | (key, value) :: fields =>
    (Entries.get? others key).any (isReordered value) && haveReordered others fields

end

mutual

theorem isReordered_iff {first second : Json} :
    isReordered first second = true ↔ Reordered first second := by
  match first with
  | .null =>
      cases second with
      | null => exact iff_of_true rfl .null
      | _ => exact iff_of_false nofun nofun
  | .bool value =>
      cases second with
      | bool other =>
          rw [isReordered, decide_eq_true_eq]
          exact ⟨fun hsame => hsame ▸ .bool value, fun h => by cases h; rfl⟩
      | _ => exact iff_of_false nofun nofun
  | .integer value =>
      cases second with
      | integer other =>
          rw [isReordered, decide_eq_true_eq]
          exact ⟨fun hsame => hsame ▸ .integer value, fun h => by cases h; rfl⟩
      | _ => exact iff_of_false nofun nofun
  | .number value =>
      cases second with
      | number other =>
          rw [isReordered, decide_eq_true_eq]
          exact ⟨fun hsame => hsame ▸ .number value, fun h => by cases h; rfl⟩
      | _ => exact iff_of_false nofun nofun
  | .string value =>
      cases second with
      | string other =>
          rw [isReordered, decide_eq_true_eq]
          exact ⟨fun hsame => hsame ▸ .string value, fun h => by cases h; rfl⟩
      | _ => exact iff_of_false nofun nofun
  | .array items =>
      cases second with
      | array others =>
          rw [isReordered, areReordered_iff]
          exact ⟨fun h => .array h.length_eq fun _ _ hpair => List.forall₂_zip h hpair,
            fun h => h.forall₂⟩
      | _ => exact iff_of_false nofun nofun
  | .object fields =>
      cases second with
      | object others =>
          rw [isReordered, Bool.and_eq_true, Bool.and_eq_true, decide_eq_true_eq,
            decide_eq_true_eq, haveReordered_iff]
          constructor
          · rintro ⟨⟨hnodup, hkeys⟩, hfields⟩
            refine .object hnodup hkeys fun key value other hvalue hother => ?_
            obtain ⟨other', hother', hrelated⟩ :=
              hfields (key, value) (Entries.mem_of_get? hvalue)
            cases hother.symm.trans hother'
            exact hrelated
          · intro h
            cases h with
            | object nodup keys each =>
                refine ⟨⟨nodup, keys⟩, fun field hfield => ?_⟩
                have hget := Reordered.get? (.object nodup keys each) field.1
                rw [Entries.get?_of_mem nodup hfield] at hget
                generalize Entries.get? others field.1 = other? at hget ⊢
                cases hget with
                | some hrelated => exact ⟨_, rfl, hrelated⟩
      | _ => exact iff_of_false nofun nofun

theorem areReordered_iff {items others : List Json} :
    areReordered items others = true ↔ List.Forall₂ Reordered items others := by
  match items with
  | [] =>
      cases others with
      | nil => exact iff_of_true rfl .nil
      | cons other others => exact iff_of_false nofun nofun
  | item :: items =>
      cases others with
      | nil => exact iff_of_false nofun nofun
      | cons other others =>
          rw [areReordered, Bool.and_eq_true, isReordered_iff, areReordered_iff,
            List.forall₂_cons]

theorem haveReordered_iff {others fields : List (String × Json)} :
    haveReordered others fields = true ↔ ∀ field ∈ fields, ∃ other,
      Entries.get? others field.1 = some other ∧ Reordered field.2 other := by
  match fields with
  | [] => simp [haveReordered]
  | (key, value) :: fields =>
      rw [haveReordered, Bool.and_eq_true, haveReordered_iff, List.forall_mem_cons,
        Option.any_eq_true]
      simp only [isReordered_iff]

end

instance (first second : Json) : Decidable (Reordered first second) :=
  decidable_of_iff _ isReordered_iff

/-! ### Values without another order -/

/-- A value that has no other order. -/
def Rigid (value : Json) : Prop :=
  ∀ other, Reordered value other → other = value

theorem rigid_string (text : String) : Rigid (.string text) := by
  intro other h
  cases h
  rfl

theorem rigid_bool (value : Bool) : Rigid (.bool value) := by
  intro other h
  cases h
  rfl

theorem rigid_array {items : List Json} (h : ∀ item ∈ items, Rigid item) :
    Rigid (.array items) := by
  intro other hother
  cases hother with
  | @array _ others length each =>
      have hitems : List.Forall₂ Reordered items others := Reordered.forall₂ (.array length each)
      rw [Json.array.injEq]
      clear length each
      induction hitems with
      | nil => rfl
      | cons hfirst _ ih =>
          obtain ⟨hitem, hrest⟩ := List.forall_mem_cons.mp h
          rw [hitem _ hfirst, ih hrest]

/-- Where a value without another order stands, the same one stands in every reordered value. -/
theorem Reordered.field?_eq {first second : Json} (h : Reordered first second) {key : String}
    {value? : Option Json} (hvalue : first.field? key = value?)
    (hrigid : ∀ value ∈ value?, Rigid value) : second.field? key = value? := by
  have hfield := h.field? key
  rw [hvalue] at hfield
  generalize second.field? key = other? at hfield ⊢
  cases hfield with
  | none => rfl
  | some hrelated => rw [hrigid _ rfl _ hrelated]

/-- Different texts in another order are sorted alike. -/
theorem sortTexts_eq_of_perm {texts others : List String} (hnodup : texts.Nodup)
    (h : texts.Perm others) : sortTexts texts = sortTexts others := by
  have hperm : (sortTexts texts).Perm (sortTexts others) :=
    (List.mergeSort_perm texts keyLe).trans
      (h.trans (List.mergeSort_perm others keyLe).symm)
  exact List.Perm.eq_of_pairwise (fun _ _ _ _ hlt hgt => absurd hgt (String.lt_asymm hlt))
    (pairwise_sortTexts hnodup) (pairwise_sortTexts (h.nodup_iff.mp hnodup)) hperm

end Json

end HeaderBind
