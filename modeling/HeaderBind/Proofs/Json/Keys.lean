import HeaderBind.Json.Parser
import HeaderBind.Proofs.Entries
import HeaderBind.Proofs.Result

/-!
# `HeaderBind.Proofs.Json.Keys`: the keys of objects

An object of a document that was read holds every key once, at any depth (`tidy_of_parse`): the
reader puts the fields of an object in one by one, and a later value takes the place of an earlier
one. Sorting the keys of such an object is therefore strict: each key comes before the next one in
the order of code points (`pairwise_sortTexts`).
-/

set_option autoImplicit false

namespace HeaderBind

namespace Json

/-- A value whose objects, at any depth, hold every key once. -/
inductive Tidy : Json → Prop
  | null : Tidy .null
  | bool (value : Bool) : Tidy (.bool value)
  | integer (value : Int) : Tidy (.integer value)
  | number (value : Binary64) : Tidy (.number value)
  | string (value : String) : Tidy (.string value)
  | array {items : List Json} (each : ∀ item ∈ items, Tidy item) : Tidy (.array items)
  | object {fields : List (String × Json)} (keys : (Entries.keys fields).Nodup)
      (each : ∀ field ∈ fields, Tidy field.2) : Tidy (.object fields)

/-- What stands under a key of a tidy value is tidy. -/
theorem Tidy.field? {value inner : Json} {key : String} (h : value.Tidy)
    (hfield : value.field? key = some inner) : inner.Tidy := by
  cases h with
  | object keys each =>
      obtain ⟨entry, hentry, rfl⟩ := Option.map_eq_some_iff.mp hfield
      exact each entry (List.mem_of_find?_eq_some hentry)
  | _ => cases hfield

theorem tidy_ofList {fields : List (String × Json)} (h : ∀ field ∈ fields, Tidy field.2) :
    Tidy (.object (Entries.ofList fields)) := by
  obtain ⟨hnodup, hmem⟩ := Entries.ofList_spec fields
  exact .object hnodup fun field hfield => h field (hmem field hfield)

theorem tidy_of_scanName? {cs rest : List Char} {value : Json}
    (h : scanName? cs = some (value, rest)) : Tidy value := by
  obtain ⟨⟨name, named⟩, hmem, hfound⟩ := List.exists_of_findSome?_eq_some h
  obtain ⟨rest', -, hsame⟩ := Option.map_eq_some_iff.mp hfound
  cases hsame
  have hleaf : ∀ entry ∈ namedValues, Tidy entry.2 := by
    simp only [namedValues, List.forall_mem_cons]
    exact ⟨.null, .bool _, .bool _, .number _, .number _, .number _, nofun⟩
  exact hleaf _ hmem

theorem tidy_of_scanNumber {cs rest : List Char} {value : Json}
    (h : scanNumber cs = .ok (value, rest)) : Tidy value := by
  unfold scanNumber at h
  simp only at h
  split at h
  · cases h
  · split at h
    · split at h
      · cases h
      · cases h
        exact .integer _
    · cases h
      exact .number _

/-- What a reader with this much fuel reads is tidy, be it a value, items or fields. -/
structure ReadsTidy (fuel : Nat) : Prop where
  value : ∀ {room : Nat} {cs rest : List Char} {value : Json},
    scanValue fuel room cs = .ok (value, rest) → Tidy value
  items : ∀ {room : Nat} {cs rest : List Char} {items : List Json},
    scanItems fuel room cs = .ok (items, rest) → ∀ item ∈ items, Tidy item
  fields : ∀ {room : Nat} {cs rest : List Char} {fields : List (String × Json)},
    scanFields fuel room cs = .ok (fields, rest) → ∀ field ∈ fields, Tidy field.2

variable {fuel room : Nat} {cs rest : List Char}

theorem ReadsTidy.value_succ (h : ReadsTidy fuel) {value : Json}
    (hscan : scanValue (fuel + 1) room cs = .ok (value, rest)) : Tidy value := by
  unfold scanValue at hscan
  split at hscan
  · obtain ⟨⟨text, rest'⟩, -, hmade⟩ := map_eq_ok_iff.mp hscan
    cases hmade
    exact .string text
  · split at hscan
    · cases hscan
    split at hscan
    · cases hscan
      exact .array nofun
    · obtain ⟨⟨items, rest'⟩, hitems, hmade⟩ := map_eq_ok_iff.mp hscan
      cases hmade
      exact .array (h.items hitems)
  · split at hscan
    · cases hscan
    split at hscan
    · cases hscan
      exact .object List.nodup_nil nofun
    · obtain ⟨⟨fields, rest'⟩, hfields, hmade⟩ := map_eq_ok_iff.mp hscan
      cases hmade
      exact tidy_ofList (h.fields hfields)
  · split at hscan
    · rename_i hname
      cases hscan
      exact tidy_of_scanName? hname
    · exact tidy_of_scanNumber hscan

theorem ReadsTidy.items_succ (h : ReadsTidy fuel) {items : List Json}
    (hscan : scanItems (fuel + 1) room cs = .ok (items, rest)) : ∀ item ∈ items, Tidy item := by
  unfold scanItems at hscan
  split at hscan
  · cases hscan
  · rename_i item rest' hitem
    split at hscan
    · cases hscan
      exact List.forall_mem_singleton.mpr (h.value hitem)
    · obtain ⟨⟨others, rest''⟩, hothers, hmade⟩ := map_eq_ok_iff.mp hscan
      cases hmade
      exact List.forall_mem_cons.mpr ⟨h.value hitem, h.items hothers⟩
    · cases hscan

theorem ReadsTidy.fields_succ (h : ReadsTidy fuel) {fields : List (String × Json)}
    (hscan : scanFields (fuel + 1) room cs = .ok (fields, rest)) :
    ∀ field ∈ fields, Tidy field.2 := by
  unfold scanFields at hscan
  split at hscan
  · split at hscan
    · cases hscan
    · split at hscan
      · split at hscan
        · cases hscan
        · rename_i value rest' hvalue
          split at hscan
          · cases hscan
            exact List.forall_mem_singleton.mpr (h.value hvalue)
          · obtain ⟨⟨others, rest''⟩, hothers, hmade⟩ := map_eq_ok_iff.mp hscan
            cases hmade
            exact List.forall_mem_cons.mpr ⟨h.value hvalue, h.fields hothers⟩
          · cases hscan
      · cases hscan
  · cases hscan

theorem readsTidy (fuel : Nat) : ReadsTidy fuel := by
  induction fuel with
  | zero => exact ⟨nofun, nofun, nofun⟩
  | succ fuel ih => exact ⟨ih.value_succ, ih.items_succ, ih.fields_succ⟩

/-- A document that was read is tidy. -/
theorem tidy_of_parse [Interpreter] {text : String} {value : Json} (h : parse text = .ok value) :
    Tidy value := by
  rw [parse] at h
  cases hscan : scanDocument text.toList with
  | error stop =>
      rw [hscan] at h
      cases stop <;> cases h
  | ok document =>
      rw [hscan] at h
      cases h
      unfold scanDocument at hscan
      split at hscan
      · cases hscan
      · split at hscan
        · cases hscan
        · rename_i found rest hvalue
          split at hscan
          · cases hscan
            exact (readsTidy _).value hvalue
          · cases hscan

/-! ### The order of keys -/

theorem keyLe_iff {first second : String} : keyLe first second = true ↔ first ≤ second := by
  rw [keyLe, Bool.not_eq_true', decide_eq_false_iff_not]
  exact Iff.rfl

/-- Different texts are sorted strictly. -/
theorem pairwise_sortTexts {texts : List String} (h : texts.Nodup) :
    (sortTexts texts).Pairwise (· < ·) := by
  have hsorted : (sortTexts texts).Pairwise fun first second => keyLe first second = true := by
    refine List.pairwise_mergeSort (fun first second third hfirst hsecond => ?_)
      (fun first second => ?_) texts
    · rw [keyLe_iff] at hfirst hsecond ⊢
      exact String.le_trans hfirst hsecond
    · rw [Bool.or_eq_true, keyLe_iff, keyLe_iff]
      exact String.le_total first second
  have hnodup : (sortTexts texts).Nodup := (List.mergeSort_perm texts keyLe).nodup_iff.mpr h
  refine (List.pairwise_and_iff.mpr ⟨hsorted, hnodup⟩).imp fun {first second} hboth => ?_
  -- Of two different texts in order, the second one is not in front of the first.
  have hle := keyLe_iff.mp hboth.1
  exact Decidable.byContradiction fun hnot =>
    hboth.2 (String.le_antisymm hle (String.not_lt.mp hnot))

end Json

end HeaderBind
