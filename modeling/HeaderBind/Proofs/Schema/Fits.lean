import HeaderBind.Proofs.Entries
import HeaderBind.Schema.Basic

/-!
# `HeaderBind.Proofs.Schema.Fits`: which values have a shape

`Schema.check` collects violations, and stops looking at alternatives as soon as the value fits one
of them. `Schema.fits` says yes or no, rule by rule as the standard for schemas has it: of some
alternatives exactly one must fit.

The two agree on schemas whose alternatives exclude each other, which can be seen from the schemas:
`Schema.isUnambiguous` asks for a key that one of two alternatives requires and the other one, being
closed, does not know. `check_eq_nil_iff` is the agreement; the induction is on the schema, with its
fields and its alternatives beside it.
-/

set_option autoImplicit false

namespace HeaderBind

namespace Schema

mutual

/-- Whether a value has a shape. -/
def fits : Schema → Json → Bool
  | .text form, .string s => form.admits s
  | .flag, .bool _ => true
  | .choice allowed, .string s => allowed.contains s
  | .list least item, .array items => decide (least ≤ items.length) && items.all (fits item)
  | .record required closed fields, .object given =>
    required.all (fun key => (Entries.get? given key).isSome) &&
      (!closed || (Entries.keys given).all fun key => (fields.map Prod.fst).contains key) &&
      fitsFields fields given
  | .table least entry, .object given =>
    decide (least ≤ given.length) && given.all fun field => fits entry field.2
  | .oneOf alternatives, value => fitCount alternatives value == 1
  | _, _ => false

/-- Whether those of the named fields that are there have their shapes. -/
def fitsFields : List (String × Schema) → List (String × Json) → Bool
  | [], _ => true
  | (key, schema) :: fields, given =>
    (Entries.get? given key).all (fits schema) && fitsFields fields given

/-- How many of some shapes a value has. -/
def fitCount : List Schema → Json → Nat
  | [], _ => 0
  | schema :: schemas, value => (if fits schema value then 1 else 0) + fitCount schemas value

end

/-- Whether the first of two shapes requires a key that the second one does not allow. -/
def tellsApart : Schema → Schema → Bool
  | .record required _ _, .record _ true fields =>
    required.any fun key => !(fields.map Prod.fst).contains key
  | _, _ => false

mutual

/-- Whether the alternatives in a schema can be told apart, wherever they stand. -/
def isUnambiguous : Schema → Bool
  | .list _ item => isUnambiguous item
  | .record _ _ fields => fieldsUnambiguous fields
  | .table _ entry => isUnambiguous entry
  | .oneOf alternatives => alternativesUnambiguous alternatives
  | .text _ | .flag | .choice _ => true

/-- Whether this holds of the shapes of fields. -/
def fieldsUnambiguous : List (String × Schema) → Bool
  | [] => true
  | (_, schema) :: fields => isUnambiguous schema && fieldsUnambiguous fields

/-- Whether this holds of alternatives, and of each of them against those behind it. -/
def alternativesUnambiguous : List Schema → Bool
  | [] => true
  | schema :: schemas =>
    isUnambiguous schema && schemas.all (tellsApart schema) && alternativesUnambiguous schemas

end

/-! ### Single rules -/

@[simp] theorem demand_eq_nil_iff {holds : Bool} {value : Json} {problem : Problem} :
    demand holds value problem = [] ↔ holds = true := by
  cases holds <;> simp [demand]

@[simp] theorem wrongKind_ne_nil {value : Json} {expected : Kind} :
    wrongKind value expected ≠ [] :=
  List.cons_ne_nil _ _

theorem checkItems_eq_nil_iff {check : Json → List Violation} {start : Nat} {items : List Json} :
    checkItems check start items = [] ↔ ∀ item ∈ items, check item = [] := by
  induction items generalizing start with
  | nil => simp [checkItems]
  | cons item items ih =>
      rw [checkItems, List.append_eq_nil_iff, List.map_eq_nil_iff, ih, List.forall_mem_cons]

theorem checkValues_eq_nil_iff {check : Json → List Violation} {fields : List (String × Json)} :
    checkValues check fields = [] ↔ ∀ field ∈ fields, check field.2 = [] := by
  simp only [checkValues, List.flatMap_eq_nil_iff, List.map_eq_nil_iff]

theorem checkKnown_eq_nil_iff {known : List String} {value : Json}
    {fields : List (String × Json)} :
    checkKnown known value fields = []
      ↔ ((Entries.keys fields).all fun key => known.contains key) = true := by
  simp [checkKnown]

theorem checkRequired_eq_nil_iff {required : List String} {value : Json}
    {fields : List (String × Json)} :
    checkRequired required value fields = []
      ↔ (required.all fun key => (Entries.get? fields key).isSome) = true := by
  simp [checkRequired, List.flatMap_eq_nil_iff]

/-! ### Alternatives -/

/-- No value has two shapes that can be told apart. -/
theorem not_fits_of_tellsApart {first second : Schema} (h : tellsApart first second = true)
    {value : Json} (hfirst : fits first value = true) : fits second value = false := by
  unfold tellsApart at h
  split at h
  · rename_i required _ _ _ fields
    obtain ⟨key, hkey, hunknown⟩ := List.any_eq_true.mp h
    cases value with
    | object given =>
        refine Bool.eq_false_iff.mpr fun hsecond => ?_
        simp only [fits, Bool.and_eq_true, List.all_eq_true] at hfirst
        simp only [fits, Bool.and_eq_true, Bool.not_true, Bool.false_or,
          List.all_eq_true] at hsecond
        -- The key is there, since the first shape requires it, so the second one would know it.
        have hthere := Entries.isSome_get?_iff.mp (hfirst.1.1 key hkey)
        have hknown := hsecond.1.2 key hthere
        rw [hknown] at hunknown
        cases hunknown
    | _ => rfl
  · cases h

theorem fitCount_eq_zero {schemas : List Schema} {value : Json}
    (h : ∀ schema ∈ schemas, fits schema value = false) : fitCount schemas value = 0 := by
  induction schemas with
  | nil => rfl
  | cons schema schemas ih =>
      rw [fitCount, h schema List.mem_cons_self,
        ih fun other hother => h other (List.mem_cons_of_mem schema hother)]
      rfl

/-! ### The two readings agree -/

mutual

/-- A value has no violations exactly when it has the shape. -/
theorem check_eq_nil_iff {schema : Schema} (h : schema.isUnambiguous = true) {value : Json} :
    schema.check value = [] ↔ schema.fits value = true := by
  match schema with
  | .text form => cases value <;> simp [check, fits, checkForm]
  | .flag => cases value <;> simp [check, fits]
  | .choice allowed => cases value <;> simp [check, fits]
  | .list least item =>
      have hitem : item.isUnambiguous = true := h
      cases value with
      | array items =>
          simp only [check, fits, List.append_eq_nil_iff, demand_eq_nil_iff, checkItems_eq_nil_iff,
            check_eq_nil_iff hitem, Bool.and_eq_true, List.all_eq_true]
      | _ => simp [check, fits]
  | .record required closed fields =>
      have hfields : fieldsUnambiguous fields = true := h
      cases value with
      | object given =>
          have hknown : (if closed then checkKnown (fields.map Prod.fst) (.object given) given
              else []) = [] ↔ (!closed || (Entries.keys given).all fun key =>
                (fields.map Prod.fst).contains key) = true := by
            cases closed with
            | false => simp
            | true =>
                rw [if_pos rfl, checkKnown_eq_nil_iff]
                rfl
          simp only [check, fits, List.append_eq_nil_iff, checkRequired_eq_nil_iff, hknown,
            checkFields_eq_nil_iff hfields, Bool.and_eq_true]
      | _ => simp [check, fits]
  | .table least entry =>
      have hentry : entry.isUnambiguous = true := h
      cases value with
      | object given =>
          simp only [check, fits, List.append_eq_nil_iff, demand_eq_nil_iff,
            checkValues_eq_nil_iff, check_eq_nil_iff hentry, Bool.and_eq_true, List.all_eq_true]
      | _ => simp [check, fits]
  | .oneOf alternatives =>
      have halternatives : alternativesUnambiguous alternatives = true := h
      have hnone : checkAlternatives alternatives value = none ↔ fitCount alternatives value = 1 :=
        checkAlternatives_eq_none_iff halternatives
      rw [fits, beq_iff_eq, ← hnone, check]
      cases checkAlternatives alternatives value <;> simp

theorem checkFields_eq_nil_iff {fields : List (String × Schema)}
    (h : fieldsUnambiguous fields = true) {given : List (String × Json)} :
    checkFields fields given = [] ↔ fitsFields fields given = true := by
  match fields with
  | [] => simp [checkFields, fitsFields]
  | (key, schema) :: fields =>
      obtain ⟨hschema, hfields⟩ := Bool.and_eq_true_iff.mp h
      rw [checkFields, fitsFields, List.append_eq_nil_iff, checkFields_eq_nil_iff hfields,
        Bool.and_eq_true]
      cases Entries.get? given key with
      | none => simp
      | some value => simp [check_eq_nil_iff hschema]

/-- An alternative without violations is the only one, since the others can be told apart from
it. -/
theorem checkAlternatives_eq_none_iff {schemas : List Schema}
    (h : alternativesUnambiguous schemas = true) {value : Json} :
    checkAlternatives schemas value = none ↔ fitCount schemas value = 1 := by
  match schemas with
  | [] => simp [checkAlternatives, fitCount]
  | schema :: schemas =>
      simp only [alternativesUnambiguous, Bool.and_eq_true, List.all_eq_true] at h
      obtain ⟨⟨hschema, hapart⟩, hschemas⟩ := h
      have hfirst : schema.check value = [] ↔ schema.fits value = true := check_eq_nil_iff hschema
      have hrest : checkAlternatives schemas value = none ↔ fitCount schemas value = 1 :=
        checkAlternatives_eq_none_iff hschemas
      rw [checkAlternatives, fitCount]
      by_cases hfits : schema.fits value = true
      · -- The count stays at one: no later alternative fits beside this one.
        have hothers : fitCount schemas value = 0 :=
          fitCount_eq_zero fun other hother => not_fits_of_tellsApart (hapart other hother) hfits
        rw [hfirst.mpr hfits, hothers]
        simp [hfits]
      · -- The alternative adds its violations, and the later ones decide.
        rw [if_neg hfits, Nat.zero_add, ← hrest]
        have hviolated : schema.check value ≠ [] := fun hnil => hfits (hfirst.mp hnil)
        cases hcheck : schema.check value with
        | nil => exact absurd hcheck hviolated
        | cons violation violations => cases checkAlternatives schemas value <;> simp

end

/-! ### What a shape says about a value -/

theorem fits_text_iff {form : TextForm} {value : Json} :
    fits (.text form) value = true ↔ ∃ s, value = .string s ∧ form.admits s = true := by
  cases value <;> simp [fits]

theorem fits_flag_iff {value : Json} : fits .flag value = true ↔ ∃ b, value = .bool b := by
  cases value <;> simp [fits]

theorem fits_choice_iff {allowed : List String} {value : Json} :
    fits (.choice allowed) value = true ↔ ∃ s, value = .string s ∧ s ∈ allowed := by
  cases value <;> simp [fits]

theorem fits_list_iff {least : Nat} {item : Schema} {value : Json} :
    fits (.list least item) value = true
      ↔ ∃ items, value = .array items ∧ least ≤ items.length ∧
        ∀ each ∈ items, fits item each = true := by
  cases value <;> simp [fits]

theorem fits_table_iff {least : Nat} {entry : Schema} {value : Json} :
    fits (.table least entry) value = true
      ↔ ∃ given, value = .object given ∧ least ≤ given.length ∧
        ∀ field ∈ given, fits entry field.2 = true := by
  cases value <;> simp [fits]

/-- Named fields have their shapes exactly when each of those that are there has its own. -/
theorem fitsFields_iff {fields : List (String × Schema)} {given : List (String × Json)} :
    fitsFields fields given = true
      ↔ ∀ field ∈ fields, ∀ value, Entries.get? given field.1 = some value →
        fits field.2 value = true := by
  induction fields with
  | nil => simp [fitsFields]
  | cons field fields ih =>
      rw [fitsFields, Bool.and_eq_true, ih, List.forall_mem_cons, Option.all_eq_true]

/-- What a record says: its keys are there, a closed one has no others, and each named field that
is there has its shape. -/
theorem fits_record_iff {required : List String} {closed : Bool}
    {fields : List (String × Schema)} {value : Json} :
    fits (.record required closed fields) value = true
      ↔ ∃ given, value = .object given ∧
        (∀ key ∈ required, ∃ inner, Entries.get? given key = some inner) ∧
        (closed = true → ∀ key, key ∉ fields.map Prod.fst → Entries.get? given key = none) ∧
        ∀ field ∈ fields, ∀ inner, Entries.get? given field.1 = some inner →
          fits field.2 inner = true := by
  cases value with
  | object given =>
      have hknown : (!closed || (Entries.keys given).all fun key =>
          (fields.map Prod.fst).contains key) = true
            ↔ (closed = true →
                ∀ key, key ∉ fields.map Prod.fst → Entries.get? given key = none) := by
        cases closed with
        | false => simp
        | true =>
            simp only [Bool.not_true, Bool.false_or, List.all_eq_true, List.contains_iff_mem,
              ← Entries.isSome_get?_iff, ← Option.not_isSome_iff_eq_none, forall_const]
            exact forall_congr' fun key => Decidable.not_imp_not.symm
      simp only [fits, Bool.and_eq_true, List.all_eq_true, Option.isSome_iff_exists, hknown,
        fitsFields_iff, Json.object.injEq, exists_eq_left', and_assoc]
  | _ => simp [fits]

/-- A value that has exactly one of some shapes has one of them. -/
theorem exists_fits_of_oneOf {alternatives : List Schema} {value : Json}
    (h : fits (.oneOf alternatives) value = true) :
    ∃ schema ∈ alternatives, fits schema value = true := by
  have hcount : fitCount alternatives value = 1 := beq_iff_eq.mp h
  refine Decidable.by_contra fun hnone => ?_
  rw [fitCount_eq_zero fun schema hschema =>
    Bool.eq_false_iff.mpr fun hfits => hnone ⟨schema, hschema, hfits⟩] at hcount
  cases hcount

end Schema

end HeaderBind
