import HeaderBind.Proofs.Entries
import HeaderBind.Proofs.Json.Room
import HeaderBind.Schema.Basic

/-!
# `HeaderBind.Proofs.Schema.Messages`: messages that can be made

The messages about all violations are made before one of them is reported, and most of them show a
value. The values that a check of a document comes to are the document and what is inside it, so
where the document can be shown at any place of a check, every message can be made
(`faults?_check_eq_none`). The induction is on the schema, with its fields and its alternatives
beside it.
-/

set_option autoImplicit false

namespace HeaderBind

variable [Interpreter]

/-- A value that any message of a check can show. -/
def Json.CanShow (value : Json) : Prop :=
  ∀ places, value.textFault? (Interpreter.showRoom places) = none

namespace Schema

namespace Violation

/-- The messages about a violation and its context can be made. -/
structure CanTell (violation : Violation) : Prop where
  value : violation.problem.showsValue = true → violation.value.CanShow
  context : ∀ around, faults? around violation.context = none

theorem fault?_eq_none {violation : Violation} (h : violation.CanTell)
    (around : List (List String)) : violation.fault? around = none := by
  obtain ⟨path, value, problem, ofKind, context⟩ := violation
  have hcontext : ∀ around, faults? around context = none := h.context
  rw [fault?, hcontext, Option.none_or, ite_eq_right_iff]
  exact fun hshows => h.value hshows _

theorem faults?_eq_none {violations : List Violation}
    (h : ∀ violation ∈ violations, violation.CanTell) (around : List (List String)) :
    faults? around violations = none := by
  induction violations with
  | nil => rfl
  | cons violation violations ih =>
      rw [List.forall_mem_cons] at h
      rw [faults?, fault?_eq_none h.1, ih h.2, Option.none_or]

/-- Where a violation is seen from does not matter. -/
theorem CanTell.inside {violation : Violation} (h : violation.CanTell) (step : Step) :
    (violation.inside step).CanTell := by
  obtain ⟨path, value, problem, ofKind, context⟩ := violation
  exact ⟨h.value, h.context⟩

theorem CanTell.map_inside {violations : List Violation}
    (h : ∀ violation ∈ violations, violation.CanTell) (step : Step) :
    ∀ violation ∈ violations.map (Violation.inside step), violation.CanTell :=
  List.forall_mem_map.mpr fun violation hviolation => (h violation hviolation).inside step

end Violation

open Violation (CanTell)

/-! ### Single rules -/

theorem canTell_broken {value : Json} (h : value.CanShow) (problem : Problem) (ofKind : Bool) :
    (broken value problem ofKind).CanTell :=
  ⟨fun _ => h, fun _ => rfl⟩

theorem canTell_wrongKind {value : Json} (h : value.CanShow) (expected : Kind) :
    ∀ violation ∈ wrongKind value expected, violation.CanTell :=
  List.forall_mem_singleton.mpr (canTell_broken h _ _)

theorem canTell_demand {value : Json} (h : value.CanShow) (holds : Bool) (problem : Problem) :
    ∀ violation ∈ demand holds value problem, violation.CanTell := by
  cases holds with
  | true => exact fun violation hviolation => nomatch hviolation
  | false => exact List.forall_mem_singleton.mpr (canTell_broken h _ _)

theorem canTell_checkItems {check : Json → List Violation} {items : List Json}
    (h : ∀ item ∈ items, ∀ violation ∈ check item, violation.CanTell) (start : Nat) :
    ∀ violation ∈ checkItems check start items, violation.CanTell := by
  induction items generalizing start with
  | nil => exact fun violation hviolation => nomatch hviolation
  | cons item items ih =>
      rw [List.forall_mem_cons] at h
      exact List.forall_mem_append.mpr ⟨CanTell.map_inside h.1 _, ih h.2 _⟩

theorem canTell_checkValues {check : Json → List Violation} {fields : List (String × Json)}
    (h : ∀ field ∈ fields, ∀ violation ∈ check field.2, violation.CanTell) :
    ∀ violation ∈ checkValues check fields, violation.CanTell :=
  List.forall_mem_flatMap.mpr fun field hfield => CanTell.map_inside (h field hfield) _

theorem canTell_checkRequired {value : Json} (h : value.CanShow) (required : List String)
    (fields : List (String × Json)) :
    ∀ violation ∈ checkRequired required value fields, violation.CanTell :=
  List.forall_mem_flatMap.mpr fun _ _ => canTell_demand h _ _

/-! ### All rules of a schema -/

mutual

/-- Whatever a value that can be shown violates can be told. -/
theorem canTell_check (schema : Schema) {value : Json} (h : value.CanShow) :
    ∀ violation ∈ schema.check value, violation.CanTell := by
  match schema with
  | .text form =>
      cases value with
      | string s => exact canTell_demand h _ _
      | _ => exact canTell_wrongKind h _
  | .flag =>
      cases value with
      | bool b => exact fun violation hviolation => nomatch hviolation
      | _ => exact canTell_wrongKind h _
  | .choice allowed =>
      have hone := canTell_broken h (.notAllowed allowed) false
      cases value with
      | string s =>
          rw [check]
          split
          · exact fun violation hviolation => nomatch hviolation
          · exact List.forall_mem_singleton.mpr hone
      | _ => exact List.forall_mem_singleton.mpr hone
  | .list least item =>
      cases value with
      | array items =>
          refine List.forall_mem_append.mpr ⟨canTell_demand h _ _, ?_⟩
          exact canTell_checkItems (fun inner hinner => canTell_check item fun places =>
            Json.textFault?_of_mem_array (h places) hinner) _
      | _ => exact canTell_wrongKind h _
  | .record required closed fields =>
      cases value with
      | object given =>
          rw [check, List.forall_mem_append, List.forall_mem_append]
          refine ⟨⟨canTell_checkRequired h _ _, ?_⟩, canTell_checkFields fields h⟩
          cases closed with
          | false => exact fun violation hviolation => nomatch hviolation
          | true => exact canTell_demand h _ _
      | _ => exact canTell_wrongKind h _
  | .table least entry =>
      cases value with
      | object given =>
          refine List.forall_mem_append.mpr ⟨canTell_demand h _ _, ?_⟩
          exact canTell_checkValues fun field hfield => canTell_check entry fun places =>
            Json.textFault?_of_mem_object (h places) hfield
      | _ => exact canTell_wrongKind h _
  | .oneOf alternatives =>
      rw [check]
      cases hcontext : checkAlternatives alternatives value with
      | none => exact fun violation hviolation => nomatch hviolation
      | some context =>
          refine List.forall_mem_singleton.mpr ⟨fun _ => h, fun around => ?_⟩
          exact Violation.faults?_eq_none (canTell_checkAlternatives alternatives h hcontext) around

theorem canTell_checkFields (fields : List (String × Schema)) {given : List (String × Json)}
    (h : (Json.object given).CanShow) :
    ∀ violation ∈ checkFields fields given, violation.CanTell := by
  match fields with
  | [] => exact fun violation hviolation => nomatch hviolation
  | (key, schema) :: fields =>
      refine List.forall_mem_append.mpr ⟨?_, canTell_checkFields fields h⟩
      cases hvalue : Entries.get? given key with
      | none => exact fun violation hviolation => nomatch hviolation
      | some value =>
          have hmem : (key, value) ∈ given := Entries.mem_of_get? hvalue
          exact CanTell.map_inside (canTell_check schema fun places =>
            Json.textFault?_of_mem_object (h places) hmem) _

theorem canTell_checkAlternatives (schemas : List Schema) {value : Json} (h : value.CanShow)
    {context : List Violation} (hcontext : checkAlternatives schemas value = some context) :
    ∀ violation ∈ context, violation.CanTell := by
  match schemas with
  | [] =>
      cases hcontext
      exact fun violation hviolation => nomatch hviolation
  | schema :: schemas =>
      rw [checkAlternatives] at hcontext
      split at hcontext
      · cases hcontext
      · cases hcontext
      · rename_i hothers _
        cases hcontext
        exact List.forall_mem_append.mpr ⟨canTell_check schema h,
          canTell_checkAlternatives schemas h hothers⟩

end

/-- Nothing keeps the messages about a value that can be shown from being made. -/
theorem faults?_check_eq_none (schema : Schema) {value : Json} (h : value.CanShow)
    (around : List (List String)) : Violation.faults? around (schema.check value) = none :=
  Violation.faults?_eq_none (canTell_check schema h) around

end Schema

end HeaderBind
