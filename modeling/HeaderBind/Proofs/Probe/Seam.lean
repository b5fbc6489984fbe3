import HeaderBind.Proofs.Entries
import HeaderBind.Proofs.Probe.Key
import HeaderBind.Proofs.Resolution
import HeaderBind.Proofs.Text.Ascii

/-!
# `HeaderBind.Proofs.Probe.Seam`: outputs that are put together

What a program prints is often one output behind another: warnings, then results, then the results
of a second run. The reader takes such a text apart at the seam. A line feed between two texts ends
a line, whatever the first text ends with and the second one starts with: its carriage return joins
the line feed, any other break of it leaves an empty line (`splitLines_append_newline_append`).
Empty lines have no result, so the results of the whole are those of the first text with those of
the second one written over them (`results_append_newline`).

Declarations are resolved one after the other and share nothing but the results. Two lists of them
in a row are therefore resolved like each list by itself (`resolveAll_append`), and only the values
found under their keys matter (`resolveAll_congr`). `resolve_line_by_line` puts this together.
-/

set_option autoImplicit false

namespace HeaderBind

open HeaderBind.Text

namespace Text

/-- A line feed ends a line: what stands in front of it is split as if nothing followed, and what
stands behind it as if nothing came before. There may be an empty line between the two. -/
theorem splitLines_append_newline_append (front rest : List Char) :
    ∃ between, (∀ line ∈ between, line = []) ∧
      splitLines (front ++ '\n' :: rest) = splitLines front ++ between ++ splitLines rest := by
  fun_induction splitLines front with
  | case1 => exact ⟨[[]], by simp, rfl⟩
  | case2 front ih =>
      obtain ⟨between, hblank, hlines⟩ := ih
      exact ⟨between, hblank, by simp [splitLines, hlines]⟩
  | case3 c front hpair hbreak ih =>
      obtain ⟨between, hblank, hlines⟩ := ih
      by_cases hreturn : c = '\r' ∧ front = []
      · -- The line feed of the seam is the second half of a break.
        obtain ⟨rfl, rfl⟩ := hreturn
        exact ⟨[], by simp, rfl⟩
      · refine ⟨between, hblank, ?_⟩
        rw [List.cons_append, splitLines_cons_of_isLineBreak hbreak, hlines]
        · rfl
        · intro rest' hc hrest
          cases front with
          | nil => exact hreturn ⟨hc, rfl⟩
          | cons d front =>
              rw [List.cons_append, List.cons.injEq] at hrest
              exact hpair front hc (by rw [hrest.1])
  | case4 c front hpair hbreak hnil ih =>
      -- The only line is open at the seam.
      rw [splitLines_eq_nil_iff.mp hnil]
      refine ⟨[], by simp, ?_⟩
      exact splitLines_append_newline rest (by simpa using hbreak)
  | case5 c front hpair hbreak line lines hcons ih =>
      obtain ⟨between, hblank, hlines⟩ := ih
      refine ⟨between, hblank, ?_⟩
      rw [List.cons_append, splitLines_cons_of_not_isLineBreak (by simpa using hbreak), hlines,
        hcons]
      rfl

end Text

namespace Probe

/-- The results of two outputs with a line feed between them are those of the first one with those
of the second one written over them. -/
theorem results_append_newline (first second : String) :
    results (first ++ "\n" ++ second) = (results first).update (results second) := by
  obtain ⟨between, hblank, hlines⟩ :=
    splitLines_append_newline_append first.toList second.toList
  have hchars : (first ++ "\n" ++ second).toList = first.toList ++ '\n' :: second.toList := by
    simp
  have hnone : between.filterMap resultOfLine? = [] := by
    rw [List.filterMap_eq_nil_iff]
    intro line hline
    rw [hblank line hline]
    rfl
  unfold results
  rw [hchars, hlines, List.filterMap_append, List.filterMap_append, hnone, List.append_nil,
    Entries.ofList_append]

theorem nodup_keys_results (output : String) : (results output).keys.Nodup :=
  (Entries.ofList_spec _).1

end Probe

namespace Resolution

/-- A list of declarations behind another one is resolved by itself, once the first one is. -/
theorem resolveAll_append (found : Entries String) (front rest : List Declaration) :
    resolveAll found (front ++ rest) =
      match resolveAll found front, resolveAll found rest with
      | .ok made, .ok others => .ok (made ++ others)
      | .error fault, _ => .error fault
      | .ok _, .error fault => .error fault := by
  induction front with
  | nil =>
      show resolveAll found rest = _
      cases resolveAll found rest <;> rfl
  | cons declaration front ih =>
      rw [List.cons_append, resolveAll, resolveAll, ih]
      cases resolveOne found declaration with
      | error fault => rfl
      | ok first => cases resolveAll found front <;> cases resolveAll found rest <;> rfl

/-- A declaration asks for the value of its own key, and for nothing else. -/
theorem resolveOne_congr {found other : Entries String} {declaration : Declaration}
    (h : Entries.get? found declaration.key = Entries.get? other declaration.key) :
    resolveOne found declaration = resolveOne other declaration := by
  have hrequired : Probe.require found declaration.key = Probe.require other declaration.key := by
    unfold Probe.require
    rw [h]
  unfold resolveOne
  rw [hrequired]

theorem resolveAll_congr {found other : Entries String} {declarations : List Declaration}
    (h : ∀ declaration ∈ declarations,
      Entries.get? found declaration.key = Entries.get? other declaration.key) :
    resolveAll found declarations = resolveAll other declarations := by
  induction declarations with
  | nil => rfl
  | cons declaration declarations ih =>
      obtain ⟨hfirst, hrest⟩ := List.forall_mem_cons.mp h
      rw [resolveAll, resolveAll, resolveOne_congr hfirst, ih hrest]

/-- The output of a probe is read line by line, and each declaration is resolved on its own.

* A line with an identifier, an equals sign and a visible text is the one result of the identifier.
* An output behind another one, with a line feed between them, updates the results: a key that is
  known keeps its place, a new one comes behind, and the later value of a key is the one that
  counts.
* Two lists of declarations in a row are resolved like each of them by itself. If the first one
  cannot be resolved, its fault is the outcome, and the one of the second list otherwise.
* Two outputs with the same results for the keys of the declarations have the same outcome, whatever
  else is in them. -/
theorem resolve_line_by_line :
    (∀ key value : String, Name.isIdentifier key.toList = true → Visible value.toList →
      Probe.results (key ++ "=" ++ value) = [(key, value)]) ∧
    (∀ first second : String,
      Probe.results (first ++ "\n" ++ second)
          = (Probe.results first).update (Probe.results second) ∧
        (Probe.results (first ++ "\n" ++ second)).keys
          = (Probe.results first).keys ++
            (Probe.results second).keys.filter (fun key => key ∉ (Probe.results first).keys) ∧
        ∀ key, Entries.get? (Probe.results (first ++ "\n" ++ second)) key
          = (Entries.get? (Probe.results second) key).or
              (Entries.get? (Probe.results first) key)) ∧
    (∀ (front rest : List Declaration) (output : String),
      resolve (front ++ rest) output =
        match resolve front output, resolve rest output with
        | .ok made, .ok others => .ok (made ++ others)
        | .error fault, _ => .error fault
        | .ok _, .error fault => .error fault) ∧
    ∀ (declarations : List Declaration) (output other : String),
      (∀ declaration ∈ declarations,
        Entries.get? (Probe.results output) declaration.key
          = Entries.get? (Probe.results other) declaration.key) →
      resolve declarations output = resolve declarations other := by
  refine ⟨?_, ?_, ?_, ?_⟩
  · intro key value hkey hvalue
    exact Probe.results_of_isIdentifier hkey hvalue
  · intro first second
    have hsecond := Probe.nodup_keys_results second
    rw [Probe.results_append_newline]
    exact ⟨rfl, Entries.keys_update hsecond, Entries.get?_update hsecond⟩
  · intro front rest output
    exact resolveAll_append _ front rest
  · intro declarations output other h
    exact resolveAll_congr h

/-- An output with a warning in front, two results for one constant, and a carriage return at the
end of a line. -/
def noisyOutput : String :=
  "LIMIT: old\nLIMIT=3\r\n OTHER=1\nLIMIT=7"

theorem resolve_line_by_line_noisyOutput :
    Probe.results "LIMIT=7" = [("LIMIT", "7")] ∧
    (∀ declaration ∈ [Declaration.constant ⟨"LIMIT", "MAX", .always⟩],
      Entries.get? (Probe.results noisyOutput) declaration.key
        = Entries.get? (Probe.results "LIMIT=7") declaration.key) ∧
    resolve [.constant ⟨"LIMIT", "MAX", .always⟩] noisyOutput
      = resolve [.constant ⟨"LIMIT", "MAX", .always⟩] "LIMIT=7" := by
  have hvisible : Visible "7".toList := .cons (by decide) .nil
  have hsame : ∀ declaration ∈ [Declaration.constant ⟨"LIMIT", "MAX", .always⟩],
      Entries.get? (Probe.results noisyOutput) declaration.key
        = Entries.get? (Probe.results "LIMIT=7") declaration.key := by
    decide +kernel
  exact ⟨resolve_line_by_line.1 "LIMIT" "7" (by decide) hvisible, hsame,
    resolve_line_by_line.2.2.2 _ _ _ hsame⟩

end Resolution

end HeaderBind
