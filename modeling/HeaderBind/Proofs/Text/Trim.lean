import HeaderBind.Proofs.Text.Ascii

/-!
# `HeaderBind.Proofs.Text.Trim`: what trimming leaves

Trimming takes a run off the front of a text and a run off its back, and what is left starts and
ends with characters that stay (`exists_eq_append_trimBy`). So a text that was trimmed has nothing
more to trim.
-/

set_option autoImplicit false

namespace HeaderBind.Text

variable {strip : Char → Bool} {cs : List Char}

/-- Trimming takes a run off the front and a run off the back, and nothing else. -/
theorem exists_eq_append_trimBy (strip : Char → Bool) (cs : List Char) :
    ∃ front back, cs = front ++ trimBy strip cs ++ back ∧
      (∀ c ∈ front, strip c = true) ∧ ∀ c ∈ back, strip c = true := by
  have hback : ((cs.dropWhile strip).reverse.dropWhile strip).reverse
      ++ ((cs.dropWhile strip).reverse.takeWhile strip).reverse = cs.dropWhile strip := by
    rw [← List.reverse_append, List.takeWhile_append_dropWhile, List.reverse_reverse]
  refine ⟨cs.takeWhile strip, ((cs.dropWhile strip).reverse.takeWhile strip).reverse, ?_, ?_, ?_⟩
  · rw [List.append_assoc, trimBy, hback, List.takeWhile_append_dropWhile]
  · intro c hc
    exact List.mem_takeWhile_imp hc
  · intro c hc
    exact List.mem_takeWhile_imp (List.mem_reverse.mp hc)

/-- The first character that is left stays. -/
theorem stays_of_head?_trimBy {c : Char} (h : (trimBy strip cs).head? = some c) :
    strip c = false := by
  -- What is left starts like what was left before the back was looked at.
  have hlast : (cs.dropWhile strip).reverse.getLast? = some c := by
    rw [trimBy, List.head?_reverse] at h
    obtain ⟨gone, hgone⟩ := List.dropWhile_suffix (l := (cs.dropWhile strip).reverse) strip
    rw [← hgone, List.getLast?_append, h, Option.some_or]
  have hhead := List.head?_dropWhile_not strip cs
  rw [← List.getLast?_reverse, hlast] at hhead
  simpa using hhead

/-- So does the last one. -/
theorem stays_of_getLast?_trimBy {c : Char} (h : (trimBy strip cs).getLast? = some c) :
    strip c = false := by
  have hhead := List.head?_dropWhile_not strip (cs.dropWhile strip).reverse
  rw [trimBy, List.getLast?_reverse] at h
  rw [h] at hhead
  simpa using hhead

/-- A text that was trimmed has nothing more to trim. -/
theorem trimBy_trimBy (strip : Char → Bool) (cs : List Char) :
    trimBy strip (trimBy strip cs) = trimBy strip cs :=
  trimBy_eq_self_of_ends (fun _ => stays_of_head?_trimBy) fun _ => stays_of_getLast?_trimBy

theorem trim_trim (s : String) : trim (trim s) = trim s := by
  rw [trim, trim, String.toList_ofList, trimChars, trimChars, trimBy_trimBy]

end HeaderBind.Text
