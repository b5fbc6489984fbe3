import HeaderBind.Probe.Output
import HeaderBind.Proofs.Entries
import HeaderBind.Proofs.Text.Ascii

/-!
# `HeaderBind.Proofs.Probe.Key`: the keys that an output can have

A key is read from the start of a line, as far as the word characters go. So every key consists of
word characters (`isWordChar_of_mem_keys`), and a line that starts with an identifier and an equals
sign has just that identifier for its key (`resultOfLine?_of_isIdentifier`).
-/

set_option autoImplicit false

namespace HeaderBind.Probe

open HeaderBind.Text

/-- The key of a line that starts with an identifier and an equals sign is the identifier. -/
theorem resultOfLine?_of_isIdentifier {key : String} (h : Name.isIdentifier key.toList = true)
    {value : List Char} (hvalue : Visible value) :
    resultOfLine? (key.toList ++ '=' :: value) = some (key, String.ofList value) := by
  obtain ⟨hne, hname⟩ := isNameChar_of_isIdentifier h
  have hword : ∀ c ∈ key.toList, isWordChar c = true := fun c hc =>
    isWordChar_of_isNameChar (hname c hc)
  have hequals : isWordChar '=' = false := by decide
  have htrim : trimChars (key.toList ++ '=' :: value) = key.toList ++ '=' :: value :=
    Visible.trimChars ((visible_of_isIdentifier h).append (hvalue.cons (by decide)))
  obtain ⟨c, cs, hkey⟩ := List.exists_cons_of_ne_nil hne
  have hofList : String.ofList (c :: cs) = key := by
    rw [← hkey, String.ofList_toList]
  simp only [resultOfLine?, htrim, takeWhile_append_cons _ hword hequals,
    dropWhile_append_cons _ hword hequals]
  rw [hkey]
  show some (String.ofList (c :: cs), _) = _
  rw [hofList]

/-- The key of a line of results is made of word characters. -/
theorem isWordChar_of_resultOfLine? {line : List Char} {result : String × String}
    (h : resultOfLine? line = some result) : ∀ c ∈ result.1.toList, isWordChar c = true := by
  simp only [resultOfLine?] at h
  split at h
  · cases h
    rename_i hkey _
    intro d hd
    rw [String.toList_ofList] at hd
    exact List.mem_takeWhile_imp hd
  · cases h

/-- So is every key that an output has a result for. -/
theorem isWordChar_of_mem_keys {output key : String} (h : key ∈ (results output).keys) :
    ∀ c ∈ key.toList, isWordChar c = true := by
  obtain ⟨value, hvalue⟩ := Option.isSome_iff_exists.mp (Entries.isSome_get?_iff.mpr h)
  have hentry : (key, value) ∈ (splitLines output.toList).filterMap resultOfLine? :=
    (Entries.ofList_spec _).2 _ (Entries.mem_of_get? hvalue)
  obtain ⟨line, -, hline⟩ := List.mem_filterMap.mp hentry
  exact isWordChar_of_resultOfLine? hline

/-- A line with an identifier, an equals sign and a visible text is one result. -/
theorem results_of_isIdentifier {key value : String} (h : Name.isIdentifier key.toList = true)
    (hvalue : Visible value.toList) : results (key ++ "=" ++ value) = [(key, value)] := by
  have hvisible : Visible (key.toList ++ '=' :: value.toList) :=
    (visible_of_isIdentifier h).append (hvalue.cons (by decide))
  have hlines : splitLines (key.toList ++ '=' :: value.toList)
      = [key.toList ++ '=' :: value.toList] :=
    splitLines_eq_singleton (by simp) fun c hc => isLineBreak_of_isVisible (hvisible c hc)
  have hchars : (key ++ "=" ++ value).toList = key.toList ++ '=' :: value.toList := by
    simp
  rw [results, hchars, hlines, List.filterMap_cons_some (resultOfLine?_of_isIdentifier h hvalue),
    String.ofList_toList]
  rfl

/-- An identifier is the key of a result in some output. -/
theorem mem_keys_of_isIdentifier {key : String} (h : Name.isIdentifier key.toList = true) :
    key ∈ (results (key ++ "=" ++ "")).keys := by
  have hempty : Visible "".toList := .nil
  rw [results_of_isIdentifier h hempty]
  exact List.mem_singleton_self key

end HeaderBind.Probe
