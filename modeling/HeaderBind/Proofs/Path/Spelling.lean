import HeaderBind.Proofs.Path

/-!
# `HeaderBind.Proofs.Path.Spelling`: a path is read back from its spelling

Many texts spell one path: points, doubled slashes and a slash at the end make no difference. The
path has one spelling of its own, `Path.text`, and that spelling is all that is left of the text.
The theorems:

* `isNormal_ofString`: what a text spells is a path whose components could each stand between two
  slashes.
* `ofString_text`: such a path is read back from its own spelling, so nothing of it is lost there.
* `slash_mem_text_iff`: the spelling has a slash in it exactly when the path starts at the root or
  has a second component. A path with one component is spelled like a name.
-/

set_option autoImplicit false

namespace HeaderBind.Path

/-- A component that a spelling can have between two slashes and that is kept when it is read. -/
structure IsComponent (part : String) : Prop where
  step : isStep part.toList = true
  slash : '/' ∉ part.toList

/-- A path in normal form: each of its components is kept when its spelling is read. -/
def IsNormal (path : Path) : Prop :=
  ∀ part ∈ path.parts, IsComponent part

/-- The separator is in none of the pieces that a text is split into. -/
theorem notMem_of_mem_splitOn {separator : Char} {cs piece : List Char}
    (h : piece ∈ cs.splitOn separator) : separator ∉ piece := by
  induction cs generalizing piece with
  | nil =>
      rw [List.splitOn_nil, List.mem_singleton] at h
      rw [h]
      exact List.not_mem_nil
  | cons c cs ih =>
      rw [List.splitOn_cons_eq_if_modifyHead] at h
      split at h
      · rcases List.mem_cons.mp h with rfl | h
        · exact List.not_mem_nil
        · exact ih h
      · rename_i hc
        -- The character in front goes to the first piece; the other pieces stay.
        obtain ⟨first, rest, hsplit⟩ :=
          List.exists_cons_of_ne_nil (List.splitOn_ne_nil separator cs)
        rw [hsplit, List.modifyHead_cons] at h
        have hall : ∀ other ∈ first :: rest, separator ∉ other := by
          intro other hother
          exact ih (hsplit ▸ hother)
        rcases List.mem_cons.mp h with rfl | h
        · intro hmem
          rcases List.mem_cons.mp hmem with rfl | hmem
          · simp at hc
          · exact hall first List.mem_cons_self hmem
        · exact hall piece (List.mem_cons_of_mem _ h)

theorem isNormal_ofString (s : String) : (ofString s).IsNormal := by
  intro part hpart
  obtain ⟨piece, hpiece, rfl⟩ := List.mem_map.mp hpart
  obtain ⟨hsplit, hstep⟩ := List.mem_filter.mp hpiece
  constructor
  · rwa [String.toList_ofList]
  · rw [String.toList_ofList]
    exact notMem_of_mem_splitOn hsplit

/-! ### Reading a spelling -/

/-- The components of a path with slashes between them. -/
def joined (parts : List String) : List Char :=
  ['/'].intercalate (parts.map String.toList)

theorem joined_singleton (part : String) : joined [part] = part.toList :=
  List.intercalate_singleton

theorem joined_cons_cons (first second : String) (rest : List String) :
    joined (first :: second :: rest) = first.toList ++ '/' :: joined (second :: rest) := by
  rw [joined, List.map_cons, List.map_cons, List.intercalate_cons_cons, List.append_assoc]
  rfl

/-- The spelling of a path that is not the working directory itself. -/
theorem toList_text {path : Path} (h : ¬ (path.anchor = .relative ∧ path.parts = [])) :
    path.text.toList = path.anchor.text.toList ++ joined path.parts := by
  rw [text, if_neg h, String.toList_append, String.toList_intercalate]
  rfl

/-- Slashes in front lead to no component. -/
theorem filter_splitOn_slashes (n : Nat) (cs : List Char) :
    ((List.replicate n '/' ++ cs).splitOn '/').filter isStep
      = (cs.splitOn '/').filter isStep := by
  induction n with
  | zero => rfl
  | succ n ih =>
      have hempty : (List.replicate (n + 1) '/' ++ cs).splitOn '/'
          = [] :: (List.replicate n '/' ++ cs).splitOn '/' :=
        List.splitOn_append_cons_self_of_not_mem (List.not_mem_nil (a := '/')) _
      rw [hempty, List.filter_cons_of_neg (by decide), ih]

section Joined

variable {parts : List String} (h : ∀ part ∈ parts, IsComponent part)
include h

/-- Joined components do not start with a slash, so all slashes in front are those of the anchor. -/
theorem takeWhile_joined : (joined parts).takeWhile (· == '/') = [] := by
  cases parts with
  | nil => rfl
  | cons first rest =>
      have hfirst := h first List.mem_cons_self
      cases hchars : first.toList with
      | nil =>
          have hstep := hfirst.step
          rw [hchars] at hstep
          cases hstep
      | cons c cs =>
          have hc : c ≠ '/' := by
            rintro rfl
            exact hfirst.slash (hchars ▸ List.mem_cons_self)
          have hjoined : ∃ ds, joined (first :: rest) = c :: ds := by
            cases rest with
            | nil => exact ⟨cs, by rw [joined_singleton, hchars]⟩
            | cons second rest =>
                exact ⟨cs ++ '/' :: joined (second :: rest), by
                  rw [joined_cons_cons, hchars, List.cons_append]⟩
          obtain ⟨ds, hjoined⟩ := hjoined
          rw [hjoined, List.takeWhile_cons_of_neg (by simpa using hc)]

/-- Splitting them at the slashes gives the components again. -/
theorem filter_splitOn_joined :
    ((joined parts).splitOn '/').filter isStep = parts.map String.toList := by
  cases parts with
  | nil => rfl
  | cons first rest =>
      have hpieces : ∀ piece ∈ (first :: rest).map String.toList,
          '/' ∉ piece ∧ isStep piece = true := by
        intro piece hpiece
        obtain ⟨part, hpart, rfl⟩ := List.mem_map.mp hpiece
        exact ⟨(h part hpart).slash, (h part hpart).step⟩
      rw [joined, List.splitOn_intercalate '/' (fun piece hpiece => (hpieces piece hpiece).1)
        (by simp)]
      exact List.filter_eq_self.mpr fun piece hpiece => (hpieces piece hpiece).2

end Joined

/-- A path in normal form is read back from its spelling. -/
theorem ofString_text {path : Path} (h : path.IsNormal) : ofString path.text = path := by
  by_cases hpoint : path.anchor = .relative ∧ path.parts = []
  · -- The point that spells the working directory is no component.
    obtain ⟨anchor, parts⟩ := path
    obtain ⟨rfl, rfl⟩ := hpoint
    decide
  · have hslashes : ∃ n, path.anchor.text.toList = List.replicate n '/' ∧
        anchorOfSlashes n = path.anchor := by
      cases path.anchor with
      | relative => exact ⟨0, rfl, rfl⟩
      | root => exact ⟨1, rfl, rfl⟩
      | doubleRoot => exact ⟨2, rfl, rfl⟩
    obtain ⟨n, hanchor, hn⟩ := hslashes
    have hfront : (List.replicate n '/' ++ joined path.parts).takeWhile (· == '/')
        = List.replicate n '/' := by
      rw [List.takeWhile_append_of_pos (by simp), takeWhile_joined h, List.append_nil]
    have hchars : (path.parts.map String.toList).map String.ofList = path.parts := by
      simp
    rw [ofString, toList_text hpoint, hanchor]
    simp only [hfront, filter_splitOn_slashes, filter_splitOn_joined h, List.length_replicate, hn,
      hchars]

/-! ### Slashes in a spelling -/

/-- Joined components have a slash between them if there are two. -/
theorem slash_mem_joined_iff {parts : List String} (h : ∀ part ∈ parts, IsComponent part) :
    '/' ∈ joined parts ↔ 2 ≤ parts.length := by
  match parts with
  | [] => exact iff_of_false List.not_mem_nil (by simp)
  | [part] =>
      rw [joined_singleton]
      exact iff_of_false (h part List.mem_cons_self).slash (by simp)
  | first :: second :: rest =>
      rw [joined_cons_cons]
      exact iff_of_true (by simp) (by simp)

/-- A spelling without a slash in it is that of a name, or of the working directory. -/
theorem slash_mem_text_iff {path : Path} (h : path.IsNormal) :
    '/' ∈ path.text.toList ↔ path.isAbsolute = true ∨ 2 ≤ path.parts.length := by
  by_cases hpoint : path.anchor = .relative ∧ path.parts = []
  · obtain ⟨anchor, parts⟩ := path
    obtain ⟨rfl, rfl⟩ := hpoint
    decide
  · rw [toList_text hpoint, List.mem_append, slash_mem_joined_iff h]
    refine or_congr_left ?_
    rw [isAbsolute]
    cases path.anchor <;> decide

end HeaderBind.Path
