import HeaderBind.FileTree.Write
import HeaderBind.Proofs.Effect
import HeaderBind.Proofs.FileTree.Basic

/-!
# `HeaderBind.Proofs.FileTree.ReadBack`: a file that was written is there to be read

Other modules follow resolved paths, which spell the places that they lead to. Here a path may be
any: it may start at the working directory and lead upwards on its way, and then its components say
little about the place that it comes to.

So a walk is cut into the walk to the directory in front and one last step (`walk_append`). What was
put at a place where no directory was is on no walk but at its end (`walk_put`), so the walk to the
directory in front is the same after the file was written, and the last step comes to the file
(`read_of_overwrite`). A file can only be put at a wrong place if there is no directory in front of
a directory, which no tree has. The directories that are made first keep a tree a tree
(`Closed.of_makeDirectories`).
-/

set_option autoImplicit false

namespace HeaderBind.FileTree

open Effect

variable {tree after : FileTree} {workingDirectory : Location} {path : Path} {place : Location}

/-! ### Walks -/

/-- Components are followed one after the other. -/
theorem walk_append (front back : List String) :
    tree.walk place (front ++ back)
      = match tree.walk place front with
        | .ok (middle, _) => tree.walk middle back
        | .error obstacle => .error obstacle := by
  induction front generalizing place with
  | nil =>
      rw [List.nil_append]
      cases back <;> cases hnode : tree.node? place <;> simp [walk, hnode]
  | cons part front ih =>
      rw [List.cons_append, walk, walk]
      cases tree.node? place with
      | none => rfl
      | some node =>
          cases node with
          | file content => rfl
          | directory =>
              by_cases hlong : nameLimit < part.utf8ByteSize
              · simp only [if_pos hlong]
              · simp only [if_neg hlong, ih]

/-- What a walk comes to is what lies at the place that it comes to. -/
theorem node?_of_walk {parts : List String} {reached : Location} {node : Node}
    (h : tree.walk place parts = .ok (reached, node)) : tree.node? reached = some node := by
  induction parts generalizing place with
  | nil =>
      rw [walk] at h
      split at h
      · rename_i found hfound
        cases h
        exact hfound
      · cases h
  | cons part parts ih =>
      rw [walk] at h
      split at h
      · split at h
        · cases h
        · exact ih h
      · cases h
      · cases h

/-- A node that takes the place of no directory is met by a walk at its end or not at all. -/
theorem walk_put {parts : List String} {spot reached : Location} {found : Node} (node : Node)
    (hspot : tree.node? spot ≠ some .directory)
    (h : tree.walk place parts = .ok (reached, found)) :
    (tree.put spot node).walk place parts
      = .ok (reached, if reached = spot then node else found) := by
  have hroot : spot ≠ [] := by
    rintro rfl
    exact hspot rfl
  induction parts generalizing place with
  | nil =>
      rw [walk] at h ⊢
      split at h
      · rename_i here hhere
        cases h
        rw [node?_put hroot, hhere]
        by_cases hsame : reached = spot
        · simp only [if_pos hsame]
        · simp only [if_neg hsame]
      · cases h
  | cons part parts ih =>
      rw [walk] at h ⊢
      split at h
      · rename_i hdirectory
        have hplace : place ≠ spot := fun hsame => hspot (hsame ▸ hdirectory)
        rw [node?_put hroot, if_neg hplace, hdirectory]
        split at h
        · cases h
        · rename_i hshort
          simp only [if_neg hshort]
          exact ih h
      · cases h
      · cases h

/-- A path that is refused by itself is refused in every tree, and not for what is missing there.
Every other path is followed. -/
theorem locate_uniform (workingDirectory : Location) (path : Path) :
    (∃ obstacle, obstacle ≠ .missing ∧
        ∀ tree : FileTree, tree.locate workingDirectory path = .error obstacle) ∨
      ∀ tree : FileTree,
        tree.locate workingDirectory path
          = tree.walk (path.startOf workingDirectory) path.parts := by
  cases husable : path.isUsable with
  | false =>
      exact .inl ⟨.unusable .zeroCharacter, by decide, fun tree => by rw [locate, husable]; rfl⟩
  | true =>
      by_cases hlong : pathLimit < path.text.utf8ByteSize
      · refine .inl ⟨.tooLong, by decide, fun tree => ?_⟩
        rw [locate, husable, if_neg (by decide), if_pos hlong]
      · refine .inr fun tree => ?_
        rw [locate, husable, if_neg (by decide), if_neg hlong]

theorem walk_of_locate_ok {found : Location × Node}
    (h : tree.locate workingDirectory path = .ok found) :
    tree.walk (path.startOf workingDirectory) path.parts = .ok found := by
  rcases locate_uniform workingDirectory path with ⟨obstacle, -, hrefused⟩ | hwalk
  · rw [hrefused] at h
    cases h
  · rwa [hwalk] at h

/-! ### Directories that are made -/

/-- A directory is made in a directory, so a tree stays a tree. -/
theorem Closed.of_attempt (h : tree.Closed)
    (hdone : tree.attempt workingDirectory path = .done after) : after.Closed := by
  unfold attempt at hdone
  split at hdone
  · cases hdone
    exact h
  · cases hdone
  · split at hdone
    · rename_i place last hparent hlast
      cases hdone
      have hdirectory : tree.node? place = some .directory :=
        node?_of_walk (walk_of_locate_ok hparent)
      exact h.put (by simp) (by rwa [List.dropLast_concat]) fun _ => rfl
    · cases hdone
  · cases hdone

theorem Closed.of_makeChain (h : tree.Closed) {anchor : Anchor} (reversed : List String)
    {room : Nat} (hmade : makeChain workingDirectory anchor reversed room tree = .ok () after) :
    after.Closed := by
  induction reversed generalizing room after with
  | nil =>
      cases hmade
      exact h
  | cons last before ih =>
      rw [makeChain, get_bind_apply] at hmade
      cases hfirst : tree.attempt workingDirectory ⟨anchor, (last :: before).reverse⟩ with
      | done made =>
          rw [hfirst] at hmade
          cases hmade
          exact h.of_attempt hfirst
      | refused fault =>
          rw [hfirst] at hmade
          cases hmade
      | tooDeep =>
          simp only [hfirst] at hmade
          split at hmade
          · cases hmade
          -- The directories in front were made before the second attempt.
          obtain ⟨_, middle, hfront, hmade⟩ := of_bind_ok hmade
          rw [get_bind_apply] at hmade
          cases hsecond : middle.attempt workingDirectory ⟨anchor, (last :: before).reverse⟩ with
          | done made =>
              rw [hsecond] at hmade
              cases hmade
              exact (ih hfront).of_attempt hsecond
          | refused fault =>
              rw [hsecond] at hmade
              cases hmade
          | tooDeep =>
              rw [hsecond] at hmade
              cases hmade

theorem Closed.of_makeDirectories [Interpreter] (h : tree.Closed)
    (hmade : makeDirectories workingDirectory path tree = .ok () after) : after.Closed :=
  h.of_makeChain _ hmade

/-! ### The file -/

/-- A component that is missing in a directory is a name: what leads upwards from a directory leads
to another one. -/
theorem Closed.last_of_missing (h : tree.Closed) {last : String}
    (hdirectory : tree.node? place = some .directory)
    (hmissing : tree.walk place [last] = .error .missing) :
    ¬ nameLimit < last.utf8ByteSize ∧ last ≠ ".." ∧ tree.node? (place ++ [last]) = none := by
  simp only [walk, hdirectory] at hmissing
  split at hmissing
  · cases hmissing
  · rename_i hshort
    split at hmissing
    · cases hmissing
    · rename_i hnone
      by_cases hup : last = ".."
      · have hparent := h place (by rw [hdirectory]; exact Option.some_ne_none _)
        rw [hup, Path.step, if_pos rfl, hparent] at hnone
        cases hnone
      · rw [Path.step_of_ne hup] at hnone
        exact ⟨hshort, hup, hnone⟩

/-- What is put where the last component is missing is what the components lead to. -/
theorem Closed.walk_put_last (h : tree.Closed) {front : List String} {last : String}
    {reached : Location} (hfront : tree.walk place front = .ok (reached, .directory))
    (hmissing : tree.walk place (front ++ [last]) = .error .missing) (node : Node) :
    (tree.put (reached ++ [last]) node).walk place (front ++ [last])
      = .ok (reached ++ [last], node) := by
  have hdirectory := node?_of_walk hfront
  rw [walk_append, hfront] at hmissing
  obtain ⟨hshort, hup, hnone⟩ := h.last_of_missing hdirectory hmissing
  have hspot : tree.node? (reached ++ [last]) ≠ some .directory := by
    rw [hnone]
    exact nofun
  -- The directory in front is as it was, so only the last step is new.
  rw [walk_append, walk_put _ hspot hfront, if_neg (by simp)]
  simp only [walk]
  rw [node?_put (by simp), node?_put (by simp), if_neg (by simp), hdirectory,
    Path.step_of_ne hup]
  simp only [if_neg hshort, if_true]

/-- Where a file is written: in place of a file, or in a directory where it was missing. -/
inductive Spot (tree : FileTree) (workingDirectory : Location) (path : Path) : Location → Prop
  | replaced {place : Location} {held : ByteArray}
      (there : tree.locate workingDirectory path = .ok (place, .file held)) :
      Spot tree workingDirectory path place
  | added {place : Location} {last : String}
      (missing : tree.locate workingDirectory path = .error .missing)
      (front : tree.locate workingDirectory path.parent = .ok (place, .directory))
      (named : path.parts.getLast? = some last) :
      Spot tree workingDirectory path (place ++ [last])

theorem exists_spot_of_overwrite {content : ByteArray}
    (h : overwrite workingDirectory path content tree = .ok () after) :
    ∃ spot, Spot tree workingDirectory path spot ∧ after = tree.put spot (.file content) := by
  rw [overwrite, get_bind_apply] at h
  cases hlocate : tree.locate workingDirectory path with
  | ok found =>
      obtain ⟨place, node⟩ := found
      rw [hlocate] at h
      cases node with
      | file held =>
          cases h
          exact ⟨place, .replaced hlocate, rfl⟩
      | directory => cases h
  | error obstacle =>
      simp only [hlocate] at h
      cases obstacle with
      | missing =>
          cases hfront : tree.locate workingDirectory path.parent with
          | error obstacle =>
              rw [hfront] at h
              cases h
          | ok found =>
              obtain ⟨place, node⟩ := found
              cases hnamed : path.parts.getLast? with
              | none =>
                  rw [hfront, hnamed] at h
                  cases node <;> cases h
              | some last =>
                  rw [hfront, hnamed] at h
                  cases node with
                  | file held => cases h
                  | directory =>
                      cases h
                      exact ⟨place ++ [last], .added hlocate hfront hnamed, rfl⟩
      | unusable fault => cases h
      | blocked => cases h
      | tooLong => cases h

/-- The path leads to the spot, once a file is there. -/
theorem Spot.locate_put (hclosed : tree.Closed) {spot : Location}
    (h : Spot tree workingDirectory path spot) (content : ByteArray) :
    (tree.put spot (.file content)).locate workingDirectory path = .ok (spot, .file content) := by
  rcases locate_uniform workingDirectory path with ⟨obstacle, hobstacle, hrefused⟩ | hwalk
  · -- A path that is refused by itself has no spot.
    cases h with
    | replaced there =>
        rw [hrefused] at there
        cases there
    | added missing front named =>
        rw [hrefused] at missing
        cases missing
        exact absurd rfl hobstacle
  · rw [hwalk]
    cases h with
    | replaced there =>
        have hthere := walk_of_locate_ok there
        have hspot : tree.node? spot ≠ some .directory := by
          rw [node?_of_walk hthere]
          exact nofun
        rw [walk_put _ hspot hthere, if_pos rfl]
    | @added place last missing front named =>
        obtain ⟨before, hparts⟩ := List.getLast?_eq_some_iff.mp named
        have hfront := walk_of_locate_ok front
        rw [Path.parent, hparts, List.dropLast_concat] at hfront
        rw [hwalk, hparts] at missing
        rw [hparts]
        exact hclosed.walk_put_last hfront missing (.file content)

/-- What was written over a file is read from it. -/
theorem read_of_overwrite (hclosed : tree.Closed) {content : ByteArray}
    (h : overwrite workingDirectory path content tree = .ok () after) :
    after.read workingDirectory path = .ok content := by
  obtain ⟨spot, hspot, rfl⟩ := exists_spot_of_overwrite h
  rw [FileTree.read, hspot.locate_put hclosed content]

/-- What was written to a file, the directories in front of it made, is read from it. -/
theorem read_of_write [Interpreter] (hclosed : tree.Closed) {content : ByteArray}
    (h : write workingDirectory path content tree = .ok () after) :
    after.read workingDirectory path = .ok content := by
  obtain ⟨_, middle, hmade, hwritten⟩ := of_bind_ok h
  exact read_of_overwrite (hclosed.of_makeDirectories hmade) hwritten

end HeaderBind.FileTree
