import HeaderBind.Diff.Script

/-!
# `HeaderBind.Proofs.Diff.Run`: the longest run of two lists of lines

A script is cut at the longest run that two lists have in common, the earliest one among the
longest. The search for it goes through the lines of the old list, and keeps for each line of the
new one the length of the run that ends at both. `runLength` says what that length is, and
`nextLengths_row` that the search computes it, one line after another. Frequent lines end a run.

What the search keeps as the best run so far is `Longest` among the pairs of ends that it has seen:
none of them has a longer run, and none in front of it one that is as long. A pair of ends is one
step (`Longest.step`), a line of the old list is a run over such steps (`longest_betterRun`), and
the whole search is a run over lines (`longest_searchRun`).

Two lists that are equal have one run in common that starts at the front of both: `runStart_self`.
-/

set_option autoImplicit false

namespace HeaderBind.Diff

/-! ### Common lines in front -/

theorem commonLength_self (lines : List String) : commonLength lines lines = lines.length := by
  induction lines with
  | nil => rfl
  | cons line lines ih => rw [commonLength, if_pos rfl, ih, List.length_cons]

theorem commonLength_comm (lines other : List String) :
    commonLength lines other = commonLength other lines := by
  induction lines generalizing other with
  | nil => cases other <;> rfl
  | cons line lines ih =>
      cases other with
      | nil => rfl
      | cons first rest =>
          simp only [commonLength, ih rest, eq_comm (a := line)]

theorem commonLength_le (lines other : List String) : commonLength lines other ≤ lines.length := by
  induction lines generalizing other with
  | nil => cases other <;> exact Nat.le_refl 0
  | cons line lines ih =>
      cases other with
      | nil => exact Nat.zero_le _
      | cons first rest =>
          have hrest := ih rest
          rw [commonLength, List.length_cons]
          split <;> omega

/-- As many lines are common as are said to be. -/
theorem take_commonLength (lines other : List String) :
    lines.take (commonLength lines other) = other.take (commonLength lines other) := by
  induction lines generalizing other with
  | nil => cases other <;> rfl
  | cons line lines ih =>
      cases other with
      | nil => rfl
      | cons first rest =>
          rw [commonLength]
          split
          · rename_i hsame
            rw [List.take_succ_cons, List.take_succ_cons, ih rest, hsame]
          · rfl

/-! ### Runs by their ends -/

variable {frequent old new : List String}

/-- The lines at the end of a list up to a frequent one, the last line first. -/
def tailRun (frequent lines : List String) : List String :=
  lines.reverse.takeWhile fun line => !frequent.contains line

/-- The length of the longest run without frequent lines that ends where both lists end. -/
def runLength (frequent front front' : List String) : Nat :=
  commonLength (tailRun frequent front) (tailRun frequent front')

theorem tailRun_concat (frequent front : List String) (x : String) :
    tailRun frequent (front ++ [x])
      = if frequent.contains x then [] else x :: tailRun frequent front := by
  rw [tailRun, List.reverse_append, List.reverse_singleton, List.singleton_append,
    List.takeWhile_cons]
  cases frequent.contains x <;> rfl

/-- Two lines more end a run of at least one line if they are equal and not frequent. -/
theorem runLength_concat (frequent front front' : List String) (x y : String) :
    runLength frequent (front ++ [x]) (front' ++ [y])
      = if frequent.contains x = false ∧ x = y then runLength frequent front front' + 1 else 0 := by
  rw [runLength, tailRun_concat, tailRun_concat]
  by_cases hx : frequent.contains x = true
  · have hno : ¬ (frequent.contains x = false ∧ x = y) := by
      rw [hx]
      exact fun h => nomatch h.1
    rw [if_pos hx, if_neg hno]
    cases (if frequent.contains y then [] else y :: tailRun frequent front') <;> rfl
  · rw [if_neg hx]
    by_cases hsame : x = y
    · subst hsame
      have hyes : frequent.contains x = false ∧ x = x := ⟨by simpa using hx, rfl⟩
      rw [if_neg hx, commonLength, if_pos rfl, if_pos hyes, runLength]
    · have hno : ¬ (frequent.contains x = false ∧ x = y) := fun h => hsame h.2
      rw [if_neg hno]
      split
      · rfl
      · rw [commonLength, if_neg hsame]

theorem runLength_nil_left (frequent front' : List String) : runLength frequent [] front' = 0 := by
  unfold runLength tailRun
  cases front'.reverse.takeWhile _ <;> rfl

theorem runLength_nil_right (frequent front : List String) : runLength frequent front [] = 0 := by
  rw [runLength, commonLength_comm]
  exact runLength_nil_left frequent front

/-- The lengths of the runs that end behind `front` and at each line of `rest`, with `before` in
front of that. -/
def row (frequent front : List String) : (before rest : List String) → List Nat
  | _, [] => []
  | before, y :: rest =>
    runLength frequent front (before ++ [y]) :: row frequent front (before ++ [y]) rest

/-- What is behind the end of a row counts as no run. -/
theorem nextLengths_congr {x : String} {diagonal : Nat} {rest : List String}
    {lengths others : List Nat} (h : ∀ n, lengths.getD n 0 = others.getD n 0) :
    nextLengths x diagonal rest lengths = nextLengths x diagonal rest others := by
  induction rest generalizing diagonal lengths others with
  | nil => rfl
  | cons y rest ih =>
      have hhead : lengths.headD 0 = others.headD 0 := by
        have hzero := h 0
        cases lengths <;> cases others <;> exact hzero
      have htail : ∀ n, lengths.tail.getD n 0 = others.tail.getD n 0 := by
        intro n
        have hnext := h (n + 1)
        cases lengths <;> cases others <;> exact hnext
      rw [nextLengths, nextLengths, hhead, ih htail]

/-- One line more of the old list: the row of lengths follows from the one before. -/
theorem nextLengths_row {x : String} (hx : frequent.contains x = false)
    (front before rest : List String) :
    nextLengths x (runLength frequent front before) rest (row frequent front before rest)
      = row frequent (front ++ [x]) before rest := by
  induction rest generalizing before with
  | nil => rfl
  | cons y rest ih =>
      rw [row, row, nextLengths, List.headD_cons, List.tail_cons, ih, runLength_concat]
      simp only [hx, true_and]

/-- In front of the first line, and behind a frequent one, no run has started. -/
theorem getD_row_eq_zero {front : List String}
    (h : ∀ before y, runLength frequent front (before ++ [y]) = 0) (before rest : List String)
    (n : Nat) : (row frequent front before rest).getD n 0 = 0 := by
  induction rest generalizing before n with
  | nil => rfl
  | cons y rest ih =>
      cases n with
      | zero => exact h before y
      | succ n => exact ih (before ++ [y]) n

/-! ### The best run -/

/-- The length of the run that ends behind the first `i` lines of the old list and the first `j`
lines of the new one. -/
def lengthAt (frequent old new : List String) (i j : Nat) : Nat :=
  runLength frequent (old.take i) (new.take j)

/-- A run that is best among the pairs of ends that were seen: none has a longer run, and none in
front of it one that is as long. Without any run the best one is empty. -/
structure Longest (frequent old new : List String) (seen : Nat → Nat → Prop) (best : Run) :
    Prop where
  length_le : ∀ i j, seen i j → lengthAt frequent old new i j ≤ best.length
  first : best = ⟨0, 0, 0⟩ ∨ seen best.oldEnd best.newEnd ∧ 0 < best.length ∧
    lengthAt frequent old new best.oldEnd best.newEnd = best.length ∧
    ∀ i j, seen i j → i < best.oldEnd ∨ i = best.oldEnd ∧ j < best.newEnd →
      lengthAt frequent old new i j < best.length

/-- The pairs of ends that were seen when all lines up to the `i`-th and, at the next one, the first
`j` lines of the new list were looked at. -/
def Seen (newCount rows columns : Nat) (i j : Nat) : Prop :=
  1 ≤ i ∧ 1 ≤ j ∧ j ≤ newCount ∧ (i ≤ rows ∨ i = rows + 1 ∧ j ≤ columns)

/-- One more pair of ends. It becomes the best one if its run is longer. -/
theorem Longest.step {rows columns : Nat} {best : Run} (hcolumn : columns < new.length)
    (h : Longest frequent old new (Seen new.length rows columns) best) :
    Longest frequent old new (Seen new.length rows (columns + 1))
      (if best.length < lengthAt frequent old new (rows + 1) (columns + 1)
        then ⟨rows + 1, columns + 1, lengthAt frequent old new (rows + 1) (columns + 1)⟩
        else best) := by
  -- What is seen now was seen before, or is the pair at hand.
  have hseen : ∀ i j, Seen new.length rows (columns + 1) i j →
      Seen new.length rows columns i j ∨ i = rows + 1 ∧ j = columns + 1 := by
    intro i j hij
    simp only [Seen] at hij ⊢
    omega
  split
  · rename_i hlonger
    have hpositive := Nat.lt_of_le_of_lt (Nat.zero_le best.length) hlonger
    refine ⟨fun i j hij => ?_, .inr ⟨?_, hpositive, rfl, fun i j hij hbefore => ?_⟩⟩
    · rcases hseen i j hij with hold | ⟨rfl, rfl⟩
      · exact Nat.le_trans (h.length_le i j hold) (Nat.le_of_lt hlonger)
      · exact Nat.le_refl _
    · exact ⟨Nat.le_add_left 1 rows, Nat.le_add_left 1 columns, hcolumn, .inr ⟨rfl, Nat.le_refl _⟩⟩
    · rcases hseen i j hij with hold | ⟨rfl, rfl⟩
      · exact Nat.lt_of_le_of_lt (h.length_le i j hold) hlonger
      · dsimp only at hbefore
        omega
  · rename_i hshorter
    refine ⟨fun i j hij => ?_, h.first.imp_right ?_⟩
    · rcases hseen i j hij with hold | ⟨rfl, rfl⟩
      · exact h.length_le i j hold
      · exact Nat.le_of_not_lt hshorter
    · rintro ⟨hbest, hpositive, hlength, hfirst⟩
      refine ⟨?_, hpositive, hlength, fun i j hij hbefore => ?_⟩
      · simp only [Seen] at hbest ⊢
        omega
      · rcases hseen i j hij with hold | ⟨rfl, rfl⟩
        · exact hfirst i j hold hbefore
        · -- The pair at hand comes last.
          simp only [Seen] at hbest
          omega

/-- A whole row: the pairs of one line of the old list with each line of the new one. -/
theorem longest_betterRun {rows : Nat} {best : Run} (before : List String) {rest : List String}
    (hnew : new = before ++ rest)
    (h : Longest frequent old new (Seen new.length rows before.length) best) :
    Longest frequent old new (Seen new.length rows new.length)
      (betterRun (rows + 1) (before.length + 1) best
        (row frequent (old.take (rows + 1)) before rest)) := by
  induction rest generalizing before best with
  | nil =>
      rw [List.append_nil] at hnew
      subst hnew
      exact h
  | cons y rest ih =>
      have hcolumn : before.length < new.length := by
        rw [hnew, List.length_append, List.length_cons]
        omega
      -- The next length of the row is the one at the next pair of ends.
      have htake : new.take (before.length + 1) = before ++ [y] := by
        rw [hnew, ← List.singleton_append, ← List.append_assoc]
        exact List.take_left' (by simp)
      have hstep := h.step hcolumn
      rw [lengthAt, htake] at hstep
      rw [row, betterRun]
      -- The induction counts the columns by the lines in front.
      have hlength : (before ++ [y]).length = before.length + 1 := by simp
      rw [← hlength] at hstep ⊢
      exact ih (before ++ [y]) (by simp [hnew]) hstep

/-- The next line starts with no new line seen. -/
theorem Longest.next {rows : Nat} {best : Run}
    (h : Longest frequent old new (Seen new.length rows new.length) best) :
    Longest frequent old new (Seen new.length (rows + 1) 0) best := by
  have hseen : ∀ i j, Seen new.length (rows + 1) 0 i j ↔ Seen new.length rows new.length i j := by
    intro i j
    simp only [Seen]
    omega
  simpa only [funext fun i => funext fun j => propext (hseen i j)] using h

/-- A frequent line ends no run, so nothing is missed when it is passed over. -/
theorem Longest.skip {rows : Nat} {best : Run}
    (hzero : ∀ j, 1 ≤ j → j ≤ new.length → lengthAt frequent old new (rows + 1) j = 0)
    (h : Longest frequent old new (Seen new.length rows 0) best) :
    Longest frequent old new (Seen new.length rows new.length) best := by
  have hseen : ∀ i j, Seen new.length rows new.length i j →
      Seen new.length rows 0 i j ∨ i = rows + 1 ∧ 1 ≤ j ∧ j ≤ new.length := by
    intro i j hij
    simp only [Seen] at hij ⊢
    omega
  refine ⟨fun i j hij => ?_, h.first.imp_right ?_⟩
  · rcases hseen i j hij with hold | ⟨rfl, hlow, hhigh⟩
    · exact h.length_le i j hold
    · rw [hzero j hlow hhigh]
      exact Nat.zero_le _
  · rintro ⟨hbest, hpositive, hlength, hfirst⟩
    refine ⟨?_, hpositive, hlength, fun i j hij hbefore => ?_⟩
    · simp only [Seen] at hbest ⊢
      omega
    · rcases hseen i j hij with hold | ⟨rfl, hlow, hhigh⟩
      · exact hfirst i j hold hbefore
      · rw [hzero j hlow hhigh]
        exact hpositive

/-- The search over the lines of the old list behind `front`. -/
theorem longest_searchFrom (front : List String) {rest : List String} {lengths : List Nat}
    {best : Run}
    (hold : old = front ++ rest)
    (hlengths : ∀ n, lengths.getD n 0 = (row frequent front [] new).getD n 0)
    (h : Longest frequent old new (Seen new.length front.length 0) best) :
    Longest frequent old new (Seen new.length old.length 0)
      (searchRun frequent new (front.length + 1) lengths best rest) := by
  induction rest generalizing front lengths best with
  | nil =>
      rw [List.append_nil] at hold
      subst hold
      exact h
  | cons x rest ih =>
      have htake : old.take (front.length + 1) = front ++ [x] := by
        rw [hold, ← List.singleton_append, ← List.append_assoc]
        exact List.take_left' (by simp)
      have hlength : (front ++ [x]).length = front.length + 1 := by simp
      rw [searchRun]
      split
      · rename_i hfrequent
        -- No run ends at the line, so the next one starts from nothing.
        have hnone : ∀ before y, runLength frequent (front ++ [x]) (before ++ [y]) = 0 := by
          intro before y
          have hno : ¬ (frequent.contains x = false ∧ x = y) := by
            rw [hfrequent]
            exact fun h => nomatch h.1
          rw [runLength_concat, if_neg hno]
        have hrow : ∀ n, ([] : List Nat).getD n 0 = (row frequent (front ++ [x]) [] new).getD n 0 :=
          fun n => (getD_row_eq_zero hnone [] new n).symm
        have hzero : ∀ j, 1 ≤ j → j ≤ new.length →
            lengthAt frequent old new (front.length + 1) j = 0 := by
          intro j hlow hhigh
          obtain ⟨k, rfl⟩ : ∃ k, j = k + 1 := ⟨j - 1, by omega⟩
          rw [lengthAt, htake, List.take_add_one, List.getElem?_eq_getElem (by omega)]
          exact hnone _ _
        rw [← hlength]
        refine ih (front ++ [x]) (by simp [hold]) hrow ?_
        rw [hlength]
        exact (h.skip hzero).next
      · rename_i hfrequent
        have hx : frequent.contains x = false := by simpa using hfrequent
        -- In front of the first column no run ends, which is where the diagonal comes from.
        have hrow : nextLengths x 0 new lengths = row frequent (front ++ [x]) [] new := by
          rw [nextLengths_congr hlengths, ← runLength_nil_right frequent front,
            nextLengths_row hx]
        have hbetter := longest_betterRun [] rfl h
        rw [htake] at hbetter
        dsimp only
        rw [hrow]
        rw [← hlength] at hbetter ⊢
        refine ih (front ++ [x]) (by simp [hold]) (fun n => rfl) ?_
        rw [hlength] at hbetter ⊢
        exact hbetter.next

/-- The search finds the longest run, and among the longest ones the first. -/
theorem longest_searchRun (frequent old new : List String) :
    Longest frequent old new (Seen new.length old.length 0)
      (searchRun frequent new 1 [] ⟨0, 0, 0⟩ old) := by
  have hnone : ∀ before y, runLength frequent [] (before ++ [y]) = 0 :=
    fun before y => runLength_nil_left frequent _
  refine longest_searchFrom [] rfl
    (fun n => (getD_row_eq_zero hnone [] new n).symm) ⟨fun i j hij => ?_, .inl rfl⟩
  simp only [Seen, List.length_nil] at hij
  omega

/-! ### Equal lists -/

theorem lengthAt_comm (frequent lines : List String) (i j : Nat) :
    lengthAt frequent lines lines i j = lengthAt frequent lines lines j i :=
  commonLength_comm _ _

/-- A run is longest at the same place of both lists. -/
theorem lengthAt_le_diagonal (frequent lines : List String) (i j : Nat) :
    lengthAt frequent lines lines i j ≤ lengthAt frequent lines lines i i := by
  rw [lengthAt, lengthAt, runLength, runLength, commonLength_self]
  exact commonLength_le _ _

/-- The first of the longest runs that a list has in common with itself ends at the same place. A
run with different ends is there the other way round as well, or one that is as long at one of both
ends, and that comes first. -/
theorem newEnd_searchRun_self (frequent lines : List String) :
    (searchRun frequent lines 1 [] ⟨0, 0, 0⟩ lines).newEnd
        = (searchRun frequent lines 1 [] ⟨0, 0, 0⟩ lines).oldEnd ∧
      (searchRun frequent lines 1 [] ⟨0, 0, 0⟩ lines).oldEnd ≤ lines.length := by
  obtain ⟨-, hfirst⟩ := longest_searchRun frequent lines lines
  generalize searchRun frequent lines 1 [] ⟨0, 0, 0⟩ lines = best at hfirst ⊢
  rcases hfirst with rfl | ⟨hseen, -, hlength, hfirst⟩
  · exact ⟨rfl, Nat.zero_le _⟩
  · obtain ⟨i, j, length⟩ := best
    dsimp only at hseen hlength hfirst ⊢
    have hbounds : 1 ≤ i ∧ 1 ≤ j ∧ i ≤ lines.length ∧ j ≤ lines.length := by
      simp only [Seen] at hseen
      omega
    refine ⟨?_, hbounds.2.2.1⟩
    rcases Nat.lt_trichotomy j i with hlt | heq | hgt
    · -- The mirrored pair of ends comes first, with a run that is as long.
      have hother := hfirst j i (by simp only [Seen]; omega) (by omega)
      rw [lengthAt_comm, hlength] at hother
      omega
    · exact heq
    · -- So does the pair on the diagonal.
      have hdiagonal := hfirst i i (by simp only [Seen]; omega) (by omega)
      have hle := lengthAt_le_diagonal frequent lines i j
      omega

/-- Equal lists are one run from the front on, whatever lines in them are frequent. -/
theorem runStart_self (frequent lines : List String) : runStart frequent lines lines = (0, 0) := by
  obtain ⟨hends, hbound⟩ := newEnd_searchRun_self frequent lines
  unfold runStart
  generalize searchRun frequent lines 1 [] ⟨0, 0, 0⟩ lines = best at hends hbound ⊢
  dsimp only
  rw [hends, commonLength_self, List.length_reverse, List.length_take]
  have hback : best.oldEnd - best.length - min (best.oldEnd - best.length) lines.length = 0 := by
    omega
  rw [hback]

end HeaderBind.Diff
