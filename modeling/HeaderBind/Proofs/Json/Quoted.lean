import HeaderBind.Json.Parser
import HeaderBind.Json.Printer

/-!
# `HeaderBind.Proofs.Json.Quoted`: texts between double quotes

A text is written character by character, and a character as itself, as an escape of one letter, or
by its UTF-16 units. The reader first reads code points and then joins pairs of units, so there are
two steps to undo, and `writtenPoints` stands between them: the code points that a character is
written by.

* `scanPoints_writeChar`: what is written for a character is read as its written points, whatever
  follows. There has to be something, and there is, since the closing quote is still to come.
* `joinPairs?_flatMap_writtenPoints`: the written points of characters join to the characters. A
  character is no half of a pair, so no pair can form across two of them.

Together a written text is read back, up to its closing quote (`scanText_writeText`).
-/

set_option autoImplicit false

namespace HeaderBind.Json

open HeaderBind.Text

/-! ### Units -/

theorem hexValue?_hexDigit : ∀ n < 16, hexValue? (hexDigit n) = some n := by
  decide

/-- Four digits name a unit, and they are read as the unit. -/
theorem exists_hexDigits_four {unit : Nat} (h : unit < 0x10000) :
    ∃ a b c d, hexDigits 4 unit = [a, b, c, d] ∧ unit? a b c d = some unit := by
  refine ⟨_, _, _, _, rfl, ?_⟩
  have hdigit : ∀ n, hexValue? (hexDigit (n % 16)) = some (n % 16) := fun n =>
    hexValue?_hexDigit _ (Nat.mod_lt n (by decide))
  simp only [unit?, hdigit, Option.bind_eq_bind, Option.bind_some, Option.some.injEq]
  omega

/-- The code points that a character is written by: its own, or the units of a pair. -/
def writtenPoints (c : Char) : List Nat :=
  if c.toNat < 0x10000 then [c.toNat]
  else [0xd800 + (c.toNat - 0x10000) / 0x400, 0xdc00 + (c.toNat - 0x10000) % 0x400]

theorem writtenPoints_of_lt {c : Char} (h : c.toNat < 0x10000) : writtenPoints c = [c.toNat] :=
  if_pos h

/-! ### The forms of a written character -/

/-- A character is a code point outside the halves of pairs. -/
theorem toNat_range (c : Char) : c.toNat < 0xd800 ∨ 0xdfff < c.toNat ∧ c.toNat < 0x110000 :=
  c.valid

theorem toNat_lt (c : Char) : c.toNat < 0x110000 := by
  have := toNat_range c
  omega

/-- How a character is written inside a text. -/
inductive WrittenAs (c : Char) : List Char → Prop
  /-- By an escape of one letter. -/
  | letter {letter : Char} (low : c.toNat < 0x10000) (names : escaped? letter = some c) :
      WrittenAs c ['\\', letter]
  /-- As itself. -/
  | plain (unquoted : c ≠ '"') (unescaped : c ≠ '\\')
      (shown : 0x20 ≤ c.toNat ∧ c.toNat ≤ 0x7e) : WrittenAs c [c]
  /-- By the unit that it is. -/
  | unit (low : c.toNat < 0x10000) : WrittenAs c (unitEscape c.toNat)
  /-- By two units. -/
  | pair (high : 0x10000 ≤ c.toNat) :
      WrittenAs c (unitEscape (0xd800 + (c.toNat - 0x10000) / 0x400) ++
        unitEscape (0xdc00 + (c.toNat - 0x10000) % 0x400))

theorem writtenAs_writeChar (c : Char) : WrittenAs c (writeChar c) := by
  unfold writeChar
  split
  · rename_i hescaped
    simp only [Bool.or_eq_true, decide_eq_true_eq] at hescaped
    rcases hescaped with rfl | rfl <;> exact .letter (by decide) rfl
  · rename_i hplain
    simp only [Bool.or_eq_true, decide_eq_true_eq, not_or] at hplain
    -- The characters with a letter of their own, in the order of the writer.
    iterate 5
      split
      · rename_i hletter
        subst hletter
        exact .letter (by decide) rfl
    split
    · rename_i hshown
      simp only [Bool.and_eq_true, decide_eq_true_eq] at hshown
      exact .plain hplain.1 hplain.2 hshown
    · split
      · rename_i hlow
        exact .unit hlow
      · rename_i hhigh
        exact .pair (Nat.le_of_not_lt hhigh)

/-! ### Reading code points -/

section Points

variable {opening rest after : List Char} {points : List Nat}
  (h : scanPoints opening rest = .ok (points, after))
include h

theorem scanPoints_unitEscape {unit : Nat} (hunit : unit < 0x10000) :
    scanPoints opening (unitEscape unit ++ rest) = .ok (unit :: points, after) := by
  obtain ⟨a, b, c, d, hdigits, hread⟩ := exists_hexDigits_four hunit
  -- Nothing is read where nothing is left, so something follows the digits.
  have hmore : rest.isEmpty = false := by
    cases rest with
    | nil => cases h
    | cons c rest => rfl
  show scanPoints opening ('\\' :: 'u' :: (hexDigits 4 unit ++ rest)) = _
  rw [hdigits]
  show scanPoints opening ('\\' :: 'u' :: a :: b :: c :: d :: rest) = _
  rw [scanPoints, hread, h, hmore]
  rfl

theorem scanPoints_letter {letter c : Char} (hletter : escaped? letter = some c) :
    scanPoints opening ('\\' :: letter :: rest) = .ok (c.toNat :: points, after) := by
  have hunit : letter ≠ 'u' := by
    rintro rfl
    cases hletter
  rw [scanPoints, hletter, h]
  · rfl
  · exact hunit

theorem scanPoints_plain {c : Char} (hquote : c ≠ '"') (hbackslash : c ≠ '\\')
    (hshown : 0x20 ≤ c.toNat) :
    scanPoints opening (c :: rest) = .ok (c.toNat :: points, after) := by
  rw [scanPoints, h, if_neg (Nat.not_lt_of_le hshown)]
  · rfl
  · exact hquote
  · exact hbackslash

/-- What is written for a character is read as its written points. -/
theorem scanPoints_writeChar (c : Char) :
    scanPoints opening (writeChar c ++ rest) = .ok (writtenPoints c ++ points, after) := by
  have hform := writtenAs_writeChar c
  generalize writeChar c = written at hform ⊢
  cases hform with
  | letter low names =>
      rw [writtenPoints_of_lt low]
      exact scanPoints_letter h names
  | plain unquoted unescaped shown =>
      rw [writtenPoints_of_lt (by omega)]
      exact scanPoints_plain h unquoted unescaped shown.1
  | unit low =>
      rw [writtenPoints_of_lt low]
      exact scanPoints_unitEscape h low
  | pair high =>
      have hpoint : c.toNat < 0x110000 := toNat_lt c
      rw [writtenPoints, if_neg (by omega), List.append_assoc]
      exact scanPoints_unitEscape (scanPoints_unitEscape h (by omega)) (by omega)

end Points

theorem scanPoints_flatMap_writeChar (opening : List Char) (cs after : List Char) :
    scanPoints opening (cs.flatMap writeChar ++ '"' :: after)
      = .ok (cs.flatMap writtenPoints, after) := by
  induction cs with
  | nil => rfl
  | cons c cs ih =>
      rw [List.flatMap_cons, List.append_assoc, List.flatMap_cons]
      exact scanPoints_writeChar ih c

/-! ### Joining pairs -/

/-- A character is no half of a pair. -/
theorem isUnit_toNat (c : Char) :
    isHighUnit c.toNat = false ∧ isLowUnit c.toNat = false := by
  have hrange := toNat_range c
  constructor
  · rw [isHighUnit, Bool.and_eq_false_iff, decide_eq_false_iff_not, decide_eq_false_iff_not]
    omega
  · rw [isLowUnit, Bool.and_eq_false_iff, decide_eq_false_iff_not, decide_eq_false_iff_not]
    omega

theorem wholeChar?_toNat (c : Char) : wholeChar? c.toNat = some c := by
  obtain ⟨hhigh, hlow⟩ := isUnit_toNat c
  rw [wholeChar?, hhigh, hlow]
  exact congrArg some (Char.ofNat_toNat c)

theorem joinPairs?_toNat_cons (c : Char) (points : List Nat) :
    joinPairs? (c.toNat :: points) = (joinPairs? points).map (c :: ·) := by
  cases points with
  | nil => exact congrArg (Option.map _) (wholeChar?_toNat c)
  | cons second points =>
      rw [joinPairs?, (isUnit_toNat c).1, wholeChar?_toNat]
      rfl

theorem joinPairs?_writtenPoints_append (c : Char) (points : List Nat) :
    joinPairs? (writtenPoints c ++ points) = (joinPairs? points).map (c :: ·) := by
  rw [writtenPoints]
  split
  · exact joinPairs?_toNat_cons c points
  · rename_i hhigh
    have hpoint : c.toNat < 0x110000 := toNat_lt c
    have hfirst : isHighUnit (0xd800 + (c.toNat - 0x10000) / 0x400) = true := by
      rw [isHighUnit, Bool.and_eq_true, decide_eq_true_eq, decide_eq_true_eq]
      omega
    have hsecond : isLowUnit (0xdc00 + (c.toNat - 0x10000) % 0x400) = true := by
      rw [isLowUnit, Bool.and_eq_true, decide_eq_true_eq, decide_eq_true_eq]
      omega
    have hchar : pairedChar (0xd800 + (c.toNat - 0x10000) / 0x400)
        (0xdc00 + (c.toNat - 0x10000) % 0x400) = c := by
      rw [pairedChar]
      have hsum : 0x10000 + (0xd800 + (c.toNat - 0x10000) / 0x400 - 0xd800) * 0x400
          + (0xdc00 + (c.toNat - 0x10000) % 0x400 - 0xdc00) = c.toNat := by omega
      rw [hsum, Char.ofNat_toNat]
    rw [List.cons_append, List.singleton_append, joinPairs?, hfirst, hsecond, hchar]
    rfl

theorem joinPairs?_flatMap_writtenPoints (cs : List Char) :
    joinPairs? (cs.flatMap writtenPoints) = some cs := by
  induction cs with
  | nil => rfl
  | cons c cs ih =>
      rw [List.flatMap_cons, joinPairs?_writtenPoints_append, ih]
      rfl

/-- A written text is read back, from behind its opening quote to its closing one. -/
theorem scanText_writeText (opening : List Char) (s : String) (after : List Char) :
    scanText opening (s.toList.flatMap writeChar ++ '"' :: after) = .ok (s, after) := by
  simp only [scanText, scanPoints_flatMap_writeChar, joinPairs?_flatMap_writtenPoints,
    String.ofList_toList]

end HeaderBind.Json
