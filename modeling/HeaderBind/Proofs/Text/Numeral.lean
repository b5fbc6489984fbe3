import HeaderBind.Proofs.Text.Ascii

/-!
# `HeaderBind.Proofs.Text.Numeral`: an integer is read as it was written

`read_toString` is the round trip: what `toString` writes, `Numeral.read` reads as the same
integer, if the integer is short enough to be written at all. The digits are those of
`Nat.toDigits`, so the library's own reader `Nat.ofDigitChars` stands between both sides: the
folding of digit values that `read` does is shown to be the same. `isWritable_of_read` goes the
other way: what was read, in digits of whatever script, is short enough to be written again.
-/

set_option autoImplicit false

namespace HeaderBind.Numeral

open HeaderBind.Text

/-- Whether a list of characters is a numeral without a sign. -/
def IsDigits (cs : List Char) : Prop :=
  cs ≠ [] ∧ ∀ c ∈ cs, c.isDigit = true

theorem isDigits_toDigits (n : Nat) : IsDigits (Nat.toDigits 10 n) :=
  ⟨Nat.toDigits_ne_nil, fun _ hc => Nat.isDigit_of_mem_toDigits (by decide) (by decide) hc⟩

/-- The digits of a number start with a digit. -/
theorem exists_toDigits_eq_cons (n : Nat) :
    ∃ first tail, Nat.toDigits 10 n = first :: tail ∧ first.isDigit = true := by
  obtain ⟨hne, hdigits⟩ := isDigits_toDigits n
  obtain ⟨first, tail, hcons⟩ := List.exists_cons_of_ne_nil hne
  exact ⟨first, tail, hcons, hdigits first (hcons ▸ List.mem_cons_self)⟩

theorem IsDigits.visible {cs : List Char} (h : IsDigits cs) : Visible cs :=
  fun c hc => isVisible_of_isDigit (h.2 c hc)

/-- The values of ASCII digits. -/
theorem filterMap_digitValue? {cs : List Char} (h : ∀ c ∈ cs, c.isDigit = true) :
    cs.filterMap digitValue? = cs.map fun c => c.toNat - '0'.toNat := by
  induction cs with
  | nil => rfl
  | cons c cs ih =>
      rw [List.filterMap_cons, digitValue?_of_isDigit (h c List.mem_cons_self),
        ih fun d hd => h d (List.mem_cons_of_mem c hd)]
      rfl

/-- The value of ASCII digits is the one that the library reads. -/
theorem ofDigits_map (cs : List Char) :
    ofDigits (cs.map fun c => c.toNat - '0'.toNat) = Nat.ofDigitChars 10 cs 0 := by
  rw [ofDigits, List.foldl_map, Nat.ofDigitChars_eq_foldl]

/-- In a run without underscores none stands wrong. -/
theorem underscoresFit_of_forall_ne {cs : List Char} (afterDigit : Bool)
    (h : ∀ c ∈ cs, c ≠ '_') (hend : afterDigit = true ∨ cs ≠ []) :
    underscoresFit afterDigit cs = true := by
  induction cs generalizing afterDigit with
  | nil => exact hend.resolve_right fun hne => hne rfl
  | cons c cs ih =>
      rw [underscoresFit, if_neg (h c List.mem_cons_self)]
      exact ih true (fun d hd => h d (List.mem_cons_of_mem c hd)) (Or.inl rfl)

/-- Digits in a row have no underscore that could stand wrong. -/
theorem underscoresFit_of_isDigit {cs : List Char} (afterDigit : Bool)
    (h : ∀ c ∈ cs, c.isDigit = true) (hend : afterDigit = true ∨ cs ≠ []) :
    underscoresFit afterDigit cs = true := by
  refine underscoresFit_of_forall_ne afterDigit (fun c hc => ?_) hend
  rintro rfl
  exact absurd (h '_' hc) (by decide)

/-- A text of a sign and digits is read as these say, if the digits are not too many. -/
theorem read_of_split {text : String} {negative : Bool} {digits : List Char}
    (hsplit : splitSign (trimBy isMargin text.toList) = (negative, digits))
    (hdigits : IsDigits digits) (hlength : digits.length ≤ digitLimit) :
    read text = .ok (if negative then -(Nat.ofDigitChars 10 digits 0 : Int)
      else Nat.ofDigitChars 10 digits 0) := by
  obtain ⟨hne, hdigit⟩ := hdigits
  have hchar : ∀ c ∈ digits, (isDecimalDigit c || c == '_') = true := by
    intro c hc
    rw [isDecimalDigit_of_isDigit (hdigit c hc), Bool.true_or]
  have hrun : digits.takeWhile (fun c => isDecimalDigit c || c == '_') = digits := by
    rw [← List.append_nil digits, List.takeWhile_append_of_pos (by simpa using hchar)]
    rfl
  have hrest : digits.dropWhile (fun c => isDecimalDigit c || c == '_') = [] := by
    rw [← List.append_nil digits, List.dropWhile_append_of_pos (by simpa using hchar)]
    rfl
  have hcount : ¬ digitLimit < (digits.map fun c => c.toNat - '0'.toNat).length := by
    rw [List.length_map]
    omega
  simp only [read, hsplit, hrun, hrest, filterMap_digitValue? hdigit, ofDigits_map,
    underscoresFit_of_isDigit false hdigit (Or.inr hne), if_neg hcount]
  rfl

/-- Digits alone are split into no sign and themselves. -/
theorem splitSign_of_isDigits {cs : List Char} (h : IsDigits cs) : splitSign cs = (false, cs) := by
  cases cs with
  | nil => exact absurd rfl h.1
  | cons c cs =>
      have hc : c.isDigit = true := h.2 c List.mem_cons_self
      have hminus : c ≠ '-' := by
        rintro rfl
        exact absurd hc (by decide)
      have hplus : c ≠ '+' := by
        rintro rfl
        exact absurd hc (by decide)
      exact splitSign.eq_3 _ (fun _ heq => hminus (List.cons.inj heq).1)
        fun _ heq => hplus (List.cons.inj heq).1

/-- The digits of a short natural number are few enough. The limit is a variable here, so that no
power is ever computed. -/
theorem length_toDigits_le {n limit : Nat} (hlimit : 0 < limit) (h : n < Nat.pow 10 limit) :
    (Nat.toDigits 10 n).length ≤ limit :=
  (Nat.length_toDigits_le_iff (by decide) hlimit).mpr h

/-- What is written for an integer: its digits, a minus in front of those of a negative one. -/
theorem toList_toString (n : Int) :
    (toString n).toList
      = if n < 0 then '-' :: Nat.toDigits 10 n.natAbs else Nat.toDigits 10 n.natAbs := by
  rw [Int.toString_eq_repr, Int.repr_eq_if]
  by_cases h : n < 0
  · have hnat : (-n).toNat = n.natAbs := by omega
    rw [if_pos h, if_neg (by omega), String.toList_append, Nat.toList_repr, hnat]
    rfl
  · have hnat : n.toNat = n.natAbs := by omega
    rw [if_neg h, if_pos (by omega), Nat.toList_repr, hnat]

theorem eq_of_toDigits_eq {m n : Nat} (h : Nat.toDigits 10 m = Nat.toDigits 10 n) : m = n := by
  have hvalue := congrArg (fun digits => Nat.ofDigitChars 10 digits 0) h
  simpa only [Nat.ofDigitChars_ten_toDigits] using hvalue

theorem eq_of_toString_nat_eq {m n : Nat} (h : toString m = toString n) : m = n := by
  have hlists := congrArg String.toList h
  rw [Nat.toString_eq_repr, Nat.toString_eq_repr, Nat.toList_repr, Nat.toList_repr] at hlists
  exact eq_of_toDigits_eq hlists

/-- A minus starts no digits. -/
theorem minus_cons_ne_toDigits {cs : List Char} {n : Nat} : '-' :: cs ≠ Nat.toDigits 10 n := by
  intro h
  have hminus : Char.isDigit '-' = true := (isDigits_toDigits n).2 '-' (h ▸ List.mem_cons_self)
  cases hminus

/-- The digits of a positive number do not start with a zero. -/
theorem zero_cons_ne_toDigits {n : Nat} (h : 0 < n) (cs : List Char) :
    '0' :: cs ≠ Nat.toDigits 10 n := by
  induction n using Nat.strongRecOn generalizing cs with
  | ind n ih =>
      intro hdigits
      by_cases hsmall : n < 10
      · rw [Nat.toDigits_of_lt_base hsmall, List.cons.injEq, Nat.zero_eq_digitChar] at hdigits
        omega
      · -- The first digit is that of the number without its last digit.
        obtain ⟨first, front, hfront, -⟩ := exists_toDigits_eq_cons (n / 10)
        rw [Nat.toDigits_of_base_le (by decide) (Nat.le_of_not_lt hsmall), hfront,
          List.cons_append, List.cons.injEq] at hdigits
        rw [← hdigits.1] at hfront
        exact ih (n / 10) (by omega) (by omega) front hfront.symm

/-- Integers that are written alike are equal. -/
theorem eq_of_toString_eq {m n : Int} (h : toString m = toString n) : m = n := by
  have hlists := congrArg String.toList h
  rw [toList_toString, toList_toString] at hlists
  split at hlists <;> split at hlists
  · have habs := eq_of_toDigits_eq (List.cons.inj hlists).2
    omega
  · exact absurd hlists minus_cons_ne_toDigits
  · exact absurd hlists.symm minus_cons_ne_toDigits
  · have habs := eq_of_toDigits_eq hlists
    omega

theorem visible_toString (n : Int) : Visible (toString n).toList := by
  rw [toList_toString]
  split
  · exact (isDigits_toDigits _).visible.cons (by decide)
  · exact (isDigits_toDigits _).visible

/-- An integer that is not negative is written without a sign. -/
theorem isDigits_toString {n : Int} (h : 0 ≤ n) : IsDigits (toString n).toList := by
  rw [toList_toString, if_neg (by omega)]
  exact isDigits_toDigits _

/-- An integer is its absolute value with its sign. -/
theorem eq_natAbs_or_neg (n : Int) :
    (if n < 0 then -(n.natAbs : Int) else n.natAbs) = n := by
  split <;> omega

/-- What is written for an integer is read back as the integer. -/
theorem read_toString {n : Int} (h : isWritable n = true) : read (toString n) = .ok n := by
  have hwritable : n.natAbs < Nat.pow 10 digitLimit := by simpa [isWritable] using h
  have hdigits := isDigits_toDigits n.natAbs
  have hvisible : trimBy isMargin (toString n).toList = (toString n).toList :=
    trimBy_eq_self fun c hc => isMargin_of_isVisible (visible_toString n c hc)
  have hsplit : splitSign (trimBy isMargin (toString n).toList)
      = (decide (n < 0), Nat.toDigits 10 n.natAbs) := by
    rw [hvisible, toList_toString]
    by_cases hn : n < 0
    · rw [if_pos hn, decide_eq_true hn]
      rfl
    · rw [if_neg hn, decide_eq_false hn, splitSign_of_isDigits hdigits]
  rw [read_of_split hsplit hdigits (length_toDigits_le (by decide) hwritable),
    Nat.ofDigitChars_ten_toDigits]
  simp only [decide_eq_true_eq, eq_natAbs_or_neg]

/-- Whatever has few digits can be written. -/
theorem isWritable_of_natAbs_lt {n : Int} {digits : Nat} (h : n.natAbs < Nat.pow 10 digits)
    (hdigits : digits ≤ digitLimit) : isWritable n = true := by
  have hpow : ∀ limit, digits ≤ limit → n.natAbs < Nat.pow 10 limit := fun limit hlimit =>
    Nat.lt_of_lt_of_le h (Nat.pow_le_pow_right (by decide) hlimit)
  exact decide_eq_true (hpow digitLimit hdigits)

/-! ### What is read can be written -/

/-- A number below one that can be written can be written. -/
theorem isWritable_of_le {m n : Nat} (hle : m ≤ n) (h : isWritable n = true) :
    isWritable m = true := by
  have hn : n < Nat.pow 10 digitLimit := by simpa [isWritable] using h
  exact decide_eq_true (Nat.lt_of_le_of_lt hle hn)

/-- A decimal digit of any script stands for less than ten. -/
theorem lt_ten_of_digitValue? {c : Char} {digit : Nat} (h : digitValue? c = some digit) :
    digit < 10 := by
  obtain ⟨start, hstart, rfl⟩ := Option.map_eq_some_iff.mp h
  have hrange := List.find?_some hstart
  simp only [Bool.and_eq_true, decide_eq_true_eq] at hrange
  omega

/-- Digits behind a value multiply it by ten, once for each of them, and stay below the next
step. -/
theorem foldl_digits_lt {digits : List Nat} (value : Nat) (h : ∀ digit ∈ digits, digit < 10) :
    digits.foldl (fun value digit => 10 * value + digit) value
      < (value + 1) * Nat.pow 10 digits.length := by
  induction digits generalizing value with
  | nil =>
      show value < (value + 1) * 1
      omega
  | cons digit digits ih =>
      have hdigit : digit < 10 := h digit List.mem_cons_self
      have hrest := ih (10 * value + digit) fun other hother =>
        h other (List.mem_cons_of_mem digit hother)
      have hstep : 10 * value + digit + 1 ≤ (value + 1) * 10 := by omega
      calc digits.foldl (fun value digit => 10 * value + digit) (10 * value + digit)
          < (10 * value + digit + 1) * Nat.pow 10 digits.length := hrest
        _ ≤ (value + 1) * 10 * Nat.pow 10 digits.length := Nat.mul_le_mul_right _ hstep
        _ = (value + 1) * Nat.pow 10 (digits.length + 1) := by
            rw [Nat.mul_assoc, Nat.mul_comm 10]
            rfl

/-- Digits that are not too many stand for a short number. The limit is a variable here too. -/
theorem ofDigits_lt {digits : List Nat} {limit : Nat} (h : ∀ digit ∈ digits, digit < 10)
    (hlength : digits.length ≤ limit) : ofDigits digits < Nat.pow 10 limit := by
  have hfold := foldl_digits_lt 0 h
  rw [Nat.zero_add, Nat.one_mul] at hfold
  exact Nat.lt_of_lt_of_le hfold (Nat.pow_le_pow_right (by decide) hlength)

/-- An integer that was read stood there as digits, and these were not too many. -/
theorem exists_digits_of_read {text : String} {n : Int} (h : read text = .ok n) :
    ∃ digits : List Nat, (∀ digit ∈ digits, digit < 10) ∧ digits.length ≤ digitLimit ∧
      n.natAbs = ofDigits digits := by
  simp only [read] at h
  split at h
  · cases h
  · split at h
    · cases h
    · rename_i hlength
      split at h
      · cases h
      · refine ⟨_, ?_, Nat.le_of_not_lt hlength, ?_⟩
        · intro digit hdigit
          obtain ⟨c, -, hc⟩ := List.mem_filterMap.mp hdigit
          exact lt_ten_of_digitValue? hc
        · cases h
          split
          · exact Int.natAbs_neg _
          · rfl

/-- What is read is short enough to be written. -/
theorem isWritable_of_read {text : String} {n : Int} (h : read text = .ok n) :
    isWritable n = true := by
  obtain ⟨digits, hdigits, hlength, habs⟩ := exists_digits_of_read h
  have hsmall : n.natAbs < Nat.pow 10 digitLimit := habs ▸ ofDigits_lt hdigits hlength
  exact decide_eq_true hsmall

end HeaderBind.Numeral
