import HeaderBind.Proofs.Json.Plain
import HeaderBind.Proofs.Json.Quoted
import HeaderBind.Proofs.Text.Numeral

/-!
# `HeaderBind.Proofs.Json.ReadBack`: written documents are read back

`ReadsBack value` says that whatever `write` makes of the value is scanned as the value, at every
level of indent and whatever follows, if there is room for it. What follows matters to numbers
alone, which end where nothing more can be read as a part of them (`EndsNumber`); texts, arrays and
objects end with a character of their own. The items of an array and the fields of an object are
lists of values that are read back, so they are by induction on the list (`scanItems_writeItems`,
`scanFields_writeFields`), and a plain value is by induction on the value (`Plain.readsBack`).

Where the room ends the reader stops (`StopsDeep`), for what stands in front of that place has been
read back. This is the same induction once more.

A document starts at its first character and has a line feed at its end (`parse_render`).
-/

set_option autoImplicit false

namespace HeaderBind.Json

/-! ### Integers -/

/-- What may stand behind a number: nothing that could be read as a part of it. -/
def EndsNumber (rest : List Char) : Prop :=
  ∀ c ∈ rest.head?, c.isDigit = false ∧ c ≠ '.' ∧ c ≠ 'e' ∧ c ≠ 'E'

/-- A character that does not start the digits of a number does not start what they are in front
of. -/
theorem toDigits_append_ne {n : Nat} {c : Char} (hc : ∀ cs, c :: cs ≠ Nat.toDigits 10 n)
    (rest cs : List Char) : Nat.toDigits 10 n ++ rest ≠ c :: cs := by
  intro heq
  obtain ⟨first, front, hfront, -⟩ := Numeral.exists_toDigits_eq_cons n
  rw [hfront, List.cons_append, List.cons.injEq] at heq
  exact hc front (by rw [hfront, heq.1])

section Integer

variable {rest : List Char} (h : EndsNumber rest)
include h

theorem splitDigits_append {digits : List Char} (hdigits : ∀ c ∈ digits, c.isDigit = true) :
    splitDigits (digits ++ rest) = (digits, rest) := by
  rw [splitDigits, List.takeWhile_append_of_pos hdigits, List.dropWhile_append_of_pos hdigits]
  cases rest with
  | nil => rw [List.takeWhile_nil, List.dropWhile_nil, List.append_nil]
  | cons c rest =>
      have hdigit : ¬ c.isDigit = true := by rw [(h c rfl).1]; decide
      rw [List.takeWhile_cons_of_neg hdigit, List.dropWhile_cons_of_neg hdigit, List.append_nil]

theorem scanFraction?_eq_none : scanFraction? rest = none := by
  cases rest with
  | nil => rfl
  | cons c rest =>
      rw [scanFraction?]
      rintro _ heq
      cases heq
      exact (h '.' rfl).2.1 rfl

theorem scanExponent?_eq_none : scanExponent? rest = none := by
  cases rest with
  | nil => rfl
  | cons c rest =>
      obtain ⟨-, -, hlower, hupper⟩ := h c rfl
      rw [scanExponent?, if_neg (by simp [hlower, hupper])]

/-- The digits of a number are read as its integer part. No zero is in front of them, so none is
taken for all of it. -/
theorem scanWhole?_toDigits (n : Nat) :
    scanWhole? (Nat.toDigits 10 n ++ rest) = some (Nat.toDigits 10 n, rest) := by
  rcases Nat.eq_zero_or_pos n with rfl | hpos
  · rfl
  · have hdigits := Numeral.isDigits_toDigits n
    rw [scanWhole?, splitDigits_append h hdigits.2]
    · rw [List.isEmpty_eq_false_iff.mpr hdigits.1]
      rfl
    · exact toDigits_append_ne (Numeral.zero_cons_ne_toDigits hpos) rest

/-- Digits behind an optional minus are read as the integer that they say, if they are not too
many. -/
theorem scanNumber_toString {n : Int} (hshort : Numeral.isWritable n = true) :
    scanNumber ((toString n).toList ++ rest) = .ok (.integer n, rest) := by
  have hwhole := scanWhole?_toDigits h n.natAbs
  have hfraction := scanFraction?_eq_none h
  have hexponent := scanExponent?_eq_none h
  have hlength : ¬ Numeral.digitLimit < (Nat.toDigits 10 n.natAbs).length :=
    Nat.not_lt_of_le
      (Numeral.length_toDigits_le (by decide) (by simpa [Numeral.isWritable] using hshort))
  have hvalue : digitsValue (Nat.toDigits 10 n.natAbs) = n.natAbs := by
    rw [digitsValue, Numeral.ofDigits_map, Nat.ofDigitChars_ten_toDigits]
  have hsigned := Numeral.eq_natAbs_or_neg n
  -- The steps of the reader are taken one by one, so that the limit is never computed.
  rw [Numeral.toList_toString]
  by_cases hn : n < 0
  · rw [if_pos hn] at hsigned ⊢
    unfold scanNumber
    simp only [List.cons_append, hwhole]
    simp only [hfraction, hexponent, Option.getD_none, Option.isNone_none, Bool.and_self]
    simp only [if_neg hlength, hvalue, if_true]
    rw [hsigned]
  · rw [if_neg hn] at hsigned ⊢
    have hminus : ∀ body, Nat.toDigits 10 n.natAbs ++ rest = '-' :: body → False :=
      toDigits_append_ne (fun _ => Numeral.minus_cons_ne_toDigits) rest
    unfold scanNumber
    simp only [hwhole]
    simp only [hfraction, hexponent, Option.getD_none, Option.isNone_none, Bool.and_self]
    simp only [if_neg hlength, hvalue, if_true]
    rw [hsigned]
    rfl

end Integer

/-- A digit starts no name. -/
theorem scanName?_of_isDigit {c : Char} (hc : c.isDigit = true) (cs : List Char) :
    scanName? (c :: cs) = none := by
  have hne : ∀ first : Char, first.isDigit = false → (first == c) = false := by
    intro first hfirst
    rw [beq_eq_false_iff_ne]
    rintro rfl
    rw [hc] at hfirst
    cases hfirst
  simp [scanName?, namedValues, List.isPrefixOf?, hne]

/-- The one name that starts with a minus has no digit behind it. -/
theorem scanName?_minus {c : Char} (hc : c.isDigit = true) (cs : List Char) :
    scanName? ('-' :: c :: cs) = none := by
  have hne : ('I' == c) = false := by
    rw [beq_eq_false_iff_ne]
    rintro rfl
    cases hc
  simp [scanName?, namedValues, List.isPrefixOf?, hne]

theorem scanValue_eq_scanNumber {c : Char} {cs : List Char} (fuel room : Nat)
    (hc : c.isDigit = true ∨ c = '-') (hname : scanName? (c :: cs) = none) :
    scanValue (fuel + 1) room (c :: cs) = scanNumber (c :: cs) := by
  rw [scanValue, hname]
  all_goals
    rintro _ ⟨⟩
    revert hc
    decide

/-! ### Between tokens -/

theorem endsNumber_comma (rest : List Char) : EndsNumber (',' :: rest) := by
  rintro c ⟨⟩
  decide

theorem endsNumber_newLine (level : Nat) (rest : List Char) :
    EndsNumber (newLine level ++ rest) := by
  rintro c ⟨⟩
  decide

theorem skipGap_newLine (level : Nat) (cs : List Char) :
    skipGap (newLine level ++ cs) = skipGap cs := by
  refine List.dropWhile_append_of_pos fun c hc => ?_
  rcases List.mem_cons.mp hc with rfl | hblank
  · rfl
  · rw [List.eq_of_mem_replicate hblank]
    rfl

theorem skipGap_cons {c : Char} (h : isGap c = false) (cs : List Char) :
    skipGap (c :: cs) = c :: cs :=
  List.dropWhile_cons_of_neg (by rw [h]; decide)

/-- What the reader asks about the first character of a value before it reads the value: it is no
blank, it closes no array, and it is no mark in front of a document. -/
def OpensValue (c : Char) : Prop :=
  isGap c = false ∧ c ≠ ']' ∧ c ≠ '\ufeff'

instance (c : Char) : Decidable (OpensValue c) :=
  inferInstanceAs (Decidable (_ ∧ _ ∧ _))

theorem opensValue_of_isDigit {c : Char} (h : c.isDigit = true) : OpensValue c := by
  refine ⟨?_, ?_, ?_⟩
  · simp only [isGap, Bool.or_eq_false_iff, beq_eq_false_iff_ne]
    refine ⟨⟨⟨?_, ?_⟩, ?_⟩, ?_⟩ <;> rintro rfl <;> cases h
  · rintro rfl
    cases h
  · rintro rfl
    cases h

/-- No value is written as nothing, and its first character opens it. -/
theorem Plain.exists_opensValue {value : Json} (h : Plain value) (level : Nat) :
    ∃ first tail, write level value = first :: tail ∧ OpensValue first := by
  cases h with
  | null => exact ⟨_, _, rfl, by decide⟩
  | bool value => cases value <;> exact ⟨_, _, rfl, by decide⟩
  | @integer n short =>
      show ∃ first tail, (toString n).toList = first :: tail ∧ OpensValue first
      rw [Numeral.toList_toString]
      split
      · exact ⟨_, _, rfl, by decide⟩
      · obtain ⟨first, tail, hdigits, hfirst⟩ := Numeral.exists_toDigits_eq_cons n.natAbs
        exact ⟨first, tail, hdigits, opensValue_of_isDigit hfirst⟩
  | string value => exact ⟨_, _, rfl, by decide⟩
  | @array items each => cases items <;> exact ⟨_, _, rfl, by decide⟩
  | @object fields keys each => cases fields <;> exact ⟨_, _, rfl, by decide⟩

/-- Blanks in front of a value are passed over, and nothing of the value is. -/
theorem Plain.skipGap_write {value : Json} (h : Plain value) (level : Nat) (rest : List Char) :
    skipGap (write level value ++ rest) = write level value ++ rest := by
  obtain ⟨first, tail, hwritten, hopens⟩ := h.exists_opensValue level
  rw [hwritten]
  exact skipGap_cons hopens.1 (tail ++ rest)

theorem Plain.skipGap_blank_write {value : Json} (h : Plain value) (level : Nat)
    (rest : List Char) :
    skipGap (' ' :: (write level value ++ rest)) = write level value ++ rest :=
  h.skipGap_write level rest

/-! ### Values -/

/-- A value is read back at every level of indent, whatever follows it, as long as that does not go
on as a number and there is room for its arrays and objects. The fuel is twice the length of what is
written: a value inside an array takes one step for the item and one for itself. -/
def ReadsBack (value : Json) : Prop :=
  ∀ level fuel room rest, EndsNumber rest → 2 * (write level value).length ≤ fuel →
    value.nesting ≤ room → scanValue fuel room (write level value ++ rest) = .ok (value, rest)

theorem readsBack_null : ReadsBack .null := by
  intro level fuel room rest _ hfuel _
  cases fuel with
  | zero => cases hfuel
  | succ fuel => rfl

theorem readsBack_bool (value : Bool) : ReadsBack (.bool value) := by
  intro level fuel room rest _ hfuel _
  cases fuel with
  | zero => cases value <;> cases hfuel
  | succ fuel => cases value <;> rfl

theorem readsBack_integer {value : Int} (hshort : Numeral.isWritable value = true) :
    ReadsBack (.integer value) := by
  intro level fuel room rest hends hfuel _
  obtain ⟨first, tail, hdigits, hfirst⟩ := Numeral.exists_toDigits_eq_cons value.natAbs
  have hread := scanNumber_toString hends hshort
  rw [write] at hfuel ⊢
  rw [Numeral.toList_toString, hdigits] at hfuel hread ⊢
  cases fuel with
  | zero => split at hfuel <;> cases hfuel
  | succ fuel =>
      rw [← hread]
      by_cases hn : value < 0
      · rw [if_pos hn]
        exact scanValue_eq_scanNumber fuel room (.inr rfl) (scanName?_minus hfirst _)
      · rw [if_neg hn]
        exact scanValue_eq_scanNumber fuel room (.inl hfirst) (scanName?_of_isDigit hfirst _)

theorem readsBack_string (value : String) : ReadsBack (.string value) := by
  intro level fuel room rest _ hfuel _
  cases fuel with
  | zero => cases hfuel
  | succ fuel =>
      show (scanText _ (value.toList.flatMap writeChar ++ ['"'] ++ rest)).map _ = _
      rw [List.append_assoc, List.singleton_append, scanText_writeText]
      rfl

/-! ### Arrays -/

section Written

variable (level : Nat) (item : Json) (items : List Json)

theorem writeItems_cons_append (rest : List Char) :
    writeItems level (item :: items) ++ rest
      = ',' :: (newLine level ++ (write level item ++ (writeItems level items ++ rest))) := by
  simp only [writeItems, List.cons_append, List.append_assoc]

theorem write_array_append (rest : List Char) :
    write level (.array (item :: items)) ++ rest
      = '[' :: (newLine (level + 1) ++ (write (level + 1) item
        ++ (writeItems (level + 1) items ++ (newLine level ++ ']' :: rest)))) := by
  simp only [write, List.cons_append, List.append_assoc, List.nil_append]

/-- A comma and a line feed are in front of an item. -/
theorem length_writeItems_cons :
    (write level item).length + (writeItems level items).length + 2
      ≤ (writeItems level (item :: items)).length := by
  simp only [writeItems, newLine, List.length_append, List.length_cons]
  omega

/-- A bracket and a line feed are in front of the first item. -/
theorem length_write_array :
    (write (level + 1) item).length + (writeItems (level + 1) items).length + 2
      ≤ (write level (.array (item :: items))).length := by
  simp only [write, newLine, List.length_append, List.length_cons]
  omega

end Written

section Items

variable {fuel room : Nat} {cs afterItem rest : List Char} {item : Json}

theorem scanItems_last (hitem : scanValue fuel room cs = .ok (item, afterItem))
    (hgap : skipGap afterItem = ']' :: rest) :
    scanItems (fuel + 1) room cs = .ok ([item], rest) := by
  rw [scanItems, hitem]
  simp only [hgap]

theorem scanItems_more {afterComma : List Char}
    (hitem : scanValue fuel room cs = .ok (item, afterItem))
    (hgap : skipGap afterItem = ',' :: afterComma) :
    scanItems (fuel + 1) room cs
      = (scanItems fuel room (skipGap afterComma)).map fun (items, rest) =>
          (item :: items, rest) := by
  rw [scanItems, hitem]
  simp only [hgap]

theorem scanItems_stop {stop : Stop} (hitem : scanValue fuel room cs = .error stop) :
    scanItems (fuel + 1) room cs = .error stop := by
  rw [scanItems, hitem]

end Items

/-- The items of an array are read back up to its bracket, the first one and those behind it. -/
theorem scanItems_writeItems {room level outer : Nat} {rest : List Char} {item : Json}
    {items : List Json} (hplain : ∀ given ∈ item :: items, Plain given)
    (hback : ∀ given ∈ item :: items, ReadsBack given)
    (hroom : ∀ given ∈ item :: items, given.nesting ≤ room) {fuel : Nat}
    (hfuel : 2 * ((write level item).length + (writeItems level items).length) + 1 ≤ fuel) :
    scanItems fuel room
        (write level item ++ (writeItems level items ++ (newLine outer ++ ']' :: rest)))
      = .ok (item :: items, rest) := by
  -- One step of fuel goes to the first item, and the comma and the line feed behind it pay for it.
  induction items generalizing item fuel with
  | nil =>
      cases fuel with
      | zero => omega
      | succ fuel =>
          have hitem := hback item List.mem_cons_self level fuel room (newLine outer ++ ']' :: rest)
            (endsNumber_newLine outer _) (by omega) (hroom item List.mem_cons_self)
          refine scanItems_last hitem ?_
          rw [skipGap_newLine, skipGap_cons rfl]
  | cons next items ih =>
      cases fuel with
      | zero => omega
      | succ fuel =>
          obtain ⟨hfirst, hlater⟩ := List.forall_mem_cons.mp hback
          obtain ⟨hfirstRoom, hlaterRoom⟩ := List.forall_mem_cons.mp hroom
          have hplains := (List.forall_mem_cons.mp hplain).2
          have hnext : Plain next := hplains next List.mem_cons_self
          have hlength := length_writeItems_cons level next items
          rw [writeItems_cons_append, scanItems_more
            (hfirst level fuel room _ (endsNumber_comma _) (by omega) hfirstRoom)
            (skipGap_cons rfl _), skipGap_newLine, hnext.skipGap_write,
            ih hplains hlater hlaterRoom (by omega)]
          rfl

/-- An array with something in it is opened, and its items are read with the room that is left. -/
theorem scanValue_array {fuel : Nat} (room level : Nat) {item : Json} (hitem : Plain item)
    (items : List Json) (rest : List Char) :
    scanValue (fuel + 1) (room + 1) (write level (.array (item :: items)) ++ rest)
      = (scanItems fuel room (write (level + 1) item
          ++ (writeItems (level + 1) items ++ (newLine level ++ ']' :: rest)))).map
            fun (items, rest) => (.array items, rest) := by
  have hopen : ∀ tail,
      write (level + 1) item ++ (writeItems (level + 1) items ++ (newLine level ++ ']' :: rest))
        = ']' :: tail → False := by
    obtain ⟨first, tail, hfirst, hopens⟩ := hitem.exists_opensValue (level + 1)
    rw [hfirst]
    rintro _ ⟨⟩
    exact hopens.2.1 rfl
  rw [write_array_append, scanValue, skipGap_newLine, hitem.skipGap_write]
  generalize write (level + 1) item ++ _ = inner at hopen ⊢
  split
  · exact absurd rfl (hopen _)
  · rfl

theorem readsBack_array {items : List Json} (hplain : ∀ item ∈ items, Plain item)
    (hback : ∀ item ∈ items, ReadsBack item) : ReadsBack (.array items) := by
  intro level fuel room rest _ hfuel hroom
  cases room with
  | zero => cases hroom
  | succ room =>
      have hrooms : ∀ item ∈ items, item.nesting ≤ room := depth_array_le_iff.mp hroom
      cases fuel with
      | zero => cases items <;> cases hfuel
      | succ fuel =>
          cases items with
          | nil => rfl
          | cons item items =>
              have hlength := length_write_array level item items
              rw [scanValue_array room level (hplain item List.mem_cons_self),
                scanItems_writeItems hplain hback hrooms (by omega)]
              rfl

/-! ### Objects -/

/-- A field on its line. -/
def writeField (level : Nat) (field : String × Json) : List Char :=
  writeText field.1 ++ ':' :: ' ' :: write level field.2

section Written

variable (level : Nat) (field : String × Json) (fields : List (String × Json))

/-- A field is a key between quotes, a colon, and its value behind a blank. -/
theorem writeField_append (rest : List Char) :
    writeField level field ++ rest
      = '"' :: (field.1.toList.flatMap writeChar
        ++ '"' :: ':' :: ' ' :: (write level field.2 ++ rest)) := by
  simp only [writeField, writeText, List.cons_append, List.append_assoc, List.nil_append]

theorem writeFields_cons_append (rest : List Char) :
    writeFields level (field :: fields) ++ rest
      = ',' ::
        (newLine level ++ (writeField level field ++ (writeFields level fields ++ rest))) := by
  simp only [writeFields, writeField, List.cons_append, List.append_assoc]

theorem write_object_append (rest : List Char) :
    write level (.object (field :: fields)) ++ rest
      = '\x7b' :: (newLine (level + 1) ++ (writeField (level + 1) field
        ++ (writeFields (level + 1) fields ++ (newLine level ++ '\x7d' :: rest)))) := by
  simp only [write, writeField, List.cons_append, List.append_assoc, List.nil_append]

theorem length_write_le : (write level field.2).length ≤ (writeField level field).length := by
  simp only [writeField, List.length_append, List.length_cons]
  omega

/-- A comma and a line feed are in front of a field. -/
theorem length_writeFields_cons :
    (writeField level field).length + (writeFields level fields).length + 2
      ≤ (writeFields level (field :: fields)).length := by
  simp only [writeFields, writeField, newLine, List.length_append, List.length_cons]
  omega

/-- A brace and a line feed are in front of the first field. -/
theorem length_write_object :
    (writeField (level + 1) field).length + (writeFields (level + 1) fields).length + 2
      ≤ (write level (.object (field :: fields))).length := by
  simp only [write, writeField, newLine, List.length_append, List.length_cons]
  omega

end Written

/-- No blank is in front of a field. -/
theorem skipGap_writeField (level : Nat) (field : String × Json) (rest : List Char) :
    skipGap (writeField level field ++ rest) = writeField level field ++ rest :=
  skipGap_cons rfl _

/-- What the fields of an object come to when the value of the first one was scanned: the ones
behind it decide. -/
def fieldsBehind (fuel room : Nat) (key : String) :
    Except Stop (Json × List Char) → Except Stop (List (String × Json) × List Char)
  | .error stop => .error stop
  | .ok (value, rest) =>
    match skipGap rest with
    | '\x7d' :: rest' => .ok ([(key, value)], rest')
    | ',' :: rest' =>
      (scanFields fuel room (skipGap rest')).map fun (fields, rest'') =>
        ((key, value) :: fields, rest'')
    | rest' => .error (.unmet .comma rest')

section Field

variable {fuel room level : Nat} {field : String × Json} {afterValue rest : List Char}
  (hplain : Plain field.2)
include hplain

/-- Up to its value, a field is read back whatever its value is. -/
theorem scanFields_writeField :
    scanFields (fuel + 1) room (writeField level field ++ rest)
      = fieldsBehind fuel room field.1 (scanValue fuel room (write level field.2 ++ rest)) := by
  rw [writeField_append, scanFields, scanText_writeText]
  simp only [skipGap_cons (rfl : isGap ':' = false), hplain.skipGap_blank_write]
  rfl

theorem scanFields_last
    (hvalue : scanValue fuel room (write level field.2 ++ afterValue) = .ok (field.2, afterValue))
    (hgap : skipGap afterValue = '\x7d' :: rest) :
    scanFields (fuel + 1) room (writeField level field ++ afterValue) = .ok ([field], rest) := by
  rw [scanFields_writeField hplain, hvalue]
  simp only [fieldsBehind, hgap]

theorem scanFields_more {afterComma : List Char}
    (hvalue : scanValue fuel room (write level field.2 ++ afterValue) = .ok (field.2, afterValue))
    (hgap : skipGap afterValue = ',' :: afterComma) :
    scanFields (fuel + 1) room (writeField level field ++ afterValue)
      = (scanFields fuel room (skipGap afterComma)).map fun (fields, rest) =>
          (field :: fields, rest) := by
  rw [scanFields_writeField hplain, hvalue]
  simp only [fieldsBehind, hgap]

theorem scanFields_stop {stop : Stop}
    (hvalue : scanValue fuel room (write level field.2 ++ afterValue) = .error stop) :
    scanFields (fuel + 1) room (writeField level field ++ afterValue) = .error stop := by
  rw [scanFields_writeField hplain, hvalue, fieldsBehind]

end Field

/-- The fields of an object are read back up to its brace, the first one and those behind it. -/
theorem scanFields_writeFields {room level outer : Nat} {rest : List Char} {field : String × Json}
    {fields : List (String × Json)} (hplain : ∀ given ∈ field :: fields, Plain given.2)
    (hback : ∀ given ∈ field :: fields, ReadsBack given.2)
    (hroom : ∀ given ∈ field :: fields, given.2.nesting ≤ room) {fuel : Nat}
    (hfuel : 2 * ((writeField level field).length + (writeFields level fields).length) + 1 ≤ fuel) :
    scanFields fuel room
        (writeField level field ++ (writeFields level fields ++ (newLine outer ++ '\x7d' :: rest)))
      = .ok (field :: fields, rest) := by
  have hvalue := length_write_le level field
  induction fields generalizing field fuel with
  | nil =>
      cases fuel with
      | zero => omega
      | succ fuel =>
          have hfield := hback field List.mem_cons_self level fuel room
            (newLine outer ++ '\x7d' :: rest) (endsNumber_newLine outer _) (by omega)
            (hroom field List.mem_cons_self)
          refine scanFields_last (hplain field List.mem_cons_self) hfield ?_
          rw [writeFields, List.nil_append, skipGap_newLine, skipGap_cons rfl]
  | cons next fields ih =>
      cases fuel with
      | zero => omega
      | succ fuel =>
          obtain ⟨hfirst, hlater⟩ := List.forall_mem_cons.mp hback
          obtain ⟨hfieldPlain, hplains⟩ := List.forall_mem_cons.mp hplain
          obtain ⟨hfirstRoom, hlaterRoom⟩ := List.forall_mem_cons.mp hroom
          have hlength := length_writeFields_cons level next fields
          rw [writeFields_cons_append, scanFields_more hfieldPlain
            (hfirst level fuel room _ (endsNumber_comma _) (by omega) hfirstRoom)
            (skipGap_cons rfl _), skipGap_newLine, skipGap_writeField,
            ih hplains hlater hlaterRoom (by omega) (length_write_le level next)]
          rfl

/-- An object with something in it is opened, and its fields are read with the room that is left. -/
theorem scanValue_object {fuel : Nat} (room level : Nat) (field : String × Json)
    (fields : List (String × Json)) (rest : List Char) :
    scanValue (fuel + 1) (room + 1) (write level (.object (field :: fields)) ++ rest)
      = (scanFields fuel room (writeField (level + 1) field
          ++ (writeFields (level + 1) fields ++ (newLine level ++ '\x7d' :: rest)))).map
            fun (fields, rest) => (.object (Entries.ofList fields), rest) := by
  rw [write_object_append, scanValue, skipGap_newLine, skipGap_writeField]
  rfl

theorem readsBack_object {fields : List (String × Json)} (hkeys : (Entries.keys fields).Nodup)
    (hplain : ∀ field ∈ fields, Plain field.2) (hback : ∀ field ∈ fields, ReadsBack field.2) :
    ReadsBack (.object fields) := by
  intro level fuel room rest _ hfuel hroom
  cases room with
  | zero => cases hroom
  | succ room =>
      have hrooms : ∀ field ∈ fields, field.2.nesting ≤ room := depth_object_le_iff.mp hroom
      cases fuel with
      | zero => cases fields <;> cases hfuel
      | succ fuel =>
          cases fields with
          | nil => rfl
          | cons field fields =>
              have hlength := length_write_object level field fields
              rw [scanValue_object, scanFields_writeFields hplain hback hrooms (by omega)]
              simp only [Except.map, Entries.ofList_eq_self hkeys]

/-- Every plain value is read back. -/
theorem Plain.readsBack {value : Json} (h : Plain value) : ReadsBack value := by
  induction h with
  | null => exact readsBack_null
  | bool value => exact readsBack_bool value
  | integer short => exact readsBack_integer short
  | string value => exact readsBack_string value
  | array each ih => exact readsBack_array each ih
  | object keys each ih => exact readsBack_object keys each ih

/-! ### Where the room ends -/

/-- A value that there is no room for stops the reader, whatever stands in front of the place where
the room ends. -/
def StopsDeep (value : Json) : Prop :=
  ∀ level fuel room rest, EndsNumber rest → 2 * (write level value).length ≤ fuel →
    room < value.nesting → ∃ descent,
      scanValue fuel room (write level value ++ rest) = .error (.tooDeep descent)

/-- Among the items of an array, the first one that there is no room for stops the reader. -/
theorem exists_scanItems_eq_tooDeep {room : Nat} (fuel level outer : Nat) (rest : List Char)
    {item : Json} {items : List Json} (hplain : ∀ given ∈ item :: items, Plain given)
    (hstops : ∀ given ∈ item :: items, StopsDeep given)
    (hdeep : ∃ given ∈ item :: items, room < given.nesting)
    (hfuel : 2 * ((write level item).length + (writeItems level items).length) + 1 ≤ fuel) :
    ∃ descent, scanItems fuel room
        (write level item ++ (writeItems level items ++ (newLine outer ++ ']' :: rest)))
      = .error (.tooDeep descent) := by
  induction items generalizing item fuel with
  | nil =>
      cases fuel with
      | zero => omega
      | succ fuel =>
          obtain ⟨given, hgiven, hnesting⟩ := hdeep
          obtain rfl := List.mem_singleton.mp hgiven
          obtain ⟨descent, hstop⟩ := hstops given List.mem_cons_self level fuel room
            (newLine outer ++ ']' :: rest) (endsNumber_newLine outer _) (by omega) hnesting
          exact ⟨descent, scanItems_stop hstop⟩
  | cons next items ih =>
      cases fuel with
      | zero => omega
      | succ fuel =>
          obtain ⟨hfirst, hlater⟩ := List.forall_mem_cons.mp hstops
          obtain ⟨hfirstPlain, hplains⟩ := List.forall_mem_cons.mp hplain
          have hnext : Plain next := hplains next List.mem_cons_self
          have hlength := length_writeItems_cons level next items
          rw [writeItems_cons_append]
          by_cases hroom : item.nesting ≤ room
          · -- There is room for the first item, so one of the others stops the reader.
            have hothers : ∃ given ∈ next :: items, room < given.nesting := by
              obtain ⟨given, hgiven, hnesting⟩ := hdeep
              rcases List.mem_cons.mp hgiven with rfl | hother
              · exact absurd hnesting (Nat.not_lt_of_le hroom)
              · exact ⟨given, hother, hnesting⟩
            obtain ⟨descent, hstop⟩ := ih fuel hplains hlater hothers (by omega)
            rw [scanItems_more (hfirstPlain.readsBack level fuel room _ (endsNumber_comma _)
              (by omega) hroom) (skipGap_cons rfl _), skipGap_newLine, hnext.skipGap_write, hstop]
            exact ⟨descent, rfl⟩
          · obtain ⟨descent, hstop⟩ := hfirst level fuel room _ (endsNumber_comma _) (by omega)
              (Nat.lt_of_not_le hroom)
            exact ⟨descent, scanItems_stop hstop⟩

/-- Among the fields of an object, the first one that there is no room for stops the reader. -/
theorem exists_scanFields_eq_tooDeep {room : Nat} (fuel level outer : Nat) (rest : List Char)
    {field : String × Json} {fields : List (String × Json)}
    (hplain : ∀ given ∈ field :: fields, Plain given.2)
    (hstops : ∀ given ∈ field :: fields, StopsDeep given.2)
    (hdeep : ∃ given ∈ field :: fields, room < given.2.nesting)
    (hfuel : 2 * ((writeField level field).length + (writeFields level fields).length) + 1 ≤ fuel) :
    ∃ descent, scanFields fuel room
        (writeField level field ++ (writeFields level fields ++ (newLine outer ++ '\x7d' :: rest)))
      = .error (.tooDeep descent) := by
  have hvalue := length_write_le level field
  induction fields generalizing field fuel with
  | nil =>
      cases fuel with
      | zero => omega
      | succ fuel =>
          obtain ⟨given, hgiven, hnesting⟩ := hdeep
          obtain rfl := List.mem_singleton.mp hgiven
          obtain ⟨descent, hstop⟩ := hstops given List.mem_cons_self level fuel room
            (newLine outer ++ '\x7d' :: rest) (endsNumber_newLine outer _) (by omega) hnesting
          exact ⟨descent, scanFields_stop (hplain given List.mem_cons_self) hstop⟩
  | cons next fields ih =>
      cases fuel with
      | zero => omega
      | succ fuel =>
          obtain ⟨hfirst, hlater⟩ := List.forall_mem_cons.mp hstops
          obtain ⟨hfieldPlain, hplains⟩ := List.forall_mem_cons.mp hplain
          have hlength := length_writeFields_cons level next fields
          rw [writeFields_cons_append]
          by_cases hroom : field.2.nesting ≤ room
          · have hothers : ∃ given ∈ next :: fields, room < given.2.nesting := by
              obtain ⟨given, hgiven, hnesting⟩ := hdeep
              rcases List.mem_cons.mp hgiven with rfl | hother
              · exact absurd hnesting (Nat.not_lt_of_le hroom)
              · exact ⟨given, hother, hnesting⟩
            obtain ⟨descent, hstop⟩ :=
              ih fuel hplains hlater hothers (by omega) (length_write_le level next)
            rw [scanFields_more hfieldPlain (hfieldPlain.readsBack level fuel room _
              (endsNumber_comma _) (by omega) hroom) (skipGap_cons rfl _), skipGap_newLine,
              skipGap_writeField, hstop]
            exact ⟨descent, rfl⟩
          · obtain ⟨descent, hstop⟩ := hfirst level fuel room _ (endsNumber_comma _) (by omega)
              (Nat.lt_of_not_le hroom)
            exact ⟨descent, scanFields_stop hfieldPlain hstop⟩

theorem stopsDeep_array {items : List Json} (hplain : ∀ item ∈ items, Plain item)
    (hstops : ∀ item ∈ items, StopsDeep item) : StopsDeep (.array items) := by
  intro level fuel room rest _ hfuel hroom
  cases fuel with
  | zero => cases items <;> cases hfuel
  | succ fuel =>
      cases room with
      | zero => cases items <;> exact ⟨.readingArray, rfl⟩
      | succ room =>
          have hdeep : ∃ item ∈ items, room < item.nesting := by
            simpa [nesting] using mt depth_array_le_iff.mpr (Nat.not_le_of_lt hroom)
          cases items with
          | nil => simp at hdeep
          | cons item items =>
              have hlength := length_write_array level item items
              obtain ⟨descent, hstop⟩ :=
                exists_scanItems_eq_tooDeep fuel (level + 1) level rest hplain hstops hdeep
                  (by omega)
              rw [scanValue_array room level (hplain item List.mem_cons_self), hstop]
              exact ⟨descent, rfl⟩

theorem stopsDeep_object {fields : List (String × Json)}
    (hplain : ∀ field ∈ fields, Plain field.2) (hstops : ∀ field ∈ fields, StopsDeep field.2) :
    StopsDeep (.object fields) := by
  intro level fuel room rest _ hfuel hroom
  cases fuel with
  | zero => cases fields <;> cases hfuel
  | succ fuel =>
      cases room with
      | zero => cases fields <;> exact ⟨.readingObject, rfl⟩
      | succ room =>
          have hdeep : ∃ field ∈ fields, room < field.2.nesting := by
            simpa [nesting] using mt depth_object_le_iff.mpr (Nat.not_le_of_lt hroom)
          cases fields with
          | nil => simp at hdeep
          | cons field fields =>
              have hlength := length_write_object level field fields
              obtain ⟨descent, hstop⟩ :=
                exists_scanFields_eq_tooDeep fuel (level + 1) level rest hplain hstops hdeep
                  (by omega)
              rw [scanValue_object, hstop]
              exact ⟨descent, rfl⟩

/-- No plain value is read that there is no room for. -/
theorem Plain.stopsDeep {value : Json} (h : Plain value) : StopsDeep value := by
  induction h with
  | array each ih => exact stopsDeep_array each ih
  | object keys each ih => exact stopsDeep_object each ih
  | _ => exact fun _ _ _ _ _ _ hroom => absurd hroom (Nat.not_lt_zero _)

/-! ### Documents -/

section

variable [Interpreter] {value : Json}

/-- What a document comes to when its value was scanned: nothing but a gap may stand behind it. -/
def documentOf : Except Stop (Json × List Char) → Except Stop Json
  | .error stop => .error stop
  | .ok (value, rest) =>
    match skipGap rest with
    | [] => .ok value
    | rest' => .error (.unmet .nothingMore rest')

/-- A document with a line feed at its end is scanned from its first character. -/
theorem scanDocument_write (h : Plain value) :
    scanDocument (write 0 value ++ ['\n'])
      = documentOf (scanValue (2 * (write 0 value ++ ['\n']).length + 2) Interpreter.readRoom
          (write 0 value ++ ['\n'])) := by
  have hmark : ∀ tail, write 0 value ++ ['\n'] = '\ufeff' :: tail → False := by
    obtain ⟨first, tail, hwritten, hopens⟩ := h.exists_opensValue 0
    rw [hwritten]
    rintro _ ⟨⟩
    exact hopens.2.2 rfl
  rw [scanDocument, h.skipGap_write]
  · rfl
  · exact hmark

/-- The document that is written for a plain value, the line feed at its end included, says the
value with its keys in order. If there is no room to read it, the reader stops. -/
theorem parse_render (h : Plain value) :
    (value.nesting ≤ Interpreter.readRoom →
        parse (value.render ++ "\n") = .ok value.sortKeys) ∧
      (Interpreter.readRoom < value.nesting →
        ∃ descent, parse (value.render ++ "\n") = .error (.tooDeep descent)) := by
  have htext : (value.render ++ "\n").toList = write 0 value.sortKeys ++ ['\n'] := by
    rw [String.toList_append, render, String.toList_ofList]
    rfl
  have hdocument := scanDocument_write h.sortKeys
  have hfuel : 2 * (write 0 value.sortKeys).length
      ≤ 2 * (write 0 value.sortKeys ++ ['\n']).length + 2 := by
    rw [List.length_append]
    omega
  rw [parse, htext, hdocument]
  constructor
  · intro hroom
    have hread := h.sortKeys.readsBack 0 _ Interpreter.readRoom ['\n'] (endsNumber_newLine 0 [])
      hfuel (h.depth_sortKeys.trans_le hroom)
    rw [hread]
    rfl
  · intro hroom
    obtain ⟨descent, hstop⟩ := h.sortKeys.stopsDeep 0 _ Interpreter.readRoom ['\n']
      (endsNumber_newLine 0 []) hfuel (hroom.trans_eq h.depth_sortKeys.symm)
    rw [hstop]
    exact ⟨descent, rfl⟩

end

end HeaderBind.Json
