import HeaderBind.Proofs.Probe.Run
import HeaderBind.Proofs.Resolution
import HeaderBind.Proofs.Text.Digit
import HeaderBind.Proofs.Text.Trim

/-!
# `HeaderBind.Proofs.Probe.Canonical`: the facts of a structure in their plainest form

Many texts are read as the same facts about a structure. There may be blank pieces between the
commas and white space around the others, the digits may be of any script and start with zeros, and
a name may be any word. Facts that were read are `Stated`: their names are words, and their numbers
have no sign and are short enough to be written. So they can be put into the one text that a probe
prints (`StructFacts.text`), and `readStruct_text` reads that text back, piece by piece.

`readStruct_canonical` puts this together, and says how many pieces there were. The text is trimmed
before it is taken apart, which makes no difference to the pieces that are not blank
(`blankness_trimChars`).
-/

set_option autoImplicit false

namespace HeaderBind

open HeaderBind.Text
open HeaderBind.Probe

namespace Text

/-- No word has white space in it. -/
theorem isBlank_of_isWordChar {c : Char} (h : isWordChar c = true) : isBlank c = false := by
  rw [isWordChar, Bool.or_eq_true, Bool.and_eq_true] at h
  rcases h with hascii | ⟨-, hfurther⟩
  · exact isBlank_of_isVisible (isVisible_of_isNameChar hascii)
  · exact not_inRanges_of_apart (by decide +kernel) hfurther

/-- A character that may not stand in a word is in none. -/
theorem ne_of_isWordChar {c d : Char} (h : isWordChar c = true) (hd : isWordChar d = false) :
    c ≠ d := by
  rintro rfl
  rw [h] at hd
  cases hd

end Text

namespace Probe

/-! ### Pieces between commas -/

/-- Which of the pieces between commas are blank. -/
def blankness (cs : List Char) : List Bool :=
  (cs.splitOn ',').map fun piece => piece.all isBlank

theorem blankness_comma (cs : List Char) : blankness (',' :: cs) = true :: blankness cs := by
  have hsplit := List.splitOn_append_cons_self_of_not_mem (List.not_mem_nil (a := ',')) cs
  rw [List.nil_append] at hsplit
  rw [blankness, hsplit]
  rfl

theorem blankness_cons {c : Char} (h : c ≠ ',') (cs : List Char) :
    blankness (c :: cs) = (blankness cs).modifyHead (isBlank c && ·) := by
  have hsplit : (c :: cs).splitOn ',' = (cs.splitOn ',').modifyHead (c :: ·) := by
    rw [List.splitOn_eq_splitOnP, List.splitOnP_cons_eq_if_modifyHead, if_neg (by simpa using h),
      List.splitOn_eq_splitOnP]
  rw [blankness, blankness, hsplit]
  cases cs.splitOn ',' <;> simp

/-- A character that is blank makes no piece less blank, in front. -/
theorem blankness_cons_of_isBlank {c : Char} (h : isBlank c = true) (cs : List Char) :
    blankness (c :: cs) = blankness cs := by
  have hcomma : c ≠ ',' := by
    rintro rfl
    exact absurd h (by decide)
  rw [blankness_cons hcomma, h]
  cases blankness cs <;> simp

/-- Nor does it at the end. -/
theorem blankness_append_of_isBlank {c : Char} (h : isBlank c = true) (cs : List Char) :
    blankness (cs ++ [c]) = blankness cs := by
  induction cs with
  | nil => exact blankness_cons_of_isBlank h []
  | cons d cs ih =>
      rw [List.cons_append]
      by_cases hd : d = ','
      · rw [hd, blankness_comma, blankness_comma, ih]
      · rw [blankness_cons hd, blankness_cons hd, ih]

/-- Trimming takes nothing off the pieces that are not blank. -/
theorem blankness_trimChars (cs : List Char) : blankness (trimChars cs) = blankness cs := by
  -- What is trimmed off goes one character at a time.
  have hfront : ∀ {front : List Char}, (∀ c ∈ front, isBlank c = true) → ∀ cs,
      blankness (front ++ cs) = blankness cs := by
    intro front hblank cs
    induction front with
    | nil => rfl
    | cons c front ih =>
        obtain ⟨hc, hrest⟩ := List.forall_mem_cons.mp hblank
        rw [List.cons_append, blankness_cons_of_isBlank hc, ih hrest]
  have hback : ∀ {back : List Char}, (∀ c ∈ back, isBlank c = true) → ∀ cs,
      blankness (cs ++ back) = blankness cs := by
    intro back hblank
    induction back with
    | nil => simp
    | cons c back ih =>
        intro cs
        obtain ⟨hc, hrest⟩ := List.forall_mem_cons.mp hblank
        rw [← List.singleton_append, ← List.append_assoc, ih hrest,
          blankness_append_of_isBlank hc]
  obtain ⟨front, back, hsplit, hfrontBlank, hbackBlank⟩ := exists_eq_append_trimBy isBlank cs
  calc blankness (trimChars cs)
      = blankness (front ++ trimChars cs ++ back) := by
        rw [hback hbackBlank, hfront hfrontBlank]
    _ = blankness cs := congrArg blankness hsplit.symm

/-- The pieces of a value that are not blank are as many as its tokens. -/
theorem length_tokens (value : List Char) :
    ((value.splitOn ',').filter fun piece => !piece.all isBlank).length
      = (tokens value).length := by
  have hcount : ∀ cs : List Char,
      ((cs.splitOn ',').filter fun piece => !piece.all isBlank).length
        = (blankness cs).countP (!·) := by
    intro cs
    rw [blankness, List.countP_map, List.countP_eq_length_filter]
    rfl
  rw [tokens, hcount, hcount, blankness_trimChars]

/-! ### Tokens -/

/-- Digits are split off in front of a character that is none. -/
theorem splitDecimal?_append {digits : List Char} {c : Char} (rest : List Char)
    (h : Numeral.IsDigits digits) (hc : isDecimalDigit c = false) :
    splitDecimal? (digits ++ c :: rest) = some (String.ofList digits, c :: rest) := by
  have hdigits : ∀ d ∈ digits, isDecimalDigit d = true := fun d hd =>
    isDecimalDigit_of_isDigit (h.2 d hd)
  have hne : digits.isEmpty = false := by simp [h.1]
  simp only [splitDecimal?, takeWhile_append_cons rest hdigits hc,
    dropWhile_append_cons rest hdigits hc, hne]
  rfl

theorem signOfLetter?_signLetter (signed : Bool) :
    signOfLetter? [signLetter signed] = some signed := by
  cases signed <;> rfl

theorem isDecimalDigit_signLetter (signed : Bool) :
    isDecimalDigit (signLetter signed) = false := by
  cases signed <;> decide

theorem isVisible_signLetter (signed : Bool) : isVisible (signLetter signed) = true := by
  cases signed <;> decide

/-- A token has a name. -/
theorem name_ne_of_memberToken? {token : List Char} {parts : MemberToken}
    (h : memberToken? token = some parts) : parts.name.toList ≠ [] := by
  simp only [memberToken?] at h
  split at h
  · cases h
  · rename_i hname
    split at h
    · obtain ⟨⟨offset, afterOffset⟩, -, h⟩ := Option.bind_eq_some_iff.mp h
      split at h
      · obtain ⟨⟨width, afterWidth⟩, -, h⟩ := Option.bind_eq_some_iff.mp h
        obtain ⟨signed, -, h⟩ := Option.bind_eq_some_iff.mp h
        cases h
        rw [String.toList_ofList]
        exact fun hnil => hname (List.isEmpty_iff.mpr hnil)
      · cases h
    · cases h

end Probe

/-! ### Facts that were read -/

namespace MemberFact

/-- A fact that a token can state: the name is a word, and the numbers have no sign and can be
written. -/
structure Stated (fact : MemberFact) : Prop where
  name_ne : fact.name.toList ≠ []
  word : ∀ c ∈ fact.name.toList, isWordChar c = true
  offset_nonneg : 0 ≤ fact.offset
  offset_writable : Numeral.isWritable fact.offset = true
  width_nonneg : 0 ≤ fact.width
  width_writable : Numeral.isWritable fact.width = true

/-- Whatever is read off a token can be stated. -/
theorem stated_of_readMember {base : String} {token : List Char} {fact : MemberFact}
    (h : readMember base token = .ok fact) : fact.Stated := by
  unfold readMember at h
  split at h
  · cases h
  · rename_i parts hparts
    obtain ⟨offset, hoffset, h⟩ := bind_eq_ok_iff.mp h
    obtain ⟨width, hwidth, h⟩ := bind_eq_ok_iff.mp h
    cases h
    obtain ⟨hword, hoffsetDigits, hwidthDigits⟩ := wellFormed_of_memberToken? hparts
    -- Both numbers are read off decimal digits alone.
    have hnumber : ∀ {digits : String} {n : Int}, readNumber digits = .ok n →
        (∀ c ∈ digits.toList, isDecimalDigit c = true) → 0 ≤ n ∧ Numeral.isWritable n = true := by
      intro digits n hread hdecimal
      have hn := mapError_eq_ok_iff.mp hread
      refine ⟨?_, Numeral.isWritable_of_read hn⟩
      rw [← String.ofList_toList (s := digits)] at hn
      exact Numeral.nonneg_of_read
        (fun c hc => isDigitLike_of_isDecimalDigit (hdecimal c hc)) hn
    obtain ⟨hoffsetNonneg, hoffsetWritable⟩ := hnumber hoffset hoffsetDigits.2
    obtain ⟨hwidthNonneg, hwidthWritable⟩ := hnumber hwidth hwidthDigits.2
    exact ⟨name_ne_of_memberToken? hparts, hword, hoffsetNonneg, hoffsetWritable, hwidthNonneg,
      hwidthWritable⟩

variable {fact : MemberFact}

/-- The text of a fact, bracketed as it is read from the left. -/
theorem text_eq (fact : MemberFact) :
    fact.text = fact.name.toList ++ '@' :: ((toString fact.offset).toList ++
      '+' :: ((toString fact.width).toList ++ [signLetter fact.signed])) := by
  simp [text]

/-- Nothing is trimmed off the text of a fact: it starts with a word and ends with a letter. -/
theorem Stated.trimChars_text (h : fact.Stated) : trimChars fact.text = fact.text := by
  refine trimBy_eq_self_of_ends (fun c hc => ?_) fun c hc => ?_
  · obtain ⟨first, rest, hname⟩ := List.exists_cons_of_ne_nil h.name_ne
    rw [text_eq, hname] at hc
    cases hc
    exact isBlank_of_isWordChar (h.word c (hname ▸ List.mem_cons_self))
  · rw [text, List.getLast?_concat] at hc
    cases hc
    exact isBlank_of_isVisible (isVisible_signLetter fact.signed)

theorem Stated.comma_notMem_text (h : fact.Stated) : ',' ∉ fact.text := by
  have hname : ',' ∉ fact.name.toList := fun hmem =>
    ne_of_isWordChar (h.word ',' hmem) (by decide) rfl
  have hdigits : ∀ {n : Int}, 0 ≤ n → ',' ∉ (toString n).toList := fun hn hmem =>
    absurd ((Numeral.isDigits_toString hn).2 ',' hmem) (by decide)
  have hletter : ',' ≠ signLetter fact.signed := by
    cases fact.signed <;> decide
  simp only [text, List.mem_append, List.mem_cons, List.not_mem_nil, or_false, hname,
    hdigits h.offset_nonneg, hdigits h.width_nonneg, hletter, false_or]
  decide

/-- The text of a fact is taken apart into what it was made of. -/
theorem Stated.memberToken?_text (h : fact.Stated) :
    memberToken? fact.text
      = some ⟨fact.name, toString fact.offset, toString fact.width, fact.signed⟩ := by
  have hne : fact.name.toList.isEmpty = false := by simp [h.name_ne]
  have hat : isWordChar '@' = false := by decide
  have hoffset := splitDecimal?_append ((toString fact.width).toList ++ [signLetter fact.signed])
    (Numeral.isDigits_toString h.offset_nonneg) (by decide : isDecimalDigit '+' = false)
  have hwidth := splitDecimal?_append [] (Numeral.isDigits_toString h.width_nonneg)
    (isDecimalDigit_signLetter fact.signed)
  rw [memberToken?, h.trimChars_text, text_eq]
  simp only [takeWhile_append_cons _ h.word hat, dropWhile_append_cons _ h.word hat, hne, hoffset,
    hwidth, signOfLetter?_signLetter, Option.bind_eq_bind, Option.bind_some, String.ofList_toList]
  rfl

theorem Stated.readMember_text (h : fact.Stated) (base : String) :
    readMember base fact.text = .ok fact := by
  rw [readMember, h.memberToken?_text]
  simp only [readNumber, Numeral.read_toString h.offset_writable,
    Numeral.read_toString h.width_writable]
  rfl

end MemberFact

namespace Probe

/-- Facts that can be stated: those about the members can, and the size has no sign and can be
written. -/
structure StructFacts.Stated (facts : StructFacts) : Prop where
  size_nonneg : 0 ≤ facts.size
  size_writable : Numeral.isWritable facts.size = true
  members : ∀ fact ∈ facts.members, fact.Stated

/-- The text of facts: the size in decimal, and behind a comma each what is known of the members. -/
def StructFacts.text (facts : StructFacts) : List Char :=
  (toString facts.size).toList ++ facts.members.flatMap fun fact => ',' :: fact.text

/-- One fact is read off each token. -/
theorem length_of_readMembers {base : String} {tokens : List (List Char)} {facts : List MemberFact}
    (h : readMembers base tokens = .ok facts) : facts.length = tokens.length := by
  induction tokens generalizing facts with
  | nil =>
      cases h
      rfl
  | cons token tokens ih =>
      obtain ⟨fact, -, h⟩ := bind_eq_ok_iff.mp h
      obtain ⟨others, hothers, h⟩ := bind_eq_ok_iff.mp h
      cases h
      rw [List.length_cons, List.length_cons, ih hothers]

theorem stated_of_readMembers {base : String} {tokens : List (List Char)}
    {facts : List MemberFact} (h : readMembers base tokens = .ok facts) :
    ∀ fact ∈ facts, fact.Stated := by
  induction tokens generalizing facts with
  | nil =>
      cases h
      exact nofun
  | cons token tokens ih =>
      obtain ⟨fact, hfact, h⟩ := bind_eq_ok_iff.mp h
      obtain ⟨others, hothers, h⟩ := bind_eq_ok_iff.mp h
      cases h
      exact List.forall_mem_cons.mpr ⟨MemberFact.stated_of_readMember hfact, ih hothers⟩

/-- The texts of facts are read as the facts, in order. -/
theorem readMembers_texts {facts : List MemberFact} (base : String)
    (h : ∀ fact ∈ facts, fact.Stated) :
    readMembers base (facts.map MemberFact.text) = .ok facts := by
  induction facts with
  | nil => rfl
  | cons fact facts ih =>
      obtain ⟨hfact, hrest⟩ := List.forall_mem_cons.mp h
      rw [List.map_cons, readMembers, hfact.readMember_text, ih hrest]
      rfl

variable {facts : StructFacts}

/-- The text of facts starts with a digit, and ends with a digit or the letter of the last member.
So nothing is trimmed off it. -/
theorem StructFacts.Stated.trimChars_text (h : facts.Stated) :
    trimChars facts.text = facts.text := by
  have hsize := Numeral.isDigits_toString h.size_nonneg
  refine trimBy_eq_self_of_ends (fun c hc => ?_) fun c hc => ?_
  · obtain ⟨first, rest, hdigits⟩ := List.exists_cons_of_ne_nil hsize.1
    rw [text, hdigits] at hc
    cases hc
    exact isBlank_of_isVisible (hsize.visible c (hdigits ▸ List.mem_cons_self))
  · rcases List.eq_nil_or_concat facts.members with hnone | ⟨front, last, hlast⟩
    · rw [text, hnone, List.flatMap_nil, List.append_nil] at hc
      exact isBlank_of_isVisible (hsize.visible c (List.mem_of_getLast? hc))
    · rw [text, hlast, List.concat_eq_append, List.flatMap_append, List.flatMap_singleton,
        MemberFact.text, ← List.cons_append, ← List.append_assoc, ← List.append_assoc,
        List.getLast?_concat] at hc
      cases hc
      exact isBlank_of_isVisible (isVisible_signLetter last.signed)

/-- A text that is not empty and has nothing to trim is not blank. -/
theorem not_all_isBlank {cs : List Char} (htrim : trimChars cs = cs) (hne : cs ≠ []) :
    (!cs.all isBlank) = true := by
  rw [Bool.not_eq_true', ← Bool.not_eq_true, List.all_eq_true, ← trimBy_eq_nil_iff]
  intro hnil
  exact hne (htrim ▸ hnil)

/-- The text of facts falls into the size and the texts of the members. -/
theorem StructFacts.Stated.tokens_text (h : facts.Stated) :
    tokens facts.text = (toString facts.size).toList :: facts.members.map MemberFact.text := by
  have hsize := Numeral.isDigits_toString h.size_nonneg
  have hsplit : facts.text.splitOn ','
      = (toString facts.size).toList :: facts.members.map MemberFact.text := by
    rw [text, ← List.flatMap_map MemberFact.text (',' :: ·)]
    refine splitOn_flatMap_cons (fun hmem => absurd (hsize.2 ',' hmem) (by decide)) ?_
    intro text htext
    obtain ⟨fact, hfact, rfl⟩ := List.mem_map.mp htext
    exact (h.members fact hfact).comma_notMem_text
  rw [tokens, h.trimChars_text, hsplit, List.filter_eq_self]
  intro piece hpiece
  rcases List.mem_cons.mp hpiece with rfl | hpiece
  · exact not_all_isBlank hsize.visible.trimChars hsize.1
  · obtain ⟨fact, hfact, rfl⟩ := List.mem_map.mp hpiece
    exact not_all_isBlank (h.members fact hfact).trimChars_text (by simp [MemberFact.text])

/-- The text of facts is read as the facts. -/
theorem StructFacts.Stated.readStruct_text (h : facts.Stated) (base : String)
    {expected : Option (List String)}
    (hexpected : ∀ names, expected = some names → facts.members.map MemberFact.name = names) :
    readStruct base (String.ofList facts.text) expected = .ok facts := by
  have hsize := Numeral.isDigits_toString h.size_nonneg
  have hlike : (toString facts.size).toList.all isDigitLike = true :=
    List.all_eq_true.mpr fun c hc =>
      isDigitLike_of_isDecimalDigit (isDecimalDigit_of_isDigit (hsize.2 c hc))
  -- The expected members are the ones that the facts are about.
  have hcheck : checkMembers base facts.members expected = .ok () := by
    cases expected with
    | none => rfl
    | some names => exact checkMembers_eq_ok_iff.mpr (hexpected names rfl)
  rw [readStruct, String.toList_ofList, h.tokens_text]
  simp only [hsize.visible.trimChars, hlike, Bool.not_true, Bool.false_eq_true, if_false,
    String.ofList_toList]
  exact bind_eq_ok_iff.mpr ⟨facts.members, readMembers_texts base h.members,
    bind_eq_ok_iff.mpr ⟨(), hcheck, bind_eq_ok_iff.mpr
      ⟨facts.size, mapError_eq_ok_iff.mpr (Numeral.read_toString h.size_writable), rfl⟩⟩⟩

/-- What was read of a structure came from its tokens: one for the size, one for each member. -/
theorem of_readStruct {base value : String} {expected : Option (List String)}
    (h : readStruct base value expected = .ok facts) :
    facts.Stated ∧ (tokens value.toList).length = facts.members.length + 1 ∧
      ∀ names, expected = some names → facts.members.map MemberFact.name = names := by
  simp only [readStruct] at h
  split at h
  · cases h
  · rename_i first rest htokens
    split at h
    · cases h
    · rename_i hlike
      obtain ⟨members, hmembers, h⟩ := bind_eq_ok_iff.mp h
      obtain ⟨_, hcheck, h⟩ := bind_eq_ok_iff.mp h
      obtain ⟨size, hsize, h⟩ := bind_eq_ok_iff.mp h
      cases h
      have hread := mapError_eq_ok_iff.mp hsize
      have hdigits : ∀ c ∈ trimChars first, isDigitLike c = true := by
        simpa using hlike
      refine ⟨⟨Numeral.nonneg_of_read hdigits hread, Numeral.isWritable_of_read hread,
        stated_of_readMembers hmembers⟩, ?_, ?_⟩
      · rw [htokens, List.length_cons, length_of_readMembers hmembers]
      · rintro names rfl
        exact checkMembers_eq_ok_iff.mp hcheck

/-- A value that is read as facts has a piece that is not blank for the size and for each member.
Where members are expected, these are just the members. And the plain text of the facts is read as
the same facts again. -/
theorem readStruct_canonical {base value : String} {expected : Option (List String)}
    (h : readStruct base value expected = .ok facts) :
    ((value.toList.splitOn ',').filter fun piece => !piece.all isBlank).length
        = facts.members.length + 1 ∧
      (∀ names, expected = some names → facts.members.map MemberFact.name = names) ∧
      readStruct base (String.ofList facts.text) expected = .ok facts := by
  obtain ⟨hstated, hlength, hnames⟩ := of_readStruct h
  refine ⟨?_, hnames, hstated.readStruct_text base hnames⟩
  rw [length_tokens, hlength]

/-- Blank pieces, white space, leading zeros, digits of another script and a name that is no
identifier: the plain text has none of these but the name. -/
theorem readStruct_canonical_spread :
    readStruct "p" "\u2003٠٨ ,\t, é²@٠٠0+4s\u3000, x@٤+٠2u," (some ["é²", "x"])
        = .ok ⟨8, [⟨"é²", 0, 4, true⟩, ⟨"x", 4, 2, false⟩]⟩ ∧
      readStruct "p" "8,é²@0+4s,x@4+2u" (some ["é²", "x"])
        = .ok ⟨8, [⟨"é²", 0, 4, true⟩, ⟨"x", 4, 2, false⟩]⟩ := by
  have hread : readStruct "p" "\u2003٠٨ ,\t, é²@٠٠0+4s\u3000, x@٤+٠2u," (some ["é²", "x"])
      = .ok ⟨8, [⟨"é²", 0, 4, true⟩, ⟨"x", 4, 2, false⟩]⟩ := by
    decide +kernel
  have htext : String.ofList (StructFacts.text ⟨8, [⟨"é²", 0, 4, true⟩, ⟨"x", 4, 2, false⟩]⟩)
      = "8,é²@0+4s,x@4+2u" := by
    decide +kernel
  obtain ⟨-, -, hagain⟩ := readStruct_canonical hread
  rw [htext] at hagain
  exact ⟨hread, hagain⟩

end Probe

end HeaderBind
