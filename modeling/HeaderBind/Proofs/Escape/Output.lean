import HeaderBind.Proofs.Escape.Files
import HeaderBind.Proofs.Layout.Representable
import HeaderBind.Proofs.Resolution
import HeaderBind.Proofs.Text.Digit

/-!
# `HeaderBind.Proofs.Escape.Output`: outputs with a number that is not read

An output that makes no sense is refused as one, or the layout that follows from it is. Only a
number can end a resolution in another way, and only in the value of a structure: the reader of a
constant has a wording for every refusal of its numeral.

There are three such ways (`NumberFault`). A size may look like digits without being decimal ones,
since superscripts pass the test in front of the conversion. A number may have more digits than the
conversion takes. And a layout may be refused with a wording that shows such a number.

`resolve_reported_iff` says that these are all, for every list of declarations and every output. The
conditions follow the reader: what stands in front of the number has been read, so the number is
the first thing that is wrong.
-/

set_option autoImplicit false

namespace HeaderBind

open HeaderBind.Text

namespace Probe

/-! ### Numbers in the value of a structure -/

/-- The reading of a value that ends at a number. -/
def EndsAtNumber {α : Type} (result : Except StructFault α) : Prop :=
  ∃ cause, result = .error (.numeral cause)

section

variable {α β : Type}

theorem not_endsAtNumber_ok (value : α) : ¬ EndsAtNumber (.ok value) := by
  rintro ⟨cause, h⟩
  cases h

theorem not_endsAtNumber_form (fault : Fault) :
    ¬ EndsAtNumber (.error (.form fault) : Except StructFault α) := by
  rintro ⟨cause, h⟩
  cases h

theorem endsAtNumber_bind_iff {first : Except StructFault α} {next : α → Except StructFault β} :
    EndsAtNumber (first >>= next)
      ↔ EndsAtNumber first ∨ ∃ made, first = .ok made ∧ EndsAtNumber (next made) := by
  simp only [EndsAtNumber, bind_eq_error_iff]
  constructor
  · rintro ⟨cause, hfirst | ⟨made, hmade, hnext⟩⟩
    · exact .inl ⟨cause, hfirst⟩
    · exact .inr ⟨made, hmade, cause, hnext⟩
  · rintro (⟨cause, hfirst⟩ | ⟨made, hmade, cause, hnext⟩)
    · exact ⟨cause, .inl hfirst⟩
    · exact ⟨cause, .inr ⟨made, hmade, hnext⟩⟩

end

/-- A number is read, or the reading ends there. -/
theorem readNumber_cases (digits : String) :
    (∃ n, readNumber digits = .ok n) ∨ EndsAtNumber (readNumber digits) := by
  cases hread : Numeral.read digits with
  | ok n => exact .inl ⟨n, mapError_eq_ok_iff.mpr hread⟩
  | error cause => exact .inr ⟨cause, mapError_eq_error_iff.mpr ⟨cause, hread, rfl⟩⟩

/-- Of a text that looks like digits, a number is read unless a character is no decimal digit or
there are too many. -/
theorem endsAtNumber_readNumber_iff {cs : List Char} (hne : cs ≠ [])
    (hlike : ∀ c ∈ cs, isDigitLike c = true) :
    EndsAtNumber (readNumber (String.ofList cs))
      ↔ (∃ c ∈ cs, isDecimalDigit c = false) ∨ Numeral.digitLimit < cs.length := by
  have hread := Numeral.exists_read_iff hne hlike
  constructor
  · rintro ⟨cause, hcause⟩
    by_contra hgood
    obtain ⟨hdecimal, hlength⟩ := not_or.mp hgood
    obtain ⟨n, hn⟩ := hread.mpr ⟨fun c hc => by
      simpa using fun hfalse => hdecimal ⟨c, hc, hfalse⟩, Nat.le_of_not_lt hlength⟩
    rw [readNumber, hn] at hcause
    cases hcause
  · intro hbad
    refine (readNumber_cases _).resolve_left ?_
    rintro ⟨n, hn⟩
    obtain ⟨hdecimal, hlength⟩ := hread.mp ⟨n, mapError_eq_ok_iff.mp hn⟩
    rcases hbad with ⟨c, hc, hfalse⟩ | hlong
    · rw [hdecimal c hc] at hfalse
      cases hfalse
    · omega

/-- Of decimal digits, a number is read unless there are too many. -/
theorem endsAtNumber_readNumber_iff_of_decimal {digits : String}
    (h : digits ≠ "" ∧ ∀ c ∈ digits.toList, isDecimalDigit c = true) :
    EndsAtNumber (readNumber digits) ↔ Numeral.digitLimit < digits.length := by
  obtain ⟨hne, hdecimal⟩ := h
  have hchars : digits.toList ≠ [] := by
    intro hnil
    exact hne (String.toList_eq_nil_iff.mp hnil)
  have hiff := endsAtNumber_readNumber_iff hchars fun c hc =>
    isDigitLike_of_isDecimalDigit (hdecimal c hc)
  rw [String.ofList_toList, String.length_toList] at hiff
  rw [hiff, or_iff_right]
  rintro ⟨c, hc, hfalse⟩
  rw [hdecimal c hc] at hfalse
  cases hfalse

/-- A token of the right form with a number of too many digits in it. -/
def HasLongNumber (token : List Char) : Prop :=
  ∃ parts, memberToken? token = some parts ∧
    (Numeral.digitLimit < parts.offset.length ∨ Numeral.digitLimit < parts.width.length)

theorem endsAtNumber_readMember_iff {base : String} {token : List Char} :
    EndsAtNumber (readMember base token) ↔ HasLongNumber token := by
  unfold readMember HasLongNumber
  cases htoken : memberToken? token with
  | none =>
      refine iff_of_false (not_endsAtNumber_form _) ?_
      rintro ⟨parts, hparts, -⟩
      cases hparts
  | some parts =>
      obtain ⟨-, hoffset, hwidth⟩ := wellFormed_of_memberToken? htoken
      simp only [Option.some.injEq, exists_eq_left', endsAtNumber_bind_iff, not_endsAtNumber_ok,
        and_false, exists_false, or_false, endsAtNumber_readNumber_iff_of_decimal hoffset,
        endsAtNumber_readNumber_iff_of_decimal hwidth]
      constructor
      · exact Or.imp_right fun ⟨_, _, hlong⟩ => hlong
      · rintro (hlong | hlong)
        · exact .inl hlong
        · -- The width is looked at only if the offset was read.
          rcases readNumber_cases parts.offset with ⟨n, hn⟩ | hends
          · exact .inr ⟨n, hn, hlong⟩
          · exact .inl ((endsAtNumber_readNumber_iff_of_decimal hoffset).mp hends)

theorem endsAtNumber_readMembers_iff {base : String} {tokens : List (List Char)} :
    EndsAtNumber (readMembers base tokens)
      ↔ ∃ front token later facts, tokens = front ++ token :: later ∧
          readMembers base front = .ok facts ∧ HasLongNumber token := by
  induction tokens with
  | nil =>
      refine iff_of_false (not_endsAtNumber_ok _) ?_
      rintro ⟨front, token, later, facts, hsplit, -⟩
      simp at hsplit
  | cons token tokens ih =>
      simp only [readMembers, endsAtNumber_bind_iff, endsAtNumber_readMember_iff, ih,
        not_endsAtNumber_ok, and_false, exists_false, or_false]
      constructor
      · rintro (hlong | ⟨fact, hfact, front, other, later, facts, rfl, hfacts, hlong⟩)
        · exact ⟨[], token, tokens, [], rfl, rfl, hlong⟩
        · refine ⟨token :: front, other, later, fact :: facts, rfl, ?_, hlong⟩
          rw [readMembers, hfact, hfacts]
          rfl
      · rintro ⟨front, other, later, facts, hsplit, hfacts, hlong⟩
        cases front with
        | nil =>
            cases hsplit
            exact .inl hlong
        | cons first front =>
            cases hsplit
            rw [readMembers] at hfacts
            obtain ⟨fact, hfact, hfacts⟩ := bind_eq_ok_iff.mp hfacts
            obtain ⟨others, hothers, -⟩ := bind_eq_ok_iff.mp hfacts
            exact .inr ⟨fact, hfact, front, other, later, others, rfl, hothers, hlong⟩

/-- Members that are not the expected ones are a matter of the form. -/
theorem not_endsAtNumber_checkMembers {base : String} {facts : List MemberFact}
    {names : List String} : ¬ EndsAtNumber (checkMembers base facts (some names)) := by
  simp only [checkMembers]
  split
  · exact not_endsAtNumber_ok ()
  · exact not_endsAtNumber_form _

/-- A value of a structure in which a number is not read. -/
inductive ValueFault (base value : String) (names : List String) : Prop
  /-- A member has an offset or a width of too many digits. The size looks like digits, and the
  members in front of it have been read. -/
  | member {size token : List Char} {front later : List (List Char)} {facts : List MemberFact}
      (split : tokens value.toList = size :: (front ++ token :: later))
      (sizeLike : ∀ c ∈ trimChars size, isDigitLike c = true)
      (read : readMembers base front = .ok facts) (long : HasLongNumber token)
  /-- The size looks like digits and is not decimal, or has too many. The members have been read,
  and are the expected ones. -/
  | size {size : List Char} {rest : List (List Char)} {facts : List MemberFact}
      (split : tokens value.toList = size :: rest)
      (sizeLike : ∀ c ∈ trimChars size, isDigitLike c = true)
      (read : readMembers base rest = .ok facts)
      (expected : facts.map MemberFact.name = names)
      (bad : (∃ c ∈ trimChars size, isDecimalDigit c = false) ∨
        Numeral.digitLimit < (trimChars size).length)

/-- No piece of a value is blank. -/
theorem trimChars_ne_nil_of_mem_tokens {value piece : List Char} (h : piece ∈ tokens value) :
    trimChars piece ≠ [] := by
  have hblank : piece.all isBlank = false := by
    simpa using (List.mem_filter.mp h).2
  intro hnil
  rw [trimChars, trimBy_eq_nil_iff] at hnil
  rw [List.all_eq_true.mpr hnil] at hblank
  cases hblank

theorem endsAtNumber_readStruct_iff {base value : String} {names : List String} :
    EndsAtNumber (readStruct base value (some names)) ↔ ValueFault base value names := by
  unfold readStruct
  cases hsplit : tokens value.toList with
  | nil =>
      refine iff_of_false (not_endsAtNumber_form _) ?_
      rintro (⟨split, -⟩ | ⟨split, -⟩) <;>
        · rw [hsplit] at split
          cases split
  | cons size rest =>
      have hne : trimChars size ≠ [] :=
        trimChars_ne_nil_of_mem_tokens (hsplit ▸ List.mem_cons_self)
      by_cases hlike : ∀ c ∈ trimChars size, isDigitLike c = true
      · have hall : (trimChars size).all isDigitLike = true := List.all_eq_true.mpr hlike
        simp only [hall, Bool.not_true, Bool.false_eq_true, if_false, endsAtNumber_bind_iff,
          endsAtNumber_readMembers_iff, endsAtNumber_readNumber_iff hne hlike,
          not_endsAtNumber_ok, and_false, exists_false, or_false]
        constructor
        · rintro (⟨front, token, later, facts, rfl, hfacts, hlong⟩ |
            ⟨facts, hfacts, hcheck | ⟨_, hcheck, hbad⟩⟩)
          · exact .member hsplit hlike hfacts hlong
          · exact absurd hcheck not_endsAtNumber_checkMembers
          · exact .size hsplit hlike hfacts (checkMembers_eq_ok_iff.mp hcheck) hbad
        · rintro (⟨split, -, hfacts, hlong⟩ | ⟨split, -, hfacts, hexpected, hbad⟩)
          · rw [hsplit] at split
            cases split
            exact .inl ⟨_, _, _, _, rfl, hfacts, hlong⟩
          · rw [hsplit] at split
            cases split
            exact .inr ⟨_, hfacts, .inr ⟨(), checkMembers_eq_ok_iff.mpr hexpected, hbad⟩⟩
      · have hall : (trimChars size).all isDigitLike = false := by
          simpa using hlike
        simp only [hall, Bool.not_false, if_true]
        refine iff_of_false (not_endsAtNumber_form _) ?_
        rintro (⟨split, sizeLike, -⟩ | ⟨split, sizeLike, -⟩) <;>
          · rw [hsplit] at split
            cases split
            exact hlike sizeLike

end Probe

namespace Resolution

/-! ### Outcomes of a resolution -/

/-- A value of a structure with a number that is not read, or that the refusal of its layout would
have to show and cannot. -/
inductive NumberFault (s : Struct) (value : String) : Prop
  | value (fault : Probe.ValueFault s.base value s.members)
  | shown {facts : Probe.StructFacts} {fault : Layout.Fault}
      (read : Probe.readStruct s.base value (some s.members) = .ok facts)
      (refused : Layout.Complaint s.base facts.members (some facts.size) fault)
      (long : ∃ n ∈ fault.numbers, Numeral.isWritable n = false)

variable {found : Entries String}

theorem ofLayoutFault_eq_numeral_iff {fault : Layout.Fault} :
    (∃ cause, ofLayoutFault fault = .numeral cause)
      ↔ ∃ n ∈ fault.numbers, Numeral.isWritable n = false := by
  unfold ofLayoutFault
  split
  · rename_i hall
    refine iff_of_false nofun ?_
    rintro ⟨n, hn, hlong⟩
    rw [List.all_eq_true.mp hall n hn] at hlong
    cases hlong
  · rename_i hall
    refine iff_of_true ⟨_, rfl⟩ ?_
    simpa using hall

/-- Only the value of a structure has a number that can end a resolution. -/
theorem resolveOne_numeral_iff {declaration : Declaration} :
    (∃ cause, resolveOne found declaration = .error (.numeral cause))
      ↔ ∃ s value, declaration = .struct s ∧ Entries.get? found s.base = some value ∧
          NumberFault s value := by
  constructor
  · rintro ⟨cause, h⟩
    unfold resolveOne at h
    rcases bind_eq_error_iff.mp h with h | ⟨value, hvalue, h⟩
    · obtain ⟨_, -, hwrong⟩ := mapError_eq_error_iff.mp h
      cases hwrong
    · have hfound := Probe.require_eq_ok_iff_found.mp (mapError_eq_ok_iff.mp hvalue)
      cases declaration with
      | constant c =>
          rcases bind_eq_error_iff.mp h with h | ⟨n, -, h⟩
          · obtain ⟨_, -, hwrong⟩ := mapError_eq_error_iff.mp h
            cases hwrong
          · cases h
      | struct s =>
          refine ⟨s, value, rfl, hfound, ?_⟩
          rcases bind_eq_error_iff.mp h with h | ⟨facts, hfacts, h⟩
          · obtain ⟨fault, hread, hwrong⟩ := mapError_eq_error_iff.mp h
            cases fault with
            | form fault => cases hwrong
            | numeral fault =>
                exact .value (Probe.endsAtNumber_readStruct_iff.mp ⟨fault, hread⟩)
          · rcases bind_eq_error_iff.mp h with h | ⟨layout, -, h⟩
            · obtain ⟨fault, hrefused, hwrong⟩ := mapError_eq_error_iff.mp h
              exact .shown (mapError_eq_ok_iff.mp hfacts)
                (Layout.synthesize_eq_error_iff.mp hrefused)
                (ofLayoutFault_eq_numeral_iff.mp ⟨cause, hwrong⟩)
            · cases h
  · rintro ⟨s, value, rfl, hfound, hfault⟩
    have hvalue : (Probe.require found s.base).mapError Fault.probe = .ok value :=
      mapError_eq_ok_iff.mpr (Probe.require_eq_ok_iff_found.mpr hfound)
    cases hfault with
    | value hvalueFault =>
        obtain ⟨cause, hread⟩ := Probe.endsAtNumber_readStruct_iff.mpr hvalueFault
        refine ⟨cause, bind_eq_error_iff.mpr (.inr ⟨value, hvalue, ?_⟩)⟩
        exact bind_eq_error_iff.mpr (.inl (mapError_eq_error_iff.mpr ⟨_, hread, rfl⟩))
    | @shown facts fault hread hrefused hlong =>
        obtain ⟨cause, hcause⟩ := ofLayoutFault_eq_numeral_iff.mpr hlong
        have hfacts : (Probe.readStruct s.base value (some s.members)).mapError ofStructFault
            = .ok facts :=
          mapError_eq_ok_iff.mpr hread
        refine ⟨cause, bind_eq_error_iff.mpr (.inr ⟨value, hvalue, ?_⟩)⟩
        refine bind_eq_error_iff.mpr (.inr ⟨facts, hfacts, ?_⟩)
        exact bind_eq_error_iff.mpr (.inl (mapError_eq_error_iff.mpr
          ⟨fault, Layout.synthesize_eq_error_iff.mpr hrefused, hcause⟩))

/-- A resolution answers with a value, an error about the probe or one about the configuration,
unless it meets a structure whose value has such a number, all declarations in front of it being
resolved. -/
theorem resolve_reported_iff (declarations : List Declaration) (output : String) :
    ((∃ resolved, resolve declarations output = .ok resolved) ∨
      ∃ fault, resolve declarations output = .error fault ∧
        ((∃ cause, Error.ofResolution fault = .probe cause) ∨
          ∃ cause, Error.ofResolution fault = .configuration cause))
      ↔ ¬ ∃ front s later resolved value, declarations = front ++ .struct s :: later ∧
          resolve front output = .ok resolved ∧
          Entries.get? (Probe.results output) s.base = some value ∧ NumberFault s value := by
  have hnumeral : (∃ cause, resolve declarations output = .error (.numeral cause))
      ↔ ∃ front s later resolved value, declarations = front ++ .struct s :: later ∧
          resolve front output = .ok resolved ∧
          Entries.get? (Probe.results output) s.base = some value ∧ NumberFault s value := by
    constructor
    · rintro ⟨cause, h⟩
      obtain ⟨front, declaration, later, resolved, hsplit, hfront, hfault⟩ :=
        resolveAll_eq_error_iff.mp h
      obtain ⟨s, value, rfl, hfound, hbad⟩ := resolveOne_numeral_iff.mp ⟨cause, hfault⟩
      exact ⟨front, s, later, resolved, value, hsplit, hfront, hfound, hbad⟩
    · rintro ⟨front, s, later, resolved, value, hsplit, hfront, hfound, hbad⟩
      obtain ⟨cause, hfault⟩ := resolveOne_numeral_iff.mpr ⟨s, value, rfl, hfound, hbad⟩
      exact ⟨cause, resolveAll_eq_error_iff.mpr
        ⟨front, .struct s, later, resolved, hsplit, hfront, hfault⟩⟩
  rw [← hnumeral]
  cases resolve declarations output with
  | ok resolved => exact iff_of_true (.inl ⟨resolved, rfl⟩) nofun
  | error fault =>
      cases fault with
      | probe cause => exact iff_of_true (.inr ⟨_, rfl, .inl ⟨cause, rfl⟩⟩) nofun
      | layout cause => exact iff_of_true (.inr ⟨_, rfl, .inr ⟨_, rfl⟩⟩) nofun
      | numeral cause =>
          refine iff_of_false ?_ (not_not_intro ⟨cause, rfl⟩)
          rintro (⟨_, h⟩ | ⟨_, h, ⟨_, hwrong⟩ | ⟨_, hwrong⟩⟩)
          · cases h
          · cases h
            cases hwrong
          · cases h
            cases hwrong

/-- The size of a structure may be a superscript. It passes for a digit, and is then refused as a
numeral: the error is about neither the probe nor the configuration. -/
theorem resolve_superscript :
    ∃ s, Struct.make "point" [.named "x" Declaration.numericKind] .onRequest none none false
        = .ok s ∧
      resolve [.struct s] "point=²,x@0+4u" = .error (.numeral (.malformed "²")) ∧
      (Error.ofResolution (.numeral (.malformed "²"))).Escapes := by
  refine ⟨⟨"point", "point", ["x"], "encode_point", "decode_point", false, .onRequest⟩, ?_, ?_, rfl⟩
  · decide +kernel
  · decide +kernel

end Resolution

end HeaderBind
