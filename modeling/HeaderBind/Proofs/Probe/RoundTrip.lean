import HeaderBind.Proofs.Declaration
import HeaderBind.Proofs.Entries
import HeaderBind.Proofs.Probe.Canonical
import HeaderBind.Proofs.Probe.Key

/-!
# `HeaderBind.Proofs.Probe.RoundTrip`: what a probe prints is read back

The writer of the results is the text of a program and their reader is `Resolution.resolve`; they
have nothing in common but the form of a line. `resolve_of_run` says that they fit: whatever values
the declarations have on the machine, the lines that the literals in the text of the program print
for them are read as just these values, with any other lines in between.

The proof follows the reader. `resultOfLine?_line` finds the key and the value of a printed line,
`get?_results` finds the line of a declaration among all lines of the output, and
`resolveOne_of_value` reads its value. What is printed for a structure is the plain text of its
facts, which is read back as them (`StructFacts.Stated.readStruct_text`).
-/

set_option autoImplicit false

namespace HeaderBind

open HeaderBind.Text
open HeaderBind.Probe

namespace Probe

/-- Whatever fits one of the two widest types can be written. -/
theorem isWritable_of_range {n : Int} (low : -(signedLimit : Int) ≤ n)
    (high : n < unsignedLimit) : Numeral.isWritable n = true := by
  have hsigned : signedLimit = 9223372036854775808 := by decide
  have hunsigned : unsignedLimit = 18446744073709551616 := by decide
  have hpow : Nat.pow 10 20 = 100000000000000000000 := by decide
  have hlt : n.natAbs < Nat.pow 10 20 := by
    rw [hsigned] at low
    rw [hunsigned] at high
    rw [hpow]
    omega
  exact Numeral.isWritable_of_natAbs_lt hlt (by decide)

end Probe

namespace MemberFact

theorem visible_text {fact : MemberFact} (hname : Name.isIdentifier fact.name.toList = true) :
    Visible fact.text := by
  have hletter : isVisible (signLetter fact.signed) = true := by
    cases fact.signed <;> decide
  refine (((visible_of_isIdentifier hname).append ?_).append ?_).append ?_
  · exact (Numeral.visible_toString _).cons (by decide)
  · exact (Numeral.visible_toString _).cons (by decide)
  · exact Visible.nil.cons hletter

/-- What a probe reports about a member can be stated in a token. -/
theorem InRange.stated {fact : MemberFact} (h : fact.InRange)
    (hname : Name.isIdentifier fact.name.toList = true) : fact.Stated := by
  obtain ⟨hne, hword⟩ := isNameChar_of_isIdentifier hname
  refine ⟨hne, fun c hc => isWordChar_of_isNameChar (hword c hc), h.offset_nonneg, ?_,
    h.width_nonneg, ?_⟩
  · exact isWritable_of_range (Int.le_trans (by decide) h.offset_nonneg)
      (Int.lt_trans h.offset_lt (by decide))
  · exact isWritable_of_range (Int.le_trans (by decide) h.width_nonneg) h.width_lt

end MemberFact

namespace Resolved

/-! ### Values -/

theorem visible_value {r : Resolved} (h : r.Reported) : Visible r.value := by
  cases h with
  | constant name low high => exact Numeral.visible_toString _
  | @struct s facts layout name spelled members names size_nonneg size_lt inRange laidOut =>
      refine (Numeral.visible_toString _).append (Visible.flatMap fun fact hfact => ?_)
      refine (MemberFact.visible_text ?_).cons (by decide)
      exact names fact.name (members ▸ List.mem_map.mpr ⟨fact, hfact, rfl⟩)

/-- The value of a structure is read as the facts that it was made of. -/
theorem readStruct_value {s : Struct} {facts : StructFacts} {layout : Layout}
    (h : Reported (.struct s facts layout)) :
    readStruct s.base (String.ofList (value (.struct s facts layout))) (some s.members)
      = .ok facts := by
  cases h with
  | struct name spelled members names size_nonneg size_lt inRange laidOut =>
      have hstated : facts.Stated := by
        refine ⟨size_nonneg,
          isWritable_of_range (Int.le_trans (by decide) size_nonneg) size_lt, ?_⟩
        intro fact hfact
        exact (inRange fact hfact).stated
          (names fact.name (members ▸ List.mem_map.mpr ⟨fact, hfact, rfl⟩))
      refine hstated.readStruct_text s.base ?_
      intro expected hexpected
      cases hexpected
      exact members

/-- A declaration is resolved by the value that a run prints behind its key. -/
theorem resolveOne_of_value {r : Resolved} {found : Entries String} (h : r.Reported)
    (hfound : Entries.get? found r.declaration.key = some (String.ofList r.value)) :
    Resolution.resolveOne found r.declaration = .ok r := by
  have hrequire : require found r.declaration.key = .ok (String.ofList r.value) := by
    rw [require, hfound]
  cases h with
  | @constant c n name low high =>
      have hread : readConstant c.source (String.ofList (value (.constant c n))) = .ok n := by
        rw [value, String.ofList_toList, readConstant, (Numeral.visible_toString n).trim,
          Numeral.read_toString (isWritable_of_range low high)]
      exact Resolution.resolveOne_constant_eq_ok_iff.mpr ⟨_, n, hrequire, hread, rfl⟩
  | @struct s facts layout name spelled members names size_nonneg size_lt inRange laidOut =>
      have hread := readStruct_value
        (.struct name spelled members names size_nonneg size_lt inRange laidOut)
      exact Resolution.resolveOne_struct_eq_ok_iff.mpr
        ⟨_, facts, layout, hrequire, hread, laidOut, rfl⟩

/-! ### Lines -/

theorem isIdentifier_key {r : Resolved} (h : r.Reported) :
    Name.isIdentifier r.declaration.key.toList = true := by
  cases h with
  | constant name low high => exact name
  | struct name spelled members names size_nonneg size_lt inRange laidOut => exact name

theorem visible_line {r : Resolved} (h : r.Reported) : Visible r.line :=
  (visible_of_isIdentifier (isIdentifier_key h)).append ((visible_value h).cons (by decide))

/-- A printed line is a result: the key of the declaration and the value behind it. -/
theorem resultOfLine?_line {r : Resolved} (h : r.Reported) :
    resultOfLine? r.line = some (r.declaration.key, String.ofList r.value) :=
  resultOfLine?_of_isIdentifier (isIdentifier_key h) (visible_value h)

end Resolved

namespace Probe

/-- A line that is no result for any of the keys: without the blanks around it, it does not start
with one of them and an equals sign. -/
def IsNoise (keys : List String) (line : List Char) : Prop :=
  ∀ key ∈ keys, ¬ (key.toList ++ ['=']) <+: trimChars line

/-- The lines of an output into which further lines were put, all of them noise. -/
inductive Inserted (keys : List String) : (printed output : List (List Char)) → Prop
  | nil : Inserted keys [] []
  | printed {printed output : List (List Char)} (line : List Char)
      (rest : Inserted keys printed output) : Inserted keys (line :: printed) (line :: output)
  | noise {printed output : List (List Char)} {line : List Char} (noise : IsNoise keys line)
      (rest : Inserted keys printed output) : Inserted keys printed (line :: output)

/-- Nothing that was printed is lost. -/
theorem Inserted.subset {keys : List String} {printed output : List (List Char)}
    (h : Inserted keys printed output) : ∀ line ∈ printed, line ∈ output := by
  induction h with
  | nil => exact fun _ hline => hline
  | printed line _ ih =>
      intro other hother
      rcases List.mem_cons.mp hother with rfl | hother
      · exact List.mem_cons_self
      · exact List.mem_cons_of_mem line (ih other hother)
  | noise _ _ ih => exact fun other hother => List.mem_cons_of_mem _ (ih other hother)

/-- What was not printed is noise. -/
theorem Inserted.mem_or_isNoise {keys : List String} {printed output : List (List Char)}
    (h : Inserted keys printed output) :
    ∀ line ∈ output, line ∈ printed ∨ IsNoise keys line := by
  induction h with
  | nil => exact fun _ hline => Or.inl hline
  | printed line _ ih =>
      intro other hother
      rcases List.mem_cons.mp hother with rfl | hother
      · exact Or.inl List.mem_cons_self
      · exact (ih other hother).imp_left (List.mem_cons_of_mem line)
  | noise hnoise _ ih =>
      intro other hother
      rcases List.mem_cons.mp hother with rfl | hother
      · exact Or.inr hnoise
      · exact ih other hother

/-- A result of noise has none of the keys. -/
theorem key_notMem_of_isNoise {keys : List String} {line : List Char} {result : String × String}
    (h : IsNoise keys line) (hresult : resultOfLine? line = some result) : result.1 ∉ keys := by
  intro hkey
  refine h result.1 hkey ?_
  have hsplit : (trimChars line).takeWhile isWordChar ++ (trimChars line).dropWhile isWordChar
      = trimChars line := List.takeWhile_append_dropWhile
  simp only [resultOfLine?] at hresult
  split at hresult
  · rename_i c cs value hword hrest
    cases hresult
    rw [hrest] at hsplit
    refine ⟨value, ?_⟩
    rw [String.toList_ofList, List.append_assoc]
    exact hsplit
  · cases hresult

end Probe

namespace Resolved

/-- Declarations with different keys are told apart by them. -/
theorem eq_of_key_eq {rs : List Resolved} (hkeys : (rs.map fun r => r.declaration.key).Nodup)
    {r other : Resolved} (hr : r ∈ rs) (hother : other ∈ rs)
    (hkey : other.declaration.key = r.declaration.key) : other = r := by
  rw [List.map_eq_flatMap] at hkeys
  exact eq_of_mem_of_nodup_flatMap hkeys hother hr (List.mem_singleton.mpr rfl)
    (List.mem_singleton.mpr hkey)

/-- The value of a declaration is found under its key, whatever else was printed. -/
theorem get?_results {rs : List Resolved} {output : String} {r : Resolved}
    (hreported : ∀ r ∈ rs, r.Reported) (hkeys : (rs.map fun r => r.declaration.key).Nodup)
    (hinserted : Inserted (rs.map fun r => r.declaration.key) (rs.map line)
      (splitLines output.toList)) (hr : r ∈ rs) :
    Entries.get? (results output) r.declaration.key = some (String.ofList r.value) := by
  refine Entries.get?_ofList ?_ fun pair hpair hkey => ?_
  · exact List.mem_filterMap.mpr ⟨r.line,
      hinserted.subset _ (List.mem_map.mpr ⟨r, hr, rfl⟩), resultOfLine?_line (hreported r hr)⟩
  · obtain ⟨text, htext, hresult⟩ := List.mem_filterMap.mp hpair
    rcases hinserted.mem_or_isNoise text htext with hprinted | hnoise
    · obtain ⟨other, hother, rfl⟩ := List.mem_map.mp hprinted
      rw [resultOfLine?_line (hreported other hother)] at hresult
      cases hresult
      rw [eq_of_key_eq hkeys hr hother hkey]
    · -- The key of noise is none of the declared ones.
      refine absurd ?_ (key_notMem_of_isNoise hnoise hresult)
      rw [hkey]
      exact List.mem_map.mpr ⟨r, hr, rfl⟩

/-- The probe and the reader of its output are inverse to each other. Take any declarations with
different keys whose names are ASCII identifiers, and any values for them. Behind the literals that
the headers bring, the text of the program has literals that can be expanded with these values, all
of them and in order. What they print can be read, with any noise between the lines, and gives back
each declaration with just the values it had. -/
theorem resolve_of_run (includes : List Include) {rs : List Resolved}
    (hreported : ∀ r ∈ rs, r.Reported) (hkeys : (rs.map fun r => r.declaration.key).Nodup) :
    ∃ literals printed,
      formats (source includes (rs.map declaration)) = formats (source includes []) ++ literals ∧
      expandAll literals (rs.flatMap expansions) = some printed ∧
      ∀ output : String,
        Inserted (rs.map fun r => r.declaration.key) (splitLines printed)
          (splitLines output.toList) →
        Resolution.resolve (rs.map declaration) output = .ok rs := by
  have hformats := formats_source includes
    (List.forall_mem_map.mpr fun r hr => (hreported r hr).identified)
  rw [List.flatMap_map] at hformats
  have hprinted := expandAll_flatMap fun r hr => expandAll_literals (hreported r hr)
  have hlines : splitLines (rs.flatMap fun r => r.line ++ ['\n']) = rs.map line := by
    rw [← List.flatMap_map line (· ++ ['\n'])]
    refine splitLines_flatMap_newline fun text htext => ?_
    obtain ⟨r, hr, rfl⟩ := List.mem_map.mp htext
    exact visible_line (hreported r hr)
  refine ⟨_, _, hformats, hprinted, fun output hinserted => ?_⟩
  rw [hlines] at hinserted
  refine Resolution.resolveAll_eq_ok_iff.mpr ⟨rfl, fun r hr => ?_⟩
  exact resolveOne_of_value (hreported r hr) (get?_results hreported hkeys hinserted hr)

/-- A negative constant, one above the signed range, and a structure with a gap. -/
def sample : List Resolved :=
  [.constant ⟨"LOWEST", "LOWEST", .always⟩ (-5),
    .constant ⟨"HIGHEST", "TOP", .hidden⟩ 18446744073709551615,
    .struct ⟨"struct point", "point", ["x", "y"], "encode_point", "decode_point", false, .onRequest⟩
      ⟨8, [⟨"x", 0, 4, true⟩, ⟨"y", 6, 2, false⟩]⟩
      ⟨"point", [.integer "x" ⟨.four, true⟩, .padding 2, .integer "y" ⟨.two, false⟩], 8⟩]

theorem reported_sample : ∀ r ∈ sample, r.Reported := by
  intro r hr
  simp only [sample, List.mem_cons, List.not_mem_nil, or_false] at hr
  rcases hr with rfl | rfl | rfl
  · exact .constant (by decide) (by decide) (by decide)
  · exact .constant (by decide) (by decide) (by decide)
  · refine .struct (by decide) (by decide) rfl (by decide) (by decide) (by decide) ?_ rfl
    intro fact hfact
    simp only [List.mem_cons, List.not_mem_nil, or_false] at hfact
    rcases hfact with rfl | rfl
    · exact ⟨by decide, by decide, by decide, by decide⟩
    · exact ⟨by decide, by decide, by decide, by decide⟩

/-- The literals in the program for the sample. -/
def sampleFormats : List (List Char) :=
  ["LOWEST=%lld\\n", "LOWEST=%llu\\n", "HIGHEST=%lld\\n", "HIGHEST=%llu\\n", "point=%lu",
    ",x@%ld+%lu%c", ",y@%ld+%lu%c", "\\n"].map String.toList

/-- The headers bring no literal, and the calls for the declarations have the ones above. -/
theorem formats_sample :
    formats (source [⟨"limits.h", false⟩] []) = [] ∧
      formats (source [⟨"limits.h", false⟩] (sample.map declaration)) = sampleFormats := by
  have hheaders : formats (source [⟨"limits.h", false⟩] []) = [] := by decide +kernel
  refine ⟨hheaders, ?_⟩
  rw [formats_source _ (List.forall_mem_map.mpr fun r hr => (reported_sample r hr).identified),
    hheaders]
  decide

theorem expandAll_sample :
    expandAll sampleFormats (sample.flatMap expansions)
      = some "LOWEST=-5\nHIGHEST=18446744073709551615\npoint=8,x@0+4s,y@6+2u\n".toList := by
  decide

/-- The sample is read back from between a warning and an empty line. -/
theorem resolve_of_run_sample :
    formats (source [⟨"limits.h", false⟩] (sample.map declaration)) = sampleFormats ∧
      Resolution.resolve (sample.map declaration)
          ("LOWEST=-5\nwarning: HIGHEST=0\r\nHIGHEST=" ++
            "18446744073709551615\n\npoint=8,x@0+4s,y@6+2u\n")
        = .ok sample := by
  obtain ⟨literals, printed, hformats, hprinted, hread⟩ :=
    resolve_of_run [⟨"limits.h", false⟩] reported_sample (by decide)
  rw [formats_sample.2, formats_sample.1, List.nil_append] at hformats
  rw [← hformats, expandAll_sample] at hprinted
  cases hprinted
  have hprintedLines : splitLines
      "LOWEST=-5\nHIGHEST=18446744073709551615\npoint=8,x@0+4s,y@6+2u\n".toList
        = ["LOWEST=-5".toList, "HIGHEST=18446744073709551615".toList,
          "point=8,x@0+4s,y@6+2u".toList] := by
    decide
  have houtputLines : splitLines ("LOWEST=-5\nwarning: HIGHEST=0\r\nHIGHEST=" ++
      "18446744073709551615\n\npoint=8,x@0+4s,y@6+2u\n").toList
        = ["LOWEST=-5".toList, "warning: HIGHEST=0".toList, "HIGHEST=18446744073709551615".toList,
          [], "point=8,x@0+4s,y@6+2u".toList] := by
    decide
  refine ⟨formats_sample.2, hread _ ?_⟩
  rw [hprintedLines, houtputLines]
  have hwarning : IsNoise ["LOWEST", "HIGHEST", "point"] "warning: HIGHEST=0".toList := by
    unfold IsNoise
    decide
  have hempty : IsNoise ["LOWEST", "HIGHEST", "point"] [] := by
    unfold IsNoise
    decide
  exact .printed _ (.noise hwarning (.printed _ (.noise hempty (.printed _ .nil))))

end Resolved

end HeaderBind
