import HeaderBind.Proofs.Declaration
import HeaderBind.Proofs.Name
import HeaderBind.Proofs.Probe.Key
import HeaderBind.Proofs.Result
import HeaderBind.Proofs.Text.Trim

/-!
# `HeaderBind.Proofs.Declaration.Whole`: which names of a declaration are whole identifiers

Every name that a declaration carries was judged up to a line feed at its end, so what is accepted
is an identifier, or an identifier with a line feed behind it (`Accepted.isName_of_mem_names`).
Nothing else gets through, whatever the texts are. The name of a structure is trimmed before it is
judged, so its base is always a whole identifier (`Name.isIdentifier_structBase_of_isName`).

A key with a line feed behind it is printed by no probe, since a line ends there. `whole_iff` says
that these are the only names, and the only keys, that are not whole. `not_whole_lineFeed` is such a
name.
-/

set_option autoImplicit false

namespace HeaderBind

open HeaderBind.Text
open Declaration (MemberEntry)

/-! ### Names and line feeds -/

namespace Name

/-- A name is a whole identifier exactly when it does not end with a line feed. -/
theorem isIdentifier_iff_of_isName {s : String} (h : isName s = true) :
    isIdentifier s.toList = true ↔ s.toList.getLast? ≠ some '\n' := by
  constructor
  · intro hidentifier hlast
    exact not_mem_of_isIdentifier hidentifier (by decide) (List.mem_of_getLast? hlast)
  · intro hlast
    rcases isName_iff.mp h with hidentifier | ⟨cs, hcs, -⟩
    · exact hidentifier
    · exact absurd (by rw [hcs, List.getLast?_concat]) hlast

/-- The base of a trimmed name does not end with white space, so it is judged as a whole. -/
theorem isIdentifier_structBase_of_isName {s : String} (h : isName (structBase s) = true) :
    isIdentifier (structBase s).toList = true := by
  refine (isIdentifier_iff_of_isName h).mpr fun hlast => ?_
  -- What follows the word in front ends like the whole text.
  have hend : (trimChars s.toList).getLast? = some '\n' := by
    rw [structBase, String.toList_ofList] at hlast
    cases htag : afterStructTag? (trimChars s.toList) with
    | none => rwa [htag] at hlast
    | some base =>
        rw [htag, Option.getD_some] at hlast
        obtain ⟨c, rest, hcs, -, rfl⟩ := afterStructTag?_eq_some_iff.mp htag
        obtain ⟨blanks, hrest⟩ := List.dropWhile_suffix (l := rest) isBlank
        rw [hcs, ← hrest, List.getLast?_append, List.getLast?_cons, List.getLast?_append, hlast]
        rfl
  have hstays := stays_of_getLast?_trimBy hend
  exact absurd hstays (by decide)

theorem of_isBindable {s : String} (h : isBindable s = true) :
    isName s = true ∧ isKeyword s = false := by
  rwa [isBindable, Bool.and_eq_true, Bool.not_eq_true'] at h

end Name

/-! ### What is accepted -/

/-- What is made from a name and another one to expose it by, and when. -/
theorem Constant.make_eq_ok_iff {source : String} {exposed : Option String} {mode : ExportMode}
    {c : Constant} :
    make source exposed mode = .ok c ↔ c = ⟨source, chosenName exposed source, mode⟩ ∧
      Name.isName c.source = true ∧ Name.isBindable c.exposed = true := by
  simp only [make]
  constructor
  · intro h
    split at h
    · cases h
    · rename_i hsource
      split at h
      · cases h
      · rename_i hexposed
        cases h
        exact ⟨rfl, by simpa using hsource, by simpa using hexposed⟩
  · rintro ⟨rfl, hsource, hexposed⟩
    simp only [hsource, hexposed, Bool.not_true, Bool.false_eq_true, if_false]

/-- Each of the members that are accepted is a name. -/
theorem Struct.isName_of_checkMembers {owner : String} {seen members : List String}
    {entries : List MemberEntry} (h : checkMembers owner seen entries = .ok members) :
    ∀ member ∈ members, Name.isName member = true := by
  induction entries generalizing seen members with
  | nil =>
      cases h
      exact fun _ hmember => nomatch hmember
  | cons entry entries ih =>
      cases entry with
      | other shown =>
          cases shown <;> cases h
      | named name kind =>
          unfold checkMembers at h
          split at h
          · cases h
          · split at h
            · cases h
            · rename_i hname
              split at h
              · cases h
              · obtain ⟨rest, hrest, rfl⟩ := map_eq_ok_iff.mp h
                exact List.forall_mem_cons.mpr ⟨by simpa using hname, ih hrest⟩

namespace Declaration

/-- The names that a declaration carries. How the header names a structure is none of them: the
word `struct` may stand in front there. -/
def names : Declaration → List String
  | .constant c => [c.source, c.exposed]
  | .struct s => s.base :: s.encoder :: s.decoder :: s.members

theorem names_struct (s : Struct) :
    (struct s).names = s.base :: ((struct s).exportedNames ++ s.members) := rfl

/-- The declarations that are accepted, from whatever texts. -/
inductive Accepted : Declaration → Prop
  | constant {source : String} {exposed : Option String} {mode : ExportMode} {c : Constant}
      (made : Constant.make source exposed mode = .ok c) : Accepted (.constant c)
  | struct {name : String} {members : List MemberEntry} {mode : ExportMode}
      {encoder decoder : Option String} {hasTail : Bool} {s : Struct}
      (made : Struct.make name members mode encoder decoder hasTail = .ok s) :
      Accepted (.struct s)

namespace Accepted

variable {d : Declaration}

/-- What is offered for export can be bound. -/
theorem isBindable_of_mem_exportedNames (h : Accepted d) :
    ∀ name ∈ d.exportedNames, Name.isBindable name = true := by
  cases h with
  | constant made =>
      exact List.forall_mem_singleton.mpr (Constant.make_eq_ok_iff.mp made).2.2
  | struct made =>
      obtain ⟨-, -, -, -, -, -, -, hroutines, -⟩ := Struct.make_eq_ok_iff.mp made
      intro name hname
      simpa using List.find?_eq_none.mp hroutines name hname

/-- The base of a structure is a whole identifier. -/
theorem isIdentifier_base {s : Struct} (h : Accepted (.struct s)) :
    Name.isIdentifier s.base.toList = true := by
  cases h with
  | struct made =>
      obtain ⟨-, hbase, -, -, -, -, hname, -⟩ := Struct.make_eq_ok_iff.mp made
      rw [hbase] at hname ⊢
      exact Name.isIdentifier_structBase_of_isName hname

/-- Every name that is carried passed for one. -/
theorem isName_of_mem_names (h : Accepted d) : ∀ name ∈ d.names, Name.isName name = true := by
  have hexported : ∀ name ∈ d.exportedNames, Name.isName name = true := fun name hname =>
    (Name.of_isBindable (h.isBindable_of_mem_exportedNames name hname)).1
  cases h with
  | constant made =>
      exact List.forall_mem_cons.mpr ⟨(Constant.make_eq_ok_iff.mp made).2.1, hexported⟩
  | struct made =>
      obtain ⟨-, -, -, -, -, -, hbase, -, -, hmembers, -⟩ := Struct.make_eq_ok_iff.mp made
      rw [names_struct]
      exact List.forall_mem_cons.mpr ⟨hbase, List.forall_mem_append.mpr
        ⟨hexported, Struct.isName_of_checkMembers hmembers⟩⟩

/-- The key of a declaration is one of its names. -/
theorem key_mem_names : d.key ∈ d.names := by
  cases d <;> exact List.mem_cons_self

/-- The names of an accepted declaration are whole identifiers, nothing before or after them, but
for those that end with a line feed. Neither the base of a structure does, nor is a name that is
offered for export reserved. The declaration can have a result in the output of some probe exactly
when its key is whole. -/
theorem whole_iff (h : Accepted d) :
    (∀ name ∈ d.names, Name.isIdentifier name.toList = true ↔ name.toList.getLast? ≠ some '\n') ∧
      (∀ s, d = .struct s → Name.isIdentifier s.base.toList = true) ∧
      (∀ name ∈ d.exportedNames, Name.isKeyword name = false) ∧
      ((∃ output, d.key ∈ (Probe.results output).keys)
        ↔ Name.isIdentifier d.key.toList = true) := by
  refine ⟨fun name hname => Name.isIdentifier_iff_of_isName (h.isName_of_mem_names name hname), ?_,
    fun name hname => (Name.of_isBindable (h.isBindable_of_mem_exportedNames name hname)).2, ?_⟩
  · rintro s rfl
    exact h.isIdentifier_base
  · constructor
    · rintro ⟨output, hkey⟩
      refine (Name.isIdentifier_iff_of_isName (h.isName_of_mem_names _ key_mem_names)).mpr ?_
      -- A line feed is no word character.
      intro hlast
      have hword := Probe.isWordChar_of_mem_keys hkey '\n' (List.mem_of_getLast? hlast)
      exact absurd hword (by decide)
    · exact fun hidentifier => ⟨_, Probe.mem_keys_of_isIdentifier hidentifier⟩

end Accepted

/-- A structure with a name that ends with a line feed among its members. -/
theorem Accepted.whole_iff_point :
    ∃ s, Struct.make "struct point\n" [.named "x" "numeric", .named "y\n" "numeric"] .onRequest none
        none false = .ok s ∧ s.base = "point" ∧ s.members = ["x", "y\n"] ∧
      (∀ name ∈ (Declaration.struct s).names,
        Name.isIdentifier name.toList = true ↔ name.toList.getLast? ≠ some '\n') ∧
      ∃ output, "point" ∈ (Probe.results output).keys := by
  refine ⟨_, rfl, by decide +kernel, rfl, ?_⟩
  obtain ⟨hnames, hbase, -, hkey⟩ := Accepted.whole_iff (.struct (rfl : Struct.make "struct point\n"
    [.named "x" "numeric", .named "y\n" "numeric"] .onRequest none none false = .ok _))
  exact ⟨hnames, hkey.mpr (hbase _ rfl)⟩

/-- A constant with a line feed behind its name is accepted. Its names are no identifiers, and no
probe can print a result for it. -/
theorem not_whole_lineFeed :
    Accepted (.constant ⟨"MAX\n", "MAX\n", .onRequest⟩) ∧
      Name.isIdentifier "MAX\n".toList = false ∧
      ∀ output, "MAX\n" ∉ (Probe.results output).keys := by
  refine ⟨.constant (rfl : Constant.make "MAX\n" none .onRequest = .ok _), by decide, ?_⟩
  intro output hkey
  exact absurd (Probe.isWordChar_of_mem_keys hkey '\n' (by decide)) (by decide)

end Declaration

end HeaderBind
