import HeaderBind.Proofs.Draft.Names
import HeaderBind.Proofs.Module.Routine

/-!
# `HeaderBind.Proofs.Module.Scope`: what the identifiers of a module stand for

An identifier in a routine stands for a variable of the routine, if one has that name. If none has,
it is looked up when the routine is called: it stands for what was bound under the name last at the
top of the module, and for what the language provides if nothing was. So a definition anywhere in
the module may capture an identifier of any routine (`bound?_append`).

A module is `Hygienic` if that happens nowhere: every identifier stands for what it was written for.
-/

set_option autoImplicit false

namespace HeaderBind.Module

/-- The names that a module binds for itself: those of `headerLines` and of its export lists. -/
def ownNames (entries : List Entry) : List String :=
  (if entries.any fun entry => !entry.isConstant then ["_struct", "UsageError"] else []) ++
    (if (exportedUnder .always entries).isEmpty then [] else [exportList]) ++
    (if (exportedUnder .onRequest entries).isEmpty then [] else [requestList])

/-- What the entries bind, in the order of the text. -/
def boundBy (entries : List Entry) : List Referent :=
  entries.flatMap fun entry => entry.definitions.map Definition.referent

/-- All that is bound at the top of a module, in the order of the text. -/
def scope (entries : List Entry) : List Referent :=
  (ownNames entries).map .own ++ boundBy entries

/-- What is bound under a name last. -/
def bound? (referents : List Referent) (name : String) : Option Referent :=
  referents.reverse.find? fun referent => referent.spelling == name

/-- What an identifier in a routine stands for. -/
def Routine.resolve (routine : Routine) (entries : List Entry) (name : String) : Referent :=
  if name ∈ routine.locals then .var name
  else (bound? (scope entries) name).getD (.builtin name)

/-- Every identifier in a routine stands for what it was written for. -/
def Hygienic (entries : List Entry) : Prop :=
  ∀ entry ∈ entries, ∀ routine ∈ entry.routines, ∀ referent ∈ routine.references,
    routine.resolve entries referent.spelling = referent

instance (entries : List Entry) : Decidable (Hygienic entries) :=
  inferInstanceAs (Decidable (∀ entry ∈ entries, ∀ routine ∈ entry.routines,
    ∀ referent ∈ routine.references, routine.resolve entries referent.spelling = referent))

/-! ### The last binding -/

section
variable {referents : List Referent} {name : String}

/-- What is bound behind others comes first. -/
theorem bound?_append (front behind : List Referent) (name : String) :
    bound? (front ++ behind) name = (bound? behind name).or (bound? front name) := by
  rw [bound?, List.reverse_append, List.find?_append, bound?, bound?]

theorem bound?_eq_none_iff :
    bound? referents name = none ↔ ∀ referent ∈ referents, referent.spelling ≠ name := by
  simp [bound?]

theorem of_bound?_eq_some {referent : Referent} (h : bound? referents name = some referent) :
    referent ∈ referents ∧ referent.spelling = name :=
  ⟨List.mem_reverse.mp (List.mem_of_find?_eq_some h), by simpa using List.find?_some h⟩

/-- What is alone in having its name is found by it. -/
theorem bound?_eq_some_of_unique {referent : Referent} (h : referent ∈ referents)
    (hunique : ∀ other ∈ referents, other.spelling = referent.spelling → other = referent) :
    bound? referents referent.spelling = some referent := by
  cases hbound : bound? referents referent.spelling with
  | none => exact absurd rfl (bound?_eq_none_iff.mp hbound referent h)
  | some other =>
      obtain ⟨hother, hspelling⟩ := of_bound?_eq_some hbound
      rw [hunique other hother hspelling]

end

/-! ### What entries bind -/

theorem mem_reservedSymbols_of_mem_ownNames {entries : List Entry} {name : String}
    (h : name ∈ ownNames entries) : name ∈ Draft.reservedSymbols := by
  have hall : ∀ structs always onRequest : Bool, ∀ name ∈
      (if structs then ["_struct", "UsageError"] else []) ++
        (if always then [] else [exportList]) ++ (if onRequest then [] else [requestList]),
      name ∈ Draft.reservedSymbols := by decide
  exact hall _ _ _ name h

/-- A module with a structure binds what the routines of structures need. -/
theorem mem_ownNames_of_struct {entries : List Entry} {s : Struct} {layout : Layout}
    (h : .struct s layout ∈ entries) {name : String} (hname : name ∈ ["_struct", "UsageError"]) :
    name ∈ ownNames entries := by
  have hstruct : (entries.any fun entry => !entry.isConstant) = true :=
    List.any_eq_true.mpr ⟨_, h, rfl⟩
  rw [ownNames, if_pos hstruct, List.append_assoc]
  exact List.mem_append_left _ hname

section
variable {entry : Entry} {entries : List Entry}

/-- The names that an entry binds are those of its declaration. -/
theorem mem_boundNames_iff {name : String} :
    name ∈ entry.declaration.boundNames
      ↔ ∃ definition ∈ entry.definitions, definition.referent.spelling = name := by
  cases entry with
  | constant c value =>
      show name ∈ [c.exposed] ↔ ∃ definition ∈ [_], _
      simp only [List.mem_singleton, exists_eq_left]
      exact eq_comm
  | struct s layout =>
      show name ∈ [s.encoder, s.decoder, Struct.formatName s.base] ↔ ∃ definition ∈ [_, _, _], _
      simp only [List.mem_cons, List.not_mem_nil, or_false, exists_eq_or_imp, exists_eq_left,
        Definition.referent, Referent.spelling]
      grind

theorem mem_boundBy_iff {referent : Referent} :
    referent ∈ boundBy entries
      ↔ ∃ entry ∈ entries, ∃ definition ∈ entry.definitions, definition.referent = referent := by
  simp only [boundBy, List.mem_flatMap, List.mem_map]

/-- What entries bind has the name of one of their declarations. -/
theorem exists_of_mem_boundBy {referent : Referent} (h : referent ∈ boundBy entries) :
    ∃ entry ∈ entries, referent.spelling ∈ entry.declaration.boundNames := by
  obtain ⟨entry, hentry, definition, hdefinition, rfl⟩ := mem_boundBy_iff.mp h
  exact ⟨entry, hentry, mem_boundNames_iff.mpr ⟨definition, hdefinition, rfl⟩⟩

theorem declaration_eq_struct_iff {s : Struct} :
    entry.declaration = .struct s ↔ ∃ layout, entry = .struct s layout := by
  cases entry <;> simp [Entry.declaration]

/-- No definition binds a builtin. -/
theorem referent_ne_builtin {definition : Definition} (h : definition ∈ entry.definitions)
    (name : String) : definition.referent ≠ .builtin name := by
  intro heq
  cases entry with
  | constant c value =>
      rw [List.mem_singleton.mp h] at heq
      cases heq
  | struct s layout =>
      simp only [Entry.definitions, List.mem_cons, List.not_mem_nil, or_false] at h
      rcases h with rfl | rfl | rfl <;> cases heq

/-- What a module binds is no builtin. -/
theorem ne_builtin_of_mem_scope {referent : Referent} (h : referent ∈ scope entries)
    (name : String) : referent ≠ .builtin name := by
  rcases List.mem_append.mp h with hown | hbound
  · obtain ⟨_, -, rfl⟩ := List.mem_map.mp hown
    intro heq
    cases heq
  · obtain ⟨_, -, _, hdefinition, rfl⟩ := mem_boundBy_iff.mp hbound
    exact referent_ne_builtin hdefinition name

end

/-- The name of a format starts with a mark that few names start with. -/
theorem formatName_ne {base name : String} (h : name.toList.head? ≠ some '_') :
    Struct.formatName base ≠ name := by
  rintro rfl
  rw [Struct.formatName, String.toList_append] at h
  exact h rfl

/-- The builtins that the routines call are named neither like what a module binds for itself, nor
like a format, nor like a variable. -/
theorem apart_of_mem_calledBuiltins {layout : Layout} {name : String}
    (h : name ∈ calledBuiltins layout) :
    name ∉ Draft.reservedSymbols ∧ name.toList.head? ≠ some '_' ∧
      name ∉ ["values", "tail", "exc", "data"] := by
  have hall : ∀ hasTail : Bool, ∀ name ∈
      "len" :: (if hasTail then ["isinstance", "bytes", "bytearray", "memoryview"] else []),
      name ∉ Draft.reservedSymbols ∧ name.toList.head? ≠ some '_' ∧
        name ∉ ["values", "tail", "exc", "data"] := by decide
  exact hall layout.hasTail name h

/-! ### What the routines of a structure find -/

/-- A builtin that the routines call is found exactly when no entry offers its name for export. -/
theorem bound?_eq_none_iff_of_called {entries : List Entry} {layout : Layout} {name : String}
    (hname : name ∈ calledBuiltins layout) :
    bound? (scope entries) name = none
      ↔ ∀ entry ∈ entries, name ∉ entry.declaration.exportedNames := by
  obtain ⟨hreserved, hmark, -⟩ := apart_of_mem_calledBuiltins hname
  rw [bound?_eq_none_iff]
  constructor
  · intro hfree entry hentry hexported
    obtain ⟨definition, hdefinition, hspelling⟩ :=
      mem_boundNames_iff.mp (List.mem_append_left entry.declaration.internalName?.toList hexported)
    have hbound := mem_boundBy_iff.mpr ⟨entry, hentry, definition, hdefinition, rfl⟩
    exact hfree _ (List.mem_append_right _ hbound) hspelling
  · -- Names that are not offered belong to the module itself or to a format.
    intro hfree referent hreferent hspelling
    rcases List.mem_append.mp hreferent with hown | hbound
    · obtain ⟨_, hname, rfl⟩ := List.mem_map.mp hown
      exact hreserved (hspelling ▸ mem_reservedSymbols_of_mem_ownNames hname)
    · obtain ⟨entry, hentry, hnames⟩ := exists_of_mem_boundBy hbound
      rw [hspelling] at hnames
      rcases List.mem_append.mp hnames with hexported | hinternal
      · exact hfree entry hentry hexported
      · cases entry with
        | constant c value => cases hinternal
        | struct other layout => exact formatName_ne hmark (List.mem_singleton.mp hinternal).symm

/-- Entries of declarations that a draft has taken in one after the other. -/
structure Unclashing (entries : List Entry) : Prop where
  /-- No entry binds a name that a module may bind for itself. -/
  unreserved : ∀ entry ∈ entries, ∀ name ∈ entry.declaration.boundNames,
    name ∉ Draft.reservedSymbols
  /-- No entry binds a name of an earlier one. -/
  fresh : entries.Pairwise fun earlier later =>
    ∀ name ∈ later.declaration.boundNames, name ∉ earlier.declaration.boundNames

namespace Unclashing

variable {entries : List Entry} {s : Struct} {layout : Layout}

/-- What a module binds for itself is not captured. -/
theorem bound?_own (h : Unclashing entries) {name : String} (hname : name ∈ ownNames entries) :
    bound? (scope entries) name = some (.own name) := by
  show bound? _ (Referent.own name).spelling = _
  refine bound?_eq_some_of_unique (List.mem_append_left _ (List.mem_map_of_mem hname)) ?_
  intro other hother hspelling
  rcases List.mem_append.mp hother with hown | hbound
  · obtain ⟨_, -, rfl⟩ := List.mem_map.mp hown
    exact congrArg Referent.own hspelling
  · obtain ⟨entry, hentry, hnames⟩ := exists_of_mem_boundBy hbound
    rw [hspelling] at hnames
    exact absurd (mem_reservedSymbols_of_mem_ownNames hname) (h.unreserved entry hentry _ hnames)

/-- Under the name of a format, what the structure binds last is found. -/
theorem bound?_formatName (h : Unclashing entries) (hmem : .struct s layout ∈ entries) :
    bound? (scope entries) (Struct.formatName s.base)
      = bound? [.format s, .encoder s, .decoder s] (Struct.formatName s.base) := by
  obtain ⟨front, behind, rfl⟩ := List.append_of_mem hmem
  -- The entries behind the structure bind other names.
  have hbehind : bound? (boundBy behind) (Struct.formatName s.base) = none := by
    refine bound?_eq_none_iff.mpr fun referent hreferent hspelling => ?_
    obtain ⟨entry, hentry, hnames⟩ := exists_of_mem_boundBy hreferent
    have hfresh := List.rel_of_pairwise_cons (List.pairwise_append.mp h.fresh).2.1 hentry _ hnames
    rw [hspelling] at hfresh
    exact hfresh (mem_boundNames_iff.mpr ⟨_, List.mem_cons_self, rfl⟩)
  have hscope : scope (front ++ .struct s layout :: behind)
      = (ownNames (front ++ .struct s layout :: behind)).map .own ++ boundBy front ++
          [.format s, .encoder s, .decoder s] ++ boundBy behind := by
    simp only [scope, boundBy, List.flatMap_append, List.flatMap_cons, List.append_assoc]
    rfl
  rw [hscope, bound?_append, hbehind, Option.none_or, bound?_append]
  exact Option.or_of_isSome (by simp [bound?, Referent.spelling])

/-- The format is found unless a routine, which is bound later, has its name. -/
theorem bound?_format_iff (h : Unclashing entries) (hmem : .struct s layout ∈ entries) :
    bound? (scope entries) (Struct.formatName s.base) = some (.format s) ↔ ¬ s.HidesFormat := by
  have hformat : bound? [.format s] (Struct.formatName s.base) = some (.format s) :=
    bound?_eq_some_of_unique List.mem_cons_self fun _ hother _ => List.mem_singleton.mp hother
  -- Behind the format stand the two routines, and what is behind comes first.
  rw [h.bound?_formatName hmem, ← List.singleton_append, bound?_append, hformat]
  cases hroutine : bound? [.encoder s, .decoder s] (Struct.formatName s.base) with
  | none =>
      rw [bound?_eq_none_iff] at hroutine
      simpa [Struct.HidesFormat, Referent.spelling, eq_comm] using hroutine
  | some routine =>
      obtain ⟨hmember, hspelling⟩ := of_bound?_eq_some hroutine
      have hhides : s.HidesFormat := by
        rw [Struct.HidesFormat, ← hspelling]
        exact List.mem_map_of_mem (f := Referent.spelling) hmember
      have hne : routine ≠ .format s := by
        rintro rfl
        simp at hmember
      simpa [hhides] using hne

/-! ### Hygiene -/

section
variable {routine : Routine} (hroutine : routine ∈ (Entry.struct s layout).routines)
include hroutine

/-- The routines find what the module binds for itself. -/
theorem resolve_own (h : Unclashing entries) (hmem : .struct s layout ∈ entries) {name : String}
    (hname : name ∈ ["_struct", "UsageError"]) :
    routine.resolve entries name = .own name := by
  have hvariable : name ∉ routine.locals := fun hvariable =>
    (by decide : ∀ name ∈ ["_struct", "UsageError"], name ∉ ["values", "tail", "exc", "data"])
      name hname (mem_locals hroutine hvariable)
  rw [Routine.resolve, if_neg hvariable, h.bound?_own (mem_ownNames_of_struct hmem hname)]
  rfl

/-- The routines find their format unless one of them hides it. -/
theorem resolve_format_iff (h : Unclashing entries) (hmem : .struct s layout ∈ entries) :
    routine.resolve entries (Struct.formatName s.base) = .format s ↔ ¬ s.HidesFormat := by
  have hvariable : Struct.formatName s.base ∉ routine.locals := fun hvariable =>
    formatName_ne ((by decide : ∀ name ∈ ["values", "tail", "exc", "data"],
      name.toList.head? ≠ some '_') _ (mem_locals hroutine hvariable)) rfl
  rw [Routine.resolve, if_neg hvariable, ← h.bound?_format_iff hmem]
  cases bound? (scope entries) (Struct.formatName s.base) with
  | none => simp
  | some referent => simp

/-- The routines find a builtin that they call unless some entry offers its name. -/
theorem resolve_builtin_iff {name : String} (hname : name ∈ calledBuiltins layout) :
    routine.resolve entries name = .builtin name
      ↔ ∀ entry ∈ entries, name ∉ entry.declaration.exportedNames := by
  have hvariable : name ∉ routine.locals := fun hvariable =>
    (apart_of_mem_calledBuiltins hname).2.2 (mem_locals hroutine hvariable)
  rw [Routine.resolve, if_neg hvariable, ← bound?_eq_none_iff_of_called hname]
  cases hbound : bound? (scope entries) name with
  | none => simp
  | some referent => simpa using ne_builtin_of_mem_scope (of_bound?_eq_some hbound).1 name

end

/-- Every identifier of every routine stands for what it was written for exactly when no entry
offers the name of a builtin that some routine calls, and no structure hides its own format. -/
theorem hygienic_iff (h : Unclashing entries) :
    Hygienic entries
      ↔ (∀ entry ∈ entries, ∀ name, entry.Calls name →
          ∀ other ∈ entries, name ∉ other.declaration.exportedNames) ∧
        ∀ s layout, .struct s layout ∈ entries → ¬ s.HidesFormat := by
  constructor
  · intro hhygienic
    refine ⟨?_, fun s layout hmem => ?_⟩
    · rintro (⟨c, value⟩ | ⟨s, layout⟩) hmem name hcalls
      · -- A constant has no routine that could call anything.
        obtain ⟨_, hroutine, -⟩ := hcalls
        cases hroutine
      · obtain ⟨routine, hroutine, hreference⟩ := id hcalls
        exact (resolve_builtin_iff hroutine (calls_struct_iff.mp hcalls)).mp
          (hhygienic _ hmem routine hroutine _ hreference)
    · -- Both routines read the format. One of them is enough.
      have hroutine : encoderRoutine s layout ∈ (Entry.struct s layout).routines :=
        mem_routines_struct.mpr (Or.inl rfl)
      refine (resolve_format_iff hroutine h hmem).mp (hhygienic _ hmem _ hroutine (.format s) ?_)
      rw [references_encoderRoutine]
      split <;> simp
  · rintro ⟨hcalls, hformats⟩ (⟨c, value⟩ | ⟨s, layout⟩) hmem routine hroutine referent hreference
    · cases hroutine
    · -- Variables come first, and nothing that a module binds for itself is captured.
      rcases mem_references hroutine hreference with ⟨name, hvariable, rfl⟩ | ⟨name, hname, rfl⟩ |
        hbound
      · exact if_pos hvariable
      · exact (resolve_builtin_iff hroutine hname).mpr
          (hcalls _ hmem name (calls_struct_iff.mpr hname))
      · simp only [List.mem_cons, List.not_mem_nil, or_false] at hbound
        rcases hbound with rfl | rfl | rfl
        · exact resolve_own hroutine h hmem List.mem_cons_self
        · exact resolve_own hroutine h hmem (List.mem_cons_of_mem _ List.mem_cons_self)
        · exact (resolve_format_iff hroutine h hmem).mpr (hformats s layout hmem)

end Unclashing

end HeaderBind.Module
