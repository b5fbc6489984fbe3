import HeaderBind.Draft.Finish
import HeaderBind.Proofs.Module.Scope

/-!
# `HeaderBind.Proofs.Draft.Hygiene`: which declared names capture what the routines call

The routines of a module call what the language provides: `len`, and with a tail four more. They
also read what the module binds for itself and the format of their structure. A draft refuses the
names that a module binds for itself, and every name that is there already. It knows nothing of the
names that the routines call, so a declaration can take one of them, and from then on every routine
of the module finds the declared value in its place.

`Reachable.hygienic_module_iff` says that after any run of commands this is all that can go wrong,
but for a structure with a routine that hides its own format. `not_hygienic_length` is a draft
where it goes wrong.
-/

set_option autoImplicit false

namespace HeaderBind.Draft

open HeaderBind.Module (Entry)

variable {draft : Draft} {entries : List Entry}

/-- By the book, the entries of a draft bind their names one after the other. -/
theorem Booked.unclashing (h : Booked draft)
    (hentries : entries.map Entry.declaration = draft.declarations) :
    Module.Unclashing entries where
  unreserved := fun _ hentry => h.unreserved _ (hentries ▸ List.mem_map_of_mem hentry)
  fresh := List.pairwise_map.mp (hentries ▸ h.fresh)

/-- After any run of commands, the lines of each entry are its comment and its definitions, and the
routines of each structure call exactly the builtins that are listed. All identifiers of all
routines stand for what they were written for exactly when no declaration offers the name of a
builtin that some routine calls, and no structure hides its own format. -/
theorem Reachable.hygienic_module_iff (h : Reachable draft)
    (hentries : entries.map Entry.declaration = draft.declarations) :
    (∀ entry ∈ entries, Module.entryLines entry
        = entry.comment ++ ["", ""].intercalate (entry.definitions.map Module.Definition.lines)) ∧
      (∀ s layout, Entry.struct s layout ∈ entries → ∀ name,
        (Entry.struct s layout).Calls name ↔ name ∈ Module.calledBuiltins layout) ∧
      (Module.Hygienic entries
        ↔ (∀ entry ∈ entries, ∀ name, entry.Calls name →
            ∀ d ∈ draft.declarations, name ∉ d.exportedNames) ∧
          ∀ s, .struct s ∈ draft.declarations → ¬ s.HidesFormat) := by
  refine ⟨fun entry _ => Module.entryLines_eq entry,
    fun s layout _ name => Module.calls_struct_iff, ?_⟩
  rw [(h.booked.unclashing hentries).hygienic_iff, ← hentries]
  refine and_congr ?_ ?_
  · simp only [List.forall_mem_map]
  · -- Each declared structure has an entry, whatever its layout is.
    constructor
    · intro hvisible s hs
      obtain ⟨entry, hentry, hdeclaration⟩ := List.mem_map.mp hs
      obtain ⟨layout, rfl⟩ := Module.declaration_eq_struct_iff.mp hdeclaration
      exact hvisible s layout hentry
    · intro hvisible s layout hentry
      exact hvisible s (List.mem_map_of_mem (f := Entry.declaration) hentry)

/-- The entries of a constant and a structure. -/
def pointEntries (exposed : String) (hasTail : Bool) : List Entry :=
  [.constant ⟨"LIMIT", exposed, .onRequest⟩ 7,
    .struct ⟨"struct point", "point", ["x"], "encode_point", "decode_point", hasTail, .onRequest⟩
      ⟨"point", .integer "x" ⟨.four, true⟩ :: (if hasTail then [.trailing] else []), 4⟩]

/-- No name of `pointDraft` is one that the routines call. -/
theorem hygienic_module_iff_pointDraft :
    (pointEntries "LIMIT" true).map Entry.declaration = pointDraft.declarations ∧
      Module.Hygienic (pointEntries "LIMIT" true) := by
  have hentries : (pointEntries "LIMIT" true).map Entry.declaration = pointDraft.declarations := by
    decide +kernel
  have hreachable : Reachable pointDraft := reachable_drafted _
  obtain ⟨-, hcalled, hiff⟩ := Reachable.hygienic_module_iff hreachable hentries
  have hapart : ∀ name ∈ ["len", "isinstance", "bytes", "bytearray", "memoryview"],
      ∀ d ∈ pointDraft.declarations, name ∉ d.exportedNames := by decide +kernel
  refine ⟨hentries, hiff.mpr ⟨?_, ?_⟩⟩
  · intro entry hentry name hcalls
    rcases List.mem_cons.mp hentry with rfl | hstruct
    · obtain ⟨_, hroutine, -⟩ := hcalls
      cases hroutine
    · cases List.mem_singleton.mp hstruct
      exact hapart name ((hcalled _ _ hentry name).mp hcalls)
  · intro s hs
    rw [← hentries] at hs
    rcases List.mem_cons.mp hs with h | hstruct
    · cases h
    · cases List.mem_singleton.mp hstruct
      decide

/-- A constant that is exposed as `len` in front of a structure. -/
def lengthDraft : Draft :=
  drafted [.rename "demo", .addConstant "LIMIT" (some "len"),
    .addStruct "struct point" [.named "x" "numeric"] none none false]

/-- The constant is accepted and the module is written. Both routines of the structure find the
value of the constant where they call `len`. -/
theorem not_hygienic_length :
    Reachable lengthDraft ∧
      (lengthDraft.finish (m := Except Error)
          fun _ => .ok "LIMIT=7\npoint=4,x@0+4s\n").toOption
        = some (Module.text "demo" "demo" (pointEntries "len" false), lengthDraft.cleared) ∧
      (pointEntries "len" false).map Entry.declaration = lengthDraft.declarations ∧
      (∃ entry ∈ pointEntries "len" false, entry.Calls "len") ∧
      (∃ d ∈ lengthDraft.declarations, "len" ∈ d.exportedNames) ∧
      (∀ entry ∈ pointEntries "len" false, ∀ routine ∈ entry.routines,
        routine.resolve (pointEntries "len" false) "len"
          = .constant ⟨"LIMIT", "len", .onRequest⟩) ∧
      ¬ Module.Hygienic (pointEntries "len" false) := by
  refine ⟨reachable_drafted _, ?_⟩
  decide +kernel

end HeaderBind.Draft
