import HeaderBind.Proofs.Draft.Names

/-!
# `HeaderBind.Proofs.Draft.Book`: the book of a draft, read as sets

A draft keeps two lists beside its declarations: the keys, and the names that are taken. A check of
a new declaration looks at these lists and not at the declarations, so they have to say neither more
nor less than the declarations that wait.

`Mirrors` spells this out, and `Reachable.mirrors` says that it holds after every run of commands,
accepted or refused. All of it is read off `Booked`, which the runs are known to keep: there the
lists stand in the order of the declarations, here they are what a check makes of them.
-/

set_option autoImplicit false

namespace HeaderBind.Draft

/-- The keys and the taken names of a draft are those of the declarations that wait, and no two of
these get into each other's way. -/
structure Mirrors (draft : Draft) : Prop where
  /-- A key is in the book when a declaration that waits has it. -/
  mem_keys_iff : ∀ key, key ∈ draft.keys ↔ ∃ d ∈ draft.declarations, d.key = key
  /-- No two declarations have a key in common. -/
  keys_nodup : (draft.declarations.map Declaration.key).Nodup
  /-- A name is taken when it is reserved, offered by a declaration that waits, or the name of the
  format of one. -/
  mem_symbols_iff : ∀ symbol, symbol ∈ draft.symbols ↔ symbol ∈ reservedSymbols ∨
    ∃ d ∈ draft.declarations, symbol ∈ d.exportedNames ∨ d.internalName? = some symbol
  /-- The offered names are pairwise distinct. -/
  exported_nodup : (draft.declarations.flatMap Declaration.exportedNames).Nodup
  /-- None of them is reserved. -/
  exported_unreserved : ∀ name ∈ draft.declarations.flatMap Declaration.exportedNames,
    name ∉ reservedSymbols
  /-- Neither of two declarations offers the name of the format of the other one. -/
  formats_apart : draft.declarations.Pairwise fun earlier later =>
    (∀ name ∈ earlier.exportedNames, later.internalName? ≠ some name) ∧
      ∀ name ∈ later.exportedNames, earlier.internalName? ≠ some name

theorem mem_boundNames_iff {d : Declaration} {name : String} :
    name ∈ d.boundNames ↔ name ∈ d.exportedNames ∨ d.internalName? = some name := by
  rw [Declaration.boundNames, List.mem_append, Option.mem_toList]

/-- The names of formats are among those that later declarations were checked against. -/
theorem Booked.formats_apart {draft : Draft} (h : Booked draft) :
    draft.declarations.Pairwise fun earlier later =>
      (∀ name ∈ earlier.exportedNames, later.internalName? ≠ some name) ∧
        ∀ name ∈ later.exportedNames, earlier.internalName? ≠ some name := by
  refine h.fresh.imp fun {earlier later} hfresh => ⟨?_, ?_⟩
  · intro name hexported hformat
    exact hfresh name (mem_boundNames_iff.mpr (Or.inr hformat))
      (mem_boundNames_iff.mpr (Or.inl hexported))
  · intro name hexported hformat
    exact hfresh name (mem_boundNames_iff.mpr (Or.inl hexported))
      (mem_boundNames_iff.mpr (Or.inr hformat))

/-- After any run of commands, whatever the probes answer and whichever commands are refused, the
book of the draft mirrors the declarations that wait. -/
theorem Reachable.mirrors {draft : Draft} (h : Reachable draft) : Mirrors draft where
  mem_keys_iff := fun key => by rw [h.booked.keys, List.mem_map]
  keys_nodup := h.booked.keys ▸ h.booked.keys_nodup
  mem_symbols_iff := fun symbol => by
    rw [h.booked.symbols, topNames, List.mem_append, List.mem_flatMap]
    simp only [mem_boundNames_iff]
  exported_nodup := h.booked.exportedNames_nodup
  exported_unreserved := fun name hname => by
    obtain ⟨d, hd, hexported⟩ := List.mem_flatMap.mp hname
    exact h.booked.unreserved d hd name (mem_boundNames_iff.mpr (Or.inl hexported))
  formats_apart := h.booked.formats_apart

/-- A constant and a structure that wait after refusals: a key that was there already, a probe
without results, a reserved name, and a module without a place. -/
def refusedDraft : Draft :=
  drafted [.rename "demo", .addConstant "LIMIT" none, .addConstant "LIMIT" (some "MAX"), .finish,
    .addConstant "OTHER" (some "UsageError"),
    .addStruct "struct point" [.named "x" "numeric"] none none true, .write none .apply]

theorem mirrors_refusedDraft :
    Reachable refusedDraft ∧ refusedDraft.keys = ["LIMIT", "point"] ∧ Mirrors refusedDraft := by
  have hreachable : Reachable refusedDraft := reachable_drafted _
  exact ⟨hreachable, by decide, hreachable.mirrors⟩

end HeaderBind.Draft
