import HeaderBind.Proofs.Artifact
import HeaderBind.Proofs.Module.Unbroken

/-!
# `HeaderBind.Proofs.Module.ReadBack`: which modules are read as they were written

A module is written as it is, and read with every line end made a line feed. So it is read as it was
written where there is no carriage return in it (`decodeText_encode`). In the module of a checked
configuration only two kinds of texts can have one (`Draft.lacks_return_of_finish`): the name of the
target, which only has to be there, and the names of structures, where any white space may stand
behind the word `struct`. All other texts are names.
-/

set_option autoImplicit false

namespace HeaderBind

open HeaderBind.Text

namespace Name

theorem lacks_return_of_isName {s : String} (h : isName s = true) : Lacks '\r' s := by
  -- What may stand behind an identifier is a line feed.
  rcases isName_iff.mp h with hname | ⟨cs, hcs, hname⟩
  · exact .of_isIdentifier (by decide) hname
  · have hvisible := not_mem_of_isIdentifier hname (c := '\r') (by decide)
    rw [Lacks, hcs]
    simpa using hvisible

theorem lacks_return_of_isModuleName {s : String} (h : isModuleName s = true) : Lacks '\r' s := by
  have hreturn : '\r' ∉ dropFinalNewline s.toList := fun hmem =>
    absurd (visible_of_isModuleName h '\r' hmem) (by decide)
  rcases eq_dropFinalNewline s.toList with hsame | hfeed
  · rwa [← hsame] at hreturn
  · rw [Lacks, hfeed]
    simpa using hreturn

end Name

/-- A module lacks a carriage return exactly when its lines do. -/
theorem Module.lacks_return_text_iff {name label : String} {entries : List Module.Entry} :
    Lacks '\r' (Module.text name label entries)
      ↔ ∀ line ∈ (Module.parts name label entries).flatten, Lacks '\r' line := by
  have hfeed : Lacks '\r' "\n" := (by decide : '\r' ∉ "\n".toList)
  have hbreaks : Lacks '\r' "\n\n\n" := (by decide : '\r' ∉ "\n\n\n".toList)
  rw [Module.text, Lacks.append_iff, Lacks.intercalate_iff hbreaks, and_iff_left hfeed]
  simp only [List.forall_mem_map, Lacks.intercalate_iff hfeed, List.forall_mem_flatten]

namespace Draft

/-- The texts of a declaration, apart from the name of a structure, are names. -/
theorem lacks_return_shown {d : Declaration} (hd : d.Named)
    (hname : ∀ s, d = .struct s → Lacks '\r' s.name)
    (hmembers : ∀ s, d = .struct s → ∀ member ∈ s.members, Unbroken member) :
    ∀ text ∈ d.shown, Lacks '\r' text := by
  cases d with
  | constant c => exact List.forall_mem_singleton.mpr (Name.lacks_return_of_isName hd)
  | struct s =>
      obtain ⟨hbase, hencoder, hdecoder⟩ := hd
      simp only [Declaration.shown, List.forall_mem_cons]
      exact ⟨hname s rfl, .of_isIdentifier (by decide) hbase,
        Name.lacks_return_of_isName hencoder, Name.lacks_return_of_isName hdecoder,
        fun member hmember => (hmembers s rfl member hmember).2⟩

end Draft

/-- A target of a configuration has no carriage return in its name, and none in the names of its
structures. -/
def Config.LacksReturns [Interpreter] (config : Json) (name : String) : Prop :=
  Lacks '\r' name ∧ ∀ draft, Draft.ofTarget config name none = .ok draft →
    ∀ s, .struct s ∈ draft.declarations → Lacks '\r' s.name

/-- The module of such a target of a checked configuration has no carriage return in it, whatever
the probe prints. -/
theorem Draft.lacks_return_of_finish [Interpreter] {σ : Type} {config : Json}
    (hcheck : Config.check config = .ok ()) {name text : String}
    (hlacks : Config.LacksReturns config name)
    {draft next : Draft} (hdraft : ofTarget config name none = .ok draft)
    {run : String → EStateM Error σ String} {s after : σ}
    (hfinish : draft.finish run s = .ok (text, next) after) : Lacks '\r' text := by
  obtain ⟨hname, hstructs⟩ := hlacks
  have hstructs := hstructs draft hdraft
  obtain ⟨target, module, items, -, -, hmodule, hitems, houtcome⟩ :=
    replayOutcome_ofTarget hcheck (mem_keys_of_ofTarget hdraft) none
  rw [hdraft] at houtcome
  cases houtcome with
  | all clear =>
      obtain ⟨_, resolved, hshown, hresolve, hrender, -⟩ := of_finish hfinish
      cases hshown
      obtain ⟨output, hresolution⟩ := resolution_of_resolve hresolve
      obtain ⟨hdeclarations, hmembers⟩ := Resolution.declaration_of_resolve hresolution
      rw [← Module.text_of_render hrender, Module.lacks_return_text_iff,
        Module.lacks_parts_iff (by decide)]
      refine ⟨?_, Name.lacks_return_of_isModuleName hmodule, ?_⟩
      · -- The label is the name of the target between quotes.
        show Lacks '\r' s!"target '{name}'"
        simp only [Lacks.append_iff, Lacks.toString_iff]
        exact ⟨⟨.of_ink (by decide) (by decide), hname⟩, .of_ink (by decide) (by decide)⟩
      · refine List.forall_mem_map.mpr fun r hr => ?_
        have hd : r.declaration ∈ declared .onRequest items := by
          have hmem := List.mem_map_of_mem (f := Resolved.declaration) hr
          rwa [hdeclarations] at hmem
        rw [Module.declaration_ofResolved]
        exact lacks_return_shown (named_of_mem_declared (fits_of_written hitems) hd)
          (fun s hs => hstructs s (hs ▸ hd)) fun s hs => hmembers s (hs ▸ hd)

end HeaderBind
