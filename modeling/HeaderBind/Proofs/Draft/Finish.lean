import HeaderBind.Draft.Finish
import HeaderBind.Proofs.Effect

/-!
# `HeaderBind.Proofs.Draft.Finish`: finishing a draft, however the probe is run

`Draft.finish` is open in how the probe program is run. What it does to a state is therefore what
the run of the probe does to it: whatever the run keeps is kept (`keeps_finish`), two runs that
cannot be told apart finish alike (`related_finish`), and a run that is accepted after another one
was finishes with the same text (`follows_finish`). `of_finish` takes an accepted one apart.
-/

set_option autoImplicit false

namespace HeaderBind.Draft

open Effect

variable {σ σ' τ : Type} {part : σ → τ} {R : σ → σ' → Prop}
variable {run : String → EStateM Error σ String} {run' : String → EStateM Error σ' String}

theorem keeps_lift {α ε : Type} (wrap : ε → Error) (result : Except ε α) :
    Keeps part (lift wrap result : EStateM Error σ α) := by
  cases result with
  | ok value => exact keeps_pure value
  | error fault => exact keeps_throw (wrap fault)

theorem related_lift {α ε : Type} (wrap : ε → Error) (result : Except ε α) :
    Related R Eq (lift wrap result : EStateM Error σ α) (lift wrap result) := by
  cases result with
  | ok value => exact related_pure rfl
  | error fault => exact related_throw (wrap fault)

theorem keeps_resolve (hrun : ∀ source, Keeps part (run source)) (draft : Draft) :
    Keeps part (draft.resolve run) := by
  unfold resolve
  split
  · exact keeps_bind (hrun _) fun output => keeps_lift _ _
  · exact keeps_pure []

theorem related_resolve (hrun : ∀ source, Related R Eq (run source) (run' source))
    (draft : Draft) : Related R Eq (draft.resolve run) (draft.resolve run') := by
  unfold resolve
  split
  · refine related_bind (hrun _) ?_
    rintro output _ rfl
    exact related_lift _ _
  · exact related_pure rfl

/-- What every run of a probe keeps is kept. -/
theorem keeps_finish (hrun : ∀ source, Keeps part (run source)) (draft : Draft) :
    Keeps part (draft.finish run) := by
  unfold finish
  cases draft.name with
  | none => exact keeps_throw _
  | some name =>
      refine keeps_bind (keeps_resolve hrun draft) fun resolved => ?_
      exact keeps_bind (keeps_lift _ _) fun text => keeps_pure _

/-- Runs of the probe that cannot be told apart lead to the same text. -/
theorem related_finish (hrun : ∀ source, Related R Eq (run source) (run' source))
    (draft : Draft) : Related R Eq (draft.finish run) (draft.finish run') := by
  unfold finish
  cases draft.name with
  | none => exact related_throw _
  | some name =>
      refine related_bind (related_resolve hrun draft) ?_
      rintro resolved _ rfl
      refine related_bind (related_lift _ _) ?_
      rintro text _ rfl
      exact related_pure rfl

theorem follows_lift {α ε : Type} (wrap : ε → Error) (result : Except ε α) :
    Follows R Eq (lift wrap result : EStateM Error σ α) (lift wrap result) := by
  cases result with
  | ok value => exact follows_pure rfl
  | error fault => exact follows_throw (wrap fault) _

theorem follows_resolve (hrun : ∀ source, Follows R Eq (run source) (run' source))
    (draft : Draft) : Follows R Eq (draft.resolve run) (draft.resolve run') := by
  unfold resolve
  split
  · refine follows_bind (hrun _) ?_
    rintro output _ rfl
    exact follows_lift _ _
  · exact follows_pure rfl

/-- Where one run of the probe is accepted after another one, the draft is finished as it was. -/
theorem follows_finish (hrun : ∀ source, Follows R Eq (run source) (run' source))
    (draft : Draft) : Follows R Eq (draft.finish run) (draft.finish run') := by
  unfold finish
  cases draft.name with
  | none => exact follows_throw _ _
  | some name =>
      refine follows_bind (follows_resolve hrun draft) ?_
      rintro resolved _ rfl
      refine follows_bind (follows_lift _ _) ?_
      rintro text _ rfl
      exact follows_pure rfl

/-- What a draft is resolved to comes from the output of its probe. Where nothing waits, any output
will do. -/
theorem resolution_of_resolve {draft : Draft} {resolved : List Resolved} {s after : σ}
    (h : draft.resolve run s = .ok resolved after) :
    ∃ output, Resolution.resolve draft.declarations output = .ok resolved := by
  unfold resolve at h
  split at h
  · obtain ⟨output, middle, -, h⟩ := of_bind_ok h
    cases hresolve : Resolution.resolve draft.declarations output with
    | error fault => rw [hresolve] at h; cases h
    | ok made =>
        rw [hresolve] at h
        cases h
        exact ⟨output, hresolve⟩
  · rename_i hpending
    cases h
    have hempty : draft.declarations = [] := by simpa [isPending] using hpending
    rw [hempty]
    exact ⟨"", rfl⟩

/-- A finished draft has a name, its declarations were resolved, and their module was rendered. -/
theorem of_finish {draft next : Draft} {text : String} {s after : σ}
    (h : draft.finish run s = .ok (text, next) after) :
    ∃ name resolved, draft.name = some name ∧ draft.resolve run s = .ok resolved after ∧
      Module.render name draft.label (resolved.map Module.Entry.ofResolved) = .ok text ∧
      next = draft.cleared := by
  unfold finish at h
  cases hname : draft.name with
  | none => rw [hname] at h; cases h
  | some name =>
      rw [hname] at h
      obtain ⟨resolved, middle, hresolve, h⟩ := of_bind_ok h
      obtain ⟨made, final, hlift, h⟩ := of_bind_ok h
      cases h
      cases hrender : Module.render name draft.label (resolved.map Module.Entry.ofResolved) with
      | error fault => rw [hrender] at hlift; cases hlift
      | ok made =>
          rw [hrender] at hlift
          cases hlift
          exact ⟨name, resolved, rfl, hresolve, hrender, rfl⟩

end HeaderBind.Draft
