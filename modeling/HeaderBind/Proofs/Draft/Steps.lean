import HeaderBind.Draft.Command
import HeaderBind.Proofs.Effect

/-!
# `HeaderBind.Proofs.Draft.Steps`: a refused operation leaves the draft at hand

An operation on a draft is a program of checks and changes, and what it has changed when it is
refused stays changed. None of them has changed anything by then: every check stands in front of
every change (`Atomic`). So each program is known from its outcome alone (`Atomic.apply_eq`), and
what it comes to can be said without steps: `register_eq` and its likes.

This is a property of the order of the steps. In `register` the two books and the list of
declarations are updated one by one, behind the last name that may be refused (`demandAllFree_apply`
walks over the names); an update in front of it would be left behind by a refusal.
-/

set_option autoImplicit false

namespace HeaderBind

open Effect (bind_apply get_bind_apply)

namespace DraftAction

open Draft (Fault)

variable {α β : Type}

/-- A refusal leaves the draft that the operation was to change. -/
def Atomic (act : DraftAction α) : Prop :=
  ∀ (draft left : Draft) (fault : Fault), act draft = .error fault left → left = draft

/-- An operation of this kind is known from its outcome. -/
theorem Atomic.apply_eq {act : DraftAction α} (h : Atomic act) (draft : Draft) :
    act draft
      = match Draft.outcome act draft with
        | .ok (value, next) => .ok value next
        | .error fault => .error fault draft := by
  rw [Draft.outcome]
  cases hrun : act draft with
  | ok value next => rfl
  | error fault left => rw [h draft left fault hrun]

/-- An operation whose run is its outcome is of this kind. -/
theorem Atomic.of_apply (act : DraftAction α) (result : Draft → Except Fault (α × Draft))
    (h : ∀ draft, act draft
      = match result draft with
        | .ok (value, next) => .ok value next
        | .error fault => .error fault draft) :
    Atomic act ∧ ∀ draft, Draft.outcome act draft = result draft := by
  refine ⟨fun draft left fault hrun => ?_, fun draft => ?_⟩
  · rw [h draft] at hrun
    cases hresult : result draft <;> rw [hresult] at hrun <;> cases hrun
    rfl
  · rw [Draft.outcome, h draft]
    cases result draft <;> rfl

/-! ### Steps -/

theorem demand_bind_apply (holds : Bool) (fault : Fault) (next : Unit → DraftAction α)
    (draft : Draft) :
    (demand holds fault >>= next) draft = if holds then next () draft else .error fault draft := by
  cases holds <;> rfl

theorem lift_bind_apply {ε : Type} (wrap : ε → Fault) (made : Except ε β)
    (next : β → DraftAction α) (draft : Draft) :
    (lift wrap made >>= next) draft
      = match made with
        | .ok value => next value draft
        | .error fault => .error (wrap fault) draft := by
  cases made <;> rfl

theorem modify_bind_apply (change : Draft → Draft) (next : Unit → DraftAction α) (draft : Draft) :
    ((modify change : DraftAction Unit) >>= next) draft = next () (change draft) := rfl

/-- Names are demanded one after the other, and nothing changes: the first one that is taken is
refused. -/
theorem demandAllFree_apply (names : List String) (next : Unit → DraftAction α) (draft : Draft) :
    (names.forM demandFree >>= next) draft
      = match names.find? draft.symbols.contains with
        | some symbol => .error (.takenSymbol symbol draft.name) draft
        | none => next () draft := by
  induction names with
  | nil => rfl
  | cons name names ih =>
      show ((demandFree name >>= fun _ => names.forM demandFree) >>= next) draft = _
      rw [bind_assoc, demandFree, bind_assoc, get_bind_apply, demand_bind_apply, List.find?_cons]
      cases draft.symbols.contains name with
      | true => rfl
      | false => exact ih

end DraftAction

namespace Draft

open DraftAction

variable {draft : Draft}

/-- What an accepted operation without an answer leads to. -/
theorem next_eq_ok {act : DraftAction Unit} {answer : Unit} {next : Draft}
    (h : outcome act draft = .ok (answer, next)) : Draft.next act draft = .ok next := by
  rw [Draft.next, h]
  rfl

/-! ### Operations -/

/-- Naming a draft: the declarations that wait come first, then the name is judged. -/
theorem rename_spec (name : String) :
    Atomic (DraftAction.rename name) ∧ ∀ draft : Draft, draft.rename name
      = if draft.isPending then .error (.pending draft.name name)
        else if !Name.isModuleName name then .error (.moduleName name)
        else .ok { draft with name := some name } := by
  obtain ⟨hatomic, houtcome⟩ := Atomic.of_apply (DraftAction.rename name)
    (fun draft : Draft =>
      if draft.isPending then .error (.pending draft.name name)
      else if !Name.isModuleName name then .error (.moduleName name)
      else .ok ((), { draft with name := some name })) fun draft => by
    rw [DraftAction.rename, get_bind_apply, demand_bind_apply, demand_bind_apply]
    cases draft.isPending <;> cases Name.isModuleName name <;> rfl
  refine ⟨hatomic, fun draft => ?_⟩
  rw [rename, next, houtcome]
  cases draft.isPending <;> cases Name.isModuleName name <;> rfl

/-- Adding a header: only a blank path is refused. -/
theorem addInclude_spec (path : String) (isLocal : Bool) :
    Atomic (DraftAction.addInclude path isLocal) ∧ ∀ draft : Draft, draft.addInclude path isLocal
      = if Text.isBlankText path then .error .blankInclude
        else .ok (⟨Text.trim path, isLocal⟩,
          { draft with includes := draft.includes ++ [⟨Text.trim path, isLocal⟩] }) := by
  refine Atomic.of_apply _ _ fun draft => ?_
  rw [DraftAction.addInclude, demand_bind_apply]
  cases Text.isBlankText path <;> rfl

/-- A draft is named exactly when nothing waits in it and the name is one of a module. -/
theorem rename_eq_ok_iff {draft next : Draft} {name : String} :
    draft.rename name = .ok next
      ↔ draft.isPending = false ∧ Name.isModuleName name = true ∧
        next = { draft with name := some name } := by
  rw [(rename_spec name).2]
  cases draft.isPending <;> cases Name.isModuleName name <;> simp [eq_comm]

/-- A header that was added is the path without the blanks around it. -/
theorem addInclude_eq_ok_iff {draft next : Draft} {path : String} {isLocal : Bool}
    {header : Include} :
    draft.addInclude path isLocal = .ok (header, next)
      ↔ Text.isBlankText path = false ∧ header = ⟨Text.trim path, isLocal⟩ ∧
        next = { draft with includes := draft.includes ++ [header] } := by
  rw [(addInclude_spec path isLocal).2]
  cases Text.isBlankText path with
  | true => simp
  | false =>
      constructor
      · rintro ⟨⟩
        exact ⟨rfl, rfl, rfl⟩
      · rintro ⟨-, rfl, rfl⟩
        rfl

/-- Switching the mode by its name: only the name is judged. -/
theorem setModeNamed_spec (name : String) :
    Atomic (DraftAction.setModeNamed name) ∧ ∀ draft : Draft, draft.setModeNamed name
      = ((ExportMode.ofName name).mapError .exportMode).map draft.setMode := by
  obtain ⟨hatomic, houtcome⟩ := Atomic.of_apply (DraftAction.setModeNamed name)
    (fun draft : Draft =>
      ((ExportMode.ofName name).mapError .exportMode).map fun mode => ((), draft.setMode mode))
    fun draft => by
      rw [DraftAction.setModeNamed, lift_bind_apply]
      cases ExportMode.ofName name <;> rfl
  refine ⟨hatomic, fun draft => ?_⟩
  rw [setModeNamed, next, houtcome]
  cases ExportMode.ofName name <;> rfl

/-- The draft with one more declaration in its book. -/
def extended (draft : Draft) (d : Declaration) : Draft :=
  { draft with
    declarations := draft.declarations ++ [d]
    keys := draft.keys ++ [d.key]
    symbols := draft.symbols ++ d.boundNames }

/-- What registering comes to: the key is judged first, then the names in their order. -/
theorem register_spec (declaration : Declaration) :
    Atomic (DraftAction.register declaration) ∧ ∀ draft : Draft, draft.register declaration
      = if draft.keys.contains declaration.key then
          .error (.repeatedKey declaration.key draft.name)
        else
          match draft.taken? declaration with
          | some symbol => .error (.takenSymbol symbol draft.name)
          | none => .ok (draft.extended declaration) := by
  obtain ⟨hatomic, houtcome⟩ := Atomic.of_apply (DraftAction.register declaration)
    (fun draft : Draft =>
      if draft.keys.contains declaration.key then
        .error (.repeatedKey declaration.key draft.name)
      else
        match draft.taken? declaration with
        | some symbol => .error (.takenSymbol symbol draft.name)
        | none => .ok ((), draft.extended declaration)) fun draft => by
    rw [DraftAction.register, get_bind_apply, demand_bind_apply]
    cases draft.keys.contains declaration.key with
    | true => rfl
    | false =>
        simp only [Bool.not_false, if_true, demandAllFree_apply, ← taken?.eq_def]
        cases draft.taken? declaration with
        | some symbol => rfl
        | none =>
            simp only [modify_bind_apply, List.append_assoc]
            rfl
  refine ⟨hatomic, fun draft => ?_⟩
  rw [register, next, houtcome]
  cases draft.keys.contains declaration.key with
  | true => rfl
  | false => cases draft.taken? declaration <;> rfl

/-- A declaration that is made and registered, whatever kind it is of. -/
theorem declare_spec {α : Type} (make : ExportMode → Except Declaration.Fault α)
    (wrap : α → Declaration) :
    let act : DraftAction α := do
      let made ← DraftAction.lift .declaration (make (← get).mode)
      DraftAction.register (wrap made)
      pure made
    Atomic act ∧ ∀ draft : Draft, outcome act draft = (do
      let made ← (make draft.mode).mapError .declaration
      let next ← draft.register (wrap made)
      .ok (made, next)) := by
  intro act
  refine Atomic.of_apply _ _ fun draft => ?_
  show (get >>= fun draft : Draft => DraftAction.lift .declaration (make draft.mode) >>= fun made =>
    DraftAction.register (wrap made) >>= fun _ => pure made) draft = _
  rw [get_bind_apply, lift_bind_apply]
  cases make draft.mode with
  | error fault => rfl
  | ok made =>
      show (DraftAction.register (wrap made) >>= fun _ => pure made) draft
        = match draft.register (wrap made) >>= fun next => .ok (made, next) with
          | .ok (value, next) => .ok value next
          | .error fault => .error fault draft
      rw [bind_apply, (register_spec (wrap made)).1.apply_eq, register, next]
      cases outcome (DraftAction.register (wrap made)) draft <;> rfl

theorem addConstant_spec (source : String) (exposed : Option String) :
    Atomic (DraftAction.addConstant source exposed) ∧
      ∀ draft : Draft, draft.addConstant source exposed = (do
        let c ← (Constant.make source exposed draft.mode).mapError .declaration
        let next ← draft.register (.constant c)
        .ok (c, next)) :=
  declare_spec (Constant.make source exposed) .constant

theorem addStruct_spec (name : String) (members : List Declaration.MemberEntry)
    (encoder decoder : Option String) (hasTail : Bool) :
    Atomic (DraftAction.addStruct name members encoder decoder hasTail) ∧
      ∀ draft : Draft, draft.addStruct name members encoder decoder hasTail = (do
        let s ← (Struct.make name members draft.mode encoder decoder hasTail).mapError .declaration
        let next ← draft.register (.struct s)
        .ok (s, next)) :=
  declare_spec (Struct.make name members · encoder decoder hasTail) .struct

end Draft

namespace Session

open DraftAction (Atomic)

/-- An operation on the draft of a session gives the draft that it comes to, or leaves the session
as it was. -/
theorem onDraft_apply {α : Type} {act : DraftAction α} (h : Atomic act) (session : Session) :
    onDraft act session
      = match Draft.outcome act session.draft with
        | .ok (value, next) => .ok value { session with draft := next }
        | .error fault => .error (.ofDraft fault) session := by
  rw [onDraft, h.apply_eq]
  cases Draft.outcome act session.draft <;> rfl

end Session

end HeaderBind
