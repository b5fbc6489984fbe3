/-!
# `HeaderBind.Proofs.Effect`: what an action leaves behind

Every action of the program works on a state that stays when the action fails: a draft in use, a
host, a toolchain at work. Four kinds of statements about such actions are put together from
statements about their steps.

* `Keeps part act`: whatever becomes of the action, a part of the state is as it was.
* `Related R V act act'`: from states that `R` relates, both actions are accepted or both are
  refused with one error, and the states they leave behind are related again. This is how two runs
  are compared, for instance one after a long history and one without any.
* `Follows R V act act'`: the same one way. Where the first action is accepted, the second one is,
  and nothing is said of where the first one is refused. This is how a second run is shown to
  succeed by a first one that did.
* `RefusedBy P act s`: the action is refused, and its error is one of a kind. Every lemma about it
  goes both ways, so the steps that such an error comes from can be told completely.

An action that reads the state goes on with all of it, so there the steps are compared state by
state: `related_get_bind`.

One action for every item of a list is taken apart by `mapM_eq_error` and `of_mapM_append_ok`: a run
over a list is a run over the items in front, then one item, then the rest.
-/

set_option autoImplicit false

namespace HeaderBind.Effect

variable {ε σ σ' τ α α' β β' : Type}

/-- The state that an action leaves behind, whether it is accepted or refused. -/
def left : EStateM.Result ε σ α → σ
  | .ok _ next => next
  | .error _ next => next

/-- What an action answers, a value or an error. -/
def answered : EStateM.Result ε σ α → Except ε α
  | .ok value _ => .ok value
  | .error error _ => .error error

/-- Two actions in a row: the second one starts where the first one was accepted. -/
theorem bind_apply (act : EStateM ε σ α) (next : α → EStateM ε σ β) (s : σ) :
    (act >>= next) s
      = match act s with
        | .ok value middle => next value middle
        | .error error middle => .error error middle := by
  show EStateM.bind act next s = _
  unfold EStateM.bind
  cases act s <;> rfl

/-- Two actions in a row that are accepted were accepted one after the other. -/
theorem of_bind_ok {act : EStateM ε σ α} {next : α → EStateM ε σ β} {s after : σ} {value : β}
    (h : (act >>= next) s = .ok value after) :
    ∃ made middle, act s = .ok made middle ∧ next made middle = .ok value after := by
  rw [bind_apply] at h
  cases hact : act s with
  | ok made middle =>
      rw [hact] at h
      exact ⟨made, middle, rfl, h⟩
  | error error middle => rw [hact] at h; cases h

/-- Two actions in a row are refused by the first one, or by the second one after the first. -/
theorem of_bind_error {act : EStateM ε σ α} {next : α → EStateM ε σ β} {s after : σ} {error : ε}
    (h : (act >>= next) s = .error error after) :
    act s = .error error after ∨
      ∃ made middle, act s = .ok made middle ∧ next made middle = .error error after := by
  rw [bind_apply] at h
  cases hact : act s with
  | ok made middle =>
      rw [hact] at h
      exact .inr ⟨made, middle, rfl, h⟩
  | error refused middle =>
      rw [hact] at h
      cases h
      exact .inl rfl

/-- An action in front of which only the state is of interest. -/
theorem discard_bind_apply (act : EStateM ε σ α) (next : PUnit → EStateM ε σ β) (s : σ) :
    (discard act >>= next) s
      = match act s with
        | .ok _ middle => next ⟨⟩ middle
        | .error error middle => .error error middle := by
  show ((act >>= fun _ => pure ⟨⟩) >>= next) s = _
  rw [bind_apply, bind_apply]
  cases act s <;> rfl

/-- What reads the state first goes on with the state at hand. -/
theorem get_bind_apply (next : σ → EStateM ε σ α) (s : σ) : (get >>= next) s = next s s :=
  rfl

/-- A change of the state after an action, made in any case. -/
theorem tryFinally_modify_apply (act : EStateM ε σ α) (change : σ → σ) (s : σ) :
    tryFinally act (modify change) s
      = match act s with
        | .ok value middle => .ok value (change middle)
        | .error error middle => .error error (change middle) := by
  simp only [tryFinally, tryFinally', Functor.map, EStateM.map]
  cases act s <;> rfl

/-! ### What stays -/

/-- An action that leaves a part of the state as it was. -/
def Keeps (part : σ → τ) (act : EStateM ε σ α) : Prop :=
  ∀ s, part (left (act s)) = part s

variable {part : σ → τ}

theorem Keeps.of_ok {act : EStateM ε σ α} (h : Keeps part act) {s after : σ} {value : α}
    (hact : act s = .ok value after) : part after = part s := by
  have hkept := h s
  rw [hact] at hkept
  exact hkept

/-- What is kept as a whole is kept in its parts. -/
theorem Keeps.map {τ' : Type} {act : EStateM ε σ α} (h : Keeps part act) (f : τ → τ') :
    Keeps (fun s => f (part s)) act :=
  fun s => congrArg f (h s)

theorem keeps_pure (value : α) : Keeps part (pure value : EStateM ε σ α) :=
  fun _ => rfl

theorem keeps_throw (error : ε) : Keeps part (throw error : EStateM ε σ α) :=
  fun _ => rfl

theorem keeps_modify {change : σ → σ} (h : ∀ s, part (change s) = part s) :
    Keeps part (modify change : EStateM ε σ PUnit) :=
  h

/-- Two actions in a row keep what both of them keep. -/
theorem keeps_bind {act : EStateM ε σ α} {next : α → EStateM ε σ β} (hact : Keeps part act)
    (hnext : ∀ value, Keeps part (next value)) : Keeps part (act >>= next) := by
  intro s
  have hfirst := hact s
  rw [bind_apply]
  cases hrun : act s with
  | ok value middle =>
      rw [hrun] at hfirst
      exact (hnext value middle).trans hfirst
  | error error middle =>
      rw [hrun] at hfirst
      exact hfirst

theorem keeps_get_bind {next : σ → EStateM ε σ α} (h : ∀ s, Keeps part (next s)) :
    Keeps part (get >>= next) :=
  fun s => h s s

/-! ### Refusals of a kind -/

/-- An action that is refused with an error of a kind. -/
def RefusedBy (P : ε → Prop) (act : EStateM ε σ α) (s : σ) : Prop :=
  ∃ error after, act s = .error error after ∧ P error

section RefusedBy

variable {P : ε → Prop} {act : EStateM ε σ α} {s after : σ}

theorem not_error_of_ok {value : α} (h : act s = .ok value after) :
    ¬ ∃ error last, act s = .error error last := by
  rintro ⟨error, last, herror⟩
  rw [h] at herror
  cases herror

theorem not_refusedBy_of_ok {value : α} (h : act s = .ok value after) : ¬ RefusedBy P act s :=
  fun ⟨error, last, herror, _⟩ => not_error_of_ok h ⟨error, last, herror⟩

theorem refusedBy_iff_of_error {error : ε} (h : act s = .error error after) :
    RefusedBy P act s ↔ P error := by
  constructor
  · rintro ⟨other, last, hother, hP⟩
    rw [h] at hother
    cases hother
    exact hP
  · exact fun hP => ⟨error, after, h, hP⟩

theorem refusedBy_throw_iff {error : ε} :
    RefusedBy P (throw error : EStateM ε σ α) s ↔ P error :=
  refusedBy_iff_of_error rfl

/-- Two actions in a row are refused by the first one, or by the second one after the first. -/
theorem refusedBy_bind_iff {next : α → EStateM ε σ β} :
    RefusedBy P (act >>= next) s ↔ RefusedBy P act s ∨
      ∃ value middle, act s = .ok value middle ∧ RefusedBy P (next value) middle := by
  constructor
  · rintro ⟨error, last, herror, hP⟩
    rcases of_bind_error herror with hact | ⟨value, middle, hact, hnext⟩
    · exact .inl ⟨error, last, hact, hP⟩
    · exact .inr ⟨value, middle, hact, error, last, hnext, hP⟩
  · rintro (⟨error, last, hact, hP⟩ | ⟨value, middle, hact, error, last, hnext, hP⟩)
    · exact ⟨error, last, by rw [bind_apply, hact], hP⟩
    · refine ⟨error, last, ?_, hP⟩
      rw [bind_apply, hact]
      exact hnext

/-- Behind an action that is accepted, the rest decides. -/
theorem refusedBy_bind_of_ok {next : α → EStateM ε σ β} {value : α} (h : act s = .ok value after) :
    RefusedBy P (act >>= next) s ↔ RefusedBy P (next value) after := by
  rw [RefusedBy, bind_apply, h]
  rfl

/-- In front of an action that is not refused so, the first one decides. -/
theorem refusedBy_bind_iff_left {next : α → EStateM ε σ β}
    (h : ∀ value middle, act s = .ok value middle → ¬ RefusedBy P (next value) middle) :
    RefusedBy P (act >>= next) s ↔ RefusedBy P act s := by
  refine refusedBy_bind_iff.trans (or_iff_left ?_)
  rintro ⟨value, middle, hact, hnext⟩
  exact h value middle hact hnext

theorem refusedBy_bind_pure_iff {make : α → β} :
    RefusedBy P (act >>= fun value => pure (make value)) s ↔ RefusedBy P act s :=
  refusedBy_bind_iff_left fun _ _ _ => not_refusedBy_of_ok rfl

end RefusedBy

/-! ### Two runs -/

/-- Both results are values with states, related each, or both are one error with related states. -/
inductive Matched (R : σ → σ' → Prop) (V : α → α' → Prop) :
    EStateM.Result ε σ α → EStateM.Result ε σ' α' → Prop
  | ok {value : α} {value' : α'} {s : σ} {s' : σ'} (values : V value value') (states : R s s') :
      Matched R V (.ok value s) (.ok value' s')
  | error {error : ε} {s : σ} {s' : σ'} (states : R s s') :
      Matched R V (.error error s) (.error error s')

theorem Matched.of_ok {R : σ → σ' → Prop} {V : α → α' → Prop} {value : α} {s : σ}
    {result : EStateM.Result ε σ' α'} (h : Matched R V (.ok value s) result) :
    ∃ value' s', result = .ok value' s' ∧ V value value' ∧ R s s' := by
  cases h with
  | ok values states => exact ⟨_, _, rfl, values, states⟩

theorem Matched.of_error {R : σ → σ' → Prop} {V : α → α' → Prop} {error : ε} {s : σ}
    {result : EStateM.Result ε σ' α'} (h : Matched R V (.error error s) result) :
    ∃ s', result = .error error s' ∧ R s s' := by
  cases h with
  | error states => exact ⟨_, rfl, states⟩

/-- Two actions that cannot be told apart from related states. -/
def Related (R : σ → σ' → Prop) (V : α → α' → Prop) (act : EStateM ε σ α)
    (act' : EStateM ε σ' α') : Prop :=
  ∀ s s', R s s' → Matched R V (act s) (act' s')

variable {R : σ → σ' → Prop} {V : α → α' → Prop} {W : β → β' → Prop}

theorem related_pure {value : α} {value' : α'} (h : V value value') :
    Related R V (pure value : EStateM ε σ α) (pure value' : EStateM ε σ' α') :=
  fun _ _ hstates => .ok h hstates

theorem related_throw (error : ε) :
    Related R V (throw error : EStateM ε σ α) (throw error : EStateM ε σ' α') :=
  fun _ _ hstates => .error hstates

theorem related_modify {change : σ → σ} {change' : σ' → σ'}
    (h : ∀ s s', R s s' → R (change s) (change' s')) :
    Related R Eq (modify change : EStateM ε σ PUnit) (modify change' : EStateM ε σ' PUnit) :=
  fun s s' hstates => .ok rfl (h s s' hstates)

theorem related_bind {act : EStateM ε σ α} {act' : EStateM ε σ' α'} {next : α → EStateM ε σ β}
    {next' : α' → EStateM ε σ' β'} (hact : Related R V act act')
    (hnext : ∀ value value', V value value' → Related R W (next value) (next' value')) :
    Related R W (act >>= next) (act' >>= next') := by
  intro s s' hstates
  have hfirst := hact s s' hstates
  rw [bind_apply, bind_apply]
  generalize act s = result at hfirst ⊢
  generalize act' s' = result' at hfirst ⊢
  cases hfirst with
  | ok values states => exact hnext _ _ values _ _ states
  | error states => exact .error states

/-- What reads the states goes on with two related ones. -/
theorem related_get_bind {next : σ → EStateM ε σ α} {next' : σ' → EStateM ε σ' α'}
    (h : ∀ s s', R s s' → Related R V (next s) (next' s')) :
    Related R V (get >>= next) (get >>= next') :=
  fun s s' hstates => h s s' hstates s s' hstates

/-- The same change after two actions that cannot be told apart. -/
theorem related_tryFinally_modify {act : EStateM ε σ α} {act' : EStateM ε σ' α'}
    {change : σ → σ} {change' : σ' → σ'} (hact : Related R V act act')
    (hchange : ∀ s s', R s s' → R (change s) (change' s')) :
    Related R V (tryFinally act (modify change)) (tryFinally act' (modify change')) := by
  intro s s' hstates
  have hfirst := hact s s' hstates
  rw [tryFinally_modify_apply, tryFinally_modify_apply]
  generalize act s = result at hfirst ⊢
  generalize act' s' = result' at hfirst ⊢
  cases hfirst with
  | ok values states => exact .ok values (hchange _ _ states)
  | error states => exact .error (hchange _ _ states)

/-! ### A run after another one -/

/-- An action that is accepted wherever another one was. -/
def Follows (R : σ → σ' → Prop) (V : α → α' → Prop) (act : EStateM ε σ α)
    (act' : EStateM ε σ' α') : Prop :=
  ∀ s s', R s s' → ∀ value after, act s = .ok value after →
    ∃ value' after', act' s' = .ok value' after' ∧ V value value' ∧ R after after'

theorem follows_pure {value : α} {value' : α'} (h : V value value') :
    Follows R V (pure value : EStateM ε σ α) (pure value' : EStateM ε σ' α') := by
  intro s s' hstates made after hact
  cases hact
  exact ⟨value', s', rfl, h, hstates⟩

theorem follows_modify {change : σ → σ} {change' : σ' → σ'}
    (h : ∀ s s', R s s' → R (change s) (change' s')) :
    Follows R Eq (modify change : EStateM ε σ PUnit) (modify change' : EStateM ε σ' PUnit) := by
  intro s s' hstates made after hact
  cases hact
  exact ⟨_, change' s', rfl, rfl, h s s' hstates⟩

/-- Nothing is asked of what follows a refusal. -/
theorem follows_throw (error : ε) (act' : EStateM ε σ' α') :
    Follows R V (throw error : EStateM ε σ α) act' := by
  intro s s' hstates made after hact
  cases hact

theorem follows_bind {act : EStateM ε σ α} {act' : EStateM ε σ' α'} {next : α → EStateM ε σ β}
    {next' : α' → EStateM ε σ' β'} (hact : Follows R V act act')
    (hnext : ∀ value value', V value value' → Follows R W (next value) (next' value')) :
    Follows R W (act >>= next) (act' >>= next') := by
  intro s s' hstates made after hrun
  obtain ⟨value, middle, hfirst, hrun⟩ := of_bind_ok hrun
  obtain ⟨value', middle', hfirst', hvalues, hmiddle⟩ := hact s s' hstates value middle hfirst
  rw [bind_apply, hfirst']
  exact hnext value value' hvalues middle middle' hmiddle made after hrun

/-- What reads the states goes on with two related ones. -/
theorem follows_get_bind {next : σ → EStateM ε σ α} {next' : σ' → EStateM ε σ' α'}
    (h : ∀ s s', R s s' → Follows R V (next s) (next' s')) :
    Follows R V (get >>= next) (get >>= next') :=
  fun s s' hstates => h s s' hstates s s' hstates

/-! ### One action for every item of a list -/

section Each

variable {ι : Type} {each : ι → EStateM ε σ α} {each' : ι → EStateM ε σ' α'}

/-- A refusal comes from one item, those in front of it having been accepted. -/
theorem mapM_eq_error {items : List ι} {s after : σ} {error : ε}
    (h : items.mapM each s = .error error after) :
    ∃ done item later values middle, items = done ++ item :: later ∧
      done.mapM each s = .ok values middle ∧ each item middle = .error error after := by
  induction items generalizing s with
  | nil => cases h
  | cons item items ih =>
      rw [List.mapM_cons] at h
      rcases of_bind_error h with hitem | ⟨value, middle, hitem, h⟩
      · exact ⟨[], item, items, [], s, rfl, rfl, hitem⟩
      · rcases of_bind_error h with hrest | ⟨values, next, -, h⟩
        · obtain ⟨done, other, later, values, last, rfl, hdone, hother⟩ := ih hrest
          refine ⟨item :: done, other, later, value :: values, last, rfl, ?_, hother⟩
          simp only [List.mapM_cons, bind_apply, hitem, hdone]
          rfl
        · cases h

/-- A refusal of one item is that of the whole run, whatever would have come later. -/
theorem mapM_append_of_error {done : List ι} (later : List ι) {item : ι} {s middle after : σ}
    {values : List α} {error : ε} (hdone : done.mapM each s = .ok values middle)
    (hitem : each item middle = .error error after) :
    (done ++ item :: later).mapM each s = .error error after := by
  simp only [List.mapM_append, List.mapM_cons, bind_apply, hdone, hitem]

/-- What holds of the state at first, and after every item that is accepted, holds in the end. -/
theorem mapM_preserves {P : σ → Prop} {items : List ι} {s after : σ} {values : List α}
    (hstep : ∀ item ∈ items, ∀ s value next, P s → each item s = .ok value next → P next)
    (h : items.mapM each s = .ok values after) (hs : P s) : P after := by
  induction items generalizing s values with
  | nil =>
      cases h
      exact hs
  | cons item items ih =>
      rw [List.mapM_cons] at h
      obtain ⟨value, middle, hitem, h⟩ := of_bind_ok h
      obtain ⟨others, last, hrest, h⟩ := of_bind_ok h
      cases h
      obtain ⟨hfirst, hlater⟩ := List.forall_mem_cons.mp hstep
      exact ih hlater hrest (hfirst s value middle hs hitem)

/-- Items that cannot be told apart one by one cannot be told apart together. The values of one run
are given by those of the other one. -/
theorem related_mapM {make : α → α'} {P : α → Prop} {items : List ι}
    (h : ∀ item, Related R (fun value value' => value' = make value ∧ P value) (each item)
      (each' item)) :
    Related R (fun values values' => values' = values.map make ∧ ∀ value ∈ values, P value)
      (items.mapM each) (items.mapM each') := by
  induction items with
  | nil => exact related_pure ⟨rfl, nofun⟩
  | cons item items ih =>
      rw [List.mapM_cons, List.mapM_cons]
      refine related_bind (h item) fun value value' hvalue => ?_
      refine related_bind ih fun values values' hvalues => related_pure ?_
      obtain ⟨rfl, hP⟩ := hvalue
      obtain ⟨rfl, hall⟩ := hvalues
      exact ⟨rfl, List.forall_mem_cons.mpr ⟨hP, hall⟩⟩

end Each

end HeaderBind.Effect
