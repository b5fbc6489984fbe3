import HeaderBind.Host
import HeaderBind.Proofs.Effect

/-!
# `HeaderBind.Proofs.Host`: the plain steps of actions

What a host is beside the things that a command changes all the time: `withoutProcesses` leaves out
the processes, and hosts are `Alike` when they differ at most in what was printed. The steps that
only look at a host, or only print, keep the one and respect the other. A text is read from a file
as it was written there if there is no carriage return in it (`decodeText_encode`).
-/

set_option autoImplicit false

namespace HeaderBind

open Effect

/-- A host apart from its processes: those to come, those that ran, and what they were run on. -/
def Host.withoutProcesses (host : Host) : Host :=
  { host with answers := [], launched := [], compiled := [] }

/-- A host apart from its files. -/
def Host.withoutFiles (host : Host) : Host :=
  { host with tree := ⟨[]⟩ }

/-- A host after a text was printed. -/
def Host.printing (host : Host) (text : String) : Host :=
  { host with printed := host.printed ++ text }

theorem Host.printing_append (host : Host) (first second : String) :
    host.printing (first ++ second) = (host.printing first).printing second :=
  congrArg (fun printed => { host with printed := printed }) (String.append_assoc ..).symm

theorem Host.printing_empty (host : Host) : host.printing "" = host :=
  congrArg (fun printed => { host with printed := printed }) String.append_empty

/-- Hosts that are the same apart from their processes have the same files. -/
theorem Host.tree_of_withoutProcesses {host after : Host}
    (h : after.withoutProcesses = host.withoutProcesses) : after.tree = host.tree := by
  have htree := congrArg Host.tree h
  exact htree

/-- Such hosts have their files in the same places. -/
theorem Host.files_of_withoutProcesses {host after : Host}
    (h : after.withoutProcesses = host.withoutProcesses) :
    after.tree = host.tree ∧ after.workingDirectory = host.workingDirectory := by
  have hdirectory := congrArg Host.workingDirectory h
  exact ⟨Host.tree_of_withoutProcesses h, hdirectory⟩

/-- Where only printing and processes happened, the files are the same. -/
theorem Host.of_withoutProcesses_printing {host after : Host} {text : String}
    (h : after.withoutProcesses = host.withoutProcesses.printing text) :
    after.tree = host.tree ∧ after.printed = host.printed ++ text := by
  have htree := congrArg Host.tree h
  have hprinted := congrArg Host.printed h
  exact ⟨htree, hprinted⟩

/-- Hosts that differ at most in what was printed. -/
def Host.Alike (host other : Host) : Prop :=
  ∃ printed, other = { host with printed := printed }

theorem Host.Alike.refl (host : Host) : host.Alike host :=
  ⟨host.printed, rfl⟩

theorem Text.unifyNewlines_of_notMem {cs : List Char} (h : '\r' ∉ cs) : unifyNewlines cs = cs := by
  induction cs with
  | nil => rfl
  | cons c cs ih =>
      obtain ⟨hc, hcs⟩ := List.ne_and_not_mem_of_not_mem_cons h
      have hstep : unifyNewlines (c :: cs) = c :: unifyNewlines cs := by
        rw [unifyNewlines.eq_3 _ _ fun rest hreturn => absurd hreturn (Ne.symm hc),
          if_neg (Ne.symm hc)]
      rw [hstep, ih hcs]

/-- A text without a carriage return is read as it was written. -/
theorem decodeText_encode {text : String} (h : '\r' ∉ text.toList) :
    decodeText (Utf8.encode text) = .ok text := by
  rw [decodeText, Utf8.decode_encode]
  show Except.ok (String.ofList (Text.unifyNewlines text.toList)) = _
  rw [Text.unifyNewlines_of_notMem h, String.ofList_toList]

namespace Action

variable {α ε τ : Type} {part : Host → τ} {R : Host → Host → Prop}

theorem keeps_ofExcept (wrap : ε → Error) (result : Except ε α) :
    Keeps part (ofExcept wrap result) := by
  cases result with
  | ok value => exact keeps_pure value
  | error fault => exact keeps_throw (wrap fault)

theorem related_ofExcept (wrap : ε → Error) (result : Except ε α) :
    Related R Eq (ofExcept wrap result) (ofExcept wrap result) := by
  cases result with
  | ok value => exact related_pure rfl
  | error fault => exact related_throw (wrap fault)

/-- An accepted result is the value, and nothing happens. -/
theorem of_ofExcept {wrap : ε → Error} {result : Except ε α} {value : α} {host after : Host}
    (h : ofExcept wrap result host = .ok value after) : result = .ok value ∧ after = host := by
  cases result with
  | ok made =>
      cases h
      exact ⟨rfl, rfl⟩
  | error fault => cases h

theorem print_apply (text : String) (host : Host) :
    print text host = .ok () (host.printing text) :=
  rfl

/-- Printing two texts in a row is printing them as one. -/
theorem print_append (first second : String) :
    print (first ++ second) = print first >>= fun _ => print second := by
  funext host
  rw [print_apply, Host.printing_append]
  rfl

theorem print_empty : print "" = pure () := by
  funext host
  rw [print_apply, Host.printing_empty]
  rfl

theorem keeps_resolve (text : String) : Keeps part (resolve text) :=
  keeps_get_bind fun _ => keeps_ofExcept _ _

/-- What was read from a file is the text that its bytes encode. -/
theorem readText_eq_ok_iff {path : Path} {wrap : FileTree.Fault → Error} {text : String}
    {host after : Host} :
    readText path wrap host = .ok text after ↔ ∃ content, host.readBytes path = .ok content ∧
      decodeText content = .ok text ∧ after = host := by
  rw [readText, get_bind_apply]
  cases host.readBytes path with
  | ok content =>
      constructor
      · intro h
        obtain ⟨hdecode, hafter⟩ := of_ofExcept h
        exact ⟨content, rfl, hdecode, hafter⟩
      · rintro ⟨_, hread, hdecode, rfl⟩
        cases hread
        simp only [hdecode]
        rfl
  | error fault =>
      constructor
      · intro h
        cases fault <;> cases h
      · rintro ⟨_, hread, -⟩
        cases hread

/-- Reading a file changes nothing. -/
theorem keeps_readText (path : Path) (wrap : FileTree.Fault → Error) :
    Keeps part (readText path wrap) := by
  refine keeps_get_bind fun host => ?_
  cases host.readBytes path with
  | ok content => exact keeps_ofExcept _ _
  | error fault => cases fault <;> exact keeps_throw _

end Action

end HeaderBind
