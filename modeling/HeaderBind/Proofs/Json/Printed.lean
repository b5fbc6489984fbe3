import HeaderBind.Proofs.Json.Plain
import HeaderBind.Proofs.Json.Quoted
import HeaderBind.Proofs.Text.Numeral

/-!
# `HeaderBind.Proofs.Json.Printed`: the characters of a written document

Whatever is in the texts of a plain value, it is written in visible ASCII characters and blanks, and
line feeds stand between the lines (`Plain.printed_write`). So reading a file, where every kind of
line end becomes a line feed, does nothing to it.
-/

set_option autoImplicit false

namespace HeaderBind.Json

open HeaderBind.Text

/-- Whether `c` is one of the characters that documents are written in. -/
def isPrinted (c : Char) : Bool :=
  c == '\n' || c == ' ' || isVisible c

/-- Whether all characters of a text are ones that documents are written in. -/
def Printed (cs : List Char) : Prop :=
  ∀ c ∈ cs, isPrinted c = true

namespace Printed

theorem of_visible {cs : List Char} (h : Visible cs) : Printed cs := by
  intro c hc
  rw [isPrinted, h c hc, Bool.or_true]

theorem nil : Printed [] := nofun

theorem cons {c : Char} {cs : List Char} (hc : isPrinted c = true) (h : Printed cs) :
    Printed (c :: cs) :=
  List.forall_mem_cons.mpr ⟨hc, h⟩

theorem append {before after : List Char} (h : Printed before) (h' : Printed after) :
    Printed (before ++ after) :=
  List.forall_mem_append.mpr ⟨h, h'⟩

theorem return_notMem {cs : List Char} (h : Printed cs) : '\r' ∉ cs := fun hmem =>
  absurd (h '\r' hmem) (by decide)

end Printed

/-! ### Texts -/

theorem isVisible_hexDigit : ∀ n < 16, isVisible (hexDigit n) = true := by
  decide

theorem visible_hexDigits (width n : Nat) : Visible (hexDigits width n) := by
  induction width generalizing n with
  | zero => exact .nil
  | succ width ih =>
      have hlast := isVisible_hexDigit (n % 16) (Nat.mod_lt n (by decide))
      exact (ih (n / 16)).append (.cons hlast .nil)

theorem visible_unitEscape (unit : Nat) : Visible (unitEscape unit) :=
  .cons (by decide) (.cons (by decide) (visible_hexDigits 4 unit))

/-- The letter of an escape is visible, whatever it stands for. -/
theorem isVisible_of_escaped? {letter c : Char} (h : escaped? letter = some c) :
    isVisible letter = true := by
  unfold escaped? at h
  split at h
  all_goals first | rfl | cases h

theorem printed_writeChar (c : Char) : Printed (writeChar c) := by
  have hform := writtenAs_writeChar c
  generalize writeChar c = written at hform ⊢
  cases hform with
  | letter low names =>
      exact .of_visible (.cons (by decide) (.cons (isVisible_of_escaped? names) .nil))
  | plain unquoted unescaped shown =>
      refine .cons ?_ .nil
      rw [isPrinted, Bool.or_eq_true]
      by_cases hblank : c = ' '
      · exact .inl (by rw [hblank]; rfl)
      · have hpoint : c.toNat ≠ 0x20 := fun hsame => hblank (Char.toNat_inj.mp hsame)
        exact .inr (isVisible_of_toNat (by omega) (by omega))
  | unit low => exact .of_visible (visible_unitEscape _)
  | pair high => exact .of_visible ((visible_unitEscape _).append (visible_unitEscape _))

theorem printed_writeText (s : String) : Printed (writeText s) := by
  refine .append (.cons rfl fun d hd => ?_) (.cons rfl .nil)
  obtain ⟨c, -, hwritten⟩ := List.mem_flatMap.mp hd
  exact printed_writeChar c d hwritten

/-! ### Values -/

theorem printed_newLine (level : Nat) : Printed (newLine level) := by
  refine .cons rfl fun c hc => ?_
  rw [List.eq_of_mem_replicate hc]
  rfl

theorem printed_writeItems {items : List Json}
    (h : ∀ item ∈ items, ∀ level, Printed (write level item)) (level : Nat) :
    Printed (writeItems level items) := by
  induction items with
  | nil => exact .nil
  | cons item items ih =>
      obtain ⟨hitem, hitems⟩ := List.forall_mem_cons.mp h
      exact ((Printed.cons rfl (printed_newLine level)).append (hitem level)).append (ih hitems)

/-- A field is its key, a colon and its value. -/
theorem printed_field {key : String} {value : Json} {level : Nat}
    (h : Printed (write level value)) :
    Printed (writeText key ++ ':' :: ' ' :: write level value) :=
  (printed_writeText key).append (.cons rfl (.cons rfl h))

theorem printed_writeFields {fields : List (String × Json)}
    (h : ∀ field ∈ fields, ∀ level, Printed (write level field.2)) (level : Nat) :
    Printed (writeFields level fields) := by
  induction fields with
  | nil => exact .nil
  | cons field fields ih =>
      obtain ⟨hfield, hfields⟩ := List.forall_mem_cons.mp h
      exact ((Printed.cons rfl (printed_newLine level)).append
        (printed_field (hfield level))).append (ih hfields)

theorem printed_of_all {cs : List Char} (h : cs.all isPrinted = true) : Printed cs :=
  List.all_eq_true.mp h

theorem printed_bool : ∀ (value : Bool) (level : Nat), Printed (write level (.bool value))
  | true, _ => printed_of_all rfl
  | false, _ => printed_of_all rfl

/-- A plain value is written in characters of ASCII, and only line feeds end its lines. -/
theorem Plain.printed_write {value : Json} (h : Plain value) (level : Nat) :
    Printed (write level value) := by
  induction h generalizing level with
  | null => exact printed_of_all rfl
  | bool value => exact printed_bool value level
  | integer short => exact .of_visible (Numeral.visible_toString _)
  | string value => exact printed_writeText value
  | @array items each ih =>
      cases items with
      | nil => exact .cons rfl (.cons rfl .nil)
      | cons item items =>
          obtain ⟨hitem, hitems⟩ := List.forall_mem_cons.mp ih
          exact ((((Printed.cons rfl (printed_newLine _)).append (hitem _)).append
            (printed_writeItems hitems _)).append (printed_newLine level)).append (.cons rfl .nil)
  | @object fields keys each ih =>
      cases fields with
      | nil => exact .cons rfl (.cons rfl .nil)
      | cons field fields =>
          obtain ⟨hfield, hfields⟩ := List.forall_mem_cons.mp ih
          exact ((((Printed.cons rfl (printed_newLine _)).append (printed_field (hfield _))).append
            (printed_writeFields hfields _)).append (printed_newLine level)).append
              (.cons rfl .nil)

end HeaderBind.Json
