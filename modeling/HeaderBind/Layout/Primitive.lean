/-!
# `HeaderBind.Layout.Primitive`: integers of a fixed width

A member of a structure is an integer of one, two, four or eight bytes, with or without a sign.
Each of the eight has a letter in a format. A format offers five letters for integers with a sign,
and their capitals for those without; two of the five are of one width, and the one that is tried
first is taken. `Primitive.table` is built in that way.
-/

set_option autoImplicit false

namespace HeaderBind

/-- The width of an integer. -/
inductive Width where
  | one
  | two
  | four
  | eight
  deriving DecidableEq, Repr

namespace Width

/-- Every width, the narrowest first. -/
def all : List Width :=
  [one, two, four, eight]

/-- The number of bytes. -/
def bytes : Width → Nat
  | one => 1
  | two => 2
  | four => 4
  | eight => 8

end Width

/-- An integer as it lies in memory. -/
structure Primitive where
  width : Width
  signed : Bool
  deriving DecidableEq, Repr

namespace Primitive

/-- The letters for integers with a sign, in the order in which they are tried. -/
def signedLetters : List Char :=
  ['b', 'h', 'i', 'l', 'q']

/-- The number of bytes of such a letter where widths are standard. -/
def letterBytes : Char → Nat
  | 'b' => 1
  | 'h' => 2
  | 'i' => 4
  | 'l' => 4
  | _ => 8

/-- The letters in a format by number of bytes and sign. -/
abbrev Table := List ((Nat × Bool) × Char)

/-- The table with a letter for a kind of integer, unless it has one. -/
def Table.setDefault (table : Table) (kind : Nat × Bool) (letter : Char) : Table :=
  if table.any fun entry => entry.1 == kind then table else table ++ [(kind, letter)]

/-- The table of all letters, the first letter of a kind kept. -/
def table : Table :=
  signedLetters.foldl (fun table letter =>
    (table.setDefault (letterBytes letter, true) letter).setDefault (letterBytes letter, false)
      letter.toUpper) []

/-- The letter of an integer of some bytes, with a sign or without, if there is one. -/
def letter? (bytes : Nat) (signed : Bool) : Option Char :=
  (table.find? fun entry => entry.1 == (bytes, signed)).map Prod.snd

/-- Every width has a letter. -/
theorem isSome_letter? (width : Width) (signed : Bool) :
    (letter? width.bytes signed).isSome = true := by
  cases width <;> cases signed <;> rfl

/-- The letter of the integer in a format. -/
def code (primitive : Primitive) : Char :=
  (letter? primitive.width.bytes primitive.signed).get (isSome_letter? _ _)

/-- What the table says, letter by letter. -/
theorem code_eq (primitive : Primitive) :
    primitive.code =
      match primitive.width, primitive.signed with
      | .one, true => 'b'
      | .one, false => 'B'
      | .two, true => 'h'
      | .two, false => 'H'
      | .four, true => 'i'
      | .four, false => 'I'
      | .eight, true => 'q'
      | .eight, false => 'Q' := by
  obtain ⟨width, signed⟩ := primitive
  cases width <;> cases signed <;> rfl

/-- The integer of a number of bytes, if there is one. -/
def ofBytes? (bytes : Int) (signed : Bool) : Option Primitive :=
  (Width.all.find? fun width => (width.bytes : Int) == bytes).map (⟨·, signed⟩)

/-- There is an integer of a number of bytes if the table has a letter for it, and the letter is
its own. -/
theorem letter?_eq (bytes : Nat) (signed : Bool) :
    letter? bytes signed = (ofBytes? bytes signed).map code := by
  by_cases h : bytes ∈ Width.all.map Width.bytes
  · obtain ⟨width, -, rfl⟩ := List.mem_map.mp h
    cases width <;> cases signed <;> rfl
  · have hnone : ofBytes? bytes signed = none := by
      rw [ofBytes?, Option.map_eq_none_iff, List.find?_eq_none]
      intro width hwidth hbytes
      exact h (List.mem_map.mpr ⟨width, hwidth, Int.ofNat_inj.mp (beq_iff_eq.mp hbytes)⟩)
    have hkinds : ∀ entry ∈ table, entry.1.1 ∈ Width.all.map Width.bytes := by decide
    rw [hnone, letter?, Option.map_none, Option.map_eq_none_iff, List.find?_eq_none]
    intro entry hentry hkind
    have hbytes := hkinds entry hentry
    rw [beq_iff_eq.mp hkind] at hbytes
    exact h hbytes

/-- The word for the sign of an integer in messages. -/
def signWord (signed : Bool) : String :=
  if signed then "signed" else "unsigned"

end Primitive

end HeaderBind
