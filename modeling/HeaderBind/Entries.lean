/-!
# `HeaderBind.Entries`: entries in order of first appearance

Objects of a document and the results of a probe are lists of keyed values. A key occurs once: a
later value for the same key replaces the earlier one and stays at its place.
-/

set_option autoImplicit false

namespace HeaderBind

/-- Keyed values, in order of the first appearance of their keys. -/
abbrev Entries (α : Type) := List (String × α)

namespace Entries

variable {α : Type}

/-- The value of a key. -/
def get? (entries : Entries α) (key : String) : Option α :=
  (entries.find? fun entry => entry.1 == key).map Prod.snd

/-- The keys in order. -/
def keys (entries : Entries α) : List String :=
  entries.map Prod.fst

/-- The entries with a value for `key`: at the place of its old value, or at the end. -/
def put (key : String) (value : α) : Entries α → Entries α
  | [] => [(key, value)]
  | entry :: rest =>
    if entry.1 = key then (key, value) :: rest else entry :: put key value rest

/-- The entries that a list of keyed values leaves behind, the first one written first. -/
def ofList (pairs : List (String × α)) : Entries α :=
  pairs.foldl (fun entries pair => put pair.1 pair.2 entries) []

@[simp] theorem get?_nil (key : String) : get? ([] : Entries α) key = none := rfl

/-- What was put last is found, and no other key notices. -/
theorem get?_put (entries : Entries α) (key other : String) (value : α) :
    get? (put key value entries) other =
      if other = key then some value else get? entries other := by
  induction entries with
  | nil => by_cases h : other = key <;> simp [put, get?, h, Ne.symm]
  | cons entry rest ih =>
    simp only [get?] at ih ⊢
    by_cases hkey : entry.1 = key
    · by_cases h : key = other
      · simp [put, hkey, h]
      · have hne : ¬ other = key := fun e => h e.symm
        simp [put, hkey, h, hne]
    · by_cases hother : entry.1 = other
      · have hne : ¬ other = key := fun e => hkey (hother.trans e)
        simp [put, hother, hne]
      · simpa [put, hkey, hother] using ih

end Entries

end HeaderBind
