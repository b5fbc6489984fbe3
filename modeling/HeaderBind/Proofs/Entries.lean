import HeaderBind.Entries
import Mathlib.Data.List.Induction

/-!
# `HeaderBind.Proofs.Entries`: keys, lookup and updates of entries

Entries are told by two readings: the order of their keys and the value found under a key. Putting
a value says what it does to both (`keys_put`, `get?_put`), and so does writing a whole list of
entries over others (`keys_update`, `get?_update`). Entries made from a list are the empty ones
updated with it, and it makes no difference whether a list is written as it stands or made into
entries first (`update_ofList`).
-/

set_option autoImplicit false

namespace HeaderBind.Entries

variable {α : Type} {entries : Entries α}

/-- Entries with later ones written over them, in order. -/
def update (entries : Entries α) (later : List (String × α)) : Entries α :=
  later.foldl (fun entries pair => put pair.1 pair.2 entries) entries

@[simp] theorem update_nil : update entries [] = entries := rfl

@[simp] theorem update_cons (pair : String × α) (later : List (String × α)) :
    update entries (pair :: later) = update (put pair.1 pair.2 entries) later := rfl

theorem update_append (later latest : List (String × α)) :
    update entries (later ++ latest) = update (update entries later) latest :=
  List.foldl_append

/-! ### Keys -/

@[simp] theorem keys_nil : keys ([] : Entries α) = [] := rfl

@[simp] theorem keys_cons (entry : String × α) (rest : Entries α) :
    keys (entry :: rest) = entry.1 :: keys rest := rfl

/-- A new key comes last; a key that is there stays where it is. -/
theorem keys_put (key : String) (value : α) :
    (put key value entries).keys
      = if key ∈ entries.keys then entries.keys else entries.keys ++ [key] := by
  induction entries with
  | nil => rfl
  | cons entry rest ih =>
      rw [put]
      by_cases hkey : entry.1 = key
      · rw [if_pos hkey, keys_cons, keys_cons, hkey, if_pos List.mem_cons_self]
      · rw [if_neg hkey, keys_cons, keys_cons, ih]
        simp only [List.mem_cons, Ne.symm hkey, false_or]
        split <;> rfl

/-- A key that is put is there afterwards, and no other one is added. -/
theorem mem_keys_put {key other : String} {value : α} :
    other ∈ (put key value entries).keys ↔ other = key ∨ other ∈ entries.keys := by
  rw [keys_put]
  split
  · rename_i hkey
    exact ⟨.inr, fun h => h.elim (fun hsame => hsame ▸ hkey) id⟩
  · rw [List.mem_append, List.mem_singleton, or_comm]

/-- Putting a value keeps the keys apart. -/
theorem nodup_keys_put (h : entries.keys.Nodup) (key : String) (value : α) :
    (put key value entries).keys.Nodup := by
  rw [keys_put]
  split
  · exact h
  · rename_i hkey
    exact List.nodup_append.mpr ⟨h, List.pairwise_singleton _ key, fun other hother same hsame => by
      rintro rfl
      exact hkey (List.mem_singleton.mp hsame ▸ hother)⟩

theorem nodup_keys_update (h : entries.keys.Nodup) (later : List (String × α)) :
    (update entries later).keys.Nodup := by
  induction later generalizing entries with
  | nil => exact h
  | cons pair later ih => exact ih (nodup_keys_put h _ _)

/-- The keys of entries that are written over others come behind, as far as they are new. -/
theorem keys_update {later : Entries α} (h : later.keys.Nodup) :
    (update entries later).keys
      = entries.keys ++ later.keys.filter (fun key => key ∉ entries.keys) := by
  induction later generalizing entries with
  | nil => exact (List.append_nil _).symm
  | cons pair later ih =>
      obtain ⟨hfresh, hlater⟩ := List.nodup_cons.mp h
      rw [update_cons, ih hlater, keys_put, keys_cons]
      by_cases hkey : pair.1 ∈ entries.keys
      · rw [if_pos hkey, List.filter_cons_of_neg (by simpa using hkey)]
      · rw [if_neg hkey, List.filter_cons_of_pos (by simpa using hkey), List.append_assoc,
          List.singleton_append]
        -- The key in front does not occur again, so what counts as new behind it is the same.
        congr 2
        refine List.filter_congr fun other hother => ?_
        have hother : other ≠ pair.1 := fun hsame => hfresh (hsame ▸ hother)
        simp [hother]

/-! ### Values -/

theorem get?_cons (entry : String × α) (rest : Entries α) (key : String) :
    get? (entry :: rest) key = if entry.1 = key then some entry.2 else get? rest key := by
  by_cases hkey : entry.1 = key <;> simp [get?, hkey]

/-- A key has a value exactly when it is one of the keys. -/
theorem isSome_get?_iff {key : String} :
    (get? entries key).isSome = true ↔ key ∈ keys entries := by
  rw [get?, Option.isSome_map, List.find?_isSome, keys, List.mem_map]
  simp only [beq_iff_eq]

theorem mem_of_get? {key : String} {value : α}
    (h : get? entries key = some value) : (key, value) ∈ entries := by
  obtain ⟨⟨found, value'⟩, hfind, hvalue⟩ := Option.map_eq_some_iff.mp h
  have hkey := List.find?_some hfind
  have hmem := List.mem_of_find?_eq_some hfind
  simp only [beq_iff_eq] at hkey hvalue
  subst hkey hvalue
  exact hmem

/-- What is found after a value was put is that value or was there before. -/
theorem mem_put {key : String} {value : α} {entry : String × α}
    (h : entry ∈ put key value entries) : entry = (key, value) ∨ entry ∈ entries := by
  induction entries with
  | nil => exact .inl (List.mem_singleton.mp h)
  | cons first rest ih =>
      rw [put] at h
      split at h
      · exact (List.mem_cons.mp h).imp_right (List.mem_cons_of_mem _)
      · rcases List.mem_cons.mp h with rfl | hrest
        · exact .inr List.mem_cons_self
        · exact (ih hrest).imp_right (List.mem_cons_of_mem _)

theorem mem_update {later : List (String × α)} {entry : String × α}
    (h : entry ∈ update entries later) : entry ∈ entries ∨ entry ∈ later := by
  induction later generalizing entries with
  | nil => exact .inl h
  | cons pair later ih =>
      rcases ih h with hput | hlater
      · rcases mem_put hput with rfl | hold
        · exact .inr List.mem_cons_self
        · exact .inl hold
      · exact .inr (List.mem_cons_of_mem _ hlater)

/-- A key has its later value if there is one, and keeps the one it has otherwise. -/
theorem get?_update {later : Entries α} (h : later.keys.Nodup) (key : String) :
    get? (update entries later) key = (get? later key).or (get? entries key) := by
  induction later generalizing entries with
  | nil => rfl
  | cons pair later ih =>
      obtain ⟨hfresh, hlater⟩ := List.nodup_cons.mp h
      rw [update_cons, ih hlater, get?_put, get?_cons]
      by_cases hkey : key = pair.1
      · have hnone : get? later key = none := by
          rw [← Option.not_isSome_iff_eq_none, isSome_get?_iff, hkey]
          exact hfresh
        rw [if_pos hkey, if_pos hkey.symm, hnone, Option.none_or, Option.some_or]
      · rw [if_neg hkey, if_neg (Ne.symm hkey)]

/-- A value that a key has or is given stays if the key is given no other one. -/
theorem get?_update_of_same {later : List (String × α)} {key : String} {value : α}
    (hsame : ∀ pair ∈ later, pair.1 = key → pair.2 = value)
    (hfound : (key, value) ∈ later ∨ get? entries key = some value) :
    get? (update entries later) key = some value := by
  induction later generalizing entries with
  | nil => exact hfound.resolve_left List.not_mem_nil
  | cons pair later ih =>
      refine ih (fun other hother => hsame other (List.mem_cons_of_mem pair hother)) ?_
      rw [get?_put]
      by_cases hkey : key = pair.1
      · rw [if_pos hkey, hsame pair List.mem_cons_self hkey.symm]
        exact .inr rfl
      · rw [if_neg hkey]
        refine hfound.imp_left fun hin => ?_
        rcases List.mem_cons.mp hin with rfl | hin
        · exact absurd rfl hkey
        · exact hin

/-! ### Entries made from a list -/

/-- Entries made from a list have each key once, and their values are from the list. -/
theorem ofList_spec (pairs : List (String × α)) :
    (ofList pairs).keys.Nodup ∧ ∀ entry ∈ ofList pairs, entry ∈ pairs := by
  have hnone : (keys ([] : Entries α)).Nodup := List.nodup_nil
  exact ⟨nodup_keys_update hnone pairs, fun _ hentry =>
    (mem_update hentry).resolve_left List.not_mem_nil⟩

/-- A value for a new key comes last. -/
theorem put_of_notMem {key : String} (h : key ∉ entries.keys) (value : α) :
    put key value entries = entries ++ [(key, value)] := by
  induction entries with
  | nil => rfl
  | cons entry rest ih =>
      obtain ⟨hne, hrest⟩ := not_or.mp (mt List.mem_cons.mpr h)
      rw [put, if_neg (Ne.symm hne), ih hrest, List.cons_append]

/-- Entries that have each key once are those that they make. -/
theorem ofList_eq_self (h : entries.keys.Nodup) : ofList entries = entries := by
  induction entries using List.reverseRecOn with
  | nil => rfl
  | append_singleton front pair ih =>
      rw [keys, List.map_append, List.nodup_append] at h
      have hfresh : pair.1 ∉ keys front := fun hin =>
        h.2.2 pair.1 hin pair.1 List.mem_cons_self rfl
      have hsplit : ofList (front ++ [pair]) = put pair.1 pair.2 (ofList front) :=
        update_append front [pair]
      rw [hsplit, ih h.1, put_of_notMem hfresh]

/-- The value of a key among keyed values is the one that all pairs with the key have. -/
theorem get?_ofList {pairs : List (String × α)} {key : String} {value : α}
    (hmem : (key, value) ∈ pairs) (hsame : ∀ pair ∈ pairs, pair.1 = key → pair.2 = value) :
    get? (ofList pairs) key = some value :=
  get?_update_of_same hsame (.inl hmem)

/-- Of two values that are put under a key the later one stays. -/
theorem put_put (key : String) (value later : α) :
    put key later (put key value entries) = put key later entries := by
  induction entries with
  | nil => simp [put]
  | cons entry rest ih =>
      by_cases hkey : entry.1 = key
      · simp [put, hkey]
      · simp [put, hkey, ih]

/-- A value for a key that is there can be put before or after one for another key. -/
theorem put_comm {key other : String} (hthere : key ∈ entries.keys) (hne : key ≠ other)
    (value value' : α) :
    put key value (put other value' entries) = put other value' (put key value entries) := by
  induction entries with
  | nil => exact absurd hthere List.not_mem_nil
  | cons entry rest ih =>
      by_cases hkey : entry.1 = key
      · have hother : entry.1 ≠ other := hkey ▸ hne
        simp [put, hkey, hne]
      · by_cases hother : entry.1 = other
        · simp [put, hother, Ne.symm hne]
        · have hrest : key ∈ keys rest := by
            rcases List.mem_cons.mp hthere with hsame | hrest
            · exact absurd hsame.symm hkey
            · exact hrest
          simp [put, hkey, hother, ih hrest]

/-- A value for a key that is there can be put before or after an update without the key. -/
theorem put_update {later : Entries α} {key : String} (hthere : key ∈ entries.keys)
    (hfresh : key ∉ later.keys) (value : α) :
    put key value (update entries later) = update (put key value entries) later := by
  induction later generalizing entries with
  | nil => rfl
  | cons pair later ih =>
      obtain ⟨hne, hfresh⟩ := not_or.mp (mt List.mem_cons.mpr hfresh)
      rw [update_cons, update_cons, ih (mem_keys_put.mpr (.inr hthere)) hfresh,
        put_comm hthere hne]

/-- Entries with a further value are written over others like the entries first and then the
value. -/
theorem update_put {later : Entries α} (h : later.keys.Nodup) (key : String) (value : α) :
    update entries (put key value later) = put key value (update entries later) := by
  induction later generalizing entries with
  | nil => rfl
  | cons pair later ih =>
      obtain ⟨hfresh, hlater⟩ := List.nodup_cons.mp h
      rw [put]
      split
      · rename_i hkey
        subst hkey
        rw [update_cons, update_cons, put_update (mem_keys_put.mpr (.inl rfl)) hfresh, put_put]
      · rw [update_cons, update_cons, ih hlater]

/-- A list is written over entries as the entries that it makes. -/
theorem update_ofList (later : List (String × α)) :
    update entries (ofList later) = update entries later := by
  induction later using List.reverseRecOn with
  | nil => rfl
  | append_singleton later pair ih =>
      have hsplit : ofList (later ++ [pair]) = put pair.1 pair.2 (ofList later) :=
        update_append later [pair]
      rw [hsplit, update_put (ofList_spec later).1, ih, update_append]
      rfl

/-- Entries made from two lists are those of the first one updated with those of the second. -/
theorem ofList_append (pairs later : List (String × α)) :
    ofList (pairs ++ later) = update (ofList pairs) (ofList later) := by
  rw [update_ofList]
  exact update_append pairs later

end HeaderBind.Entries
