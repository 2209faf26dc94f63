import MessageSchema.Dictionary
import Mathlib.Data.List.Basic
import Mathlib.Data.List.Dedup
import Mathlib.Data.String.Basic

/-!
# Dictionaries by lookup and by their entries

Lookup sees the last value that was put under a key. A dictionary in key order is determined by
lookup alone, so what is proved of lookup is proved of the dictionary.

## Main results

* `Dictionary.get?_insert`, `Dictionary.contains_insert`: lookup after an insertion.
* `Dictionary.Sorted.insert`, `Dictionary.sorted_ofList`: the order of keys is kept.
* `Dictionary.Sorted.get?_iff_mem`: lookup in a dictionary in key order finds its entries.
* `Dictionary.Sorted.ofList_eq`: a list in key order is its own dictionary.
* `Dictionary.Sorted.ofList_eq_of_perm`: so are its entries in any other order.
* `Dictionary.Sorted.ext`: two dictionaries in key order with the same lookup are the same.
* `Dictionary.length_ofList_eq_iff`: the dictionary of a list keeps all items if their keys differ.
-/

namespace MessageSchema

namespace Dictionary

universe u

variable {α : Type u} {entries others : Dictionary α} {key other : String} {value : α}

/-! ### Lookup -/

theorem get?_cons (e : String × α) (rest : Dictionary α) :
    get? key (e :: rest) = if e.1 = key then some e.2 else get? key rest := rfl

theorem get?_insert (key other : String) (value : α) (entries : Dictionary α) :
    get? other (insert key value entries) = if other = key then some value else get? other entries := by
  split
  · rename_i h
    rw [h, get?_insert_self]
  · rename_i h
    exact get?_insert_of_ne h value entries

theorem contains_iff : contains key entries = true ↔ ∃ value, get? key entries = some value :=
  Option.isSome_iff_exists

theorem contains_eq_false_iff : contains key entries = false ↔ get? key entries = none := by
  rw [contains, Option.isSome_eq_false_iff, Option.isNone_iff_eq_none]

@[simp] theorem contains_nil : contains key ([] : Dictionary α) = false := rfl

theorem contains_insert (key other : String) (value : α) (entries : Dictionary α) :
    contains other (insert key value entries) = true ↔
      other = key ∨ contains other entries = true := by
  rw [contains, get?_insert, contains]
  split <;> simp_all

theorem contains_insert_of_ne {other : String} (h : other ≠ key) (value : α)
    (entries : Dictionary α) : contains other (insert key value entries) = contains other entries := by
  rw [contains, get?_insert_of_ne h, contains]

theorem contains_insert_of_contains {other : String} (h : contains other entries = true)
    (key : String) (value : α) : contains other (insert key value entries) = true :=
  (contains_insert key other value entries).mpr (.inr h)

/-- An insertion under a key that is there adds no key. -/
theorem contains_insert_iff (h : contains key entries = true) (other : String) (value : α) :
    contains other (insert key value entries) = true ↔ contains other entries = true := by
  rw [contains_insert]
  constructor
  · rintro (rfl | hother)
    · exact h
    · exact hother
  · exact .inr

/-- Lookup finds entries. -/
theorem mem_of_get? (h : get? key entries = some value) : (key, value) ∈ entries := by
  induction entries with
  | nil => simp [get?] at h
  | cons e rest ih =>
    rw [get?_cons] at h
    split at h
    · rename_i hkey
      obtain rfl : e.2 = value := by simpa using h
      simp [← hkey]
    · exact List.mem_cons_of_mem _ (ih h)

theorem exists_get?_of_mem (h : (key, value) ∈ entries) : ∃ v, get? key entries = some v := by
  induction entries with
  | nil => simp at h
  | cons e rest ih =>
    rw [get?_cons]
    split
    · exact ⟨e.2, rfl⟩
    · rename_i hkey
      rcases List.mem_cons.mp h with rfl | h
      · exact absurd rfl hkey
      · exact ih h

theorem contains_iff_mem_keys : contains key entries = true ↔ key ∈ keys entries := by
  rw [contains_iff, keys, List.mem_map]
  constructor
  · rintro ⟨value, h⟩
    exact ⟨(key, value), mem_of_get? h, rfl⟩
  · rintro ⟨⟨k, value⟩, h, rfl⟩
    exact exists_get?_of_mem h

/-! ### Entries -/

/-- An insertion adds one entry and may drop another. -/
theorem mem_of_mem_insert {e : String × α} (h : e ∈ insert key value entries) :
    e = (key, value) ∨ e ∈ entries := by
  induction entries with
  | nil => simpa [insert] using h
  | cons e' rest ih =>
    unfold insert at h
    split at h
    · simpa using h
    · split at h
      · rcases List.mem_cons.mp h with h | h
        · exact .inl h
        · exact .inr (List.mem_cons_of_mem _ h)
      · rcases List.mem_cons.mp h with h | h
        · exact .inr (by simp [h])
        · exact (ih h).imp_right (List.mem_cons_of_mem _)

theorem mem_foldl_insert {items : List (String × α)} {e : String × α}
    (h : e ∈ items.foldl (fun acc (k, v) => insert k v acc) entries) :
    e ∈ items ∨ e ∈ entries := by
  induction items generalizing entries with
  | nil => exact .inr h
  | cons item rest ih =>
    rcases ih h with h | h
    · exact .inl (List.mem_cons_of_mem _ h)
    · exact (mem_of_mem_insert h).imp_left fun h => by simp [h]

/-- Every entry of the dictionary of a list is an item of the list. -/
theorem mem_of_mem_ofList {items : List (String × α)} {e : String × α} (h : e ∈ ofList items) :
    e ∈ items :=
  (mem_foldl_insert h).resolve_right (by simp)

theorem get?_foldl_insert_of_not_mem {items : List (String × α)} (h : key ∉ keys items) :
    get? key (items.foldl (fun acc (k, v) => insert k v acc) entries) = get? key entries := by
  induction items generalizing entries with
  | nil => rfl
  | cons item rest ih =>
    obtain ⟨hne, hrest⟩ : key ≠ item.1 ∧ key ∉ keys rest := by simpa [keys] using h
    exact (ih hrest).trans (get?_insert_of_ne hne item.2 entries)

theorem get?_foldl_insert_of_mem {items : List (String × α)} (hnodup : (keys items).Nodup)
    (h : (key, value) ∈ items) :
    get? key (items.foldl (fun acc (k, v) => insert k v acc) entries) = some value := by
  induction items generalizing entries with
  | nil => simp at h
  | cons item rest ih =>
    obtain ⟨hfirst, hrest⟩ := List.nodup_cons.mp hnodup
    rcases List.mem_cons.mp h with rfl | h
    · exact (get?_foldl_insert_of_not_mem hfirst).trans (get?_insert_self key value entries)
    · exact ih hrest h

/-- In the dictionary of a list without repeated keys, lookup finds the items of the list. -/
theorem get?_ofList {items : List (String × α)} (hnodup : (keys items).Nodup)
    (h : (key, value) ∈ items) : get? key (ofList items) = some value :=
  get?_foldl_insert_of_mem hnodup h

theorem contains_foldl_insert {items : List (String × α)}
    (h : key ∈ keys items ∨ contains key entries = true) :
    contains key (items.foldl (fun acc (k, v) => insert k v acc) entries) = true := by
  induction items generalizing entries with
  | nil => exact h.resolve_left List.not_mem_nil
  | cons item rest ih =>
    refine ih ?_
    rw [contains_insert]
    rcases h with h | h
    · exact (List.mem_cons.mp h).elim (fun h => .inr (.inl h)) .inl
    · exact .inr (.inr h)

theorem exists_get?_ofList {items : List (String × α)} (h : (key, value) ∈ items) :
    ∃ v, get? key (ofList items) = some v :=
  contains_iff.mp (contains_foldl_insert (.inl (List.mem_map_of_mem h)))

/-! ### Key order -/

theorem Sorted.insert (h : Sorted entries) (key : String) (value : α) :
    Sorted (insert key value entries) := by
  induction entries with
  | nil => simp [Dictionary.insert, Sorted]
  | cons e rest ih =>
    obtain ⟨hfirst, hrest⟩ := List.pairwise_cons.mp h
    unfold Dictionary.insert
    split
    · rename_i hlt
      refine List.pairwise_cons.mpr ⟨fun b hb => ?_, h⟩
      rcases List.mem_cons.mp hb with rfl | hb
      · exact hlt
      · exact lt_trans hlt (hfirst b hb)
    · split
      · rename_i heq
        exact List.pairwise_cons.mpr ⟨fun b hb => heq ▸ hfirst b hb, hrest⟩
      · rename_i hlt hne
        refine List.pairwise_cons.mpr ⟨fun b hb => ?_, ih hrest⟩
        rcases mem_of_mem_insert hb with rfl | hb
        · exact lt_of_le_of_ne (not_lt.mp hlt) hne
        · exact hfirst b hb

theorem sorted_foldl_insert (h : Sorted entries) (items : List (String × α)) :
    Sorted (items.foldl (fun acc (k, v) => Dictionary.insert k v acc) entries) := by
  induction items generalizing entries with
  | nil => exact h
  | cons item rest ih => exact ih (h.insert item.1 item.2)

theorem sorted_ofList (items : List (String × α)) : Sorted (ofList items) :=
  sorted_foldl_insert List.Pairwise.nil items

/-- In key order each key has one entry, which lookup finds. -/
theorem Sorted.get?_iff_mem (h : Sorted entries) :
    get? key entries = some value ↔ (key, value) ∈ entries := by
  refine ⟨mem_of_get?, fun hmem => ?_⟩
  induction entries with
  | nil => simp at hmem
  | cons e rest ih =>
    obtain ⟨hfirst, hrest⟩ := List.pairwise_cons.mp h
    rw [get?_cons]
    rcases List.mem_cons.mp hmem with rfl | hmem
    · simp
    · rw [if_neg (hfirst _ hmem).ne, ih hrest hmem]

/-- Dictionaries in key order are determined by lookup. -/
theorem Sorted.ext (h : Sorted entries) (h' : Sorted others)
    (hget : ∀ key, get? key entries = get? key others) : entries = others := by
  have irreflexive : ∀ a b : String × α, a.1 < b.1 → b.1 < a.1 → a = b := fun a b hab hba =>
    absurd hba hab.asymm
  refine List.Perm.eq_of_pairwise (fun a b _ _ => irreflexive a b) h h' ?_
  refine (List.perm_ext_iff_of_nodup ?_ ?_).mpr fun e => ?_
  · exact List.Pairwise.imp (fun hab => by rintro rfl; exact lt_irrefl _ hab) h
  · exact List.Pairwise.imp (fun hab => by rintro rfl; exact lt_irrefl _ hab) h'
  · rw [← h.get?_iff_mem, ← h'.get?_iff_mem, hget]

theorem Sorted.nodup_keys (h : Sorted entries) : (keys entries).Nodup :=
  List.pairwise_map.mpr (h.imp fun hab => hab.ne)

/-- A list that is in key order is its own dictionary. -/
theorem Sorted.ofList_eq (h : Sorted entries) : ofList entries = entries := by
  refine (sorted_ofList entries).ext h fun key => ?_
  cases hget : get? key entries with
  | some value => exact get?_ofList h.nodup_keys (mem_of_get? hget)
  | none =>
    refine contains_eq_false_iff.mp (Bool.eq_false_iff.mpr fun hkey => ?_)
    obtain ⟨value, hvalue⟩ := contains_iff.mp hkey
    obtain ⟨found, hfound⟩ := exists_get?_of_mem (mem_of_mem_ofList (mem_of_get? hvalue))
    rw [hget] at hfound
    cases hfound

/-! ### The dictionary of a list -/

theorem mem_keys_ofList {items : List (String × α)} : key ∈ keys (ofList items) ↔ key ∈ keys items := by
  constructor
  · intro h
    obtain ⟨e, he, rfl⟩ := List.mem_map.mp h
    exact List.mem_map_of_mem (mem_of_mem_ofList he)
  · intro h
    obtain ⟨e, he, rfl⟩ := List.mem_map.mp h
    exact contains_iff_mem_keys.mp (contains_iff.mpr (exists_get?_ofList he))

/-- Without repeated keys the dictionary of a list has the items of the list. -/
theorem ofList_perm {items : List (String × α)} (h : (keys items).Nodup) :
    (ofList items).Perm items := by
  refine (List.perm_ext_iff_of_nodup (sorted_ofList items).nodup_keys.of_map h.of_map).mpr fun e => ?_
  exact ⟨mem_of_mem_ofList, fun he => mem_of_get? (get?_ofList h he)⟩

/-- The entries of a dictionary in any order make up the dictionary. -/
theorem Sorted.ofList_eq_of_perm {items : List (String × α)} (h : Sorted entries)
    (hperm : items.Perm entries) : ofList items = entries := by
  have hnodup : (keys items).Nodup := (hperm.map _).nodup_iff.mpr h.nodup_keys
  refine (sorted_ofList items).ext h fun key => Option.ext fun value => ?_
  rw [(sorted_ofList items).get?_iff_mem, h.get?_iff_mem, (ofList_perm hnodup).mem_iff, hperm.mem_iff]

/-- The dictionary of a list has each key of the list once. -/
theorem keys_ofList_perm_dedup (items : List (String × α)) :
    (keys (ofList items)).Perm (keys items).dedup :=
  (List.perm_ext_iff_of_nodup (sorted_ofList items).nodup_keys (List.nodup_dedup _)).mpr fun _ =>
    mem_keys_ofList.trans List.mem_dedup.symm

theorem keys_ofList_perm {items : List (String × α)} (h : (keys items).Nodup) :
    (keys (ofList items)).Perm (keys items) := by
  have hperm := keys_ofList_perm_dedup items
  rwa [h.dedup] at hperm

/-- The dictionary of a list has as many entries as the list exactly if no key is repeated. -/
theorem length_ofList_eq_iff {items : List (String × α)} :
    (ofList items).length = items.length ↔ (keys items).Nodup := by
  have hlength : (ofList items).length = (keys items).dedup.length := by
    rw [← (keys_ofList_perm_dedup items).length_eq, keys, List.length_map]
  have hitems : items.length = (keys items).length := (List.length_map _).symm
  rw [hlength, hitems, ← List.dedup_eq_self]
  exact ⟨(List.dedup_sublist _).eq_of_length, congrArg List.length⟩

end Dictionary

end MessageSchema
