/-!
# Dictionaries in key order

A dictionary is a list of entries in increasing order of their keys, each key once. Keys are
compared by code point, which is also the order of their bytes.

## Main definitions

* `Dictionary`: the list of entries; `Dictionary.Sorted` says that it is in order.
* `Dictionary.get?`, `Dictionary.insert`: lookup, and an entry added or replaced.
* `Dictionary.ofList`: a dictionary of a list of entries, of which the last of a key counts.

## Main results

* `Dictionary.get?_insert_self`, `Dictionary.get?_insert_of_ne`: what an insertion changes.
-/

namespace MessageSchema

universe u

/-- Entries in increasing order of their keys. -/
abbrev Dictionary (α : Type u) := List (String × α)

namespace Dictionary

variable {α : Type u}

/-- Keys increase from each entry to the next. -/
def Sorted (entries : Dictionary α) : Prop :=
  entries.Pairwise fun a b => a.1 < b.1

/-- The keys in order. -/
def keys (entries : Dictionary α) : List String :=
  entries.map (·.1)

/-- The value under a key. -/
def get? (key : String) : Dictionary α → Option α
  | [] => none
  | (k, v) :: rest => if k = key then some v else get? key rest

/-- Whether a key has a value. -/
def contains (key : String) (entries : Dictionary α) : Bool :=
  (get? key entries).isSome

/-- The dictionary with a value under a key, whatever stood there. -/
def insert (key : String) (value : α) : Dictionary α → Dictionary α
  | [] => [(key, value)]
  | (k, v) :: rest =>
    if key < k then (key, value) :: (k, v) :: rest
    else if k = key then (key, value) :: rest
    else (k, v) :: insert key value rest

/-- The dictionary of a list of entries; of several with one key the last counts. -/
def ofList (entries : List (String × α)) : Dictionary α :=
  entries.foldl (fun acc (k, v) => insert k v acc) []

@[simp] theorem get?_insert_self (key : String) (value : α) (entries : Dictionary α) :
    get? key (insert key value entries) = some value := by
  induction entries with
  | nil => simp [insert, get?]
  | cons e rest ih =>
    obtain ⟨k, v⟩ := e
    unfold insert
    split
    · simp [get?]
    · split
      · simp [get?]
      · rename_i hne
        simp [get?, hne, ih]

theorem get?_insert_of_ne {key other : String} (h : other ≠ key) (value : α)
    (entries : Dictionary α) : get? other (insert key value entries) = get? other entries := by
  induction entries with
  | nil => simp [insert, get?, Ne.symm h]
  | cons e rest ih =>
    obtain ⟨k, v⟩ := e
    unfold insert
    split
    · simp [get?, Ne.symm h]
    · split
      · rename_i hk
        subst hk
        simp [get?, Ne.symm h]
      · simp [get?, ih]

end Dictionary

end MessageSchema
