import MessageSchema.Pool
import MessageSchema.Proofs.Except

/-!
# What a field holds

## Main definitions

* `Pool.Holds`: a field, or the values of a map field, hold a message.
* `Pool.Resolves`: the types that a field needs are found.
-/

namespace MessageSchema

namespace Pool

/-- What a field holds is a message: the type of the field, or for a map field the type of the value
that its entry declares. -/
def Holds (pool : Pool) (field : Field) (message : Message) : Prop :=
  if field.isMap then
    ∃ entry value, pool.message? field.target = some entry ∧
      entry.fieldByNumber? Message.valueNumber = some value ∧ value.kind.isMessage ∧
      pool.message? value.target = some message
  else field.kind.isMessage ∧ pool.message? field.target = some message

/-- The types that a field with a message kind needs are found: its own type, and for a map field the
key and the value of the entry and the type of the value. -/
def Resolves (pool : Pool) (field : Field) : Prop :=
  if field.isMap then
    ∃ entry key value, pool.message? field.target = some entry ∧
      entry.fieldByNumber? Message.keyNumber = some key ∧
      entry.fieldByNumber? Message.valueNumber = some value ∧
      (value.kind.isMessage → ∃ message, pool.message? value.target = some message)
  else ∃ message, pool.message? field.target = some message

variable {pool : Pool} {owner message : Message} {field : Field}

theorem referenced_eq_ok :
    pool.referenced owner field = .ok message ↔ pool.message? field.target = some message := by
  unfold referenced
  split <;> simp_all

theorem referenced_eq_error {e : SchemaError} (h : pool.referenced owner field = .error e) :
    pool.message? field.target = none := by
  unfold referenced at h
  split at h
  · cases h
  · assumption

theorem Holds.exists_message? (h : pool.Holds field message) :
    ∃ name, pool.message? name = some message := by
  unfold Holds at h
  split at h
  · obtain ⟨_, value, -, -, -, hfound⟩ := h
    exact ⟨value.target, hfound⟩
  · exact ⟨field.target, h.2⟩

theorem entryFields_eq_ok {entry : Message} {key value : Field} :
    pool.entryFields owner field = .ok (entry, key, value) ↔
      pool.message? field.target = some entry ∧
        entry.fieldByNumber? Message.keyNumber = some key ∧
        entry.fieldByNumber? Message.valueNumber = some value := by
  simp only [entryFields, Except.bind_eq_ok, referenced_eq_ok]
  constructor
  · rintro ⟨found, hfound, h⟩
    split at h
    · simp only [Except.pure_eq_ok, Prod.mk.injEq] at h
      obtain ⟨rfl, rfl, rfl⟩ := h
      exact ⟨hfound, ‹_›, ‹_›⟩
    · simp at h
  · rintro ⟨hentry, hkey, hvalue⟩
    exact ⟨entry, hentry, by rw [hkey, hvalue]; rfl⟩

end Pool

end MessageSchema
