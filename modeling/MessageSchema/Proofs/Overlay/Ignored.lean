import MessageSchema.Proofs.Overlay.Silence

/-!
# Fields that are left out

Options may leave a field out of the schema of its message. Such a field has to have options that can
be read, and matters to nothing else: the schema is that of the message without the field.

## Main definitions

* `Field.isIgnored`: a field is left out.
* `Message.kept`: a message without the fields that are left out.

## Main results

* `Shape.exists_entries`: the schema of a message is made from the fields that are kept, each with its
  node.
* `Shape.ofMessage_kept`: fields that are left out have no effect.
-/

namespace MessageSchema

variable {pool : Pool} {selected : List String} {owner message : Message} {field : Field}
  {fields : List Field} {entries : List (Field × Schema)} {shape : Schema}

/-- Whether the options of a field leave it out. -/
def Field.isIgnored (owner : Message) (field : Field) : Bool :=
  match field.options owner with
  | .ok (some o) => o.ignore
  | _ => false

/-- The message without the fields that are left out. -/
def Message.kept (message : Message) : Message :=
  message.withFields (message.fields.filter fun field => !field.isIgnored message)

namespace Shape

/-- A field that does not fail has a node unless it is left out. -/
theorem isSome_of_property? {found : Option Schema}
    (h : property? pool selected owner field = .ok found) :
    found.isSome = !field.isIgnored owner := by
  obtain ⟨options, hoptions, h⟩ := Except.bind_eq_ok.mp h
  have hignored : field.isIgnored owner = options.any (·.ignore) := by
    rw [Field.isIgnored, hoptions]
    cases options <;> rfl
  rw [hignored]
  split at h
  · rename_i hignore
    rw [hignore, ← Except.pure_eq_ok.mp h]
    rfl
  · rename_i hkept
    obtain ⟨property, -, h⟩ := Except.bind_eq_ok.mp h
    obtain ⟨⟨⟩, -, h⟩ := Except.bind_eq_ok.mp h
    rw [Bool.eq_false_iff.mpr hkept, ← Except.pure_eq_ok.mp h]
    rfl

/-- The fields with a node are those that are kept, in order. -/
theorem fields_of_entriesOf (h : entriesOf pool selected owner fields = .ok entries) :
    entries.map (·.1) = fields.filter fun field => !field.isIgnored owner := by
  induction fields generalizing entries with
  | nil =>
    cases h
    rfl
  | cons field rest ih =>
    obtain ⟨found, others, hfound, hothers, rfl⟩ := entriesOf_cons_eq_ok.mp h
    rw [List.filter_cons, ← isSome_of_property? hfound, List.map_append, ih hothers]
    cases found <;> rfl

/-- Fields that are left out add nothing to the entries. -/
theorem entriesOf_filter (h : entriesOf pool selected owner fields = .ok entries) :
    entriesOf pool selected owner (fields.filter fun field => !field.isIgnored owner) =
      .ok entries := by
  induction fields generalizing entries with
  | nil => exact h
  | cons field rest ih =>
    obtain ⟨found, others, hfound, hothers, rfl⟩ := entriesOf_cons_eq_ok.mp h
    rw [List.filter_cons, ← isSome_of_property? hfound]
    cases found with
    | none => exact ih hothers
    | some node =>
      rw [Option.isSome_some, if_pos rfl, entriesOf, hfound, ih hothers]
      rfl

/-- The schema of a message is made from the fields that are kept, each with its node. -/
theorem exists_entries (h : ofMessage pool selected message = .ok shape) : ∃ entries,
    entriesOf pool selected message message.fields = .ok entries ∧
      entries.map (·.1) = message.kept.fields ∧ shape = ofEntries message entries := by
  obtain ⟨⟨⟩, -, h⟩ := Except.bind_eq_ok.mp h
  obtain ⟨entries, hentries, h⟩ := Except.bind_eq_ok.mp h
  exact ⟨entries, hentries, fields_of_entriesOf hentries, (Except.pure_eq_ok.mp h).symm⟩

/-- Fields that are left out have no effect. -/
theorem ofMessage_kept (h : ofMessage pool selected message = .ok shape) :
    ofMessage pool selected message.kept = .ok shape := by
  rw [ofMessage_eq] at h ⊢
  obtain ⟨⟨⟩, hkinds, h⟩ := Except.bind_eq_ok.mp h
  obtain ⟨entries, hentries, h⟩ := Except.bind_eq_ok.mp h
  have hkept : entriesOf pool selected message.kept message.kept.fields = .ok entries :=
    (entriesOf_withFields _ _).trans (entriesOf_filter hentries)
  have hsame : message.kept.checkFieldKinds = message.checkFieldKinds := rfl
  rw [hsame, hkinds, Except.ok_bind, hkept, Except.ok_bind]
  exact h

end Shape

end MessageSchema
