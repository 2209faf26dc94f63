import MessageSchema.Proofs.Pool
import MessageSchema.Proofs.References
import MessageSchema.Shape

/-!
# What the schema of a message refers to

Every reference in the schema of a message stems from a field that holds messages: it names the
type of the field, or of the values of a map field. Such a reference is only kept if its target is
selected.

## Main results

* `Property.error_of_ofField`: a field fails to become a property for lack of a type.
* `Property.references_toSchema`: the node of a property holds the reference of its value, or none.
* `Shape.ref_of_ofMessage`: where the references in the schema of a message come from.
* `Shape.error_of_ofMessage`: where a failure comes from.
-/

namespace MessageSchema

variable {pool : Pool} {selected : List String} {owner message : Message} {field : Field}

/-! ### The references of a property -/

/-- The references of a value: one if it is a message, and none otherwise. -/
def Value.refs (value : Value) : List String :=
  (value.kind.target?.map (Schema.refStart ++ ·)).toList

theorem Value.references_toSchema (value : Value) : value.toSchema.references = value.refs := by
  simp [Value.toSchema, Schema.references, Schema.referencesOfOption, Schema.referencesOfAll,
    Schema.referencesOfEntries, Value.refs]

namespace Property

theorem references_toSchema (property : Property) :
    property.toSchema.references = property.value.refs := by
  have hkeys : ∀ pattern : Option String, Schema.referencesOfOption
      (pattern.map fun p => ({ pattern := some p } : Schema)) = [] := by
    rintro (_ | p) <;> simp [Schema.referencesOfOption, Schema.references,
      Schema.referencesOfAll, Schema.referencesOfEntries]
  cases h : property.arity with
  | single =>
    simp [toSchema, bareSchema, h, Value.toSchema, Schema.references, Schema.referencesOfOption,
      Schema.referencesOfAll, Schema.referencesOfEntries, Value.refs]
  | list =>
    simp [toSchema, bareSchema, h, Schema.typed, Schema.references, Schema.referencesOfOption,
      Schema.referencesOfAll, Schema.referencesOfEntries, Value.references_toSchema]
  | map keyPattern =>
    simp [toSchema, bareSchema, h, Schema.typed, Schema.references, Schema.referencesOfOption,
      Schema.referencesOfAll, Schema.referencesOfEntries, Value.references_toSchema, hkeys]

theorem refs_apply (o : FieldOptions) (property : Property) :
    (property.apply o).value.refs = property.value.refs := rfl

end Property

/-- A value refers to the message that its field names. -/
theorem Value.target_of_ofField {value : Value} {target : String}
    (h : Value.ofField pool owner field = .ok value) (htarget : value.kind.target? = some target) :
    field.kind.isMessage ∧
      ∃ message, pool.message? field.target = some message ∧ message.fullName = target := by
  have ofReference (hkind : field.kind.isMessage) (h : ((pool.referenced owner field) >>= fun m =>
      (pure { kind := .reference m.fullName } : Except SchemaError Value)) = .ok value) :
      field.kind.isMessage ∧
        ∃ message, pool.message? field.target = some message ∧ message.fullName = target := by
    obtain ⟨message, hmessage, h⟩ := Except.bind_eq_ok.mp h
    obtain rfl := Except.pure_eq_ok.mp h
    exact ⟨hkind, message, Pool.referenced_eq_ok.mp hmessage, Option.some.inj htarget⟩
  unfold Value.ofField at h
  split at h
  · exact ofReference (by simp [*, FieldKind.isMessage]) h
  · exact ofReference (by simp [*, FieldKind.isMessage]) h
  · split at h
    · cases h
      simp [ValueKind.target?] at htarget
    · cases h
  · cases h
    simp [ValueKind.target?] at htarget
  · cases h
    simp [ValueKind.target?] at htarget

/-- A property refers to the message that its field holds. -/
theorem Property.target_of_ofField {property : Property} {title description target : String}
    (h : Property.ofField pool owner field title description = .ok property)
    (htarget : property.value.kind.target? = some target) :
    ∃ message, pool.Holds field message ∧ message.fullName = target := by
  unfold Property.ofField at h
  split at h
  · rename_i hsingular
    obtain ⟨value, hvalue, h⟩ := Except.bind_eq_ok.mp h
    obtain rfl := Except.pure_eq_ok.mp h
    obtain ⟨hkind, message, hmessage, hname⟩ := Value.target_of_ofField hvalue htarget
    exact ⟨message, by simp [Pool.Holds, Field.isMap, hsingular, hkind, hmessage], hname⟩
  · rename_i hlist
    obtain ⟨value, hvalue, h⟩ := Except.bind_eq_ok.mp h
    obtain rfl := Except.pure_eq_ok.mp h
    obtain ⟨hkind, message, hmessage, hname⟩ := Value.target_of_ofField hvalue htarget
    exact ⟨message, by simp [Pool.Holds, Field.isMap, hlist, hkind, hmessage], hname⟩
  · rename_i hmap
    obtain ⟨⟨entry, key, valueField⟩, hentry, h⟩ := Except.bind_eq_ok.mp h
    obtain ⟨value, hvalue, h⟩ := Except.bind_eq_ok.mp h
    obtain rfl := Except.pure_eq_ok.mp h
    obtain ⟨hkind, message, hmessage, hname⟩ := Value.target_of_ofField hvalue htarget
    obtain ⟨hfound, -, hnumber⟩ := Pool.entryFields_eq_ok.mp hentry
    exact ⟨message, by simp [Pool.Holds, Field.isMap, hmap, hfound, hnumber, hkind, hmessage], hname⟩

/-- A field whose type cannot be found: it does not resolve although it needs to, or it holds values
of an enum that is not declared. The enum may be that of the values of a map field. -/
def Pool.Lacks (pool : Pool) (owner : Message) (field : Field) (e : SchemaError) : Prop :=
  (field.isMap = true ∨ field.kind.isMessage = true) ∧ ¬ pool.Resolves field ∨ ∃ holder inner,
    (holder = owner ∧ inner = field ∨
      pool.message? field.target = some holder ∧ inner ∈ holder.fields) ∧
    inner.kind = .enum ∧ pool.enumeration? inner.target = none ∧
    e = Pool.unresolved holder inner inner.target

theorem Value.error_of_ofField {e : SchemaError}
    (h : Value.ofField pool owner field = .error e) :
    (field.kind.isMessage ∧ pool.message? field.target = none) ∨
      field.kind = .enum ∧ pool.enumeration? field.target = none ∧
        e = Pool.unresolved owner field field.target := by
  have ofReference (hkind : field.kind.isMessage) (h : ((pool.referenced owner field) >>= fun m =>
      (pure { kind := .reference m.fullName } : Except SchemaError Value)) = .error e) :
      field.kind.isMessage ∧ pool.message? field.target = none := by
    rcases Except.bind_eq_error.mp h with h | ⟨_, -, h⟩
    · exact ⟨hkind, Pool.referenced_eq_error h⟩
    · exact absurd h Except.pure_ne_error
  unfold Value.ofField at h
  split at h
  · exact .inl (ofReference (by simp [*, FieldKind.isMessage]) h)
  · exact .inl (ofReference (by simp [*, FieldKind.isMessage]) h)
  · rename_i hkind
    split at h
    · cases h
    · rename_i hnone
      exact .inr ⟨hkind, hnone, (Except.error.inj h).symm⟩
  · cases h
  · cases h

theorem Property.error_of_ofField {title description : String} {e : SchemaError}
    (h : Property.ofField pool owner field title description = .error e) :
    pool.Lacks owner field e := by
  have single (hmap : field.isMap = false) (h : Value.ofField pool owner field = .error e) :
      pool.Lacks owner field e := by
    rcases Value.error_of_ofField h with ⟨hkind, hnone⟩ | h
    · exact .inl ⟨.inr hkind, by simp [Pool.Resolves, hmap, hnone]⟩
    · exact .inr ⟨owner, field, .inl ⟨rfl, rfl⟩, h⟩
  unfold Property.ofField at h
  split at h
  · rename_i hsingular
    rcases Except.bind_eq_error.mp h with h | ⟨_, -, h⟩
    · exact single (by simp [Field.isMap, hsingular]) h
    · exact absurd h Except.pure_ne_error
  · rename_i hlist
    rcases Except.bind_eq_error.mp h with h | ⟨_, -, h⟩
    · exact single (by simp [Field.isMap, hlist]) h
    · exact absurd h Except.pure_ne_error
  · rename_i hmap
    have hmap : field.isMap = true := by simp [Field.isMap, hmap]
    rcases Except.bind_eq_error.mp h with h | ⟨⟨entry, key, value⟩, hentry, h⟩
    · refine .inl ⟨.inl hmap, fun hresolves => ?_⟩
      rw [Pool.Resolves, if_pos hmap] at hresolves
      obtain ⟨entry, key, value, hfound, hkey, hvalue, -⟩ := hresolves
      have hok : pool.entryFields owner field = .ok (entry, key, value) :=
        Pool.entryFields_eq_ok.mpr ⟨hfound, hkey, hvalue⟩
      rw [h] at hok
      cases hok
    · obtain ⟨hfound, hkey, hvalue⟩ := Pool.entryFields_eq_ok.mp hentry
      rcases Except.bind_eq_error.mp h with h | ⟨_, -, h⟩
      · rcases Value.error_of_ofField h with ⟨hkind, hnone⟩ | h
        · refine .inl ⟨.inl hmap, fun hresolves => ?_⟩
          rw [Pool.Resolves, if_pos hmap] at hresolves
          obtain ⟨entry', _, value', hfound', -, hvalue', htype⟩ := hresolves
          obtain rfl := Option.some.inj (hfound.symm.trans hfound')
          obtain rfl := Option.some.inj (hvalue.symm.trans hvalue')
          obtain ⟨message, hmessage⟩ := htype hkind
          rw [hnone] at hmessage
          cases hmessage
        · exact .inr ⟨entry, value, .inr ⟨hfound, List.mem_of_find?_eq_some hvalue⟩, h⟩
      · exact absurd h Except.pure_ne_error

namespace Shape

/-! ### The node of a field -/

theorem references_node (options : Option FieldOptions) (property : Property) :
    (node options property).references = property.value.refs := by
  unfold node
  split
  · rename_i target htarget
    have hvalue : property.value.kind.target? = some target := by
      unfold Property.target? at htarget
      split at htarget
      · exact htarget
      · cases htarget
    simp [Schema.reference, Schema.references, Schema.referencesOfOption, Schema.referencesOfAll,
      Schema.referencesOfEntries, Value.refs, hvalue]
  · exact property.references_toSchema
  · rename_i o
    rw [Property.references_toSchema, Property.refs_apply]

theorem checkReferences_eq_ok {node : Schema} :
    checkReferences selected owner field node = .ok () ↔
      ∀ ref ∈ node.references, (Schema.refName? ref).getD ref ∈ selected := by
  simp only [checkReferences]
  split
  · rename_i target hfind
    obtain ⟨hmem, hout⟩ := And.intro (List.mem_of_find?_eq_some hfind) (List.find?_some hfind)
    obtain ⟨ref, href, rfl⟩ := List.mem_map.mp hmem
    simp only [Bool.not_eq_eq_eq_not, Bool.not_true, List.contains_eq_mem, decide_eq_false_iff_not]
      at hout
    exact ⟨(nomatch ·), fun h => absurd (h ref href) hout⟩
  · rename_i hfind
    refine ⟨fun _ ref href => ?_, fun _ => rfl⟩
    simpa using List.find?_eq_none.mp hfind _ (List.mem_map_of_mem href)

/-- The node of a field refers to the message that the field holds, which is selected. -/
theorem ref_of_property? {node : Schema} {ref : String}
    (h : property? pool selected owner field = .ok (some node)) (href : ref ∈ node.references) :
    ∃ message, pool.Holds field message ∧ ref = Schema.refStart ++ message.fullName ∧
      message.fullName ∈ selected := by
  obtain ⟨options, -, h⟩ := Except.bind_eq_ok.mp h
  split at h
  · simp at h
  · obtain ⟨property, hproperty, h⟩ := Except.bind_eq_ok.mp h
    obtain ⟨⟨⟩, hcheck, h⟩ := Except.bind_eq_ok.mp h
    obtain rfl := Option.some.inj (Except.pure_eq_ok.mp h)
    have hselected := checkReferences_eq_ok.mp hcheck ref href
    rw [references_node, Value.refs] at href
    cases htarget : property.value.kind.target? with
    | none => simp [htarget] at href
    | some target =>
      obtain ⟨message, hholds, rfl⟩ := Property.target_of_ofField hproperty htarget
      obtain rfl : ref = Schema.refStart ++ message.fullName := by simpa [htarget] using href
      exact ⟨message, hholds, rfl, by simpa using hselected⟩

theorem error_of_checkReferences {node : Schema} {e : SchemaError}
    (h : checkReferences selected owner field node = .error e) :
    ∃ ref ∈ node.references, (Schema.refName? ref).getD ref ∉ selected ∧
      e = Pool.unresolved owner field ((Schema.refName? ref).getD ref) := by
  simp only [checkReferences] at h
  split at h
  · rename_i target hfind
    obtain ⟨ref, href, rfl⟩ := List.mem_map.mp (List.mem_of_find?_eq_some hfind)
    cases h
    exact ⟨ref, href, by simpa using List.find?_some hfind, rfl⟩
  · cases h

/-- A field fails because of its options, because its type cannot be found, or because it refers to
a message that is not selected. -/
theorem error_of_property? {e : SchemaError}
    (h : property? pool selected owner field = .error e) :
    field.options owner = .error e ∨
      pool.Lacks owner field e ∨
      ∃ message, pool.Holds field message ∧ message.fullName ∉ selected ∧
        e = Pool.unresolved owner field message.fullName := by
  rcases Except.bind_eq_error.mp h with h | ⟨options, -, h⟩
  · exact .inl h
  · split at h
    · exact absurd h Except.pure_ne_error
    · rcases Except.bind_eq_error.mp h with h | ⟨property, hproperty, h⟩
      · exact .inr (.inl (Property.error_of_ofField h))
      · rcases Except.bind_eq_error.mp h with h | ⟨_, -, h⟩
        · obtain ⟨ref, href, hout, rfl⟩ := error_of_checkReferences h
          rw [references_node, Value.refs] at href
          cases htarget : property.value.kind.target? with
          | none => simp [htarget] at href
          | some target =>
            obtain ⟨message, hholds, rfl⟩ := Property.target_of_ofField hproperty htarget
            obtain rfl : ref = Schema.refStart ++ message.fullName := by
              simpa [htarget] using href
            exact .inr (.inr ⟨message, hholds, by simpa using hout, by simp⟩)
        · exact absurd h Except.pure_ne_error

/-! ### The schema of a message -/

/-- Fields have entries if each of them has a node or is ignored. -/
theorem entriesOf_cons_eq_ok {fields : List Field} {entries : List (Field × Schema)} :
    entriesOf pool selected owner (field :: fields) = .ok entries ↔
      ∃ found others, property? pool selected owner field = .ok found ∧
        entriesOf pool selected owner fields = .ok others ∧
        (found.map (field, ·)).toList ++ others = entries := by
  constructor
  · intro h
    obtain ⟨found, hfound, h⟩ := Except.bind_eq_ok.mp h
    obtain ⟨others, hothers, h⟩ := Except.bind_eq_ok.mp h
    exact ⟨found, others, hfound, hothers, Except.pure_eq_ok.mp h⟩
  · rintro ⟨found, others, hfound, hothers, rfl⟩
    exact Except.bind_eq_ok.mpr ⟨found, hfound, Except.bind_eq_ok.mpr ⟨others, hothers, rfl⟩⟩

theorem mem_of_entriesOf {fields : List Field} {entries : List (Field × Schema)}
    (h : entriesOf pool selected owner fields = .ok entries) {e : Field × Schema}
    (he : e ∈ entries) : e.1 ∈ fields ∧ property? pool selected owner e.1 = .ok (some e.2) := by
  induction fields generalizing entries with
  | nil =>
    cases h
    simp at he
  | cons field rest ih =>
    obtain ⟨schema, others, hschema, hothers, rfl⟩ := entriesOf_cons_eq_ok.mp h
    rcases List.mem_append.mp he with he | he
    · obtain ⟨node, rfl, rfl⟩ : ∃ node, schema = some node ∧ e = (field, node) := by
        cases schema <;> simp_all
      exact ⟨by simp, hschema⟩
    · obtain ⟨hmem, hproperty⟩ := ih hothers he
      exact ⟨List.mem_cons_of_mem _ hmem, hproperty⟩

theorem error_of_entriesOf {fields : List Field} {e : SchemaError}
    (h : entriesOf pool selected owner fields = .error e) :
    ∃ field ∈ fields, property? pool selected owner field = .error e := by
  induction fields with
  | nil => cases h
  | cons field rest ih =>
    rcases Except.bind_eq_error.mp h with h | ⟨_, -, h⟩
    · exact ⟨field, by simp, h⟩
    · rcases Except.bind_eq_error.mp h with h | ⟨_, -, h⟩
      · obtain ⟨other, hmem, h⟩ := ih h
        exact ⟨other, List.mem_cons_of_mem _ hmem, h⟩
      · exact absurd h Except.pure_ne_error

theorem references_requiring (name : String) : (Schema.requiring name).references = [] := by
  simp [Schema.requiring, Schema.references, Schema.referencesOfOption, Schema.referencesOfAll,
    Schema.referencesOfEntries]

theorem referencesOfAll_exclusive (members : List String) :
    Schema.referencesOfAll (exclusive members) = [] := by
  induction members with
  | nil => rfl
  | cons name rest ih =>
    exact List.append_eq_nil_iff.mpr ⟨references_requiring name, ih⟩

theorem referencesOfAll_alternatives (found : Dictionary (List String)) :
    Schema.referencesOfAll (alternatives found) = [] := by
  unfold alternatives
  split
  · exact referencesOfAll_exclusive _
  · rfl

theorem referencesOfAll_jointly (found : Dictionary (List String)) :
    Schema.referencesOfAll (jointly found) = [] := by
  unfold jointly
  split
  · rfl
  · rfl
  · refine List.eq_nil_iff_forall_not_mem.mpr fun ref href => ?_
    obtain ⟨node, hnode, href⟩ := Schema.mem_referencesOfAll.mp href
    obtain ⟨⟨_, members⟩, -, rfl⟩ := List.mem_map.mp hnode
    simp [Schema.references, Schema.referencesOfOption, Schema.referencesOfEntries,
      referencesOfAll_exclusive, Schema.referencesOfAll] at href

/-- Every reference in the schema of a message is that of a field, and its target is selected. -/
theorem ref_of_ofMessage {shape : Schema} {ref : String}
    (h : ofMessage pool selected owner = .ok shape) (href : ref ∈ shape.references) :
    ∃ field ∈ owner.fields, ∃ message, pool.Holds field message ∧
      ref = Schema.refStart ++ message.fullName ∧ message.fullName ∈ selected := by
  obtain ⟨⟨⟩, -, h⟩ := Except.bind_eq_ok.mp h
  obtain ⟨entries, hentries, h⟩ := Except.bind_eq_ok.mp h
  obtain rfl := Except.pure_eq_ok.mp h
  simp only [Schema.typed, Schema.references, Schema.referencesOfOption, Option.toList_none,
    List.nil_append, referencesOfAll_alternatives, referencesOfAll_jointly,
    Schema.referencesOfEntries, List.append_nil, Schema.mem_referencesOfEntries] at href
  obtain ⟨property, hproperty, href⟩ := href
  obtain ⟨e, he, rfl⟩ := List.mem_map.mp (Dictionary.mem_of_mem_ofList hproperty)
  obtain ⟨hmem, hnode⟩ := mem_of_entriesOf hentries he
  obtain ⟨message, hmessage⟩ := ref_of_property? hnode href
  exact ⟨e.1, hmem, message, hmessage⟩

theorem error_of_ofMessage {e : SchemaError} (h : ofMessage pool selected owner = .error e) :
    (∃ field ∈ owner.unsupported, e = owner.unsupportedFault field) ∨
      ∃ field ∈ owner.fields, property? pool selected owner field = .error e := by
  rcases Except.bind_eq_error.mp h with h | ⟨_, -, h⟩
  · unfold Message.checkFieldKinds at h
    split at h
    · cases h
    · rename_i field rest hfields
      cases h
      exact .inl ⟨field, by simp [hfields], rfl⟩
  · rcases Except.bind_eq_error.mp h with h | ⟨_, -, h⟩
    · exact .inr (error_of_entriesOf h)
    · exact absurd h Except.pure_ne_error

end Shape

end MessageSchema
