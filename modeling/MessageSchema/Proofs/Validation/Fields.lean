import MessageSchema.Proofs.Shape
import MessageSchema.Proofs.Validation.Groups

/-!
# What the schema of a message means

The node of a field accepts what fits the field, and the schema of a message accepts the instances of
the message, as long as references come to what the messages declare that they name. Nodes are judged
on one instance; references in them are followed on instances that are no larger, and from the schema
of a message only on smaller ones.

## Main definitions

* `Pool.Follows`: a reference comes to what the message declares.

## Main results

* `Value.cases_ofField`, `Property.cases_ofField`: what a field becomes.
* `Value.judge_iff_fitsValue`: the node of a value.
* `Property.judge_iff_fits`: the node of a field without options.
* `Shape.judge_iff_conforms`: the schema of a message.
-/

namespace MessageSchema

variable {pool : Pool} {selected : List String} {owner message : Message} {field : Field}
  {follow : String → Instance → Bool} {v : Instance}

/-- On an instance, a reference to a message comes to what the message declares. -/
def Pool.Follows (pool : Pool) (follow : String → Instance → Bool) (held : Message)
    (v : Instance) : Prop :=
  follow (Schema.refStart ++ held.fullName) v = true ↔ pool.Conforms held v

/-! ### What a field becomes -/

/-- The value of a field is a message, one of the numbers of an enum, bytes, or of a primitive
type. -/
theorem Value.cases_ofField {value : Value} (h : Value.ofField pool owner field = .ok value) :
    (field.kind.isMessage = true ∧ ∃ held, pool.message? field.target = some held ∧
      value = { kind := .reference held.fullName }) ∨
    (field.kind = .enum ∧ ∃ e, pool.enumeration? field.target = some e ∧
      value = { kind := .enumerated e.numbers }) ∨
    (field.kind = .bytes ∧ value = { kind := .bytes }) ∨
    (field.kind.isMessage = false ∧ field.kind ≠ .enum ∧
      value = { kind := .plain field.kind.primitive }) := by
  have hreference (hkind : field.kind.isMessage = true)
      (h : (pool.referenced owner field >>= fun m =>
        (pure { kind := .reference m.fullName } : Except SchemaError Value)) = .ok value) :
      field.kind.isMessage = true ∧ ∃ held, pool.message? field.target = some held ∧
        value = { kind := .reference held.fullName } := by
    obtain ⟨held, hheld, h⟩ := Except.bind_eq_ok.mp h
    exact ⟨hkind, held, Pool.referenced_eq_ok.mp hheld, (Except.pure_eq_ok.mp h).symm⟩
  rw [Value.ofField] at h
  split at h
  · exact .inl (hreference (by simp [*, FieldKind.isMessage]) h)
  · exact .inl (hreference (by simp [*, FieldKind.isMessage]) h)
  · rename_i hkind
    split at h
    · rename_i e henum
      exact .inr (.inl ⟨hkind, e, henum, (Except.ok.inj h).symm⟩)
    · cases h
  · rename_i hkind
    exact .inr (.inr (.inl ⟨hkind, (Except.ok.inj h).symm⟩))
  · rename_i hmessage hgroup henum hbytes
    have hplain : field.kind.isMessage = false := by
      revert hmessage hgroup
      cases field.kind <;> simp [FieldKind.isMessage]
    exact .inr (.inr (.inr ⟨hplain, henum, (Except.ok.inj h).symm⟩))

/-- A property has the arity of the field. Its value is that of the field, or for a map field that
of the value of its entry. -/
theorem Property.cases_ofField {property : Property} {title description : String}
    (h : Property.ofField pool owner field title description = .ok property) :
    (field.cardinality = .singular ∧ property.arity = .single ∧
      Value.ofField pool owner field = .ok property.value) ∨
    (field.cardinality = .list ∧ property.arity = .list ∧
      Value.ofField pool owner field = .ok property.value) ∨
    (field.cardinality = .map ∧ ∃ entry key inner, pool.message? field.target = some entry ∧
      entry.fieldByNumber? Message.keyNumber = some key ∧
      entry.fieldByNumber? Message.valueNumber = some inner ∧
      property.arity = .map key.kind.keyPattern? ∧
      Value.ofField pool entry inner = .ok property.value) := by
  rw [Property.ofField] at h
  split at h
  · rename_i hsingular
    obtain ⟨value, hvalue, h⟩ := Except.bind_eq_ok.mp h
    obtain rfl := Except.pure_eq_ok.mp h
    exact .inl ⟨hsingular, rfl, hvalue⟩
  · rename_i hlist
    obtain ⟨value, hvalue, h⟩ := Except.bind_eq_ok.mp h
    obtain rfl := Except.pure_eq_ok.mp h
    exact .inr (.inl ⟨hlist, rfl, hvalue⟩)
  · rename_i hmap
    obtain ⟨⟨entry, key, inner⟩, hentry, h⟩ := Except.bind_eq_ok.mp h
    obtain ⟨value, hvalue, h⟩ := Except.bind_eq_ok.mp h
    obtain rfl := Except.pure_eq_ok.mp h
    obtain ⟨hfound, hkey, hnumber⟩ := Pool.entryFields_eq_ok.mp hentry
    exact .inr (.inr ⟨hmap, entry, key, inner, hfound, hkey, hnumber, rfl, hvalue⟩)

/-! ### Values -/

theorem Pool.fitsValue_message_iff {held : Message} (hkind : field.kind.isMessage = true)
    (hheld : pool.message? field.target = some held) :
    pool.FitsValue field v ↔ pool.Conforms held v := by
  refine ⟨fun hfits => ?_, .message hkind hheld⟩
  cases hfits with
  | message _ hheld' hconforms =>
    obtain rfl := Option.some.inj (hheld.symm.trans hheld')
    exact hconforms
  | boolean _ hother =>
    rw [hother] at hkind
    cases hkind
  | enum hother =>
    rw [hother] at hkind
    cases hkind
  | number _ hother | text _ hother =>
    rcases hother with hother | hother <;> rw [hother] at hkind <;> cases hkind
  | integer hother =>
    revert hkind hother
    cases field.kind <;> simp [FieldKind.isMessage, FieldKind.isInteger]

theorem Pool.fitsValue_enum_iff {e : EnumType} (hkind : field.kind = .enum)
    (henum : pool.enumeration? field.target = some e) :
    pool.FitsValue field v ↔ ∃ x : ℚ, v = .number x ∧ x.isInt = true ∧
      (e.numbers = [] ∨ ∃ n ∈ e.numbers, x = n.toInt) := by
  constructor
  · intro hfits
    cases hfits with
    | enum _ henum' hx hnumber =>
      obtain rfl := Option.some.inj (henum.symm.trans henum')
      exact ⟨_, rfl, hx, hnumber⟩
    | _ => simp_all [FieldKind.isMessage, FieldKind.isInteger]
  · rintro ⟨x, rfl, hx, hnumber⟩
    exact .enum hkind henum hx hnumber

/-- What fits a kind that names no type is told by the primitive type. -/
theorem Pool.fitsValue_plain_iff (hmessage : field.kind.isMessage = false)
    (henum : field.kind ≠ .enum) :
    pool.FitsValue field v ↔ field.kind.primitive.admits v = true := by
  constructor
  · intro hfits
    cases hfits with
    | boolean _ hkind => rw [hkind]; rfl
    | number _ hkind => rcases hkind with hkind | hkind <;> rw [hkind] <;> rfl
    | text _ hkind => rcases hkind with hkind | hkind <;> rw [hkind] <;> rfl
    | enum hkind => exact absurd hkind henum
    | message hkind => rw [hmessage] at hkind; cases hkind
    | integer hkind hx =>
      have hprimitive : field.kind.primitive = .integer := by
        revert hkind
        cases field.kind <;> simp [FieldKind.isInteger, FieldKind.primitive]
      rw [hprimitive]
      exact hx
  · intro hadmits
    cases hkind : field.kind <;> cases v <;>
      simp [hkind, FieldKind.primitive, PrimitiveType.admits, FieldKind.isMessage]
        at hadmits hmessage henum
    all_goals first
      | exact .boolean _ hkind
      | exact .integer (by rw [hkind]; rfl) hadmits
      | exact .number _ (by simp [hkind])
      | exact .text _ (by simp [hkind])

/-- The numbers of an enum as a keyword. -/
theorem Schema.judgeEnum_numbers (numbers : List Int32) (x : ℚ) :
    judgeEnum (numbers.map Int32.toInt64) (.number x) = true ↔
      numbers = [] ∨ ∃ n ∈ numbers, x = n.toInt := by
  simp [judgeEnum, Int32.toInt_toInt64]

/-- The node of a value accepts what fits the kind of the field. -/
theorem Value.judge_iff_fitsValue {value : Value} (h : Value.ofField pool owner field = .ok value)
    (hfollow : ∀ held, field.kind.isMessage = true → pool.message? field.target = some held →
      pool.Follows follow held v) :
    value.toSchema.judge follow v = true ↔ pool.FitsValue field v := by
  obtain ⟨hkind, held, hheld, rfl⟩ | ⟨hkind, e, henum, rfl⟩ | ⟨hkind, rfl⟩ | ⟨hkind, henum, rfl⟩ :=
    Value.cases_ofField h
  · have hfollows := hfollow held hkind hheld
    rw [Pool.Follows] at hfollows
    rw [Pool.fitsValue_message_iff hkind hheld, ← hfollows, Schema.judge_value]
    simp [ValueKind.target?, ValueKind.type?, ValueKind.numbers]
  · rw [Pool.fitsValue_enum_iff hkind henum, Schema.judge_value]
    cases v <;>
      simp [ValueKind.target?, ValueKind.type?, ValueKind.numbers, PrimitiveType.admits,
        Schema.judgeEnum_numbers]
  · rw [Pool.fitsValue_plain_iff (by rw [hkind]; rfl) (by rw [hkind]; decide), Schema.judge_value]
    simp [ValueKind.target?, ValueKind.type?, ValueKind.numbers, hkind, FieldKind.primitive]
  · rw [Pool.fitsValue_plain_iff hkind henum, Schema.judge_value]
    simp [ValueKind.target?, ValueKind.type?, ValueKind.numbers]

/-! ### Fields -/

/-- The pattern of keys says what keys of the kind are. -/
theorem FieldKind.judgePattern_keyPattern (kind : FieldKind) (key : String) :
    kind.keyPattern?.all (Schema.judgePattern · (.text key)) = true ↔ kind.AdmitsKey key := by
  rw [FieldKind.keyPattern?, FieldKind.AdmitsKey]
  split_ifs with hinteger hbool
  · have hne : kind ≠ .bool := by
      rintro rfl
      cases hinteger
    simp [Schema.judgePattern, Regex.read?_numeral, Regex.occursIn_numeral, IsNumeral, hinteger, hne]
  · simp [Schema.judgePattern, Regex.read?_truth, Regex.occursIn_truth, hbool, FieldKind.isInteger]
  · simp [hinteger, hbool]

/-- The node of a field without options accepts what fits the field. -/
theorem Property.judge_iff_fits {property : Property} {title description : String}
    (h : Property.ofField pool owner field title description = .ok property)
    (hfollow : ∀ held, pool.Holds field held → ∀ w, sizeOf w ≤ sizeOf v →
      pool.Follows follow held w) :
    property.toSchema.judge follow v = true ↔ pool.Fits field v := by
  rw [Schema.judge_toSchema, Property.bareSchema]
  obtain ⟨hsingular, harity, hvalue⟩ | ⟨hlist, harity, hvalue⟩ |
    ⟨hmap, entry, key, inner, hentry, hkey, hinner, harity, hvalue⟩ := Property.cases_ofField h
  · rw [harity, Pool.fits_single_iff hsingular]
    refine Value.judge_iff_fitsValue hvalue fun held hkind hheld => hfollow held ?_ v le_rfl
    simp [Pool.Holds, Field.isMap, hsingular, hkind, hheld]
  · rw [harity, Pool.fits_list_iff hlist]
    refine Schema.judge_list _ |>.trans (exists_congr fun items => and_congr_right ?_)
    rintro rfl
    refine forall₂_congr fun item hitem => ?_
    refine Value.judge_iff_fitsValue hvalue fun held hkind hheld =>
      hfollow held ?_ item (Instance.sizeOf_lt_array hitem).le
    simp [Pool.Holds, Field.isMap, hlist, hkind, hheld]
  · rw [harity, Pool.fits_map_iff hmap hentry hkey hinner]
    refine Schema.judge_map _ _ |>.trans (exists_congr fun members => and_congr_right ?_)
    rintro rfl
    refine forall₃_congr fun name w hmember => and_congr ?_ ?_
    · exact FieldKind.judgePattern_keyPattern key.kind name
    · refine Value.judge_iff_fitsValue hvalue fun held hkind hheld =>
        hfollow held ?_ w (Instance.sizeOf_lt_object hmember).le
      simp [Pool.Holds, Field.isMap, hmap, hentry, hinner, hkind, hheld]

/-- The value of a property has no constraints. -/
theorem Property.value_of_ofField {property : Property} {title description : String}
    (h : Property.ofField pool owner field title description = .ok property) :
    property.value = { kind := property.value.kind } := by
  have hbare : ∀ {holder : Message} {inner : Field} {value : Value},
      Value.ofField pool holder inner = .ok value → value = { kind := value.kind } := by
    intro holder inner value hvalue
    obtain ⟨-, held, -, rfl⟩ | ⟨-, e, -, rfl⟩ | ⟨-, rfl⟩ | ⟨-, -, rfl⟩ := Value.cases_ofField hvalue <;>
      rfl
  obtain ⟨-, -, hvalue⟩ | ⟨-, -, hvalue⟩ | ⟨-, _, _, _, -, -, -, -, hvalue⟩ :=
    Property.cases_ofField h
  · exact hbare hvalue
  · exact hbare hvalue
  · exact hbare hvalue

/-- A property is named as its field, has the title and the description of the comment, and sets
nothing else. -/
theorem Property.eq_of_ofField {property : Property} {title description : String}
    (h : Property.ofField pool owner field title description = .ok property) :
    property = { fieldName := field.name, title, description, arity := property.arity
                 value := { kind := property.value.kind } } := by
  have hvalue := Property.value_of_ofField h
  unfold Property.ofField at h
  split at h
  · obtain ⟨value, -, h⟩ := Except.bind_eq_ok.mp h
    obtain rfl := Except.pure_eq_ok.mp h
    exact congrArg (Property.mk _ _ _ _ · _) hvalue
  · obtain ⟨value, -, h⟩ := Except.bind_eq_ok.mp h
    obtain rfl := Except.pure_eq_ok.mp h
    exact congrArg (Property.mk _ _ _ _ · _) hvalue
  · obtain ⟨⟨entry, key, inner⟩, -, h⟩ := Except.bind_eq_ok.mp h
    obtain ⟨value, -, h⟩ := Except.bind_eq_ok.mp h
    obtain rfl := Except.pure_eq_ok.mp h
    exact congrArg (Property.mk _ _ _ _ · _) hvalue

/-- An absent overlay has no options. -/
theorem Field.options_of_absent (h : field.overlay = none ∨ field.overlay = some .null) :
    field.options owner = .ok none := by
  rcases h with h | h <;> rw [Field.options, h] <;> rfl

namespace Shape

/-- Without options a single message is a bare reference, which is judged as the node would be. -/
theorem judge_node {property : Property} {title description : String}
    (h : Property.ofField pool owner field title description = .ok property) :
    (node none property).judge follow v = property.toSchema.judge follow v := by
  have hvalue := Property.value_of_ofField h
  cases htarget : property.target? with
  | none => simp only [node, htarget]
  | some target =>
    have hnode : node none property = .reference target := by simp only [node, htarget]
    rw [Property.target?] at htarget
    split at htarget
    · rename_i hsingle
      rw [hnode, Schema.judge_toSchema, Property.bareSchema, hsingle, hvalue, Schema.judge_value,
        Schema.judge_reference, htarget]
      revert htarget
      cases property.value.kind <;> simp [ValueKind.target?, ValueKind.type?, ValueKind.numbers]
    · cases htarget

/-- The node of a field without an overlay is that of its property. -/
theorem property?_eq_ok {found : Option Schema} (hoverlay : field.overlay.isNone = true)
    (h : property? pool selected owner field = .ok found) : ∃ title description property,
      Property.ofField pool owner field title description = .ok property ∧
        found = some (node none property) := by
  have hoptions : field.options owner = .ok none :=
    Field.options_of_absent (.inl (Option.isNone_iff_eq_none.mp hoverlay))
  obtain ⟨options, hsome, h⟩ := Except.bind_eq_ok.mp h
  obtain rfl := Except.ok.inj (hoptions.symm.trans hsome)
  obtain ⟨property, hproperty, h⟩ := Except.bind_eq_ok.mp h
  obtain ⟨⟨⟩, -, h⟩ := Except.bind_eq_ok.mp h
  exact ⟨_, _, property, hproperty, (Except.pure_eq_ok.mp h).symm⟩

/-! ### Messages -/

/-- Without overlays every field has an entry. -/
theorem entriesOf_fields {fields : List Field} {entries : List (Field × Schema)}
    (hoverlay : ∀ field ∈ fields, field.overlay.isNone = true)
    (h : entriesOf pool selected owner fields = .ok entries) : entries.map (·.1) = fields := by
  induction fields generalizing entries with
  | nil =>
    cases h
    rfl
  | cons field rest ih =>
    obtain ⟨hfield, hrest⟩ := List.forall_mem_cons.mp hoverlay
    obtain ⟨found, others, hfound, hothers, rfl⟩ := entriesOf_cons_eq_ok.mp h
    obtain ⟨_, _, property, -, rfl⟩ := property?_eq_ok hfield hfound
    rw [Option.map_some, Option.toList_some, List.singleton_append, List.map_cons, ih hrest hothers]

/-- Entries are named as their fields. -/
theorem keys_entries (entries : List (Field × Schema)) :
    Dictionary.keys (entries.map fun (field, schema) => (field.name, schema)) =
      (entries.map (·.1)).map (·.name) := by
  rw [Dictionary.keys, List.map_map, List.map_map]
  rfl

/-- Fields with different names have entries of their own. -/
theorem get?_entries {entries : List (Field × Schema)}
    (hnodup : ((entries.map (·.1)).map (·.name)).Nodup) {e : Field × Schema} (he : e ∈ entries) :
    Dictionary.get? e.1.name
      (Dictionary.ofList (entries.map fun (field, schema) => (field.name, schema))) = some e.2 := by
  refine Dictionary.get?_ofList ?_ (List.mem_map_of_mem he)
  rw [keys_entries]
  exact hnodup

/-- The properties of an object are judged field by field if the fields have different names. -/
theorem judge_properties {entries : List (Field × Schema)} {members : List (String × Instance)}
    (hnodup : ((entries.map (·.1)).map (·.name)).Nodup) :
    Schema.judgeMembers (fun name member => ((Dictionary.get? name
        (Dictionary.ofList (entries.map fun (field, schema) => (field.name, schema)))).map
          (·.judge follow member)).getD true) (.object members) = true ↔
      ∀ e ∈ entries, ∀ w, (e.1.name, w) ∈ members → e.2.judge follow w = true := by
  rw [Schema.judgeMembers, List.all_eq_true]
  constructor
  · intro h e he w hw
    have hjudge := h (e.1.name, w) hw
    dsimp only at hjudge
    rwa [get?_entries hnodup he] at hjudge
  · rintro h ⟨name, w⟩ hw
    dsimp only
    cases hget : Dictionary.get? name
        (Dictionary.ofList (entries.map fun (field, schema) => (field.name, schema))) with
    | none => rfl
    | some schema =>
      obtain ⟨e, he, heq⟩ :=
        List.mem_map.mp (Dictionary.mem_of_mem_ofList (Dictionary.mem_of_get? hget))
      cases heq
      exact h e he w hw

/-- The required names are those of the fields that an instance has to have. -/
theorem judge_required {members : List (String × Instance)} {fields : List Field} :
    Schema.judgeRequired ((fields.filter (·.isRequired)).map (·.name)) (.object members) = true ↔
      ∀ field ∈ fields, field.IsMandatory → Instance.has members field.name = true := by
  have hmandatory : ∀ field : Field, field.isRequired = true ↔ field.IsMandatory := by
    intro field
    cases hcardinality : field.cardinality <;>
      simp [Field.isRequired, Field.IsMandatory, Field.isList, Field.isMap, hcardinality, and_comm]
  rw [Schema.judgeRequired, List.all_eq_true]
  constructor
  · intro h field hfield hfieldMandatory
    exact h field.name (List.mem_map_of_mem
      (List.mem_filter.mpr ⟨hfield, (hmandatory field).mpr hfieldMandatory⟩))
  · intro h name hname
    obtain ⟨field, hfield, rfl⟩ := List.mem_map.mp hname
    obtain ⟨hmem, hrequired⟩ := List.mem_filter.mp hfield
    exact h field hmem ((hmandatory field).mp hrequired)

/-- The schema of a message is about objects. -/
theorem judge_message {properties : List (String × Schema)} {required : List String}
    {found : Dictionary (List String)} {title description : Option String} :
    ({ Schema.typed .object with
        title, description, properties, required
        oneOf := alternatives found
        allOf := jointly found } : Schema).judge follow v = true ↔
      ∃ members, v = .object members ∧
        Schema.judgeRequired required (.object members) = true ∧
        (Schema.judgeOne ((alternatives found).map (·.judge follow (.object members))) = true ∧
          (jointly found).all (·.judge follow (.object members)) = true) ∧
        Schema.judgeMembers (fun name member => ((Dictionary.get? name properties).map
          (·.judge follow member)).getD true) (.object members) = true := by
  rw [Schema.judge_eq]
  cases v with
  | object members => simp [Schema.typed, PrimitiveType.admits, Schema.judgeItems]; tauto
  | _ => simp [Schema.typed, PrimitiveType.admits]

/-- **The schema of a message accepts the instances of the message**, as long as the references in
it come to what the messages declare. -/
theorem judge_iff_conforms {shape : Schema} (hplain : message.IsPlain)
    (h : ofMessage pool selected message = .ok shape)
    (hfollow : ∀ held, pool.RefersTo message held → ∀ w, sizeOf w < sizeOf v →
      pool.Follows follow held w) :
    shape.judge follow v = true ↔ pool.Conforms message v := by
  obtain ⟨⟨⟩, -, h⟩ := Except.bind_eq_ok.mp h
  obtain ⟨entries, hentries, h⟩ := Except.bind_eq_ok.mp h
  obtain rfl := Except.pure_eq_ok.mp h
  have hfields := entriesOf_fields hplain.2 hentries
  dsimp only
  rw [hfields, judge_message, Pool.conforms_iff]
  refine exists_congr fun members => and_congr_right ?_
  rintro rfl
  refine and_congr judge_required (and_congr (judge_groups hplain.1) ?_)
  rw [judge_properties (hfields.symm ▸ hplain.1), ← hfields, List.forall_mem_map]
  refine forall₄_congr fun e he w hw => ?_
  obtain ⟨hmem, hproperty⟩ := mem_of_entriesOf hentries he
  obtain ⟨_, _, property, hproperty, hnode⟩ := property?_eq_ok (hplain.2 _ hmem) hproperty
  rw [Option.some.inj hnode, judge_node hproperty]
  refine Property.judge_iff_fits hproperty fun held hholds u hu => ?_
  exact hfollow held ⟨e.1, hmem, hholds⟩ u (hu.trans_lt (Instance.sizeOf_lt_object hw))

end Shape

end MessageSchema
