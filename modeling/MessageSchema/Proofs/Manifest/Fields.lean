import MessageSchema.Proofs.Manifest.Names
import Mathlib.Data.List.Forall2

/-!
# Fields of a manifest and their descriptors

Each field of a message has a descriptor, in order. Its type is what the manifest says of it: a
scalar kind, what a name means around the message, or an entry of its own that pairs keys and values.

## Main definitions

* `Manifest.TypedBy`: a field has the type that a text names.
* `Manifest.IsEntry`: a message is the entry of a map field.
* `Manifest.Describes`: a descriptor of a field.

## Main results

* `Manifest.describes_of_fieldsOf`: each field of a message has its descriptor.
* `Manifest.entries_of_fieldsOf`: the entries are those of the map fields, in order.
* `Manifest.kind_of_fieldsOf`: map fields have the kind of a message.
-/

namespace MessageSchema

namespace Manifest

variable {manifest : Manifest} {names : Dictionary Declared} {owner : Owner} {scope label : String}
  {spec : FieldSpec} {map : MapSpec} {field : Field} {entry : Message} {entries : List Message}

/-- The kind and the type name that a text gives in a scope: a scalar kind for a keyword, or else what
the text means there. -/
inductive TypedBy (manifest : Manifest) (scope text : String) : FieldKind → Option String → Prop
  | scalar {kind} : scalarKind? text = some kind → TypedBy manifest scope text kind none
  | declared {full declared} : scalarKind? text = none → manifest.Means scope text full declared →
      TypedBy manifest scope text declared.kind (some full)

/-- The group that a field asks for: a group of its own for an optional field. -/
def groupOf (spec : FieldSpec) : Option Oneof :=
  if spec.label = some .optional then some ⟨"_" ++ spec.name, true⟩
  else spec.oneof.map (⟨·, false⟩)

/-- A message is the entry of a map field of an owner: its first field is a key of the asked kind, its
second field a value of the asked type. -/
structure IsEntry (manifest : Manifest) (owner : String) (spec : FieldSpec) (map : MapSpec)
    (entry : Message) : Prop where
  fullName : entry.fullName = Text.qualified owner (entryName spec.name)
  mapEntry : entry.mapEntry = true
  nested : entry.nested = []
  enums : entry.enums = []
  fields : ∃ key value, entry.fields = [key, value] ∧ key.number = Message.keyNumber ∧
    value.number = Message.valueNumber ∧ scalarKind? map.key = some key.kind ∧
    isKeyKind key.kind = true ∧ key.isMap = false ∧ value.isMap = false ∧
    manifest.TypedBy owner map.value value.kind value.typeName

/-- A field of an owner is what a manifest says of it, where the entries of the owner are given. -/
structure Describes (manifest : Manifest) (owner : String) (entries : List Message)
    (spec : FieldSpec) (field : Field) : Prop where
  name : field.name = spec.name
  typed : (∃ text, spec.type = some text ∧ spec.map = none ∧ field.isMap = false ∧
      manifest.TypedBy owner text field.kind field.typeName) ∨
    ∃ map entry, spec.type = none ∧ spec.map = some map ∧ field.isMap = true ∧
      field.typeName = some entry.fullName ∧ entry ∈ entries ∧ manifest.IsEntry owner spec map entry
  optional : field.optional = true ↔ spec.label = some .optional
  ungrouped : spec.label = some .optional → spec.oneof = none
  oneof : field.oneof = (groupOf spec).map (·.name)

theorem Describes.mono {owner : String} {others : List Message}
    (h : manifest.Describes owner entries spec field) (hsub : entries ⊆ others) :
    manifest.Describes owner others spec field where
  name := h.name
  typed := h.typed.imp_right fun ⟨map, entry, htype, hmap, hfield, hname, hentry, his⟩ =>
    ⟨map, entry, htype, hmap, hfield, hname, hsub hentry, his⟩
  optional := h.optional
  ungrouped := h.ungrouped
  oneof := h.oneof

/-- What is not a keyword is read as a name. -/
theorem TypedBy.exists_means {text : String} {kind : FieldKind} {typeName : Option String}
    (h : manifest.TypedBy scope text kind typeName) (hscalar : scalarKind? text = none) :
    ∃ full declared, manifest.Means scope text full declared ∧ kind = declared.kind ∧
      typeName = some full := by
  cases h with
  | scalar hkind => rw [hscalar] at hkind; cases hkind
  | declared _ hmeans => exact ⟨_, _, hmeans, rfl, rfl⟩

/-- A keyword is read as its scalar kind. -/
theorem TypedBy.eq_scalar {text : String} {kind scalar : FieldKind} {typeName : Option String}
    (h : manifest.TypedBy scope text kind typeName) (hscalar : scalarKind? text = some scalar) :
    kind = scalar ∧ typeName = none := by
  cases h with
  | scalar hkind => exact ⟨Option.some.inj (hkind.symm.trans hscalar), rfl⟩
  | declared hnone => rw [hscalar] at hnone; cases hnone

/-! ### One field -/

theorem kindOf_eq_ok (hnames : manifest.declared = .ok names) {text : String} {kind : FieldKind}
    {typeName : Option String} (h : kindOf names scope label text = .ok (kind, typeName)) :
    manifest.TypedBy scope text kind typeName := by
  unfold kindOf at h
  cases hscalar : scalarKind? text with
  | some scalar =>
    simp only [hscalar, Except.ok.injEq, Prod.mk.injEq] at h
    obtain ⟨rfl, rfl⟩ := h
    exact .scalar hscalar
  | none =>
    cases hfound : resolve? names scope text with
    | some found =>
      simp only [hscalar, hfound, Except.ok.injEq, Prod.mk.injEq] at h
      obtain ⟨rfl, rfl⟩ := h
      exact .declared hscalar ((resolve?_eq_some_iff hnames).mp hfound)
    | none => simp only [hscalar, hfound, reduceCtorEq] at h

theorem isEntry_of_entryOf (hnames : manifest.declared = .ok owner.names)
    (h : entryOf owner spec map = .ok entry) : manifest.IsEntry owner.fullName spec map entry := by
  unfold entryOf at h
  generalize hfound : (scalarKind? map.key).filter isKeyKind = found at h
  cases found with
  | none =>
    obtain ⟨_, hnone, -⟩ := Except.bind_eq_ok.mp h
    cases hnone
  | some key =>
    obtain ⟨_, hkey, h⟩ := Except.bind_eq_ok.mp h
    obtain rfl := Except.pure_eq_ok.mp hkey
    obtain ⟨⟨kind, typeName⟩, hvalue, h⟩ := Except.bind_eq_ok.mp h
    obtain rfl := Except.pure_eq_ok.mp h
    obtain ⟨hscalar, hallowed⟩ := Option.filter_eq_some_iff.mp hfound
    exact ⟨rfl, rfl, rfl, rfl, _, _, rfl, rfl, rfl, hscalar, hallowed, rfl, rfl,
      kindOf_eq_ok hnames hvalue⟩

/-- What the type of a field is, and the entry of a map field. -/
theorem typedFieldOf_spec (hnames : manifest.declared = .ok owner.names) {number : UInt32}
    {made : Option Message} (h : typedFieldOf owner number spec = .ok (field, made)) :
    field.name = spec.name ∧ field.optional = false ∧ field.oneof = none ∧
      ((∃ text, spec.type = some text ∧ spec.map = none ∧ made = none ∧ field.isMap = false ∧
          manifest.TypedBy owner.fullName text field.kind field.typeName) ∨
        ∃ map entry, spec.type = none ∧ spec.map = some map ∧ spec.label = none ∧
          made = some entry ∧ field.isMap = true ∧ field.kind = .message ∧
          field.typeName = some entry.fullName ∧
          manifest.IsEntry owner.fullName spec map entry) := by
  simp only [typedFieldOf] at h
  split at h
  · cases h
  · cases h
  · rename_i text htype hmap
    obtain ⟨⟨kind, typeName⟩, hkind, h⟩ := Except.bind_eq_ok.mp h
    obtain ⟨rfl, rfl⟩ := Prod.ext_iff.mp (Except.pure_eq_ok.mp h)
    refine ⟨rfl, rfl, rfl, .inl ⟨text, htype, hmap, rfl, ?_, kindOf_eq_ok hnames hkind⟩⟩
    simp only [Field.isMap]
    split <;> rfl
  · rename_i map htype hmap
    split at h
    · cases h
    · rename_i hlabel
      obtain ⟨entry, hentry, h⟩ := Except.bind_eq_ok.mp h
      obtain ⟨rfl, rfl⟩ := Prod.ext_iff.mp (Except.pure_eq_ok.mp h)
      exact ⟨rfl, rfl, rfl, .inr ⟨map, entry, htype, hmap, by simpa using hlabel, rfl, rfl, rfl,
        rfl, isEntry_of_entryOf hnames hentry⟩⟩

/-- A group of a name that is there already is not found. -/
theorem find?_append_known {groups : List Oneof} {group : Oneof}
    (h : ∃ other ∈ groups, other.name = group.name) (name : String) :
    (groups ++ [group]).find? (·.name = name) = groups.find? (·.name = name) := by
  obtain ⟨other, hother, heq⟩ := h
  rw [List.find?_append]
  by_cases hname : group.name = name
  · have hsome : (groups.find? (·.name = name)).isSome = true :=
      List.find?_isSome.mpr ⟨other, hother, by simp [heq, hname]⟩
    rw [Option.or_of_isSome hsome]
  · simp [hname]

/-- A field joins the first group of the name that it asks for, and that group is there then. -/
theorem groupedFieldOf_spec {grouped : Field} {groups all : List Oneof}
    (hoptional : field.optional = false) (honeof : field.oneof = none)
    (h : groupedFieldOf owner spec field groups = .ok (grouped, all)) :
    grouped = { field with
      optional := decide (spec.label = some .optional), oneof := (groupOf spec).map (·.name) } ∧
    (spec.label = some .optional → spec.oneof = none) ∧
    ∀ name, all.find? (·.name = name) = (groups ++ (groupOf spec).toList).find? (·.name = name) := by
  simp only [groupedFieldOf] at h
  rw [groupOf]
  split at h
  · rename_i hlabel
    rw [if_pos hlabel]
    split at h
    · cases h
    · rename_i hungrouped
      obtain ⟨rfl, rfl⟩ := Prod.ext_iff.mp (Except.ok.inj h)
      exact ⟨by simp [hlabel], fun _ => by simpa using hungrouped, fun _ => rfl⟩
  · rename_i hlabel
    rw [if_neg hlabel]
    split at h
    · rename_i hungrouped
      obtain ⟨rfl, rfl⟩ := Prod.ext_iff.mp (Except.ok.inj h)
      refine ⟨?_, fun h => absurd h hlabel, fun _ => by simp [hungrouped]⟩
      cases field
      simp_all
    · rename_i group hgroup
      split at h
      · cases h
      · obtain ⟨rfl, rfl⟩ := Prod.ext_iff.mp (Except.ok.inj h)
        refine ⟨by simp [hlabel, hgroup, hoptional], fun h => absurd h hlabel, fun name => ?_⟩
        rw [hgroup]
        split
        · rename_i hknown
          obtain ⟨other, hother, heq⟩ := List.any_eq_true.mp hknown
          exact (find?_append_known ⟨other, hother, eq_of_beq heq⟩ name).symm
        · rfl

/-! ### All fields of a message -/

/-- The fields of a message are taken one by one, each with the groups that those before it leave. -/
theorem fieldsOf_cons_eq_ok {position : ℕ} {specs : List FieldSpec} {groups all : List Oneof}
    {fields : List Field} (h : fieldsOf owner position (spec :: specs) groups =
      .ok (fields, entries, all)) :
    ∃ field made grouped next others more,
      typedFieldOf owner (.ofNat (spec.number.getD (position + 1))) spec = .ok (field, made) ∧
      groupedFieldOf owner spec field groups = .ok (grouped, next) ∧
      fieldsOf owner (position + 1) specs next = .ok (others, more, all) ∧
      fields = { grouped with comment := spec.comment.getD "", overlay := spec.options } :: others ∧
      entries = made.toList ++ more := by
  obtain ⟨⟨field, made⟩, htyped, h⟩ := Except.bind_eq_ok.mp h
  obtain ⟨⟨grouped, next⟩, hgrouped, h⟩ := Except.bind_eq_ok.mp h
  obtain ⟨⟨others, more, last⟩, hothers, h⟩ := Except.bind_eq_ok.mp h
  obtain ⟨rfl, rfl, rfl⟩ : _ ∧ _ ∧ _ := by simpa using h
  exact ⟨field, made, grouped, next, others, more, htyped, hgrouped, hothers, rfl, rfl⟩

/-- The groups that a message has in the end, by the fields that ask for them. -/
theorem find?_groups_of_fieldsOf {position : ℕ} {specs : List FieldSpec} {groups all : List Oneof}
    {fields : List Field} (hnames : manifest.declared = .ok owner.names)
    (h : fieldsOf owner position specs groups = .ok (fields, entries, all)) (name : String) :
    all.find? (·.name = name) = (groups ++ specs.filterMap groupOf).find? (·.name = name) := by
  induction specs generalizing position groups fields entries with
  | nil =>
    obtain ⟨rfl, rfl, rfl⟩ : _ ∧ _ ∧ _ := by simpa [fieldsOf] using h
    simp
  | cons spec rest ih =>
    obtain ⟨field, made, grouped, next, others, more, htyped, hgrouped, hothers, rfl, rfl⟩ :=
      fieldsOf_cons_eq_ok h
    obtain ⟨-, hoptional, honeof, -⟩ := typedFieldOf_spec hnames htyped
    obtain ⟨-, -, hnext⟩ := groupedFieldOf_spec hoptional honeof hgrouped
    rw [ih hothers, List.find?_append, hnext, ← List.find?_append, List.append_assoc]
    congr 2
    cases hgroup : groupOf spec <;> simp [hgroup]

/-- Each field of a message has its descriptor, in order. -/
theorem describes_of_fieldsOf {position : ℕ} {specs : List FieldSpec} {groups all : List Oneof}
    {fields : List Field} (hnames : manifest.declared = .ok owner.names)
    (h : fieldsOf owner position specs groups = .ok (fields, entries, all)) :
    List.Forall₂ (manifest.Describes owner.fullName entries) specs fields := by
  induction specs generalizing position groups fields entries with
  | nil =>
    obtain ⟨rfl, rfl, rfl⟩ : _ ∧ _ ∧ _ := by simpa [fieldsOf] using h
    exact .nil
  | cons spec rest ih =>
    obtain ⟨field, made, grouped, next, others, more, htyped, hgrouped, hothers, rfl, rfl⟩ :=
      fieldsOf_cons_eq_ok h
    obtain ⟨hname, hoptional, honeof, htype⟩ := typedFieldOf_spec hnames htyped
    obtain ⟨rfl, hungrouped, -⟩ := groupedFieldOf_spec hoptional honeof hgrouped
    refine .cons ⟨hname, ?_, by simp, hungrouped, rfl⟩
      ((ih hothers).imp fun _ _ hfield => hfield.mono (List.subset_append_right _ _))
    rcases htype with ⟨text, htype, hmap, -, hsingle, htyped⟩ |
      ⟨map, entry, htype, hmap, -, rfl, hfield, -, htarget, hentry⟩
    · exact .inl ⟨text, htype, hmap, hsingle, htyped⟩
    · exact .inr ⟨map, entry, htype, hmap, hfield, htarget, by simp, hentry⟩

/-- The entries of a message are those of its map fields, in order. -/
theorem entries_of_fieldsOf {position : ℕ} {specs : List FieldSpec} {groups all : List Oneof}
    {fields : List Field} (hnames : manifest.declared = .ok owner.names)
    (h : fieldsOf owner position specs groups = .ok (fields, entries, all)) :
    List.Forall₂ (fun spec entry => ∃ map, spec.map = some map ∧
      manifest.IsEntry owner.fullName spec map entry) (specs.filter (·.map.isSome)) entries := by
  induction specs generalizing position groups fields entries with
  | nil =>
    obtain ⟨rfl, rfl, rfl⟩ : _ ∧ _ ∧ _ := by simpa [fieldsOf] using h
    exact .nil
  | cons spec rest ih =>
    obtain ⟨field, made, grouped, next, others, more, htyped, hgrouped, hothers, rfl, rfl⟩ :=
      fieldsOf_cons_eq_ok h
    obtain ⟨-, -, -, htype⟩ := typedFieldOf_spec hnames htyped
    rcases htype with ⟨text, -, hmap, rfl, -⟩ | ⟨map, entry, -, hmap, -, rfl, -, -, -, hentry⟩
    · simpa [hmap] using ih hothers
    · simpa [hmap] using ⟨hentry, ih hothers⟩

/-- Map fields of a message have the kind of a message. -/
theorem kind_of_fieldsOf {position : ℕ} {specs : List FieldSpec} {groups all : List Oneof}
    {fields : List Field} (hnames : manifest.declared = .ok owner.names)
    (h : fieldsOf owner position specs groups = .ok (fields, entries, all)) :
    ∀ field ∈ fields, field.isMap = true → field.kind = .message := by
  induction specs generalizing position groups fields entries with
  | nil =>
    obtain ⟨rfl, rfl, rfl⟩ : _ ∧ _ ∧ _ := by simpa [fieldsOf] using h
    simp
  | cons spec rest ih =>
    obtain ⟨field, made, grouped, next, others, more, htyped, hgrouped, hothers, rfl, rfl⟩ :=
      fieldsOf_cons_eq_ok h
    obtain ⟨-, hoptional, honeof, htype⟩ := typedFieldOf_spec hnames htyped
    obtain ⟨rfl, -⟩ := groupedFieldOf_spec hoptional honeof hgrouped
    refine List.forall_mem_cons.mpr ⟨fun hmap => ?_, ih hothers⟩
    rcases htype with ⟨_, -, -, -, hsingle, -⟩ | ⟨_, _, -, -, -, -, -, hkind, -⟩
    · exact absurd (hsingle.symm.trans hmap) Bool.false_ne_true
    · exact hkind

end Manifest

end MessageSchema
