import MessageSchema.Proofs.Pool
import MessageSchema.Proofs.Validation.Validator
import Mathlib.Logic.Relation

/-!
# Instances of a message

What the declaration of a message says about a JSON value, without a schema in between: which fields
an object has to have, which fields exclude each other, and what the values of its fields are. A
message inside a message conforms to its own declaration, however deep it lies.

## Main definitions

* `Pool.Conforms`: a value is an instance of a message.
* `Pool.Fits`, `Pool.FitsValue`: the value of a field, and one of several values, fit the field.
* `Pool.Reaches`: a message refers to another one, directly or not.
* `Message.IsPlain`: the fields of a message have different names and no overlays.

## Main results

* `Pool.conforms_iff`, `Pool.fits_single_iff`, `Pool.fits_list_iff`, `Pool.fits_map_iff`: what the
  definitions say.
-/

namespace MessageSchema

/-- An instance has to have the field: it is singular, not optional, and in no oneof group. -/
def Field.IsMandatory (field : Field) : Prop :=
  field.cardinality = .singular ∧ field.optional = false ∧ field.oneof = none

instance (field : Field) : Decidable field.IsMandatory :=
  inferInstanceAs (Decidable (_ ∧ _))

/-- The members of a oneof group. -/
def Message.membersOf (message : Message) (group : Oneof) : List Field :=
  message.fields.filter fun field => message.realOneof? field = some group

/-- The fields of a message have different names, and no overlays. -/
def Message.IsPlain (message : Message) : Prop :=
  (message.fields.map (·.name)).Nodup ∧ ∀ field ∈ message.fields, field.overlay.isNone = true

instance (message : Message) : Decidable message.IsPlain :=
  inferInstanceAs (Decidable (_ ∧ _))

namespace Instance

/-- Exactly one of several names is that of a member. -/
def HasOneOf (members : List (String × Instance)) (names : List String) : Prop :=
  ∃ name ∈ names, ∀ other ∈ names, has members other = true ↔ other = name

instance (members : List (String × Instance)) (names : List String) :
    Decidable (HasOneOf members names) :=
  inferInstanceAs (Decidable (∃ name ∈ names, ∀ other ∈ names, _))

end Instance

/-- A text is a whole number in digits, with or without a sign. -/
def IsNumeral (text : String) : Prop :=
  ∃ digits, digits ≠ [] ∧ (∀ d ∈ digits, d.isDigit = true) ∧
    (text.toList = digits ∨ text.toList = '-' :: digits)

/-- A text is a key of a kind: whole numbers and truth values are written out, and anything goes for
other kinds. -/
def FieldKind.AdmitsKey (kind : FieldKind) (key : String) : Prop :=
  (kind.isInteger = true → IsNumeral key) ∧ (kind = .bool → key = "true" ∨ key = "false")

mutual

/-- A value is an instance of a message. -/
inductive Pool.Conforms (pool : Pool) : Message → Instance → Prop
  | object {message : Message} {members : List (String × Instance)}
    (hmandatory : ∀ field ∈ message.fields, field.IsMandatory →
      Instance.has members field.name = true)
    (hgroups : ∀ group ∈ message.oneofs, group.synthetic = false → message.membersOf group ≠ [] →
      Instance.HasOneOf members ((message.membersOf group).map (·.name)))
    (hvalues : ∀ field ∈ message.fields, ∀ v, (field.name, v) ∈ members → pool.Fits field v) :
    pool.Conforms message (.object members)

/-- A value fits a field and the number of its values. -/
inductive Pool.Fits (pool : Pool) : Field → Instance → Prop
  | single {field : Field} {v : Instance} (hcardinality : field.cardinality = .singular)
    (hvalue : pool.FitsValue field v) : pool.Fits field v
  | list {field : Field} {items : List Instance} (hcardinality : field.cardinality = .list)
    (hitems : ∀ v ∈ items, pool.FitsValue field v) : pool.Fits field (.array items)
  | map {field key value : Field} {entry : Message} {members : List (String × Instance)}
    (hcardinality : field.cardinality = .map) (hentry : pool.message? field.target = some entry)
    (hkey : entry.fieldByNumber? Message.keyNumber = some key)
    (hvalue : entry.fieldByNumber? Message.valueNumber = some value)
    (hkeys : ∀ name v, (name, v) ∈ members → key.kind.AdmitsKey name)
    (hvalues : ∀ name v, (name, v) ∈ members → pool.FitsValue value v) :
    pool.Fits field (.object members)

/-- A value fits the kind of a field. -/
inductive Pool.FitsValue (pool : Pool) : Field → Instance → Prop
  | boolean {field : Field} (b : Bool) (hkind : field.kind = .bool) :
    pool.FitsValue field (.boolean b)
  | integer {field : Field} {x : ℚ} (hkind : field.kind.isInteger = true) (hx : x.isInt = true) :
    pool.FitsValue field (.number x)
  | number {field : Field} (x : ℚ) (hkind : field.kind = .float ∨ field.kind = .double) :
    pool.FitsValue field (.number x)
  | text {field : Field} (s : String) (hkind : field.kind = .string ∨ field.kind = .bytes) :
    pool.FitsValue field (.text s)
  | enum {field : Field} {x : ℚ} {e : EnumType} (hkind : field.kind = .enum)
    (henum : pool.enumeration? field.target = some e) (hx : x.isInt = true)
    (hnumber : e.numbers = [] ∨ ∃ n ∈ e.numbers, x = n.toInt) : pool.FitsValue field (.number x)
  | message {field : Field} {v : Instance} {message : Message}
    (hkind : field.kind.isMessage = true) (hmessage : pool.message? field.target = some message)
    (hconforms : pool.Conforms message v) : pool.FitsValue field v

end

namespace Pool

/-- A message has a field that holds another one. -/
def RefersTo (pool : Pool) (message held : Message) : Prop :=
  ∃ field ∈ message.fields, pool.Holds field held

/-- A message refers to another one, directly or not, or is the same. -/
def Reaches (pool : Pool) : Message → Message → Prop :=
  Relation.ReflTransGen pool.RefersTo

variable {pool : Pool} {message : Message} {field key value : Field} {entry : Message}
  {v : Instance}

theorem conforms_iff : pool.Conforms message v ↔ ∃ members, v = .object members ∧
    (∀ field ∈ message.fields, field.IsMandatory → Instance.has members field.name = true) ∧
    (∀ group ∈ message.oneofs, group.synthetic = false → message.membersOf group ≠ [] →
      Instance.HasOneOf members ((message.membersOf group).map (·.name))) ∧
    ∀ field ∈ message.fields, ∀ w, (field.name, w) ∈ members → pool.Fits field w := by
  constructor
  · rintro ⟨hmandatory, hgroups, hvalues⟩
    exact ⟨_, rfl, hmandatory, hgroups, hvalues⟩
  · rintro ⟨members, rfl, hmandatory, hgroups, hvalues⟩
    exact .object hmandatory hgroups hvalues

theorem fits_single_iff (h : field.cardinality = .singular) :
    pool.Fits field v ↔ pool.FitsValue field v := by
  refine ⟨fun hfits => ?_, .single h⟩
  cases hfits with
  | single _ hvalue => exact hvalue
  | list hlist => rw [h] at hlist; cases hlist
  | map hmap => rw [h] at hmap; cases hmap

theorem fits_list_iff (h : field.cardinality = .list) :
    pool.Fits field v ↔ ∃ items, v = .array items ∧ ∀ w ∈ items, pool.FitsValue field w := by
  constructor
  · intro hfits
    cases hfits with
    | single hsingle => rw [h] at hsingle; cases hsingle
    | list _ hitems => exact ⟨_, rfl, hitems⟩
    | map hmap => rw [h] at hmap; cases hmap
  · rintro ⟨items, rfl, hitems⟩
    exact .list h hitems

theorem fits_map_iff (h : field.cardinality = .map)
    (hentry : pool.message? field.target = some entry)
    (hkey : entry.fieldByNumber? Message.keyNumber = some key)
    (hvalue : entry.fieldByNumber? Message.valueNumber = some value) :
    pool.Fits field v ↔ ∃ members, v = .object members ∧ ∀ name w, (name, w) ∈ members →
      key.kind.AdmitsKey name ∧ pool.FitsValue value w := by
  constructor
  · intro hfits
    cases hfits with
    | single hsingle => rw [h] at hsingle; cases hsingle
    | list hlist => rw [h] at hlist; cases hlist
    | map _ hentry' hkey' hvalue' hkeys hvalues =>
      obtain rfl := Option.some.inj (hentry.symm.trans hentry')
      obtain rfl := Option.some.inj (hkey.symm.trans hkey')
      obtain rfl := Option.some.inj (hvalue.symm.trans hvalue')
      exact ⟨_, rfl, fun name w hmem => ⟨hkeys name w hmem, hvalues name w hmem⟩⟩
  · rintro ⟨members, rfl, hmembers⟩
    exact .map h hentry hkey hvalue (fun name w hmem => (hmembers name w hmem).1)
      fun name w hmem => (hmembers name w hmem).2

end Pool

end MessageSchema
