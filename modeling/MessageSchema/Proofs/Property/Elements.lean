import MessageSchema.Proofs.Pool
import MessageSchema.Proofs.Property.Record

/-!
# The elements of a collection

The items of a list and the values of a map are built and drawn apart from fields with a single value:
their records have neither name nor text, and only a part of them is drawn. Still an element is
described as a field with a single value would be. Options on a collection are divided: title,
description and counts concern the collection, and all others its elements, as if they had been given
for each of them.

## Main definitions

* `FieldOptions.forElement`: what options say about an element.
* `Field.asSingular`: a field with a single value.
* `PropertyRecord.IsBare`: a record that says nothing beyond a single value.

## Main results

* `PropertyRecord.scalar_eq_element`: the record of a single value is that of an element, with a name
  and a text.
* `PropertyRecord.toSchema_applyAll_forElement`: options for an element, on a record of its own.
* `PropertyRecord.elements_eq_scalar`: the node of the elements of a collection.
-/

namespace MessageSchema

variable {pool : Pool} {owner : Message} {field : Field}

/-- What options say about an element of a collection: everything but title, description and
counts. -/
def FieldOptions.forElement (o : FieldOptions) : FieldOptions :=
  { o with
    title := ""
    description := ""
    minItems := 0
    maxItems := 0
    uniqueItems := false
    minProperties := 0
    maxProperties := 0 }

/-- The field with a single value. -/
def Field.asSingular (field : Field) : Field :=
  { field with cardinality := .singular }

namespace PropertyRecord

variable {record : PropertyRecord}

/-! ### How elements and single values are built -/

/-- The record of a single value is that of an element with a name and a text. -/
theorem scalar_eq_element (pool : Pool) (owner : Message) (field : Field)
    (title description : String) : scalar pool owner field title description =
      (element pool owner field).map fun record =>
        { record with fieldName := field.name, title, description } := by
  -- For a single value, numbers and encoding are written into a record with the type of the kind; for
  -- an element, the type is written down with them. So each kind is looked at.
  rw [scalar, element]
  cases field.kind with
  | message | group => cases pool.referenced owner field <;> rfl
  | enum => cases enumNumbers pool owner field <;> rfl
  | _ => rfl

/-- What an element is does not depend on how many there are. -/
theorem element_asSingular (pool : Pool) (owner : Message) (field : Field) :
    element pool owner field.asSingular = element pool owner field := rfl

/-- A record that says nothing beyond a single value, apart from its name. -/
structure IsBare (record : PropertyRecord) : Prop where
  title : record.title = ""
  description : record.description = ""
  counts : record.counts = {}
  keyPattern : record.keyPattern = none
  nested : record.nested = none

theorem isBare_of_element (h : element pool owner field = .ok record) : record.IsBare := by
  have hreference (target : Message) : (messageReference target).IsBare := ⟨rfl, rfl, rfl, rfl, rfl⟩
  have htyped (type : PrimitiveType) (numbers : List Int32) (isBytes : Bool) :
      IsBare { typed type with numbers, isBytes } := ⟨rfl, rfl, rfl, rfl, rfl⟩
  rw [element] at h
  revert h
  cases field.kind with
  | message | group =>
    intro h
    obtain ⟨target, -, h⟩ := Except.bind_eq_ok.mp h
    obtain rfl := Except.pure_eq_ok.mp h
    exact hreference target
  | enum =>
    intro h
    obtain ⟨numbers, -, h⟩ := Except.bind_eq_ok.mp h
    obtain rfl := Except.pure_eq_ok.mp h
    exact htyped .integer numbers false
  | bytes =>
    intro h
    obtain rfl := Except.pure_eq_ok.mp h
    exact htyped .string [] true
  | _ =>
    intro h
    obtain rfl := Except.pure_eq_ok.mp h
    exact htyped _ [] false

/-! ### How elements and single values are drawn -/

theorem IsBare.applyToValue (h : record.IsBare) (o : FieldOptions) :
    (record.applyToValue o).IsBare :=
  ⟨h.title, h.description, h.counts, h.keyPattern, h.nested⟩

/-- Nothing of a bare record is drawn but the value. -/
theorem IsBare.toSchema_eq (h : record.IsBare) : record.toSchema = record.valueSchema := by
  rw [toSchema, h.nested, valueSchema, outerSchema, h.title, h.description, h.counts, h.keyPattern]
  rfl

/-- What options say about an element concerns the record as a value, and not as a whole. -/
theorem IsBare.apply_forElement (h : record.IsBare) (o : FieldOptions) :
    record.apply o.forElement = record.applyToValue o := by
  have hcounts : record.counts.apply o.forElement = record.counts := by
    simp [Counts.apply, FieldOptions.forElement, givenCount]
  have hwhole : record.applyToWhole o.forElement = record := by
    rw [applyToWhole, hcounts]
    cases record
    rfl
  rw [apply, h.nested]
  dsimp only
  rw [hwhole]
  rfl

/-- A bare record with options for an element is drawn as an element with the options is. -/
theorem toSchema_applyAll_forElement (h : record.IsBare) (options : List FieldOptions) :
    (record.applyAll (options.map (·.forElement))).toSchema =
      (record.applyAllToValue options).valueSchema := by
  induction options generalizing record with
  | nil => exact h.toSchema_eq
  | cons o rest ih =>
    rw [List.map_cons, applyAll, List.foldl_cons, ← applyAll, h.apply_forElement]
    exact ih (h.applyToValue o)

/-- Of an element neither name nor texts are drawn. -/
theorem valueSchema_withTexts (name title description : String) (options : List FieldOptions)
    (record : PropertyRecord) :
    (applyAllToValue options { record with fieldName := name, title, description }).valueSchema =
      (record.applyAllToValue options).valueSchema := by
  induction options generalizing record with
  | nil => rfl
  | cons o rest ih => exact ih (record.applyToValue o)

/-- An element with options is described as a single value is, by what the options say about an
element. -/
theorem element_eq_scalar (pool : Pool) (owner : Message) (field : Field)
    (options : List FieldOptions) :
    ((element pool owner field).map
        fun record => some (record.applyAllToValue options).valueSchema) =
      ((scalar pool owner field "" "").map
        fun record => some (record.applyAll (options.map (·.forElement))).toSchema) := by
  rw [scalar_eq_element]
  cases helement : element pool owner field with
  | error e => rfl
  | ok record =>
    have hbare : record.IsBare := isBare_of_element helement
    have hnamed : IsBare { record with fieldName := field.name, title := "", description := "" } :=
      ⟨rfl, rfl, hbare.counts, hbare.keyPattern, hbare.nested⟩
    have hdrawn := toSchema_applyAll_forElement hnamed options
    rw [valueSchema_withTexts] at hdrawn
    exact congrArg (fun node => Except.ok (some node)) hdrawn.symm

/-- **Elements are described as single values are.** With any options applied, the items of a list are
described as a single value of the same field is, by what the options say about an element, and the
values of a map as a single value of the field that its entry declares. The one fails exactly if the
other does, and for the same reason. -/
theorem elements_eq_scalar (pool : Pool) (owner : Message) (field : Field)
    (title description : String) (options : List FieldOptions) :
    ((list pool owner field title description).map
        fun record => (record.applyAll options).toSchema.items) =
      ((scalar pool owner field.asSingular "" "").map
        fun record => some (record.applyAll (options.map (·.forElement))).toSchema) ∧
    ∀ entry key value, pool.message? field.target = some entry →
      entry.fieldByNumber? Message.keyNumber = some key →
      entry.fieldByNumber? Message.valueNumber = some value →
      ((map pool owner field title description).map
          fun record => (record.applyAll options).toSchema.additionalProperties) =
        ((scalar pool entry value "" "").map
          fun record => some (record.applyAll (options.map (·.forElement))).toSchema) := by
  constructor
  · rw [← element_eq_scalar, element_asSingular, list]
    cases element pool owner field with
    | error e => rfl
    | ok record =>
      refine congrArg Except.ok ?_
      dsimp only
      rw [items_toSchema, type_applyAll, nested_applyAll]
      rfl
  · intro entry key value hentry hkey hvalue
    have hfields : pool.entryFields owner field = .ok (entry, key, value) :=
      Pool.entryFields_eq_ok.mpr ⟨hentry, hkey, hvalue⟩
    rw [← element_eq_scalar, map, hfields, Except.ok_bind]
    dsimp only
    cases element pool entry value with
    | error e => rfl
    | ok record =>
      refine congrArg Except.ok ?_
      dsimp only
      rw [additionalProperties_toSchema, type_applyAll, nested_applyAll]
      rfl

end PropertyRecord

namespace Property

/-- The number of a player. -/
def player : Field :=
  { name := "key", number := Message.keyNumber, kind := .sint32 }

/-- The medal of a player. -/
def medal : Field :=
  { name := "value", number := Message.valueNumber, kind := .enum, typeName := some "game.Medal" }

/-- A player with a medal. -/
def medalsEntry : Message :=
  { name := "MedalsEntry", fullName := "game.Round.MedalsEntry", file := "game.proto",
    fields := [player, medal], mapEntry := true }

/-- The medals of the players. -/
def medals : Field :=
  { name := "medals", number := 1, kind := .message, cardinality := .map,
    typeName := some medalsEntry.fullName }

/-- A round of a game. -/
def round : Message :=
  { name := "Round", fullName := "game.Round", file := "game.proto", fields := [medals],
    nested := [medalsEntry] }

/-- The types of a game. -/
def game : Pool :=
  (DescriptorSet.mk [{
    path := "game.proto", package := "game", messages := [round]
    enums := [⟨"Medal", "game.Medal", [⟨"NONE", 0⟩, ⟨"GOLD", 1⟩], ""⟩] }] []).pool

/-- At least two players have medals, which are not those of the first number. -/
def awarded : List FieldOptions :=
  [{ title := "Medals", format := "medal", exclusiveMinimum := true },
    { minProperties := 2, format := "prize" }]

end Property

namespace PropertyRecord

open Property

/-- The medals of a round are numbers of the enum above the bound, in the format that is named last.
Title and count stay with the map. -/
theorem elements_eq_scalar_medals :
    game.message? medals.target = some medalsEntry ∧
    medalsEntry.fieldByNumber? Message.keyNumber = some player ∧
    medalsEntry.fieldByNumber? Message.valueNumber = some medal ∧
    ∃ node,
      ((map game round medals "" "").map
        fun record => (record.applyAll awarded).toSchema.additionalProperties) =
          .ok (some node) ∧
      ((scalar game medalsEntry medal "" "").map
        fun record => some (record.applyAll (awarded.map (·.forElement))).toSchema) =
          .ok (some node) ∧
      node.enumValues = [0, 1] ∧ node.format = some "prize" ∧ node.title = none ∧
      node.exclusiveMinimum = some (.zero false) ∧ node.minProperties = none := by
  have hentry : game.message? medals.target = some medalsEntry := rfl
  have hplayer : medalsEntry.fieldByNumber? Message.keyNumber = some player := rfl
  have hmedal : medalsEntry.fieldByNumber? Message.valueNumber = some medal := rfl
  have helements := (elements_eq_scalar game round medals "" "" awarded).2 _ _ _ hentry hplayer hmedal
  refine ⟨hentry, hplayer, hmedal, ?_⟩
  obtain ⟨found, hfound, hnode⟩ : ∃ found,
      ((map game round medals "" "").map
        fun record => (record.applyAll awarded).toSchema.additionalProperties) = .ok found ∧
      (found.any fun node => node.enumValues = [0, 1] ∧ node.format = some "prize" ∧
        node.title = none ∧ node.exclusiveMinimum = some (.zero false) ∧
        node.minProperties = none) = true :=
    Except.exists_of_succeedsWith (by decide +kernel)
  obtain ⟨node, rfl, hnode⟩ := (Option.any_eq_true _ _).mp hnode
  exact ⟨node, hfound, helements ▸ hfound, of_decide_eq_true hnode⟩

end PropertyRecord

end MessageSchema
