import MessageSchema.Proofs.Blank
import MessageSchema.Proofs.Dictionary
import MessageSchema.Proofs.Validation.Fields

/-!
# Options that say nothing

Options that are all unset leave every property as it is. Whether a field has options at all is seen
in one place nevertheless: a single message without options is a bare reference, and with options,
whatever they say, it has the title and description of the comment on the field. So an overlay that
sets nothing is the same as none but for the comment on such a field.

## Main definitions

* `FieldOptions.SetsNothing`: every option is unset.
* `Field.withOverlay`, `Message.withFields`: a field with another overlay, a message with other fields.
* `Field.HidesComment`: a single message with a comment.

## Main results

* `Property.apply_of_setsNothing`: such options leave a property as it is.
* `Dictionary.ofList_append_cons_inj`: when the value of an item matters to the dictionary of a list.
* `Shape.ofMessage_withOverlay_eq_iff`: when an overlay that sets nothing leaves the schema of a
  message as it is.
* `Shape.not_ofMessage_withOverlay`: an empty overlay brings a comment to light.
-/

namespace MessageSchema

universe u

/-! ### Values in the dictionary of a list -/

namespace Dictionary

variable {α : Type u} {key : String} {x y : α} {before behind : List (String × α)}

/-- What later items make of an entry depends on nothing but that entry. -/
theorem get?_foldl_insert_congr {entries others : Dictionary α} (items : List (String × α))
    (h : get? key entries = get? key others) :
    get? key (items.foldl (fun acc (k, v) => insert k v acc) entries) =
      get? key (items.foldl (fun acc (k, v) => insert k v acc) others) := by
  induction items generalizing entries others with
  | nil => exact h
  | cons item rest ih =>
    refine ih ?_
    rw [get?_insert, get?_insert, h]

/-- A key among the items has the value of its last item, whatever stood there before. -/
theorem get?_foldl_insert_of_mem_keys {items : List (String × α)} (h : key ∈ keys items)
    (entries others : Dictionary α) :
    get? key (items.foldl (fun acc (k, v) => insert k v acc) entries) =
      get? key (items.foldl (fun acc (k, v) => insert k v acc) others) := by
  induction items generalizing entries others with
  | nil => cases h
  | cons item rest ih =>
    obtain ⟨k, v⟩ := item
    rcases List.mem_cons.mp h with rfl | h
    · exact get?_foldl_insert_congr rest (by rw [get?_insert_self, get?_insert_self])
    · exact ih h _ _

/-- The value of an item matters unless a later item has the same key. -/
theorem ofList_append_cons_inj :
    ofList (before ++ (key, x) :: behind) = ofList (before ++ (key, y) :: behind) ↔
      x = y ∨ key ∈ keys behind := by
  have hfold (value : α) : ofList (before ++ (key, value) :: behind) =
      behind.foldl (fun acc (k, v) => insert k v acc) (insert key value (ofList before)) := by
    rw [ofList, List.foldl_append, List.foldl_cons, ofList]
  constructor
  · intro heq
    by_cases hkey : key ∈ keys behind
    · exact .inr hkey
    · have hget (value : α) : get? key (ofList (before ++ (key, value) :: behind)) = some value := by
        rw [hfold, get?_foldl_insert_of_not_mem hkey, get?_insert_self]
      exact .inl (Option.some.inj ((hget x).symm.trans ((congrArg (get? key) heq).trans (hget y))))
  · rintro (rfl | hkey)
    · rfl
    · refine (sorted_ofList _).ext (sorted_ofList _) fun other => ?_
      rw [hfold, hfold]
      by_cases hother : other = key
      · exact hother ▸ get?_foldl_insert_of_mem_keys hkey _ _
      · refine get?_foldl_insert_congr behind ?_
        rw [get?_insert_of_ne hother, get?_insert_of_ne hother]

end Dictionary

/-! ### Comments -/

namespace Comment

/-- A gap that begins with white space is not at the start of a text that does not. -/
theorem exists_cons_of_splitFirst? {c g : Char} {cs gap title description : List Char}
    (hne : g ≠ c) (h : Text.splitFirst? (g :: gap) (c :: cs) = some (title, description)) :
    ∃ rest, title = c :: rest := by
  rw [Text.splitFirst?, Text.after?, if_neg hne] at h
  obtain ⟨⟨first, second⟩, -, h⟩ := Option.map_eq_some_iff.mp h
  obtain ⟨rfl, -⟩ := Prod.mk.inj h
  exact ⟨first, rfl⟩

/-- A comment has neither title nor description exactly if it is blank. -/
theorem titleAndDescription_eq_empty_iff {comment : String} :
    titleAndDescription comment = ("", "") ↔ Text.trim comment.toList = [] := by
  cases htext : Text.trim comment.toList with
  | nil => simp [titleAndDescription, htext, splitParagraph?, Text.splitFirst?, Text.after?,
      lineFeedGap, carriageReturnGap]
  | cons c cs =>
    have hc := Text.isBlank_of_trim_eq_cons htext
    have hne (g : Char) (hg : Text.isBlank g = true) : g ≠ c := by
      rintro rfl
      rw [hc] at hg
      cases hg
    refine iff_of_false (fun hempty => ?_) (List.cons_ne_nil c cs)
    rw [titleAndDescription] at hempty
    simp only [htext] at hempty
    split at hempty
    · rename_i title description hsplit
      obtain ⟨rest, rfl⟩ : ∃ rest, title = c :: rest := by
        rcases Option.or_eq_some_iff.mp hsplit with hsplit | ⟨-, hsplit⟩
        · exact exists_cons_of_splitFirst? (hne '\n' (by decide)) hsplit
        · exact exists_cons_of_splitFirst? (hne '\r' (by decide)) hsplit
      have htitle : Text.trim (c :: rest) = [] := by simpa using (Prod.mk.inj hempty).1
      exact Text.trim_cons_ne_nil hc htitle
    · simp at hempty

end Comment

/-! ### Options that are unset -/

/-- Every option is unset: switches are off, texts are empty, and numbers are zero, of either sign. -/
def FieldOptions.SetsNothing (o : FieldOptions) : Prop :=
  { o with minimum := .zero false, maximum := .zero false } = FieldOptions.blank ∧
    o.minimum.isZero = true ∧ o.maximum.isZero = true

instance (o : FieldOptions) : Decidable o.SetsNothing :=
  inferInstanceAs (Decidable (_ ∧ _))

theorem FieldOptions.SetsNothing.eq {o : FieldOptions} (h : o.SetsNothing) :
    o = { minimum := o.minimum, maximum := o.maximum } := by
  obtain ⟨hblank, -, -⟩ := h
  cases o
  cases hblank
  rfl

theorem Value.apply_of_setsNothing {o : FieldOptions} (h : o.SetsNothing) (value : Value) :
    Value.apply o value = value := by
  have heq := h.eq
  obtain ⟨-, hminimum, hmaximum⟩ := h
  rw [heq, Value.apply, hminimum, hmaximum]
  simp [givenText, givenCount]

theorem Counts.apply_of_setsNothing {o : FieldOptions} (h : o.SetsNothing) (counts : Counts) :
    Counts.apply o counts = counts := by
  rw [h.eq, Counts.apply]
  simp [givenCount]

/-- Options that are all unset leave a property as it is. -/
theorem Property.apply_of_setsNothing {o : FieldOptions} (h : o.SetsNothing) (property : Property) :
    property.apply o = property := by
  rw [Property.apply, Value.apply_of_setsNothing h, Counts.apply_of_setsNothing h, h.eq]
  simp

/-! ### The node of a field -/

variable {pool : Pool} {selected : List String} {owner message : Message} {field : Field}
  {before behind : List Field} {overlay : Json} {o : FieldOptions}

/-- The field with another overlay. -/
def Field.withOverlay (field : Field) (overlay : Json) : Field :=
  { field with overlay := some overlay }

/-- The message with other fields. -/
def Message.withFields (message : Message) (fields : List Field) : Message :=
  { message with fields }

/-- A single message with a comment. -/
def Field.HidesComment (field : Field) : Prop :=
  field.cardinality = .singular ∧ field.kind.isMessage = true ∧
    Text.trim field.comment.toList ≠ []

/-- The property of a field is a message by itself exactly if the field is one. -/
theorem Property.isSome_target?_iff {property : Property} {title description : String}
    (h : Property.ofField pool owner field title description = .ok property) :
    property.target?.isSome = true ↔ field.cardinality = .singular ∧ field.kind.isMessage = true := by
  obtain ⟨hfield, harity, hvalue⟩ | ⟨hfield, harity, -⟩ | ⟨hfield, _, _, _, -, -, -, harity, -⟩ :=
    Property.cases_ofField h
  · obtain ⟨hkind, held, -, hvalue⟩ | ⟨hkind, e, -, hvalue⟩ | ⟨hkind, hvalue⟩ | ⟨hkind, -, hvalue⟩ :=
      Value.cases_ofField hvalue <;>
    simp [Property.target?, harity, hvalue, ValueKind.target?, hfield, hkind,
      show FieldKind.isMessage .enum = false from rfl, show FieldKind.isMessage .bytes = false from rfl]
  · simp [Property.target?, harity, hfield]
  · simp [Property.target?, harity, hfield]

namespace Shape

/-- The node of a single message is a bare reference exactly if it has no title and no
description. -/
theorem toSchema_eq_reference_iff {name title description target : String} :
    ({ fieldName := name, title, description, arity := .single
       value := { kind := .reference target } } : Property).toSchema = .reference target ↔
      (title, description) = ("", "") := by
  have hempty (text : String) : givenText text = none ↔ text = "" := by simp [givenText]
  simp [Property.toSchema, Property.bareSchema, Value.toSchema, Schema.reference, hempty,
    ValueKind.target?, ValueKind.type?, ValueKind.numbers]

/-- Where options are unset, the node of a field tells whether there are any exactly if the field
hides a comment. -/
theorem node_of_setsNothing {property : Property}
    (h : Property.ofField pool owner field (Comment.titleAndDescription field.comment).1
      (Comment.titleAndDescription field.comment).2 = .ok property) (ho : o.SetsNothing) :
    node (some o) property = node none property ↔ ¬ field.HidesComment := by
  have hnode : node (some o) property = property.toSchema := by
    rw [node, Property.apply_of_setsNothing ho]
  have hsingle := Property.isSome_target?_iff h
  rw [hnode, Field.HidesComment, ← and_assoc, ← hsingle]
  cases htarget : property.target? with
  | none =>
    have hnone : node none property = property.toSchema := by simp only [node, htarget]
    simp [hnone]
  | some target =>
    have hsome : node none property = .reference target := by simp only [node, htarget]
    have hreference : property.arity = .single ∧ property.value.kind = .reference target := by
      rw [Property.target?] at htarget
      split at htarget
      · rename_i harity
        cases hkind : property.value.kind <;> simp_all [ValueKind.target?]
      · cases htarget
    rw [hsome, Property.eq_of_ofField h, hreference.1, hreference.2, toSchema_eq_reference_iff]
    simpa using Comment.titleAndDescription_eq_empty_iff

theorem checkReferences_node (options : Option FieldOptions) (property : Property) :
    checkReferences selected owner field (node options property) =
      checkReferences selected owner field (node none property) := by
  simp only [checkReferences, references_node]

/-- Unset options never change whether a field has a node, or why it fails to have one. -/
theorem property?_withOverlay (pool : Pool) (selected : List String)
    (habsent : field.overlay = none ∨ field.overlay = some .null)
    (hoptions : (field.withOverlay overlay).options owner = .ok (some o)) (ho : o.SetsNothing) :
    (∃ e, property? pool selected owner field = .error e ∧
      property? pool selected owner (field.withOverlay overlay) = .error e) ∨
    ∃ node node', property? pool selected owner field = .ok (some node) ∧
      property? pool selected owner (field.withOverlay overlay) = .ok (some node') ∧
      (node' = node ↔ ¬ field.HidesComment) := by
  have hignore : o.ignore = false := by rw [ho.eq]
  have hnone : property? pool selected owner field = (do
      let property ← Property.ofField pool owner field
        (Comment.titleAndDescription field.comment).1 (Comment.titleAndDescription field.comment).2
      checkReferences selected owner field (node none property)
      return some (node none property)) := by
    rw [property?, Field.options_of_absent habsent]
    rfl
  have hsome : property? pool selected owner (field.withOverlay overlay) = (do
      let property ← Property.ofField pool owner field
        (Comment.titleAndDescription field.comment).1 (Comment.titleAndDescription field.comment).2
      checkReferences selected owner field (node none property)
      return some (node (some o) property)) := by
    rw [property?, hoptions, Except.ok_bind, Option.any_some, hignore]
    simp only [← checkReferences_node (some o)]
    rfl
  rw [hnone, hsome]
  cases hproperty : Property.ofField pool owner field
      (Comment.titleAndDescription field.comment).1 (Comment.titleAndDescription field.comment).2 with
  | error e => exact .inl ⟨e, rfl, rfl⟩
  | ok property =>
    rw [Except.ok_bind, Except.ok_bind]
    cases hcheck : checkReferences selected owner field (node none property) with
    | error e => exact .inl ⟨e, rfl, rfl⟩
    | ok _ => exact .inr ⟨_, _, rfl, rfl, node_of_setsNothing hproperty ho⟩

/-! ### The schema of a message -/

theorem property?_withFields (fields : List Field) :
    property? pool selected (message.withFields fields) field =
      property? pool selected message field := rfl

theorem entriesOf_withFields (fields others : List Field) :
    entriesOf pool selected (message.withFields fields) others =
      entriesOf pool selected message others := by
  induction others with
  | nil => rfl
  | cons field rest ih => rw [entriesOf, entriesOf, ih, property?_withFields]

theorem entriesOf_append (fields others : List Field) :
    entriesOf pool selected owner (fields ++ others) = do
      let entries ← entriesOf pool selected owner fields
      let more ← entriesOf pool selected owner others
      return entries ++ more := by
  induction fields with
  | nil => simp [entriesOf, Except.ok_bind]
  | cons field rest ih =>
    simp only [List.cons_append, entriesOf, ih, bind_assoc, pure_bind, List.append_assoc]

/-- The fields that are not ignored are those that have a node. -/
theorem mem_entriesOf_iff {fields : List Field} {entries : List (Field × Schema)}
    (h : entriesOf pool selected owner fields = .ok entries) {e : Field × Schema} :
    e ∈ entries ↔ e.1 ∈ fields ∧ property? pool selected owner e.1 = .ok (some e.2) := by
  refine ⟨mem_of_entriesOf h, ?_⟩
  rintro ⟨hmem, hproperty⟩
  induction fields generalizing entries with
  | nil => cases hmem
  | cons field rest ih =>
    obtain ⟨schema, others, hschema, hothers, rfl⟩ := entriesOf_cons_eq_ok.mp h
    rcases List.mem_cons.mp hmem with hfirst | hmem
    · rw [← hfirst, hproperty] at hschema
      obtain rfl := Except.ok.inj hschema
      simp [← hfirst]
    · exact List.mem_append_right _ (ih hothers hmem)

/-- The schema of a message from the fields that have a node. -/
def ofEntries (message : Message) (entries : List (Field × Schema)) : Schema :=
  let found := groups message (entries.map (·.1))
  { Schema.typed .object with
    title := givenText (Comment.titleAndDescription message.comment).1
    description := givenText (Comment.titleAndDescription message.comment).2
    properties := Dictionary.ofList (entries.map fun (field, schema) => (field.name, schema))
    required := ((entries.map (·.1)).filter (·.isRequired)).map (·.name)
    oneOf := alternatives found
    allOf := jointly found }

theorem ofMessage_eq : ofMessage pool selected message = (do
    message.checkFieldKinds
    let entries ← entriesOf pool selected message message.fields
    return ofEntries message entries) := rfl

/-- An overlay matters to nothing but the node of its field. -/
theorem ofEntries_withOverlay {entries others : List (Field × Schema)} {node : Schema}
    (fields : List Field) :
    ofEntries (message.withFields fields) (entries ++ (field.withOverlay overlay, node) :: others) =
      ofEntries message (entries ++ (field, node) :: others) := by
  have hgroups : groups (message.withFields fields)
      ((entries ++ (field.withOverlay overlay, node) :: others).map (·.1)) =
        groups message ((entries ++ (field, node) :: others).map (·.1)) := by
    simp only [groups, List.map_append, List.map_cons, List.foldl_append, List.foldl_cons]
    rfl
  have hrequired : (((entries ++ (field.withOverlay overlay, node) :: others).map (·.1)).filter
      (·.isRequired)).map (·.name) =
        (((entries ++ (field, node) :: others).map (·.1)).filter (·.isRequired)).map (·.name) := by
    have hfield : (field.withOverlay overlay).isRequired = field.isRequired := rfl
    simp only [List.map_append, List.map_cons, List.filter_append, List.filter_cons, hfield]
    split <;> rfl
  simp only [ofEntries, hgroups, hrequired]
  simp only [List.map_append, List.map_cons]
  rfl

/-- The node of a field matters unless a later field of the same name has one. -/
theorem ofEntries_append_cons_inj {entries others : List (Field × Schema)} {node node' : Schema} :
    ofEntries message (entries ++ (field, node') :: others) =
        ofEntries message (entries ++ (field, node) :: others) ↔
      node' = node ∨ ∃ e ∈ others, e.1.name = field.name := by
  simp [ofEntries, Schema.typed, Dictionary.ofList_append_cons_inj, Dictionary.keys]

/-- A message fails for the same reason whether a field has unset options or none, or the schemas
differ in nothing but the node of the field. -/
theorem ofMessage_withOverlay (pool : Pool) (selected : List String)
    (hfields : message.fields = before ++ field :: behind)
    (habsent : field.overlay = none ∨ field.overlay = some .null)
    (hoptions : (field.withOverlay overlay).options message = .ok (some o)) (ho : o.SetsNothing) :
    (∃ e, ofMessage pool selected message = .error e ∧ ofMessage pool selected
      (message.withFields (before ++ field.withOverlay overlay :: behind)) = .error e) ∨
    ∃ entries others node node', entriesOf pool selected message behind = .ok others ∧
      ofMessage pool selected message =
        .ok (ofEntries message (entries ++ (field, node) :: others)) ∧
      ofMessage pool selected (message.withFields (before ++ field.withOverlay overlay :: behind)) =
        .ok (ofEntries message (entries ++ (field, node') :: others)) ∧
      (node' = node ↔ ¬ field.HidesComment) := by
  have hkinds (fields : List Field) :
      (message.withFields fields).checkFieldKinds = message.checkFieldKinds := rfl
  have hchanged (fields : List Field) : (message.withFields fields).fields = fields := rfl
  simp only [ofMessage_eq, hkinds, hchanged, entriesOf_withFields, hfields, entriesOf_append]
  simp only [entriesOf]
  cases message.checkFieldKinds with
  | error e => exact .inl ⟨e, rfl, rfl⟩
  | ok _ =>
    cases entriesOf pool selected message before with
    | error e => exact .inl ⟨e, rfl, rfl⟩
    | ok entries =>
      obtain ⟨e, hnone, hsome⟩ | ⟨node, node', hnone, hsome, heq⟩ :=
        property?_withOverlay pool selected habsent hoptions ho
      · rw [hnone, hsome]
        exact .inl ⟨e, rfl, rfl⟩
      · rw [hnone, hsome]
        cases hothers : entriesOf pool selected message behind with
        | error e => exact .inl ⟨e, rfl, rfl⟩
        | ok others =>
          refine .inr ⟨entries, others, node, node', rfl, rfl, ?_, heq⟩
          exact congrArg Except.ok (ofEntries_withOverlay _)

/-- **When an overlay that sets nothing is the same as none.** The schema of a message is the same
with unset options on a field as without options, unless the field is a single message with a comment
and no later field of its name replaces it. -/
theorem ofMessage_withOverlay_eq_iff (hfields : message.fields = before ++ field :: behind)
    (habsent : field.overlay = none ∨ field.overlay = some .null)
    (hoptions : (field.withOverlay overlay).options message = .ok (some o)) (ho : o.SetsNothing) :
    ofMessage pool selected (message.withFields (before ++ field.withOverlay overlay :: behind)) =
        ofMessage pool selected message ↔
      (field.HidesComment → ∀ shape, ofMessage pool selected message = .ok shape →
        ∃ other ∈ behind, other.name = field.name ∧
          ∃ node, property? pool selected message other = .ok (some node)) := by
  obtain ⟨e, hnone, hsome⟩ | ⟨entries, others, node, node', hothers, hnone, hsome, heq⟩ :=
    ofMessage_withOverlay pool selected hfields habsent hoptions ho
  · rw [hnone, hsome]
    exact iff_of_true rfl fun _ _ h => nomatch h
  · have hlater : (∃ e ∈ others, e.1.name = field.name) ↔
        ∃ other ∈ behind, other.name = field.name ∧
          ∃ node, property? pool selected message other = .ok (some node) := by
      constructor
      · rintro ⟨e, he, hname⟩
        obtain ⟨hmem, hproperty⟩ := (mem_entriesOf_iff hothers).mp he
        exact ⟨e.1, hmem, hname, e.2, hproperty⟩
      · rintro ⟨other, hmem, hname, node, hproperty⟩
        exact ⟨(other, node), (mem_entriesOf_iff hothers).mpr ⟨hmem, hproperty⟩, hname⟩
    rw [hsome, hnone, Except.ok.injEq, ofEntries_append_cons_inj, heq, hlater, ← imp_iff_not_or]
    simp

/-- What an address consists of. -/
def address : Message where
  name := "Address"
  fullName := "shop.Address"
  file := "shop.proto"
  fields := [{ name := "street", number := 1, kind := .string }]

/-- Where a customer may live. -/
def places : Field where
  name := "places"
  number := 1
  kind := .message
  cardinality := .list
  typeName := some "shop.Address"
  comment := "Where orders go."
  overlay := some .null

/-- Where a customer lives. -/
def home : Field where
  name := "home"
  number := 2
  kind := .message
  typeName := some "shop.Address"
  comment := "Where the first order goes."

/-- A customer with several addresses and a particular one. -/
def customer : Message where
  name := "Customer"
  fullName := "shop.Customer"
  file := "shop.proto"
  fields := [places, home]

/-- The file of the shop. -/
def customerSet : DescriptorSet where
  files := [{ path := "shop.proto", package := "shop", messages := [address, customer] }]
  targets := []

/-- Options in several spellings, all of them unset. -/
def unsetOverlay : Json :=
  .object [("minItems", .text "0"), ("title", .text ""), ("exclusive_minimum", .boolean false),
    ("minimum", .text " -0.0 "), ("ignore", .boolean false)]

/-- Zero, empty and false in several spellings, on a list with a comment. -/
theorem ofMessage_withOverlay_eq_iff_places : ∃ o shape,
    (places.withOverlay unsetOverlay).options customer = .ok (some o) ∧ o.SetsNothing ∧
    ofMessage customerSet.pool ["shop.Address"] customer = .ok shape ∧
    ofMessage customerSet.pool ["shop.Address"]
      (customer.withFields [places.withOverlay unsetOverlay, home]) = .ok shape := by
  obtain ⟨options, hoptions, ho⟩ : ∃ options,
      (places.withOverlay unsetOverlay).options customer = .ok options ∧
        (options.any fun o => decide o.SetsNothing) = true :=
    Except.exists_of_succeedsWith (by decide +kernel)
  obtain ⟨o, rfl, ho⟩ := (Option.any_eq_true _ _).mp ho
  obtain ⟨shape, hshape, -⟩ : ∃ shape,
      ofMessage customerSet.pool ["shop.Address"] customer = .ok shape ∧ true = true :=
    Except.exists_of_succeedsWith (by decide +kernel)
  have heq : ofMessage customerSet.pool ["shop.Address"]
      (customer.withFields ([] ++ places.withOverlay unsetOverlay :: [home])) =
        ofMessage customerSet.pool ["shop.Address"] customer :=
    (ofMessage_withOverlay_eq_iff rfl (.inr rfl) hoptions (of_decide_eq_true ho)).mpr
      fun hides => by simp [Field.HidesComment, places] at hides
  exact ⟨o, shape, hoptions, of_decide_eq_true ho, hshape, heq.trans hshape⟩

/-- **An empty overlay brings a comment to light.** Without options the node of a single message is
a bare reference, and with options that are all unset the comment on the field describes it. -/
theorem not_ofMessage_withOverlay : ¬ ∀ (pool : Pool) (selected : List String) (message : Message)
    (before behind : List Field) (field : Field) (overlay : Json) (o : FieldOptions),
    message.fields = before ++ field :: behind →
    (field.overlay = none ∨ field.overlay = some .null) →
    (field.withOverlay overlay).options message = .ok (some o) → o.SetsNothing →
    ofMessage pool selected (message.withFields (before ++ field.withOverlay overlay :: behind)) =
      ofMessage pool selected message := by
  intro hall
  obtain ⟨options, hoptions, ho⟩ : ∃ options,
      (home.withOverlay (.object [])).options customer = .ok options ∧
        (options.any fun o => decide o.SetsNothing) = true :=
    Except.exists_of_succeedsWith (by decide +kernel)
  obtain ⟨o, rfl, ho⟩ := (Option.any_eq_true _ _).mp ho
  obtain ⟨shape, hshape, hbare⟩ : ∃ shape,
      ofMessage customerSet.pool ["shop.Address"] customer = .ok shape ∧
        (!shape.properties.any fun e => e.1 = "home" ∧ e.2.description.isSome) = true :=
    Except.exists_of_succeedsWith (by decide +kernel)
  obtain ⟨shape', hshape', hdescribed⟩ : ∃ shape,
      ofMessage customerSet.pool ["shop.Address"]
        (customer.withFields ([places] ++ [home.withOverlay (.object [])])) = .ok shape ∧
        (shape.properties.any fun e => e.1 = "home" ∧ e.2.description.isSome) = true :=
    Except.exists_of_succeedsWith (by decide +kernel)
  have heq := hall customerSet.pool ["shop.Address"] customer [places] [] home (.object []) o rfl
    (.inl rfl) hoptions (of_decide_eq_true ho)
  rw [hshape, hshape'] at heq
  obtain rfl := Except.ok.inj heq
  rw [hdescribed] at hbare
  cases hbare

end Shape

end MessageSchema
