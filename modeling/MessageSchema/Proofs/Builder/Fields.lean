import MessageSchema.Proofs.Builder.Expression
import MessageSchema.Proofs.Program.Meaning
import MessageSchema.Proofs.Synthesis.Growth

/-!
# What the fields of emitted code set

The fields of a node are emitted in pieces, one for each keyword. A piece that runs in a function that
has been lent a registry leaves the registry grown from what it refers to, and sets its keyword in
whatever node it is applied to. Pieces in a row do so one after the other.

## Main definitions

* `Builder.holding`: the variables of a function that has been lent a registry.
* `Builder.Sets`: what fields do.

## Main results

* `Builder.Sets.append`: fields in a row.
* `Builder.sets_textField` and its companions: one piece each.
-/

namespace MessageSchema

namespace Builder

open Program Synthesis

variable {pool : Pool} {selected : List String} {builders : String → Routine}
  {names names' refs refs' : List String} {fields fields' : List (String × Code)}
  {before between after : Registry} {update update' : Schema → Schema} {name : String}

/-- The variables of a function that has been lent a registry. -/
def holding (registry : Registry) : Locals :=
  [("defs", .borrowed registry)]

theorem evalFields_append (builders : String → Routine) (fields fields' : List (String × Code))
    (locals : Locals) : evalFields builders (expressionOfFields (fields ++ fields')) locals = do
      let (values, locals) ← evalFields builders (expressionOfFields fields) locals
      let (values', locals) ← evalFields builders (expressionOfFields fields') locals
      return (values ++ values', locals) := by
  induction fields generalizing locals with
  | nil => simp [expressionOfFields, evalFields]
  | cons field rest ih => simp [expressionOfFields, evalFields, ih, Option.bind_assoc]

/-- What fields do: they are among the names, the registry grows from what they refer to, and the
node that they are applied to is updated. -/
structure Sets (pool : Pool) (selected : List String) (builders : String → Routine)
    (names refs : List String) (fields : List (String × Code)) (before after : Registry)
    (update : Schema → Schema) : Prop where
  names : (fields.map (·.1)).Sublist names
  grown : Grown pool selected refs before after
  values : ∃ values, evalFields builders (expressionOfFields fields) (holding before) =
      some (values, holding after) ∧ values.map (·.1) = fields.map (·.1) ∧
    ∀ node, values.foldlM (fun node field => assign field node) node = some (update node)

/-- Without fields nothing happens. -/
theorem Sets.nil (names : List String) (hgrown : Grown pool selected refs before before) :
    Sets pool selected builders names refs [] before before id where
  names := List.nil_sublist _
  grown := hgrown
  values := ⟨[], rfl, rfl, fun _ => rfl⟩

/-- A single field. -/
theorem Sets.single {code : Code} {value : Datum} (hgrown : Grown pool selected refs before after)
    (heval : eval builders code.expression (holding before) = some (value, holding after))
    (hassign : ∀ node, assign (name, value) node = some (update node)) :
    Sets pool selected builders [name] refs [(name, code)] before after update where
  names := List.Sublist.refl _
  grown := hgrown
  values := by
    refine ⟨[(name, value)], ?_, rfl, fun node => ?_⟩
    · simp [expressionOfFields, evalFields, heval]
    · simp [hassign]

/-- **Fields in a row.** -/
theorem Sets.append (h : Sets pool selected builders names refs fields before between update)
    (h' : Sets pool selected builders names' refs' fields' between after update') :
    Sets pool selected builders (names ++ names') (refs ++ refs') (fields ++ fields') before after
      (update' ∘ update) where
  names := by
    rw [List.map_append]
    exact h.names.append h'.names
  grown := h.grown.append h'.grown
  values := by
    obtain ⟨values, heval, hnames, hupdate⟩ := h.values
    obtain ⟨values', heval', hnames', hupdate'⟩ := h'.values
    refine ⟨values ++ values', ?_, by simp [hnames, hnames'], fun node => ?_⟩
    · rw [evalFields_append, heval]
      simp [heval']
    · rw [List.foldlM_append, hupdate]
      exact hupdate' (update node)

theorem Sets.congr (h : Sets pool selected builders names refs fields before after update)
    (hrefs : ∀ k, k ∈ refs' ↔ k ∈ refs) (hupdate : update = update') :
    Sets pool selected builders names refs' fields before after update' :=
  hupdate ▸ { h with grown := h.grown.congr hrefs }

/-- **A node with fields.** Its fields are found first, then its base, which they update. -/
theorem Sets.withFields (h : Sets pool selected builders names refs fields before between update)
    (hnames : names.Nodup) {base : Code} {node : Schema}
    (hgrown : Grown pool selected refs' between after)
    (hbase : eval builders base.expression (holding between) = some (.node node, holding after)) :
    Grown pool selected (refs ++ refs') before after ∧
      eval builders (withFields fields base).expression (holding before) =
        some (.node (update node), holding after) := by
  obtain ⟨values, heval, hvalues, hupdate⟩ := h.values
  refine ⟨h.grown.append hgrown, ?_⟩
  unfold Builder.withFields
  cases fields with
  | nil =>
    obtain rfl : values = [] := by simpa using hvalues
    have hsame : holding before = holding between := by
      simpa [expressionOfFields, evalFields] using heval
    have hnode : node = update node := by simpa using hupdate node
    rw [hsame, ← hnode]
    exact hbase
  | cons field rest =>
    have hnodup : (values.map (·.1)).Nodup := by
      rw [hvalues]
      exact h.names.nodup hnames
    simp [Code.expression, eval, heval, hbase, assignAll, hnodup, hupdate]


/-! ### Keywords that refer to nothing -/

/-- A keyword that may be unset. -/
theorem sets_option {α : Type} (name : String) (value : Option α) {code : α → Code} {result : α → Datum}
    (set : Option α → Schema → Schema) (before : Registry)
    (heval : ∀ a, eval builders (code a).expression (holding before) =
      some (result a, holding before))
    (hnone : ∀ node, set none node = node)
    (hassign : ∀ a node, assign (name, result a) node = some (set (some a) node)) :
    Sets pool selected builders [name] [] (value.map fun a => (name, code a)).toList before before
      (set value) := by
  cases value with
  | none =>
    rw [show set none = id from funext hnone]
    exact .nil [name] (.nil before)
  | some a => exact .single (.nil before) (heval a) (hassign a)

theorem eval_text (s : String) (locals : Locals) :
    eval builders (Code.text s).expression locals = some (.text s, locals) := by
  simp [Code.expression, expressionOfText, eval, evalAll, applyMethod]

theorem apply_some {value : Datum} (hvalue : ∀ name, value ≠ .place name) (locals : Locals) :
    apply builders ["Some"] [value] locals = some (.given value, locals) := by
  cases value with
  | place name => exact absurd rfl (hvalue name)
  | _ => rfl

theorem eval_given {code : Code} {value : Datum} {locals locals' : Locals}
    (h : eval builders code.expression locals = some (value, locals'))
    (hvalue : ∀ name, value ≠ .place name) :
    eval builders (Code.given code).expression locals = some (.given value, locals') := by
  simp [Code.expression, eval, evalAll, h, apply_some hvalue]

theorem eval_boxed {code : Code} {value : Datum} {locals locals' : Locals}
    (h : eval builders code.expression locals = some (value, locals')) :
    eval builders (Code.boxed code).expression locals = some (.boxed value, locals') := by
  simp [Code.expression, eval, evalAll, h, apply]

theorem eval_count (n : UInt64) (locals : Locals) :
    eval builders (Code.count n).expression locals = some (.whole n.toNat, locals) := by
  simp [Code.expression, eval]

theorem eval_bound (x : Binary64) (locals : Locals) :
    eval builders (Code.bound x).expression locals = some (.real x, locals) := by
  cases h : x.negative <;>
    simp [Code.expression, expressionOfBound, eval, h, negate, Binary64.neg]
  simp [← h]

theorem eval_type (type : PrimitiveType) (locals : Locals) :
    eval builders (Code.type type).expression locals = some (.type type, locals) := by
  cases type <;> rfl

theorem eval_truth (b : Bool) (locals : Locals) :
    eval builders (Code.truth b).expression locals = some (.truth b, locals) := rfl

theorem eval_expressionOfInt (n : ℤ) (locals : Locals) :
    eval builders (expressionOfInt n) locals = some (.whole n, locals) := by
  unfold expressionOfInt
  split
  · have hn : -(n.natAbs : ℤ) = n := by omega
    simp only [eval, negate, hn, Option.bind_some, Option.bind_eq_bind]
    rfl
  · have hn : (n.natAbs : ℤ) = n := by omega
    simp only [eval, hn]

theorem eval_numbers (items : List Int64) (locals : Locals) :
    eval builders (Code.numbers items).expression locals =
      some (.vector (items.map fun n => .whole n.toInt), locals) := by
  have hall : evalAll builders (items.map fun n => expressionOfInt n.toInt) locals =
      some (items.map fun n => .whole n.toInt, locals) := by
    induction items with
    | nil => rfl
    | cons n rest ih => simp [evalAll, eval_expressionOfInt, ih]
  simp [Code.expression, eval, hall]

theorem eval_texts (items : List String) (locals : Locals) :
    eval builders (Code.texts items).expression locals =
      some (.vector (items.map .text), locals) := by
  have hall : evalAll builders (items.map expressionOfText) locals =
      some (items.map .text, locals) := by
    induction items with
    | nil => rfl
    | cons s rest ih => simp [evalAll, eval, expressionOfText, applyMethod, ih]
  simp [Code.expression, eval, hall]

theorem assign_of_lookup {set : Datum → Schema → Option Schema} (h : setters.lookup name = some set)
    (datum : Datum) (node : Schema) : assign (name, datum) node = set datum node := by
  simp [assign, h]

theorem bind_given? {α : Type} (datum : Datum) (read? : Datum → Option α) :
    (Datum.given? (.given datum)).bind read? = read? datum := rfl

theorem count?_whole (n : UInt64) : Datum.count? (.whole n.toNat) = some n := by
  have hn : (n.toNat : ℤ) < UInt64.size := Int.ofNat_lt.mpr n.toNat_lt_size
  simp only [Datum.count?, Int.natCast_nonneg, hn, and_self, if_true, Int.toNat_natCast,
    UInt64.ofNat_toNat]

theorem number?_whole (n : Int64) : Datum.number? (.whole n.toInt) = some n := by
  have hn : Int64.minValue.toInt ≤ n.toInt ∧ n.toInt ≤ Int64.maxValue.toInt :=
    ⟨n.minValue_le_toInt, n.toInt_le⟩
  simp only [Datum.number?, hn, and_self, if_true, Int64.ofInt_toInt]

theorem sets_type (value : Option PrimitiveType) (before : Registry) :
    Sets pool selected builders ["instance_type"] []
      (value.map fun type => ("instance_type", Code.given (.type type))).toList before before
      (fun node => { node with type := value.or node.type }) :=
  sets_option "instance_type" value (fun v node => { node with type := v.or node.type }) before
    (fun type => eval_given (eval_type type _) nofun)
    (fun node => by cases node; rfl) fun _ _ => rfl

theorem sets_textField (name : String) (value : Option String)
    (set : Option String → Schema → Schema) (before : Registry)
    (hset : setters.lookup name =
      some fun v node => (v.given?.bind (·.text?)).map fun s => set (some s) node)
    (hnone : ∀ node, set none node = node) :
    Sets pool selected builders [name] [] (textField name value) before before (set value) :=
  sets_option name value set before (fun s => eval_given (eval_text s _) nofun) hnone
    fun _ _ => assign_of_lookup hset _ _

theorem sets_countField (name : String) (value : Option UInt64)
    (set : Option UInt64 → Schema → Schema) (before : Registry)
    (hset : setters.lookup name =
      some fun v node => (v.given?.bind (·.count?)).map fun n => set (some n) node)
    (hnone : ∀ node, set none node = node) :
    Sets pool selected builders [name] [] (countField name value) before before (set value) := by
  refine sets_option name value set before (fun n => eval_given (eval_count n _) nofun) hnone fun n node => ?_
  rw [assign_of_lookup hset, bind_given?, count?_whole, Option.map_some]

theorem sets_boundField (name : String) (value : Option Binary64)
    (set : Option Binary64 → Schema → Schema) (before : Registry)
    (hset : setters.lookup name =
      some fun v node => (v.given?.bind (·.bound?)).map fun x => set (some x) node)
    (hnone : ∀ node, set none node = node) :
    Sets pool selected builders [name] [] (boundField name value) before before (set value) :=
  sets_option name value set before (fun x => eval_given (eval_bound x _) nofun) hnone
    fun _ _ => assign_of_lookup hset _ _

theorem sets_truth (value : Option Bool) (before : Registry) :
    Sets pool selected builders ["unique_items"] []
      (value.map fun b => ("unique_items", Code.given (.truth b))).toList before before
      (fun node => { node with uniqueItems := value.or node.uniqueItems }) :=
  sets_option "unique_items" value (fun v node => { node with uniqueItems := v.or node.uniqueItems })
    before (fun b => eval_given (eval_truth b _) nofun)
    (fun node => by cases node; rfl) fun _ _ => rfl

/-! ### Keywords that hold collections or nodes -/

/-- A collection, which is unset when it is empty. -/
theorem sets_collectionField {α β : Type} (name : String) {code : List α → Code} {items : List α}
    {values : List β} {datum : Datum} (set : List β → Schema → Schema)
    (hlength : items.length = values.length) (hgrown : Grown pool selected refs before after)
    (heval : eval builders (code items).expression (holding before) = some (datum, holding after))
    (hempty : values = [] → before = after) (hnone : ∀ node, set [] node = node)
    (hassign : ∀ node, values ≠ [] → assign (name, datum) node = some (set values node)) :
    Sets pool selected builders [name] refs (collectionField name code items) before after
      (set values) := by
  unfold collectionField
  cases items with
  | nil =>
    obtain rfl : values = [] := List.length_eq_zero_iff.mp hlength.symm
    obtain rfl : before = after := hempty rfl
    rw [show set [] = id from funext hnone]
    exact .nil [name] hgrown
  | cons item rest =>
    refine .single hgrown heval fun node => hassign node ?_
    rintro rfl
    simp at hlength

theorem mapM_texts (items : List String) :
    (items.map Datum.text).mapM Datum.text? = some items := by
  induction items with
  | nil => rfl
  | cons s rest ih => simp [Datum.text?, ih]

theorem mapM_numbers (items : List Int64) :
    (items.map fun n => Datum.whole n.toInt).mapM Datum.number? = some items := by
  induction items with
  | nil => rfl
  | cons n rest ih => simp [number?_whole, ih]

theorem sets_numbers (items : List Int64) (before : Registry) :
    Sets pool selected builders ["enum_values"] [] (collectionField "enum_values" .numbers items)
      before before
      (fun node => { node with enumValues := if items.isEmpty then node.enumValues else items }) := by
  refine sets_collectionField "enum_values"
    (fun items node => { node with enumValues := if items.isEmpty then node.enumValues else items })
    rfl (.nil before) (eval_numbers items _) (fun _ => rfl) (fun node => by cases node; rfl)
    fun node hitems => ?_
  have hread : Datum.vector? (·.number?) (.vector (items.map fun n => .whole n.toInt)) =
      some items := mapM_numbers items
  refine (assign_of_lookup rfl _ _).trans ?_
  rw [hread]
  simp [hitems]

theorem sets_texts (items : List String) (before : Registry) :
    Sets pool selected builders ["required"] [] (collectionField "required" .texts items)
      before before
      (fun node => { node with required := if items.isEmpty then node.required else items }) := by
  refine sets_collectionField "required"
    (fun items node => { node with required := if items.isEmpty then node.required else items })
    rfl (.nil before) (eval_texts items _) (fun _ => rfl) (fun node => by cases node; rfl)
    fun node hitems => ?_
  have hread : Datum.vector? (·.text?) (.vector (items.map .text)) = some items := mapM_texts items
  refine (assign_of_lookup rfl _ _).trans ?_
  rw [hread]
  simp [hitems]

/-- The pieces of all keywords that refer to nothing and come before the others. -/
theorem sets_scalars (type : Option PrimitiveType)
    (title description format pattern contentEncoding contentMediaType : Option String)
    (minLength maxLength minItems maxItems minProperties maxProperties : Option UInt64)
    (minimum maximum exclusiveMinimum exclusiveMaximum : Option Binary64) (enumValues : List Int64)
    (uniqueItems : Option Bool) (before : Registry) :
    Sets pool selected builders
      ["instance_type", "title", "description", "format", "pattern", "content_encoding",
        "content_media_type", "min_length", "max_length", "min_items", "max_items",
        "min_properties", "max_properties", "minimum", "maximum", "exclusive_minimum",
        "exclusive_maximum", "enum_values", "unique_items"]
      []
      ((type.map fun type => ("instance_type", Code.given (.type type))).toList ++
        textField "title" title ++ textField "description" description ++
        textField "format" format ++ textField "pattern" pattern ++
        textField "content_encoding" contentEncoding ++
        textField "content_media_type" contentMediaType ++
        countField "min_length" minLength ++ countField "max_length" maxLength ++
        countField "min_items" minItems ++ countField "max_items" maxItems ++
        countField "min_properties" minProperties ++ countField "max_properties" maxProperties ++
        boundField "minimum" minimum ++ boundField "maximum" maximum ++
        boundField "exclusive_minimum" exclusiveMinimum ++
        boundField "exclusive_maximum" exclusiveMaximum ++
        collectionField "enum_values" .numbers enumValues ++
        (uniqueItems.map fun b => ("unique_items", Code.given (.truth b))).toList)
      before before
      (fun node => { node with
        type := type.or node.type
        title := title.or node.title
        description := description.or node.description
        format := format.or node.format
        pattern := pattern.or node.pattern
        contentEncoding := contentEncoding.or node.contentEncoding
        contentMediaType := contentMediaType.or node.contentMediaType
        minLength := minLength.or node.minLength
        maxLength := maxLength.or node.maxLength
        minItems := minItems.or node.minItems
        maxItems := maxItems.or node.maxItems
        minProperties := minProperties.or node.minProperties
        maxProperties := maxProperties.or node.maxProperties
        minimum := minimum.or node.minimum
        maximum := maximum.or node.maximum
        exclusiveMinimum := exclusiveMinimum.or node.exclusiveMinimum
        exclusiveMaximum := exclusiveMaximum.or node.exclusiveMaximum
        enumValues := if enumValues.isEmpty then node.enumValues else enumValues
        uniqueItems := uniqueItems.or node.uniqueItems }) := by
  have h := (sets_type type before : Sets pool selected builders _ _ _ _ _ _)
    |>.append (sets_textField "title" title (fun v node => { node with title := v.or node.title })
      before rfl fun node => by cases node; rfl)
    |>.append (sets_textField "description" description (fun v node => { node with description := v.or node.description })
      before rfl fun node => by cases node; rfl)
    |>.append (sets_textField "format" format (fun v node => { node with format := v.or node.format })
      before rfl fun node => by cases node; rfl)
    |>.append (sets_textField "pattern" pattern (fun v node => { node with pattern := v.or node.pattern })
      before rfl fun node => by cases node; rfl)
    |>.append (sets_textField "content_encoding" contentEncoding (fun v node => { node with contentEncoding := v.or node.contentEncoding })
      before rfl fun node => by cases node; rfl)
    |>.append (sets_textField "content_media_type" contentMediaType (fun v node => { node with contentMediaType := v.or node.contentMediaType })
      before rfl fun node => by cases node; rfl)
    |>.append (sets_countField "min_length" minLength (fun v node => { node with minLength := v.or node.minLength })
      before rfl fun node => by cases node; rfl)
    |>.append (sets_countField "max_length" maxLength (fun v node => { node with maxLength := v.or node.maxLength })
      before rfl fun node => by cases node; rfl)
    |>.append (sets_countField "min_items" minItems (fun v node => { node with minItems := v.or node.minItems })
      before rfl fun node => by cases node; rfl)
    |>.append (sets_countField "max_items" maxItems (fun v node => { node with maxItems := v.or node.maxItems })
      before rfl fun node => by cases node; rfl)
    |>.append (sets_countField "min_properties" minProperties (fun v node => { node with minProperties := v.or node.minProperties })
      before rfl fun node => by cases node; rfl)
    |>.append (sets_countField "max_properties" maxProperties (fun v node => { node with maxProperties := v.or node.maxProperties })
      before rfl fun node => by cases node; rfl)
    |>.append (sets_boundField "minimum" minimum (fun v node => { node with minimum := v.or node.minimum })
      before rfl fun node => by cases node; rfl)
    |>.append (sets_boundField "maximum" maximum (fun v node => { node with maximum := v.or node.maximum })
      before rfl fun node => by cases node; rfl)
    |>.append (sets_boundField "exclusive_minimum" exclusiveMinimum (fun v node => { node with exclusiveMinimum := v.or node.exclusiveMinimum })
      before rfl fun node => by cases node; rfl)
    |>.append (sets_boundField "exclusive_maximum" exclusiveMaximum (fun v node => { node with exclusiveMaximum := v.or node.exclusiveMaximum })
      before rfl fun node => by cases node; rfl)
    |>.append (sets_numbers enumValues before) |>.append (sets_truth uniqueItems before)
  exact h.congr (by simp) rfl

end Builder

end MessageSchema
