import MessageSchema.Proofs.Builder.Fields
import MessageSchema.Proofs.Flat

/-!
# Emitted code rebuilds its node

The code of a node builds this node again. Its references are calls of other builders, and so the
registry grows from the names that the node refers to while the node is built.

## Main definitions

* `Builder.Serves`: the builders that the code of a node may call do what they should.
* `Builder.Rebuilds`: what the code of a node does.

## Main results

* `Builder.rebuilds_codeOf`: the code of a node rebuilds it.
-/

namespace MessageSchema

namespace Builder

open Program Synthesis

variable {pool : Pool} {selected : List String} {builders : String → Routine}
  {callees : Dictionary String} {ready : Registry → Prop} {before after : Registry}

/-- Calls of builders register their messages, as long as the registry is ready for them; it stays
ready when it grows. -/
structure Serves (pool : Pool) (selected : List String) (callees : Dictionary String)
    (ready : Registry → Prop) (builders : String → Routine) : Prop where
  call : ∀ name builder before, callees.get? name = some builder → ready before →
    ∃ after, Grown pool selected [name] before after ∧
      builders builder before = some (.reference name, after)
  grow : ∀ names before after, ready before → Grown pool selected names before after → ready after

/-- Every reference leads to a callee. -/
def Known (callees : Dictionary String) (refs : List String) : Prop :=
  ∀ ref ∈ refs, ∃ name builder, ref = Schema.refStart ++ name ∧ callees.get? name = some builder

theorem known_append {refs refs' : List String} :
    Known callees (refs ++ refs') ↔ Known callees refs ∧ Known callees refs' := by
  simp [Known, or_imp, forall_and]

/-- The names of references. -/
def namesOf (refs : List String) : List String :=
  refs.filterMap Schema.refName?

/-- The code has a value, and while it is found the registry grows from what is referred to. -/
def Rebuilds (pool : Pool) (selected : List String) (builders : String → Routine) (code : Code)
    (datum : Datum) (refs : List String) (before : Registry) : Prop :=
  ∃ after, Grown pool selected (namesOf refs) before after ∧
    eval builders code.expression (holding before) = some (datum, holding after)

theorem codeOf_eq (callees : Dictionary String) (node : Schema) :
    codeOf callees node = withFields
      ((node.type.map fun type => ("instance_type", Code.given (.type type))).toList ++
        textField "title" node.title ++ textField "description" node.description ++
        textField "format" node.format ++ textField "pattern" node.pattern ++
        textField "content_encoding" node.contentEncoding ++
        textField "content_media_type" node.contentMediaType ++
        countField "min_length" node.minLength ++ countField "max_length" node.maxLength ++
        countField "min_items" node.minItems ++ countField "max_items" node.maxItems ++
        countField "min_properties" node.minProperties ++
        countField "max_properties" node.maxProperties ++
        boundField "minimum" node.minimum ++ boundField "maximum" node.maximum ++
        boundField "exclusive_minimum" node.exclusiveMinimum ++
        boundField "exclusive_maximum" node.exclusiveMaximum ++
        collectionField "enum_values" .numbers node.enumValues ++
        (node.uniqueItems.map fun b => ("unique_items", Code.given (.truth b))).toList ++
        boxedField "items" (codeOfOption callees node.items) ++
        collectionField "properties" .entries (codeOfEntries callees node.properties) ++
        collectionField "required" .texts node.required ++
        boxedField "additional_properties" (codeOfOption callees node.additionalProperties) ++
        boxedField "property_names" (codeOfOption callees node.propertyNames) ++
        collectionField "one_of" .nodes (codeOfAll callees node.oneOf) ++
        collectionField "all_of" .nodes (codeOfAll callees node.allOf))
      (baseOf callees node) := by
  cases node
  rfl

/-- The base of a node is the node with its reference alone. -/
theorem rebuilds_baseOf (hserves : Serves pool selected callees ready builders) {ref : Option String}
    (hknown : Known callees ref.toList) (hready : ready before) :
    Rebuilds pool selected builders (baseOf callees { ref }) (.node { ref }) ref.toList before := by
  cases ref with
  | none =>
    refine ⟨before, .nil before, ?_⟩
    simp [baseOf, Schema.referencedName?, Code.expression, eval, evalAll, apply, Schema.blank]
  | some ref =>
    obtain ⟨name, builder, rfl, hbuilder⟩ := hknown ref (by simp)
    obtain ⟨after, hgrown, hcall⟩ := hserves.call name builder before hbuilder hready
    refine ⟨after, by simpa [namesOf, Schema.refName?_refStart] using hgrown, ?_⟩
    simp [baseOf, Schema.referencedName?, Schema.refName?_refStart, hbuilder, Code.expression,
      eval, evalAll, apply, valueOfPath, holding, Locals.value?, Locals.registry?,
      Locals.setRegistry, hcall, Schema.reference]

/-- A keyword that holds a node. -/
theorem sets_boxedField (name : String) (value : Option Schema)
    (set : Option Schema → Schema → Schema) {refs : List String}
    (hset : setters.lookup name =
      some fun v node => (v.given?.bind (·.boxedNode?)).map fun item => set (some item) node)
    (hnone : ∀ node, set none node = node) (hgrown : Grown pool selected refs before after)
    (hvalue : match value with
      | none => after = before
      | some node => eval builders (codeOf callees node).expression (holding before) =
          some (.node node, holding after)) :
    Sets pool selected builders [name] refs (boxedField name (codeOfOption callees value)) before
      after (set value) := by
  cases value with
  | none =>
    obtain rfl : after = before := hvalue
    rw [show set none = id from funext hnone]
    exact .nil [name] hgrown
  | some node =>
    exact .single hgrown (eval_given (eval_boxed hvalue) nofun) fun _ => assign_of_lookup hset _ _

theorem mapM_nodes (nodes : List Schema) :
    (nodes.map Datum.node).mapM Datum.node? = some nodes := by
  induction nodes with
  | nil => rfl
  | cons node rest ih => simp [Datum.node?, ih]

theorem mapM_entries (entries : List (String × Schema)) :
    (entries.map fun e => Datum.pair (.text e.1) (.node e.2)).mapM Datum.entry? = some entries := by
  induction entries with
  | nil => rfl
  | cons e rest ih => simp [Datum.entry?, ih]

theorem length_codeOfAll (nodes : List Schema) :
    (codeOfAll callees nodes).length = nodes.length := by
  induction nodes with
  | nil => rfl
  | cons node rest ih => simp [codeOfAll, ih]

theorem length_codeOfEntries (entries : List (String × Schema)) :
    (codeOfEntries callees entries).length = entries.length := by
  induction entries with
  | nil => rfl
  | cons e rest ih => simp [codeOfEntries, ih]

theorem eval_nodes {items : List Code} {data : List Datum}
    (h : evalAll builders (expressionsOf items) (holding before) = some (data, holding after)) :
    eval builders (Code.nodes items).expression (holding before) =
      some (.vector data, holding after) := by
  simp [Code.expression, eval, h]

theorem eval_entries {items : List (String × Code)} {entries : List (String × Schema)}
    (h : evalAll builders (expressionsOfEntries items) (holding before) =
      some (entries.map fun e => .pair (.text e.1) (.node e.2), holding after)) :
    eval builders (Code.entries items).expression (holding before) =
      some (.registry (Dictionary.ofList entries), holding after) := by
  have hentries := mapM_entries entries
  simp [Code.expression, eval, evalAll, h, applyMethod, hentries]

/-- The base with all keywords that the node sets, apart from its reference and its registry. -/
def overlay (node base : Schema) : Schema where
  ref := base.ref
  type := node.type.or base.type
  title := node.title.or base.title
  description := node.description.or base.description
  format := node.format.or base.format
  pattern := node.pattern.or base.pattern
  contentEncoding := node.contentEncoding.or base.contentEncoding
  contentMediaType := node.contentMediaType.or base.contentMediaType
  minLength := node.minLength.or base.minLength
  maxLength := node.maxLength.or base.maxLength
  minimum := node.minimum.or base.minimum
  maximum := node.maximum.or base.maximum
  exclusiveMinimum := node.exclusiveMinimum.or base.exclusiveMinimum
  exclusiveMaximum := node.exclusiveMaximum.or base.exclusiveMaximum
  enumValues := if node.enumValues.isEmpty then base.enumValues else node.enumValues
  items := node.items.or base.items
  minItems := node.minItems.or base.minItems
  maxItems := node.maxItems.or base.maxItems
  uniqueItems := node.uniqueItems.or base.uniqueItems
  properties := if node.properties.isEmpty then base.properties else node.properties
  required := if node.required.isEmpty then base.required else node.required
  additionalProperties := node.additionalProperties.or base.additionalProperties
  propertyNames := node.propertyNames.or base.propertyNames
  minProperties := node.minProperties.or base.minProperties
  maxProperties := node.maxProperties.or base.maxProperties
  oneOf := if node.oneOf.isEmpty then base.oneOf else node.oneOf
  allOf := if node.allOf.isEmpty then base.allOf else node.allOf
  defs := base.defs

theorem overlay_reference {node : Schema} (h : node.defs = []) :
    overlay node { ref := node.ref } = node := by
  cases node
  simp_all [overlay]

theorem holding_inj (h : holding before = holding after) : before = after := by
  simpa [holding] using h

theorem sets_nodes (name : String) (put set : List Schema → Schema → Schema) {nodes : List Schema}
    {refs : List String}
    (hlookup : setters.lookup name =
      some fun v node => (v.vector? (·.node?)).map fun items => put items node)
    (hset : ∀ node, nodes ≠ [] → put nodes node = set nodes node) (hnone : ∀ node, set [] node = node)
    (hgrown : Grown pool selected refs before after)
    (heval : evalAll builders (expressionsOf (codeOfAll callees nodes)) (holding before) =
      some (nodes.map .node, holding after)) :
    Sets pool selected builders [name] refs
      (collectionField name .nodes (codeOfAll callees nodes)) before after (set nodes) := by
  refine sets_collectionField name set (length_codeOfAll nodes) hgrown (eval_nodes heval)
    (fun hempty => ?_) hnone fun node hne => ?_
  · subst hempty
    exact holding_inj (Prod.ext_iff.mp (Option.some.inj heval)).2
  · have hread : Datum.vector? (·.node?) (.vector (nodes.map .node)) = some nodes := mapM_nodes nodes
    rw [assign_of_lookup hlookup, hread]
    exact congrArg some (hset node hne)

theorem sets_properties {properties : List (String × Schema)} {refs : List String}
    (hsorted : Dictionary.Sorted properties) (hgrown : Grown pool selected refs before after)
    (heval : evalAll builders (expressionsOfEntries (codeOfEntries callees properties))
      (holding before) =
        some (properties.map fun e => .pair (.text e.1) (.node e.2), holding after)) :
    Sets pool selected builders ["properties"] refs
      (collectionField "properties" .entries (codeOfEntries callees properties)) before after
      (fun node => { node with
        properties := if properties.isEmpty then node.properties else properties }) := by
  refine sets_collectionField "properties"
    (fun items node => { node with properties := if items.isEmpty then node.properties else items })
    (length_codeOfEntries properties) hgrown (eval_entries heval)
    (fun hempty => ?_) (fun node => by cases node; rfl) fun node hne => ?_
  · subst hempty
    exact holding_inj (Prod.ext_iff.mp (Option.some.inj heval)).2
  · refine (assign_of_lookup rfl _ _).trans ?_
    rw [hsorted.ofList_eq]
    simp [Datum.registry?, hne]

mutual

/-- **The code of a node rebuilds it.** -/
theorem rebuilds_codeOf (hserves : Serves pool selected callees ready builders) :
    (node : Schema) → node.IsFlat → Known callees node.references → {before : Registry} →
      ready before →
      Rebuilds pool selected builders (codeOf callees node) (.node node) node.references before
  | ⟨ref, type, title, description, format, pattern, contentEncoding, contentMediaType, minLength,
      maxLength, minimum, maximum, exclusiveMinimum, exclusiveMaximum, enumValues, items, minItems,
      maxItems, uniqueItems, properties, required, additionalProperties, propertyNames,
      minProperties, maxProperties, oneOf, allOf, defs⟩, hflat, hknown, before, hready => by
    obtain ⟨rfl, hsorted, hitems, hadditional, hpropertyNames, hproperties, honeOf, hallOf⟩ := hflat
    simp only [Schema.references, known_append] at hknown
    obtain ⟨⟨⟨⟨⟨⟨⟨href, hknown₁⟩, hknown₂⟩, hknown₃⟩, hknown₄⟩, hknown₅⟩, hknown₆⟩, -⟩ := hknown
    obtain ⟨r₁, hgrown₁, heval₁⟩ := rebuilds_codeOfOption hserves items hitems hknown₁ hready
    have hready₁ := hserves.grow _ _ _ hready hgrown₁
    obtain ⟨r₂, hgrown₂, heval₂⟩ :=
      rebuilds_codeOfEntries hserves properties hproperties hknown₄ hready₁
    have hready₂ := hserves.grow _ _ _ hready₁ hgrown₂
    obtain ⟨r₃, hgrown₃, heval₃⟩ :=
      rebuilds_codeOfOption hserves additionalProperties hadditional hknown₂ hready₂
    have hready₃ := hserves.grow _ _ _ hready₂ hgrown₃
    obtain ⟨r₄, hgrown₄, heval₄⟩ :=
      rebuilds_codeOfOption hserves propertyNames hpropertyNames hknown₃ hready₃
    have hready₄ := hserves.grow _ _ _ hready₃ hgrown₄
    obtain ⟨r₅, hgrown₅, heval₅⟩ := rebuilds_codeOfAll hserves oneOf honeOf hknown₅ hready₄
    have hready₅ := hserves.grow _ _ _ hready₄ hgrown₅
    obtain ⟨r₆, hgrown₆, heval₆⟩ := rebuilds_codeOfAll hserves allOf hallOf hknown₆ hready₅
    have hready₆ := hserves.grow _ _ _ hready₅ hgrown₆
    have hsets := (sets_scalars type title description format pattern contentEncoding
        contentMediaType minLength maxLength minItems maxItems minProperties maxProperties minimum
        maximum exclusiveMinimum exclusiveMaximum enumValues uniqueItems before :
        Sets pool selected builders _ _ _ _ _ _)
      |>.append (sets_boxedField "items" items (fun v node => { node with items := v.or node.items })
        rfl (fun node => by cases node; rfl) hgrown₁ heval₁)
      |>.append (sets_properties hsorted hgrown₂ heval₂)
      |>.append (sets_texts required r₂)
      |>.append (sets_boxedField "additional_properties" additionalProperties
        (fun v node => { node with additionalProperties := v.or node.additionalProperties })
        rfl (fun node => by cases node; rfl) hgrown₃ heval₃)
      |>.append (sets_boxedField "property_names" propertyNames
        (fun v node => { node with propertyNames := v.or node.propertyNames })
        rfl (fun node => by cases node; rfl) hgrown₄ heval₄)
      |>.append (sets_nodes "one_of" (fun nodes node => { node with oneOf := nodes })
        (fun nodes node => { node with oneOf := if nodes.isEmpty then node.oneOf else nodes })
        rfl (fun node hne => by simp [hne]) (fun node => by cases node; rfl) hgrown₅ heval₅)
      |>.append (sets_nodes "all_of" (fun nodes node => { node with allOf := nodes })
        (fun nodes node => { node with allOf := if nodes.isEmpty then node.allOf else nodes })
        rfl (fun node hne => by simp [hne]) (fun node => by cases node; rfl) hgrown₆ heval₆)
    obtain ⟨after, hgrown, hbase⟩ := rebuilds_baseOf hserves href hready₆
    have hupdate : Sets pool selected builders _ _ _ before r₆
        (overlay ⟨ref, type, title, description, format, pattern, contentEncoding, contentMediaType,
          minLength, maxLength, minimum, maximum, exclusiveMinimum, exclusiveMaximum, enumValues,
          items, minItems, maxItems, uniqueItems, properties, required, additionalProperties,
          propertyNames, minProperties, maxProperties, oneOf, allOf, []⟩) :=
      hsets.congr (fun _ => Iff.rfl) rfl
    obtain ⟨hgrown, heval⟩ := hupdate.withFields (by decide) hgrown hbase
    rw [overlay_reference rfl] at heval
    refine ⟨after, hgrown.congr fun k => ?_, (codeOf_eq callees _).symm ▸ heval⟩
    simp only [namesOf, Schema.references, Schema.referencesOfEntries, List.filterMap_append,
      List.mem_append, List.filterMap_nil, List.not_mem_nil, List.nil_append, or_false]
    exact Iff.of_eq (by ac_rfl)

/-- The code of a node that may be missing. -/
theorem rebuilds_codeOfOption (hserves : Serves pool selected callees ready builders) :
    (value : Option Schema) → Schema.OptionIsFlat value →
      Known callees (Schema.referencesOfOption value) → {before : Registry} → ready before →
      ∃ after, Grown pool selected (namesOf (Schema.referencesOfOption value)) before after ∧
        match value with
        | none => after = before
        | some node => eval builders (codeOf callees node).expression (holding before) =
            some (.node node, holding after)
  | none, _, _, before, _ => ⟨before, .nil before, rfl⟩
  | some node, hflat, hknown, before, hready => rebuilds_codeOf hserves node hflat hknown hready

/-- The code of several nodes. -/
theorem rebuilds_codeOfAll (hserves : Serves pool selected callees ready builders) :
    (nodes : List Schema) → Schema.AllAreFlat nodes →
      Known callees (Schema.referencesOfAll nodes) → {before : Registry} → ready before →
      ∃ after, Grown pool selected (namesOf (Schema.referencesOfAll nodes)) before after ∧
        evalAll builders (expressionsOf (codeOfAll callees nodes)) (holding before) =
          some (nodes.map .node, holding after)
  | [], _, _, before, _ => ⟨before, .nil before, rfl⟩
  | node :: rest, ⟨hflat, hrest⟩, hknown, before, hready => by
    obtain ⟨hfirst, hothers⟩ := known_append.mp hknown
    obtain ⟨between, hgrown, heval⟩ := rebuilds_codeOf hserves node hflat hfirst hready
    obtain ⟨after, hgrown', heval'⟩ :=
      rebuilds_codeOfAll hserves rest hrest hothers (hserves.grow _ _ _ hready hgrown)
    refine ⟨after, ?_, ?_⟩
    · simpa [namesOf, Schema.referencesOfAll] using hgrown.append hgrown'
    · simp [codeOfAll, expressionsOf, evalAll, heval, heval']

/-- The code of the nodes under several keys. -/
theorem rebuilds_codeOfEntries (hserves : Serves pool selected callees ready builders) :
    (entries : List (String × Schema)) → Schema.EntriesAreFlat entries →
      Known callees (Schema.referencesOfEntries entries) → {before : Registry} → ready before →
      ∃ after, Grown pool selected (namesOf (Schema.referencesOfEntries entries)) before after ∧
        evalAll builders (expressionsOfEntries (codeOfEntries callees entries)) (holding before) =
          some (entries.map fun e => .pair (.text e.1) (.node e.2), holding after)
  | [], _, _, before, _ => ⟨before, .nil before, rfl⟩
  | (key, node) :: rest, ⟨hflat, hrest⟩, hknown, before, hready => by
    obtain ⟨hfirst, hothers⟩ := known_append.mp hknown
    obtain ⟨between, hgrown, heval⟩ := rebuilds_codeOf hserves node hflat hfirst hready
    obtain ⟨after, hgrown', heval'⟩ :=
      rebuilds_codeOfEntries hserves rest hrest hothers (hserves.grow _ _ _ hready hgrown)
    refine ⟨after, ?_, ?_⟩
    · simpa [namesOf, Schema.referencesOfEntries] using hgrown.append hgrown'
    · simp [codeOfEntries, expressionsOfEntries, expressionOfText, evalAll, eval, applyMethod, heval,
        heval']

end

end Builder

end MessageSchema
