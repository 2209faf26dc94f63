import MessageSchema.Proofs.Document.RoundTrip
import MessageSchema.Schema.Codec

/-!
# Schema nodes survive JSON

A node that is written to JSON and read again is the same node. One table fixes both directions, and a
node inside a node is written and read in the same way, so the statement goes up from the innermost
nodes. Properties and the registry come back in key order, and are expected to be in it.

## Main definitions

* `Schema.children`: the nodes directly inside a node.
* `Schema.KeysInOrder`: the dictionaries of a node are in key order, all the way down.

## Main results

* `Schema.exists_restores`: a node comes back if the nodes directly inside it do.
* `Schema.ofJson_toJson`: a node comes back.
-/

namespace MessageSchema

/-! ### Keywords -/

theorem readUInt64_toNat (n : UInt64) : readUInt64 (.integer n.toNat) = .ok n := by
  have hread := Node.whole_integer "u64" (Int.natCast_nonneg n.toNat)
    (Int.le_sub_one_of_lt (Int.ofNat_lt.mpr n.toNat_lt))
  exact Except.map_eq_ok.mpr ⟨_, Except.map_eq_ok.mpr ⟨_, hread, rfl⟩, UInt64.ofNat_toNat⟩

theorem readInt64_toInt (n : Int64) : readInt64 (.integer n.toInt) = .ok n := by
  have hread := Node.whole_integer "i64" n.le_toInt (Int.le_sub_one_of_lt n.toInt_lt)
  exact Except.map_eq_ok.mpr ⟨_, hread, Int64.ofInt_toInt n⟩

namespace Schema

/-- The nodes directly inside a node. -/
def children (node : Schema) : List Schema :=
  node.items.toList ++ node.additionalProperties.toList ++ node.propertyNames.toList ++
    node.properties.map (·.2) ++ node.oneOf ++ node.allOf ++ node.defs.map (·.2)

/-- The properties and the registry of a node are in key order, and so on down. -/
inductive KeysInOrder : Schema → Prop
  | mk {node : Schema} (properties : Dictionary.Sorted node.properties)
      (defs : Dictionary.Sorted node.defs) (children : ∀ child ∈ node.children, KeysInOrder child) :
      KeysInOrder node

theorem KeysInOrder.of_children_eq_nil {node : Schema} (h : node.children = []) :
    node.KeysInOrder := by
  have hnone := h
  simp only [children, List.append_eq_nil_iff, List.map_eq_nil_iff] at hnone
  obtain ⟨⟨⟨⟨-, hproperties⟩, -⟩, -⟩, hdefs⟩ := hnone
  exact .mk (hproperties ▸ .nil) (hdefs ▸ .nil) (by simp [h])

variable {arrange : Json → Json} {start node : Schema} {name : String}
  {read : Json → Decoded Schema} {write : Schema → Json}

theorem restores_text (harrange : Json.Arranges arrange) {get : Schema → Option String}
    {set : Option String → Schema → Schema} (h : set none start = start) :
    (textMember name get set).Restores arrange start node (set (get node)) :=
  .optional (fun x _ => by rw [harrange.leaf rfl]; exact ⟨rfl, rfl⟩) fun _ => h

theorem restores_count (harrange : Json.Arranges arrange) {get : Schema → Option UInt64}
    {set : Option UInt64 → Schema → Schema} (h : set none start = start) :
    (countMember name get set).Restores arrange start node (set (get node)) :=
  .optional (fun x _ => by rw [harrange.leaf rfl]; exact ⟨rfl, readUInt64_toNat x⟩) fun _ => h

theorem restores_bound (harrange : Json.Arranges arrange) {get : Schema → Option Binary64}
    {set : Option Binary64 → Schema → Schema} (h : set none start = start) :
    (boundMember name get set).Restores arrange start node (set (get node)) :=
  .optional (fun x _ => by rw [harrange.leaf rfl]; exact ⟨rfl, rfl⟩) fun _ => h

theorem restores_type (harrange : Json.Arranges arrange) {get : Schema → Option PrimitiveType}
    {set : Option PrimitiveType → Schema → Schema} (h : set none start = start) :
    (Member.optional name (Node.oneOf (PrimitiveType.all.map fun type => (type.name, type)))
      (fun type => .text type.name) get set).Restores arrange start node (set (get node)) :=
  .optional (fun x _ => by rw [harrange.leaf rfl]; exact ⟨rfl, by cases x <;> rfl⟩) fun _ => h

theorem restores_switch (harrange : Json.Arranges arrange) {get : Schema → Option Bool}
    {set : Option Bool → Schema → Schema} (h : set none start = start) :
    (Member.optional name Node.boolean .boolean get set).Restores arrange start node
      (set (get node)) :=
  .optional (fun x _ => by rw [harrange.leaf rfl]; exact ⟨rfl, rfl⟩) fun _ => h

/-- A node comes back if the nodes directly inside it do. -/
theorem exists_restores (harrange : Json.Arranges arrange)
    (hproperties : Dictionary.Sorted node.properties) (hdefs : Dictionary.Sorted node.defs)
    (hchildren : ∀ child ∈ node.children,
      (arrange (write child)).isNull = false ∧ read (arrange (write child)) = .ok child) :
    ∃ changes, List.Forall₂ (Member.Restores arrange blank node) (members read write) changes ∧
      changes.Pairwise Member.Commute ∧ changes.foldl (fun v change => change v) blank = node := by
  simp only [children, List.forall_mem_append, List.forall_mem_map, Option.mem_toList] at hchildren
  obtain ⟨⟨⟨⟨⟨⟨hitems, hvalues⟩, hnames⟩, hentries⟩, honeOf⟩, hallOf⟩, hregistry⟩ := hchildren
  refine ⟨_,
    .cons (restores_text harrange rfl) <| .cons (restores_type harrange rfl) <|
    .cons (restores_text harrange rfl) <| .cons (restores_text harrange rfl) <|
    .cons (restores_text harrange rfl) <| .cons (restores_text harrange rfl) <|
    .cons (restores_text harrange rfl) <| .cons (restores_text harrange rfl) <|
    .cons (restores_count harrange rfl) <| .cons (restores_count harrange rfl) <|
    .cons (restores_bound harrange rfl) <| .cons (restores_bound harrange rfl) <|
    .cons (restores_bound harrange rfl) <| .cons (restores_bound harrange rfl) <|
    .cons (.list harrange (fun n _ => by rw [harrange.leaf rfl, readInt64_toInt]) fun _ => rfl) <|
    .cons (.optional hitems fun _ => rfl) <|
    .cons (restores_count harrange rfl) <| .cons (restores_count harrange rfl) <|
    .cons (restores_switch harrange rfl) <|
    .cons (.dictionary harrange hproperties (fun e he => (hentries e he).2) fun _ => rfl) <|
    .cons (.list harrange (fun x _ => by rw [harrange.leaf rfl]; rfl) fun _ => rfl) <|
    .cons (.optional hvalues fun _ => rfl) <| .cons (.optional hnames fun _ => rfl) <|
    .cons (restores_count harrange rfl) <| .cons (restores_count harrange rfl) <|
    .cons (.list harrange (fun x hx => (honeOf x hx).2) fun _ => rfl) <|
    .cons (.list harrange (fun x hx => (hallOf x hx).2) fun _ => rfl) <|
    .cons (.dictionary harrange hdefs (fun e he => (hregistry e he).2) fun _ => rfl) .nil, ?_,
    by cases node; rfl⟩
  simp only [List.pairwise_cons, List.forall_mem_cons, List.not_mem_nil, false_imp_iff, implies_true,
    and_true, List.Pairwise.nil]
  and_intros <;> exact fun _ => rfl

theorem nodup_names : (Member.record "Schema" blank (members read write)).names.Nodup := by
  have hclosed : (Member.record "Schema" blank (members read write)).names =
      (Member.record "Schema" blank (members (fun _ => .ok blank) fun _ => .null)).names := rfl
  rw [hclosed]
  decide

/-! ### Nesting -/

theorem nestingOfOption_eq (node : Option Schema) :
    nestingOfOption node = nestingOfAll node.toList := by
  cases node <;> simp [nestingOfOption, nestingOfAll]

theorem nestingOfEntries_eq (entries : List (String × Schema)) :
    nestingOfEntries entries = nestingOfAll (entries.map (·.2)) := by
  induction entries with
  | nil => rfl
  | cons entry rest ih => rw [nestingOfEntries, ih, List.map_cons, nestingOfAll]

theorem nestingOfAll_le_iff {nodes : List Schema} {k : ℕ} :
    nestingOfAll nodes ≤ k ↔ ∀ node ∈ nodes, node.nesting ≤ k := by
  induction nodes with
  | nil => simp [nestingOfAll]
  | cons node rest ih => rw [nestingOfAll, max_le_iff, ih, List.forall_mem_cons]

/-- A node nests one level deeper than the nodes directly inside it. -/
theorem nesting_le_iff {k : ℕ} :
    node.nesting ≤ k ↔ 0 < k ∧ ∀ child ∈ node.children, child.nesting < k := by
  have hnesting : node.nesting = max (max (max (nestingOfOption node.items)
      (nestingOfOption node.additionalProperties)) (max (nestingOfOption node.propertyNames)
      (nestingOfEntries node.properties))) (max (max (nestingOfAll node.oneOf)
      (nestingOfAll node.allOf)) (nestingOfEntries node.defs)) + 1 := by cases node; rfl
  cases k with
  | zero => simp [hnesting]
  | succ k =>
    simp only [hnesting, Nat.add_le_add_iff_right, max_le_iff, nestingOfOption_eq,
      nestingOfEntries_eq, nestingOfAll_le_iff, children, List.forall_mem_append, and_assoc,
      Nat.lt_succ_iff, Nat.zero_le, true_and]

/-- What is written for a node is deeper than what is written for a node directly inside it. -/
theorem depth_lt_of_mem_children (harrange : Json.Arranges arrange)
    (hproperties : Dictionary.Sorted node.properties) (hdefs : Dictionary.Sorted node.defs)
    {child : Schema} (hchild : child ∈ node.children) :
    (arrange (write child)).depth < (arrange (Member.encode (members read write) node)).depth := by
  have hholds : ∃ member ∈ members read write, member.Holds arrange node (write child) := by
    simp only [children, List.mem_append, Option.mem_toList, List.mem_map] at hchild
    obtain (((((hitems | hvalues) | hnames) | ⟨e, he, rfl⟩) | honeOf) | hallOf) | ⟨e, he, rfl⟩ :=
      hchild
    · exact ⟨_, List.mem_of_find?_eq_some (p := (·.name == "items")) rfl, .optional hitems⟩
    · exact ⟨_, List.mem_of_find?_eq_some (p := (·.name == "additionalProperties")) rfl,
        .optional hvalues⟩
    · exact ⟨_, List.mem_of_find?_eq_some (p := (·.name == "propertyNames")) rfl, .optional hnames⟩
    · exact ⟨_, List.mem_of_find?_eq_some (p := (·.name == "properties")) rfl,
        .dictionary harrange hproperties he⟩
    · exact ⟨_, List.mem_of_find?_eq_some (p := (·.name == "oneOf")) rfl, .list harrange honeOf⟩
    · exact ⟨_, List.mem_of_find?_eq_some (p := (·.name == "allOf")) rfl, .list harrange hallOf⟩
    · exact ⟨_, List.mem_of_find?_eq_some (p := (·.name == "$defs")) rfl,
        .dictionary harrange hdefs he⟩
  obtain ⟨member, hmember, hholds⟩ := hholds
  exact hholds.depth_lt harrange (Member.nodup_map_name rfl nodup_names) hmember

/-! ### All the way down -/

/-- What is written does not depend on how nodes are read. -/
theorem toJsonWithin_succ (read : Json → Decoded Schema) (n : ℕ) (node : Schema) :
    toJsonWithin (n + 1) node = Member.encode (members read (toJsonWithin n)) node := rfl

theorem nestsWithin (harrange : Json.Arranges arrange) :
    NestsWithin arrange children nesting toJsonWithin ofJsonWithin KeysInOrder where
  nesting_le_iff := nesting_le_iff
  good := by
    rintro _ ⟨-, -, hchildren⟩
    exact hchildren
  depth_pos {node n} _ := by
    rw [toJsonWithin_succ (ofJsonWithin n)]
    exact Member.depth_encode_pos harrange (Member.nodup_map_name rfl nodup_names)
  depth_lt := by
    rintro node n ⟨hproperties, hdefs, -⟩ child hchild
    exact depth_lt_of_mem_children harrange hproperties hdefs hchild
  comesBack := by
    rintro node n m ⟨hproperties, hdefs, -⟩ hchildren
    obtain ⟨changes, hrestores, hcommute, hall⟩ :=
      exists_restores harrange hproperties hdefs hchildren
    rw [toJsonWithin_succ (ofJsonWithin m)]
    exact Member.decode_encode harrange rfl hrestores nodup_names hcommute hall

/-- A node comes back, in whatever order the members of objects are in between. -/
theorem ofJson_arranged (harrange : Json.Arranges arrange) (h : node.KeysInOrder) :
    ofJson (arrange node.toJson) = .ok node :=
  (nestsWithin harrange).read_depth h

/-- **Nodes come back.** A node that is written to JSON and read again is the same node, also when
the members of objects are in key order in between. -/
theorem ofJson_toJson (h : node.KeysInOrder) :
    ofJson node.toJson = .ok node ∧ ofJson node.toJson.inKeyOrder = .ok node :=
  ⟨id_eq node.toJson ▸ ofJson_arranged Json.arranges_id h,
    ofJson_arranged Json.arranges_inKeyOrder h⟩

/-- A list of up to three texts. -/
def shelf : Schema where
  type := some .array
  items := some { type := some .string, minLength := some 2, pattern := some "^[a-z]+$" }
  maxItems := some 3
  uniqueItems := some true

/-- A node with a node in every place where one may be, and nodes inside some of them. -/
def library : Schema where
  ref := some "#/$defs/post.Shelf"
  type := some .object
  minimum := some (.zero true)
  enumValues := [-1, 4]
  items := some shelf
  properties := [("left", { ref := some "#/$defs/post.Shelf" }),
    ("right", { type := some .object, propertyNames := some { format := some "uuid" } })]
  required := ["left", "right"]
  additionalProperties := some (.requiring "left")
  propertyNames := some { maxLength := some 18446744073709551615 }
  oneOf := [.requiring "left", { allOf := [.requiring "right"] }]
  allOf := [{ oneOf := [.requiring "left", blank] }]
  defs := [("post.Box", blank), ("post.Shelf", shelf)]

/-- Every kind of place in a node. -/
theorem ofJson_toJson_library : library.KeysInOrder ∧ ofJson library.toJson = .ok library ∧
    ofJson library.toJson.inKeyOrder = .ok library := by
  have hflat {node : Schema} (h : node.children = []) : node.KeysInOrder := .of_children_eq_nil h
  have hone {node : Schema} (h : node.KeysInOrder) : ∀ child ∈ [node], child.KeysInOrder :=
    List.forall_mem_singleton.mpr h
  have htwo {first second : Schema} (h : first.KeysInOrder) (h' : second.KeysInOrder) :
      ∀ child ∈ [first, second], child.KeysInOrder := List.forall_mem_cons.mpr ⟨h, hone h'⟩
  have hshelf : shelf.KeysInOrder := .mk .nil .nil (hone (hflat rfl))
  have horder : library.KeysInOrder := by
    refine .mk (List.pairwise_pair.mpr (by decide)) (List.pairwise_pair.mpr (by decide)) ?_
    refine List.forall_mem_append.mpr ⟨List.forall_mem_append.mpr ⟨List.forall_mem_append.mpr
      ⟨?_, ?oneOf⟩, ?allOf⟩, ?defs⟩
    case oneOf => exact htwo (hflat rfl) (.mk .nil .nil (hone (hflat rfl)))
    case allOf => exact hone (.mk .nil .nil (htwo (hflat rfl) (hflat rfl)))
    case defs => exact htwo (hflat rfl) hshelf
    refine List.forall_mem_append.mpr ⟨List.forall_mem_append.mpr ⟨List.forall_mem_append.mpr
      ⟨hone hshelf, hone (hflat rfl)⟩, hone (hflat rfl)⟩, ?_⟩
    exact htwo (hflat rfl) (.mk .nil .nil (hone (hflat rfl)))
  exact ⟨horder, ofJson_toJson horder⟩

end Schema

end MessageSchema
