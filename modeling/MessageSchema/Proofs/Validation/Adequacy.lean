import MessageSchema.Proofs.Synthesis.Narrowing
import MessageSchema.Proofs.Validation.Fields

/-!
# A root accepts the instances of its message

A root is a reference to its message, together with the schemas of the messages that it reaches. An
instance of a message is smaller the further references have been followed, so that references in a
circle come to an end with the instance; as soon as more references may be followed than the instance
is large, the judgement of the root is whether the instance conforms to the message.

Two kinds of names are left out. A name that begins with a dot stands for another message. A name with
a slash, a tilde or a percent sign is not escaped where it is referred to, and so is not found there.

## Main results

* `Property.target?_of_holds`: a field refers to the message that it holds.
* `Validation.judge_root`: the judgement of a root with a large bound.
* `Validation.accepts_iff_conforms`: a root accepts the instances of its message and rejects all
  other values.
* `Validation.not_accepts_iff_conforms`: the names that are left out.
-/

namespace MessageSchema

variable {pool : Pool} {selected : List String} {owner message held : Message} {field : Field}

/-! ### Where references lead -/

theorem Value.target?_of_isMessage {value : Value} (h : Value.ofField pool owner field = .ok value)
    (hkind : field.kind.isMessage = true) (hheld : pool.message? field.target = some held) :
    value.kind.target? = some held.fullName := by
  obtain ⟨-, other, hother, rfl⟩ | ⟨henum, -⟩ | ⟨hbytes, -⟩ | ⟨hplain, -⟩ := Value.cases_ofField h
  · obtain rfl := Option.some.inj (hheld.symm.trans hother)
    rfl
  · rw [henum] at hkind
    cases hkind
  · rw [hbytes] at hkind
    cases hkind
  · rw [hplain] at hkind
    cases hkind

/-- A field refers to the message that it holds. -/
theorem Property.target?_of_holds {property : Property} {title description : String}
    (h : Property.ofField pool owner field title description = .ok property)
    (hholds : pool.Holds field held) : property.value.kind.target? = some held.fullName := by
  obtain ⟨hsingular, -, hvalue⟩ | ⟨hlist, -, hvalue⟩ |
    ⟨hmap, entry, key, inner, hentry, -, hinner, -, hvalue⟩ := Property.cases_ofField h
  · rw [Pool.Holds, if_neg (by simp [Field.isMap, hsingular])] at hholds
    exact Value.target?_of_isMessage hvalue hholds.1 hholds.2
  · rw [Pool.Holds, if_neg (by simp [Field.isMap, hlist])] at hholds
    exact Value.target?_of_isMessage hvalue hholds.1 hholds.2
  · rw [Pool.Holds, if_pos (by simp [Field.isMap, hmap])] at hholds
    obtain ⟨entry', inner', hentry', hinner', hkind, hheld⟩ := hholds
    obtain rfl := Option.some.inj (hentry.symm.trans hentry')
    obtain rfl := Option.some.inj (hinner.symm.trans hinner')
    exact Value.target?_of_isMessage hvalue hkind hheld

/-- The schema of a message refers to all messages that its fields hold. -/
theorem Shape.mem_referencedNames {shape : Schema} (hplain : message.IsPlain)
    (h : ofMessage pool selected message = .ok shape) (hrefers : pool.RefersTo message held) :
    held.fullName ∈ shape.referencedNames := by
  obtain ⟨field, hfield, hholds⟩ := hrefers
  obtain ⟨⟨⟩, -, h⟩ := Except.bind_eq_ok.mp h
  obtain ⟨entries, hentries, h⟩ := Except.bind_eq_ok.mp h
  obtain rfl := Except.pure_eq_ok.mp h
  have hfields := entriesOf_fields hplain.2 hentries
  rw [← hfields] at hfield
  obtain ⟨e, he, rfl⟩ := List.mem_map.mp hfield
  obtain ⟨hmem, hproperty⟩ := mem_of_entriesOf hentries he
  obtain ⟨_, _, property, hproperty, hnode⟩ := property?_eq_ok (hplain.2 _ hmem) hproperty
  have href : Schema.refStart ++ held.fullName ∈ e.2.references := by
    rw [Option.some.inj hnode, references_node, Value.refs,
      Property.target?_of_holds hproperty hholds]
    simp
  have hget := get?_entries (hfields.symm ▸ hplain.1) he
  refine List.mem_filterMap.mpr ⟨_, ?_, Schema.refName?_refStart _⟩
  simp only [Schema.typed, Schema.references, List.mem_append, Schema.mem_referencesOfEntries]
  exact .inl (.inl (.inl (.inr ⟨_, Dictionary.mem_of_get? hget, href⟩)))

namespace Validation

open Synthesis

variable {set : DescriptorSet} {root : Message} {filled : Registry} {document : Schema} {k : String}
  {v : Instance} {bound : ℕ}

theorem mem_messages_of_refersTo (h : set.pool.RefersTo message held) : held ∈ set.messages := by
  obtain ⟨_, -, hholds⟩ := h
  obtain ⟨_, hfound⟩ := hholds.exists_message?
  exact DescriptorSet.mem_messages_of_message? hfound

/-- What a message of a set reaches is a message of the set. -/
theorem mem_messages_of_reaches (hroot : root ∈ set.messages) (h : set.pool.Reaches root message) :
    message ∈ set.messages := by
  cases h with
  | refl => exact hroot
  | tail _ hrefers => exact mem_messages_of_refersTo hrefers

/-- What a registry that is filled with a message says about a message that is reached: it holds its
schema, and the messages that the schema refers to are in it as well. -/
theorem shape_of_filledWith (hunique : set.DeclaredOnce) (hdot : set.Undotted)
    (hroot : root ∈ set.messages)
    (hfilled : FilledWith set.pool selected [] root.fullName filled)
    (hplain : ∀ m, set.pool.Reaches root m → m.IsPlain) (h : set.pool.Reaches root message) :
    ∃ shape, Shape.ofMessage set.pool selected message = .ok shape ∧
      filled.get? message.fullName = some shape := by
  have hadded : Adds set.pool selected [] root.fullName message.fullName := by
    induction h with
    | refl => exact .start rfl (by simp)
    | @tail inner held hreaches hrefers ih =>
      obtain ⟨shape, hshape, -⟩ := hfilled.added _ ih
      refine .step ih ⟨shape, hshape, ?_⟩ (by simp)
      obtain ⟨found, hfound, hshape⟩ := shapeOf_eq_ok.mp hshape
      rw [hunique.message?_fullName hdot (mem_messages_of_reaches hroot hreaches)] at hfound
      obtain rfl := Option.some.inj hfound
      exact Shape.mem_referencedNames (hplain _ hreaches) hshape hrefers
  obtain ⟨shape, hshape, hget⟩ := hfilled.added _ hadded
  obtain ⟨found, hfound, hshape⟩ := shapeOf_eq_ok.mp hshape
  rw [hunique.message?_fullName hdot (mem_messages_of_reaches hroot h)] at hfound
  obtain rfl := Option.some.inj hfound
  exact ⟨shape, hshape, hget⟩

/-- In a document whose registry is filled with a message, references to what is reached come to what
the messages declare, if more references may be followed than the instance is large. -/
theorem follows_of_filledWith (hunique : set.DeclaredOnce) (hdot : set.Undotted)
    (hroot : root ∈ set.messages)
    (hfilled : FilledWith set.pool selected [] root.fullName document.defs)
    (hplain : ∀ m, set.pool.Reaches root m → m.IsPlain)
    (hliteral : ∀ m, set.pool.Reaches root m → Pointer.IsLiteral m.fullName)
    (h : set.pool.Reaches root message) (hbound : sizeOf v < bound) :
    set.pool.Follows (document.followIn bound) message v := by
  -- One reference is followed to the schema of the message. All further ones are judged on smaller
  -- instances, where the bound that is left suffices.
  induction bound generalizing message v with
  | zero => exact absurd hbound (Nat.not_lt_zero _)
  | succ bound ih =>
    obtain ⟨shape, hshape, hget⟩ := shape_of_filledWith hunique hdot hroot hfilled hplain h
    have hstep : document.followIn (bound + 1) (Schema.refStart ++ message.fullName) v =
        shape.judge (document.followIn bound) v := by
      have hget : Dictionary.get? message.fullName document.defs = some shape := hget
      rw [Schema.followIn, Schema.resolve?_refStart (hliteral _ h), hget]
      rfl
    rw [Pool.Follows, hstep]
    refine Shape.judge_iff_conforms (hplain _ h) hshape fun held hrefers w hw => ?_
    exact ih (h.tail hrefers) (by omega)

/-- The judgement of a root with a large bound. -/
theorem judge_root (hunique : set.DeclaredOnce) (hdot : set.Undotted) (hroot : root ∈ set.messages)
    (hdocument : Synthesis.root set.pool selected root.fullName = .ok document)
    (hplain : ∀ m, set.pool.Reaches root m → m.IsPlain)
    (hliteral : ∀ m, set.pool.Reaches root m → Pointer.IsLiteral m.fullName)
    (hbound : sizeOf v < bound) :
    document.judge (document.followIn bound) v = true ↔ set.pool.Conforms root v := by
  obtain ⟨filled, hfill, rfl⟩ := root_eq_ok.mp hdocument
  rw [Schema.judge_rootReference]
  exact follows_of_filledWith hunique hdot hroot (filledWith_of_fill hfill) hplain hliteral .refl
    hbound

/-- **Adequacy.** A root accepts the instances of its message and rejects all other values, if the
messages that it reaches have fields with different names and without overlays, and names that a
pointer spells as they are. -/
theorem accepts_iff_conforms (hunique : set.DeclaredOnce) (hdot : set.Undotted)
    (hroot : root ∈ set.messages)
    (hdocument : Synthesis.root set.pool selected root.fullName = .ok document)
    (hplain : ∀ m, set.pool.Reaches root m → m.IsPlain)
    (hliteral : ∀ m, set.pool.Reaches root m → Pointer.IsLiteral m.fullName) (v : Instance) :
    (document.Accepts v ↔ set.pool.Conforms root v) ∧
      (document.Rejects v ↔ ¬ set.pool.Conforms root v) := by
  have hjudge : ∀ bound > sizeOf v,
      document.judge (document.followIn bound) v = true ↔ set.pool.Conforms root v :=
    fun bound => judge_root hunique hdot hroot hdocument hplain hliteral
  constructor
  · constructor
    · rintro ⟨least, haccepts⟩
      exact (hjudge (max least (sizeOf v + 1)) (by omega)).mp (haccepts _ (le_max_left _ _))
    · intro hconforms
      exact ⟨sizeOf v + 1, fun bound hbound => (hjudge bound hbound).mpr hconforms⟩
  · constructor
    · rintro ⟨least, hrejects⟩ hconforms
      have haccepts := (hjudge (max least (sizeOf v + 1)) (by omega)).mpr hconforms
      rw [hrejects _ (le_max_left _ _)] at haccepts
      cases haccepts
    · intro hconforms
      refine ⟨sizeOf v + 1, fun bound hbound => Bool.eq_false_iff.mpr fun haccepts => ?_⟩
      exact hconforms ((hjudge bound hbound).mp haccepts)

/-- A task has a title, is made of other tasks, and ends in one of two ways. -/
def task : Message where
  name := "Task"
  fullName := "plan.Task"
  file := "plan.proto"
  fields := [
    { name := "title", number := 1, kind := .string },
    { name := "parts", number := 2, kind := .message, cardinality := .list,
      typeName := some "plan.Task" },
    { name := "done", number := 3, kind := .bool, oneof := some "outcome" },
    { name := "reason", number := 4, kind := .string, oneof := some "outcome" }]
  oneofs := [{ name := "outcome" }]

/-- The message of tasks alone. -/
def taskSet : DescriptorSet where
  files := [{ path := "plan.proto", package := "plan", messages := [task] }]
  targets := []

/-- A task with another one in it. -/
def moving : Instance :=
  .object [("title", .text "move"), ("done", .boolean true),
    ("parts", .array [.object [("title", .text "pack"), ("reason", .text "no boxes")]])]

/-- The values of the members decide whether an object with the right members is a task. -/
theorem conforms_task {members : List (String × Instance)}
    (hmandatory : ∀ field ∈ task.fields, field.IsMandatory →
      Instance.has members field.name = true)
    (houtcome : Instance.HasOneOf members ["done", "reason"])
    (htexts : ∀ name ∈ ["title", "reason"], ∀ v, (name, v) ∈ members → ∃ s, v = .text s)
    (hdone : ∀ v, ("done", v) ∈ members → ∃ b, v = .boolean b)
    (hparts : ∀ v, ("parts", v) ∈ members →
      ∃ items, v = .array items ∧ ∀ item ∈ items, taskSet.pool.Conforms task item) :
    taskSet.pool.Conforms task (.object members) := by
  refine .object hmandatory (fun group hgroup _ _ => ?_) fun field hfield v hv => ?_
  · obtain rfl := List.mem_singleton.mp hgroup
    exact houtcome
  · simp only [task, List.mem_cons, List.not_mem_nil, or_false] at hfield
    rcases hfield with rfl | rfl | rfl | rfl
    · obtain ⟨s, rfl⟩ := htexts "title" (by simp) v hv
      exact .single rfl (.text s (.inl rfl))
    · obtain ⟨items, rfl, hitems⟩ := hparts v hv
      exact .list rfl fun item hitem => .message rfl rfl (hitems item hitem)
    · obtain ⟨b, rfl⟩ := hdone v hv
      exact .single rfl (.boolean b rfl)
    · obtain ⟨s, rfl⟩ := htexts "reason" (by simp) v hv
      exact .single rfl (.text s (.inl rfl))

theorem conforms_moving : taskSet.pool.Conforms task moving := by
  have hpart : taskSet.pool.Conforms task
      (.object [("title", .text "pack"), ("reason", .text "no boxes")]) := by
    apply conforms_task (by decide) (by decide) <;> simp
  apply conforms_task (by decide) (by decide) <;> simp
  exact hpart

/-- The root of tasks refers to itself. It accepts exactly the tasks, and one of them is given. -/
theorem accepts_iff_conforms_tasks : ∃ document,
    taskSet.DeclaredOnce ∧ taskSet.Undotted ∧ task ∈ taskSet.messages ∧
    Synthesis.root taskSet.pool ["plan.Task"] task.fullName = .ok document ∧
    (∀ m, taskSet.pool.Reaches task m → m.IsPlain) ∧
    (∀ m, taskSet.pool.Reaches task m → Pointer.IsLiteral m.fullName) ∧
    (∀ v, (document.Accepts v ↔ taskSet.pool.Conforms task v) ∧
      (document.Rejects v ↔ ¬ taskSet.pool.Conforms task v)) ∧
    document.Accepts moving := by
  obtain ⟨document, hdocument, -⟩ : ∃ document,
      Synthesis.root taskSet.pool ["plan.Task"] task.fullName = .ok document ∧ true = true :=
    Except.exists_of_succeedsWith (by decide +kernel)
  have hunique : taskSet.DeclaredOnce := by decide
  have hdot : taskSet.Undotted := by decide
  have hroot : task ∈ taskSet.messages := List.mem_singleton_self _
  have hplain : ∀ m, taskSet.pool.Reaches task m → m.IsPlain := by
    intro m hreaches
    have hall : ∀ m ∈ taskSet.messages, m.IsPlain := by decide
    exact hall m (mem_messages_of_reaches hroot hreaches)
  have hliteral : ∀ m, taskSet.pool.Reaches task m → Pointer.IsLiteral m.fullName := by
    intro m hreaches
    have hall : ∀ m ∈ taskSet.messages, Pointer.IsLiteral m.fullName := by decide
    exact hall m (mem_messages_of_reaches hroot hreaches)
  have haccepts := accepts_iff_conforms hunique hdot hroot hdocument hplain hliteral
  exact ⟨document, hunique, hdot, hroot, hdocument, hplain, hliteral, haccepts,
    (haccepts moving).1.mpr conforms_moving⟩

/-! ### Names that are not read as they are -/

/-- What adequacy asks of the roots of a message, whatever its name and those that it reaches are. -/
def IsAdequate (set : DescriptorSet) (root : Message) : Prop :=
  ∀ (selected : List String) (document : Schema), set.DeclaredOnce → root ∈ set.messages →
    Synthesis.root set.pool selected root.fullName = .ok document →
    (∀ m, set.pool.Reaches root m → m.IsPlain) → ∀ v,
    (document.Accepts v ↔ set.pool.Conforms root v) ∧
      (document.Rejects v ↔ ¬ set.pool.Conforms root v)

/-- What a root accepts is accepted by the node that its reference leads to. -/
theorem exists_resolve?_of_accepts {name : String}
    (h : (Schema.rootReference name filled).Accepts v) :
    ∃ bound node, (Schema.rootReference name filled).resolve? (Schema.refStart ++ name) = some node ∧
      node.judge ((Schema.rootReference name filled).followIn bound) v = true := by
  obtain ⟨least, haccepts⟩ := h
  have hjudge := haccepts (least + 1) (Nat.le_succ least)
  rw [Schema.judge_rootReference, Schema.followIn] at hjudge
  obtain ⟨node, hnode, hjudge⟩ := (Option.any_eq_true _ _).mp hjudge
  exact ⟨least, node, hnode, hjudge⟩

/-- A message of a set whose root does not accept one of its instances. -/
theorem not_isAdequate (hunique : set.DeclaredOnce) (hroot : root ∈ set.messages)
    (hplain : ∀ m ∈ set.messages, m.IsPlain)
    (hdocument : Synthesis.root set.pool selected root.fullName = .ok document)
    (hconforms : set.pool.Conforms root v) (hrefused : ¬ document.Accepts v) :
    ¬ IsAdequate set root := by
  intro h
  have hreached : ∀ m, set.pool.Reaches root m → m.IsPlain :=
    fun m hreaches => hplain m (mem_messages_of_reaches hroot hreaches)
  exact hrefused ((h selected document hunique hroot hdocument hreached v).1.mpr hconforms)

/-- A message whose name is that of another one behind a dot. -/
def twin : Message where
  name := "B"
  fullName := ".a.B"
  file := "a.proto"
  fields := [{ name := "y", number := 1, kind := .string }]

/-- The two messages with that name. -/
def twinSet : DescriptorSet where
  files := [{
    path := "a.proto"
    package := "a"
    messages := [
      { name := "B", fullName := "a.B", file := "a.proto",
        fields := [{ name := "x", number := 1, kind := .string }] },
      twin] }]
  targets := []

/-- The name with a dot in front stands for the other message. -/
theorem not_isAdequate_twin : ¬ IsAdequate twinSet twin := by
  obtain ⟨document, hdocument, hrequired⟩ : ∃ document,
      Synthesis.root twinSet.pool ["a.B", ".a.B"] twin.fullName = .ok document ∧
        (document.resolve? (Schema.refStart ++ twin.fullName)).any (·.required = ["x"]) = true :=
    Except.exists_of_succeedsWith (by decide +kernel)
  have hconforms : twinSet.pool.Conforms twin (.object [("y", .text "")]) := by
    refine .object (by decide) (by decide) fun field hfield v hv => ?_
    obtain rfl := List.mem_singleton.mp hfield
    obtain ⟨-, rfl⟩ := Prod.mk.inj (List.mem_singleton.mp hv)
    exact .single rfl (.text "" (.inl rfl))
  have hroot : twin ∈ twinSet.messages := List.mem_cons_of_mem _ (List.mem_singleton_self _)
  refine not_isAdequate (by decide) hroot (by decide) hdocument hconforms fun haccepts => ?_
  obtain ⟨filled, -, rfl⟩ := root_eq_ok.mp hdocument
  obtain ⟨bound, node, hnode, hjudge⟩ := exists_resolve?_of_accepts haccepts
  have hmissing : Schema.judgeRequired ["x"] (.object [("y", .text "")]) = false := by decide
  rw [hnode, Option.any_some] at hrequired
  rw [Schema.judge_eq, of_decide_eq_true hrequired, hmissing, Bool.and_false, Bool.false_and,
    Bool.false_and] at hjudge
  cases hjudge

/-- A message with a name. -/
def tagged (name : String) : Message where
  name := name
  fullName := name
  file := "a.proto"
  fields := [{ name := "x", number := 1, kind := .string }]

/-- That message alone. -/
def taggedSet (name : String) : DescriptorSet where
  files := [{ path := "a.proto", messages := [tagged name] }]
  targets := []

/-- A name that is not found behind its reference leaves the message without instances. -/
theorem not_isAdequate_tagged {name : String}
    (hlost : Except.succeedsWith
      (fun document => (document.resolve? (Schema.refStart ++ name)).isNone)
      (Synthesis.root (taggedSet name).pool [name] name) = true) :
    ¬ IsAdequate (taggedSet name) (tagged name) := by
  obtain ⟨document, hdocument, hnone⟩ := Except.exists_of_succeedsWith hlost
  have hroot : tagged name ∈ (taggedSet name).messages := List.mem_singleton_self _
  have hplain : ∀ m ∈ (taggedSet name).messages, m.IsPlain := by
    intro m hm
    obtain rfl := List.mem_singleton.mp hm
    exact ⟨List.nodup_singleton _, List.forall_mem_singleton.mpr rfl⟩
  have hconforms : (taggedSet name).pool.Conforms (tagged name) (.object [("x", .text "")]) := by
    refine .object ?_ ?_ fun field hfield v hv => ?_
    · exact List.forall_mem_singleton.mpr fun _ => rfl
    · exact fun _ hnone => absurd hnone (List.not_mem_nil)
    · obtain rfl := List.mem_singleton.mp hfield
      obtain ⟨-, rfl⟩ := Prod.mk.inj (List.mem_singleton.mp hv)
      exact .single rfl (.text "" (.inl rfl))
  refine not_isAdequate (List.nodup_singleton _) hroot hplain hdocument hconforms fun haccepts => ?_
  obtain ⟨filled, -, rfl⟩ := root_eq_ok.mp hdocument
  obtain ⟨_, node, hnode, -⟩ := exists_resolve?_of_accepts haccepts
  rw [hnode] at hnone
  cases hnone

/-- **Names that are not read as they are have roots that accept too little.** A name with a dot in
front has the root of the other message. A name with a slash, a tilde or a percent sign is not found
behind its reference. In both cases the root does not accept the instances of the message that bears
the name, although nothing else stands against it. -/
theorem not_accepts_iff_conforms :
    ((∀ m ∈ twinSet.messages, Pointer.IsLiteral m.fullName) ∧ ¬ IsAdequate twinSet twin) ∧
    ∀ name ∈ ["A/B", "A~1B", "A%42"],
      (taggedSet name).Undotted ∧ ¬ IsAdequate (taggedSet name) (tagged name) := by
  refine ⟨⟨by decide, not_isAdequate_twin⟩, fun name hname => ?_⟩
  simp only [List.mem_cons, List.not_mem_nil, or_false] at hname
  rcases hname with rfl | rfl | rfl
  · exact ⟨by decide, not_isAdequate_tagged (by decide +kernel)⟩
  · exact ⟨by decide, not_isAdequate_tagged (by decide +kernel)⟩
  · exact ⟨by decide, not_isAdequate_tagged (by decide +kernel)⟩

end Validation

end MessageSchema
