import MessageSchema.Proofs.Synthesis.OfSelection

/-!
# Roots do not depend on what else is selected

Which messages are selected decides whether a schema is built, and nothing else: two selections that
both admit a message give it the same schema. So a root that is built for some selection is built
unchanged for a smaller one, as long as the smaller one still holds what the root refers to.

## Main results

* `Shape.ofMessage_of_admitted`: a schema stays the same as long as what it refers to is selected.
* `Synthesis.root_unique`: all selections that give a root to a message give it the same root.
* `Synthesis.root_of_shapes`: a root stays as long as the schemas in it do.
* `Synthesis.root_of_select`: a message that asks for it has the same root in the selection that
  begins with it alone.
-/

namespace MessageSchema

variable {pool : Pool} {names names' : List String}

namespace Shape

variable {owner : Message} {field : Field}

/-- The node of a field is a function of the options and the type of the field. A selection can only
refuse it. -/
theorem property?_unique {node node' : Option Schema}
    (h : property? pool names owner field = .ok node)
    (h' : property? pool names' owner field = .ok node') : node = node' := by
  obtain ⟨options, hoptions, h⟩ := Except.bind_eq_ok.mp h
  obtain ⟨options', hoptions', h'⟩ := Except.bind_eq_ok.mp h'
  obtain rfl : options = options' := Except.ok.inj (hoptions.symm.trans hoptions')
  split at h
  · rename_i hignored
    rw [if_pos hignored] at h'
    exact (Except.pure_eq_ok.mp h).symm.trans (Except.pure_eq_ok.mp h')
  · rename_i hkept
    rw [if_neg hkept] at h'
    obtain ⟨property, hproperty, h⟩ := Except.bind_eq_ok.mp h
    obtain ⟨property', hproperty', h'⟩ := Except.bind_eq_ok.mp h'
    obtain rfl : property = property' := Except.ok.inj (hproperty.symm.trans hproperty')
    obtain ⟨⟨⟩, -, h⟩ := Except.bind_eq_ok.mp h
    obtain ⟨⟨⟩, -, h'⟩ := Except.bind_eq_ok.mp h'
    exact (Except.pure_eq_ok.mp h).symm.trans (Except.pure_eq_ok.mp h')

theorem entriesOf_unique {fields : List Field} {entries entries' : List (Field × Schema)}
    (h : entriesOf pool names owner fields = .ok entries)
    (h' : entriesOf pool names' owner fields = .ok entries') : entries = entries' := by
  induction fields generalizing entries entries' with
  | nil => exact (Except.ok.inj h).symm.trans (Except.ok.inj h')
  | cons field rest ih =>
    obtain ⟨node, others, hnode, hothers, rfl⟩ := entriesOf_cons_eq_ok.mp h
    obtain ⟨node', others', hnode', hothers', rfl⟩ := entriesOf_cons_eq_ok.mp h'
    obtain rfl := property?_unique hnode hnode'
    obtain rfl := ih hothers hothers'
    rfl

/-- All selections that give a schema to a message give it the same schema. -/
theorem ofMessage_unique {shape shape' : Schema} (h : ofMessage pool names owner = .ok shape)
    (h' : ofMessage pool names' owner = .ok shape') : shape = shape' := by
  obtain ⟨⟨⟩, -, h⟩ := Except.bind_eq_ok.mp h
  obtain ⟨entries, hentries, h⟩ := Except.bind_eq_ok.mp h
  obtain ⟨⟨⟩, -, h'⟩ := Except.bind_eq_ok.mp h'
  obtain ⟨entries', hentries', h'⟩ := Except.bind_eq_ok.mp h'
  obtain rfl := entriesOf_unique hentries hentries'
  exact (Except.pure_eq_ok.mp h).symm.trans (Except.pure_eq_ok.mp h')

/-- A selection admits what fields hold if it selects all that another selection selects of it. -/
def Admitted (pool : Pool) (names names' : List String) (fields : List Field) : Prop :=
  ∀ field ∈ fields, ∀ held, pool.Holds field held → held.fullName ∈ names → held.fullName ∈ names'

theorem property?_of_admitted {node : Option Schema}
    (h : property? pool names owner field = .ok node)
    (hadmitted : ∀ held, pool.Holds field held → held.fullName ∈ names → held.fullName ∈ names') :
    property? pool names' owner field = .ok node := by
  have hrefs : ∀ schema ∈ node, ∀ ref ∈ schema.references,
      (Schema.refName? ref).getD ref ∈ names' := by
    rintro schema rfl ref href
    obtain ⟨held, hholds, rfl, hselected⟩ := ref_of_property? h href
    simpa using hadmitted held hholds hselected
  obtain ⟨options, hoptions, h⟩ := Except.bind_eq_ok.mp h
  refine Except.bind_eq_ok.mpr ⟨options, hoptions, ?_⟩
  split at h
  · rwa [if_pos ‹_›]
  · rw [if_neg ‹_›]
    obtain ⟨property, hproperty, h⟩ := Except.bind_eq_ok.mp h
    obtain ⟨⟨⟩, -, h⟩ := Except.bind_eq_ok.mp h
    obtain rfl := Except.pure_eq_ok.mp h
    exact Except.bind_eq_ok.mpr ⟨property, hproperty,
      Except.bind_eq_ok.mpr ⟨(), checkReferences_eq_ok.mpr (hrefs _ rfl), rfl⟩⟩

theorem entriesOf_of_admitted {fields : List Field} {entries : List (Field × Schema)}
    (h : entriesOf pool names owner fields = .ok entries)
    (hadmitted : Admitted pool names names' fields) :
    entriesOf pool names' owner fields = .ok entries := by
  induction fields generalizing entries with
  | nil => exact h
  | cons field rest ih =>
    obtain ⟨hfield, hrest⟩ := List.forall_mem_cons.mp hadmitted
    obtain ⟨node, others, hnode, hothers, rfl⟩ := entriesOf_cons_eq_ok.mp h
    exact entriesOf_cons_eq_ok.mpr
      ⟨node, others, property?_of_admitted hnode hfield, ih hothers hrest, rfl⟩

/-- A schema stays the same as long as what it refers to is selected. -/
theorem ofMessage_of_admitted {shape : Schema} (h : ofMessage pool names owner = .ok shape)
    (hadmitted : Admitted pool names names' owner.fields) :
    ofMessage pool names' owner = .ok shape := by
  obtain ⟨⟨⟩, hkinds, h⟩ := Except.bind_eq_ok.mp h
  obtain ⟨entries, hentries, h⟩ := Except.bind_eq_ok.mp h
  exact Except.bind_eq_ok.mpr ⟨(), hkinds,
    Except.bind_eq_ok.mpr ⟨entries, entriesOf_of_admitted hentries hadmitted, h⟩⟩

end Shape

namespace Synthesis

variable {name k : String} {node node' : Schema}

theorem shapeOf_unique {shape shape' : Schema} (h : shapeOf pool names k = .ok shape)
    (h' : shapeOf pool names' k = .ok shape') : shape = shape' := by
  obtain ⟨message, hmessage, h⟩ := shapeOf_eq_ok.mp h
  obtain ⟨message', hmessage', h'⟩ := shapeOf_eq_ok.mp h'
  obtain rfl : message = message' := Option.some.inj (hmessage.symm.trans hmessage')
  exact Shape.ofMessage_unique h h'

/-- A root is a reference to a registry that has been filled from nothing. -/
theorem root_eq_ok : root pool names name = .ok node ↔
    ∃ filled, fill pool names name [] = (filled, .ok ()) ∧ node = .rootReference name filled := by
  unfold root
  split
  · rename_i filled hfill
    constructor
    · intro h
      exact ⟨filled, hfill, (Except.ok.inj h).symm⟩
    · rintro ⟨filled', hfill', rfl⟩
      obtain rfl := (Prod.ext_iff.mp (hfill.symm.trans hfill')).1
      rfl
  · rename_i hfill
    refine ⟨(nomatch ·), ?_⟩
    rintro ⟨filled', hfill', -⟩
    rw [hfill] at hfill'
    cases hfill'

/-- What a registry is filled with for one selection it is filled with for another, as long as all of
it has schemas there. -/
theorem adds_of_adds (hshapes : ∀ k, Adds pool names' [] name k →
      ∃ shape, shapeOf pool names' k = .ok shape)
    (hadds : Adds pool names [] name k) : Adds pool names' [] name k := by
  induction hadds with
  | start hs hfree => exact .start hs hfree
  | @step k k' _ hedge hfree ih =>
    obtain ⟨shape, hshape, hk'⟩ := hedge
    obtain ⟨shape', hshape'⟩ := hshapes k ih
    obtain rfl := shapeOf_unique hshape hshape'
    exact ih.step ⟨shape, hshape', hk'⟩ hfree

/-- **All selections that give a root to a message give it the same root.** -/
theorem root_unique (h : root pool names name = .ok node)
    (h' : root pool names' name = .ok node') : node = node' := by
  obtain ⟨filled, hfill, rfl⟩ := root_eq_ok.mp h
  obtain ⟨filled', hfill', rfl⟩ := root_eq_ok.mp h'
  have hwith := filledWith_of_fill hfill
  have hwith' := filledWith_of_fill hfill'
  have hadds : ∀ k, Adds pool names [] name k ↔ Adds pool names' [] name k := fun k =>
    ⟨adds_of_adds fun k hk => (hwith'.added k hk).imp fun _ => And.left,
      adds_of_adds fun k hk => (hwith.added k hk).imp fun _ => And.left⟩
  have hsame : filled = filled' := by
    refine (hwith.sorted .nil).ext (hwith'.sorted .nil) fun k => ?_
    by_cases hk : Adds pool names [] name k
    · obtain ⟨shape, hshape, hget⟩ := hwith.added k hk
      obtain ⟨shape', hshape', hget'⟩ := hwith'.added k ((hadds k).mp hk)
      rw [hget, hget', shapeOf_unique hshape hshape']
    · rw [hwith.kept k hk, hwith'.kept k (mt (hadds k).mpr hk)]
  rw [hsame]

/-- A root stays as long as the schemas in it do. -/
theorem root_of_shapes (h : root pool names name = .ok node)
    (hshapes : ∀ k shape, Adds pool names [] name k → shapeOf pool names k = .ok shape →
      shapeOf pool names' k = .ok shape) : root pool names' name = .ok node := by
  obtain ⟨filled, hfill, -⟩ := root_eq_ok.mp h
  have hadded := (filledWith_of_fill hfill).added
  have hadds : ∀ k, Adds pool names' [] name k → Adds pool names [] name k := fun k =>
    adds_of_adds fun k hk => (hadded k hk).imp fun _ => And.left
  obtain ⟨node', h'⟩ : ∃ node', root pool names' name = .ok node' := by
    have hok : (fill pool names' name []).2 = .ok () := by
      refine fill_ok_iff.mpr fun k hk => ?_
      obtain ⟨shape, hshape, -⟩ := hadded k (hadds k hk)
      exact ⟨shape, hshapes k shape (hadds k hk) hshape⟩
    exact ⟨_, root_eq_ok.mpr ⟨_, Prod.ext rfl hok, rfl⟩⟩
  rw [root_unique h h']
  exact h'

/-! ### The selection that begins with one message -/

variable {set : DescriptorSet} {candidates selected narrow : List Message} {default : Bool}
  {message : Message}

/-- A selected message is no entry of a map field. -/
theorem mapEntry_of_selects (h : Selection.Selects set.pool candidates default [] message) :
    message.mapEntry = false := by
  cases h with
  | start hs => exact hs.2.1
  | step _ hedge => exact hedge.2

/-- What a message that asks for it takes with it is selected wherever the message is. -/
theorem selects_of_selects (hmessage : Selection.Selects set.pool candidates default [] message)
    {other : Message} (h : Selection.Selects set.pool [message] true [] other) :
    Selection.Selects set.pool candidates default [] other := by
  induction h with
  | start hs => exact List.mem_singleton.mp hs.1 ▸ hmessage
  | step _ hedge hfree ih => exact ih.step hedge hfree

/-- A selection that takes a message with it shows that the selection from the message alone
succeeds, as long as the message asks for it. -/
theorem exists_select_of_selected (hunique : set.DeclaredOnce)
    (hcandidates : ∀ m ∈ candidates, m ∈ set.messages)
    (hselect : (Selection.select set.pool candidates default []).2 = .ok selected)
    (hmessage : message ∈ selected) (hasks : Selection.Asks true message) :
    ∃ narrow, (Selection.select set.pool [message] true []).2 = .ok narrow ∧ message ∈ narrow ∧
      ∀ other ∈ narrow, other ∈ selected := by
  obtain ⟨-, hselects, -, hsound⟩ := Selection.mem_of_select_eq_ok hunique hcandidates
    (Prod.ext rfl hselect : Selection.select set.pool candidates default [] = (_, .ok selected))
  have hnarrow : ∀ other, Selection.Selects set.pool [message] true [] other → other ∈ selected :=
    fun other h => (hselects other).mpr (selects_of_selects ((hselects message).mp hmessage) h)
  have hself : ∀ m ∈ [message], m ∈ set.messages := by
    simpa using Selection.mem_messages_of_selects hcandidates ((hselects message).mp hmessage)
  have hreadable : Selection.Readable message := by
    rcases hasks.2 with ⟨options, hoptions, -⟩ | ⟨hnone, -⟩
    · exact ⟨_, hoptions⟩
    · exact ⟨_, Selection.options_eq_none_iff.mpr hnone⟩
  obtain ⟨narrow, hselect'⟩ := (Selection.select_ok_iff hunique hself true []).mpr
    ⟨by simpa using fun _ => hreadable, fun other h => hsound other (hnarrow other h)⟩
  obtain ⟨-, hselects', -⟩ := Selection.mem_of_select_eq_ok hunique hself
    (Prod.ext rfl hselect' : Selection.select set.pool [message] true [] = (_, .ok narrow))
  exact ⟨narrow, hselect', (hselects' message).mpr (.start ⟨by simp, hasks⟩ (by simp)),
    fun other h => hnarrow other ((hselects' other).mp h)⟩

/-- **Narrowing.** A message that asks for it has the same root in the selection that begins with it
alone as in any selection that takes it with it. Names that the root refers to are reached from the
message through fields, and fields are what a selection follows. -/
theorem root_of_select (hunique : set.DeclaredOnce) (hdot : set.Undotted)
    (hmaps : set.MapsHoldMessages) (hcandidates : ∀ m ∈ candidates, m ∈ set.messages)
    (hselect : (Selection.select set.pool candidates default []).2 = .ok selected)
    (hmessage : message ∈ selected) (hasks : Selection.Asks true message)
    (hroot : root set.pool (selected.map (·.fullName)) message.fullName = .ok node) :
    ∃ narrow, (Selection.select set.pool [message] true []).2 = .ok narrow ∧ message ∈ narrow ∧
      root set.pool (narrow.map (·.fullName)) message.fullName = .ok node := by
  obtain ⟨narrow, hnarrow, hself, hsub⟩ :=
    exists_select_of_selected hunique hcandidates hselect hmessage hasks
  obtain ⟨-, hselects, -⟩ := Selection.mem_of_select_eq_ok hunique hcandidates
    (Prod.ext rfl hselect : Selection.select set.pool candidates default [] = (_, .ok selected))
  have hmem : ∀ other ∈ selected, other ∈ set.messages := fun other h =>
    Selection.mem_messages_of_selects hcandidates ((hselects other).mp h)
  obtain ⟨-, hselects', -⟩ := Selection.mem_of_select_eq_ok hunique
    (by simpa using hmem message hmessage)
    (Prod.ext rfl hnarrow : Selection.select set.pool [message] true [] = (_, .ok narrow))
  -- what a field of a narrowly selected message holds is selected narrowly or not at all
  have hheld : ∀ other ∈ narrow, ∀ field ∈ other.fields, ∀ held, set.pool.Holds field held →
      held.fullName ∈ selected.map (·.fullName) → held ∈ narrow := by
    intro other hother field hfield held hholds hname
    obtain ⟨known, hknown, hname⟩ := List.mem_map.mp hname
    obtain ⟨_, hfound⟩ := hholds.exists_message?
    obtain rfl : known = held := hunique.eq_of_fullName_eq (hmem known hknown)
      (DescriptorSet.mem_messages_of_message? hfound) hname
    exact mem_of_holds hmaps hselects' hother (hmem other (hsub other hother)) hfield hholds
      (mapEntry_of_selects ((hselects known).mp hknown))
  have hreached : ∀ k, Adds set.pool (selected.map (·.fullName)) [] message.fullName k →
      ∃ other ∈ narrow, other.fullName = k := by
    intro k hadds
    induction hadds with
    | start hs => exact ⟨message, hself, hs.symm⟩
    | @step k k' _ hedge _ ih =>
      obtain ⟨other, hother, rfl⟩ := ih
      obtain ⟨shape, hshape, hk'⟩ := hedge
      obtain ⟨ref, href, hname⟩ := List.mem_filterMap.mp hk'
      rw [shapeOf, hunique.message?_fullName hdot (hmem other (hsub other hother))] at hshape
      obtain ⟨field, hfield, held, hholds, rfl, hselected⟩ := Shape.ref_of_ofMessage hshape href
      obtain rfl : held.fullName = k' := by simpa using hname
      exact ⟨held, hheld other hother field hfield held hholds hselected, rfl⟩
  refine ⟨narrow, hnarrow, hself, root_of_shapes hroot fun k shape hadds hshape => ?_⟩
  obtain ⟨other, hother, rfl⟩ := hreached k hadds
  obtain ⟨found, hfound, hshape⟩ := shapeOf_eq_ok.mp hshape
  obtain rfl : other = found := Option.some.inj
    ((hunique.message?_fullName hdot (hmem other (hsub other hother))).symm.trans hfound)
  refine shapeOf_eq_ok.mpr ⟨other, hfound, Shape.ofMessage_of_admitted hshape ?_⟩
  exact fun field hfield held hholds hselected =>
    List.mem_map_of_mem (hheld other hother field hfield held hholds hselected)

end Synthesis

end MessageSchema
