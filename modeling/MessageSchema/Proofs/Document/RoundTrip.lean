import MessageSchema.Document.Member
import MessageSchema.Proofs.Document.Arrangement
import MessageSchema.Proofs.Document.Object

/-!
# Records that survive being written

A table of members fixes what is written for a record and how it is read. The record comes back if
each member brings back its own field: what it writes is read as a change that restores the field, and
where it writes nothing, the field has the value from which reading starts. The changes of different
members trade places, so that each may be looked at alone.

## Main definitions

* `Member.Restores`: a member brings back its field of a record.
* `Member.Holds`: a member writes something that is at least as deep as a value.
* `NestsWithin`: values that nest in each other are written and read level by level.

## Main results

* `Member.decode_encode`: a table of such members brings back the record.
* `Member.Restores.required`, `Member.Restores.sparse`, `Member.Restores.optional`,
  `Member.Restores.list`, `Member.Restores.dictionary`: when the kinds of members do.
* `NestsWithin.read_depth`: values that nest come back, at as many levels as there are containers.
-/

namespace MessageSchema

variable {ρ α : Type} {arrange : Json → Json}

namespace Record

/-- The slot that has a name. -/
theorem slot?_eq_some {record : Record Json ρ} (hnodup : record.names.Nodup) {slot : Slot Json ρ}
    (hslot : slot ∈ record.slots) {name : String} (hname : name ∈ slot.names) :
    record.slot? name = some slot := by
  obtain ⟨before, behind, heq⟩ := List.append_of_mem hslot
  refine List.find?_eq_some_iff_append.mpr ⟨by simpa using hname, before, behind, heq, ?_⟩
  intro other hother
  rw [names, heq, List.flatMap_append, List.flatMap_cons] at hnodup
  have hdisjoint := (List.nodup_append.mp hnodup).2.2 name
  simp only [Bool.not_eq_eq_eq_not, Bool.not_true, List.contains_eq_mem, decide_eq_false_iff_not]
  exact fun hmem => hdisjoint (List.mem_flatMap.mpr ⟨other, hother, hmem⟩) name
    (List.mem_append_left _ hname) rfl

end Record

namespace Member

variable {start value r : ρ} {member : Member ρ} {members : List (Member ρ)}

/-- What the member writes for the record `r` is read as a change. Where it writes nothing, it may be
left out, and the change would not change the record `value`. -/
structure Restores (arrange : Json → Json) (value r : ρ) (member : Member ρ) (change : ρ → ρ) :
    Prop where
  written : ∀ {node}, member.write r = some node → member.read (arrange node) = .ok change
  unwritten : member.write r = none → member.presence ≠ .required ∧ change value = value

/-- The members of the object that is written for a record. -/
def written (members : List (Member ρ)) (r : ρ) : List (String × Json) :=
  members.filterMap fun member => (member.write r).map (member.name, ·)

theorem encode_eq (members : List (Member ρ)) (r : ρ) :
    encode members r = .object (written members r) := rfl

theorem mem_written_of_write {node : Json} (hmember : member ∈ members)
    (h : member.write r = some node) : (member.name, node) ∈ written members r :=
  List.mem_filterMap.mpr ⟨member, hmember, by rw [h, Option.map_some]⟩

theorem keys_written_sublist (members : List (Member ρ)) (r : ρ) :
    (Dictionary.keys (written members r)).Sublist (members.map (·.name)) := by
  induction members with
  | nil => exact .slnil
  | cons member rest ih =>
    rw [written, List.filterMap_cons]
    cases member.write r with
    | none => exact ih.cons _
    | some node => exact ih.cons_cons _

/-- What a member restores is the same after a change that may trade places with its own. -/
theorem Restores.after {change other : ρ → ρ} (h : member.Restores arrange value r change)
    (hcommute : ∀ v, change (other v) = other (change v)) :
    member.Restores arrange (other value) r change where
  written := h.written
  unwritten hnone := by
    obtain ⟨hpresence, hchange⟩ := h.unwritten hnone
    exact ⟨hpresence, by rw [hcommute, hchange]⟩

/-- Two changes that may trade places. -/
def Commute (f g : ρ → ρ) : Prop :=
  ∀ v, f (g v) = g (f v)

instance : Std.Symm (Commute (ρ := ρ)) := ⟨fun _ _ h v => (h v).symm⟩

/-- The contributions of what is written are as good as the changes of all members. -/
theorem exists_contributions {record : Record Json ρ} {changes : List (ρ → ρ)}
    (hrestores : List.Forall₂ (Restores arrange value r) members changes)
    (hslots : ∀ member ∈ members, record.slot? member.name = some member.toSlot)
    (hcommute : changes.Pairwise Commute) :
    ∃ given, List.Forall₂ record.Gives
        ((written members r).map fun (key, node) => (key, arrange node)) given ∧
      (given.map (·.change)).Sublist changes ∧
      (Contribution.names given).Sublist (members.map (·.name)) ∧
      (∀ member ∈ members, member.presence = .required → member.name ∈ Contribution.names given) ∧
      Contribution.applyAll value given = changes.foldl (fun v change => change v) value := by
  induction members generalizing value changes with
  | nil =>
    cases hrestores
    exact ⟨[], .nil, .slnil, .slnil, by simp, rfl⟩
  | cons member members ih =>
    obtain ⟨change, changes, hmember, hrest, rfl⟩ := List.forall₂_cons_left_iff.mp hrestores
    obtain ⟨hfirst, hcommute⟩ := List.pairwise_cons.mp hcommute
    obtain ⟨hslot, hslots⟩ := List.forall_mem_cons.mp hslots
    -- The members behind the first one restore the same after its change.
    have hafter : List.Forall₂ (Restores arrange (change value) r) members changes := by
      refine List.forall₂_iff_get.mpr ⟨hrest.length_eq, fun i hi hi' => ?_⟩
      exact ((List.forall₂_iff_get.mp hrest).2 i hi hi').after
        fun v => (hfirst _ (List.get_mem _ _) v).symm
    obtain ⟨given, hgiven, hchanges, hnames, hrequired, happly⟩ := ih hafter hslots hcommute
    cases hwrite : member.write r with
    | none =>
      obtain ⟨hpresence, hchange⟩ := hmember.unwritten hwrite
      have hsame : written (member :: members) r = written members r := by
        rw [written, List.filterMap_cons, hwrite]
        rfl
      refine ⟨given, by rwa [hsame], hchanges.cons _, hnames.cons _, ?_, ?_⟩
      · refine List.forall_mem_cons.mpr ⟨fun h => absurd h hpresence, hrequired⟩
      · rw [List.foldl_cons, ← happly, hchange]
    | some node =>
      have hmore : written (member :: members) r = (member.name, node) :: written members r := by
        rw [written, List.filterMap_cons, hwrite]
        rfl
      refine ⟨⟨member.toSlot, change⟩ :: given, ?_, hchanges.cons_cons _, hnames.cons_cons _, ?_, happly⟩
      · rw [hmore]
        exact .cons ⟨hslot, hmember.written hwrite⟩ hgiven
      · refine List.forall_mem_cons.mpr ⟨fun _ => List.mem_cons_self, fun other hother h => ?_⟩
        exact List.mem_cons_of_mem _ (hrequired other hother h)

/-- No two members of a table have one name if no two names of its record are the same. -/
theorem nodup_map_name {record : Record Json ρ} (htable : record.slots = members.map (·.toSlot))
    (hnames : record.names.Nodup) : (members.map (·.name)).Nodup := by
  refine hnames.sublist ?_
  rw [Record.names, htable, List.flatMap_map]
  clear htable hnames
  induction members with
  | nil => exact .slnil
  | cons member rest ih => exact (ih.trans (List.sublist_append_right _ _)).cons_cons _

/-- **A record comes back.** If each member of a table brings back its field, then reading what the
table writes gives the record back, whatever the order of the members. -/
theorem decode_encode {record : Record Json ρ} {changes : List (ρ → ρ)}
    (harrange : Json.Arranges arrange) (htable : record.slots = members.map (·.toSlot))
    (hrestores : List.Forall₂ (Restores arrange record.start r) members changes)
    (hnames : record.names.Nodup) (hcommute : changes.Pairwise Commute)
    (hall : changes.foldl (fun v change => change v) record.start = r) :
    record.decode (arrange (encode members r)) = .ok r := by
  have hslots : ∀ member ∈ members, record.slot? member.name = some member.toSlot :=
    fun member hmember => Record.slot?_eq_some hnames (htable ▸ List.mem_map_of_mem hmember)
      List.mem_cons_self
  have hnodup : (members.map (·.name)).Nodup := nodup_map_name htable hnames
  obtain ⟨given, hgiven, hchanges, hgivenNames, hrequired, happly⟩ :=
    exists_contributions hrestores hslots hcommute
  obtain ⟨arranged, heq, hperm⟩ := harrange.object (hnodup.sublist (keys_written_sublist members r))
  obtain ⟨given', hgiven', hperm'⟩ := List.perm_comp_forall₂ hperm hgiven
  have hgivenNodup := hnodup.sublist hgivenNames
  have hcovers : record.Covers given' := by
    rintro slot hslot hpresence
    obtain ⟨member, hmember, rfl⟩ := List.mem_map.mp (htable ▸ hslot)
    exact (hperm'.map _).mem_iff.mpr (hrequired member hmember hpresence)
  have hcommute' : ∀ c ∈ given', ∀ d ∈ given', ∀ v, d.change (c.change v) = c.change (d.change v) := by
    intro c hc d hd v
    have hpairwise := hcommute.sublist hchanges
    exact List.Pairwise.forall_of_forall (fun f _ v => rfl) hpairwise
      (List.mem_map_of_mem (hperm'.mem_iff.mp hd)) (List.mem_map_of_mem (hperm'.mem_iff.mp hc)) v
  rw [encode_eq, heq, Record.decode_eq_ok_of_gives hgiven' ((hperm'.map _).nodup_iff.mpr hgivenNodup)
    hcovers, Contribution.applyAll_perm hperm' hcommute']
  exact congrArg Except.ok (happly.trans hall)

/-! ### The kinds of members -/

variable {name : String} {read : Json → Decoded α} {set : α → ρ → ρ}

theorem Restores.required {write : α → Json} {get : ρ → α}
    (h : read (arrange (write (get r))) = .ok (get r)) :
    (Member.required name read write get set).Restores arrange value r (set (get r)) where
  written := by
    rintro node ⟨⟩
    exact Except.map_eq_ok.mpr ⟨_, h, rfl⟩
  unwritten := nofun

theorem Restores.defaulted {write : α → Json} {get : ρ → α}
    (h : read (arrange (write (get r))) = .ok (get r)) :
    (Member.defaulted name read write get set).Restores arrange value r (set (get r)) where
  written := by
    rintro node ⟨⟩
    exact Except.map_eq_ok.mpr ⟨_, h, rfl⟩
  unwritten := nofun

theorem Restores.sparse {write : α → Option Json} {get : ρ → α}
    (h : ∀ node, write (get r) = some node → read (arrange node) = .ok (get r))
    (hnone : write (get r) = none → set (get r) value = value) :
    (Member.sparse name read write get set).Restores arrange value r (set (get r)) where
  written hnode := Except.map_eq_ok.mpr ⟨_, h _ hnode, rfl⟩
  unwritten hwrite := ⟨nofun, hnone hwrite⟩

end Member

/-! ### Values inside a record -/

namespace Node

variable {read : Json → Decoded α} {write : α → Json}

/-- A whole number comes back where it is between the limits. -/
theorem whole_integer (expected : String) {least greatest n : ℤ} (hleast : least ≤ n)
    (hgreatest : n ≤ greatest) : Node.whole expected least greatest (Json.integer n) = .ok n := by
  rw [Node.whole]
  refine Except.mapError_eq_ok.mpr ?_
  change (if _ then _ else _) = _
  rw [if_pos ⟨hleast, hgreatest⟩]
  rfl

theorem optional_of_isNull_eq_false {node : Json} (h : node.isNull = false) {x : α}
    (hread : read node = .ok x) : Node.optional read node = .ok (some x) := by
  simp [Node.optional, Node.isAbsent, h, hread, Except.ok_bind, pure, Except.pure]

/-- A list comes back if its items do. -/
theorem list_map_eq_ok {items : List α} (h : ∀ x ∈ items, read (write x) = .ok x) :
    Node.list read (.array (items.map write)) = .ok items := by
  have hfrom (n : ℕ) : Node.listFrom read n (items.map write) = .ok items := by
    induction items generalizing n with
    | nil => rfl
    | cons x rest ih =>
      obtain ⟨hx, hrest⟩ := List.forall_mem_cons.mp h
      rw [List.map_cons, Node.listFrom, hx, ih hrest]
      rfl
  rw [Node.list]
  exact Except.mapError_eq_ok.mpr (hfrom 0)

theorem entriesFrom_eq_ok {members : List (String × Json)} {items : List (String × α)}
    (h : List.Forall₂ (fun member item => member.1 = item.1 ∧ read member.2 = .ok item.2)
      members items) : Node.entriesFrom read (Record.entries members) = .ok items := by
  induction h with
  | nil => rfl
  | @cons member item _ _ hitem _ ih =>
    obtain ⟨key, node⟩ := member
    obtain ⟨rfl, hread⟩ := hitem
    simp only [Record.entries, List.map_cons, Node.entriesFrom, Except.ok_bind, hread] at ih ⊢
    rw [ih]
    rfl

/-- A dictionary comes back if its values do, whatever the order of its entries. -/
theorem dictionary_eq_ok (harrange : Json.Arranges arrange) {entries : Dictionary α}
    (hsorted : entries.Sorted) (h : ∀ e ∈ entries, read (arrange (write e.2)) = .ok e.2) :
    Node.dictionary read (arrange (.object (entries.map fun (key, x) => (key, write x)))) =
      .ok entries := by
  have hkeys : Dictionary.keys (entries.map fun (key, x) => (key, write x)) =
      Dictionary.keys entries := by rw [Dictionary.keys, List.map_map]; rfl
  obtain ⟨arranged, heq, hperm⟩ := harrange.object (hkeys ▸ hsorted.nodup_keys)
  rw [List.map_map] at hperm
  have hread : List.Forall₂ (fun member item => member.1 = item.1 ∧ read member.2 = .ok item.2)
      (entries.map ((fun (key, value) => (key, arrange value)) ∘ fun (key, x) => (key, write x)))
      entries := by
    rw [List.forall₂_map_left_iff]
    exact List.forall₂_same.mpr fun e he => ⟨rfl, h e he⟩
  obtain ⟨items, hitems, hperm'⟩ := List.perm_comp_forall₂ hperm hread
  rw [heq, Node.dictionary]
  refine Except.mapError_eq_ok.mpr ?_
  simp only [Node.parts, Json.readParts, Except.ok_bind]
  rw [← Record.entries, entriesFrom_eq_ok hitems, Except.ok_bind, hsorted.ofList_eq_of_perm hperm']
  rfl

end Node

namespace Member

variable {value r : ρ} {name : String} {read : Json → Decoded α} {write : α → Json}

theorem Restores.optional {get : ρ → Option α} {set : Option α → ρ → ρ}
    (h : ∀ x ∈ get r, (arrange (write x)).isNull = false ∧ read (arrange (write x)) = .ok x)
    (hnone : get r = none → set none value = value) :
    (Member.optional name read write get set).Restores arrange value r (set (get r)) where
  written {node} hnode := by
    obtain ⟨x, hx, rfl⟩ := Option.map_eq_some_iff.mp hnode
    obtain ⟨hnull, hread⟩ := h x hx
    exact Except.map_eq_ok.mpr ⟨some x, Node.optional_of_isNull_eq_false hnull hread, by rw [hx]⟩
  unwritten hwrite := by
    have hget : get r = none := Option.map_eq_none_iff.mp hwrite
    exact ⟨nofun, by rw [hget, hnone hget]⟩

theorem Restores.list (harrange : Json.Arranges arrange) {get : ρ → List α} {set : List α → ρ → ρ}
    (h : ∀ x ∈ get r, read (arrange (write x)) = .ok x)
    (hnil : get r = [] → set [] value = value) :
    (Member.list name read write get set).Restores arrange value r (set (get r)) := by
  refine .sparse (fun node hnode => ?_) fun hwrite => ?_
  · split at hnode
    · cases hnode
    · cases hnode
      rw [harrange.array, List.map_map]
      exact Node.list_map_eq_ok h
  · have hget : get r = [] := by simpa using hwrite
    rw [hget, hnil hget]

theorem Restores.dictionary (harrange : Json.Arranges arrange) {get : ρ → Dictionary α}
    {set : Dictionary α → ρ → ρ} (hsorted : (get r).Sorted)
    (h : ∀ e ∈ get r, read (arrange (write e.2)) = .ok e.2)
    (hnil : get r = [] → set [] value = value) :
    (Member.dictionary name read write get set).Restores arrange value r (set (get r)) := by
  refine .sparse (fun node hnode => ?_) fun hwrite => ?_
  · split at hnode
    · cases hnode
    · cases hnode
      exact Node.dictionary_eq_ok harrange hsorted h
  · have hget : get r = [] := by simpa using hwrite
    rw [hget, hnil hget]

/-! ### Depth -/

/-- What is written for a record is deeper than what one of its members writes. -/
theorem depth_lt_of_write (harrange : Json.Arranges arrange) {members : List (Member ρ)}
    (hnodup : (members.map (·.name)).Nodup) {member : Member ρ} (hmember : member ∈ members)
    {node : Json} (hwrite : member.write r = some node) :
    (arrange node).depth < (arrange (encode members r)).depth :=
  harrange.depth_lt_of_mem_members (hnodup.sublist (keys_written_sublist members r))
    (mem_written_of_write hmember hwrite)

theorem depth_encode_pos (harrange : Json.Arranges arrange) {members : List (Member ρ)}
    (hnodup : (members.map (·.name)).Nodup) : 0 < (arrange (encode members r)).depth := by
  obtain ⟨arranged, heq, -⟩ := harrange.object (hnodup.sublist (keys_written_sublist members r))
  rw [encode_eq, heq]
  exact Nat.succ_pos _

/-- A member writes something that is at least as deep as a value. -/
def Holds (arrange : Json → Json) (r : ρ) (node : Json) (member : Member ρ) : Prop :=
  ∃ whole, member.write r = some whole ∧ (arrange node).depth ≤ (arrange whole).depth

theorem Holds.depth_lt (harrange : Json.Arranges arrange) {members : List (Member ρ)}
    (hnodup : (members.map (·.name)).Nodup) {member : Member ρ} (hmember : member ∈ members)
    {node : Json} (h : member.Holds arrange r node) :
    (arrange node).depth < (arrange (encode members r)).depth := by
  obtain ⟨whole, hwrite, hle⟩ := h
  exact hle.trans_lt (depth_lt_of_write harrange hnodup hmember hwrite)

theorem Holds.optional {get : ρ → Option α} {set : Option α → ρ → ρ} {x : α} (hx : x ∈ get r) :
    (Member.optional name read write get set).Holds arrange r (write x) :=
  ⟨_, Option.map_eq_some_iff.mpr ⟨x, hx, rfl⟩, le_rfl⟩

theorem Holds.list (harrange : Json.Arranges arrange) {get : ρ → List α} {set : List α → ρ → ρ}
    {x : α} (hx : x ∈ get r) :
    (Member.list name read write get set).Holds arrange r (write x) :=
  ⟨_, if_neg fun hempty => List.ne_nil_of_mem hx (List.isEmpty_iff.mp hempty),
    (harrange.depth_lt_of_mem_items (List.mem_map_of_mem hx)).le⟩

theorem Holds.dictionary (harrange : Json.Arranges arrange) {get : ρ → Dictionary α}
    {set : Dictionary α → ρ → ρ} (hsorted : (get r).Sorted) {e : String × α} (he : e ∈ get r) :
    (Member.dictionary name read write get set).Holds arrange r (write e.2) := by
  refine ⟨_, if_neg fun hempty => List.ne_nil_of_mem he (List.isEmpty_iff.mp hempty), ?_⟩
  refine (harrange.depth_lt_of_mem_members ?_ (List.mem_map.mpr ⟨e, he, rfl⟩)).le
  rw [Dictionary.keys, List.map_map]
  exact hsorted.nodup_keys

end Member

/-! ### Values inside values -/

/-- How values that nest in each other are written and read. What is written for a value is deeper than
what is written for the values directly inside it, and the value comes back if they do; both are asked
of the values that are `Good`, as the values inside them are too. -/
structure NestsWithin (arrange : Json → Json) (inside : α → List α) (nesting : α → ℕ)
    (write : ℕ → α → Json) (read : ℕ → Json → Decoded α) (Good : α → Prop) : Prop where
  nesting_le_iff : ∀ {x k}, nesting x ≤ k ↔ 0 < k ∧ ∀ y ∈ inside x, nesting y < k
  good : ∀ {x}, Good x → ∀ y ∈ inside x, Good y
  depth_pos : ∀ {x n}, Good x → 0 < (arrange (write (n + 1) x)).depth
  depth_lt : ∀ {x n}, Good x → ∀ y ∈ inside x,
    (arrange (write n y)).depth < (arrange (write (n + 1) x)).depth
  comesBack : ∀ {x n m}, Good x →
    (∀ y ∈ inside x, (arrange (write n y)).isNull = false ∧ read m (arrange (write n y)) = .ok y) →
    read (m + 1) (arrange (write (n + 1) x)) = .ok x

namespace NestsWithin

variable {inside : α → List α} {nesting : α → ℕ} {write : ℕ → α → Json}
  {read : ℕ → Json → Decoded α} {Good : α → Prop}

/-- A value comes back at any levels that are deep enough, and it nests no deeper than what is written
for it. -/
theorem read_write (h : NestsWithin arrange inside nesting write read Good) :
    ∀ {n m : ℕ} {x : α}, Good x → nesting x ≤ n → nesting x ≤ m →
      nesting x ≤ (arrange (write n x)).depth ∧ read m (arrange (write n x)) = .ok x := by
  intro n
  induction n with
  | zero => exact fun _ hn => absurd (h.nesting_le_iff.mp hn).1 (lt_irrefl 0)
  | succ n ih =>
    intro m x hx hn hm
    obtain ⟨-, hwithin⟩ := h.nesting_le_iff.mp hn
    obtain ⟨hpositive, hwithin'⟩ := h.nesting_le_iff.mp hm
    obtain ⟨m, rfl⟩ := Nat.exists_eq_succ_of_ne_zero hpositive.ne'
    have hinside := fun y hy => ih (h.good hx y hy) (Nat.le_of_lt_succ (hwithin y hy))
      (Nat.le_of_lt_succ (hwithin' y hy))
    refine ⟨h.nesting_le_iff.mpr ⟨h.depth_pos hx, fun y hy => ?_⟩, h.comesBack hx fun y hy => ?_⟩
    · exact (hinside y hy).1.trans_lt (h.depth_lt hx y hy)
    · obtain ⟨hdepth, hread⟩ := hinside y hy
      refine ⟨?_, hread⟩
      -- What is written has a depth, so it is a container and not null.
      have hcontainer := (h.nesting_le_iff.mp hdepth).1
      cases hwritten : arrange (write n y) with
      | null => simp [hwritten, Json.depth] at hcontainer
      | _ => rfl

/-- A value comes back at as many levels as the containers nest. -/
theorem read_depth (h : NestsWithin arrange inside nesting write read Good) {x : α} (hx : Good x) :
    read ((arrange (write (nesting x) x)).depth + 1) (arrange (write (nesting x) x)) = .ok x :=
  (h.read_write hx le_rfl
    (Nat.le_succ_of_le (h.read_write hx le_rfl le_rfl).1)).2

end NestsWithin

end MessageSchema
