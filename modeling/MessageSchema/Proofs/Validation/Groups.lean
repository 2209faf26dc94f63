import MessageSchema.Proofs.Validation.Keywords
import Mathlib.Data.List.Nodup

/-!
# What the alternatives of a message mean

The members of the oneof groups are collected by the names of the groups. The alternatives of a
single group stand in the schema of the message itself, those of several groups are required jointly;
either way an object has exactly one member of each group.

## Main results

* `Shape.get?_groups`: the members that are collected for a group.
* `Shape.judge_groups`: what the alternatives ask for.
-/

namespace MessageSchema

namespace Message

variable {message : Message} {field other : Field} {group : Oneof}

theorem realOneof?_eq_some_iff : message.realOneof? field = some group ↔
    ∃ name, field.oneof = some name ∧ message.oneofs.find? (·.name = name) = some group ∧
      group.synthetic = false := by
  rw [realOneof?]
  simp only [bind, Option.bind_eq_some_iff]
  refine exists_congr fun name => and_congr_right fun _ => ?_
  constructor
  · rintro ⟨found, hfound, h⟩
    split_ifs at h with hmade
    cases h
    exact ⟨hfound, by simpa using hmade⟩
  · rintro ⟨hfound, hreal⟩
    exact ⟨group, hfound, by rw [if_neg (by simp [hreal])]⟩

/-- The groups that fields really belong to are told apart by their names. -/
theorem eq_of_realOneof? {group' : Oneof} (h : message.realOneof? field = some group)
    (h' : message.realOneof? other = some group') (hname : group.name = group'.name) :
    group = group' := by
  obtain ⟨name, -, hfind, -⟩ := realOneof?_eq_some_iff.mp h
  obtain ⟨name', -, hfind', -⟩ := realOneof?_eq_some_iff.mp h'
  obtain rfl : group.name = name := by simpa using List.find?_some hfind
  obtain rfl : group'.name = name' := by simpa using List.find?_some hfind'
  rw [hname] at hfind
  exact Option.some.inj (hfind.symm.trans hfind')

end Message

namespace Shape

variable {message : Message} {fields : List Field} {found : Dictionary (List String)}
  {follow : String → Instance → Bool} {members : List (String × Instance)}

/-- The members of a group among several fields, by the name of the group. -/
def namesIn (message : Message) (group : String) (fields : List Field) : List String :=
  (fields.filter fun field => (message.realOneof? field).map (·.name) = some group).map (·.name)

/-- One more field among those that are collected. -/
def collect (message : Message) (found : Dictionary (List String)) (field : Field) :
    Dictionary (List String) :=
  match message.realOneof? field with
  | some group => found.insert group.name ((found.get? group.name).getD [] ++ [field.name])
  | none => found

theorem groups_eq (message : Message) (fields : List Field) :
    groups message fields = fields.foldl (collect message) [] := rfl

theorem sorted_foldl_collect (h : found.Sorted) :
    (fields.foldl (collect message) found).Sorted := by
  induction fields generalizing found with
  | nil => exact h
  | cons field rest ih =>
    refine ih ?_
    rw [collect]
    split
    · exact h.insert _ _
    · exact h

theorem get?_foldl_collect (group : String) :
    (fields.foldl (collect message) found).get? group =
      if namesIn message group fields = [] then found.get? group
      else some ((found.get? group).getD [] ++ namesIn message group fields) := by
  induction fields generalizing found with
  | nil => rfl
  | cons field rest ih =>
    rw [List.foldl_cons, ih]
    cases hreal : message.realOneof? field with
    | none =>
      have hnames : namesIn message group (field :: rest) = namesIn message group rest := by
        simp [namesIn, hreal]
      rw [hnames, collect, hreal]
    | some own =>
      rw [collect, hreal]
      dsimp only
      rw [Dictionary.get?_insert]
      by_cases hgroup : group = own.name
      · have hnames : namesIn message group (field :: rest) =
            field.name :: namesIn message group rest := by
          simp [namesIn, hreal, hgroup]
        rw [if_pos hgroup, hnames, if_neg (List.cons_ne_nil _ _), ← hgroup]
        split_ifs with hrest
        · rw [hrest]
        · simp
      · have hnames : namesIn message group (field :: rest) = namesIn message group rest := by
          simp [namesIn, hreal, Ne.symm hgroup]
        rw [if_neg hgroup, hnames]

/-- The members that are collected for a group, in their order. -/
theorem mem_groups {e : String × List String} : e ∈ groups message fields ↔
    e.2 = namesIn message e.1 fields ∧ e.2 ≠ [] := by
  have hsorted : (groups message fields).Sorted := sorted_foldl_collect List.Pairwise.nil
  rw [← hsorted.get?_iff_mem, groups_eq, get?_foldl_collect]
  split_ifs with hnames
  · rw [hnames]
    constructor
    · intro h
      cases h
    · rintro ⟨h, hne⟩
      exact absurd h hne
  · rw [Option.some.injEq]
    constructor
    · intro h
      have h : namesIn message e.1 fields = e.2 := h
      exact ⟨h.symm, h ▸ hnames⟩
    · rintro ⟨h, -⟩
      exact h.symm

/-! ### Exactly one member -/

theorem judge_exclusive (names : List String) :
    (exclusive names).map (·.judge follow (.object members)) =
      names.map (Instance.has members) := by
  rw [exclusive, List.map_map]
  exact List.map_congr_left fun name _ => Schema.judge_requiring name members

/-- Among different names exactly one is that of a member if one is counted. -/
theorem judgeOne_iff {names : List String} (hnodup : names.Nodup) (hne : names ≠ []) :
    Schema.judgeOne (names.map (Instance.has members)) = true ↔
      Instance.HasOneOf members names := by
  have hcount : (names.map (Instance.has members)).count true =
      (names.filter (Instance.has members)).length := by
    rw [List.count, List.countP_map, List.countP_eq_length_filter]
    congr 1
    exact List.filter_congr fun name _ => by simp
  rw [Schema.judgeOne, List.isEmpty_map, List.isEmpty_eq_false_iff.mpr hne, Bool.false_or, hcount,
    beq_iff_eq, List.length_eq_one_iff]
  constructor
  · rintro ⟨name, hfilter⟩
    have hmem : ∀ other, other ∈ names ∧ Instance.has members other = true ↔ other = name := by
      intro other
      rw [← List.mem_filter, hfilter, List.mem_singleton]
    refine ⟨name, ((hmem name).mpr rfl).1, fun other hother => ?_⟩
    rw [← hmem]
    exact ⟨fun h => ⟨hother, h⟩, And.right⟩
  · rintro ⟨name, hname, hothers⟩
    refine ⟨name, ?_⟩
    have hperm : (names.filter (Instance.has members)).Perm [name] := by
      refine (List.perm_ext_iff_of_nodup (hnodup.filter _) (List.nodup_singleton _)).mpr ?_
      intro other
      rw [List.mem_filter, List.mem_singleton]
      constructor
      · rintro ⟨hother, h⟩
        exact (hothers other hother).mp h
      · rintro rfl
        exact ⟨hname, (hothers _ hname).mpr rfl⟩
    exact List.perm_singleton.mp hperm

/-- Alternatives about different names ask for exactly one of them. -/
theorem judgeOne_exclusive {names : List String} (hnodup : names.Nodup) (hne : names ≠ []) :
    Schema.judgeOne ((exclusive names).map (·.judge follow (.object members))) = true ↔
      Instance.HasOneOf members names := by
  rw [judge_exclusive]
  exact judgeOne_iff hnodup hne

/-- A joint requirement asks for what its alternatives ask for. -/
theorem judge_joint (names : List String) :
    ({ oneOf := exclusive names } : Schema).judge follow (.object members) =
      Schema.judgeOne ((exclusive names).map (·.judge follow (.object members))) := by
  rw [Schema.judge_eq]
  simp [Dictionary.get?]

/-- The alternatives and the joint requirements ask for one member of each group. -/
theorem judge_found (h : ∀ e ∈ found, e.2.Nodup ∧ e.2 ≠ []) :
    (Schema.judgeOne ((alternatives found).map (·.judge follow (.object members))) = true ∧
      (jointly found).all (·.judge follow (.object members)) = true) ↔
      ∀ e ∈ found, Instance.HasOneOf members e.2 := by
  match found, h with
  | [], _ => simp [alternatives, jointly]
  | [(_, names)], h =>
    obtain ⟨hnodup, hne⟩ := h _ List.mem_cons_self
    rw [alternatives, jointly, List.all_nil, judgeOne_exclusive hnodup hne]
    simp
  | e :: e' :: rest, h =>
    have hjoint : jointly (e :: e' :: rest) =
        (e :: e' :: rest).map fun one => { oneOf := exclusive one.2 } := rfl
    have halternatives : alternatives (e :: e' :: rest) = [] := rfl
    rw [halternatives, hjoint, List.map_nil, Schema.judgeOne_nil, List.all_map, List.all_eq_true]
    refine (and_iff_right rfl).trans (forall₂_congr fun one hmem => ?_)
    obtain ⟨hnodup, hne⟩ := h one hmem
    rw [Function.comp_apply, judge_joint]
    exact judgeOne_exclusive hnodup hne

/-- The members of a group are collected under its name. -/
theorem namesIn_eq {field : Field} {group : Oneof} (h : message.realOneof? field = some group) :
    namesIn message group.name message.fields = (message.membersOf group).map (·.name) := by
  rw [namesIn, Message.membersOf]
  congr 1
  refine List.filter_congr fun other _ => ?_
  rw [decide_eq_decide, Option.map_eq_some_iff]
  constructor
  · rintro ⟨group', hreal, hname⟩
    rwa [Message.eq_of_realOneof? h hreal hname.symm]
  · intro hreal
    exact ⟨group, hreal, rfl⟩

/-- **The alternatives of a message ask for exactly one member of each of its groups**, if its fields
have different names. -/
theorem judge_groups (hnodup : (message.fields.map (·.name)).Nodup) :
    (Schema.judgeOne ((alternatives (groups message message.fields)).map
        (·.judge follow (.object members))) = true ∧
      (jointly (groups message message.fields)).all (·.judge follow (.object members)) = true) ↔
      ∀ group ∈ message.oneofs, group.synthetic = false → message.membersOf group ≠ [] →
        Instance.HasOneOf members ((message.membersOf group).map (·.name)) := by
  have hentries : ∀ e ∈ groups message message.fields, e.2.Nodup ∧ e.2 ≠ [] := by
    intro e he
    obtain ⟨hnames, hne⟩ := mem_groups.mp he
    refine ⟨?_, hne⟩
    rw [hnames, namesIn]
    exact hnodup.sublist (List.filter_sublist.map _)
  rw [judge_found hentries]
  constructor
  · intro h group _ _ hmembers
    obtain ⟨field, hfield⟩ := List.exists_mem_of_ne_nil _ hmembers
    have hreal : message.realOneof? field = some group := by
      simpa using (List.mem_filter.mp hfield).2
    refine h (group.name, (message.membersOf group).map (·.name)) (mem_groups.mpr ⟨?_, ?_⟩)
    · exact (namesIn_eq hreal).symm
    · simpa using hmembers
  · rintro h ⟨name, names⟩ he
    obtain ⟨hnames, hne⟩ := mem_groups.mp he
    obtain ⟨field, hfield⟩ : ∃ field ∈ message.fields,
        (message.realOneof? field).map (·.name) = some name := by
      obtain ⟨first, hfirst⟩ := List.exists_mem_of_ne_nil _ hne
      rw [hnames] at hfirst
      obtain ⟨field, hfield, -⟩ := List.mem_map.mp hfirst
      obtain ⟨hmem, hreal⟩ := List.mem_filter.mp hfield
      exact ⟨field, hmem, by simpa using hreal⟩
    obtain ⟨group, hreal, rfl⟩ := Option.map_eq_some_iff.mp hfield.2
    obtain ⟨_, -, hfind, hmade⟩ := Message.realOneof?_eq_some_iff.mp hreal
    have hmembers := namesIn_eq hreal
    dsimp only at hnames hne ⊢
    rw [hnames, hmembers] at hne ⊢
    exact h group (List.mem_of_find?_eq_some hfind) hmade (by simpa using hne)

end Shape

end MessageSchema
