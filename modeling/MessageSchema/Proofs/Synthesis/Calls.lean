import MessageSchema.Proofs.Synthesis.Exactness
import Mathlib.Data.List.Induction

/-!
# Several calls that share a registry

A call that fails leaves behind what it has registered: placeholders for the messages that were being
dealt with, and complete entries whose references are all registered, if only under a placeholder. A
later call takes a placeholder for a message that is dealt with already, and succeeds. So what a call
hands out is complete except for the placeholders of calls that failed before.

The tasks of a run keep their order for this: whatever a message refers to stands in front of its
completion, so that an entry is never completed before its references are registered.

## Main definitions

* `Synthesis.Completed`: an entry that holds its schema and whose references are registered.
* `Synthesis.registryAfter`: the registry after several calls.
* `Synthesis.LeftBehind`: the placeholders of calls that failed.

## Main results

* `Synthesis.left_run`: what a run leaves behind, whether it fails or not.
* `Synthesis.completed_or_leftBehind`: what a call that succeeds hands out.
* `Synthesis.not_completed_parcels`: a call may succeed with a placeholder.
-/

namespace MessageSchema

namespace Synthesis

variable {pool : Pool} {selected : List String} {tasks rest : List Task}
  {registry registry' after : Registry} {name k : String} {shape schema : Schema} {budget : ℕ}

/-! ### The order of tasks -/

/-- Whatever a message refers to is known when the message is completed, or else a task in front
registers it. -/
def Staged : (String → Prop) → List Task → Prop
  | _, [] => True
  | known, .register name :: rest => Staged (fun k => k = name ∨ known k) rest
  | known, .complete _ shape :: rest =>
    (∀ k ∈ shape.referencedNames, known k) ∧ Staged known rest

theorem Staged.mono {known known' : String → Prop} (h : Staged known tasks)
    (hknown : ∀ k, known k → known' k) : Staged known' tasks := by
  induction tasks generalizing known known' with
  | nil => trivial
  | cons task rest ih =>
    cases task with
    | register name => exact ih h fun k hk => hk.imp_right (hknown k)
    | complete name shape => exact ⟨fun k hk => hknown k (h.1 k hk), ih h.2 hknown⟩

theorem staged_register {known : String → Prop} {names : List String}
    (h : Staged (fun k => k ∈ names ∨ known k) tasks) :
    Staged known (names.map .register ++ tasks) := by
  induction names generalizing known with
  | nil => exact h.mono fun k hk => hk.resolve_left (by simp)
  | cons name rest ih =>
    refine ih (h.mono fun k hk => ?_)
    rcases hk with hk | hk
    · exact (List.mem_cons.mp hk).elim (fun h => .inr (.inl h)) .inl
    · exact .inr (.inr hk)

theorem Staged.expansion {known known' : String → Prop}
    (h : Staged (fun k => k = name ∨ known k) rest) (hknown : ∀ k, k = name ∨ known k → known' k) :
    Staged known' (expansion name shape rest) :=
  staged_register ⟨fun _ hk => .inl hk, h.mono fun k hk => .inr (hknown k hk)⟩

/-! ### What a run leaves behind -/

/-- The schema is that of the message, and all that it refers to is registered. -/
def Completed (pool : Pool) (selected : List String) (registry : Registry) (name : String)
    (schema : Schema) : Prop :=
  shapeOf pool selected name = .ok schema ∧
    ∀ k ∈ schema.referencedNames, registry.contains k = true

theorem Completed.mono (h : Completed pool selected registry name schema)
    (hgrows : ∀ k, registry.contains k = true → registry'.contains k = true) :
    Completed pool selected registry' name schema :=
  ⟨h.1, fun k hk => hgrows k (h.2 k hk)⟩

/-- What tasks leave behind: old entries, placeholders of new names, and completed entries of new
names and of those that were to be completed. -/
structure Left (pool : Pool) (selected : List String) (tasks : List Task)
    (registry registry' : Registry) : Prop where
  entry : ∀ k schema, registry'.get? k = some schema →
    registry.get? k = some schema ∨ (registry.contains k = false ∧ schema = .blank) ∨
      (registry.contains k = false ∨ ∃ shape, .complete k shape ∈ tasks) ∧
        Completed pool selected registry' k schema
  grows : ∀ k, registry.contains k = true → registry'.contains k = true

namespace Left

theorem refl (registry : Registry) : Left pool selected tasks registry registry where
  entry _ _ h := .inl h
  grows _ := id

/-- A name that is not registered gets a placeholder. -/
theorem insert_blank (hname : registry.contains name = false) :
    Left pool selected tasks registry (registry.insert name .blank) where
  entry k schema h := by
    by_cases hk : k = name
    · subst hk
      rw [Dictionary.get?_insert_self] at h
      exact .inr (.inl ⟨hname, (Option.some.inj h).symm⟩)
    · rw [Dictionary.get?_insert_of_ne hk] at h
      exact .inl h
  grows _ hk := Dictionary.contains_insert_of_contains hk name .blank

/-- A registered name is completed. -/
theorem insert_shape (h : Completed pool selected registry name shape) :
    Left pool selected (.complete name shape :: tasks) registry (registry.insert name shape) where
  entry k schema hget := by
    by_cases hk : k = name
    · subst hk
      rw [Dictionary.get?_insert_self] at hget
      obtain rfl := Option.some.inj hget
      exact .inr (.inr ⟨.inr ⟨shape, by simp⟩, h.mono fun other hother =>
        Dictionary.contains_insert_of_contains hother k shape⟩)
    · rw [Dictionary.get?_insert_of_ne hk] at hget
      exact .inl hget
  grows _ hk := Dictionary.contains_insert_of_contains hk name shape

/-- Some tasks after others. -/
theorem trans {others : List Task} {between : Registry}
    (h : Left pool selected tasks registry between)
    (h' : Left pool selected others between registry')
    (hothers : ∀ k shape, .complete k shape ∈ others →
      registry.contains k = false ∨ ∃ shape, .complete k shape ∈ tasks) :
    Left pool selected tasks registry registry' where
  entry k schema hget := by
    have hfree : between.contains k = false → registry.contains k = false := fun hk =>
      Bool.eq_false_iff.mpr fun hk' => by simp [h.grows k hk'] at hk
    rcases h'.entry k schema hget with hold | ⟨hk, rfl⟩ | ⟨hk, hcompleted⟩
    · rcases h.entry k schema hold with hold | hblank | ⟨hk, hcompleted⟩
      · exact .inl hold
      · exact .inr (.inl hblank)
      · exact .inr (.inr ⟨hk, hcompleted.mono h'.grows⟩)
    · exact .inr (.inl ⟨hfree hk, rfl⟩)
    · refine .inr (.inr ⟨?_, hcompleted⟩)
      rcases hk with hk | ⟨shape, hshape⟩
      · exact .inl (hfree hk)
      · exact hothers k shape hshape
  grows k hk := h'.grows k (h.grows k hk)

end Left

theorem left_settle (hready : Ready pool selected registry tasks)
    (hstaged : Staged (registry.contains · = true) tasks) :
    Left pool selected tasks registry (settle tasks registry).1 ∧
      ∀ name rest, (settle tasks registry).2 = some (name, rest) →
        Staged (fun k => k = name ∨ registry.contains k = true) rest := by
  induction tasks generalizing registry with
  | nil => exact ⟨.refl registry, nofun⟩
  | cons task rest ih =>
    cases task with
    | complete name shape =>
      obtain ⟨hname, hshape⟩ := hready name shape (by simp)
      have hcontains : ∀ k, (registry.insert name shape).contains k = true ↔
          registry.contains k = true := fun k => Dictionary.contains_insert_iff hname k shape
      have hready' : Ready pool selected (registry.insert name shape) rest := fun k later hk =>
        ⟨(hcontains k).mpr (hready k later (by simp [hk])).1, (hready k later (by simp [hk])).2⟩
      obtain ⟨hleft, hnext⟩ := ih hready' (hstaged.2.mono fun k => (hcontains k).mpr)
      rw [settle_complete]
      refine ⟨(Left.insert_shape ⟨hshape, hstaged.1⟩).trans hleft fun k later hk =>
        .inr ⟨later, List.mem_cons_of_mem _ hk⟩, fun other later h => ?_⟩
      exact (hnext other later h).mono fun k hk => hk.imp_right (hcontains k).mp
    | register name =>
      by_cases hname : registry.contains name = true
      · have hready' : Ready pool selected registry rest := fun k later hk =>
          hready k later (by simp [hk])
        have hstaged' : Staged (registry.contains · = true) rest :=
          Staged.mono hstaged fun k hk => hk.elim (· ▸ hname) id
        obtain ⟨hleft, hnext⟩ := ih hready' hstaged'
        rw [settle_register hname]
        exact ⟨(Left.refl registry).trans hleft fun k later hk =>
          .inr ⟨later, List.mem_cons_of_mem _ hk⟩, hnext⟩
      · have hsettle : settle (.register name :: rest) registry = (registry, some (name, rest)) :=
          if_neg hname
        rw [hsettle]
        refine ⟨.refl registry, fun other later h => ?_⟩
        obtain ⟨rfl, rfl⟩ := Prod.ext_iff.mp (Option.some.inj h)
        exact hstaged

/-- **What a run leaves behind.** -/
theorem left_run (hready : Ready pool selected registry tasks)
    (hstaged : Staged (registry.contains · = true) tasks) :
    Left pool selected tasks registry (run pool selected budget tasks registry).1 := by
  induction budget generalizing tasks registry with
  | zero => exact .refl registry
  | succ budget ih =>
    obtain ⟨hleft, hafter⟩ := left_settle hready hstaged
    obtain ⟨front, hsettled, hnext⟩ := settled_settle fun k shape hmem => (hready k shape hmem).1
    rw [run_succ]
    cases hsettle : (settle tasks registry).2 with
    | none => exact hleft
    | some next =>
      obtain ⟨name, rest⟩ := next
      rw [hsettle] at hnext
      obtain ⟨htasks, hfree⟩ := hnext
      have hstaged' := hafter name rest hsettle
      have hfree' : (settle tasks registry).1.contains name = false :=
        Bool.eq_false_iff.mpr fun h => by simp [(hsettled.contains_iff name).mp h] at hfree
      have hregistered : Registered name front registry
          ((settle tasks registry).1.insert name .blank) := ⟨hfree, _, hsettled, rfl⟩
      have hplaced : Left pool selected tasks registry
          ((settle tasks registry).1.insert name .blank) :=
        hleft.trans (Left.insert_blank hfree' : Left pool selected tasks _ _) fun k shape hk =>
          .inr ⟨shape, hk⟩
      dsimp only
      cases pool.message? name with
      | none => exact hleft
      | some message =>
        cases hshape : shapeOf pool selected name with
        | error e => exact hplaced
        | ok shape =>
          have hready' := hregistered.ready (htasks ▸ hready) hshape
          have hexpanded : Staged (((settle tasks registry).1.insert name .blank).contains · = true)
              (expansion name shape rest) :=
            hstaged'.expansion fun k => (hregistered.contains_iff k).mpr
          refine hplaced.trans (ih hready' hexpanded) fun k other hk => ?_
          rcases complete_mem_expansion.mp hk with ⟨rfl, -⟩ | hk
          · exact .inl hfree
          · exact .inr ⟨other, by simp [htasks, hk]⟩

theorem left_fill (pool : Pool) (selected : List String) (name : String) (registry : Registry) :
    Left pool selected [.register name] registry (fill pool selected name registry).1 :=
  left_run (by simp [Ready]) trivial

/-! ### Calls in a row -/

/-- The registry after several calls that share it, whether they fail or not. -/
def registryAfter (pool : Pool) (selected : List String) (calls : List String) : Registry :=
  calls.foldl (fun registry name => (withRegistry pool selected name registry).1) []

theorem registryAfter_append (pool : Pool) (selected calls : List String) (name : String) :
    registryAfter pool selected (calls ++ [name]) =
      (withRegistry pool selected name (registryAfter pool selected calls)).1 := by
  simp [registryAfter]

/-- One of several calls fails, and leaves behind a placeholder under a name that was not registered
before. -/
def LeftBehind (pool : Pool) (selected : List String) (calls : List String) (k : String) : Prop :=
  ∃ front failing back e, calls = front ++ failing :: back ∧
    (withRegistry pool selected failing (registryAfter pool selected front)).2 = .error e ∧
    (registryAfter pool selected front).contains k = false ∧
    (registryAfter pool selected (front ++ [failing])).get? k = some .blank

theorem LeftBehind.append {calls : List String} (h : LeftBehind pool selected calls k)
    (name : String) : LeftBehind pool selected (calls ++ [name]) k := by
  obtain ⟨front, failing, back, e, rfl, h⟩ := h
  exact ⟨front, failing, back ++ [name], e, by simp, h⟩

/-- The entries of a registry after several calls: completed ones, and placeholders that were left
behind. -/
def Explained (pool : Pool) (selected : List String) (calls : List String) (registry : Registry) :
    Prop :=
  ∀ k schema, registry.get? k = some schema →
    Completed pool selected registry k schema ∨
      (schema = .blank ∧ LeftBehind pool selected calls k)

/-- A call that succeeds completes what it adds. -/
theorem Explained.of_ok {calls : List String} {node : Schema}
    (h : Explained pool selected calls registry)
    (hcall : withRegistry pool selected name registry = (after, .ok node)) :
    Explained pool selected calls after := by
  obtain ⟨-, hfill⟩ := withRegistry_eq_ok hcall
  have hholds := filledWith_of_fill hfill
  have hgrows : ∀ k, registry.contains k = true → after.contains k = true := fun k hk => by
    have hleft := (left_fill pool selected name registry).grows k hk
    rwa [hfill] at hleft
  intro k schema hget
  by_cases hk : registry.contains k = true
  · have hkept := hholds.kept k fun hadds => hadds.not_blocked hk
    exact (h k schema (hkept ▸ hget)).imp_left fun hcompleted => hcompleted.mono hgrows
  · have hadds := (hholds.contains_iff (Bool.eq_false_iff.mpr hk)).mp
      (Dictionary.contains_iff.mpr ⟨schema, hget⟩)
    obtain ⟨shape, hshape, hget'⟩ := hholds.added k hadds
    obtain rfl : schema = shape := Option.some.inj (hget.symm.trans hget')
    refine .inl ⟨hshape, fun other hother => ?_⟩
    by_cases hknown : registry.contains other = true
    · exact hgrows other hknown
    · exact (hholds.contains_iff (Bool.eq_false_iff.mpr hknown)).mpr
        (hadds.step ⟨schema, hshape, hother⟩ hknown)

/-- **One call.** -/
theorem explained_step {calls : List String}
    (h : Explained pool selected calls (registryAfter pool selected calls)) (name : String) :
    Explained pool selected (calls ++ [name]) (registryAfter pool selected (calls ++ [name])) := by
  have hafter := registryAfter_append pool selected calls name
  cases hcall : withRegistry pool selected name (registryAfter pool selected calls) with
  | mk after result =>
    rw [hcall] at hafter
    cases result with
    | ok node =>
      rw [hafter]
      intro k schema hget
      exact (h.of_ok hcall k schema hget).imp_right fun hblank => ⟨hblank.1, hblank.2.append name⟩
    | error e =>
      have hleft : Left pool selected [.register name] (registryAfter pool selected calls) after := by
        have := left_fill pool selected name (registryAfter pool selected calls)
        rwa [← congrArg Prod.fst (withRegistry_eq pool selected name _), hcall] at this
      intro k schema hget
      rw [hafter] at hget ⊢
      rcases hleft.entry k schema hget with hold | ⟨hfree, rfl⟩ | ⟨-, hcompleted⟩
      · exact (h k schema hold).imp (fun hcompleted => hcompleted.mono hleft.grows)
          fun hblank => ⟨hblank.1, hblank.2.append name⟩
      · exact .inr ⟨rfl, calls, name, [], e, rfl, congrArg Prod.snd hcall, hfree, hafter ▸ hget⟩
      · exact .inl hcompleted

/-- **Several calls.** -/
theorem explained_registryAfter (pool : Pool) (selected : List String) (calls : List String) :
    Explained pool selected calls (registryAfter pool selected calls) := by
  induction calls using List.reverseRecOn with
  | nil => exact fun k schema hget => nomatch hget
  | append_singleton calls name ih => exact explained_step ih name

/-- The entry of a name refers to another name. -/
def Points (registry : Registry) (name other : String) : Prop :=
  ∃ schema, registry.get? name = some schema ∧ other ∈ schema.referencedNames

theorem referencedNames_blank : Schema.blank.referencedNames = [] := rfl

/-- **What a call that succeeds hands out.** Every entry that is reached from the name that was asked
for is complete, or is a placeholder that an earlier call left behind when it failed. -/
theorem completed_or_leftBehind (pool : Pool) (selected : List String) (earlier : List String)
    {node : Schema}
    (hcall : withRegistry pool selected name (registryAfter pool selected earlier) =
      (after, .ok node))
    (hk : Reached (Points after) (fun _ => False) (· = name) k) :
    ∃ schema, after.get? k = some schema ∧
      ((∃ message, pool.message? k = some message ∧
          Shape.ofMessage pool selected message = .ok schema) ∨
        schema = .blank ∧ LeftBehind pool selected earlier k) := by
  have hexplained := (explained_registryAfter pool selected earlier).of_ok hcall
  have hcontains : after.contains k = true := by
    induction hk with
    | start hstart _ =>
      subst hstart
      exact (filledWith_of_fill (withRegistry_eq_ok hcall).2).contains_self
    | step _ hpoints _ _ =>
      obtain ⟨schema, hget, hother⟩ := hpoints
      rcases hexplained _ schema hget with hcompleted | ⟨rfl, -⟩
      · exact hcompleted.2 _ hother
      · rw [referencedNames_blank] at hother
        exact absurd hother List.not_mem_nil
  obtain ⟨schema, hget⟩ := Dictionary.contains_iff.mp hcontains
  exact ⟨schema, hget, (hexplained k schema hget).imp_left fun hcompleted =>
    shapeOf_eq_ok.mp hcompleted.1⟩

/-- Parcels with a sender and a label, of which the label has a field of an unknown kind. -/
def parcels : DescriptorSet where
  files := [{
    path := "post.proto"
    package := "post"
    messages := [
      { name := "Parcel", fullName := "post.Parcel", file := "post.proto",
        fields := [
          { name := "from", number := 1, kind := .message, typeName := some "post.Person" },
          { name := "label", number := 2, kind := .message, typeName := some "post.Label" }] },
      { name := "Person", fullName := "post.Person", file := "post.proto",
        fields := [{ name := "name", number := 1, kind := .string }] },
      { name := "Label", fullName := "post.Label", file := "post.proto",
        unsupported := [{ name := "code", number := 1, kind := "barcode" }] }] }]
  targets := []

/-- The names of all messages about parcels. -/
def parcelNames : List String := ["post.Parcel", "post.Person", "post.Label"]

/-- A parcel is asked for twice. The first call fails because of the label, after the sender has been
completed; the second succeeds with the placeholder of the parcel. -/
theorem completed_or_leftBehind_parcels : ∃ after,
    withRegistry parcels.pool parcelNames "post.Parcel"
        (registryAfter parcels.pool parcelNames ["post.Parcel"]) =
      (after, .ok (.reference "post.Parcel")) ∧
    after.keys = ["post.Label", "post.Parcel", "post.Person"] ∧
    Reached (Points after) (fun _ => False) (· = "post.Parcel") "post.Parcel" ∧
    ∃ schema, after.get? "post.Parcel" = some schema ∧
      ((∃ message, parcels.pool.message? "post.Parcel" = some message ∧
          Shape.ofMessage parcels.pool parcelNames message = .ok schema) ∨
        schema = .blank ∧ LeftBehind parcels.pool parcelNames ["post.Parcel"] "post.Parcel") := by
  have hreached : ∀ after : Registry,
      Reached (Points after) (fun _ => False) (· = "post.Parcel") "post.Parcel" := fun _ =>
    .start rfl id
  have hkeys : (withRegistry parcels.pool parcelNames "post.Parcel"
      (registryAfter parcels.pool parcelNames ["post.Parcel"])).1.keys =
        ["post.Label", "post.Parcel", "post.Person"] := by decide +kernel
  exact ⟨_, rfl, hkeys, hreached _,
    completed_or_leftBehind parcels.pool parcelNames ["post.Parcel"] rfl (hreached _)⟩

/-- **A call may succeed with a placeholder.** -/
theorem not_completed_parcels :
    ¬ ∀ (set : DescriptorSet) (selected earlier : List String) (name : String) (after : Registry)
      (node : Schema),
      withRegistry set.pool selected name (registryAfter set.pool selected earlier) =
        (after, .ok node) →
      ∀ k, Reached (Points after) (fun _ => False) (· = name) k →
        ∃ message schema, set.pool.message? k = some message ∧
          Shape.ofMessage set.pool selected message = .ok schema ∧ after.get? k = some schema := by
  intro h
  obtain ⟨message, schema, hmessage, hshape, hget⟩ := h parcels parcelNames ["post.Parcel"]
    "post.Parcel" _ _ rfl "post.Parcel" (.start rfl id)
  obtain rfl : Schema.blank = schema := Option.some.inj hget
  obtain ⟨⟨⟩, -, hshape⟩ := Except.bind_eq_ok.mp hshape
  obtain ⟨entries, -, hshape⟩ := Except.bind_eq_ok.mp hshape
  have htype := congrArg Schema.type (Except.pure_eq_ok.mp hshape)
  cases htype

end Synthesis

end MessageSchema
