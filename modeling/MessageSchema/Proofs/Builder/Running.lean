import MessageSchema.Proofs.Builder.Nodes
import Mathlib.Data.List.Nodup

/-!
# Running the functions of a unit

A builder registers its message under a placeholder, builds the schema, which calls other builders,
and completes the entry. A call adds a name that was not registered, so that calls nest no deeper than
there are messages in the unit.

## Main definitions

* `CompilationUnit.Serving`: what is asked of a unit, so that its builders serve each other.

## Main results

* `Builder.grown_callAt`: a builder registers its message and all that it refers to.
* `Builder.invoke_root`: the other function returns the message with all it refers to.
-/

namespace MessageSchema

open Program Synthesis

variable {pool : Pool} {selected : List String} {unit : CompilationUnit} {type : GeneratedType}
  {before after : Registry} {callees : Dictionary String}

/-- Every message of the unit has its own schema, every reference in it leads to the builder of a
message of the unit, and no two messages have builders of one name. -/
structure CompilationUnit.Serving (pool : Pool) (selected : List String) (unit : CompilationUnit) :
    Prop where
  shaped : ∀ type ∈ unit.types, shapeOf pool selected type.fullName = .ok type.shape
  flat : ∀ type ∈ unit.types, type.shape.IsFlat
  known : ∀ type ∈ unit.types, Builder.Known unit.callees type.shape.references
  callee : ∀ name builder, unit.callees.get? name = some builder →
    ∃ type ∈ unit.types, type.fullName = name ∧ builder = CompilationUnit.builderName type.ident
  distinct : (unit.types.map (·.ident)).Nodup

namespace Builder

/-! ### Looking functions up -/

theorem builderName_ne (ident other : String) :
    CompilationUnit.builderName ident ≠ other ++ "_json_schema" := by
  intro h
  have hlast := congrArg (fun s => s.toList.getLast?) h
  simp [CompilationUnit.builderName] at hlast

theorem find?_root (callees : Dictionary String) {types : List GeneratedType}
    (hdistinct : (types.map (·.ident)).Nodup) (htype : type ∈ types) :
    find? (types.flatMap fun type => [rootProgram type, registerProgram callees type])
      (type.ident ++ "_json_schema") = some (rootProgram type) := by
  induction types with
  | nil => simp at htype
  | cons first rest ih =>
    obtain ⟨hfirst, hrest⟩ := List.nodup_cons.mp hdistinct
    rcases List.mem_cons.mp htype with rfl | htype
    · simp [find?, rootProgram]
    · have hne : first.ident ≠ type.ident := fun h =>
        hfirst (List.mem_map.mpr ⟨type, htype, h.symm⟩)
      have hother := builderName_ne first.ident type.ident
      simpa [find?, rootProgram, registerProgram, hne, hother] using ih hrest htype

theorem find?_register (callees : Dictionary String) {types : List GeneratedType}
    (hdistinct : (types.map (·.ident)).Nodup) (htype : type ∈ types) :
    find? (types.flatMap fun type => [rootProgram type, registerProgram callees type])
      (CompilationUnit.builderName type.ident) = some (registerProgram callees type) := by
  induction types with
  | nil => simp at htype
  | cons first rest ih =>
    obtain ⟨hfirst, hrest⟩ := List.nodup_cons.mp hdistinct
    have hother : first.ident ++ "_json_schema" ≠ CompilationUnit.builderName type.ident :=
      (builderName_ne type.ident first.ident).symm
    rcases List.mem_cons.mp htype with rfl | htype
    · simp [find?, rootProgram, registerProgram, hother]
    · have hne : CompilationUnit.builderName first.ident ≠
          CompilationUnit.builderName type.ident := fun h =>
        hfirst (by simpa [CompilationUnit.builderName] using
          ⟨type, htype, (by simpa [CompilationUnit.builderName] using h.symm)⟩)
      simpa [find?, rootProgram, registerProgram, hne, hother] using ih hrest htype

/-! ### Builders -/

/-- The names of a unit that are not registered. -/
def free (unit : CompilationUnit) (registry : Registry) : List String :=
  (unit.types.map (·.fullName)).filter (!registry.contains ·)

theorem call_of_contains {builders : String → Routine} (hname : before.contains type.fullName = true) :
    (registerProgram callees type).call builders before =
      some (.reference type.fullName, before) := by
  simp [Function.call, registerProgram, runBody, eval, evalAll, apply, applyToRegistry,
    Locals.registry?, hname, Datum.node?]

theorem call_of_rebuilds {builders : String → Routine} {grown : Registry}
    (hname : before.contains type.fullName = false)
    (heval : eval builders (codeOf callees type.shape).expression
      (holding (before.insert type.fullName .blank)) = some (.node type.shape, holding grown)) :
    (registerProgram callees type).call builders before =
      some (.reference type.fullName, grown.insert type.fullName type.shape) := by
  have heval' : eval builders (codeOf callees type.shape).expression
      [("defs", .borrowed (before.insert type.fullName .blank))] =
        some (.node type.shape, [("defs", .borrowed grown)]) := heval
  simp [Function.call, registerProgram, runBody, eval, evalAll, apply, applyToRegistry,
    Locals.registry?, Locals.setRegistry, expressionOfText, applyMethod, valueOfPath, Locals.value?,
    hname, heval', Datum.node?, List.lookup_cons]

theorem root_of_call {builders : String → Routine} {node : Schema}
    (hcall : builders (CompilationUnit.builderName type.ident) [] = some (node, after)) :
    (runBody builders (rootProgram type).result (rootProgram type).body []).bind (·.1.node?) =
      some (.rootReference type.fullName after) := by
  simp [rootProgram, runBody, eval, evalAll, apply, Locals.lend?, Locals.registry?,
    Locals.setRegistry, valueOfPath, Locals.value?, Datum.node?, hcall]

theorem free_lt_of_insert (htype : type ∈ unit.types)
    (hname : before.contains type.fullName = false) (placeholder : Schema) :
    (free unit (before.insert type.fullName placeholder)).length < (free unit before).length := by
  have hmem : type.fullName ∈ unit.types.map (·.fullName) := List.mem_map_of_mem htype
  exact length_filter_visit_lt hmem hname fun k =>
    Dictionary.contains_insert type.fullName k placeholder before

theorem free_le_of_grown {names : List String} (h : Grown pool selected names before after) :
    (free unit after).length ≤ (free unit before).length := by
  refine List.Sublist.length_le (List.monotone_filter_right _ fun k hk => ?_)
  cases hbefore : before.contains k with
  | false => rfl
  | true => simp [h.contains_of hbefore] at hk

/-- **A builder registers its message.** Calls nest no deeper than there are names left to
register. -/
theorem grown_callAt (hserving : unit.Serving pool selected) (htype : type ∈ unit.types) {depth : ℕ}
    (hdepth : (free unit before).length < depth) :
    ∃ after, Grown pool selected [type.fullName] before after ∧
      callAt (programOf unit) depth (CompilationUnit.builderName type.ident) before =
        some (.reference type.fullName, after) := by
  induction depth generalizing type before with
  | zero => omega
  | succ depth ih =>
    have hfind : find? (programOf unit) (CompilationUnit.builderName type.ident) =
        some (registerProgram unit.callees type) :=
      find?_register unit.callees hserving.distinct htype
    cases hname : before.contains type.fullName with
    | true =>
      refine ⟨before, .of_contains hname, ?_⟩
      simp [callAt, hfind, call_of_contains hname]
    | false =>
      have hserves : Serves pool selected unit.callees
          (fun registry => (free unit registry).length < depth)
          (callAt (programOf unit) depth) :=
        { call := fun name builder before hbuilder hready => by
            obtain ⟨other, hother, rfl, rfl⟩ := hserving.callee name builder hbuilder
            exact ih hother hready
          grow := fun _ _ _ hready hgrown => (free_le_of_grown hgrown).trans_lt hready }
      have hready : (free unit (before.insert type.fullName .blank)).length < depth := by
        have := free_lt_of_insert htype hname .blank
        omega
      obtain ⟨grown, hgrown, heval⟩ := rebuilds_codeOf hserves type.shape (hserving.flat type htype)
        (hserving.known type htype) hready
      refine ⟨_, .visit hname (hserving.shaped type htype) hgrown, ?_⟩
      simp [callAt, hfind, call_of_rebuilds hname heval]

/-- **The root of a message.** -/
theorem invoke_root (hserving : unit.Serving pool selected) (htype : type ∈ unit.types) {root : Schema}
    (hroot : Synthesis.root pool selected type.fullName = .ok root) {depth : ℕ}
    (hdepth : unit.types.length < depth) :
    invoke (programOf unit) depth (type.ident ++ "_json_schema") = some root := by
  have hfind : find? (programOf unit) (type.ident ++ "_json_schema") = some (rootProgram type) :=
    find?_root unit.callees hserving.distinct htype
  have hfree : (free unit []).length < depth :=
    lt_of_le_of_lt (List.length_filter_le _ _) (by simpa using hdepth)
  obtain ⟨after, hgrown, hcall⟩ := grown_callAt hserving htype hfree
  unfold Synthesis.root at hroot
  split at hroot
  · rename_i filled hfill
    obtain rfl := Except.ok.inj hroot
    obtain rfl := hgrown.eq_fill hfill
    rw [invoke, hfind]
    exact root_of_call hcall
  · cases hroot

end Builder

end MessageSchema
