import MessageSchema.Proofs.Disk.Inward
import MessageSchema.Proofs.Disk.Touching
import MessageSchema.Proofs.Generate.Staging

/-!
# Where the files of a unit can end up

The files of a unit are written in the directory of its source below the output directory, under the
names of its messages and of its module. These texts come from the input, and nothing looks at them:
the files stay inside the output directory exactly if none of the paths put together of them leads
out.

## Main definitions

* `Generate.writtenPaths`: the paths that are written for a unit.
* `Generate.mirrored`: such a path as it is taken from the output directory.
* `Generate.Confined`: writing a unit is confined to its output directory.

## Main results

* `Generate.touches_writeUnit`: writing a unit touches these paths only.
* `Generate.touches_and_confined_iff_inward`: the exact condition.
* `Generate.content?_of_confined`: files outside the output directory stay as they are.
* `Generate.not_confined`: a source whose path begins with two dots.
-/

namespace MessageSchema

namespace Generate

open Disk (Touches)

variable {options : Options} {unit : CompilationUnit} {output : Path} {paths : List Path}

/-- The names of the files that are written for a unit, staged and in their places. -/
def writtenNames (options : Options) (unit : CompilationUnit) : List String :=
  (artifacts options unit).flatMap fun artifact => [artifact.1 ++ ".tmp", artifact.1]

/-- The paths that are written for a unit. -/
def writtenPaths (options : Options) (unit : CompilationUnit) : List Path :=
  (writtenNames options unit).map fun name =>
    (unitDirectory options.output unit.source).join ⟨name⟩

/-- The names do not depend on the output directory. -/
theorem writtenNames_output (options : Options) (output : Path) (unit : CompilationUnit) :
    writtenNames { options with output } unit = writtenNames options unit := by
  rw [writtenNames, writtenNames, artifacts, artifacts]
  rfl

/-- A file of a unit, as a path that is taken from the output directory. -/
def mirrored (source name : String) : Path :=
  match (Path.mk source).parent? with
  | some parent => parent.join ⟨name⟩
  | none => ⟨name⟩

/-! ### Nothing else is touched -/

section Touching

variable {σ : Type} {disk : Disk (StateM σ)} {memory : σ → Memory}

/-- An artifact is staged and moved along some paths. -/
def Staged.Along (paths : List Path) (artifact : Staged) : Prop :=
  artifact.temporary ∈ paths ∧ artifact.final ∈ paths

theorem touches_discard (hdisk : disk.Atomic memory) {staged : List Staged}
    (h : ∀ artifact ∈ staged, artifact.Along paths) :
    Touches memory paths (discard disk staged) fun _ => True := by
  induction staged with
  | nil => exact .pure trivial
  | cons artifact rest ih =>
    exact (hdisk.touches_remove (h artifact List.mem_cons_self).1).bind fun _ _ =>
      ih fun other hother => h other (List.mem_cons_of_mem _ hother)

theorem touches_stage (hdisk : disk.Atomic memory) {directory : Path}
    {waiting : List (String × String)} {staged : List Staged}
    (hwaiting : ∀ artifact ∈ waiting, (stagedOf directory artifact).Along paths)
    (hstaged : ∀ artifact ∈ staged, artifact.Along paths) :
    Touches memory paths (stage disk directory waiting staged) fun result =>
      ∀ all, result = .ok all → ∀ artifact ∈ all, artifact.Along paths := by
  induction waiting generalizing staged with
  | nil =>
    refine .pure ?_
    rintro _ ⟨⟩
    exact hstaged
  | cons artifact rest ih =>
    obtain ⟨name, text⟩ := artifact
    have halong := hwaiting (name, text) List.mem_cons_self
    refine (hdisk.touches_write halong.1 text).bind fun result _ => ?_
    cases result with
    | error error => exact (touches_discard hdisk hstaged).bind fun _ _ => .pure nofun
    | ok =>
      refine ih (fun other hother => hwaiting other (List.mem_cons_of_mem _ hother)) ?_
      intro other hother
      rcases List.mem_append.mp hother with hother | hother
      · exact hstaged other hother
      · rw [List.mem_singleton.mp hother]
        exact halong

theorem touches_place (hdisk : disk.Atomic memory) {staged : List Staged}
    (h : ∀ artifact ∈ staged, artifact.Along paths) :
    Touches memory paths (place disk staged) fun _ => True := by
  induction staged with
  | nil => exact .pure trivial
  | cons artifact rest ih =>
    obtain ⟨htemporary, hfinal⟩ := h artifact List.mem_cons_self
    refine (hdisk.touches_rename htemporary hfinal).bind fun result _ => ?_
    cases result with
    | error error => exact (touches_discard hdisk h).bind fun _ _ => .pure trivial
    | ok => exact ih fun other hother => h other (List.mem_cons_of_mem _ hother)

/-- Writing a unit touches the paths that are written for it, whichever operations fail. -/
theorem touches_writeUnit (hdisk : disk.Atomic memory) (options : Options)
    (unit : CompilationUnit) :
    Touches memory (writtenPaths options unit) (writeUnit disk options unit) fun _ => True := by
  have halong : ∀ artifact ∈ artifacts options unit,
      (stagedOf (unitDirectory options.output unit.source) artifact).Along
        (writtenPaths options unit) := by
    intro artifact hartifact
    have hname : ∀ name ∈ [artifact.1 ++ ".tmp", artifact.1],
        (unitDirectory options.output unit.source).join ⟨name⟩ ∈ writtenPaths options unit :=
      fun name hname => List.mem_map.mpr
        ⟨name, List.mem_flatMap.mpr ⟨artifact, hartifact, hname⟩, rfl⟩
    exact ⟨hname _ (by simp), hname _ (by simp)⟩
  refine (hdisk.touches_createDirectories _).bind fun result _ => ?_
  cases result with
  | error error => exact .pure trivial
  | ok =>
    refine (touches_stage hdisk halong (by simp)).bind fun result hresult => ?_
    cases result with
    | error error => exact .pure trivial
    | ok staged =>
      refine (touches_place hdisk (hresult staged rfl)).bind fun result _ => ?_
      cases result <;> exact .pure trivial

end Touching

/-! ### Staying inside -/

/-- The place of a file of a unit is that of its path, taken from the output directory. -/
theorem place_join_unitDirectory (output : Path) (source name : String) (start : List String) :
    ((unitDirectory output source).join ⟨name⟩).place start =
      (mirrored source name).place (output.place start) := by
  rw [Path.place_join, unitDirectory, mirrored]
  cases (Path.mk source).parent? with
  | none => rfl
  | some parent => rw [Path.place_join, Path.place_join]

/-- All paths that are written for a unit stay inside the output directory, whichever it is. -/
def Confined (options : Options) (unit : CompilationUnit) : Prop :=
  ∀ (output : Path) (start : List String),
    ∀ path ∈ writtenPaths { options with output } unit, output.place start <+: path.place start

theorem confined_iff : Confined options unit ↔
    ∀ name ∈ writtenNames options unit, (mirrored unit.source name).Inward := by
  constructor
  · intro h name hname
    refine Path.inward_iff.mpr fun outer => ?_
    have hpath : (unitDirectory ⟨"."⟩ unit.source).join ⟨name⟩ ∈
        writtenPaths { options with output := ⟨"."⟩ } unit := by
      rw [writtenPaths, writtenNames_output]
      exact List.mem_map_of_mem hname
    have hplace := h ⟨"."⟩ outer _ hpath
    rwa [place_join_unitDirectory] at hplace
  · intro h output start path hpath
    rw [writtenPaths, writtenNames_output] at hpath
    obtain ⟨name, hname, rfl⟩ := List.mem_map.mp hpath
    rw [place_join_unitDirectory]
    exact Path.inward_iff.mp (h name hname) _

instance (options : Options) (unit : CompilationUnit) : Decidable (Confined options unit) :=
  decidable_of_iff _ confined_iff.symm

/-- Writing a unit that is confined leaves all files outside the output directory as they are. -/
theorem content?_of_confined {σ : Type} {disk : Disk (StateM σ)} {memory : σ → Memory}
    (hdisk : disk.Atomic memory) (h : Confined options unit) (state : σ) {place : List String}
    (houtside : ¬ options.output.place (memory state).workingDirectory <+: place) :
    (memory (writeUnit disk options unit state).2).content? place =
      (memory state).content? place := by
  refine (touches_writeUnit hdisk options unit state).2.2 place fun path hpath heq => ?_
  exact houtside (heq ▸ h options.output _ path hpath)

/-- **Which units are confined to the output directory.** Writing a unit touches the paths that are
written for it and no others, whichever operations fail, and these stay inside every output directory
exactly if each of them is inward as it is taken from there. -/
theorem touches_and_confined_iff_inward {σ : Type} {disk : Disk (StateM σ)} {memory : σ → Memory}
    (hdisk : disk.Atomic memory) (options : Options) (unit : CompilationUnit) :
    (Touches memory (writtenPaths options unit) (writeUnit disk options unit) fun _ => True) ∧
      (Confined options unit ↔
        ∀ name ∈ writtenNames options unit, (mirrored unit.source name).Inward) :=
  ⟨touches_writeUnit hdisk options unit, confined_iff⟩

/-- A file in a directory, the way up and down in its path included. -/
def inwardText : String :=
"files:
- path: shop/lib/../order.proto
  options:
    generate: true
  messages:
  - name: M
"

/-- A path that leads up again where it has led down before. -/
theorem touches_and_confined_iff_inward_order : ∃ set file unit,
    Input.read ⟨"a.yaml"⟩ inwardText .manifest = .ok set ∧ file ∈ set.targetFiles ∧
    CompilationUnit.compile set.pool {} file = .ok (some unit) ∧
    writtenPaths {} unit = [⟨"gen/shop/lib/../M.schema.json.tmp"⟩,
      ⟨"gen/shop/lib/../M.schema.json"⟩, ⟨"gen/shop/lib/../order_jsonschema.rs.tmp"⟩,
      ⟨"gen/shop/lib/../order_jsonschema.rs"⟩] ∧
    Memory.disk.Atomic id ∧
    (Touches id (writtenPaths {} unit) (writeUnit Memory.disk {} unit) fun _ => True) ∧
    Confined {} unit := by
  obtain ⟨set, hload, hset⟩ : ∃ set, Input.read ⟨"a.yaml"⟩ inwardText .manifest = .ok set ∧
      (set.targetFiles.any fun file => Except.succeedsWith (fun result => result.any fun unit =>
        writtenPaths {} unit = [⟨"gen/shop/lib/../M.schema.json.tmp"⟩,
          ⟨"gen/shop/lib/../M.schema.json"⟩, ⟨"gen/shop/lib/../order_jsonschema.rs.tmp"⟩,
          ⟨"gen/shop/lib/../order_jsonschema.rs"⟩] ∧
        ∀ name ∈ writtenNames {} unit, (mirrored unit.source name).Inward)
        (CompilationUnit.compile set.pool {} file)) = true :=
    Except.exists_of_succeedsWith (by decide +kernel)
  obtain ⟨file, hfile, hresult⟩ := List.any_eq_true.mp hset
  obtain ⟨result, hcompile, hresult⟩ := Except.exists_of_succeedsWith hresult
  obtain ⟨unit, rfl, hunit⟩ := (Option.any_eq_true _ result).mp hresult
  obtain ⟨hpaths, hinward⟩ := of_decide_eq_true hunit
  obtain ⟨htouches, hiff⟩ := touches_and_confined_iff_inward Memory.atomic_disk {} unit
  exact ⟨set, file, unit, hload, hfile, hcompile, hpaths, Memory.atomic_disk, htouches,
    hiff.mpr hinward⟩

/-- A file whose path begins with two dots. -/
def upwardText : String :=
"files:
- path: ../a.proto
  options:
    generate: true
  messages:
  - name: M
"

/-- **A source may lead out of the output directory.** The directory of the source is mirrored as it
is written, two dots included. -/
theorem not_confined : ¬ ∀ (path : Path) (text : String) (format : Format) (set : DescriptorSet)
    (options : Options) (file : File) (unit : CompilationUnit),
    Input.read path text format = .ok set → file ∈ set.targetFiles →
    CompilationUnit.compile set.pool options.settings file = .ok (some unit) →
    Confined options unit := by
  intro hall
  obtain ⟨set, hload, hset⟩ : ∃ set, Input.read ⟨"a.yaml"⟩ upwardText .manifest = .ok set ∧
      (set.targetFiles.any fun file => Except.succeedsWith (fun result => result.any fun unit =>
        ¬ ∀ name ∈ writtenNames {} unit, (mirrored unit.source name).Inward)
        (CompilationUnit.compile set.pool {} file)) = true :=
    Except.exists_of_succeedsWith (by decide +kernel)
  obtain ⟨file, hfile, hresult⟩ := List.any_eq_true.mp hset
  obtain ⟨result, hcompile, hresult⟩ := Except.exists_of_succeedsWith hresult
  obtain ⟨unit, rfl, hunit⟩ := (Option.any_eq_true _ result).mp hresult
  exact of_decide_eq_true hunit (confined_iff.mp (hall _ _ _ set {} file unit hload hfile hcompile))

end Generate

end MessageSchema
