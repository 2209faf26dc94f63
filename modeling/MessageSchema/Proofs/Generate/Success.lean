import MessageSchema.Proofs.Generate.Confinement
import MessageSchema.Proofs.Generate.AllOrNothing

/-!
# A unit that is written

Nothing keeps the artifacts of a unit apart, as their names come from the input. But a unit whose
artifacts share a place is never written: the second of them is staged over the first, and once the
first is moved there is nothing left to be moved. So when a unit is written its artifacts have places
of their own, every one of them holds its text, and no other file has changed that is not staged.

## Main definitions

* `Generate.IsFinal`: a place for an artifact, as opposed to one where an artifact is staged.
* `Generate.placed`: the places of the artifacts of a unit with their texts.
* `Generate.Wrote`: texts are written at some places, one after the other.

## Main results

* `Generate.exists_places`: an artifact is staged beside its place.
* `Generate.apart_of_writeUnit`: a unit that is written has places of its own for its artifacts.
* `Generate.Wrote.forall_content?_iff`: when nothing that is written is lost.
* `Generate.wrote_of_writeUnit`: what is written of a unit.
-/

namespace MessageSchema

/-! ### Places of texts with an ending -/

namespace Text

/-- An ending without separators belongs to the last piece. -/
theorem exists_pieces_append (separator : Char) (cs : List Char) :
    ∃ front last, ∀ ds, separator ∉ ds → pieces separator (cs ++ ds) = front ++ [last ++ ds] := by
  induction cs with
  | nil => exact ⟨[], [], fun ds hds => pieces_of_not_mem hds⟩
  | cons c cs ih =>
    obtain ⟨front, last, hpieces⟩ := ih
    by_cases hc : c = separator
    · refine ⟨[] :: front, last, fun ds hds => ?_⟩
      rw [hc, List.cons_append, pieces_separator_cons, hpieces ds hds, List.cons_append]
    · cases front with
      | nil =>
        refine ⟨[], c :: last, fun ds hds => ?_⟩
        obtain ⟨piece, rest, heq, hcons⟩ := pieces_cons hc (cs ++ ds)
        rw [hpieces ds hds] at heq
        obtain ⟨rfl, rfl⟩ := List.cons.inj heq
        exact hcons
      | cons first front =>
        refine ⟨(c :: first) :: front, last, fun ds hds => ?_⟩
        obtain ⟨piece, rest, heq, hcons⟩ := pieces_cons hc (cs ++ ds)
        rw [hpieces ds hds] at heq
        obtain ⟨rfl, rfl⟩ := List.cons.inj heq
        exact hcons

end Text

namespace Path

/-- An ending of three characters or more belongs to the name at the place of a path. -/
theorem exists_place_append (start : List String) (cs : List Char) :
    ∃ outer last, ∀ ds, '/' ∉ ds → 3 ≤ ds.length →
      place start ⟨String.ofList (cs ++ ds)⟩ = outer ++ [String.ofList (last ++ ds)] := by
  obtain ⟨front, last, hpieces⟩ := Text.exists_pieces_append '/' cs
  refine ⟨resolve (if cs.head? = some '/' then [] else start) (front.map String.ofList), last,
    fun ds hds hlong => ?_⟩
  have habsolute : isAbsolute ⟨String.ofList (cs ++ ds)⟩ = true ↔ cs.head? = some '/' := by
    rw [isAbsolute, String.toList_ofList, beq_iff_eq]
    cases cs with
    | nil =>
      refine iff_of_false (fun hhead => hds ?_) (by simp)
      exact List.mem_of_mem_head? hhead
    | cons c cs => simp
  have hname : IsName (String.ofList (last ++ ds)) := by
    refine Generate.isName_of_length ?_
    rw [String.length_ofList, List.length_append]
    omega
  simp only [place, habsolute, pieces, String.toList_ofList, hpieces ds hds, List.map_append,
    resolve_append, List.map_singleton, resolve_cons, follow_of_isName hname, resolve_nil]

end Path

namespace Generate

variable {options : Options} {unit : CompilationUnit} {directory : Path} {memory : Memory}
  {a b : String × String}

/-- A path below a directory goes on as the name does. -/
theorem text_join_append {name more : String} (h : name ≠ "") :
    (directory.join ⟨name ++ more⟩).text = (directory.join ⟨name⟩).text ++ more := by
  have habsolute : Path.isAbsolute ⟨name ++ more⟩ = Path.isAbsolute ⟨name⟩ := by
    cases hname : name.toList with
    | nil => exact absurd (String.toList_eq_nil_iff.mp hname) h
    | cons c cs => simp [Path.isAbsolute, hname]
  rw [Path.join, Path.join, habsolute]
  split_ifs
  · rfl
  · exact String.append_assoc.symm
  · exact String.append_assoc.symm

/-- The name of an artifact has one of two endings. -/
theorem exists_ending (h : a ∈ artifacts options unit) : ∃ front ending : String,
    a.1 = front ++ ending ∧ (ending = ".schema.json" ∨ ending = ".rs") := by
  rcases mem_artifacts h with ⟨type, -, hname⟩ | hname
  · exact ⟨type.fullName, ".schema.json", hname, .inl rfl⟩
  · exact ⟨CompilationUnit.moduleName unit.stem, ".rs", hname, .inr rfl⟩

/-- The path of an artifact ends as its name does. -/
theorem exists_text_finalOf {front ending : String} (h : a.1 = front ++ ending) :
    ∃ cs, (finalOf directory a).text.toList = cs ++ ending.toList := by
  have hname : a.1.toList = front.toList ++ ending.toList := by rw [h, String.toList_append]
  rcases Path.join_cases directory ⟨a.1⟩ with ⟨-, hjoin⟩ | ⟨-, cs, -, hjoin⟩ | ⟨-, -, hjoin⟩
  · exact ⟨front.toList, by rw [finalOf, hjoin, hname]⟩
  · exact ⟨cs ++ '/' :: front.toList, by rw [finalOf, hjoin, hname]; simp⟩
  · exact ⟨directory.text.toList ++ '/' :: front.toList, by rw [finalOf, hjoin, hname]; simp⟩

/-- An artifact is staged beside its place, under its name with an ending that no artifact has. -/
theorem exists_places (h : a ∈ artifacts options unit) (directory : Path) (start : List String) :
    ∃ outer last, (finalOf directory a).place start = outer ++ [last] ∧
      (temporaryOf directory a).place start = outer ++ [last ++ ".tmp"] ∧
      last.toList.getLast? ≠ some 'p' := by
  obtain ⟨front, ending, hname, hending⟩ := exists_ending h
  obtain ⟨cs, hcs⟩ : ∃ cs, (finalOf directory a).text.toList = cs ++ ending.toList :=
    exists_text_finalOf hname
  obtain ⟨outer, last, hplace⟩ := Path.exists_place_append start cs
  have hne : a.1 ≠ "" := by
    rw [hname]
    rcases hending with rfl | rfl <;> simp
  have hfinal : finalOf directory a = ⟨String.ofList (cs ++ ending.toList)⟩ := by
    rw [← hcs, String.ofList_toList]
  have htemporary : temporaryOf directory a =
      ⟨String.ofList (cs ++ (ending.toList ++ ".tmp".toList))⟩ := by
    have htext : (temporaryOf directory a).text = (finalOf directory a).text ++ ".tmp" :=
      text_join_append hne
    rw [← List.append_assoc, ← hcs, ← String.toList_append, ← htext, String.ofList_toList]
  refine ⟨outer, String.ofList (last ++ ending.toList), ?_, ?_, ?_⟩
  · rw [hfinal]
    rcases hending with rfl | rfl <;> exact hplace _ (by decide) (by decide)
  · have hlast : String.ofList (last ++ ending.toList) ++ ".tmp" =
        String.ofList (last ++ (ending.toList ++ ".tmp".toList)) := by
      rw [← String.toList_inj]
      simp
    rw [htemporary, hlast]
    rcases hending with rfl | rfl <;> exact hplace _ (by decide) (by decide)
  · rw [String.toList_ofList]
    rcases hending with rfl | rfl <;> simp

/-! ### Places of their own -/

/-- A place for an artifact: its name does not end as that of a staged artifact does. -/
def IsFinal (place : List String) : Prop :=
  ∀ name ∈ place.getLast?, name.toList.getLast? ≠ some 'p'

theorem isFinal_finalPlace (h : a ∈ artifacts options unit) :
    IsFinal (finalPlace memory directory a) := by
  obtain ⟨outer, last, hfinal, -, hlast⟩ := exists_places h directory memory.workingDirectory
  rw [finalPlace, hfinal, IsFinal]
  simpa using hlast

theorem not_isFinal_stagingPlace (h : a ∈ artifacts options unit) :
    ¬ IsFinal (stagingPlace memory directory a) := by
  obtain ⟨outer, last, -, hstaging, -⟩ := exists_places h directory memory.workingDirectory
  rw [stagingPlace, hstaging, IsFinal]
  simp

/-- Two artifacts are staged in one place exactly if they are moved to one place. -/
theorem stagingPlace_eq_iff (ha : a ∈ artifacts options unit) (hb : b ∈ artifacts options unit) :
    stagingPlace memory directory a = stagingPlace memory directory b ↔
      finalPlace memory directory a = finalPlace memory directory b := by
  obtain ⟨outer, last, hfinal, hstaging, -⟩ := exists_places ha directory memory.workingDirectory
  obtain ⟨outer', last', hfinal', hstaging', -⟩ := exists_places hb directory memory.workingDirectory
  have hsplit (x y : String) : outer ++ [x] = outer' ++ [y] ↔ outer = outer' ∧ x = y := by
    refine ⟨fun heq => by simpa using List.append_inj' heq rfl, ?_⟩
    rintro ⟨rfl, rfl⟩
    rfl
  rw [stagingPlace, stagingPlace, finalPlace, finalPlace, hfinal, hstaging, hfinal', hstaging',
    hsplit, hsplit, String.append_left_inj]

section Runs

variable {σ : Type} {disk : Disk (StateM σ)} {view : σ → Memory} {state : σ} {base : Memory}
  {waiting gone : List (String × String)} {staged all : List Staged} {files : List Path}

/-- What is staged when all artifacts are. -/
theorem stage_eq_ok (hdisk : disk.Atomic view)
    (h : (stage disk directory waiting staged state).1 = .ok all) :
    all = staged ++ waiting.map (stagedOf directory) ∧
      (view (stage disk directory waiting staged state).2).workingDirectory =
        (view state).workingDirectory := by
  induction waiting generalizing staged state with
  | nil =>
    obtain rfl : staged = all := Except.ok.inj h
    exact ⟨by simp, rfl⟩
  | cons a rest ih =>
    rcases stage_cases hdisk directory a rest staged state with
      ⟨error, next, -, hrun⟩ | ⟨next, hafter, hrun⟩
    · rw [hrun] at h
      cases h
    · rw [hrun] at h ⊢
      obtain ⟨place, -, -, hupdated⟩ := Memory.updated_of_write hafter
      obtain ⟨hall, hdirectory⟩ := ih h
      exact ⟨by simp [hall], hdirectory.trans hupdated.workingDirectory⟩

/-- Artifacts that are all moved were staged in places of their own: once one is moved, nothing is
left where it was staged. -/
theorem pairwise_of_place (hdisk : disk.Atomic view)
    (hdirectory : (view state).workingDirectory = base.workingDirectory)
    (hgone : ∀ a ∈ gone, (view state).view (stagingPlace base directory a) = none)
    (hcrossed : ∀ a ∈ gone ++ waiting, ∀ b ∈ gone ++ waiting,
      stagingPlace base directory a ≠ finalPlace base directory b)
    (h : (place disk (waiting.map (stagedOf directory)) state).1 = .ok ()) :
    (∀ a ∈ gone, ∀ b ∈ waiting, stagingPlace base directory a ≠ stagingPlace base directory b) ∧
      waiting.Pairwise fun a b => stagingPlace base directory a ≠ stagingPlace base directory b := by
  induction waiting generalizing gone state with
  | nil => simp
  | cons artifact rest ih =>
    rcases place_cases hdisk directory artifact rest state with
      ⟨error, next, -, hrun⟩ | ⟨next, hafter, hrun⟩
    · rw [hrun] at h
      cases h
    · rw [hrun] at h
      obtain ⟨content, hfile, -, between, hremoved, hput⟩ := updated_of_move hdirectory hafter
      have hfresh : ∀ a ∈ gone,
          stagingPlace base directory a ≠ stagingPlace base directory artifact := by
        intro a ha heq
        rw [← heq, hgone a ha] at hfile
        cases hfile
      rw [List.append_cons] at hcrossed
      have hnext : ∀ a ∈ gone ++ [artifact],
          (view next).view (stagingPlace base directory a) = none := by
        intro a ha
        have hcross : stagingPlace base directory a ≠ finalPlace base directory artifact :=
          hcrossed a (List.mem_append_left _ ha) artifact (by simp)
        rw [hput.view_of_ne hcross]
        rcases List.mem_append.mp ha with ha | ha
        · rw [hremoved.view_of_ne (hfresh a ha), hgone a ha]
        · rw [List.mem_singleton.mp ha, hremoved.view_self]
      have hdirectory : (view next).workingDirectory = base.workingDirectory :=
        hput.workingDirectory.trans (hremoved.workingDirectory.trans hdirectory)
      obtain ⟨hrest, hpairwise⟩ := ih hdirectory hnext hcrossed h
      exact ⟨fun a ha => List.forall_mem_cons.mpr ⟨hfresh a ha, hrest a (by simp [ha])⟩,
        List.pairwise_cons.mpr ⟨hrest artifact (by simp), hpairwise⟩⟩

/-- The steps of writing a unit that is written. -/
theorem steps_of_writeUnit (h : (writeUnit disk options unit state).1 = .ok files) :
    ∃ next staged last,
      disk.createDirectories (unitDirectory options.output unit.source) state = (.ok (), next) ∧
      stage disk (unitDirectory options.output unit.source) (artifacts options unit) [] next =
        (.ok staged, last) ∧
      (place disk staged last).1 = .ok () := by
  rw [writeUnit_eq] at h
  cases hcreate : disk.createDirectories (unitDirectory options.output unit.source) state with
  | mk result next =>
    rw [hcreate] at h
    cases result with
    | error error => cases h
    | ok =>
      dsimp only at h
      cases hstage : stage disk (unitDirectory options.output unit.source) (artifacts options unit)
          [] next with
      | mk result last =>
        rw [hstage] at h
        cases result with
        | error error => cases h
        | ok staged =>
          refine ⟨next, staged, last, rfl, hstage, ?_⟩
          dsimp only at h
          cases hplace : place disk staged last with
          | mk result final =>
            rw [hplace] at h
            cases result with
            | error error => cases h
            | ok => rfl

/-- **A unit that is written has places of its own for its artifacts**, whatever their names. -/
theorem apart_of_writeUnit (hdisk : disk.Atomic view)
    (h : (writeUnit disk options unit state).1 = .ok files) :
    Apart (view state) (unitDirectory options.output unit.source) (artifacts options unit) := by
  have hcrossed (base : Memory) : ∀ a ∈ artifacts options unit, ∀ b ∈ artifacts options unit,
      stagingPlace base (unitDirectory options.output unit.source) a ≠
        finalPlace base (unitDirectory options.output unit.source) b := by
    intro a ha b hb heq
    have hfinal : IsFinal (finalPlace base (unitDirectory options.output unit.source) b) :=
      isFinal_finalPlace hb
    rw [← heq] at hfinal
    exact not_isFinal_stagingPlace ha hfinal
  have hstaging : (artifacts options unit).Pairwise fun a b =>
      stagingPlace (view state) (unitDirectory options.output unit.source) a ≠
        stagingPlace (view state) (unitDirectory options.output unit.source) b := by
    obtain ⟨next, staged, last, hcreate, hstage, hplace⟩ := steps_of_writeUnit h
    have hstaged := stage_eq_ok hdisk (congrArg Prod.fst hstage)
    rw [hstage] at hstaged
    obtain ⟨rfl, hlast⟩ := hstaged
    have hnext : (view next).workingDirectory = (view state).workingDirectory := by
      have hgrows := hdisk.grows_createDirectories (unitDirectory options.output unit.source) state
      rw [hcreate] at hgrows
      exact hgrows.keeps.workingDirectory
    have hnone : ∀ a ∈ ([] : List (String × String)), (view last).view
        (stagingPlace (view state) (unitDirectory options.output unit.source) a) = none := by simp
    exact (pairwise_of_place hdisk (hlast.trans hnext) hnone (hcrossed (view state)) hplace).2
  refine ⟨hstaging, ?_, hcrossed (view state)⟩
  exact hstaging.imp_of_mem fun ha hb hne heq => hne ((stagingPlace_eq_iff ha hb).mpr heq)

/-! ### What is written -/

/-- The places of the artifacts of a unit, from where relative paths begin, with their texts. -/
def placed (start : List String) (options : Options) (unit : CompilationUnit) :
    List (List String × String) :=
  (artifacts options unit).map fun artifact =>
    ((finalOf (unitDirectory options.output unit.source) artifact).place start, artifact.2)

/-- Texts are written at places one after the other, so that a place holds the last one written
there. Other places for artifacts are as they were. -/
structure Wrote (before : Memory) (written : List (List String × String)) (after : Memory) :
    Prop where
  workingDirectory : after.workingDirectory = before.workingDirectory
  content? : ∀ place, IsFinal place →
    after.content? place = (written.reverse.lookup place).or (before.content? place)

theorem mem_of_lookup_reverse {written : List (List String × String)} {place : List String}
    {text : String} (h : written.reverse.lookup place = some text) : (place, text) ∈ written := by
  obtain ⟨front, back, hsplit, -⟩ := List.lookup_eq_some_iff.mp h
  rw [← List.mem_reverse, hsplit]
  simp

theorem Wrote.refl (memory : Memory) : Wrote memory [] memory :=
  ⟨rfl, fun _ _ => rfl⟩

theorem Wrote.trans {before between after : Memory} {written more : List (List String × String)}
    (h : Wrote before written between) (h' : Wrote between more after) :
    Wrote before (written ++ more) after := by
  refine ⟨h'.workingDirectory.trans h.workingDirectory, fun place hplace => ?_⟩
  rw [h'.content? place hplace, h.content? place hplace, List.reverse_append, List.lookup_append,
    Option.or_assoc]

/-- All texts that are written are there in the end exactly if those for one place are the same. -/
theorem Wrote.forall_content?_iff {before after : Memory} {written : List (List String × String)}
    (h : Wrote before written after) (hfinal : ∀ w ∈ written, IsFinal w.1) :
    (∀ w ∈ written, after.content? w.1 = some w.2) ↔
      ∀ w ∈ written, ∀ w' ∈ written, w.1 = w'.1 → w.2 = w'.2 := by
  constructor
  · intro hcontent w hw w' hw' hplace
    have htext := hcontent w hw
    rw [hplace, hcontent w' hw'] at htext
    exact (Option.some.inj htext).symm
  · intro hagree w hw
    rw [h.content? w.1 (hfinal w hw)]
    cases hlookup : written.reverse.lookup w.1 with
    | some text =>
      rw [Option.some_or, hagree w hw (w.1, text) (mem_of_lookup_reverse hlookup) rfl]
    | none => simpa using List.lookup_eq_none_iff.mp hlookup w (List.mem_reverse.mpr hw)

/-- When all artifacts have been moved, each place holds its text. -/
theorem Layout.wrote {before base after : Memory}
    (h : Layout base (unitDirectory options.output unit.source) [] (artifacts options unit)
      (artifacts options unit) after) (hgrows : before.Grows base) :
    Wrote before (placed before.workingDirectory options unit) after := by
  refine ⟨h.workingDirectory.trans hgrows.keeps.workingDirectory, fun place hplace => ?_⟩
  rw [← hgrows.keeps.workingDirectory, ← hgrows.content?]
  cases hlookup : (placed base.workingDirectory options unit).reverse.lookup place with
  | some text =>
    obtain ⟨a, ha, heq⟩ := List.mem_map.mp (mem_of_lookup_reverse hlookup)
    obtain ⟨rfl, rfl⟩ := Prod.mk.inj heq
    exact Memory.content?_of_file (h.isMoved a ha)
  | none =>
    refine Memory.content?_eq_of_view_eq (h.others place (fun a ha heq => ?_) fun a ha heq => ?_)
    · exact not_isFinal_stagingPlace ha (heq ▸ hplace)
    · have hmem : (place, a.2) ∈ (placed base.workingDirectory options unit).reverse := by
        rw [List.mem_reverse, heq]
        exact List.mem_map_of_mem ha
      simpa using List.lookup_eq_none_iff.mp hlookup _ hmem

/-- What is written of a unit: its artifacts at their places, and nothing else that is left. -/
theorem wrote_of_writeUnit (hdisk : disk.Atomic view)
    (h : (writeUnit disk options unit state).1 = .ok files) :
    files = (artifacts options unit).map
        (finalOf (unitDirectory options.output unit.source)) ∧
      Wrote (view state) (placed (view state).workingDirectory options unit)
        (view (writeUnit disk options unit state).2) := by
  have houtcome := outcome_writeUnit hdisk options unit state (apart_of_writeUnit hdisk h)
  rw [h] at houtcome
  cases houtcome with
  | written hgrows hlayout => exact ⟨rfl, hlayout.wrote hgrows⟩

end Runs

end Generate

end MessageSchema
