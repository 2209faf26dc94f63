import MessageSchema.Proofs.Builder.Calls
import MessageSchema.Proofs.CompilationUnit

/-!
# Which called builders are emitted

The code of a message calls the builders of the messages that it refers to. A unit emits those of the
messages of its own file and those of shared messages. Every other builder is called in the module of
the file that declares its message; under which name, is settled in the unit that calls without a look
at the other unit. The names agree, but the other unit has the builder only if its file is compiled
and selects the message by itself.

## Main definitions

* `CompilationUnit.Emits`: a unit has a function that registers a message.
* `CompilationUnit.Provided`: a called builder is emitted for its message, in the unit that calls it or
  in that of the file that declares the message.
* `CompilationUnit.Offered`: a message gets a schema in the unit that refers to it, or in the unit of
  the file that declares it.

## Main results

* `CompilationUnit.provided_iff_offered`: the builders of which messages are emitted.
-/

namespace MessageSchema

namespace DescriptorSet

variable {set : DescriptorSet} {file : File} {message : Message}

/-- Every message records the path of the file that declares it. -/
def RecordsFiles (set : DescriptorSet) : Prop :=
  ∀ file ∈ set.files, ∀ message ∈ Message.allWithNested file.messages, message.file = file.path

instance (set : DescriptorSet) : Decidable set.RecordsFiles :=
  inferInstanceAs (Decidable (∀ file ∈ set.files, _))

theorem mem_messageIndex (hfile : file ∈ set.files)
    (hmessage : message ∈ Message.allWithNested file.messages) :
    (message, file.package) ∈ set.messageIndex :=
  List.mem_flatMap.mpr
    ⟨file, List.mem_reverse.mpr hfile, List.mem_map.mpr ⟨message, hmessage, rfl⟩⟩

/-- The package of a message is that of the file that declares it. -/
theorem DeclaredOnce.packageOf? (h : set.DeclaredOnce) (hdot : set.Undotted) (hfile : file ∈ set.files)
    (hmessage : message ∈ Message.allWithNested file.messages) :
    set.packageOf? message.fullName = some file.package := by
  have hdeclared : message ∈ set.messages := mem_messages.mpr ⟨file, hfile, hmessage⟩
  have hbare : Text.withoutDot message.fullName = message.fullName :=
    Text.withoutDot_of_no_dot (hdot message hdeclared)
  have hmem := mem_messageIndex hfile hmessage
  have hnodup : (set.messageIndex.map (·.1.fullName)).Nodup := by
    simpa [DeclaredOnce, messages, List.map_map, Function.comp_def] using h
  obtain ⟨found, hfound⟩ := Option.isSome_iff_exists.mp <|
    List.find?_isSome (p := (·.1.fullName = message.fullName)) |>.mpr
      ⟨(message, file.package), hmem, by simp⟩
  have hname : found.1.fullName = message.fullName := by simpa using List.find?_some hfound
  obtain rfl : found = (message, file.package) :=
    List.inj_on_of_nodup_map hnodup (List.mem_of_find?_eq_some hfound) hmem hname
  rw [DescriptorSet.packageOf?, hbare, hfound]
  rfl

end DescriptorSet

namespace CompilationUnit

variable {set : DescriptorSet} {pool : Pool} {settings : Settings} {file home : File}
  {unit homeUnit : CompilationUnit} {selected : List Message} {message : Message}
  {fullName function : String} {origin : Origin}

/-! ### What a unit emits -/

/-- A unit has a function of a name that registers a message. -/
def Emits (unit : CompilationUnit) (fullName function : String) : Prop :=
  ∃ type ∈ unit.types, type.fullName = fullName ∧
    (Builder.registerFunction unit.callees type).name = function

/-- A unit has the builder of every selected message that gets a schema in it. -/
theorem emits_of_originIn (hcompile : compile pool settings file = .ok (some unit))
    (hselected : selectionOf pool file = .ok selected) (hmessage : message ∈ selected)
    (horigin : originIn settings file message = some origin) :
    unit.Emits message.fullName (builderName (identOf file origin message)) := by
  obtain ⟨found, hfound, htypes, -⟩ := compile_eq_ok hcompile
  obtain rfl : selected = found := Except.ok.inj (hselected.symm.trans hfound)
  obtain ⟨type, htype, hgenerate⟩ :=
    (mem_generateAll htypes).2 (origin, message) (mem_keptOf.mpr ⟨hmessage, horigin⟩)
  obtain ⟨hname, hident, -⟩ := generate_eq_ok hgenerate
  exact ⟨type, htype, hname, by rw [Builder.registerFunction, hident]⟩

/-- A unit has no other builders. -/
theorem Emits.exists_selected (h : unit.Emits fullName function)
    (hcompile : compile pool settings file = .ok (some unit))
    (hselected : selectionOf pool file = .ok selected) : ∃ message ∈ selected,
      message.fullName = fullName ∧ originIn settings file message ≠ none := by
  obtain ⟨type, htype, rfl, -⟩ := h
  obtain ⟨message, hmessage, origin, horigin, hname, -⟩ := mem_types hcompile hselected htype
  exact ⟨message, hmessage, hname.symm, by rw [horigin]; nofun⟩

/-- A file that selects a message of its own is compiled to a unit, if it is compiled at all. -/
theorem exists_unit (hcompile : ∃ result, compile pool settings file = .ok result)
    (hselected : selectionOf pool file = .ok selected) (hmessage : message ∈ selected)
    (horigin : originIn settings file message = some origin) :
    ∃ unit, compile pool settings file = .ok (some unit) := by
  obtain ⟨_ | unit, hcompile⟩ := hcompile
  · obtain ⟨options, hoptions, h⟩ := Except.bind_eq_ok.mp hcompile
    obtain ⟨found, hfound, h⟩ := Except.bind_eq_ok.mp h
    obtain rfl : selected = found := Except.ok.inj <|
      hselected.symm.trans (Except.bind_eq_ok.mpr ⟨options, hoptions, hfound⟩)
    have hkept : (origin, message) ∈ keptOf settings file selected :=
      mem_keptOf.mpr ⟨hmessage, horigin⟩
    dsimp only at h
    split at h
    · rename_i hempty
      rw [keptOf, List.isEmpty_iff.mp hempty] at hkept
      cases hkept
    · obtain ⟨types, -, h⟩ := Except.bind_eq_ok.mp h
      cases h
  · exact ⟨unit, hcompile⟩

theorem stem_of_compile (h : compile pool settings file = .ok (some unit)) :
    unit.stem = file.stem := by
  obtain ⟨_, -, h⟩ := Except.bind_eq_ok.mp h
  obtain ⟨_, -, h⟩ := Except.bind_eq_ok.mp h
  dsimp only at h
  split at h
  · cases h
  · obtain ⟨_, -, h⟩ := Except.bind_eq_ok.mp h
    obtain rfl := Option.some.inj (Except.pure_eq_ok.mp h)
    -- plain `rfl` would run the text of the stem
    dsimp only

/-! ### Builders of other units -/

/-- A builder that is called in a unit for a message is emitted for it: in the unit itself, or, called
by way of a module, in the unit to which the file that declares the message is compiled. -/
def Provided (set : DescriptorSet) (settings : Settings) (unit : CompilationUnit)
    (message : Message) (builder : String) : Prop :=
  unit.Emits message.fullName builder ∨
    ∃ home ∈ set.targetFiles, message ∈ Message.allWithNested home.messages ∧
      ∃ homeUnit, compile set.pool settings home = .ok (some homeUnit) ∧
        ∃ function, builder = "super::" ++ moduleName homeUnit.stem ++ "::" ++ function ∧
          homeUnit.Emits message.fullName function

/-- A message gets a schema in the unit of a file that refers to it, or in the unit of the file that
declares it: it belongs to the former or is shared, or the latter is a target that selects it. -/
def Offered (set : DescriptorSet) (settings : Settings) (file : File) (message : Message) : Prop :=
  originIn settings file message ≠ none ∨
    ∃ home ∈ set.targetFiles, message ∈ Message.allWithNested home.messages ∧
      ∃ selected, selectionOf set.pool home = .ok selected ∧ message ∈ selected

/-- A message that its own file selects has its builder there under the name by which other files call
it. -/
theorem exists_home (hunique : set.DeclaredOnce) (hdot : set.Undotted) (hrecords : set.RecordsFiles)
    (hhome : home ∈ set.files) (hdeclares : message ∈ Message.allWithNested home.messages)
    (hcompiles : ∃ result, compile set.pool settings home = .ok result)
    (hselected : selectionOf set.pool home = .ok selected) (hmessage : message ∈ selected)
    (horigin : originIn settings file message = none) :
    ∃ homeUnit, compile set.pool settings home = .ok (some homeUnit) ∧
      ∃ function, calleeOf set.pool settings file message =
        "super::" ++ moduleName homeUnit.stem ++ "::" ++ function ∧
          homeUnit.Emits message.fullName function := by
  have hpath : message.file = home.path := hrecords home hhome message hdeclares
  have hown : originIn settings home message = some .own := by rw [originIn, if_pos hpath]
  have hpackage : set.pool.packageOf? message.fullName = some home.package :=
    hunique.packageOf? hdot hhome hdeclares
  obtain ⟨homeUnit, hunit⟩ := exists_unit hcompiles hselected hmessage hown
  refine ⟨homeUnit, hunit, _, ?_, emits_of_originIn hunit hselected hmessage hown⟩
  rw [calleeOf, horigin, hpackage, Option.getD_some, hpath, stem_of_compile hunit]
  rfl

/-- **Which called builders are emitted.** Every builder that the code of a message calls is the callee
of a message that it refers to. It is emitted for this message, where it is called or in the module by
way of which it is called, exactly if the message gets a schema in one of the two units. -/
theorem provided_iff_offered (hunique : set.DeclaredOnce) (hdot : set.Undotted)
    (hrecords : set.RecordsFiles)
    (hcompiles : ∀ target ∈ set.targetFiles, ∃ result, compile set.pool settings target = .ok result)
    (hfile : file ∈ set.files) (hcompile : compile set.pool settings file = .ok (some unit)) :
    ∀ type ∈ unit.types, ∀ builder ∈ (Builder.codeOf unit.callees type.shape).calls,
      ∃ message ∈ set.messages, message.fullName ∈ type.shape.referencedNames ∧
        unit.callees.get? message.fullName = some builder ∧
        (Provided set settings unit message builder ↔ Offered set settings file message) := by
  intro type _ builder hcall
  obtain ⟨selected, hselected, -, hcallees, -⟩ := compile_eq_ok hcompile
  obtain ⟨hnodup, hdeclared⟩ := mem_messages_of_selectionOf hunique hfile hselected
  obtain ⟨ref, href, name, hname, hbuilder⟩ := Builder.isCallee_of_mem_calls _ hcall
  obtain ⟨message, hmessage, hcallee⟩ := List.mem_map.mp <|
    Dictionary.mem_of_mem_ofList (Dictionary.mem_of_get? (hcallees ▸ hbuilder))
  obtain ⟨rfl, rfl⟩ := Prod.ext_iff.mp hcallee
  have htarget : ∀ {home : File}, home ∈ set.targetFiles → home ∈ set.files := fun h =>
    (List.mem_filter.mp h).1
  have hsame : ∀ {other : Message}, other ∈ set.messages → other.fullName = message.fullName →
      other = message := fun hother => hunique.eq_of_fullName_eq hother (hdeclared message hmessage)
  refine ⟨message, hdeclared message hmessage, List.mem_filterMap.mpr ⟨ref, href, hname⟩, hbuilder,
    ?_, ?_⟩
  · rintro (hemits | ⟨home, hhome, hdeclares, homeUnit, hunit, function, -, hemits⟩)
    · obtain ⟨other, hother, hother', horigin⟩ := hemits.exists_selected hcompile hselected
      obtain rfl := hsame (hdeclared other hother) hother'
      exact .inl horigin
    · obtain ⟨chosen, hchosen, -⟩ := compile_eq_ok hunit
      obtain ⟨other, hother, hother', -⟩ := hemits.exists_selected hunit hchosen
      obtain ⟨-, hdeclaredHome⟩ := mem_messages_of_selectionOf hunique (htarget hhome) hchosen
      obtain rfl := hsame (hdeclaredHome other hother) hother'
      exact .inr ⟨home, hhome, hdeclares, chosen, hchosen, hother⟩
  · intro hoffered
    cases horigin : originIn settings file message with
    | some origin =>
      refine .inl ?_
      have hcallee : calleeOf set.pool settings file message =
          builderName (identOf file origin message) := by rw [calleeOf, horigin]
      rw [hcallee]
      exact emits_of_originIn hcompile hselected hmessage horigin
    | none =>
      obtain ⟨home, hhome, hdeclares, chosen, hchosen, hmem⟩ :=
        hoffered.resolve_left (not_not_intro horigin)
      exact .inr ⟨home, hhome, hdeclares, exists_home hunique hdot hrecords (htarget hhome) hdeclares
        (hcompiles home hhome) hchosen hmem horigin⟩

/-- A user, who has an address. -/
def userFile : File where
  path := "test/user.proto"
  package := "test"
  overlay := some (.object [("generate", .boolean true)])
  messages := [
    { name := "User", fullName := "test.User", file := "test/user.proto",
      fields := [
        { name := "home", number := 1, kind := .message, typeName := some "test.Address" }] }]

/-- The address, in a file that asks to be compiled or does not. -/
def addressFile (generates : Bool) : File where
  path := "test/address.proto"
  package := "test"
  overlay := some (.object [("generate", .boolean generates)])
  messages := [{ name := "Address", fullName := "test.Address", file := "test/address.proto" }]

/-- The user and the address. -/
def userSet (generates : Bool) : DescriptorSet where
  files := [userFile, addressFile generates]
  targets := []

/-- The builder of an address, as it is called for the address of a user. -/
def addressBuilder : String :=
  "super::address_jsonschema::Address_json_schema_with_defs"

/-- Whether a file is compiled, be it to nothing. -/
def compiles (set : DescriptorSet) (file : File) : Bool :=
  Except.succeedsWith (fun _ => true) (compile set.pool {} file)

theorem compiles_userSet (generates : Bool) : ∀ target ∈ (userSet generates).targetFiles,
    ∃ result, compile (userSet generates).pool {} target = .ok result := by
  have hall : ∀ generates, (userSet generates).targetFiles.all (compiles (userSet generates)) = true := by
    decide +kernel
  intro target htarget
  obtain ⟨result, hresult, -⟩ :=
    Except.exists_of_succeedsWith (List.all_eq_true.mp (hall generates) target htarget)
  exact ⟨result, hresult⟩

/-- The unit of users calls the builder of addresses and has no other builder than that of users. -/
theorem exists_unit_userSet (generates : Bool) : ∃ unit,
    compile (userSet generates).pool {} userFile = .ok (some unit) ∧
    unit.callees.get? "test.User" = some "User_json_schema_with_defs" ∧
    unit.types.map (·.ident) = ["User"] ∧
    ∃ type ∈ unit.types, addressBuilder ∈ (Builder.codeOf unit.callees type.shape).calls := by
  have hall : ∀ generates, Except.succeedsWith (fun unit => unit.any fun unit =>
      unit.callees.get? "test.User" = some "User_json_schema_with_defs" ∧
      unit.types.map (·.ident) = ["User"] ∧ ∃ type ∈ unit.types,
        addressBuilder ∈ (Builder.codeOf unit.callees type.shape).calls)
      (compile (userSet generates).pool {} userFile) = true := by
    decide +kernel
  obtain ⟨result, hcompile, hresult⟩ := Except.exists_of_succeedsWith (hall generates)
  obtain ⟨unit, rfl, hunit⟩ := (Option.any_eq_true _ result).mp hresult
  exact ⟨unit, hcompile, of_decide_eq_true hunit⟩

/-- A message with that builder is the address. -/
theorem eq_address {generates : Bool} (hmessage : message ∈ (userSet generates).messages)
    (huser : unit.callees.get? "test.User" = some "User_json_schema_with_defs")
    (hcallee : unit.callees.get? message.fullName = some addressBuilder) :
    message.fullName = "test.Address" ∧
      message ∈ Message.allWithNested (addressFile generates).messages := by
  have husers : ∀ message ∈ Message.allWithNested userFile.messages,
      message.fullName = "test.User" := by decide
  have haddresses : ∀ generates, ∀ message ∈ Message.allWithNested (addressFile generates).messages,
      message.fullName = "test.Address" := by decide
  obtain ⟨file, hfile, hdeclares⟩ := DescriptorSet.mem_messages.mp hmessage
  obtain rfl | rfl : file = userFile ∨ file = addressFile generates := by simpa [userSet] using hfile
  · rw [husers message hdeclares, huser] at hcallee
    exact absurd hcallee (by decide)
  · exact ⟨haddresses generates message hdeclares, hdeclares⟩

/-- The builder of addresses is emitted if the file of addresses is compiled. -/
theorem provided_iff_offered_user : ∃ unit message selected,
    (userSet true).DeclaredOnce ∧ (userSet true).Undotted ∧ (userSet true).RecordsFiles ∧
    (∀ target ∈ (userSet true).targetFiles,
      ∃ result, compile (userSet true).pool {} target = .ok result) ∧
    userFile ∈ (userSet true).files ∧ compile (userSet true).pool {} userFile = .ok (some unit) ∧
    (∃ type ∈ unit.types, addressBuilder ∈ (Builder.codeOf unit.callees type.shape).calls) ∧
    selectionOf (userSet true).pool (addressFile true) = .ok selected ∧ message ∈ selected ∧
    unit.callees.get? message.fullName = some addressBuilder ∧
    Provided (userSet true) {} unit message addressBuilder := by
  have hunique : (userSet true).DeclaredOnce := by decide
  have hdot : (userSet true).Undotted := by decide
  have hrecords : (userSet true).RecordsFiles := by decide
  have hfile : userFile ∈ (userSet true).files := List.mem_cons_self
  obtain ⟨unit, hcompile, huser, -, type, htype, hcall⟩ := exists_unit_userSet true
  obtain ⟨message, hmessage, -, hcallee, hiff⟩ := provided_iff_offered hunique hdot hrecords
    (compiles_userSet true) hfile hcompile type htype addressBuilder hcall
  obtain ⟨selected, hselected, haddress⟩ :
      ∃ selected, selectionOf (userSet true).pool (addressFile true) = .ok selected ∧
        decide (selected.map (·.fullName) = ["test.Address"]) = true :=
    Except.exists_of_succeedsWith (by decide +kernel)
  have hhome : addressFile true ∈ (userSet true).targetFiles :=
    List.mem_filter.mpr ⟨List.mem_cons_of_mem _ (List.mem_singleton_self _), rfl⟩
  obtain ⟨hname, hdeclares⟩ := eq_address hmessage huser hcallee
  obtain ⟨-, hdeclared⟩ := mem_messages_of_selectionOf hunique
    (List.mem_cons_of_mem _ (List.mem_singleton_self _)) hselected
  have hmem : message ∈ selected := by
    obtain ⟨chosen, hchosen, hchosenName⟩ : ∃ chosen ∈ selected, chosen.fullName = "test.Address" :=
      List.mem_map.mp (by rw [of_decide_eq_true haddress]; exact List.mem_singleton_self _)
    rwa [← hunique.eq_of_fullName_eq (hdeclared chosen hchosen) hmessage (hchosenName.trans hname.symm)]
  exact ⟨unit, message, selected, hunique, hdot, hrecords, compiles_userSet true, hfile, hcompile,
    ⟨type, htype, hcall⟩, hselected, hmem, hcallee,
    hiff.mpr (.inr ⟨_, hhome, hdeclares, selected, hselected, hmem⟩)⟩

/-- **A builder may be called that is not emitted.** The files of a set may all compile and a unit
still call a builder that none of them is compiled to. -/
theorem not_provided : ¬ ∀ (set : DescriptorSet) (settings : Settings) (file : File)
    (unit : CompilationUnit), set.DeclaredOnce → set.Undotted → set.RecordsFiles →
    (set.files.map (·.path)).Nodup →
    (∀ target ∈ set.targetFiles, ∃ result, compile set.pool settings target = .ok result) →
    file ∈ set.targetFiles → compile set.pool settings file = .ok (some unit) →
    ∀ type ∈ unit.types, ∀ builder ∈ (Builder.codeOf unit.callees type.shape).calls,
      ∃ message ∈ set.messages, message.fullName ∈ type.shape.referencedNames ∧
        unit.callees.get? message.fullName = some builder ∧
        Provided set settings unit message builder := by
  intro h
  obtain ⟨unit, hcompile, huser, hidents, type, htype, hcall⟩ := exists_unit_userSet false
  obtain ⟨message, hmessage, -, hcallee, hprovided⟩ := h (userSet false) {} userFile unit (by decide)
    (by decide) (by decide) (by decide) (compiles_userSet false)
    (List.mem_filter.mpr ⟨List.mem_cons_self, rfl⟩) hcompile type htype addressBuilder hcall
  rcases hprovided with ⟨type, htype, -, hname⟩ | ⟨home, hhome, hdeclares, homeUnit, hunit, -⟩
  · have hident : type.ident ∈ unit.types.map (·.ident) := List.mem_map_of_mem htype
    rw [hidents, List.mem_singleton] at hident
    have hne : builderName "User" ≠ addressBuilder := by decide
    rw [Builder.registerFunction, hident] at hname
    exact hne hname
  · obtain ⟨result, hresult, hnone⟩ : ∃ result,
        compile (userSet false).pool {} (addressFile false) = .ok result ∧ result.isNone = true :=
      Except.exists_of_succeedsWith (by decide +kernel)
    obtain rfl | rfl : home = userFile ∨ home = addressFile false := by
      simpa [userSet] using (List.mem_filter.mp hhome).1
    · have hall : ∀ message ∈ Message.allWithNested userFile.messages,
          message.fullName ≠ "test.Address" := by decide
      exact hall message hdeclares (eq_address hmessage huser hcallee).1
    · rw [hunit] at hresult
      obtain rfl := Except.ok.inj hresult
      cases hnone

end CompilationUnit

end MessageSchema
