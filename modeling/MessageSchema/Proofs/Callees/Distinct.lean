import MessageSchema.Proofs.CompilationUnit
import Mathlib.Data.List.Forall2

/-!
# When two messages get the same builder

The name of a builder is the name of its message with every dot turned into an underscore. A message
of the file is named below its package, a shared message by its full name behind the stem of the file,
and a message of another file below its package in the module of that file. What gets lost is which
underscores were dots, and for a message of the file whether it is named like a shared message behind
the stem.

## Main definitions

* `CompilationUnit.SpelledAlike`: two names differ in dots against underscores at most.
* `CompilationUnit.Clash`: two messages get the same builder in the unit of a file.
* `CompilationUnit.Distinguishes`: no two messages of a unit have the same callee.

## Main results

* `CompilationUnit.calleeOf_eq_iff`: two messages have the same callee exactly where they clash.
* `CompilationUnit.distinguishes_iff_not_clash`: the callees of a unit are distinct exactly where no two
  of its messages clash.
-/

namespace MessageSchema

namespace CompilationUnit

variable {pool : Pool} {set : DescriptorSet} {settings : Settings} {file : File}
  {unit : CompilationUnit} {selected : List Message} {message other : Message}
  {name name' stem stem' ident ident' package : String}

/-! ### Names without dots -/

/-- Two characters become the same in the name of a builder. -/
def LooksAlike (c d : Char) : Prop :=
  c = d ∨ c ∈ ['.', '_'] ∧ d ∈ ['.', '_']

/-- Two names are the same, apart from dots in one that are underscores in the other. -/
def SpelledAlike (name other : String) : Prop :=
  List.Forall₂ LooksAlike name.toList other.toList

instance (c d : Char) : Decidable (LooksAlike c d) :=
  inferInstanceAs (Decidable (_ ∨ _))

instance (name other : String) : Decidable (SpelledAlike name other) :=
  inferInstanceAs (Decidable (List.Forall₂ _ _ _))

theorem looksAlike_iff {c d : Char} :
    (if c = '.' then '_' else c) = (if d = '.' then '_' else d) ↔ LooksAlike c d := by
  unfold LooksAlike
  split <;> split <;> simp_all [eq_comm]

theorem flattened_eq_iff : flattened name = flattened name' ↔ SpelledAlike name name' := by
  rw [← String.toList_inj, flattened, flattened, String.toList_ofList, String.toList_ofList,
    ← List.forall₂_eq_eq_eq, List.forall₂_map_left_iff, List.forall₂_map_right_iff]
  simp only [looksAlike_iff]
  rfl

theorem flattened_append : flattened (name ++ name') = flattened name ++ flattened name' := by
  simp [flattened]

theorem dot_not_mem_flattened (name : String) : '.' ∉ (flattened name).toList := by
  rw [flattened, String.toList_ofList, List.mem_map]
  rintro ⟨c, -, hc⟩
  split at hc
  · cases hc
  · contradiction

/-- A name without dots stays as it is. -/
theorem flattened_of_no_dot (h : '.' ∉ name.toList) : flattened name = name := by
  have hsame : ∀ c ∈ name.toList, (if c = '.' then '_' else c) = id c := by
    intro c hc
    rw [if_neg (ne_of_mem_of_not_mem hc h), id_eq]
  rw [flattened, List.map_congr_left hsame, List.map_id, String.ofList_toList]

/-- The name of a message below the package that it is declared in. -/
def nameBelow (pool : Pool) (message : Message) : String :=
  message.relativeName ((pool.packageOf? message.fullName).getD "")

/-! ### Names without colons

The module of another file is set off from the builder by colons. That a callee names a builder of
the module itself, or which module it names, can be told from it if the names have no colons. -/

/-- A name has no colon in it. -/
def NoColon (name : String) : Prop :=
  ':' ∉ name.toList

instance (name : String) : Decidable (NoColon name) :=
  inferInstanceAs (Decidable (_ ∉ _))

theorem noColon_append : NoColon (name ++ name') ↔ NoColon name ∧ NoColon name' := by
  simp [NoColon]

theorem NoColon.flattened (h : NoColon name) : NoColon (flattened name) := by
  rw [NoColon, CompilationUnit.flattened, String.toList_ofList, List.mem_map]
  rintro ⟨c, hc, hcolon⟩
  split at hcolon
  · cases hcolon
  · exact h (hcolon ▸ hc)

theorem NoColon.localIdent (h : NoColon message.fullName) (package : String) :
    NoColon (localIdent message package) := by
  refine NoColon.flattened ?_
  unfold Message.relativeName
  split
  · exact h
  · cases hstrip : Text.stripStart? (package ++ ".") message.fullName with
    | none => exact h
    | some rest =>
      rw [Text.stripStart?_eq_some_iff.mp hstrip] at h
      exact (noColon_append.mp h).2

theorem noColon_nameBelow (h : NoColon message.fullName) (pool : Pool) :
    NoColon (flattened (nameBelow pool message)) :=
  h.localIdent _

theorem noColon_builderName : NoColon (builderName ident) ↔ NoColon ident := by
  rw [builderName, noColon_append]
  exact and_iff_left (by decide)

theorem NoColon.sharedIdent (hstem : NoColon stem) (h : NoColon name) :
    NoColon (sharedIdent stem name) :=
  noColon_append.mpr ⟨noColon_append.mpr ⟨hstem, by decide⟩, h.flattened⟩

/-- What follows the last separator in a text can be told from what stands in front of it. -/
theorem append_cons_inj {α : Type} {a : α} {front front' back back' : List α} (h : a ∉ back)
    (h' : a ∉ back') : front ++ a :: back = front' ++ a :: back' ↔ front = front' ∧ back = back' := by
  constructor
  · intro heq
    rcases List.append_eq_append_iff.mp heq with ⟨between, hfront, hback⟩ | ⟨between, hfront, hback⟩
    · cases between with
      | nil => exact ⟨by simpa using hfront.symm, by simpa using hback⟩
      | cons b rest => exact absurd (by simp [(List.cons.inj hback).2]) h
    · cases between with
      | nil => exact ⟨by simpa using hfront, by simpa using hback.symm⟩
      | cons b rest => exact absurd (by simp [(List.cons.inj hback).2]) h'
  · rintro ⟨rfl, rfl⟩
    rfl

/-! ### Callees -/

theorem builderName_inj : builderName ident = builderName ident' ↔ ident = ident' :=
  String.append_left_inj _

/-- A builder of the module of another file. -/
def outside (stem ident : String) : String :=
  "super::" ++ moduleName stem ++ "::" ++ builderName ident

theorem outside_inj (h : NoColon ident) (h' : NoColon ident') :
    outside stem ident = outside stem' ident' ↔ stem = stem' ∧ ident = ident' := by
  have hcut : ∀ stem ident, (outside stem ident).toList =
      (("super::" ++ moduleName stem).toList ++ [':']) ++ ':' :: (builderName ident).toList := by
    intro stem ident
    simp [outside]
  rw [← String.toList_inj, hcut, hcut,
    append_cons_inj (noColon_builderName.mpr h) (noColon_builderName.mpr h'), List.append_left_inj,
    String.toList_inj, String.toList_inj, builderName_inj, String.append_right_inj, moduleName,
    moduleName, String.append_left_inj]

theorem outside_ne_builderName (h : NoColon ident) : outside stem' ident' ≠ builderName ident := by
  intro heq
  refine (noColon_builderName.mpr h : NoColon (builderName ident)) ?_
  rw [← heq, outside]
  simp

/-- A message of the file is named like a shared message behind the stem of the file. -/
def ClashBehindStem (file : File) (own shared : Message) : Prop :=
  '.' ∉ file.stem.toList ∧
    SpelledAlike (own.relativeName file.package) (file.stem ++ "_" ++ shared.fullName)

theorem localIdent_eq_sharedIdent : localIdent message file.package =
    sharedIdent file.stem other.fullName ↔ ClashBehindStem file message other := by
  have hstem : '.' ∉ file.stem.toList → sharedIdent file.stem other.fullName =
      flattened (file.stem ++ "_" ++ other.fullName) := by
    intro hdot
    have hfront : '.' ∉ (file.stem ++ "_").toList := by simp [hdot]
    rw [flattened_append, flattened_of_no_dot hfront]
    rfl
  constructor
  · intro heq
    have hdot : '.' ∉ file.stem.toList := by
      intro hmem
      refine dot_not_mem_flattened (message.relativeName file.package) ?_
      rw [← localIdent, heq, sharedIdent]
      simp [hmem]
    rw [hstem hdot, localIdent, flattened_eq_iff] at heq
    exact ⟨hdot, heq⟩
  · rintro ⟨hdot, halike⟩
    rw [hstem hdot, localIdent, flattened_eq_iff]
    exact halike

/-- Two messages get the same builder in the unit of a file, given where they get their schemas. -/
def ClashFrom (pool : Pool) (file : File) (message other : Message) :
    Option Origin → Option Origin → Prop
  | some .own, some .own =>
    SpelledAlike (message.relativeName file.package) (other.relativeName file.package)
  | some .shared, some .shared => SpelledAlike message.fullName other.fullName
  | some .own, some .shared => ClashBehindStem file message other
  | some .shared, some .own => ClashBehindStem file other message
  | none, none => stemOfPath message.file = stemOfPath other.file ∧
    SpelledAlike (nameBelow pool message) (nameBelow pool other)
  | none, some _ => False
  | some _, none => False

/-- Two messages get the same builder in the unit of a file. -/
def Clash (pool : Pool) (settings : Settings) (file : File) (message other : Message) : Prop :=
  ClashFrom pool file message other (originIn settings file message) (originIn settings file other)

instance (own shared : Message) : Decidable (ClashBehindStem file own shared) :=
  inferInstanceAs (Decidable (_ ∧ _))

instance : ∀ origin origin', Decidable (ClashFrom pool file message other origin origin')
  | some .own, some .own | some .shared, some .shared => inferInstanceAs (Decidable (SpelledAlike _ _))
  | some .own, some .shared | some .shared, some .own =>
    inferInstanceAs (Decidable (ClashBehindStem _ _ _))
  | none, none => inferInstanceAs (Decidable (_ ∧ _))
  | none, some .own | none, some .shared | some .own, none | some .shared, none => .isFalse id

instance : Decidable (Clash pool settings file message other) :=
  inferInstanceAs (Decidable (ClashFrom _ _ _ _ _ _))

/-- **Which messages get the same builder.** -/
theorem calleeOf_eq_iff (hstem : NoColon file.stem) (hmessage : NoColon message.fullName)
    (hother : NoColon other.fullName) :
    calleeOf pool settings file message = calleeOf pool settings file other ↔
      Clash pool settings file message other := by
  have hident : ∀ message : Message, NoColon message.fullName →
      ∀ origin, NoColon (identOf file origin message) := by
    rintro message h (_ | _)
    · exact h.localIdent file.package
    · exact hstem.sharedIdent h
  have houtside : ∀ message : Message, originIn settings file message = none →
      calleeOf pool settings file message =
        outside (stemOfPath message.file) (flattened (nameBelow pool message)) := by
    intro message h
    rw [calleeOf, h]
    rfl
  have hinside : ∀ (message : Message) (origin : Origin), originIn settings file message = some origin →
      calleeOf pool settings file message = builderName (identOf file origin message) := by
    intro message origin h
    rw [calleeOf, h]
  unfold Clash ClashFrom
  split
  case h_1 h h' =>
    rw [hinside _ _ h, hinside _ _ h', builderName_inj, identOf, identOf, localIdent, localIdent,
      flattened_eq_iff]
  case h_2 h h' =>
    rw [hinside _ _ h, hinside _ _ h', builderName_inj, identOf, identOf, sharedIdent, sharedIdent,
      String.append_right_inj, flattened_eq_iff]
  case h_3 h h' =>
    rw [hinside _ _ h, hinside _ _ h', builderName_inj]
    exact localIdent_eq_sharedIdent
  case h_4 h h' =>
    rw [hinside _ _ h, hinside _ _ h', builderName_inj, eq_comm]
    exact localIdent_eq_sharedIdent
  case h_5 h h' =>
    rw [houtside _ h, houtside _ h', outside_inj (noColon_nameBelow hmessage pool) (noColon_nameBelow hother pool),
      flattened_eq_iff]
  case h_6 origin h h' =>
    rw [houtside _ h, hinside _ _ h']
    exact iff_of_false (outside_ne_builderName (hident other hother origin)) id
  case h_7 origin h h' =>
    rw [houtside _ h', hinside _ _ h]
    exact iff_of_false (outside_ne_builderName (hident message hmessage origin)).symm id

/-! ### The callees of a unit -/

/-- No two messages of a unit have the same callee. -/
def Distinguishes (unit : CompilationUnit) : Prop :=
  ∀ name other builder, unit.callees.get? name = some builder →
    unit.callees.get? other = some builder → name = other

theorem get?_callees (hcompile : compile pool settings file = .ok (some unit))
    (hselected : selectionOf pool file = .ok selected)
    (hnodup : (selected.map (·.fullName)).Nodup) {builder : String} :
    unit.callees.get? name = some builder ↔ ∃ message ∈ selected, message.fullName = name ∧
      calleeOf pool settings file message = builder := by
  obtain ⟨found, hfound, -, hcallees, -⟩ := compile_eq_ok hcompile
  obtain rfl : selected = found := Except.ok.inj (hselected.symm.trans hfound)
  rw [hcallees]
  constructor
  · intro h
    obtain ⟨message, hmessage, heq⟩ :=
      List.mem_map.mp (Dictionary.mem_of_mem_ofList (Dictionary.mem_of_get? h))
    obtain ⟨hname, hbuilder⟩ := Prod.ext_iff.mp heq
    exact ⟨message, hmessage, hname, hbuilder⟩
  · rintro ⟨message, hmessage, rfl, rfl⟩
    refine Dictionary.get?_ofList ?_ (List.mem_map.mpr ⟨message, hmessage, rfl⟩)
    rw [Dictionary.keys, List.map_map]
    exact hnodup

theorem idents_generateAll {names : List String} {kept : List (Origin × Message)}
    {types : List GeneratedType} (h : generateAll pool names file kept = .ok types) :
    types.map (·.ident) = kept.map fun e => identOf file e.1 e.2 :=
  map_generateAll (fun _ _ h => (generate_eq_ok h).2.1) h

theorem nodup_keptOf (h : selected.Nodup) : (keptOf settings file selected).Nodup := by
  have hpart : ∀ origin : Origin,
      ((selected.filter (originIn settings file · = some origin)).map (origin, ·)).Nodup :=
    fun origin => (h.filter _).map fun _ _ heq => (Prod.ext_iff.mp heq).2
  refine List.nodup_append.mpr ⟨hpart .own, hpart .shared, ?_⟩
  intro e he e' he' heq
  obtain ⟨_, -, rfl⟩ := List.mem_map.mp he
  obtain ⟨_, -, rfl⟩ := List.mem_map.mp he'
  cases heq

/-- The functions of a module have names of their own if the callees are distinct. -/
theorem Distinguishes.nodup_idents (h : unit.Distinguishes)
    (hcompile : compile pool settings file = .ok (some unit))
    (hselected : selectionOf pool file = .ok selected)
    (hnodup : (selected.map (·.fullName)).Nodup) : (unit.types.map (·.ident)).Nodup := by
  obtain ⟨found, hfound, htypes, -⟩ := compile_eq_ok hcompile
  obtain rfl : selected = found := Except.ok.inj (hselected.symm.trans hfound)
  rw [idents_generateAll htypes]
  refine (nodup_keptOf hnodup.of_map).map_on ?_
  rintro ⟨origin, message⟩ hmessage ⟨origin', other⟩ hother heq
  obtain ⟨hmem, horigin⟩ := mem_keptOf.mp hmessage
  obtain ⟨hmem', horigin'⟩ := mem_keptOf.mp hother
  have hcallee : calleeOf pool settings file message = calleeOf pool settings file other := by
    rw [calleeOf, calleeOf, horigin, horigin']
    exact builderName_inj.mpr heq
  have hname : message.fullName = other.fullName :=
    h _ _ _ ((get?_callees hcompile hselected hnodup).mpr ⟨message, hmem, rfl, rfl⟩)
      ((get?_callees hcompile hselected hnodup).mpr ⟨other, hmem', rfl, hcallee.symm⟩)
  obtain rfl : message = other := List.inj_on_of_nodup_map hnodup hmem hmem' hname
  obtain rfl : origin = origin' := Option.some.inj (horigin.symm.trans horigin')
  rfl

/-- **Which builders collide.** The callees of a unit are distinct exactly if no two messages of it
clash, and the functions of its module then have names of their own. -/
theorem distinguishes_iff_not_clash (hunique : set.DeclaredOnce) (hfile : file ∈ set.files)
    (hstem : NoColon file.stem) (hcolon : ∀ message ∈ set.messages, NoColon message.fullName)
    (hcompile : compile set.pool settings file = .ok (some unit))
    (hselected : selectionOf set.pool file = .ok selected) :
    (unit.Distinguishes ↔ ∀ message ∈ selected, ∀ other ∈ selected,
      Clash set.pool settings file message other → message = other) ∧
    (unit.Distinguishes → (unit.types.map (·.ident)).Nodup) := by
  obtain ⟨hnodup, hdeclared⟩ := mem_messages_of_selectionOf hunique hfile hselected
  have hclash : ∀ message ∈ selected, ∀ other ∈ selected,
      (calleeOf set.pool settings file message = calleeOf set.pool settings file other ↔
        Clash set.pool settings file message other) := fun message hmessage other hother =>
    calleeOf_eq_iff hstem (hcolon message (hdeclared message hmessage))
      (hcolon other (hdeclared other hother))
  refine ⟨⟨fun h message hmessage other hother hsame => ?_, fun h => ?_⟩,
    fun h => h.nodup_idents hcompile hselected hnodup⟩
  · refine List.inj_on_of_nodup_map hnodup hmessage hother ?_
    have hcallee := (hclash message hmessage other hother).mpr hsame
    exact h _ _ _ ((get?_callees hcompile hselected hnodup).mpr ⟨message, hmessage, rfl, rfl⟩)
      ((get?_callees hcompile hselected hnodup).mpr ⟨other, hother, rfl, hcallee.symm⟩)
  · intro name name' builder hname hname'
    obtain ⟨message, hmessage, rfl, hbuilder⟩ := (get?_callees hcompile hselected hnodup).mp hname
    obtain ⟨other, hother, rfl, hbuilder'⟩ := (get?_callees hcompile hselected hnodup).mp hname'
    have hsame := (hclash message hmessage other hother).mp (hbuilder.trans hbuilder'.symm)
    rw [h message hmessage other hother hsame]

/-- Orders with their lines, which refer to a time and to a parcel of other files. -/
def orderFile : File where
  path := "shop/order.proto"
  package := "shop"
  overlay := some (.object [("generate", .boolean true)])
  messages := [
    { name := "Order", fullName := "shop.Order", file := "shop/order.proto",
      fields := [
        { name := "at", number := 1, kind := .message, typeName := some "google.Time" },
        { name := "parcel", number := 2, kind := .message, typeName := some "post.Order" }],
      nested := [{ name := "Line", fullName := "shop.Order.Line", file := "shop/order.proto" }] }]

/-- The orders with the files that they refer to, and a file in which two names are spelled alike. -/
def orderSet : DescriptorSet where
  files := [orderFile,
    { path := "google/time.proto", package := "google"
      messages := [{ name := "Time", fullName := "google.Time", file := "google/time.proto" }] },
    { path := "post/order.proto", package := "post"
      messages := [{ name := "Order", fullName := "post.Order", file := "post/order.proto" }] }]
  targets := []

/-- Callees of all three kinds, two of them of messages with one name in different packages. -/
theorem distinguishes_iff_not_clash_orders : ∃ unit selected,
    orderSet.DeclaredOnce ∧ orderFile ∈ orderSet.files ∧ NoColon orderFile.stem ∧
    (∀ message ∈ orderSet.messages, NoColon message.fullName) ∧
    compile orderSet.pool {} orderFile = .ok (some unit) ∧
    selectionOf orderSet.pool orderFile = .ok selected ∧
    unit.callees.map (·.2) = ["order_google_Time_json_schema_with_defs",
      "super::order_jsonschema::Order_json_schema_with_defs", "Order_json_schema_with_defs",
      "Order_Line_json_schema_with_defs"] ∧
    unit.Distinguishes ∧ (unit.types.map (·.ident)).Nodup := by
  obtain ⟨selected, hselected, hclash⟩ :
      ∃ selected, selectionOf orderSet.pool orderFile = .ok selected ∧ decide
        (∀ message ∈ selected, ∀ other ∈ selected,
          Clash orderSet.pool {} orderFile message other → message.fullName = other.fullName) = true :=
    Except.exists_of_succeedsWith (by decide +kernel)
  obtain ⟨result, hcompile, hresult⟩ :
      ∃ result, compile orderSet.pool {} orderFile = .ok result ∧
        (result.any fun unit => unit.callees.map (·.2) = ["order_google_Time_json_schema_with_defs",
          "super::order_jsonschema::Order_json_schema_with_defs", "Order_json_schema_with_defs",
          "Order_Line_json_schema_with_defs"]) = true :=
    Except.exists_of_succeedsWith (by decide +kernel)
  obtain ⟨unit, rfl, hcallees⟩ := (Option.any_eq_true _ result).mp hresult
  have hunique : orderSet.DeclaredOnce := by decide
  have hfile : orderFile ∈ orderSet.files := List.mem_cons_self
  have hstem : NoColon orderFile.stem := by decide
  have hcolon : ∀ message ∈ orderSet.messages, NoColon message.fullName := by decide
  obtain ⟨hiff, hnodup⟩ :=
    distinguishes_iff_not_clash hunique hfile hstem hcolon hcompile hselected
  have hdeclared := (mem_messages_of_selectionOf hunique hfile hselected).2
  have hdistinct : unit.Distinguishes := hiff.mpr fun message hmessage other hother h =>
    hunique.eq_of_fullName_eq (hdeclared message hmessage) (hdeclared other hother)
      (of_decide_eq_true hclash message hmessage other hother h)
  exact ⟨unit, selected, hunique, hfile, hstem, hcolon, hcompile, hselected,
    of_decide_eq_true hcallees, hdistinct, hnodup hdistinct⟩

/-- A nested message, and a message whose name has an underscore where that one has a dot. -/
def outlineFile : File where
  path := "a.proto"
  package := "a"
  overlay := some (.object [("generate", .boolean true)])
  messages := [
    { name := "M", fullName := "a.M", file := "a.proto",
      nested := [{ name := "N", fullName := "a.M.N", file := "a.proto" }] },
    { name := "M_N", fullName := "a.M_N", file := "a.proto" }]

/-- The file alone. -/
def outlineSet : DescriptorSet where
  files := [outlineFile]
  targets := []

/-- **Builders may collide.** It is not true that the callees of every unit are distinct. -/
theorem not_distinguishes : ¬ ∀ (set : DescriptorSet) (settings : Settings) (file : File)
    (unit : CompilationUnit), set.DeclaredOnce → file ∈ set.files →
    compile set.pool settings file = .ok (some unit) → unit.Distinguishes := by
  intro h
  obtain ⟨result, hcompile, hresult⟩ :
      ∃ result, compile outlineSet.pool {} outlineFile = .ok result ∧
        (result.any fun unit => unit.callees.get? "a.M.N" = some "M_N_json_schema_with_defs" ∧
          unit.callees.get? "a.M_N" = some "M_N_json_schema_with_defs") = true :=
    Except.exists_of_succeedsWith (by decide +kernel)
  obtain ⟨unit, rfl, hcallees⟩ := (Option.any_eq_true _ result).mp hresult
  obtain ⟨hdotted, hunderscored⟩ := of_decide_eq_true hcallees
  have hsame : "a.M.N" = "a.M_N" := h outlineSet {} outlineFile unit (by decide)
    (List.mem_singleton_self _) hcompile _ _ _ hdotted hunderscored
  exact absurd hsame (by decide)

end CompilationUnit

end MessageSchema
