import MessageSchema.Proofs.Overlay.Bounds
import MessageSchema.Proofs.Overlay.Silence
import MessageSchema.Proofs.Overlay.Spelling

/-!
# The canonical form of an overlay

Options that are written to JSON have one spelling: camel case, counts as numbers, and nothing where
they say nothing. Reading it gives the options back, but for the sign of a zero bound, which says
nothing and is left out. So each accepted overlay stands for its options in any of its spellings, and
the options stand for a canonical one.

## Main definitions

* `FieldOptions.canonical`: options without a sign on a zero bound.
* `FieldOptions.SameByValue`: options that differ in nothing but the sign of a zero.

## Main results

* `FieldOptions.ofJson_encode`: what is written is read as the canonical options.
* `Field.options_respelled_and_encoded`: an accepted overlay, its spellings and its canonical form.
-/

namespace MessageSchema

namespace Binary64

theorem isZero_iff_units_eq_zero {x : Binary64} : x.isZero = true ↔ x.units = 0 := by
  refine ⟨units_of_isZero, fun h => ?_⟩
  rw [units] at h
  split at h <;> simpa [isZero] using h

/-- The same number, without a sign if it is zero. -/
def unsignedZero (x : Binary64) : Binary64 :=
  if x.isZero then .zero false else x

theorem units_unsignedZero (x : Binary64) : x.unsignedZero.units = x.units := by
  rw [unsignedZero]
  split
  · rename_i h
    exact (units_of_isZero rfl).trans (units_of_isZero h).symm
  · rfl

theorem unsignedZero_of_isZero {x : Binary64} (h : x.unsignedZero.isZero = true) :
    x.unsignedZero = .zero false := by
  rw [unsignedZero] at h ⊢
  split
  · rfl
  · rename_i hx
    rw [if_neg hx] at h
    exact absurd h hx

end Binary64

namespace FieldOptions

variable {arrange : Json → Json} {start o o' : FieldOptions} {name : String}

/-- The options without a sign on a zero bound. -/
def canonical (o : FieldOptions) : FieldOptions :=
  { o with minimum := o.minimum.unsignedZero, maximum := o.maximum.unsignedZero }

/-- The options are the same, numbers being compared by value. -/
def SameByValue (o o' : FieldOptions) : Prop :=
  o = { o' with minimum := o.minimum, maximum := o.maximum } ∧
    o.minimum.units = o'.minimum.units ∧ o.maximum.units = o'.maximum.units

theorem sameByValue_canonical (o : FieldOptions) : o.canonical.SameByValue o :=
  ⟨rfl, o.minimum.units_unsignedZero, o.maximum.units_unsignedZero⟩

/-- What is wrong with options does not hang on the sign of a zero. -/
theorem SameByValue.fault?_eq_none (h : o.SameByValue o') (hfault : o'.fault? = none) :
    o.fault? = none := by
  obtain ⟨heq, hminimum, hmaximum⟩ := h
  have hzero {x y : Binary64} (h : x.units = y.units) : x.isZero = y.isZero := by
    rw [Bool.eq_iff_iff, Binary64.isZero_iff_units_eq_zero, Binary64.isZero_iff_units_eq_zero, h]
  have hlt : o.maximum < o.minimum ↔ o'.maximum < o'.minimum := by
    change o.maximum.units < o.minimum.units ↔ o'.maximum.units < o'.minimum.units
    rw [hminimum, hmaximum]
  have hpattern : o.pattern = o'.pattern := by rw [heq]
  have hcounts : o.countBounds = o'.countBounds := by rw [heq]; rfl
  rw [fault?] at hfault ⊢
  rw [hpattern, hcounts, hzero hminimum, hzero hmaximum]
  split at hfault
  · cases hfault
  · rename_i hcompiles
    rw [if_neg hcompiles]
    split at hfault
    · cases hfault
    · simpa [hlt] using hfault

/-! ### Writing and reading -/

theorem restores_option {α : Type} {read : Json → Decoded α} {write : α → Json}
    {saysNothing : α → Bool} {get : FieldOptions → α} {set : α → FieldOptions → FieldOptions}
    (hread : read (arrange (write (get o))) = .ok (get o))
    (hnothing : saysNothing (get o) = true → set (get o) start = start) :
    (option name read write saysNothing get set).Restores arrange start o (set (get o)) := by
  have hsparse : (Member.sparse name read (fun x => if saysNothing x then none else some (write x))
      get set).Restores arrange start o (set (get o)) := by
    refine .sparse (fun node hnode => ?_) fun hwrite => hnothing (by simpa using hwrite)
    split at hnode
    · cases hnode
    · exact Option.some.inj hnode ▸ hread
  exact ⟨hsparse.written, hsparse.unwritten⟩

theorem restores_switch (harrange : Json.Arranges arrange) {get : FieldOptions → Bool}
    {set : Bool → FieldOptions → FieldOptions} (h : set false start = start) :
    (switch name get set).Restores arrange start o (set (get o)) :=
  restores_option (by rw [harrange.leaf rfl]; rfl) fun hnothing => by
    rw [show get o = false by simpa using hnothing, h]

theorem restores_text (harrange : Json.Arranges arrange) {get : FieldOptions → String}
    {set : String → FieldOptions → FieldOptions} (h : set "" start = start) :
    (text name get set).Restores arrange start o (set (get o)) :=
  restores_option (by rw [harrange.leaf rfl]; rfl) fun hnothing => by
    rw [String.isEmpty_iff.mp hnothing, h]

theorem restores_count (harrange : Json.Arranges arrange) {get : FieldOptions → UInt64}
    {set : UInt64 → FieldOptions → FieldOptions} (h : set 0 start = start) :
    (count name get set).Restores arrange start o (set (get o)) :=
  restores_option (by rw [harrange.leaf rfl]; exact readCount_eq_ok_iff.mpr rfl) fun hnothing => by
    rw [of_decide_eq_true hnothing, h]

theorem restores_bound (harrange : Json.Arranges arrange) {get : FieldOptions → Binary64}
    {set : Binary64 → FieldOptions → FieldOptions}
    (hzero : (get o).isZero = true → get o = .zero false) (h : set (.zero false) start = start) :
    (bound name get set).Restores arrange start o (set (get o)) :=
  restores_option (by rw [harrange.leaf rfl]; rfl) fun hnothing => by rw [hzero hnothing, h]

theorem exists_restores (harrange : Json.Arranges arrange) (o : FieldOptions) :
    ∃ changes, List.Forall₂ (Member.Restores arrange blank o.canonical) members changes ∧
      changes.Pairwise Member.Commute ∧
      changes.foldl (fun v change => change v) blank = o.canonical := by
  have hminimum := Binary64.unsignedZero_of_isZero (x := o.minimum)
  have hmaximum := Binary64.unsignedZero_of_isZero (x := o.maximum)
  refine ⟨_, .cons (restores_switch harrange rfl) <| .cons (restores_text harrange rfl) <|
    .cons (restores_text harrange rfl) <| .cons (restores_text harrange rfl) <|
    .cons (restores_text harrange rfl) <| .cons (restores_bound harrange hminimum rfl) <|
    .cons (restores_bound harrange hmaximum rfl) <| .cons (restores_switch harrange rfl) <|
    .cons (restores_switch harrange rfl) <| .cons (restores_count harrange rfl) <|
    .cons (restores_count harrange rfl) <| .cons (restores_count harrange rfl) <|
    .cons (restores_count harrange rfl) <| .cons (restores_switch harrange rfl) <|
    .cons (restores_count harrange rfl) <| .cons (restores_count harrange rfl) <|
    .cons (restores_text harrange rfl) <| .cons (restores_text harrange rfl) .nil, ?_, rfl⟩
  simp only [List.pairwise_cons, List.forall_mem_cons, List.not_mem_nil, false_imp_iff, implies_true,
    and_true, List.Pairwise.nil]
  and_intros <;> exact fun _ => rfl

/-- A bound that says nothing is left out whatever its sign. -/
theorem write_bound_canonical {get : FieldOptions → Binary64}
    {set : Binary64 → FieldOptions → FieldOptions} (h : get o.canonical = (get o).unsignedZero) :
    (bound name get set).write o.canonical = (bound name get set).write o := by
  change (if (get o.canonical).isZero then none else some (Json.real (get o.canonical))) =
    if (get o).isZero then none else some (Json.real (get o))
  rw [h]
  cases hzero : (get o).isZero with
  | true => rw [Binary64.unsignedZero, if_pos hzero]; rfl
  | false => simp [Binary64.unsignedZero, hzero]

theorem encode_canonical (o : FieldOptions) :
    Member.encode members o.canonical = Member.encode members o := by
  have hwrite : ∀ member ∈ members, member.write o.canonical = member.write o := by
    simp only [members, List.forall_mem_cons, List.not_mem_nil, false_imp_iff, implies_true, and_true]
    exact ⟨rfl, rfl, rfl, rfl, rfl, write_bound_canonical rfl, write_bound_canonical rfl, rfl, rfl, rfl,
      rfl, rfl, rfl, rfl, rfl, rfl, rfl, rfl⟩
  rw [Member.encode_eq, Member.encode_eq, Member.written, Member.written]
  exact congrArg Json.object (List.filterMap_congr fun member hmember => by rw [hwrite member hmember])

/-- **What is written is read as the canonical options.** -/
theorem ofJson_encode (harrange : Json.Arranges arrange) (o : FieldOptions) :
    ofJson (arrange (Member.encode members o)) = .ok o.canonical := by
  obtain ⟨changes, hrestores, hcommute, hall⟩ := exists_restores harrange o
  rw [← encode_canonical, ofJson_eq]
  exact Member.decode_encode harrange rfl hrestores nodup_names hcommute hall

end FieldOptions

/-! ### Overlays of a field -/

namespace Field

variable {owner : Message} {field : Field} {members : List (String × Json)} {o : FieldOptions}

theorem readOverlay_object_eq_ok_iff {α : Type} {read : Json → Decoded α} {scope : String}
    {options : Option α} : readOverlay read scope (some (.object members)) = .ok options ↔
      ∃ o, options = some o ∧ read (.object members) = .ok o := by
  rw [readOverlay]
  · cases read (.object members) <;> simp [eq_comm]
  · simp

/-- The options of an overlay are those that are read from it and agree with each other. -/
theorem options_withOverlay_eq_ok_iff :
    (field.withOverlay (.object members)).options owner = .ok (some o) ↔
      FieldOptions.ofJson (.object members) = .ok o ∧ o.fault? = none := by
  constructor
  · intro h
    refine ⟨?_, fault?_of_options h⟩
    obtain ⟨options, hread, h⟩ := Except.bind_eq_ok.mp h
    obtain ⟨found, rfl, hfound⟩ := readOverlay_object_eq_ok_iff.mp hread
    obtain ⟨⟨⟩, -, h⟩ := Except.bind_eq_ok.mp h
    rwa [← Option.some.inj (Except.pure_eq_ok.mp h)]
  · rintro ⟨hread, hfault⟩
    refine Except.bind_eq_ok.mpr ⟨some o, readOverlay_object_eq_ok_iff.mpr ⟨o, rfl, hread⟩, ?_⟩
    exact Except.bind_eq_ok.mpr ⟨(), by rw [FieldOptions.check, hfault], rfl⟩

/-- **Overlays of a field have a canonical form.** If an overlay is accepted, so is each of its
spellings, with the same options; and what is written for the options is accepted with options that are
the same by value. -/
theorem options_respelled_and_encoded
    (h : (field.withOverlay (.object members)).options owner = .ok (some o)) :
    (∀ others, FieldOptions.Respelled members others →
      (field.withOverlay (.object others)).options owner = .ok (some o)) ∧
    ∃ o', (field.withOverlay (Member.encode FieldOptions.members o)).options owner = .ok (some o') ∧
      o'.SameByValue o := by
  obtain ⟨hread, hfault⟩ := options_withOverlay_eq_ok_iff.mp h
  constructor
  · intro others hrespelled
    exact options_withOverlay_eq_ok_iff.mpr ⟨FieldOptions.ofJson_respelled hrespelled hread, hfault⟩
  · have hsame := o.sameByValue_canonical
    have hwritten := FieldOptions.ofJson_encode Json.arranges_id o
    exact ⟨o.canonical, options_withOverlay_eq_ok_iff.mpr
      ⟨hwritten, hsame.fault?_eq_none hfault⟩, hsame⟩

/-- The message that a parcel is. -/
def parcel : Message where
  name := "Parcel"
  fullName := "post.Parcel"
  file := "post.proto"

/-- The codes on a parcel. -/
def codes : Field where
  name := "codes"
  number := 1
  kind := .string
  cardinality := .list

/-- Up to three codes of two to eight digits, with an exclusive zero below. -/
def codesOverlay : List (String × Json) :=
  [("exclusive_minimum", .boolean true), ("maxItems", .integer 3), ("max_length", .text " +008"),
    ("min_length", .integer 2), ("minimum", .text "-0.0"), ("pattern", .text "^[0-9]+$")]

/-- The same with all names but one spelled otherwise, and all counts; key order is another one. -/
def respelledCodes : List (String × Json) :=
  [("exclusiveMinimum", .boolean true), ("maxLength", .integer 8), ("max_items", .text "3"),
    ("minLength", .text "02"), ("minimum", .text "-0.0"), ("pattern", .text "^[0-9]+$")]

/-- An overlay in two spellings; its canonical form is without the sign of the zero. -/
theorem options_respelled_and_encoded_codes : ∃ o o',
    (codes.withOverlay (.object codesOverlay)).options parcel = .ok (some o) ∧
    FieldOptions.Respelled codesOverlay respelledCodes ∧
    (codes.withOverlay (.object respelledCodes)).options parcel = .ok (some o) ∧
    (codes.withOverlay (Member.encode FieldOptions.members o)).options parcel = .ok (some o') ∧
    o'.SameByValue o ∧ o.maxLength = 8 ∧ o.minimum = .zero true := by
  obtain ⟨options, hoptions, ho⟩ : ∃ options,
      (codes.withOverlay (.object codesOverlay)).options parcel = .ok options ∧
        (options.any fun o => o.maxLength = 8 ∧ o.minimum = .zero true) = true :=
    Except.exists_of_succeedsWith (by decide)
  obtain ⟨o, rfl, ho⟩ := (Option.any_eq_true _ _).mp ho
  obtain ⟨hlength, hminimum⟩ := of_decide_eq_true ho
  obtain ⟨hrespelled, o', hencoded, hsame⟩ := options_respelled_and_encoded hoptions
  have hother : FieldOptions.Respelled codesOverlay respelledCodes := by
    refine ⟨_, (List.Perm.swap _ _ _).cons _, ?_⟩
    have hnil : Text.IsBlank [] := Text.isBlank_nil
    have hblank : Text.IsBlank [' '] := by decide
    refine .cons ⟨"exclusiveMinimum", by decide, .inr (by decide), .inl rfl, .inl rfl⟩ <|
      .cons ⟨"maxLength", by decide, .inr (by decide), .inl rfl, .inr ⟨by decide, 8,
        ⟨[' '], ['+'], ['0', '0', '8'], [], by decide, hblank, hnil, .inr rfl, by decide,
          List.all_eq_true.mp rfl, rfl⟩, rfl⟩⟩ <|
      .cons ⟨"maxItems", by decide, .inl rfl, .inr (by decide), .inr ⟨by decide, 3, rfl,
        ⟨[], [], ['3'], [], by decide, hnil, hnil, .inl rfl, by decide, List.all_eq_true.mp rfl,
          rfl⟩⟩⟩ <|
      .cons ⟨"minLength", by decide, .inr (by decide), .inl rfl, .inr ⟨by decide, 2, rfl,
        ⟨[], [], ['0', '2'], [], by decide, hnil, hnil, .inl rfl, by decide, List.all_eq_true.mp rfl,
          rfl⟩⟩⟩ <|
      .cons ⟨"minimum", by decide, .inl rfl, .inl rfl, .inl rfl⟩ <|
      .cons ⟨"pattern", by decide, .inl rfl, .inl rfl, .inl rfl⟩ .nil
  exact ⟨o, o', hoptions, hother, hrespelled _ hother, hencoded, hsame, hlength, hminimum⟩

end Field

end MessageSchema
