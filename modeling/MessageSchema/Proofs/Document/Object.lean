import Mathlib.Data.List.Forall2
import Mathlib.Data.List.Nodup
import Mathlib.Data.List.Pairwise
import Mathlib.Data.List.Perm.Basic
import MessageSchema.Document.Record
import MessageSchema.Json.Node
import MessageSchema.Proofs.Except

/-!
# Records that are read from objects

A reader of a record meets the members of an object one after the other. What it makes of them is a
list of contributions: the slot that a member belongs to, and the change that its value makes to the
record. Nothing else about the object matters, and if the slots of a record write apart from each
other, not even the order does.

## Main definitions

* `Contribution`: a slot and a change to the record.
* `Record.Gives`: what a member contributes.
* `Slot.Apart`, `Record.WritesApart`: changes to different slots may trade places.
* `Record.Restates`: a member that contributes what another one does.

## Main results

* `Record.decode_eq_ok_of_gives`, `Record.gives_of_decode_eq_ok`: a record from its contributions.
* `Record.decode_restated`: members restated in any order give the same record.
-/

namespace MessageSchema

variable {ρ : Type}

/-- What a member of an object contributes to a record. -/
structure Contribution (ρ : Type) where
  slot : Slot Json ρ
  change : ρ → ρ

namespace Contribution

/-- The record after several contributions. -/
def applyAll (start : ρ) (given : List (Contribution ρ)) : ρ :=
  given.foldl (fun value c => c.change value) start

@[simp] theorem applyAll_nil (start : ρ) : applyAll start [] = start := rfl

@[simp] theorem applyAll_cons (start : ρ) (c : Contribution ρ) (given : List (Contribution ρ)) :
    applyAll start (c :: given) = applyAll (c.change start) given := rfl

/-- Changes that may trade places make the same record in any order. -/
theorem applyAll_perm {given others : List (Contribution ρ)} (h : given.Perm others)
    (hcommute : ∀ c ∈ given, ∀ d ∈ given, ∀ value, d.change (c.change value) = c.change (d.change value))
    (start : ρ) : applyAll start given = applyAll start others :=
  h.foldl_eq' hcommute start

/-- The names of the slots that are contributed to. -/
def names (given : List (Contribution ρ)) : List String :=
  given.map (·.slot.name)

end Contribution

namespace Record

variable {record : Record Json ρ} {members : List (String × Json)} {given : List (Contribution ρ)}

/-- A member of an object belongs to a slot, and its value makes a change. -/
def Gives (record : Record Json ρ) (member : String × Json) (c : Contribution ρ) : Prop :=
  record.slot? member.1 = some c.slot ∧ c.slot.read member.2 = .ok c.change

theorem mem_slots_of_gives {member : String × Json} {c : Contribution ρ}
    (h : record.Gives member c) : c.slot ∈ record.slots :=
  List.mem_of_find?_eq_some h.1

theorem exists_gives (h : List.Forall₂ record.Gives members given) {c : Contribution ρ}
    (hc : c ∈ given) : ∃ member, record.Gives member c := by
  obtain ⟨i, hi, rfl⟩ := List.getElem_of_mem hc
  exact ⟨_, (List.forall₂_iff_get.mp h).2 i (h.length_eq ▸ hi) hi⟩

/-- The parts that a reader meets in an object. -/
def entries (members : List (String × Json)) : List (Entry Json) :=
  members.map fun (key, value) => ⟨.ok key, .key key, value⟩

/-- Members that contribute to different slots are read one after the other. -/
theorem readNamed_of_gives (h : List.Forall₂ record.Gives members given) {seen : List String}
    (hseen : ∀ c ∈ given, c.slot.name ∉ seen) (hnodup : (Contribution.names given).Nodup) (value : ρ) :
    record.readNamed (entries members) seen value =
      .ok ((Contribution.names given).reverse ++ seen, Contribution.applyAll value given) := by
  induction h generalizing seen value with
  | nil => rfl
  | @cons member c members given hmember _ ih =>
    obtain ⟨hslot, hread⟩ := hmember
    obtain ⟨hfirst, hrest⟩ := List.nodup_cons.mp hnodup
    have hnew : seen.contains c.slot.name = false := by
      simpa using hseen c List.mem_cons_self
    have hlater : ∀ d ∈ given, d.slot.name ∉ c.slot.name :: seen := by
      intro d hd hname
      rcases List.mem_cons.mp hname with hname | hname
      · exact hfirst (List.mem_map.mpr ⟨d, hd, hname⟩)
      · exact hseen d (List.mem_cons_of_mem _ hd) hname
    simp only [entries, List.map_cons, readNamed, Except.ok_bind, hslot, hnew, hread]
    exact (ih hlater hrest (c.change value)).trans (by simp [Contribution.names])

/-- What a reader that knows all names has made of the members it got to the end of. -/
theorem gives_of_readNamed (hclosed : record.closed = true) {seen seen' : List String}
    {value value' : ρ} (h : record.readNamed (entries members) seen value = .ok (seen', value')) :
    ∃ given, List.Forall₂ record.Gives members given ∧ (∀ c ∈ given, c.slot.name ∉ seen) ∧
      (Contribution.names given).Nodup ∧ seen' = (Contribution.names given).reverse ++ seen ∧
      value' = Contribution.applyAll value given := by
  induction members generalizing seen value with
  | nil =>
    cases h
    exact ⟨[], .nil, by simp, List.nodup_nil, rfl, rfl⟩
  | cons member rest ih =>
    obtain ⟨key, node⟩ := member
    simp only [entries, List.map_cons, readNamed, Except.ok_bind] at h
    split at h
    · rw [if_pos hclosed] at h
      cases h
    · rename_i slot hslot
      split at h
      · cases h
      · rename_i hnew
        obtain ⟨change, hread, h⟩ := Except.bind_eq_ok.mp h
        obtain ⟨given, hgiven, hseen, hnodup, rfl, rfl⟩ := ih h
        have hread : slot.read node = .ok change := Except.mapError_eq_ok.mp hread
        refine ⟨⟨slot, change⟩ :: given, .cons ⟨hslot, hread⟩ hgiven, ?_, ?_, ?_, rfl⟩
        · rintro c hc
          rcases List.mem_cons.mp hc with rfl | hc
          · simpa using hnew
          · exact fun hmem => hseen c hc (List.mem_cons_of_mem _ hmem)
        · refine List.nodup_cons.mpr ⟨fun hmem => ?_, hnodup⟩
          obtain ⟨c, hc, hname⟩ := List.mem_map.mp hmem
          exact hseen c hc (hname ▸ List.mem_cons_self)
        · simp [Contribution.names]

/-- Every field that has to be there is contributed to. -/
def Covers (record : Record Json ρ) (given : List (Contribution ρ)) : Prop :=
  ∀ slot ∈ record.slots, slot.presence = .required → slot.name ∈ Contribution.names given

theorem find?_missing_eq_none_iff (names : List String) :
    (record.slots.find? fun slot => slot.presence = .required && !names.contains slot.name) = none ↔
      ∀ slot ∈ record.slots, slot.presence = .required → slot.name ∈ names := by
  simp [List.find?_eq_none]

/-- The record that an object gives, from what its members contribute. -/
theorem decode_eq_ok_of_gives (h : List.Forall₂ record.Gives members given)
    (hnodup : (Contribution.names given).Nodup) (hcovers : record.Covers given) :
    record.decode (.object members) = .ok (Contribution.applyAll record.start given) := by
  have hnamed := readNamed_of_gives h (fun _ _ => List.not_mem_nil) hnodup record.start
  have hmissing := (find?_missing_eq_none_iff ((Contribution.names given).reverse ++ [])).mpr
    fun slot hslot hrequired => by simpa using hcovers slot hslot hrequired
  rw [decode, Decoded.here, Except.mapError_eq_ok]
  simp only [Node.parts, Json.readParts, Except.ok_bind]
  rw [← entries, hnamed, Except.ok_bind]
  simp only [hmissing]
  rfl

/-- What the members of an object contribute to the record that it gives, where all names have to be
known. -/
theorem gives_of_decode_eq_ok (hclosed : record.closed = true) {r : ρ}
    (h : record.decode (.object members) = .ok r) :
    ∃ given, List.Forall₂ record.Gives members given ∧ (Contribution.names given).Nodup ∧
      record.Covers given ∧ r = Contribution.applyAll record.start given := by
  rw [decode, Decoded.here, Except.mapError_eq_ok] at h
  simp only [Node.parts, Json.readParts, Except.ok_bind] at h
  obtain ⟨⟨seen, value⟩, hnamed, h⟩ := Except.bind_eq_ok.mp h
  obtain ⟨given, hgiven, -, hnodup, rfl, rfl⟩ := gives_of_readNamed hclosed hnamed
  split at h
  · cases h
  · rename_i hmissing
    refine ⟨given, hgiven, hnodup, fun slot hslot hrequired => ?_, (Except.pure_eq_ok.mp h).symm⟩
    simpa using (find?_missing_eq_none_iff _).mp hmissing slot hslot hrequired

end Record

/-! ### Members in another order -/

/-- Changes to the two slots may trade places. -/
def Slot.Apart (a b : Slot Json ρ) : Prop :=
  ∀ x y f g, a.read x = .ok f → b.read y = .ok g → ∀ value, f (g value) = g (f value)

theorem Slot.Apart.symm {a b : Slot Json ρ} (h : a.Apart b) : b.Apart a :=
  fun x y f g hf hg value => (h y x g f hg hf value).symm

instance : Std.Symm (Slot.Apart (ρ := ρ)) := ⟨fun _ _ => Slot.Apart.symm⟩

/-- Slots are apart if what one sets does not depend on what the other one has set. -/
theorem Slot.apart_of_sets {a b : Slot Json ρ} {α β : Type} {readA : Json → Decoded α}
    {readB : Json → Decoded β} {setA : α → ρ → ρ} {setB : β → ρ → ρ}
    (ha : a.read = fun node => setA <$> readA node) (hb : b.read = fun node => setB <$> readB node)
    (h : ∀ x y value, setA x (setB y value) = setB y (setA x value)) : a.Apart b := by
  intro x y f g hf hg value
  rw [ha] at hf
  rw [hb] at hg
  obtain ⟨u, -, rfl⟩ := Except.map_eq_ok.mp hf
  obtain ⟨v, -, rfl⟩ := Except.map_eq_ok.mp hg
  exact h u v value

namespace Record

variable {record : Record Json ρ} {members others : List (String × Json)}
  {given : List (Contribution ρ)}

/-- Changes to different slots of the record may trade places. -/
def WritesApart (record : Record Json ρ) : Prop :=
  record.slots.Pairwise Slot.Apart

/-- The contributions to different slots may trade places. -/
theorem WritesApart.commute (h : record.WritesApart)
    (hgiven : List.Forall₂ record.Gives members given) (hnodup : (Contribution.names given).Nodup) :
    ∀ c ∈ given, ∀ d ∈ given, ∀ value, d.change (c.change value) = c.change (d.change value) := by
  intro c hc d hd value
  by_cases hname : c.slot.name = d.slot.name
  · rw [List.inj_on_of_nodup_map hnodup hc hd hname]
  · obtain ⟨first, hfirst⟩ := exists_gives hgiven hc
    obtain ⟨second, hsecond⟩ := exists_gives hgiven hd
    have hapart := List.Pairwise.forall h (mem_slots_of_gives hsecond) (mem_slots_of_gives hfirst)
      fun heq => hname (heq ▸ rfl)
    exact hapart _ _ _ _ hsecond.2 hfirst.2 value

/-- The second member contributes what the first one does. -/
def Restates (record : Record Json ρ) (member other : String × Json) : Prop :=
  ∀ c, record.Gives member c → record.Gives other c

theorem gives_restated (hrestates : List.Forall₂ record.Restates members others)
    (hgiven : List.Forall₂ record.Gives members given) : List.Forall₂ record.Gives others given := by
  induction hrestates generalizing given with
  | nil =>
    cases hgiven
    exact .nil
  | cons hrestated _ ih =>
    cases hgiven with
    | cons hmember hgiven => exact .cons (hrestated _ hmember) (ih hgiven)

/-- **The order of members does not matter.** An object whose members restate those of another one, in
any order, gives the same record. -/
theorem decode_restated (hclosed : record.closed = true) (hapart : record.WritesApart)
    {arranged : List (String × Json)} (hperm : members.Perm arranged)
    (hrestates : List.Forall₂ record.Restates arranged others) {r : ρ}
    (h : record.decode (.object members) = .ok r) : record.decode (.object others) = .ok r := by
  obtain ⟨given, hgiven, hnodup, hcovers, rfl⟩ := gives_of_decode_eq_ok hclosed h
  obtain ⟨given', hgiven', hperm'⟩ := List.perm_comp_forall₂ hperm.symm hgiven
  have hothers := gives_restated hrestates hgiven'
  have hnames : (Contribution.names given').Perm (Contribution.names given) := hperm'.map _
  rw [decode_eq_ok_of_gives hothers (hnames.nodup_iff.mpr hnodup)
    fun slot hslot hrequired => hnames.mem_iff.mpr (hcovers slot hslot hrequired)]
  rw [Contribution.applyAll_perm hperm'.symm (hapart.commute hgiven hnodup)]

end Record

end MessageSchema
