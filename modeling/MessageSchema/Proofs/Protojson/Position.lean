import MessageSchema.Protojson.Load
import MessageSchema.Proofs.Descriptor.Places

/-!
# Where a declaration stands in a document

A message is addressed by its position in the file, then by its position in the message around it, and
so on. The address also gives the path under which the source of the message is described: each
position stands behind the number of the field that holds it. Of several descriptions with one path
the last one that has a comment gives the comment.

## Main definitions

* `Protojson.RawFile.Declares`: the message at an address, in a document as `File.Declares` among
  descriptors.
* `Protojson.sourcePath`: the path of the message at an address.
* `Protojson.Commented`: the comment of the last description of a path that has one.
* `Protojson.lastComment`: the comment of the last description of a path.
* `Protojson.fullNameOf`: the full name of the parts of a name.

## Main results

* `Protojson.commented_commentAt`: the comment that is looked up is that of the path.
-/

namespace MessageSchema

namespace Protojson

/-- The message at an address in a document, with the names of the messages around it and its own. -/
inductive RawFile.Declares (file : RawFile) : List ℕ → List String → RawMessage → Prop
  | outer {i : ℕ} {raw : RawMessage} (h : file.messages[i]? = some raw) :
      Declares file [i] [raw.name] raw
  | inner {address : List ℕ} {names : List String} {around raw : RawMessage} {i : ℕ}
      (haround : Declares file address names around) (h : around.nested[i]? = some raw) :
      Declares file (address ++ [i]) (names ++ [raw.name]) raw

/-- The path of the message at an address: field 4 of a file holds messages, and field 3 of a message
holds those nested in it. -/
def sourcePath : List ℕ → List Int
  | [] => []
  | i :: address => 4 :: i :: address.flatMap fun j => [3, (j : Int)]

theorem sourcePath_append {address : List ℕ} (h : address ≠ []) (i : ℕ) :
    sourcePath (address ++ [i]) = sourcePath address ++ [3, (i : Int)] := by
  cases address with
  | nil => exact absurd rfl h
  | cons j rest => simp [sourcePath]

/-! ### Full names -/

/-- The full name of the parts of a name. Empty parts in front leave no dots. -/
def fullNameOf (parts : List String) : String :=
  ".".intercalate (parts.dropWhile String.isEmpty)

theorem fullNameOf_singleton (name : String) : fullNameOf [name] = name := by
  by_cases h : name.isEmpty = true
  · simp [fullNameOf, String.isEmpty_iff.mp h]
  · simp [fullNameOf, h]

/-- A name below a full name. -/
theorem qualified_fullNameOf (parts : List String) (name : String) :
    Text.qualified (fullNameOf parts) name = fullNameOf (parts ++ [name]) := by
  rw [fullNameOf, fullNameOf, List.dropWhile_append, Text.qualified]
  cases hparts : parts.dropWhile String.isEmpty with
  | nil =>
    by_cases hname : name.isEmpty = true
    · simp [String.isEmpty_iff.mp hname]
    · simp [hname]
  | cons part rest =>
    have hpart : part.isEmpty = false := by
      have hhead := List.head_dropWhile_not String.isEmpty (l := parts) (by rw [hparts]; exact nofun)
      simpa only [hparts, List.head_cons] using hhead
    have hnonempty : (".".intercalate (part :: rest)).isEmpty = false := by
      cases rest <;> simp_all
    rw [if_neg (by rw [hnonempty]; exact nofun), if_neg nofun,
      String.intercalate_append_of_ne_nil (List.cons_ne_nil _ _) (List.cons_ne_nil _ _),
      String.intercalate_singleton]

/-! ### Comments -/

variable {locations : List RawLocation} {path : List Int} {comment : String}

/-- A comment is that of the last description of a path that has one; there is none if no description
of the path has one. -/
def Commented (locations : List RawLocation) (path : List Int) (comment : String) : Prop :=
  (∃ before location behind, locations = before ++ location :: behind ∧ location.path = path ∧
      location.leading = some comment ∧
      ∀ other ∈ behind, other.path = path → other.leading = none) ∨
    comment = "" ∧ ∀ location ∈ locations, location.path = path → location.leading = none

/-- The comment of the last description of a path, whether it has one or not. -/
def lastComment (locations : List RawLocation) (path : List Int) : String :=
  ((locations.filter (·.path = path)).getLast?.bind (·.leading)).getD ""

theorem commented_commentAt (context : Context) (path : List Int) :
    Commented context.locations path (context.commentAt path) := by
  simp only [Context.commentAt]
  generalize hfound : context.locations.filterMap _ = found
  cases hlast : found.getLast? with
  | none =>
    rw [List.getLast?_eq_none_iff.mp hlast, List.filterMap_eq_nil_iff] at hfound
    exact .inr ⟨rfl, fun location hlocation => ite_eq_right_iff.mp (hfound location hlocation)⟩
  | some comment =>
    obtain ⟨earlier, rfl⟩ := List.getLast?_eq_some_iff.mp hlast
    obtain ⟨before, rest, hlocations, -, hrest⟩ := List.filterMap_eq_append_iff.mp hfound
    obtain ⟨between, location, behind, rfl, -, hlocation, hbehind⟩ :=
      List.filterMap_eq_cons_iff.mp hrest
    obtain ⟨hpath, hleading⟩ := Option.ite_none_right_eq_some.mp hlocation
    refine .inl ⟨before ++ between, location, behind, ?_, hpath, hleading, ?_⟩
    · rw [hlocations, List.append_assoc]
    · exact fun other hother =>
        ite_eq_right_iff.mp (List.filterMap_eq_nil_iff.mp hbehind other hother)

end Protojson

end MessageSchema
