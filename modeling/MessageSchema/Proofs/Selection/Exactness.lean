import MessageSchema.Proofs.Declarations
import MessageSchema.Proofs.Selection.Walk

/-!
# A selection is exactly what is reached

In a set that declares each name once, a selection is the closure of the candidates that ask to be
selected: with a message come the messages that its fields hold and those nested in it, whatever
their own options say. Names that have been visited before are not entered.

## Main definitions

* `Selection.Asks`: a candidate asks to be selected.
* `Selection.Selects`: the messages that a selection consists of.

## Main results

* `Selection.select_exact`: when a selection succeeds, and what it consists of.
-/

namespace MessageSchema

namespace Selection

variable {set : DescriptorSet} {candidates : List Message} {default : Bool} {visited : List String}
  {message : Message}

/-- A candidate asks to be selected: it is not the entry of a map field, and its options say so, or
it has no options and candidates are selected by default. -/
def Asks (default : Bool) (message : Message) : Prop :=
  message.mapEntry = false ∧
    ((∃ options, message.options = .ok (some options) ∧ options.generate = true) ∨
      (message.overlay = none ∨ message.overlay = some .null) ∧ default = true)

/-- The messages that a selection consists of: the candidates that ask for it and what they take
with them, directly or not, without going through a name that has been visited. -/
def Selects (pool : Pool) (candidates : List Message) (default : Bool) (visited : List String) :
    Message → Prop :=
  Reached (Takes pool) (·.fullName ∈ visited)
    (fun message => message ∈ candidates ∧ Asks default message)

theorem options_eq_none_iff :
    message.options = .ok none ↔ message.overlay = none ∨ message.overlay = some .null := by
  rw [Message.options]
  cases message.overlay with
  | none => simp [readOverlay]
  | some overlay =>
    by_cases hnull : overlay = .null
    · simp [hnull, readOverlay]
    · refine iff_of_false (fun h => ?_) (by simp [hnull])
      rw [readOverlay.eq_3 _ _ _ hnull] at h
      split at h <;> cases h

theorem begins_candidate : Begins ⟨message, default, false⟩ ↔ Asks default message := by
  rw [Begins, Asks, shouldGenerate]
  refine and_congr_right fun _ => ?_
  rw [← options_eq_none_iff]
  cases message.options with
  | error e => simp
  | ok options => cases options <;> simp

theorem starts_candidates :
    Starts (candidates.map (⟨·, default, false⟩)) message ↔
      message ∈ candidates ∧ Asks default message := by
  constructor
  · rintro ⟨candidate, hcandidate, rfl, hbegins⟩
    obtain ⟨message, hmem, rfl⟩ := List.mem_map.mp hcandidate
    exact ⟨hmem, begins_candidate.mp hbegins⟩
  · rintro ⟨hmem, hasks⟩
    exact ⟨_, List.mem_map_of_mem hmem, rfl, begins_candidate.mpr hasks⟩

theorem visits_candidates :
    Visits set.pool (candidates.map (⟨·, default, false⟩)) visited message ↔
      Selects set.pool candidates default visited message :=
  reached_congr fun _ _ => starts_candidates

/-- Messages of a set need no others. -/
theorem mem_messages_of_needs {other : Message} (hmessage : message ∈ set.messages)
    (hneeds : Needs set.pool message other) : other ∈ set.messages := by
  rcases hneeds with ⟨field, -, -, hholds⟩ | hnested
  · obtain ⟨_, hfound⟩ := hholds.exists_message?
    exact DescriptorSet.mem_messages_of_message? hfound
  · exact DescriptorSet.mem_messages_of_nested hmessage hnested

/-- A walk among the messages of a set that declares each name once. -/
theorem distinct_messages (h : set.DeclaredOnce) :
    Distinct set.pool (· ∈ set.messages) where
  needs _ _ := mem_messages_of_needs
  eq_of_fullName_eq _ _ := h.eq_of_fullName_eq

/-- What is selected from candidates of a set are messages of the set. -/
theorem mem_messages_of_selects (hcandidates : ∀ m ∈ candidates, m ∈ set.messages)
    (h : Selects set.pool candidates default visited message) : message ∈ set.messages := by
  induction h with
  | start hs => exact hcandidates _ hs.1
  | step _ hedge _ ih =>
    rcases hedge.1 with ⟨field, -, -, hholds⟩ | hnested
    · obtain ⟨_, hfound⟩ := hholds.exists_message?
      exact DescriptorSet.mem_messages_of_message? hfound
    · exact DescriptorSet.mem_messages_of_nested ih hnested

/-- What a selection leads to, as a walk from its candidates. -/
theorem walked_select (h : set.DeclaredOnce) (hcandidates : ∀ m ∈ candidates, m ∈ set.messages)
    (default : Bool) (visited : List String) :
    ∃ result : State × Except SchemaError Unit,
      select set.pool candidates default visited =
        (result.1.visited, result.2.map fun _ => result.1.selected.reverse) ∧
      Walked set.pool (candidates.map (⟨·, default, false⟩)) ⟨visited, []⟩ result := by
  have hnames : ∀ message ∈ set.messages, message.fullName ∈ reachableNames set.pool candidates := by
    intro message hmessage
    have hmem : message ∈ Message.allWithNested (candidates ++ set.pool.messages) :=
      Message.mem_allWithNested_self (List.mem_append_right _ hmessage)
    simpa [reachableNames] using ⟨message, hmem, rfl⟩
  refine ⟨_, rfl, walked_run (distinct_messages h) (fun candidate hcandidate => ?_) hnames
    (Nat.lt_succ_self _)⟩
  obtain ⟨message, hmem, rfl⟩ := List.mem_map.mp hcandidate
  exact hcandidates message hmem

/-- What is selected, and which names are visited afterwards. -/
theorem mem_of_select_eq_ok (h : set.DeclaredOnce) (hcandidates : ∀ m ∈ candidates, m ∈ set.messages)
    {names : List String} {selected : List Message}
    (hselect : select set.pool candidates default visited = (names, .ok selected)) :
    (selected.map (·.fullName)).Nodup ∧
      (∀ message, message ∈ selected ↔ Selects set.pool candidates default visited message) ∧
      (∀ name, name ∈ names ↔ name ∈ visited ∨ name ∈ selected.map (·.fullName)) ∧
      ∀ message ∈ selected, Sound set.pool message := by
  obtain ⟨⟨state, result⟩, heq, hwalked⟩ := walked_select h hcandidates default visited
  rw [heq] at hselect
  cases result with
  | error e => simp [Except.map] at hselect
  | ok =>
    obtain ⟨rfl, hselected⟩ : state.visited = names ∧ state.selected.reverse = selected := by
      simpa [Except.map] using hselect
    obtain ⟨new, hnew, hvisited, hnodup, hmem⟩ := hwalked.visits rfl
    simp only [List.append_nil] at hnew hvisited
    obtain rfl : selected = new.reverse := by rw [← hselected, hnew]
    simp only [List.mem_reverse, List.map_reverse, List.nodup_reverse]
    refine ⟨hnodup, fun message => (hmem message).trans visits_candidates, fun name => ?_,
      fun message hmessage => hwalked.sound rfl message ((hmem message).mp hmessage)⟩
    rw [hvisited, List.mem_append, or_comm]

theorem select_ok_iff (h : set.DeclaredOnce) (hcandidates : ∀ m ∈ candidates, m ∈ set.messages)
    (default : Bool) (visited : List String) :
    (∃ selected, (select set.pool candidates default visited).2 = .ok selected) ↔
      (∀ message ∈ candidates, message.mapEntry = false → Readable message) ∧
        ∀ message, Selects set.pool candidates default visited message →
          Sound set.pool message := by
  obtain ⟨⟨state, result⟩, heq, hwalked⟩ := walked_select h hcandidates default visited
  rw [heq]
  cases result with
  | error e =>
    refine iff_of_false (by simp [Except.map]) fun ⟨hreadable, hsound⟩ => ?_
    rcases hwalked.failed e rfl with
      ⟨candidate, hcandidate, hentry, hfail⟩ | ⟨message, hmessage, hfail⟩
    · obtain ⟨message, hmem, rfl⟩ := List.mem_map.mp hcandidate
      exact hfail (hreadable message hmem hentry)
    · exact hfail (hsound message (visits_candidates.mp hmessage))
  | ok =>
    refine iff_of_true ⟨_, rfl⟩ ⟨fun message hmem hentry => ?_, fun message hmessage => ?_⟩
    · exact hwalked.readable rfl _ (List.mem_map_of_mem hmem) hentry
    · exact hwalked.sound rfl message (visits_candidates.mpr hmessage)

/-- **Exactness.** In a set that declares each name once, a selection succeeds if and only if the
options of all candidates can be read, and of all messages it reaches the fields resolve and what
they take has readable options. It then consists of exactly the messages that are reached, each
once, and their names are visited from then on. -/
theorem select_exact (h : set.DeclaredOnce) (hcandidates : ∀ m ∈ candidates, m ∈ set.messages)
    (default : Bool) (visited : List String) :
    ((∃ selected, (select set.pool candidates default visited).2 = .ok selected) ↔
      (∀ message ∈ candidates, message.mapEntry = false → Readable message) ∧
        ∀ message, Selects set.pool candidates default visited message →
          Sound set.pool message) ∧
    ∀ names selected, select set.pool candidates default visited = (names, .ok selected) →
      (selected.map (·.fullName)).Nodup ∧
      (∀ message, message ∈ selected ↔ Selects set.pool candidates default visited message) ∧
      ∀ name, name ∈ names ↔ name ∈ visited ∨ name ∈ selected.map (·.fullName) := by
  refine ⟨select_ok_iff h hcandidates default visited, fun names selected hselect => ?_⟩
  obtain ⟨hnodup, hmem, hnames, -⟩ := mem_of_select_eq_ok h hcandidates hselect
  exact ⟨hnodup, hmem, hnames⟩

/-- A line of an order: it refers back to its order, and asks not to be selected. -/
def line : Message where
  name := "Line"
  fullName := "shop.Line"
  file := "shop.proto"
  fields := [
    { name := "order", number := 1, kind := .message, typeName := some ".shop.Order" },
    { name := "state", number := 2, kind := .enum, typeName := some "shop.State" }]
  overlay := some (.object [("generate", .boolean false)])

/-- A message nested in the orders below. -/
def note : Message where
  name := "Note"
  fullName := "shop.Order.Note"
  file := "shop.proto"

/-- An order: its lines by name, the order before it, and a nested note. -/
def order : Message where
  name := "Order"
  fullName := "shop.Order"
  file := "shop.proto"
  fields := [
    { name := "lines", number := 1, kind := .message, cardinality := .map,
      typeName := some "shop.Order.LinesEntry" },
    { name := "previous", number := 2, kind := .message, typeName := some "shop.Order" }]
  nested := [
    { name := "LinesEntry", fullName := "shop.Order.LinesEntry", file := "shop.proto",
      fields := [
        { name := "key", number := 1, kind := .string },
        { name := "value", number := 2, kind := .message, typeName := some "shop.Line" }],
      mapEntry := true },
    note]

/-- Orders and their lines, which refer to each other. -/
def orders : DescriptorSet where
  files := [{ path := "shop.proto", package := "shop", messages := [order, line] }]
  targets := []

/-- A line is taken with its order although it asks not to be, and a note that has been visited is
not entered. -/
theorem select_exact_orders : orders.DeclaredOnce ∧ order ∈ orders.messages ∧
    ∃ names selected,
      select orders.pool [order] true ["shop.Order.Note"] = (names, .ok selected) ∧
      selected.map (·.fullName) = ["shop.Order", "shop.Line"] ∧
      ∀ message, message ∈ selected ↔
        Selects orders.pool [order] true ["shop.Order.Note"] message := by
  have hunique : orders.DeclaredOnce := by decide
  have hmem : order ∈ orders.messages :=
    DescriptorSet.mem_messages_of_file (List.mem_singleton_self _) (List.mem_cons_self ..)
  have hcandidates : ∀ m ∈ [order], m ∈ orders.messages := by simpa using hmem
  refine ⟨hunique, hmem, _, [order, line], rfl, rfl, ?_⟩
  exact ((select_exact hunique hcandidates true ["shop.Order.Note"]).2 _ _ rfl).2.1

end Selection

end MessageSchema
