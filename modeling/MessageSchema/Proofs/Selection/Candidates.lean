import MessageSchema.Proofs.Pool
import MessageSchema.Selection

/-!
# Candidates of a selection

A message takes with it what its fields hold and what is nested in it, and a candidate is passed
over, selected or refused by its options.

## Main definitions

* `Selection.Takes`: a message takes another one with it.
* `Selection.Sound`: the fields of a message resolve, and what it takes has readable options.
* `Selection.Begins`: a walk begins at a candidate.

## Main results

* `Selection.dependencies_ok_iff`, `Selection.mem_dependencies_append_nested`: when the dependencies
  of a message can be told, and what they are.
* `Selection.passed_next?`: which candidate comes next.
-/

namespace MessageSchema

namespace Selection

variable {pool : Pool} {message other : Message} {field : Field} {fields : List Field}
  {candidate : Candidate} {candidates front rest : List Candidate} {visited : List String}
  {found : List Message}

/-- A message needs another one: a field holds it, or it is nested in the message. -/
def Needs (pool : Pool) (message other : Message) : Prop :=
  (∃ field ∈ message.fields, field.kind.isMessage ∧ pool.Holds field other) ∨
    other ∈ message.nested

/-- A message takes with it what it needs, except for the entries of map fields. -/
def Takes (pool : Pool) (message other : Message) : Prop :=
  Needs pool message other ∧ other.mapEntry = false

/-- The options of a message can be read. -/
def Readable (message : Message) : Prop :=
  ∃ options, message.options = .ok options

/-- The fields of a message resolve, and everything that it takes with it has readable options. -/
def Sound (pool : Pool) (message : Message) : Prop :=
  (∀ field ∈ message.fields, field.kind.isMessage → pool.Resolves field) ∧
    ∀ other, Takes pool message other → Readable other

/-! ### What a message takes with it -/

theorem dependency?_of_not_isMessage (h : field.kind.isMessage = false) :
    dependency? pool message field = .ok none := by
  simp [dependency?, h, Except.pure_eq_ok]

/-- The type of a map field that is depended on is that of its values. -/
theorem dependency?_of_isMap (hkind : field.kind.isMessage = true) (hmap : field.isMap = true)
    {result : Option Message} : dependency? pool message field = .ok result ↔
      ∃ entry key value, pool.message? field.target = some entry ∧
        entry.fieldByNumber? Message.keyNumber = some key ∧
        entry.fieldByNumber? Message.valueNumber = some value ∧
        if value.kind.isMessage then ∃ other, pool.message? value.target = some other ∧
          result = some other
        else result = none := by
  have hbind : dependency? pool message field = .ok result ↔ ∃ entry key value,
      pool.entryFields message field = .ok (entry, key, value) ∧
        (if value.kind.isMessage then do return some (← pool.referenced entry value)
        else return none : Except SchemaError (Option Message)) = .ok result := by
    simp [dependency?, hkind, hmap]
  rw [hbind]
  refine exists_congr fun entry => exists_congr fun key => exists_congr fun value => ?_
  rw [Pool.entryFields_eq_ok, and_assoc, and_assoc]
  refine and_congr_right fun _ => and_congr_right fun _ => and_congr_right fun _ => ?_
  split
  · simp [Pool.referenced_eq_ok, eq_comm (a := result)]
  · simp [eq_comm (a := result)]

theorem dependency?_of_not_isMap (hkind : field.kind.isMessage = true) (hmap : field.isMap = false)
    {result : Option Message} : dependency? pool message field = .ok result ↔
      ∃ other, pool.message? field.target = some other ∧ result = some other := by
  simp [dependency?, hkind, hmap, Pool.referenced_eq_ok, eq_comm (a := result)]

/-- The dependency of a field can be told exactly when its types are found. -/
theorem exists_dependency?_iff : (∃ result, dependency? pool message field = .ok result) ↔
    (field.kind.isMessage → pool.Resolves field) := by
  cases hkind : field.kind.isMessage with
  | false => simp [dependency?_of_not_isMessage hkind]
  | true =>
    rw [Pool.Resolves]
    cases hmap : field.isMap with
    | false =>
      simp only [dependency?_of_not_isMap hkind hmap, forall_const, Bool.false_eq_true, if_false]
      constructor
      · rintro ⟨_, other, hother, -⟩
        exact ⟨other, hother⟩
      · rintro ⟨other, hother⟩
        exact ⟨some other, other, hother, rfl⟩
    | true =>
      simp only [dependency?_of_isMap hkind hmap, forall_const, if_true]
      constructor
      · rintro ⟨result, entry, key, value, hentry, hkey, hvalue, h⟩
        refine ⟨entry, key, value, hentry, hkey, hvalue, fun hmessage => ?_⟩
        rw [if_pos hmessage] at h
        obtain ⟨other, hother, -⟩ := h
        exact ⟨other, hother⟩
      · rintro ⟨entry, key, value, hentry, hkey, hvalue, h⟩
        by_cases hmessage : value.kind.isMessage = true
        · obtain ⟨other, hother⟩ := h hmessage
          exact ⟨some other, entry, key, value, hentry, hkey, hvalue, by simp [hmessage, hother]⟩
        · exact ⟨none, entry, key, value, hentry, hkey, hvalue, by simp [hmessage]⟩

/-- The dependency of a field is the message that it holds. -/
theorem mem_dependency? {result : Option Message}
    (h : dependency? pool message field = .ok result) :
    result = some other ↔ field.kind.isMessage ∧ pool.Holds field other := by
  cases hkind : field.kind.isMessage with
  | false =>
    obtain rfl := Except.ok.inj ((dependency?_of_not_isMessage hkind).symm.trans h)
    simp
  | true =>
    rw [Pool.Holds]
    cases hmap : field.isMap with
    | false =>
      obtain ⟨found, hfound, rfl⟩ := (dependency?_of_not_isMap hkind hmap).mp h
      simp [hkind, hfound]
    | true =>
      obtain ⟨entry, key, value, hentry, -, hvalue, h⟩ := (dependency?_of_isMap hkind hmap).mp h
      by_cases hmessage : value.kind.isMessage = true
      · rw [if_pos hmessage] at h
        obtain ⟨found, hfound, rfl⟩ := h
        simp [hentry, hvalue, hmessage, hfound]
      · rw [if_neg hmessage] at h
        simp [hentry, hvalue, hmessage, h]

theorem exists_dependenciesOf_iff : (∃ found, dependenciesOf pool message fields = .ok found) ↔
    ∀ field ∈ fields, field.kind.isMessage → pool.Resolves field := by
  induction fields with
  | nil => simp [dependenciesOf]
  | cons field rest ih =>
    have hfield : (∃ result, dependency? pool message field = .ok result) ↔
        (field.kind.isMessage → pool.Resolves field) := exists_dependency?_iff
    rw [List.forall_mem_cons, ← hfield, ← ih]
    simp only [dependenciesOf, Except.bind_eq_ok, Except.pure_eq_ok]
    constructor
    · rintro ⟨found, result, hresult, others, hothers, -⟩
      exact ⟨⟨result, hresult⟩, others, hothers⟩
    · rintro ⟨⟨result, hresult⟩, others, hothers⟩
      exact ⟨_, result, hresult, others, hothers, rfl⟩

theorem mem_dependenciesOf (h : dependenciesOf pool message fields = .ok found) :
    other ∈ found ↔ ∃ field ∈ fields, field.kind.isMessage ∧ pool.Holds field other := by
  induction fields generalizing found with
  | nil =>
    cases h
    simp
  | cons field rest ih =>
    simp only [dependenciesOf, Except.bind_eq_ok, Except.pure_eq_ok] at h
    obtain ⟨result, hresult, others, hothers, rfl⟩ := h
    rw [List.mem_append, Option.mem_toList, mem_dependency? hresult, ih hothers]
    simp

theorem dependencies_ok_iff : (∃ found, dependencies pool message = .ok found) ↔
    ∀ field ∈ message.fields, field.kind.isMessage → pool.Resolves field :=
  exists_dependenciesOf_iff

/-- What a message needs, from its fields and nested in it, in the order in which it is taken. -/
theorem mem_dependencies_append_nested (h : dependencies pool message = .ok found) :
    other ∈ found ++ message.nested ↔ Needs pool message other := by
  rw [List.mem_append, mem_dependenciesOf h, Needs]

/-! ### The next candidate -/

theorem shouldGenerate_eq_error {e : SchemaError} :
    shouldGenerate candidate = .error e ↔ candidate.message.options = .error e := by
  rw [shouldGenerate]
  cases candidate.message.options with
  | error e' => simp
  | ok options => cases options <;> simp

theorem exists_shouldGenerate_iff :
    (∃ chosen, shouldGenerate candidate = .ok chosen) ↔ Readable candidate.message := by
  rw [Readable, shouldGenerate]
  cases candidate.message.options with
  | error e => simp
  | ok options => cases options <;> simp

/-- Where a walk begins: with every needed message, whatever its options, and with every candidate
that asks to be selected. -/
def Begins (candidate : Candidate) : Prop :=
  candidate.message.mapEntry = false ∧
    (candidate.forced = true ∧ candidate.default = true ∨ shouldGenerate candidate = .ok true)

theorem Begins.eq_true {chosen : Bool} (h : Begins candidate)
    (hchosen : shouldGenerate candidate = .ok chosen) : chosen = true := by
  rcases h.2 with ⟨hforced, hdefault⟩ | h
  · rw [shouldGenerate] at hchosen
    obtain ⟨options, -, hchosen⟩ := Except.bind_eq_ok.mp hchosen
    cases options with
    | none => exact (Except.pure_eq_ok.mp hchosen).symm.trans hdefault
    | some o =>
      obtain rfl := Except.pure_eq_ok.mp hchosen
      cases o.generate <;> simp [hforced, hdefault]
  · exact (Except.ok.inj (h.symm.trans hchosen)).symm

theorem begins_needed : Begins (needed message) ↔ message.mapEntry = false := by
  simp [Begins, needed]

/-- A candidate that is passed over: the entry of a map field, or one with readable options that is
not to be selected or has been visited. -/
def Passed (visited : List String) (candidate : Candidate) : Prop :=
  candidate.message.mapEntry = true ∨
    ∃ chosen, shouldGenerate candidate = .ok chosen ∧
      (chosen = true → candidate.message.fullName ∈ visited)

theorem Passed.mem_visited (h : Passed visited candidate) (hbegins : Begins candidate) :
    candidate.message.fullName ∈ visited := by
  rcases h with h | ⟨chosen, hchosen, h⟩
  · rw [hbegins.1] at h
    cases h
  · exact h (hbegins.eq_true hchosen)

theorem Passed.readable (h : Passed visited candidate)
    (hentry : candidate.message.mapEntry = false) : Readable candidate.message := by
  rcases h with h | ⟨chosen, hchosen, -⟩
  · rw [hentry] at h
    cases h
  · exact exists_shouldGenerate_iff.mp ⟨chosen, hchosen⟩

/-- What the next candidate is, given the candidates that are passed over in front of it. -/
def NextIs (visited : List String) (candidates front : List Candidate) :
    Except SchemaError (Option (Message × List Candidate)) → Prop
  | .ok none => candidates = front
  | .ok (some (message, rest)) => ∃ candidate, candidates = front ++ candidate :: rest ∧
      candidate.message = message ∧ message.mapEntry = false ∧
      shouldGenerate candidate = .ok true ∧ message.fullName ∉ visited
  | .error e => ∃ candidate ∈ candidates, candidate.message.mapEntry = false ∧
      candidate.message.options = .error e

theorem NextIs.cons {result : Except SchemaError (Option (Message × List Candidate))}
    (h : NextIs visited candidates front result) (candidate : Candidate) :
    NextIs visited (candidate :: candidates) (candidate :: front) result := by
  match result, h with
  | .ok none, h => exact congrArg (candidate :: ·) h
  | .ok (some _), ⟨found, hfound, h⟩ => exact ⟨found, congrArg (candidate :: ·) hfound, h⟩
  | .error _, ⟨found, hmem, h⟩ => exact ⟨found, List.mem_cons_of_mem _ hmem, h⟩

/-- Candidates are passed over up to the first that is to be selected and has not been visited, or
whose options cannot be read. -/
theorem passed_next? (visited : List String) (candidates : List Candidate) :
    ∃ front, (∀ candidate ∈ front, Passed visited candidate) ∧
      NextIs visited candidates front (next? visited candidates) := by
  induction candidates with
  | nil => exact ⟨[], by simp, rfl⟩
  | cons candidate rest ih =>
    obtain ⟨front, hfront, hnext⟩ := ih
    have hskip (hpassed : Passed visited candidate) : ∃ front,
        (∀ candidate ∈ front, Passed visited candidate) ∧
          NextIs visited (candidate :: rest) front (next? visited rest) :=
      ⟨candidate :: front, List.forall_mem_cons.mpr ⟨hpassed, hfront⟩, hnext.cons candidate⟩
    rw [next?]
    split
    · rename_i hentry
      exact hskip (.inl hentry)
    · rename_i hentry
      have hentry := Bool.eq_false_iff.mpr hentry
      cases hchosen : shouldGenerate candidate with
      | error e => exact ⟨[], by simp, candidate, by simp, hentry, shouldGenerate_eq_error.mp hchosen⟩
      | ok chosen =>
        rw [Except.ok_bind]
        split
        · rename_i hvisit
          simp only [Bool.and_eq_true, Bool.not_eq_eq_eq_not, Bool.not_true,
            List.contains_eq_mem, decide_eq_false_iff_not] at hvisit
          exact ⟨[], by simp, candidate, rfl, rfl, hentry, by rw [hchosen, hvisit.1], hvisit.2⟩
        · rename_i hvisit
          refine hskip (.inr ⟨chosen, hchosen, fun h => ?_⟩)
          simpa [h] using hvisit

end Selection

end MessageSchema
