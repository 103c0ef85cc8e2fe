import ContactCard.Proofs.Parameters.Invariant

/-!
# Runs of calls on parameters

Any number of tables of parameters are made and changed, call by call (`Parameters.run`), and some of
the calls may be refused. Whatever the calls are, every table is tidy at every moment (`isKept_run`).
If all values that names are given have a text, every table is in normal form, so that all ways of
asking for a name agree and the table can be made again from its items and as a copy. The case of the names in
the calls does not matter for any table or any answer (`run_kept_normal`).
-/

namespace ContactCard.Parameters

open Text

/-! ### Calls -/

/-- What a table is made from. -/
inductive Source where
  | nothing
  /-- The table with a number, of which a copy is made. -/
  | table (i : Nat)
  | map (entries : OrderedMap String Value)
  | pairs (entries : List (String × Value))

/-- A change of one table. -/
inductive Change where
  | put (name : String) (v : Value)
  | replace (name : String) (v : Value)
  | remove (name : String)
  | removeValue (name : String) (v : Value)
  | assign (a : Accessor) (v : Value)

/-- A call makes a new table, or changes the one with a number. -/
inductive Call where
  | make (source : Source)
  | change (i : Nat) (c : Change)

/-- What a call gives back: nothing, the values that it took away, or whether there was such a
value. -/
inductive Answer where
  | nothing
  | values (values : List String)
  | flag (b : Bool)

/-- The tables after a call, and the answer to it. -/
structure Moment where
  tables : List Parameters
  answer : Except Error Answer

/-- The table with a number. -/
def tableAt (tables : List Parameters) (i : Nat) : Except Error Parameters :=
  tables[i]?.elim (.error (.fault .missingPart)) .ok

/-- The table that is made from a source. -/
def Source.made (tables : List Parameters) : Source → Except Error Parameters
  | .nothing => .ok .empty
  | .table i => (tableAt tables i).map copy
  | .map m => ofPairs m.entries
  | .pairs entries => ofPairs entries

/-- The table after a change, and what the change gives back. -/
def Change.made (p : Parameters) : Change → Parameters × Except Error Answer
  | .put name v =>
    let (q, outcome) := p.put name v
    (q, outcome.map fun _ ↦ .nothing)
  | .replace name v =>
    let (q, outcome) := p.replace name v
    (q, outcome.map fun _ ↦ .values (p.getAll name))
  | .remove name => (p.remove name, .ok (.values (p.getAll name)))
  | .removeValue name v =>
    match p.removeValue? name v with
    | some q => (q, .ok (.flag true))
    | none => (p, .ok (.flag false))
  | .assign a v =>
    let (q, outcome) := p.assignTo a v
    (q, outcome.map fun _ ↦ .nothing)

/-- The moment after a call. A table that is not made is not there afterwards; one that is changed is
what the change leaves, also if it is refused. -/
def Call.next (tables : List Parameters) : Call → Moment
  | .make source =>
    match source.made tables with
    | .ok p => ⟨tables ++ [p], .ok .nothing⟩
    | .error e => ⟨tables, .error e⟩
  | .change i c =>
    match tableAt tables i with
    | .ok p => ⟨tables.set i (c.made p).1, (c.made p).2⟩
    | .error e => ⟨tables, .error e⟩

/-- The moments after one call after the other. -/
def run (tables : List Parameters) : List Call → List Moment
  | [] => []
  | call :: rest => call.next tables :: run (call.next tables).tables rest

variable {tables : List Parameters} {p q : Parameters} {bare : Prop}

/-! ### What is kept -/

/-- The value that the change gives to a name, if it does, has a text. -/
def Change.HasText : Change → Prop
  | .put _ v | .replace _ v | .assign _ v => v.isWritable = true
  | .remove _ | .removeValue _ _ => True

/-- The value that the call gives to a name, if it does, has a text. -/
def Call.HasText : Call → Prop
  | .make _ => True
  | .change _ c => c.HasText

theorem set_self {i : Nat} (hp : tables[i]? = some p) : tables.set i p = tables := by
  obtain ⟨hi, rfl⟩ := List.getElem?_eq_some_iff.mp hp
  exact List.set_getElem_self hi

theorem isKept_of_tableAt (h : ∀ p ∈ tables, p.IsKept bare) {i : Nat}
    (hp : tableAt tables i = .ok p) : p.IsKept bare := by
  unfold tableAt at hp
  cases hi : tables[i]? with
  | none => exact absurd (hi ▸ hp) (by simp)
  | some q =>
    rw [hi] at hp
    exact Except.ok.inj hp ▸ h q (List.mem_of_getElem? hi)

theorem Source.isKept_made (h : ∀ p ∈ tables, p.IsKept bare) {source : Source}
    (hp : source.made tables = .ok p) : p.IsKept bare := by
  have hmade {pairs : List (String × Value)} (hpairs : ofPairs pairs = .ok p) : p.IsKept bare :=
    (isNormal_ofPairs hpairs).weaken
  cases source with
  | nothing => exact Except.ok.inj hp ▸ isKept_empty
  | table i =>
    rw [Source.made] at hp
    cases hi : tableAt tables i with
    | error e => exact absurd (hi ▸ hp) nofun
    | ok q =>
      have hq := isKept_of_tableAt h hi
      rw [hi] at hp
      rwa [← Except.ok.inj hp, hq.copy_eq]
  | map m => exact hmade hp
  | pairs entries => exact hmade hp

/-- Only the putting of a value without a text may leave a bare name. -/
theorem Change.isKept_made (h : p.IsKept bare) {c : Change} (hc : ¬c.HasText → bare) :
    (c.made p).1.IsKept bare := by
  cases c with
  | put name v => exact h.put name fun hv ↦ hc fun htext ↦ absurd (hv.symm.trans htext) nofun
  | replace name v => exact h.replace name v
  | remove name => exact h.remove name
  | removeValue name v =>
    rw [made]
    cases hq : p.removeValue? name v with
    | some q => exact h.removeValue? hq
    | none => exact h
  | assign a v => exact h.assignTo a v

/-- One call keeps all tables. -/
theorem Call.isKept_next (h : ∀ p ∈ tables, p.IsKept bare) {call : Call}
    (hcall : ¬call.HasText → bare) : ∀ p ∈ (call.next tables).tables, p.IsKept bare := by
  cases call with
  | make source =>
    rw [next]
    cases hq : source.made tables with
    | error e => exact h
    | ok q =>
      exact List.forall_mem_append.mpr ⟨h, List.forall_mem_singleton.mpr (source.isKept_made h hq)⟩
  | change i c =>
    rw [next]
    cases hq : tableAt tables i with
    | error e => exact h
    | ok q =>
      intro p hp
      rcases List.mem_or_eq_of_mem_set hp with hp | rfl
      · exact h p hp
      · exact c.isKept_made (isKept_of_tableAt h hq) hcall

theorem isKept_run (h : ∀ p ∈ tables, p.IsKept bare) {calls : List Call}
    (hcalls : ∀ call ∈ calls, ¬call.HasText → bare) :
    ∀ moment ∈ run tables calls, ∀ p ∈ moment.tables, p.IsKept bare := by
  induction calls generalizing tables with
  | nil => exact fun _ hm ↦ absurd hm List.not_mem_nil
  | cons call rest ih =>
    obtain ⟨hcall, hrest⟩ := List.forall_mem_cons.mp hcalls
    have hnext := call.isKept_next h hcall
    exact List.forall_mem_cons.mpr ⟨hnext, ih hnext hrest⟩

/-! ### The case of the names in calls -/

/-- The source with all names in lower case. -/
def Source.lowered : Source → Source
  | .map m => .map ⟨m.entries.map fun e ↦ (toLower e.1, e.2)⟩
  | .pairs entries => .pairs (entries.map fun e ↦ (toLower e.1, e.2))
  | source => source

/-- The change with its name in lower case. -/
def Change.lowered : Change → Change
  | .put name v => .put (toLower name) v
  | .replace name v => .replace (toLower name) v
  | .remove name => .remove (toLower name)
  | .removeValue name v => .removeValue (toLower name) v
  | .assign a v => .assign a v

/-- The call with all names in lower case. -/
def Call.lowered : Call → Call
  | .make source => .make source.lowered
  | .change i c => .change i c.lowered

@[simp] theorem Source.made_lowered (source : Source) :
    source.lowered.made tables = source.made tables := by
  cases source with
  | nothing => rfl
  | table i => rfl
  | map m => exact ofPairs_toLower m.entries
  | pairs entries => exact ofPairs_toLower entries

@[simp] theorem Change.made_lowered (c : Change) : c.lowered.made p = c.made p := by
  cases c <;> simp [Change.lowered, Change.made]

theorem Call.next_lowered (call : Call) : call.lowered.next tables = call.next tables := by
  cases call <;> simp only [Call.lowered, Call.next, Source.made_lowered, Change.made_lowered]

theorem run_lowered (calls : List Call) :
    run tables (calls.map Call.lowered) = run tables calls := by
  induction calls generalizing tables with
  | nil => rfl
  | cons call rest ih => rw [List.map_cons, run, run, call.next_lowered, ih]

/-! ### Every run -/

/-- Tables are made and changed by any calls, of which some may be refused. If the values that names are
given have a text, every table is in normal form at every moment. A name is there just when it has
values, and just when it has a first one; the items of the table make an equal table, and so does the
table itself. Other calls with the same names up to case come to the same tables and the same
answers, whatever the values are. -/
theorem run_kept_normal (calls : List Call) :
    ((∀ call ∈ calls, call.HasText) → ∀ moment ∈ run [] calls, ∀ p ∈ moment.tables, p.IsNormal ∧
      (∀ name, (p.contains name = true ↔ p.getAll name ≠ []) ∧
        (p.getAll name ≠ [] ↔ p.get? name ≠ none)) ∧
      ofPairs p.items = .ok p ∧ p.copy = p) ∧
    ∀ calls', calls'.map Call.lowered = calls.map Call.lowered →
      run [] calls' = run [] calls := by
  constructor
  · intro hcalls moment hmoment p hp
    have hnormal : p.IsNormal := isKept_run (fun _ h ↦ absurd h List.not_mem_nil)
      (fun call hcall hnot ↦ hnot (hcalls call hcall)) moment hmoment p hp
    exact ⟨hnormal, fun name ↦ ⟨hnormal.contains_iff name, p.getAll_ne_nil_iff name⟩,
      hnormal.ofPairs_items, hnormal.copy_eq⟩
  · intro calls' h
    rw [← run_lowered calls', h, run_lowered]

/-- Two tables, the second made from the first, with a source, a value and a preference that are
refused. In the other calls a name starts with the sign for kelvin, the lower case of which is the
letter k. -/
theorem run_kept_normal_kelvin :
    let home : List (String × Value) := [("TYPE", .list [.text "home", .int 1]), ("Key", .text "a")]
    let home' : List (String × Value) :=
      [("Type", .list [.text "home", .int 1]), ("\u212Aey", .text "a")]
    let calls : List Call := [.make (.pairs (home ++ [("type", .null)])), .make (.pairs home),
      .change 0 (.put "KEY" .null), .make (.table 0), .change 0 (.removeValue "KEY" (.text "a")),
      .change 1 (.assign .preference (.int 101)), .change 1 (.replace "type" .null)]
    let calls' : List Call := [.make (.pairs (home' ++ [("TYPE", .null)])), .make (.pairs home'),
      .change 0 (.put "\u212Aey" .null), .make (.table 0),
      .change 0 (.removeValue "\u212Aey" (.text "a")),
      .change 1 (.assign .preference (.int 101)), .change 1 (.replace "tYPE" .null)]
    let both := [("type", ["home", "1"]), ("key", ["a"])]
    (run [] calls).map (fun m ↦ m.tables.map (·.table.entries)) =
      [[], [both], [both], [both, both], [[("type", ["home", "1"])], both],
        [[("type", ["home", "1"])], both], [[("type", ["home", "1"])], [("key", ["a"])]]] ∧
    (∀ call ∈ calls, call.HasText) ∧
    (∀ moment ∈ run [] calls, ∀ p ∈ moment.tables, p.IsNormal) ∧
    run [] calls' = run [] calls := by
  intro home home' calls calls' both
  have hpreference : Integer.isWritable 101 = true := by decide
  have htext : ∀ call ∈ calls, call.HasText := by
    simp [calls, Call.HasText, Change.HasText, Value.isWritable, hpreference]
  obtain ⟨hnormal, hspelling⟩ := run_kept_normal calls
  refine ⟨by decide +kernel, htext, fun moment hm p hp ↦ (hnormal htext moment hm p hp).1,
    hspelling calls' ?_⟩
  have htype : ∀ name ∈ ["TYPE", "Type", "tYPE", "type"], toLower name = "type" := by decide +kernel
  have hkey : ∀ name ∈ ["KEY", "Key", "\u212Aey"], toLower name = "key" := by decide +kernel
  simp [calls, calls', home, home', Call.lowered, Source.lowered, Change.lowered, htype, hkey]

/-! ### Tables that come about -/

/-- The table is there at some moment of a run that starts without tables. -/
def IsReachable (p : Parameters) : Prop := ∃ calls, ∃ moment ∈ run [] calls, p ∈ moment.tables

/-- The tables that come about are tidy. -/
theorem IsReachable.isTidy (h : p.IsReachable) : p.IsTidy := by
  obtain ⟨calls, moment, hmoment, hp⟩ := h
  exact isKept_run (fun _ h ↦ absurd h List.not_mem_nil) (fun _ _ _ ↦ trivial) moment hmoment p hp

/-- Those in normal form do come about: each of them is made from its items. -/
theorem IsNormal.isReachable (h : p.IsNormal) : p.IsReachable := by
  have hmade : (Source.pairs p.items).made [] = .ok p := h.ofPairs_items
  refine ⟨[.make (.pairs p.items)], _, List.mem_singleton_self _, ?_⟩
  rw [Call.next, hmade]
  exact List.mem_singleton_self p

end ContactCard.Parameters
