import ContactCard.Proofs.Settings.Keeping

/-!
# Runs of calls on settings

Any number of settings objects are made and used, and settings are defined in between, call by call
(`World.after`). All objects share one set of definitions. A definition that is there stays there,
and all that ever happens to it is that it keeps a default which its factory computed for one of the
objects (`World.exists_get?_after`). Every definition stands under its own name
(`World.isNamed_after`).
-/

namespace ContactCard.Settings

/-! ### Operations -/

/-- Something that is done with one settings object. -/
inductive Operation where
  | look (r : Request)
  | contains (key : Value)
  /-- Lists what is set. -/
  | list
  | isSame (other : Settings)
  | set (key v : Value)
  | delete (key : Value)
  | pop (key : Value) (default? : Option Value)
  | popFirst
  | clear
  | setDefault (key v : Value)
  | update (entries : List (Value × Value))

/-- What an operation gives back. -/
inductive Answer where
  | nothing
  | value (v : Value)
  | flag (b : Bool)
  | entry (name : String) (v : Value)
  | entries (entries : List (String × Value))

/-- What an operation comes to: the definitions and the settings afterwards, and its answer or the
reason why it is refused. -/
structure Effect where
  definitions : Definitions
  settings : Settings
  answer : Except Error Answer

/-- The effect of a change of the settings, which leaves them as they are if it is refused. -/
def Effect.ofChange (ds : Definitions) (s : Settings) : Except Error (Settings × Answer) → Effect
  | .ok (s, answer) => ⟨ds, s, .ok answer⟩
  | .error e => ⟨ds, s, .error e⟩

/-- The effect of reading a setting and changing the settings after that. -/
def Effect.ofReading : Definitions × Settings × Except Error Value → Effect
  | (ds, s, outcome) => ⟨ds, s, outcome.map .value⟩

/-- What comes of an operation. -/
def Operation.made (ds : Definitions) (s : Settings) : Operation → Effect
  | .look r => ⟨(s.lookUp ds r).1, s, (s.lookUp ds r).2.map .value⟩
  | .contains key => ⟨ds, s, (s.contains key).map .flag⟩
  | .list => ⟨ds, s, .ok (.entries s.stored.entries)⟩
  | .isSame other => ⟨ds, s, .ok (.flag (s.same other))⟩
  | .set key v => .ofChange ds s ((s.set ds key v).map fun s ↦ (s, .nothing))
  | .delete key => .ofChange ds s ((s.delete key).map fun s ↦ (s, .nothing))
  | .pop key default? => .ofReading (s.pop ds key default?)
  | .popFirst => .ofChange ds s (s.popFirst.map fun (s, name, v) ↦ (s, .entry name v))
  | .clear => ⟨ds, .empty, .ok .nothing⟩
  | .setDefault key v => .ofReading (s.setDefault ds key v)
  | .update entries => ⟨ds, (s.setAll ds entries).1, (s.setAll ds entries).2.map fun _ ↦ .nothing⟩

/-! ### Calls -/

/-- The definitions and the settings objects, which have numbers. -/
structure World where
  definitions : Definitions
  objects : List Settings

/-- A call defines a setting, makes a settings object or uses the one with a number. -/
inductive Call where
  | define (d : Definition)
  | make (entries : List (Value × Value))
  | copy (i : Nat)
  | use (i : Nat) (op : Operation)

/-- The definition that a call is given. -/
def Call.defined? : Call → Option Definition
  | .define d => some d
  | _ => none

namespace World

/-- The world in which nothing is defined and there are no objects. -/
def empty : World := ⟨.ofList [], []⟩

/-- Defines a setting. -/
def define (w : World) (d : Definition) : World × Except Error Answer :=
  match w.definitions.define d with
  | .ok ds => (⟨ds, w.objects⟩, .ok .nothing)
  | .error e => (w, .error e)

/-- Makes an object from entries. -/
def make (w : World) (entries : List (Value × Value)) : World × Except Error Answer :=
  match ofEntries w.definitions entries with
  | .ok s => (⟨w.definitions, w.objects ++ [s]⟩, .ok .nothing)
  | .error e => (w, .error e)

/-- Does something with one object. -/
def use (w : World) (i : Nat) (op : Operation) : World × Except Error Answer :=
  match w.objects[i]? with
  | none => (w, .error (.fault .missingPart))
  | some s =>
    let effect := op.made w.definitions s
    (⟨effect.definitions, w.objects.set i effect.settings⟩, effect.answer)

/-- The world after a call, and what the call gives back. -/
def next (w : World) : Call → World × Except Error Answer
  | .define d => w.define d
  | .make entries => w.make entries
  | .copy i =>
    match w.objects[i]? with
    | none => (w, .error (.fault .missingPart))
    | some s => w.make s.entries
  | .use i op => w.use i op

/-- The world after one call after the other. -/
def after (w : World) (calls : List Call) : World := calls.foldl (fun w call ↦ (w.next call).1) w

end World

/-! ### What operations do to the definitions -/

variable {s : Settings} {ds ds' : Definitions} {P : Definition → Value → Prop}

/-- The setting that an operation looks up. -/
def Operation.request? : Operation → Option Request
  | .look r => some r
  | .pop key _ | .setDefault key _ => some ⟨key, .null, true⟩
  | _ => none

theorem Effect.definitions_ofChange (changed : Except Error (Settings × Answer)) :
    (Effect.ofChange ds s changed).definitions = ds := by
  obtain e | ⟨s, answer⟩ := changed <;> rfl

/-- An operation does to the definitions what its look-up does to them. -/
theorem Operation.definitions_made (op : Operation) (ds : Definitions) (s : Settings) :
    (op.made ds s).definitions = op.request?.elim ds fun r ↦ (s.lookUp ds r).1 := by
  cases op with
  | set key v => exact Effect.definitions_ofChange _
  | delete key => exact Effect.definitions_ofChange _
  | popFirst => exact Effect.definitions_ofChange _
  | _ => rfl

/-- An operation changes the definitions by keeping defaults, and in no other way. -/
theorem Operation.keeps_made (hnamed : ds.IsNamed) (op : Operation) (s : Settings) :
    ds.Keeps (fun _ _ ↦ True) (op.made ds s).definitions := by
  rw [op.definitions_made]
  cases op.request? with
  | none => exact .refl _ ds
  | some r => exact keeps_lookUp hnamed s r

/-! ### What calls do to the definitions -/

namespace World

variable {w : World} {name : String} {d : Definition}

theorem definitions_make (w : World) (entries : List (Value × Value)) :
    (w.make entries).1.definitions = w.definitions := by
  rw [make]
  cases ofEntries w.definitions entries <;> rfl

theorem keeps_use (hnamed : w.definitions.IsNamed) (i : Nat) (op : Operation) :
    w.definitions.Keeps (fun _ _ ↦ True) (w.use i op).1.definitions := by
  rw [use]
  cases w.objects[i]? with
  | none => exact .refl _ _
  | some s => exact op.keeps_made hnamed s

/-- A call other than a definition changes the definitions by keeping defaults. -/
theorem keeps_next (hnamed : w.definitions.IsNamed) {call : Call} (h : call.defined? = none) :
    w.definitions.Keeps (fun _ _ ↦ True) (w.next call).1.definitions := by
  cases call with
  | define d => exact absurd h nofun
  | make entries =>
    rw [next, definitions_make]
    exact .refl _ _
  | copy i =>
    rw [next]
    cases w.objects[i]? with
    | none => exact .refl _ _
    | some s =>
      dsimp only
      rw [definitions_make]
      exact .refl _ _
  | use i op => exact keeps_use hnamed i op

/-! ### Definitions under calls -/

/-- Defining a setting adds its definition if there is none, and is all that it does. -/
theorem get?_define (w : World) (d : Definition) (name : String) :
    (w.define d).1.definitions.get? name = w.definitions.get? name ∨
      name = d.name ∧ w.definitions.get? name = none ∧
        (w.define d).1.definitions.get? name = some d := by
  rw [define]
  cases hdefine : w.definitions.define d with
  | error e => exact .inl rfl
  | ok ds => exact Definitions.get?_of_define hdefine name

/-- A definition that is there is still there after a call, and at most keeps a default. -/
theorem exists_get?_next (hnamed : w.definitions.IsNamed) (hd : w.definitions.get? name = some d)
    (call : Call) :
    ∃ e, (w.next call).1.definitions.get? name = some e ∧ d.Keeps (fun _ ↦ True) e := by
  cases call with
  | define d' =>
    rcases w.get?_define d' name with hsame | ⟨-, hnone, -⟩
    · exact ⟨d, hsame.trans hd, .same⟩
    · exact absurd (hnone.symm.trans hd) nofun
  | _ => exact (keeps_next hnamed rfl).definition name d hd

theorem get?_next_eq_none (hnamed : w.definitions.IsNamed) (hd : w.definitions.get? name = none)
    {call : Call} (h : ∀ d, call.defined? = some d → d.name ≠ name) :
    (w.next call).1.definitions.get? name = none := by
  cases call with
  | define d' =>
    rcases w.get?_define d' name with hsame | ⟨hname, -, -⟩
    · exact hsame.trans hd
    · exact absurd hname.symm (h d' rfl)
  | _ => exact (keeps_next hnamed rfl).get?_eq_none hd

theorem isNamed_next (hnamed : w.definitions.IsNamed) (call : Call) :
    (w.next call).1.definitions.IsNamed := by
  cases call with
  | define d =>
    intro name e he
    rcases w.get?_define d name with hsame | ⟨rfl, -, hnew⟩
    · exact hnamed name e (hsame.symm.trans he)
    · exact congrArg Definition.name (Option.some.inj (he.symm.trans hnew))
  | _ => exact (keeps_next hnamed rfl).isNamed hnamed

/-! ### Definitions under runs -/

theorem after_append (w : World) (calls calls' : List Call) :
    w.after (calls ++ calls') = (w.after calls).after calls' := List.foldl_append

theorem isNamed_empty : empty.definitions.IsNamed := Definitions.isNamed_ofList []

theorem isNamed_after (hnamed : w.definitions.IsNamed) (calls : List Call) :
    (w.after calls).definitions.IsNamed := by
  induction calls generalizing w with
  | nil => exact hnamed
  | cons call calls ih => exact ih (isNamed_next hnamed call)

/-- A definition that is there is still there after any calls, and at most keeps a default. -/
theorem exists_get?_after (hnamed : w.definitions.IsNamed) (hd : w.definitions.get? name = some d)
    (calls : List Call) :
    ∃ e, (w.after calls).definitions.get? name = some e ∧ d.Keeps (fun _ ↦ True) e := by
  induction calls generalizing w d with
  | nil => exact ⟨d, hd, .same⟩
  | cons call calls ih =>
    obtain ⟨d', hd', hkeeps⟩ := exists_get?_next hnamed hd call
    obtain ⟨e, he, hkeeps'⟩ := ih (isNamed_next hnamed call) hd'
    exact ⟨e, he, hkeeps.trans hkeeps'⟩

theorem get?_after_eq_none (hnamed : w.definitions.IsNamed) (hd : w.definitions.get? name = none)
    {calls : List Call} (h : ∀ call ∈ calls, ∀ d, call.defined? = some d → d.name ≠ name) :
    (w.after calls).definitions.get? name = none := by
  induction calls generalizing w with
  | nil => exact hd
  | cons call calls ih =>
    obtain ⟨hcall, hcalls⟩ := List.forall_mem_cons.mp h
    exact ih (isNamed_next hnamed call) (get?_next_eq_none hnamed hd hcall) hcalls

end World

end ContactCard.Settings
