import ContactCard.Proofs.Settings.Mapping
import ContactCard.Proofs.Text.Blank

/-!
# Copying settings

Settings are copied by setting all their values once more, so that every value is checked a second
time. The validators that settings come with let through what they have made as it is
(`Validator.IsProvided.isIdempotent`). So a value that has come into settings is one that its
validator leaves alone, whatever was done with them and whatever was refused
(`Settings.World.isChecked_after`), and a copy holds what the settings hold
(`Settings.World.copy_after`).
-/

namespace ContactCard

open Text

/-! ### Checking twice -/

namespace Validator

/-- The validator is one of those that settings come with. -/
def IsProvided : Validator → Prop
  | .custom _ => False
  | _ => True

/-- The validator leaves alone what it has let through. -/
def IsIdempotent (check : Validator) : Prop :=
  ∀ v w, check.apply v = .ok w → check.apply w = .ok w

theorem exists_of_booleanOfText {s : String} {w : Value} (h : booleanOfText s = .ok w) :
    ∃ b, w = .bool b := by
  unfold booleanOfText at h
  dsimp only at h
  split at h
  · exact ⟨true, (Except.ok.inj h).symm⟩
  · split at h
    · exact ⟨false, (Except.ok.inj h).symm⟩
    · exact absurd h nofun

theorem isIdempotent_boolean : IsIdempotent .boolean := by
  intro v w h
  obtain ⟨b, rfl⟩ : ∃ b, w = .bool b := by
    cases v with
    | text s =>
      rw [apply] at h
      exact exists_of_booleanOfText h
    | _ =>
      simp only [apply] at h
      exact ⟨_, (Except.ok.inj h).symm⟩
  simp only [apply, Value.isTruthy]

theorem isIdempotent_positive : IsIdempotent .positive := by
  intro v w h
  obtain ⟨i, -, h⟩ := exists_of_bind_eq_ok h
  split at h
  · exact absurd h nofun
  · next hi =>
    obtain rfl := Except.ok.inj h
    show (if i ≤ 0 then _ else _) = _
    rw [if_neg hi]
    rfl

theorem isIdempotent_range (start stop : Int) : IsIdempotent (.range start stop) := by
  intro v w h
  obtain ⟨i, -, h⟩ := exists_of_bind_eq_ok h
  split at h
  · next hi =>
    obtain rfl := Except.ok.inj h
    show (if start ≤ i ∧ i < stop then _ else _) = _
    rw [if_pos hi]
    rfl
  · exact absurd h nofun

/-- A list of stripped texts is its own list of stripped texts. -/
theorem apply_stringList_strip {α : Type} (f : α → String) (as : List α) :
    apply .stringList (.list (as.map fun a ↦ .text (strip (f a)))) =
      .ok (.list (as.map fun a ↦ .text (strip (f a)))) := by
  have htexts : (as.map fun a ↦ Value.text (strip (f a))).mapM (fun v ↦ Fault.lift v.toText) =
      .ok (as.map fun a ↦ strip (f a)) := by
    rw [List.mapM_map]
    exact List.mapM_pure
  rw [apply, htexts]
  show Except.ok (Value.list ((as.map fun a ↦ strip (f a)).map fun s ↦ Value.text (strip s))) = _
  simp only [List.map_map, Function.comp_def, strip_strip]

theorem isIdempotent_stringList : IsIdempotent .stringList := by
  intro v w h
  cases v with
  | list items =>
    rw [apply] at h
    obtain ⟨texts, -, h⟩ := exists_of_bind_eq_ok h
    obtain rfl := Except.ok.inj h
    exact apply_stringList_strip id texts
  | text s =>
    rw [apply] at h
    obtain rfl := Except.ok.inj h
    exact apply_stringList_strip String.ofList (splitAtCommas s.toList)
  | _ => exact absurd h nofun

/-- Truth values, numbers and lists of stripped texts are what they are made into. -/
theorem IsProvided.isIdempotent {check : Validator} (h : check.IsProvided) :
    check.IsIdempotent := by
  cases check with
  | boolean => exact isIdempotent_boolean
  | positive => exact isIdempotent_positive
  | stringList => exact isIdempotent_stringList
  | range start stop => exact isIdempotent_range start stop
  | custom check => exact absurd h id

end Validator

namespace Definitions

variable {ds ds' : Definitions} {P : Definition → Value → Prop}

/-- All validators leave alone what they have let through. -/
def AreIdempotent (ds : Definitions) : Prop :=
  ∀ name v w, ds.checked name v = .ok w → ds.checked name w = .ok w

theorem areIdempotent_of_isProvided
    (h : ∀ name d check, ds.get? name = some d → d.validator = some check → check.IsProvided) :
    ds.AreIdempotent := by
  intro name v w hw
  unfold checked at hw ⊢
  cases hcheck : (ds.get? name).bind Definition.validator with
  | none => rfl
  | some check =>
    rw [hcheck] at hw
    obtain ⟨d, hd, hcheck⟩ := Option.bind_eq_some_iff.mp hcheck
    exact (h name d check hd hcheck).isIdempotent v w hw

theorem Keeps.checked (h : ds.Keeps P ds') (name : String) (v : Value) :
    ds'.checked name v = ds.checked name v := by
  rw [Definitions.checked, Definitions.checked, h.validator]

theorem Keeps.areIdempotent (h : ds.Keeps P ds') (hds : ds.AreIdempotent) :
    ds'.AreIdempotent := by
  intro name v w hw
  rw [h.checked] at hw ⊢
  exact hds name v w hw

end Definitions

namespace Settings

variable {s t : Settings} {ds ds' : Definitions} {P : Definition → Value → Prop} {key v w : Value}
  {name : String}

/-! ### Settings that hold what was checked -/

/-- Every name is set once, to a value that its validator leaves alone. -/
structure IsChecked (s : Settings) (ds : Definitions) : Prop where
  nodup : s.keys.Nodup
  fixed : ∀ e ∈ s.stored.entries, ds.checked e.1 e.2 = .ok e.2

theorem isChecked_empty (ds : Definitions) : empty.IsChecked ds :=
  ⟨List.nodup_nil, fun _ he ↦ absurd he List.not_mem_nil⟩

namespace IsChecked

theorem keeps (h : s.IsChecked ds) (hds : ds.Keeps P ds') : s.IsChecked ds' :=
  ⟨h.nodup, fun e he ↦ (hds.checked e.1 e.2).trans (h.fixed e he)⟩

theorem insert (h : s.IsChecked ds) (hw : ds.checked name w = .ok w) :
    IsChecked ⟨s.stored.insert name w⟩ ds where
  nodup := OrderedMap.nodup_keys_insert h.nodup _ _
  fixed e he := by
    rcases OrderedMap.eq_or_mem_of_mem_insertEntry he with rfl | he
    · exact hw
    · exact h.fixed e he

theorem erase (h : s.IsChecked ds) (name : String) : IsChecked ⟨s.stored.erase name⟩ ds where
  nodup := OrderedMap.nodup_keys_erase h.nodup _
  fixed e he := h.fixed e (List.mem_of_mem_filter he)

theorem set (h : s.IsChecked ds) (hds : ds.AreIdempotent) (ht : s.set ds key v = .ok t) :
    t.IsChecked ds := by
  obtain ⟨name, w, -, hw, rfl⟩ := exists_of_set_eq_ok ht
  exact h.insert (hds name v w hw)

/-- What was set before an entry is refused was checked. -/
theorem setAll (h : s.IsChecked ds) (hds : ds.AreIdempotent) (entries : List (Value × Value)) :
    (s.setAll ds entries).1.IsChecked ds := by
  induction entries generalizing s with
  | nil => exact h
  | cons entry rest ih =>
    rw [Settings.setAll]
    cases ht : s.set ds entry.1 entry.2 with
    | ok t => exact ih (h.set hds ht)
    | error e => exact h

theorem delete (h : s.IsChecked ds) (ht : s.delete key = .ok t) : t.IsChecked ds := by
  obtain ⟨found, -, ht⟩ := exists_of_bind_eq_ok ht
  split at ht
  · exact Except.ok.inj ht ▸ h.erase _
  · exact absurd ht nofun

theorem popFirst (h : s.IsChecked ds) (ht : s.popFirst = .ok (t, name, v)) : t.IsChecked ds := by
  unfold Settings.popFirst at ht
  split at ht
  · exact absurd ht nofun
  · obtain ⟨rfl, -⟩ := Prod.mk.inj (Except.ok.inj ht)
    exact h.erase _

theorem takeOut (h : s.IsChecked ds) (key : Value) (default? : Option Value)
    (outcome : Except Error Value) : (s.takeOut key default? outcome).1.IsChecked ds := by
  cases outcome with
  | ok v =>
    rw [Settings.takeOut]
    cases ht : s.delete key with
    | ok t => exact h.delete ht
    | error e => exact h
  | error e => cases default? <;> exact h

theorem fillIn (h : s.IsChecked ds) (hds : ds.AreIdempotent) (key v : Value)
    (outcome : Except Error Value) : (s.fillIn ds key v outcome).1.IsChecked ds := by
  cases outcome with
  | ok w => exact h
  | error e =>
    rw [Settings.fillIn]
    split
    · cases ht : s.set ds key v with
      | ok t => exact h.set hds ht
      | error e => exact h
    · exact h

/-- A change that is refused leaves the settings as they are. -/
theorem ofChange {α : Type} (h : s.IsChecked ds) {changed : Except Error α}
    {f : α → Settings × Answer} (hf : ∀ a, changed = .ok a → (f a).1.IsChecked ds) :
    (Effect.ofChange ds s (changed.map f)).settings.IsChecked ds := by
  cases changed with
  | error e => exact h
  | ok a => exact hf a rfl

/-- Whatever is done with settings leaves values that were checked. -/
theorem made (h : s.IsChecked ds) (hnamed : ds.IsNamed) (hds : ds.AreIdempotent)
    (op : Operation) : (op.made ds s).settings.IsChecked ds := by
  cases op with
  | set key v => exact h.ofChange fun t ht ↦ h.set hds ht
  | delete key => exact h.ofChange fun t ht ↦ h.delete ht
  | popFirst => exact h.ofChange fun popped hpopped ↦ h.popFirst hpopped
  | pop key default? => exact h.takeOut key default? _
  | clear => exact isChecked_empty ds
  | setDefault key v =>
    show (s.setDefault ds key v).2.1.IsChecked ds
    rw [setDefault_snd, fillIn_congr (keeps_lookUp hnamed s _)]
    exact h.fillIn hds key v _
  | update entries => exact h.setAll hds entries
  | _ => exact h

end IsChecked

/-! ### Copies -/

/-- Values that their validators leave alone are set as they are. -/
theorem setAll_of_fixed {es : List (String × Value)}
    (h : ∀ e ∈ es, ds.checked e.1 e.2 = .ok e.2) :
    s.setAll ds (es.map fun (k, v) ↦ (.text k, v)) =
      (⟨es.foldl (fun m e ↦ m.insert e.1 e.2) s.stored⟩, .ok ()) := by
  induction es generalizing s with
  | nil => rfl
  | cons e rest ih =>
    obtain ⟨he, hrest⟩ := List.forall_mem_cons.mp h
    have hset : s.set ds (.text e.1) e.2 = .ok ⟨s.stored.insert e.1 e.2⟩ := by
      rw [set_of_toText (Value.toText_text e.1), he]
      rfl
    rw [List.map_cons, setAll, hset]
    exact ih hrest

theorem IsChecked.copy_eq (h : s.IsChecked ds) : s.copy ds = .ok s := by
  rw [copy, ofEntries, entries, setAll_of_fixed h.fixed]
  exact congrArg (fun m ↦ Except.ok (Settings.mk m)) (OrderedMap.ofList_entries h.nodup)

namespace World

variable {w : World} {i : Nat}

/-! ### Worlds in which values are checked once and for all -/

/-- All objects hold what was checked, by validators that leave alone what they have let through. -/
structure IsChecked (w : World) : Prop where
  named : w.definitions.IsNamed
  idempotent : w.definitions.AreIdempotent
  objects : ∀ s ∈ w.objects, s.IsChecked w.definitions

/-- It does not matter what defaults are kept. -/
theorem IsChecked.of_keeps (h : w.IsChecked) (hds : w.definitions.Keeps P ds)
    {objects : List Settings} (hobjects : ∀ s ∈ objects, s.IsChecked w.definitions) :
    IsChecked ⟨ds, objects⟩ where
  named := hds.isNamed h.named
  idempotent := hds.areIdempotent h.idempotent
  objects s hs := (hobjects s hs).keeps hds

theorem IsChecked.make (h : w.IsChecked) (entries : List (Value × Value)) :
    (w.make entries).1.IsChecked := by
  rw [World.make, ofEntries]
  have hmade := (isChecked_empty w.definitions).setAll h.idempotent entries
  generalize Settings.empty.setAll w.definitions entries = made at hmade ⊢
  obtain ⟨s, error | done⟩ := made
  · exact h
  · refine h.of_keeps (.refl (fun _ _ ↦ True) _) fun t ht ↦ ?_
    rcases List.mem_append.mp ht with ht | ht
    · exact h.objects t ht
    · exact List.mem_singleton.mp ht ▸ hmade

theorem IsChecked.use (h : w.IsChecked) (i : Nat) (op : Operation) : (w.use i op).1.IsChecked := by
  have hkeeps := keeps_use h.named i op
  rw [World.use] at hkeeps ⊢
  cases hs : w.objects[i]? with
  | none => exact h
  | some s =>
    rw [hs] at hkeeps
    have hchecked := h.objects s (List.mem_of_getElem? hs)
    refine h.of_keeps hkeeps fun t ht ↦ ?_
    rcases List.mem_or_eq_of_mem_set ht with ht | rfl
    · exact h.objects t ht
    · exact hchecked.made h.named h.idempotent op

/-- A call that defines nothing leaves the values checked. -/
theorem IsChecked.next (h : w.IsChecked) {call : Call} (hcall : call.defined? = none) :
    (w.next call).1.IsChecked := by
  cases call with
  | define d => exact absurd hcall nofun
  | make entries => exact h.make entries
  | copy i =>
    rw [World.next]
    cases w.objects[i]? with
    | none => exact h
    | some s => exact h.make s.entries
  | use i op => exact h.use i op

theorem IsChecked.after (h : w.IsChecked) {calls : List Call}
    (hcalls : ∀ call ∈ calls, call.defined? = none) : (w.after calls).IsChecked := by
  induction calls generalizing w with
  | nil => exact h
  | cons call calls ih =>
    obtain ⟨hcall, hcalls⟩ := List.forall_mem_cons.mp hcalls
    exact ih (h.next hcall) hcalls

/-! ### Definitions that come first -/

/-- Defining settings adds no other definitions, and no objects. -/
theorem after_define (definitions : List Definition) (w : World) :
    (w.after (definitions.map .define)).objects = w.objects ∧
      ∀ name d, (w.after (definitions.map .define)).definitions.get? name = some d →
        w.definitions.get? name = some d ∨ d ∈ definitions := by
  induction definitions generalizing w with
  | nil => exact ⟨rfl, fun _ _ hd ↦ .inl hd⟩
  | cons first rest ih =>
    obtain ⟨hobjects, hdefinitions⟩ := ih (w.define first).1
    refine ⟨hobjects.trans ?_, fun name d hd ↦ ?_⟩
    · rw [define]
      cases w.definitions.define first <;> rfl
    · rcases hdefinitions name d hd with hd | hd
      · rcases w.get?_define first name with hsame | ⟨-, -, hfirst⟩
        · exact .inl (hsame.symm.trans hd)
        · exact .inr (Option.some.inj (hd.symm.trans hfirst) ▸ List.mem_cons_self)
      · exact .inr (List.mem_cons_of_mem _ hd)

theorem isChecked_define {definitions : List Definition}
    (h : ∀ d ∈ definitions, ∀ check, d.validator = some check → check.IsProvided) :
    (empty.after (definitions.map .define)).IsChecked := by
  obtain ⟨hobjects, hdefinitions⟩ := after_define definitions empty
  refine ⟨isNamed_after isNamed_empty _, ?_, fun s hs ↦ ?_⟩
  · refine Definitions.areIdempotent_of_isProvided fun name d check hd hcheck ↦ ?_
    exact h d ((hdefinitions name d hd).resolve_left nofun) check hcheck
  · rw [hobjects] at hs
    exact absurd hs List.not_mem_nil

/-- Settings are defined with validators that settings come with, and then any calls follow that
define nothing, of which some may be refused. Every object holds only values that their validators
leave alone, and copying it succeeds and comes to an equal object. -/
theorem copy_after {definitions : List Definition}
    (h : ∀ d ∈ definitions, ∀ check, d.validator = some check → check.IsProvided)
    {calls : List Call} (hcalls : ∀ call ∈ calls, call.defined? = none) :
    let w := (empty.after (definitions.map .define)).after calls
    ∀ i s, w.objects[i]? = some s →
      (∀ name v check, s.stored.get? name = some v →
        (w.definitions.get? name).bind Definition.validator = some check →
        check.apply v = .ok v) ∧
      w.next (.copy i) = (⟨w.definitions, w.objects ++ [s]⟩, .ok .nothing) ∧ s.same s = true := by
  intro w i s hs
  have hchecked : s.IsChecked w.definitions :=
    ((isChecked_define h).after hcalls).objects s (List.mem_of_getElem? hs)
  refine ⟨fun name v check hv hcheck ↦ ?fixed, ?copied, Value.same_self _⟩
  case fixed =>
    have hfixed := hchecked.fixed (name, v) (OrderedMap.mem_entries_of_get? hv)
    rwa [Definitions.checked, hcheck] at hfixed
  case copied =>
    rw [next, hs]
    show w.make s.entries = _
    rw [make, ← copy, hchecked.copy_eq]

/-- A list of names that was read from a text, and an indentation: it is set by an update whose last
entry is refused, after it was refused once. -/
theorem copy_after_names :
    let definitions : List Definition := [
      ⟨"names", "list", .null, none, false, none, some .stringList⟩,
      ⟨"xml_indent", "int", .int (-1), none, false, none, some (.range (-1) 17)⟩]
    let calls : List Call := [.make [(.text "names", .text "Ann , Bob")],
      .use 0 (.set (.text "xml_indent") (.text "17")),
      .use 0 (.update [(.text "xml_indent", .text " 2 "), (.text "xml_indent", .null)])]
    let w := (empty.after (definitions.map .define)).after calls
    let s : Settings :=
      ⟨⟨[("names", .list [.text "Ann", .text "Bob"]), ("xml_indent", .int 2)]⟩⟩
    (∀ d ∈ definitions, ∀ check, d.validator = some check → check.IsProvided) ∧
      (∀ call ∈ calls, call.defined? = none) ∧ w.objects = [s] ∧
      w.next (.copy 0) = (⟨w.definitions, [s, s]⟩, .ok .nothing) := by
  intro definitions calls w s
  have hprovided : ∀ d ∈ definitions, ∀ check, d.validator = some check → check.IsProvided := by
    simp [definitions, Validator.IsProvided]
  have hcalls : ∀ call ∈ calls, call.defined? = none := by simp [calls, Call.defined?]
  have hobjects : w.objects = [s] := rfl
  refine ⟨hprovided, hcalls, hobjects, ?_⟩
  have hs : w.objects[0]? = some s := by rw [hobjects]; rfl
  exact (copy_after hprovided hcalls 0 s hs).2.1

end World

end Settings

end ContactCard
