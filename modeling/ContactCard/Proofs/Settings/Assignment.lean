import ContactCard.Proofs.Settings.Consulting

/-!
# Setting a value

A value that settings accept under a key is there to be found from then on, as its validator made it,
under the text of the key. Other keys are read as before unless their defaults take account of that
name, and the value can be taken back: then the name is read like one that was never set. A value that
is refused changes nothing (`Settings.World.assigns_set`).

A key that is not a text is not found under itself afterwards, and a default that a factory computes
follows what is set (`Settings.World.assigned_name_alters_default`).
-/

namespace ContactCard.Settings

/-- What a look-up comes to for a name that is not set: the default that was brought along, else that
of the definition or what its factory computes, else nothing. -/
def absent (s : Settings) (ds : Definitions) (name : String) (fallback : Value) (required : Bool) :
    Except Error Value :=
  match fallback, ds.get? name with
  | .null, some d => s.freshDefault ds (fuel ds) d
  | .null, none => if required then .error (.unknownSetting (.text name)) else .ok .null
  | v, _ => .ok v

variable {s : Settings} {ds : Definitions} {name : String}

theorem lookUp_of_get?_eq_none (hnamed : ds.IsNamed) (hs : s.stored.get? name = none)
    (fallback : Value) (required : Bool) :
    (s.lookUp ds ⟨.text name, fallback, required⟩).2 = s.absent ds name fallback required := by
  rw [lookUp_snd hnamed, freshAnswer]
  cases fallback with
  | null =>
    cases hd : ds.get? name <;>
      simp only [answer, absent, stored?, hs, Value.text?_text, Option.bind_some, hd]
  | _ =>
    rw [answer, stored?, hs]
    rfl

namespace World

variable {w after : World} {i : Nat} {key v : Value}

/-! ### One object -/

theorem use_of_getElem? (hs : w.objects[i]? = some s) (op : Operation) :
    w.use i op = (⟨(op.made w.definitions s).definitions,
      w.objects.set i (op.made w.definitions s).settings⟩, (op.made w.definitions s).answer) := by
  rw [use, hs]

/-- What comes of an operation on an object that was replaced. -/
theorem use_set_objects (hs : w.objects[i]? = some s) (t : Settings) (op : Operation) :
    use ⟨w.definitions, w.objects.set i t⟩ i op = (⟨(op.made w.definitions t).definitions,
      w.objects.set i (op.made w.definitions t).settings⟩, (op.made w.definitions t).answer) := by
  have ht : (w.objects.set i t)[i]? = some t :=
    List.getElem?_set_self (List.getElem?_eq_some_iff.mp hs).1
  rw [use_of_getElem? ht, List.set_set]

theorem use_set_of_eq_ok (hs : w.objects[i]? = some s) {t : Settings}
    (ht : s.set w.definitions key v = .ok t) :
    w.use i (.set key v) = (⟨w.definitions, w.objects.set i t⟩, .ok .nothing) := by
  rw [use_of_getElem? hs, Operation.made, ht]
  rfl

/-- A value that is refused changes nothing. -/
theorem use_set_of_eq_error (hs : w.objects[i]? = some s) {e : Error}
    (he : s.set w.definitions key v = .error e) : w.use i (.set key v) = (w, .error e) := by
  rw [use_of_getElem? hs, Operation.made, he]
  obtain ⟨hi, rfl⟩ := List.getElem?_eq_some_iff.mp hs
  exact congrArg (fun objects ↦ (World.mk w.definitions objects, Except.error e))
    (List.set_getElem_self hi)

/-! ### After a value was set -/

/-- In the second world the object, which has the settings `s` in the first, has been given the value
`v` under the name, and this is all that was done. -/
structure Assigns (w after : World) (i : Nat) (s : Settings) (name : String) (v : Value) : Prop where
  /-- The name is set. -/
  contained : (after.use i (.contains (.text name))).2 = .ok (.flag true)
  /-- It has this value, whatever default is brought along. -/
  found : ∀ fallback required,
    (after.use i (.look ⟨.text name, fallback, required⟩)).2 = .ok (.value v)
  /-- Other keys are read as before, unless their look-ups consult the name. -/
  others : ∀ r : Request, ¬s.Consults w.definitions name r →
    (after.use i (.look r)).2 = (w.use i (.look r)).2
  /-- The name can be unset. -/
  deleted : (after.use i (.delete (.text name))).2 = .ok .nothing
  /-- It is read then like a name that is not set. -/
  restored : ∀ fallback required,
    ((after.use i (.delete (.text name))).1.use i (.look ⟨.text name, fallback, required⟩)).2 =
      (absent ⟨s.stored.erase name⟩ w.definitions name fallback required).map .value

/-- All that counts is what the settings find, and that they are as before once the name is unset. -/
theorem assigns_of_get? (hnamed : w.definitions.IsNamed) (hs : w.objects[i]? = some s) {t : Settings}
    (hget : t.stored.get? name = some v)
    (hothers : ∀ other, other ≠ name → t.stored.get? other = s.stored.get? other)
    (herase : t.stored.erase name = s.stored.erase name) :
    w.Assigns ⟨w.definitions, w.objects.set i t⟩ i s name v := by
  have hdelete : t.delete (.text name) = .ok ⟨s.stored.erase name⟩ := by
    rw [delete_of_get? hget, herase]
  refine ⟨?contained, fun fallback required ↦ ?found, fun r hr ↦ ?others, ?deleted,
    fun fallback required ↦ ?restored⟩
  case contained =>
    rw [use_set_objects hs, Operation.made, Settings.contains, stored?, hget]
    rfl
  case found =>
    rw [use_set_objects hs, Operation.made, lookUp, answer_of_get? hget]
    rfl
  case others =>
    rw [use_set_objects hs, use_of_getElem? hs]
    exact congrArg (Except.map Answer.value) (lookUp_of_not_consults hnamed hothers hr)
  case deleted =>
    rw [use_set_objects hs, Operation.made, hdelete]
    rfl
  case restored =>
    rw [use_set_objects hs t (.delete _), Operation.made, hdelete]
    dsimp only [Except.map, Effect.ofChange]
    rw [use_set_objects hs]
    exact congrArg (Except.map Answer.value)
      (lookUp_of_get?_eq_none hnamed (OrderedMap.get?_erase_self _ _) fallback required)

/-- After any calls, for any object, key and value. If the assignment is refused nothing changes at
all; if not, the object has been given the value that the validator makes of the given one, under the
text of the key. -/
theorem assigns_set (calls : List Call) {i : Nat} {s : Settings}
    (hs : (empty.after calls).objects[i]? = some s) (key v : Value) :
    let w := empty.after calls
    (∀ e, (w.use i (.set key v)).2 = .error e → (w.use i (.set key v)).1 = w) ∧
    ∀ answer, (w.use i (.set key v)).2 = .ok answer →
      ∃ name u, key.toText = .ok name ∧ w.definitions.checked name v = .ok u ∧
        w.Assigns (w.use i (.set key v)).1 i s name u := by
  intro w
  cases hset : s.set w.definitions key v with
  | error e =>
    rw [use_set_of_eq_error hs hset]
    exact ⟨fun _ _ ↦ rfl, nofun⟩
  | ok t =>
    obtain ⟨name, u, hname, hu, rfl⟩ := exists_of_set_eq_ok hset
    have hassigns :
        w.Assigns ⟨w.definitions, w.objects.set i ⟨s.stored.insert name u⟩⟩ i s name u :=
      assigns_of_get? (isNamed_after isNamed_empty calls) hs (OrderedMap.get?_insert_self _ _ _)
        (fun _ hne ↦ OrderedMap.get?_insert_of_ne hne _ _) (OrderedMap.erase_insert _ _ _)
    rw [use_set_of_eq_ok hs hset]
    exact ⟨nofun, fun _ _ ↦ ⟨name, u, hname, hu, hassigns⟩⟩

/-- The indentation is set to the number that a text spells, and to nothing that is out of range. -/
theorem assigns_set_indentation :
    let w := empty.after [.define ⟨"xml_indent", "int", .int (-1), none, false, none,
      some (.range (-1) 17)⟩, .make []]
    w.objects[0]? = some .empty ∧ (w.use 0 (.set (.text "xml_indent") (.text "17"))).1 = w ∧
      w.Assigns (w.use 0 (.set (.text "xml_indent") (.text "2"))).1 0 .empty "xml_indent"
        (.int 2) := by
  intro w
  have hs : w.objects[0]? = some .empty := rfl
  refine ⟨hs, (assigns_set _ hs _ _).1 (.outsideRange (-1) 17) rfl, ?_⟩
  obtain ⟨name, u, hname, hu, hassigns⟩ :=
    (assigns_set _ hs (.text "xml_indent") (.text "2")).2 .nothing rfl
  obtain rfl := Except.ok.inj hname
  obtain rfl := Except.ok.inj hu
  exact hassigns

/-- The default of the signature is the name. It is read as the name once that is set, where it was
refused before. And what is set under the number five is not found under that number, nor can it be
taken back there. -/
theorem assigned_name_alters_default :
    let w := empty.after [.define ⟨"signature", "str", .null, some (.setting "name"), false, none,
      none⟩, .make []]
    let named := w.use 0 (.set (.text "name") (.text "Ann"))
    let numbered := w.use 0 (.set (.int 5) (.text "x"))
    named.2 = .ok .nothing ∧
      (w.use 0 (.look (.ofName "signature"))).2 = .error (.unknownSetting (.text "name")) ∧
      (named.1.use 0 (.look (.ofName "signature"))).2 = .ok (.value (.text "Ann")) ∧
      numbered.2 = .ok .nothing ∧
      (numbered.1.use 0 (.contains (.int 5))).2 = .ok (.flag false) ∧
      (numbered.1.use 0 (.look ⟨.int 5, .null, true⟩)).2 = .error (.unknownSetting (.int 5)) ∧
      (numbered.1.use 0 (.delete (.int 5))).2 = .error (.fault .missingKey) :=
  ⟨rfl, rfl, rfl, rfl, rfl, rfl, rfl⟩

end World

end ContactCard.Settings
