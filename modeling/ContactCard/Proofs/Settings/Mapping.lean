import ContactCard.Proofs.Settings.Runs
import ContactCard.Proofs.Settings.Transparency

/-!
# Settings as a map

Settings are to be used like a map of what is set: taking a value out under a name gives back the
default that was brought along if nothing is set, and a name has a value after it was given a
default. Both go wrong for a setting that is not set but has a value all the same, since its
definition supplies one: such a value cannot be taken out, and it keeps the default that was brought
along from being set. These are the only exceptions but one, a validator that changes what it is
given (`Settings.pop_setDefault_iff`).
-/

namespace ContactCard

/-- The value that a setting takes on when it is given `v`. -/
def Definitions.checked (ds : Definitions) (name : String) (v : Value) : Except Error Value :=
  ((ds.get? name).bind Definition.validator).elim (.ok v) fun check ↦ check.apply v

namespace Settings

/-- Reading the setting is refused because it has no value. -/
def Lacks (s : Settings) (ds : Definitions) (name : String) : Prop :=
  ∃ e, (s.lookUp ds (.ofName name)).2 = .error e ∧ e.isMissingKey = true

/-- What taking a value out comes to where nothing but what is set counts: the settings without it
and the value, or the settings as they are and the default. -/
def plainPop (s : Settings) (name : String) (default : Value) : Settings × Except Error Value :=
  match s.stored.get? name with
  | some v => (⟨s.stored.erase name⟩, .ok v)
  | none => (s, .ok default)

variable {s : Settings} {ds : Definitions} {name : String} {v d : Value} {e : Error}

/-! ### Settings without a value -/

theorem lookUp_of_get? (h : s.stored.get? name = some v) :
    s.lookUp ds (.ofName name) = (ds, .ok v) := by
  rw [lookUp, Request.ofName, answer_of_get? h]

/-! ### Operations -/

theorem delete_of_get? (h : s.stored.get? name = some v) :
    s.delete (.text name) = .ok ⟨s.stored.erase name⟩ := by
  rw [delete, stored?, h]
  rfl

theorem delete_of_get?_eq_none (h : s.stored.get? name = none) :
    s.delete (.text name) = .error (.fault .missingKey) := by
  rw [delete, stored?, h]
  rfl

/-- Taking out works for what is set, and for what has no value at all. -/
theorem pop_eq_plainPop_iff (s : Settings) (ds : Definitions) (name : String) (d : Value) :
    (s.pop ds (.text name) (some d)).2 = s.plainPop name d ↔
      s.stored.contains name = true ∨ s.Lacks ds name := by
  rw [pop_snd, ← Request.ofName, plainPop, OrderedMap.contains]
  cases hs : s.stored.get? name with
  | some v =>
    rw [lookUp_of_get? hs, takeOut, delete_of_get? hs]
    exact iff_of_true rfl (.inl rfl)
  | none =>
    rw [Option.isSome_none, Lacks]
    cases (s.lookUp ds (.ofName name)).2 with
    | ok v =>
      rw [takeOut, delete_of_get?_eq_none hs]
      simp
    | error e =>
      rw [takeOut]
      cases hmissing : e.isMissingKey <;> simp [hmissing]

/-- What is set is the value that the validator makes of the given one. -/
theorem setName_eq (s : Settings) (ds : Definitions) (name : String) (v : Value) :
    s.setName ds name v = (ds.checked name v).map fun w ↦ ⟨s.stored.insert name w⟩ := by
  unfold setName Definitions.checked
  cases (ds.get? name).bind Definition.validator <;> rfl

/-- It is set under the text of the key. -/
theorem set_of_toText {key : Value} (h : key.toText = .ok name) (s : Settings) (ds : Definitions)
    (v : Value) : s.set ds key v = (ds.checked name v).map fun w ↦ ⟨s.stored.insert name w⟩ := by
  rw [Settings.set, h]
  exact s.setName_eq ds name v

theorem exists_of_set_eq_ok {key : Value} {t : Settings} (h : s.set ds key v = .ok t) :
    ∃ name w, key.toText = .ok name ∧ ds.checked name v = .ok w ∧
      t = ⟨s.stored.insert name w⟩ := by
  obtain ⟨name, hname, h⟩ := exists_of_bind_eq_ok h
  rw [setName_eq] at h
  cases hw : ds.checked name v with
  | error e =>
    rw [hw] at h
    exact absurd h (by simp [Except.map])
  | ok w =>
    rw [hw] at h
    exact ⟨name, w, Fault.eq_ok_of_lift_eq_ok hname, hw, (Except.ok.inj h).symm⟩

theorem fillIn_of_isMissingKey (h : e.isMissingKey = true) :
    s.fillIn ds (.text name) d (.error e) =
      match ds.checked name d with
      | .ok w => (⟨s.stored.insert name w⟩, .ok d)
      | .error e => (s, .error e) := by
  rw [fillIn, if_pos h, set_of_toText (Value.toText_text name)]
  cases ds.checked name d <;> rfl

/-- A setting that lacks a value is set to what is answered if it takes the default as it is. -/
theorem exists_fillIn_iff (h : e.isMissingKey = true) :
    (∃ s' v, s.fillIn ds (.text name) d (.error e) = (s', .ok v) ∧ s'.stored.get? name = some v) ↔
      ds.checked name d = .ok d := by
  rw [fillIn_of_isMissingKey h]
  cases ds.checked name d with
  | error e => simp
  | ok w =>
    -- the answer is the default, but what is set is what the validator made of it
    have hget : (s.stored.insert name w).get? name = some w := OrderedMap.get?_insert_self _ _ _
    constructor
    · rintro ⟨s', v, hset, hv⟩
      obtain ⟨rfl, hanswer⟩ := Prod.mk.inj hset
      obtain rfl := Option.some.inj (hget.symm.trans hv)
      exact congrArg Except.ok (Except.ok.inj hanswer).symm
    · intro hw
      exact ⟨_, w, congrArg (Prod.mk _) hw.symm, hget⟩

/-- After a setting was given a default it is set to the answer, if it was set before or has no value
at all and takes the default as it is. -/
theorem exists_setDefault_iff (hnamed : ds.IsNamed) (s : Settings) (name : String) (d : Value) :
    (∃ s' v, (s.setDefault ds (.text name) d).2 = (s', .ok v) ∧ s'.stored.get? name = some v) ↔
      s.stored.contains name = true ∨ s.Lacks ds name ∧ ds.checked name d = .ok d := by
  rw [setDefault_snd, fillIn_congr (keeps_lookUp hnamed s _), ← Request.ofName, OrderedMap.contains]
  cases hs : s.stored.get? name with
  | some v =>
    rw [lookUp_of_get? hs]
    exact iff_of_true ⟨s, v, rfl, hs⟩ (.inl rfl)
  | none =>
    rw [Option.isSome_none, Lacks]
    cases (s.lookUp ds (.ofName name)).2 with
    | ok v => simp [fillIn, hs]
    | error e =>
      cases hmissing : e.isMissingKey with
      | false => simp [fillIn, hmissing]
      | true =>
        rw [exists_fillIn_iff hmissing]
        simp [hmissing]

/-- After any calls, for any settings, name and default. Taking the name out with the default at hand
does what it does to a map, and giving the name the default leaves it set to the answer, if the name
is set; and also if it has no value at all, where the default must be one that the setting takes as
it is. In all other cases, where the definition supplies a value, neither holds. -/
theorem pop_setDefault_iff (calls : List Call) (s : Settings) (name : String) (d : Value) :
    let ds := (World.empty.after calls).definitions
    ((s.pop ds (.text name) (some d)).2 = s.plainPop name d ↔
      s.stored.contains name = true ∨ s.Lacks ds name) ∧
    ((∃ s' v, (s.setDefault ds (.text name) d).2 = (s', .ok v) ∧ s'.stored.get? name = some v) ↔
      s.stored.contains name = true ∨ s.Lacks ds name ∧ ds.checked name d = .ok d) :=
  ⟨pop_eq_plainPop_iff s _ name d,
    exists_setDefault_iff (World.isNamed_after World.isNamed_empty calls) s name d⟩

/-- The indentation is not set and has a default: it cannot be taken out although a default is at
hand, and giving it a default leaves it as it is. -/
theorem default_not_taken_out :
    (empty.pop .standard (.text "xml_indent") (some (.int 5))).2 =
        (empty, .error (.fault .missingKey)) ∧
      (empty.pop .standard (.text "xml_indent") (some (.int 5))).2 ≠
        empty.plainPop "xml_indent" (.int 5) ∧
      (empty.setDefault .standard (.text "xml_indent") (.int 4)).2 = (empty, .ok (.int (-1))) ∧
      empty.stored.get? "xml_indent" = none := by
  have hpop : (empty.pop .standard (.text "xml_indent") (some (.int 5))).2 =
      (empty, .error (.fault .missingKey)) := rfl
  refine ⟨hpop, fun h ↦ ?_, rfl, rfl⟩
  exact absurd (congrArg Prod.snd (hpop.symm.trans h)) nofun

end Settings

end ContactCard
