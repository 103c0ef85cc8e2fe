import ContactCard.Proofs.Settings.Reading

/-!
# Defaults that are kept

Looking settings up changes the definitions in one way only: a definition without a default, which
asks a factory for one and says that the answer is to be kept, gets the answer for its default
(`Definition.Keeps`). Names, kinds, factories and validators stay, and no definition comes or goes
(`Settings.keeps_lookUp`).
-/

namespace ContactCard

/-- `e` is the definition `d`, or `d` with a computed default that was kept; the default is one that
`P` allows. -/
inductive Definition.Keeps (P : Value → Prop) (d : Definition) : Definition → Prop where
  | same : d.Keeps P d
  | kept {f : Factory} {v : Value} (hpending : d.pending? = some f) (hcached : d.cached = true)
    (hv : v ≠ .null) (hP : P v) : d.Keeps P { d with default := v }

namespace Definition.Keeps

variable {P Q : Value → Prop} {d e e' : Definition}

/-- A definition that still waits for its default is the one it was. -/
theorem eq_of_pending? (h : d.Keeps P e) {f : Factory} (he : e.pending? = some f) : e = d := by
  cases h with
  | same => rfl
  | kept _ _ hv _ => exact absurd (default_of_pending? he).1 hv

/-- A definition that waits for no default stays the one it is. -/
theorem eq_of_pending?_eq_none (h : d.Keeps P e) (hd : d.pending? = none) : e = d := by
  cases h with
  | same => rfl
  | kept hpending _ _ _ => exact absurd (hd.symm.trans hpending) nofun

theorem validator (h : d.Keeps P e) : e.validator = d.validator := by cases h <;> rfl

theorem name (h : d.Keeps P e) : e.name = d.name := by cases h <;> rfl

theorem trans (h : d.Keeps P e) (h' : e.Keeps P e') : d.Keeps P e' := by
  cases h' with
  | same => exact h
  | kept hpending hcached hv hP =>
    obtain rfl := h.eq_of_pending? hpending
    exact .kept hpending hcached hv hP

end Definition.Keeps

namespace Definitions

/-- Every definition stands under its own name. -/
def IsNamed (ds : Definitions) : Prop := ∀ name d, ds.get? name = some d → d.name = name

theorem mem_of_get?_ofList {definitions : List Definition} {name : String} {d : Definition}
    (hd : (ofList definitions).get? name = some d) : d ∈ definitions ∧ d.name = name := by
  obtain ⟨d', hmem, heq⟩ := List.mem_map.mp
    (OrderedMap.mem_of_mem_ofList (OrderedMap.mem_entries_of_get? hd))
  obtain ⟨rfl, rfl⟩ := Prod.mk.inj heq
  exact ⟨hmem, rfl⟩

theorem isNamed_ofList (definitions : List Definition) : (ofList definitions).IsNamed :=
  fun _ _ hd ↦ (mem_of_get?_ofList hd).2

/-- `ds'` has the definitions of `ds`, but that some of them keep a computed default. -/
structure Keeps (P : Definition → Value → Prop) (ds ds' : Definitions) : Prop where
  keys : ds'.table.keys = ds.table.keys
  definition : ∀ name d, ds.get? name = some d → ∃ e, ds'.get? name = some e ∧ d.Keeps (P d) e

variable {P : Definition → Value → Prop} {ds ds' : Definitions} {name : String} {d e : Definition}

theorem Keeps.refl (P : Definition → Value → Prop) (ds : Definitions) : ds.Keeps P ds :=
  ⟨rfl, fun _ d hd ↦ ⟨d, hd, .same⟩⟩

theorem mem_keys_iff : name ∈ ds.table.keys ↔ (ds.get? name).isSome :=
  OrderedMap.contains_iff_mem_keys.symm

/-- What is defined afterwards was defined before. -/
theorem Keeps.exists_get? (h : ds.Keeps P ds') (he : ds'.get? name = some e) :
    ∃ d, ds.get? name = some d ∧ d.Keeps (P d) e := by
  have hmem : name ∈ ds'.table.keys := mem_keys_iff.mpr (by rw [he]; rfl)
  obtain ⟨d, hd⟩ := Option.isSome_iff_exists.mp (mem_keys_iff.mp (h.keys ▸ hmem))
  obtain ⟨e', he', hkeeps⟩ := h.definition name d hd
  obtain rfl := Option.some.inj (he'.symm.trans he)
  exact ⟨d, hd, hkeeps⟩

theorem Keeps.get?_eq_none (h : ds.Keeps P ds') (hd : ds.get? name = none) :
    ds'.get? name = none := by
  cases he : ds'.get? name with
  | none => rfl
  | some e =>
    obtain ⟨d, hd', -⟩ := h.exists_get? he
    exact absurd (hd.symm.trans hd') nofun

theorem Keeps.isNamed (h : ds.Keeps P ds') (hds : ds.IsNamed) : ds'.IsNamed := by
  intro name e he
  obtain ⟨d, hd, hkeeps⟩ := h.exists_get? he
  exact hkeeps.name.trans (hds name d hd)

theorem Keeps.validator (h : ds.Keeps P ds') (name : String) :
    (ds'.get? name).bind Definition.validator = (ds.get? name).bind Definition.validator := by
  cases hd : ds.get? name with
  | none => rw [h.get?_eq_none hd]
  | some d =>
    obtain ⟨e, he, hkeeps⟩ := h.definition name d hd
    rw [he]
    exact hkeeps.validator

/-- Keeping the answer of a factory is a change of this kind. -/
theorem Keeps.remember (h : ds.Keeps P ds') (hname : ds.get? d.name = some d) {f : Factory}
    (hpending : d.pending? = some f) (hcached : d.cached = true) {v : Value}
    (hv : v ≠ .null → P d v) : ds.Keeps P (ds'.remember d v) := by
  have hmem : d.name ∈ ds'.table.keys := by
    rw [h.keys]
    exact mem_keys_iff.mpr (by rw [hname]; rfl)
  refine ⟨(OrderedMap.keys_insert_of_contains hmem _).trans h.keys, fun name d' hd' ↦ ?_⟩
  by_cases heq : name = d.name
  · subst heq
    obtain rfl := Option.some.inj (hname.symm.trans hd')
    refine ⟨_, OrderedMap.get?_insert_self _ _ _, ?_⟩
    -- an answer that is null counts as none, and leaves the definition as it is
    by_cases hnull : v = .null
    · have hsame : ({ d with default := v } : Definition) = d := by
        rw [hnull, ← (Definition.default_of_pending? hpending).1]
      exact hsame ▸ .same
    · exact .kept hpending hcached hnull (hv hnull)
  · obtain ⟨e, he, hkeeps⟩ := h.definition name d' hd'
    exact ⟨e, (OrderedMap.get?_insert_of_ne heq _ _).trans he, hkeeps⟩

end Definitions

namespace Settings

/-! ### What a look-up does to the definitions -/

/-- What a request that finds nothing comes to. -/
def missing (r : Request) : Except Error Value :=
  if r.required then .error (.unknownSetting r.key) else .ok .null

/-- A request is answered from what is set and from what it brings along, or else, if it is for a
name, by the definition of that name. -/
theorem answer_cases (s : Settings) (r : Request) :
    (∃ o, ∀ default ds, s.answer default ds r = (ds, o)) ∨
    ∃ name, s.stored.get? name = none ∧ ∀ default ds,
      s.answer default ds r = (ds.get? name).elim (ds, missing r) (default ds) := by
  obtain ⟨key, fallback, required⟩ := r
  cases hstored : s.stored? key with
  | error e => exact .inl ⟨.error e, fun default ds ↦ by simp only [answer, hstored]⟩
  | ok found =>
    cases found with
    | some v => exact .inl ⟨.ok v, fun default ds ↦ by simp only [answer, hstored]⟩
    | none =>
      cases fallback with
      | null =>
        cases key with
        | text name =>
          refine .inr ⟨name, Except.ok.inj hstored, fun default ds ↦ ?_⟩
          simp only [answer, hstored, Value.text?_text, Option.bind_some]
          cases ds.get? name <;> rfl
        | _ => exact .inl ⟨_, fun default ds ↦ by simp only [answer, hstored]; rfl⟩
      | _ => exact .inl ⟨_, fun default ds ↦ by simp only [answer, hstored]; rfl⟩

variable {I : Definitions → Prop} {s : Settings} {ds ds' : Definitions}
  {P : Definition → Value → Prop}

/-- What every default that is found leaves true of the definitions, an answer does. -/
theorem answer_preserves {default : Definitions → Definition → Finding} {r : Request}
    (h : ∀ name d, s.stored.get? name = none → ds.get? name = some d → I (default ds d).1)
    (hds : I ds) : I (s.answer default ds r).1 := by
  rcases s.answer_cases r with ⟨o, ho⟩ | ⟨name, hstored, hname⟩
  · rw [ho]
    exact hds
  · rw [hname]
    cases hd : ds.get? name with
    | none => exact hds
    | some d => exact h name d hstored hd

/-- What every answer leaves true of the definitions, a computation does. -/
theorem run_preserves {stored : OrderedMap String Value} {answer : Definitions → Request → Finding}
    (h : ∀ ds r, I ds → I (answer ds r).1) (c : Computation) (hds : I ds) :
    I (run stored answer c ds).1 := by
  induction c generalizing ds with
  | done outcome => exact hds
  | inspect next ih => exact ih stored hds
  | look r next ih =>
    rw [run]
    have hr := h ds r hds
    generalize answer ds r = finding at hr ⊢
    obtain ⟨ds', o⟩ := finding
    dsimp only
    split
    · exact hr
    · exact ih o hr

theorem keep_snd (d : Definition) (finding : Finding) : (keep d finding).2 = finding.2 := by
  obtain ⟨ds, error | v⟩ := finding <;> rfl

/-- The answer of a factory is kept where its definition says so. -/
theorem keeps_keep {finding : Finding} {d : Definition} {f : Factory} (h : ds.Keeps P finding.1)
    (hname : ds.get? d.name = some d) (hpending : d.pending? = some f)
    (hP : ∀ v, finding.2 = .ok v → d.cached = true → v ≠ .null → P d v) :
    ds.Keeps P (keep d finding).1 := by
  obtain ⟨ds', error | v⟩ := finding
  · exact h
  · show ds.Keeps P (if d.cached then ds'.remember d v else ds')
    split
    · next hcached => exact h.remember hname hpending hcached (hP v rfl hcached)
    · exact h

/-- Finding a default keeps it and the defaults that it was computed from, and nothing else. -/
theorem keeps_defaultOf (hnamed : ds.IsNamed) (h : ds.Keeps (fun _ _ ↦ True) ds') (fuel : Nat)
    {name : String} {e : Definition} (he : ds'.get? name = some e) :
    ds.Keeps (fun _ _ ↦ True) (s.defaultOf fuel ds' e).1 := by
  induction fuel generalizing ds' name e with
  | zero => exact h
  | succ fuel ih =>
    cases hpending : e.pending? with
    | none =>
      rw [defaultOf_of_pending?_eq_none hpending]
      exact h
    | some f =>
      rw [defaultOf_succ hpending]
      obtain ⟨d, hd, hkeeps⟩ := h.exists_get? he
      obtain rfl := hkeeps.eq_of_pending? hpending
      refine keeps_keep ?_ ((hnamed name e hd).symm ▸ hd) hpending fun _ _ _ _ ↦ trivial
      exact run_preserves (I := ds.Keeps fun _ _ ↦ True)
        (fun _ _ hds ↦ answer_preserves (fun _ _ _ hd ↦ ih hds hd) hds) f.steps h

/-- Looking a setting up changes the definitions by keeping defaults, and in no other way. -/
theorem keeps_lookUp (hnamed : ds.IsNamed) (s : Settings) (r : Request) :
    ds.Keeps (fun _ _ ↦ True) (s.lookUp ds r).1 :=
  answer_preserves (fun _ _ _ hd ↦ keeps_defaultOf hnamed (.refl _ ds) (fuel ds) hd) (.refl _ ds)

/-! ### Setting values while defaults are kept -/

theorem setName_congr (h : ds.Keeps P ds') (s : Settings) (name : String) (v : Value) :
    s.setName ds' name v = s.setName ds name v := by
  rw [setName, setName, h.validator]

theorem set_congr (h : ds.Keeps P ds') (s : Settings) (key v : Value) :
    s.set ds' key v = s.set ds key v := by
  simp only [Settings.set, setName_congr h]

theorem setAll_congr (h : ds.Keeps P ds') (s : Settings) (entries : List (Value × Value)) :
    s.setAll ds' entries = s.setAll ds entries := by
  induction entries generalizing s with
  | nil => rfl
  | cons entry rest ih =>
    rw [setAll, setAll, set_congr h]
    cases s.set ds entry.1 entry.2 with
    | ok s => exact ih s
    | error e => rfl

theorem fillIn_congr (h : ds.Keeps P ds') (s : Settings) (key v : Value) :
    s.fillIn ds' key v = s.fillIn ds key v := by
  funext outcome
  cases outcome with
  | ok w => rfl
  | error e => rw [fillIn, fillIn, set_congr h]

end Settings

end ContactCard
