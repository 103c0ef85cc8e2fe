import ContactCard.Settings.Basic

/-!
# Reading settings

What is set is read as it is (`Settings.read_of_get?`), and the name of the library is always there
to be read (`Settings.exists_read_productName`).

The only default that is computed and kept is that name, and it is the same whenever it is computed.
So what documents read depends on what is set and not on what was read before
(`Definitions.AreStandard`).
-/

namespace ContactCard

namespace Settings

variable {s : Settings} {ds : Definitions} {name : String} {fallback : Value} {required : Bool}
  {default : Definitions → Definition → Finding}

/-! ### How a request is answered -/

/-- What the settings say is the answer. -/
theorem answer_of_get? {v : Value} (h : s.stored.get? name = some v) :
    s.answer default ds ⟨.text name, fallback, required⟩ = (ds, .ok v) := by
  simp only [answer, stored?, h]

/-- What they do not say is the default of the definition, if no other default is brought along. -/
theorem answer_of_defined {d : Definition} (h : s.stored.get? name = none)
    (hd : ds.get? name = some d) :
    s.answer default ds ⟨.text name, .null, required⟩ = default ds d := by
  simp only [answer, stored?, h, Value.text?_text, Option.bind_some, hd]

/-! ### How a default is found -/

theorem defaultOf_of_pending?_eq_none {d : Definition} (h : d.pending? = none) (fuel : Nat) :
    s.defaultOf fuel ds d = (ds, .ok d.default) := by
  cases fuel with
  | zero => rw [defaultOf, h]; rfl
  | succ fuel => rw [defaultOf, h]

theorem defaultOf_succ {d : Definition} {f : Factory} (h : d.pending? = some f) (fuel : Nat) :
    s.defaultOf (fuel + 1) ds d =
      keep d (run s.stored (s.answer (s.defaultOf fuel)) f.steps ds) := by
  rw [defaultOf, h]

/-! ### Reading -/

/-- What the settings say is read from them. -/
theorem read_of_get? {v : Value} (h : s.stored.get? name = some v) :
    s.read ds (.text name) = .ok (ds, v) := by
  rw [read, get, lookUp, answer_of_get? h]
  rfl

/-- What the settings do not say is the default of the definition. -/
theorem read_of_get?_eq_none {d : Definition} (h : s.stored.get? name = none)
    (hd : ds.get? name = some d) :
    s.read ds (.text name) =
      (s.defaultOf (fuel ds) ds d).2.map fun v ↦ ((s.defaultOf (fuel ds) ds d).1, v) := by
  rw [read, get, lookUp, answer_of_defined h hd]

end Settings

/-- The name for PRODID properties is by default that of the library, or it was looked up before. -/
def Definitions.NamesProduct (ds : Definitions) : Prop :=
  ∃ definition, ds.get? "prodid_name" = some definition ∧
    definition.factory = some .productName

theorem Definitions.namesProduct_standard : Definitions.standard.NamesProduct := ⟨_, rfl, rfl⟩

/-- Keeping a value that was computed changes no factory. -/
theorem Definitions.namesProduct_remember {ds : Definitions} {definition : Definition}
    (h : ds.get? "prodid_name" = some definition) (hfactory : definition.factory = some .productName)
    (v : Value) : (ds.remember definition v).NamesProduct := by
  by_cases hname : definition.name = "prodid_name"
  · refine ⟨{ definition with default := v }, ?_, hfactory⟩
    rw [remember, get?, hname]
    exact OrderedMap.get?_insert_self _ _ _
  · refine ⟨definition, ?_, hfactory⟩
    rw [remember, get?, OrderedMap.get?_insert_of_ne (Ne.symm hname)]
    exact h

/-- There is a name for PRODID properties, whatever the settings say, and looking it up keeps it. -/
theorem Settings.exists_read_productName (s : Settings) {ds : Definitions} (h : ds.NamesProduct) :
    ∃ ds' v, s.read ds (.text "prodid_name") = .ok (ds', v) ∧ ds'.NamesProduct := by
  obtain ⟨definition, hdefinition, hfactory⟩ := h
  cases hstored : s.stored.get? "prodid_name" with
  | some v => exact ⟨ds, v, read_of_get? hstored, definition, hdefinition, hfactory⟩
  | none =>
    rw [read_of_get?_eq_none hstored hdefinition]
    cases hpending : definition.pending? with
    | none =>
      rw [defaultOf_of_pending?_eq_none hpending]
      exact ⟨_, _, rfl, definition, hdefinition, hfactory⟩
    | some f =>
      -- a definition without a default asks its factory, which needs no other setting
      obtain rfl := Option.some.inj (hfactory.symm.trans (Definition.default_of_pending? hpending).2)
      rw [fuel, defaultOf_succ hpending]
      refine ⟨_, _, rfl, ?_⟩
      show Definitions.NamesProduct (if definition.cached then _ else _)
      split
      · exact Definitions.namesProduct_remember hdefinition hfactory _
      · exact ⟨definition, hdefinition, hfactory⟩

/-! ### The standard definitions -/

/-- The name of this library. -/
def libraryName : String := "vcardio 0.1.0"

/-- The defaults of the settings that are not computed, or not kept when they are. -/
def Definitions.fixedDefaults : List (String × Value) :=
  [("add_prodid", .bool true), ("xml_indent", .int (-1)), ("xml_extra_prefixes", .map [])]

/-- The settings of the document writers have their standard definitions, but that the name for
PRODID properties may have been computed. Other settings may be defined, too. -/
structure Definitions.AreStandard (ds : Definitions) : Prop where
  fixed : ∀ e ∈ fixedDefaults, ds.get? e.1 = standard.get? e.1
  productName : ∃ v, (v = .null ∨ v = .text libraryName) ∧
    ds.get? "prodid_name" = (standard.get? "prodid_name").map fun d ↦ { d with default := v }

namespace Definitions

variable {ds : Definitions}

theorem areStandard_standard : standard.AreStandard := ⟨fun _ _ ↦ rfl, .null, .inl rfl, rfl⟩

/-- Defining further settings does not change those of the document writers. -/
theorem AreStandard.define (h : ds.AreStandard) {d : Definition} {ds' : Definitions}
    (hdefine : ds.define d = .ok ds') : ds'.AreStandard := by
  have hother : ∀ name, (ds.get? name).isSome → ds'.get? name = ds.get? name := by
    intro name hname
    rcases get?_of_define hdefine name with hsame | ⟨-, hnone, -⟩
    · exact hsame
    · simp [hnone] at hname
  refine ⟨fun e he ↦ ?_, ?_⟩
  · rw [hother e.1 ?_, h.fixed e he]
    rw [h.fixed e he]
    exact (by decide +kernel : ∀ e ∈ fixedDefaults, (standard.get? e.1).isSome = true) e he
  · obtain ⟨v, hv, hname⟩ := h.productName
    refine ⟨v, hv, ?_⟩
    rw [hother "prodid_name" ?_, hname]
    rw [hname]
    rfl

/-- Keeping the name of the library leaves the definitions standard. -/
theorem AreStandard.remember (h : ds.AreStandard) {d : Definition}
    (hname : ds.get? "prodid_name" = some d) :
    (ds.remember d (.text libraryName)).AreStandard := by
  obtain ⟨v, -, hstandard⟩ := h.productName
  have hd : d.name = "prodid_name" := by
    rw [hname] at hstandard
    exact congrArg Definition.name (Option.some.inj hstandard)
  refine ⟨fun e he ↦ ?_, .text libraryName, .inr rfl, ?_⟩
  · rw [Definitions.remember, get?, OrderedMap.get?_insert_of_ne ?_, ← h.fixed e he, get?]
    rw [hd]
    exact (by decide : ∀ e ∈ fixedDefaults, e.1 ≠ "prodid_name") e he
  · rw [Definitions.remember, get?, hd, OrderedMap.get?_insert_self]
    rw [hname] at hstandard
    rw [Option.some.inj hstandard]
    rfl

end Definitions

variable {ds : Definitions}

/-- A setting of the document writers that is not kept is what is set, or else its default. -/
theorem Settings.read_fixed (s : Settings) (h : ds.AreStandard) {name : String} {v : Value}
    (hname : (name, v) ∈ Definitions.fixedDefaults) :
    s.read ds (.text name) = .ok (ds, (s.stored.get? name).getD v) := by
  cases hstored : s.stored.get? name with
  | some w => exact read_of_get? hstored
  | none =>
    have hget : ds.get? name = Definitions.standard.get? name := h.fixed _ hname
    simp only [Definitions.fixedDefaults, List.mem_cons, Prod.mk.injEq, List.not_mem_nil,
      or_false] at hname
    rcases hname with ⟨rfl, rfl⟩ | ⟨rfl, rfl⟩ | ⟨rfl, rfl⟩ <;>
      exact read_of_get?_eq_none hstored (hget.trans rfl)

/-- The name for PRODID properties is what is set, or else that of the library, whether it was read
before or not. -/
theorem Settings.exists_read_productName_of_areStandard (s : Settings) (h : ds.AreStandard) :
    ∃ ds', ds'.AreStandard ∧ s.read ds (.text "prodid_name") =
      .ok (ds', (s.stored.get? "prodid_name").getD (.text libraryName)) := by
  cases hstored : s.stored.get? "prodid_name" with
  | some v => exact ⟨ds, h, read_of_get? hstored⟩
  | none =>
    obtain ⟨v, hv, hname⟩ := h.productName
    rw [read_of_get?_eq_none hstored hname]
    -- the name is computed and kept the first time that it is read
    rcases hv with rfl | rfl
    · exact ⟨_, h.remember hname, rfl⟩
    · exact ⟨ds, h, rfl⟩

end ContactCard
