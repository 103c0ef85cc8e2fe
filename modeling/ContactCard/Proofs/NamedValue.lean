import ContactCard.DataType
import Mathlib.Data.List.Induction
import Mathlib.Logic.Relation

/-!
# Named values up to case

Of two named values the one of the more special class is asked whether they are equal, and it says
no unless the other one is of its class too. So values are equal just when they are of one class and
their names agree in lower case (`NamedValue.same_iff_cls_eq`), although the answer of a value would
be yes to one of a more special class that has its name.

What a registry has for a name is what was registered last, on just the class that is asked, under a
name that is the same in lower case (`NamedRegistry.find?_registerAll_eq_some_iff`). It is of this
class and has this name up to case (`NamedRegistry.get_registerAll`), so what is got for a name
equals every value that has it.
-/

namespace ContactCard

open Text

/-! ### Equality -/

/-- Of two classes that lie within one another there is only one. -/
theorem NamedClass.isWithin_antisymm {c d : NamedClass} (h : c.isWithin d = true)
    (h' : d.isWithin c = true) : c = d := by
  have hcd : c.label :: c.ancestors = d.label :: d.ancestors :=
    (List.isSuffixOf_iff_suffix.mp h').eq_of_length_le (List.isSuffixOf_iff_suffix.mp h).length_le
  obtain ⟨hlabel, hancestors⟩ := List.cons.inj hcd
  cases c
  cases d
  exact congr (congrArg _ hlabel) hancestors

namespace NamedValue

variable {a b : NamedValue}

/-- Named values of one class are equal if their names are the same in lower case. -/
theorem same_iff (h : a.cls = b.cls) : a.same b = true ↔ toLower a.name = toLower b.name := by
  have hwithin : b.cls.isWithin b.cls = true :=
    List.isSuffixOf_iff_suffix.mpr List.suffix_rfl
  rw [same, if_neg (by simp [h]), accepts, h, hwithin, Bool.true_and, beq_iff_eq]

/-- Values of different classes are not equal: the more special one does not take the other for
one of its class. -/
theorem same_of_cls_ne (h : a.cls ≠ b.cls) : a.same b = false := by
  rw [same]
  split
  · next hasked =>
    have hwithin : b.cls.isWithin a.cls = true := by simpa [h] using hasked
    have hnot : a.cls.isWithin b.cls = false :=
      Bool.eq_false_iff.mpr fun hab ↦ h (NamedClass.isWithin_antisymm hab hwithin)
    rw [accepts, hnot, Bool.false_and]
  · next hasked =>
    have hnot : b.cls.isWithin a.cls = false := by simpa [h] using hasked
    rw [accepts, hnot, Bool.false_and]

theorem same_iff_cls_eq : a.same b = true ↔ a.cls = b.cls ∧ toLower a.name = toLower b.name := by
  by_cases h : a.cls = b.cls
  · rw [same_iff h, and_iff_right h]
  · rw [same_of_cls_ne h]
    exact iff_of_false nofun fun h' ↦ h h'.1

theorem equivalence_same : Equivalence fun a b : NamedValue ↦ a.same b = true := by
  simp only [same_iff_cls_eq, ← Prod.mk.injEq]
  exact eq_equivalence.comap fun a : NamedValue ↦ (a.cls, toLower a.name)

theorem differs_eq_not_same (a b : NamedValue) : a.differs b = !a.same b := by
  rw [differs, same]
  split <;> rfl

end NamedValue

namespace NamedRegistry

/-! ### What was registered last -/

/-- The registry after one registration after the other. -/
def registerAll (r : NamedRegistry) (names : List (NamedClass × String)) : NamedRegistry :=
  names.foldl (fun r n ↦ r.register n.1 n.2) r

/-- A registration on just this class under just this name, up to case. -/
def Concerns (c : NamedClass) (name : String) (n : NamedClass × String) : Prop :=
  n.1 = c ∧ toLower n.2 = toLower name

instance (c : NamedClass) (name : String) : DecidablePred (Concerns c name) :=
  fun _ ↦ inferInstanceAs (Decidable (_ ∧ _))

/-- The value comes from the last registration of the class under the name. -/
def IsLatest (names : List (NamedClass × String)) (c : NamedClass) (name : String)
    (v : NamedValue) : Prop :=
  ∃ before n after, names = before ++ n :: after ∧ Concerns c name n ∧ v = ⟨n.1, n.2⟩ ∧
    ∀ n' ∈ after, ¬ Concerns c name n'

variable {names : List (NamedClass × String)} {c : NamedClass} {name : String} {v : NamedValue}

theorem find?_register (r : NamedRegistry) (n : NamedClass × String) (c : NamedClass)
    (name : String) : (r.register n.1 n.2).find? c name =
      if Concerns c name n then some ⟨n.1, n.2⟩ else r.find? c name := by
  obtain ⟨d, s⟩ := n
  by_cases hd : d = c
  · subst hd
    by_cases hs : toLower s = toLower name
    · rw [if_pos ⟨rfl, hs⟩, find?, table, register, OrderedMap.get?_insert_self, Option.getD_some,
        hs, OrderedMap.get?_insert_self]
    · rw [if_neg fun h ↦ hs h.2, find?, table, register, OrderedMap.get?_insert_self,
        Option.getD_some, OrderedMap.get?_insert_of_ne (Ne.symm hs), ← find?]
  · rw [if_neg fun h ↦ hd h.1, find?, table, register, OrderedMap.get?_insert_of_ne (Ne.symm hd),
      ← table, ← find?]

/-- A registry that is made by registrations finds the last one that concerns the name. -/
theorem find?_registerAll (names : List (NamedClass × String)) (c : NamedClass) (name : String) :
    (registerAll ⟨∅⟩ names).find? c name =
      (names.reverse.find? fun n ↦ Concerns c name n).map fun n ↦ ⟨n.1, n.2⟩ := by
  induction names using List.reverseRecOn with
  | nil => rfl
  | append_singleton names n ih =>
    rw [registerAll, List.foldl_append, ← registerAll]
    show ((registerAll ⟨∅⟩ names).register n.1 n.2).find? c name = _
    rw [find?_register, ih, List.reverse_append, List.reverse_singleton, List.singleton_append,
      List.find?_cons]
    by_cases hn : Concerns c name n
    · simp [hn]
    · simp [hn]

theorem find?_registerAll_eq_some_iff :
    (registerAll ⟨∅⟩ names).find? c name = some v ↔ IsLatest names c name v := by
  rw [find?_registerAll, Option.map_eq_some_iff]
  simp only [List.find?_eq_some_iff_append, List.reverse_eq_append_iff]
  constructor
  · rintro ⟨n, ⟨hn, after, before, hnames, hafter⟩, rfl⟩
    refine ⟨before.reverse, n, after.reverse, ?_, of_decide_eq_true hn, rfl, fun n' hn' ↦ ?_⟩
    · simpa using hnames
    · simpa using hafter n' (List.mem_reverse.mp hn')
  · rintro ⟨before, n, after, rfl, hn, rfl, hafter⟩
    refine ⟨n, ⟨decide_eq_true hn, after.reverse, before.reverse, ?_, fun n' hn' ↦ ?_⟩, rfl⟩
    · simp
    · simpa using hafter n' (List.mem_reverse.mp hn')

theorem find?_registerAll_eq_none_iff :
    (registerAll ⟨∅⟩ names).find? c name = none ↔ ∀ n ∈ names, ¬ Concerns c name n := by
  rw [find?_registerAll, Option.map_eq_none_iff, List.find?_eq_none]
  simp

/-- What a registry gives for a name is of the class that is asked and has the name, up to case. -/
theorem get_registerAll (names : List (NamedClass × String)) (c : NamedClass) (name : String) :
    ((registerAll ⟨∅⟩ names).get c name).cls = c ∧
      toLower ((registerAll ⟨∅⟩ names).get c name).name = toLower name := by
  rw [get]
  cases hfind : (registerAll ⟨∅⟩ names).find? c name with
  | none => exact ⟨rfl, rfl⟩
  | some v =>
    obtain ⟨_, n, _, -, hn, rfl, -⟩ := find?_registerAll_eq_some_iff.mp hfind
    exact hn

/-- The well-known names come from registrations. -/
theorem exists_standard_eq_registerAll :
    ∃ wellKnown, standard = registerAll ⟨∅⟩ wellKnown := by
  -- no two well-known names of a class are the same in lower case, so its table has all of them
  refine ⟨[.dataType, .encoding].flatMap fun c ↦
    (standard.table c).values.map fun v ↦ (c, v.name), congrArg NamedRegistry.mk ?_⟩
  decide +kernel

theorem get_standard (c : NamedClass) (name : String) :
    (standard.get c name).cls = c ∧ toLower (standard.get c name).name = toLower name := by
  obtain ⟨names, hnames⟩ := exists_standard_eq_registerAll
  rw [hnames]
  exact get_registerAll names c name

/-- After any registrations, such as those of the well-known names, the values that are got for two
names are equal just when the classes are the same and the names are, up to case; and a class finds
for a name what was registered last on just this class under just this name, up to case. Equality of
named values is an equivalence, inequality its negation, and equal values have their keys in
common. -/
theorem same_get_iff (names : List (NamedClass × String)) :
    (∀ c d s t, ((registerAll ⟨∅⟩ names).get c s).same ((registerAll ⟨∅⟩ names).get d t) = true ↔
      c = d ∧ toLower s = toLower t) ∧
    (∀ c s, (∀ v, (registerAll ⟨∅⟩ names).find? c s = some v ↔ IsLatest names c s v) ∧
      ((registerAll ⟨∅⟩ names).find? c s = none ↔ ∀ n ∈ names, ¬ Concerns c s n)) ∧
    (Equivalence fun a b : NamedValue ↦ a.same b = true) ∧
    (∀ a b : NamedValue, a.differs b = !a.same b ∧ (a.same b = true → a.key = b.key)) ∧
    ∃ wellKnown, standard = registerAll ⟨∅⟩ wellKnown := by
  refine ⟨fun c d s t ↦ ?_, fun c s ↦ ?_, NamedValue.equivalence_same, fun a b ↦ ?_,
    exists_standard_eq_registerAll⟩
  · obtain ⟨hc, hs⟩ := get_registerAll names c s
    obtain ⟨hd, ht⟩ := get_registerAll names d t
    rw [NamedValue.same_iff_cls_eq, hc, hd, hs, ht]
  · exact ⟨fun v ↦ find?_registerAll_eq_some_iff, find?_registerAll_eq_none_iff⟩
  · exact ⟨a.differs_eq_not_same b, fun h ↦ (NamedValue.same_iff_cls_eq.mp h).2⟩

end NamedRegistry

/-! ### Data types and encodings -/

theorem DataType.same_iff {a b : DataType} : a.same b = true ↔ toLower a.name = toLower b.name :=
  NamedValue.same_iff rfl

theorem Encoding.same_iff {a b : Encoding} : a.same b = true ↔ toLower a.name = toLower b.name :=
  NamedValue.same_iff rfl

/-- The spelling of an encoding does not change its name in lower case. -/
theorem Encoding.toLower_name_ofName (name : String) :
    toLower (Encoding.ofName name).name = toLower name := (NamedRegistry.get_standard _ name).2

/-- The spelling of a data type does not change its name in lower case. -/
theorem DataType.toLower_name_ofName (name : String) :
    toLower (DataType.ofName name).name = toLower name := (NamedRegistry.get_standard _ name).2

end ContactCard
