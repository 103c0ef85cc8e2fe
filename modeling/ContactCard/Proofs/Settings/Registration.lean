import ContactCard.Proofs.Settings.Runs
import Mathlib.Tactic.SplitIfs

/-!
# Defining a setting again

Once a setting is defined, its definition is to stand: defining it once more is to change nothing,
and defining it otherwise is to be refused (`Settings.World.IsStable`). This is so until a default
that was computed is kept in the definition. From then on the very same definition is refused,
because its default is compared with the one that was kept (`Settings.World.isStable_after_iff`).
-/

namespace ContactCard

namespace Definition

/-- The two definitions differ in what must not change. -/
def DiffersFrom (d e : Definition) : Prop :=
  d.kind ≠ e.kind ∨ d.default.differs e.default = true ∨
    Factory.differs d.factory e.factory = true

variable {d e : Definition}

/-- If the default that was kept is the one that was there, no default was kept. -/
theorem Keeps.eq_of_default_eq {P : Value → Prop} (h : d.Keeps P e)
    (hdefault : e.default = d.default) : e = d := by
  cases h with
  | same => rfl
  | kept hpending _ hv _ =>
    exact absurd (hdefault.trans (default_of_pending? hpending).1) hv

theorem Keeps.kind {P : Value → Prop} (h : d.Keeps P e) : e.kind = d.kind := by cases h <;> rfl

end Definition

namespace Definitions

variable {ds : Definitions} {d e : Definition}

theorem conflict?_eq_none_iff : conflict? d e = none ↔ ¬ d.DiffersFrom e := by
  unfold conflict? Definition.DiffersFrom
  split_ifs with hkind hdefault hfactory <;> simp_all

theorem conflict?_of_default (hkind : d.kind = e.kind) (h : d.default.differs e.default = true) :
    conflict? d e = some .default := by
  rw [conflict?, if_neg (· hkind), if_pos h]

end Definitions

namespace Settings.World

variable {w : World} {d e : Definition}

/-- Defining `d` once more succeeds, defining something else under its name is refused, and neither
changes anything. -/
structure IsStable (w : World) (d : Definition) : Prop where
  again : w.next (.define d) = (w, .ok .nothing)
  other : ∀ d', d'.name = d.name → d.DiffersFrom d' →
    ∃ aspect, w.next (.define d') = (w, .error (.conflictingSetting aspect))

theorem next_define_of_get? (h : w.definitions.get? d.name = some e) :
    w.next (.define d) =
      (w, (Definitions.conflict? e d).elim (.ok .nothing) fun aspect ↦
        .error (.conflictingSetting aspect)) := by
  rw [next, define, Definitions.define_of_get? h]
  cases Definitions.conflict? e d <;> rfl

/-- A definition that is there unchanged is stable, if its default is not one that differs from
itself. -/
theorem isStable_of_get? (h : w.definitions.get? d.name = some d)
    (hdefault : d.default.isNotANumber = false) : w.IsStable d where
  again := by
    have hsame : Definitions.conflict? d d = none := by
      rw [Definitions.conflict?_eq_none_iff, Definition.DiffersFrom, Value.differs_self, hdefault,
        Factory.differs_self]
      rintro (h | h | h) <;> exact absurd h (by simp)
    rw [next_define_of_get? h, hsame]
    rfl
  other d' hname hdiffers := by
    rw [← hname] at h
    cases hconflict : Definitions.conflict? d d' with
    | none => exact absurd hdiffers (Definitions.conflict?_eq_none_iff.mp hconflict)
    | some aspect => exact ⟨aspect, by rw [next_define_of_get? h, hconflict]; rfl⟩

/-- A definition whose default was changed, or differs from itself, is refused when it is given
again. -/
theorem next_define_of_kept (h : w.definitions.get? d.name = some e)
    (hkeeps : d.Keeps (fun _ ↦ True) e)
    (hdefault : ¬ (e.default = d.default ∧ d.default.isNotANumber = false)) :
    w.next (.define d) = (w, .error (.conflictingSetting .default)) := by
  have hdiffers : e.default.differs d.default = true := by
    cases hkeeps with
    | same =>
      rw [Value.differs_self]
      exact Bool.of_not_eq_false fun hnumber ↦ hdefault ⟨rfl, hnumber⟩
    | kept hpending _ hv _ =>
      rw [(Definition.default_of_pending? hpending).1]
      exact Value.differs_null hv
  rw [next_define_of_get? h, Definitions.conflict?_of_default hkeeps.kind hdiffers]
  rfl

/-- Take any calls in which a setting is defined for the first time, some before it and some after.
Then there is a definition of the setting, which is the one that was given or keeps a computed
default. The definition is stable if it keeps no other default than it was given, and if that is not
one that differs from itself. Otherwise the definition that was given is refused from then on. -/
theorem isStable_after_iff (before after : List Call) (d : Definition)
    (hfirst : ∀ call ∈ before, ∀ d', call.defined? = some d' → d'.name ≠ d.name) :
    let w := empty.after (before ++ .define d :: after)
    ∃ e, w.definitions.get? d.name = some e ∧ d.Keeps (fun _ ↦ True) e ∧
      (w.IsStable d ↔ e.default = d.default ∧ d.default.isNotANumber = false) ∧
      (¬ w.IsStable d → w.next (.define d) = (w, .error (.conflictingSetting .default))) := by
  intro w
  have hbefore := isNamed_after isNamed_empty before
  have hnone : (empty.after before).definitions.get? d.name = none :=
    get?_after_eq_none isNamed_empty rfl hfirst
  have hdefined : ((empty.after before).next (.define d)).1.definitions.get? d.name = some d := by
    rw [next, define, Definitions.define_of_get?_eq_none hnone]
    exact OrderedMap.get?_insert_self _ _ _
  obtain ⟨e, he, hkeeps⟩ := exists_get?_after (isNamed_next hbefore (.define d)) hdefined after
  have hw : w = (((empty.after before).next (.define d)).1.after after) := after_append _ _ _
  rw [← hw] at he
  have hstable : w.IsStable d ↔ e.default = d.default ∧ d.default.isNotANumber = false := by
    constructor
    · intro h
      refine Classical.byContradiction fun hdefault ↦ ?_
      have hrefused := (next_define_of_kept he hkeeps hdefault).symm.trans h.again
      exact absurd (congrArg Prod.snd hrefused) (by simp)
    · rintro ⟨hdefault, hnumber⟩
      obtain rfl := hkeeps.eq_of_default_eq hdefault
      exact isStable_of_get? he hnumber
  refine ⟨e, he, hkeeps, hstable, fun h ↦ next_define_of_kept he hkeeps ((not_congr hstable).mp h)⟩

/-- Settings that are defined, set, read and refused in between. The default of the one in question
is computed and kept. -/
theorem isStable_after_iff_signature :
    let name : Definition := {
      name := "name", kind := "str", default := .text "Ann", factory := none, cached := false,
      doc := none, validator := none }
    let signature : Definition := {
      name := "signature", kind := "str", default := .null, factory := some (.setting "name"),
      cached := true, doc := none, validator := none }
    let before : List Call := [.define name, .make [(.text "name", .text "Bob")]]
    let after : List Call := [.define { name with kind := "int" }, .copy 0,
      .use 1 (.look (.ofName "signature"))]
    let w := empty.after (before ++ .define signature :: after)
    (∀ call ∈ before, ∀ d, call.defined? = some d → d.name ≠ signature.name) ∧
      ∃ e, w.definitions.get? "signature" = some e ∧ signature.Keeps (fun _ ↦ True) e ∧
        (w.IsStable signature ↔
          e.default = signature.default ∧ signature.default.isNotANumber = false) ∧
        (¬ w.IsStable signature →
          w.next (.define signature) = (w, .error (.conflictingSetting .default))) := by
  intro name signature before after w
  have hfirst : ∀ call ∈ before, ∀ d, call.defined? = some d → d.name ≠ signature.name := by
    refine List.forall_mem_cons.mpr ⟨fun d hd ↦ ?_, List.forall_mem_cons.mpr ⟨nofun, nofun⟩⟩
    obtain rfl := Option.some.inj hd
    exact (by decide : "name" ≠ "signature")
  exact ⟨hfirst, isStable_after_iff before after signature hfirst⟩

/-- A setting that was read once cannot be defined a second time. -/
theorem defined_again_refused :
    let signature : Definition := {
      name := "signature", kind := "str", default := .null, factory := some (.constant "Ann"),
      cached := true, doc := none, validator := none }
    let calls : List Call := [.define signature, .make [], .use 0 (.look (.ofName "signature"))]
    ((empty.after calls).next (.define signature)).2 = .error (.conflictingSetting .default) ∧
      ¬ (empty.after calls).IsStable signature := by
  intro signature calls
  have hrefused : ((empty.after calls).next (.define signature)).2 =
      .error (.conflictingSetting .default) := rfl
  exact ⟨hrefused, fun h ↦ absurd ((congrArg Prod.snd h.again).symm.trans hrefused) nofun⟩

end Settings.World

end ContactCard
