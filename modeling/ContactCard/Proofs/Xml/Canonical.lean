import ContactCard.Xml.Element
import Mathlib.Data.List.Nodup
import Mathlib.Data.Multiset.Defs
import Mathlib.Logic.Relation

/-!
# Canonical forms of trees

The canonical form of a tree is what a comparison looks at: tags, texts without the blanks around
them, attributes without their order, children in their order. Texts after elements are no part of
it. Two trees compare equal just when they have the same canonical form (`Element.same_iff`), and
apart from their own texts just when their forms differ at most in the texts of the roots
(`Element.sameApartFromText_iff`). So both comparisons are equivalence relations.
-/

namespace ContactCard.Xml

/-- What a comparison of trees looks at. The text of an element without one is empty. -/
structure Canonical where
  tag : String
  text : String
  attributes : Multiset (String × String)
  children : List Canonical

/-- The canonical form with the text of the root left out of account. -/
def Canonical.withoutText (c : Canonical) : Canonical := { c with text := "" }

namespace Element

mutual

/-- The canonical form of a tree. -/
def canonical : Element → Canonical
  | ⟨tag, attributes, text, _, children⟩ =>
    ⟨tag, strippedText text, attributes, canonicalAll children⟩

/-- The canonical forms of trees, one by one. -/
def canonicalAll : List Element → List Canonical
  | [] => []
  | e :: rest => canonical e :: canonicalAll rest

end

/-! ### Equal trees -/

mutual

/-- Trees are equal if they have the same canonical form. -/
theorem same_iff : ∀ a b : Element, a.same b = true ↔ a.canonical = b.canonical
  | ⟨tag, attributes, text, tail, children⟩, ⟨tag', attributes', text', tail', children'⟩ => by
    rw [canonical, canonical, Canonical.mk.injEq, Multiset.coe_eq_coe, ← List.isPerm_iff,
      ← sameAll_iff children children', same]
    simp only [Bool.and_eq_true, beq_iff_eq, and_assoc]

/-- Lists of trees are equal if they have the same canonical forms, one by one. -/
theorem sameAll_iff : ∀ as bs : List Element,
    sameAll as bs = true ↔ canonicalAll as = canonicalAll bs
  | [], [] => iff_of_true rfl rfl
  | [], _ :: _ => iff_of_false nofun nofun
  | _ :: _, [] => iff_of_false nofun nofun
  | a :: as, b :: bs => by
    rw [canonicalAll, canonicalAll, List.cons.injEq, ← same_iff a b, ← sameAll_iff as bs, sameAll,
      Bool.and_eq_true]

end

theorem sameApartFromText_iff (a b : Element) : a.sameApartFromText b = true ↔
    a.canonical.withoutText = b.canonical.withoutText := by
  obtain ⟨tag, attributes, text, tail, children⟩ := a
  obtain ⟨tag', attributes', text', tail', children'⟩ := b
  rw [canonical, canonical, Canonical.withoutText, Canonical.withoutText, Canonical.mk.injEq,
    Multiset.coe_eq_coe, ← List.isPerm_iff, ← sameAll_iff children children', sameApartFromText]
  simp only [Bool.and_eq_true, beq_iff_eq, true_and, and_assoc]

/-- An element has no two attributes of one name, so that its attributes are a set. -/
theorem canonical_attributes_eq_iff {a b : Element} (ha : (a.attributes.map Prod.fst).Nodup)
    (hb : (b.attributes.map Prod.fst).Nodup) :
    a.canonical.attributes = b.canonical.attributes ↔
      ∀ x, x ∈ a.attributes ↔ x ∈ b.attributes := by
  obtain ⟨tag, attributes, text, tail, children⟩ := a
  obtain ⟨tag', attributes', text', tail', children'⟩ := b
  rw [canonical, canonical, Multiset.coe_eq_coe]
  exact List.perm_ext_iff_of_nodup (.of_map _ ha) (.of_map _ hb)

theorem equivalence_sameOption (ignoreText : Bool) :
    Equivalence fun a b : Element ↦ sameOption ignoreText (some a) (some b) = true := by
  cases ignoreText with
  | false =>
    simp only [sameOption, Bool.false_eq_true, if_false, same_iff]
    exact eq_equivalence.comap canonical
  | true =>
    simp only [sameOption, if_true, sameApartFromText_iff]
    exact eq_equivalence.comap fun e : Element ↦ e.canonical.withoutText

/-- Trees compare equal just when their canonical forms are the same, and apart from their own texts
just when these are the same but for the texts of the roots; the attributes in them count as a set.
Both comparisons are equivalences, the first of them within the second, and a tree that is missing
equals nothing. -/
theorem sameOption_iff :
    (∀ a b : Element,
      (sameOption false (some a) (some b) = true ↔ a.canonical = b.canonical) ∧
      (sameOption true (some a) (some b) = true ↔
        a.canonical.withoutText = b.canonical.withoutText) ∧
      (sameOption false (some a) (some b) = true → sameOption true (some a) (some b) = true) ∧
      ((a.attributes.map Prod.fst).Nodup → (b.attributes.map Prod.fst).Nodup →
        (a.canonical.attributes = b.canonical.attributes ↔
          ∀ x, x ∈ a.attributes ↔ x ∈ b.attributes))) ∧
    ∀ ignoreText,
      (Equivalence fun a b : Element ↦ sameOption ignoreText (some a) (some b) = true) ∧
      ∀ x, sameOption ignoreText none x = false ∧ sameOption ignoreText x none = false := by
  constructor
  · intro a b
    refine ⟨same_iff a b, sameApartFromText_iff a b, fun h ↦ ?_, canonical_attributes_eq_iff⟩
    exact (sameApartFromText_iff a b).mpr (congrArg Canonical.withoutText ((same_iff a b).mp h))
  · intro ignoreText
    refine ⟨equivalence_sameOption ignoreText, fun x ↦ ⟨rfl, ?_⟩⟩
    cases x <;> rfl

end Element

end ContactCard.Xml
