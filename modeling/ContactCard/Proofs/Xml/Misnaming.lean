import ContactCard.Proofs.Xml.Renumbering

/-!
# Trees that are refused

A writer whose tables hold texts refuses a tree of texts for its names alone: for a tag without a
namespace, or a tag or the name of an attribute whose namespace is not closed
(`Element.IsMisnamed`). The first fault in document order is the one that is reported
(`writeElement_eq_error_iff`).

What was written before the fault is dropped, but the numbers that were given stay used up. A later
tree shows no more of this than other numbers of new prefixes (`refused_iff_isMisnamed`).
-/

namespace ContactCard.Xml

/-! ### Faults of names -/

/-- A namespace is opened and not closed. -/
def IsUnclosed (name : String) : Prop := ['\x7b'] <+: name.toList ∧ '\x7d' ∉ name.toList

/-- The tag has no namespace, or a name of the start tag has one that is not closed. -/
def Element.IsMisnamed (x : Element) : Prop :=
  ¬['\x7b'] <+: x.tag.toList ∨ IsUnclosed x.tag ∨ ∃ a ∈ x.attributes, IsUnclosed a.1

/-- The fault of a name, if it has one. -/
def nameFault? (name : String) (isElement : Bool) : Option Error :=
  match splitName name isElement with
  | .ok _ => none
  | .error error => some error

theorem nameFault?_of_opened {name : String} (h : ['\x7b'] <+: name.toList) (isElement : Bool) :
    nameFault? name isElement =
      if '\x7d' ∈ name.toList then none else some (.fault .unclosedNamespace) := by
  obtain ⟨rest, hname⟩ := h
  rw [nameFault?, splitName, ← hname, List.singleton_append]
  cases hrest : rest.dropWhile (· != '\x7d') with
  | nil =>
    have hnot : '\x7d' ∉ '\x7b' :: rest := by
      have hall := List.dropWhile_eq_nil_iff.mp hrest
      simpa using fun hmem ↦ absurd (hall _ hmem) (by simp)
    rw [if_neg hnot]
    simp only [hrest]
  | cons c tail =>
    have hmem : '\x7d' ∈ '\x7b' :: rest := by
      by_contra hnot
      have hall : ∀ c' ∈ rest, (c' != '\x7d') = true := fun c' hc' ↦
        bne_iff_ne.mpr fun heq ↦ hnot (List.mem_cons_of_mem _ (heq ▸ hc'))
      exact List.cons_ne_nil c tail (hrest.symm.trans (List.dropWhile_eq_nil_iff.mpr hall))
    rw [if_pos hmem]
    simp only [hrest]

theorem nameFault?_of_unopened {name : String} (h : ¬['\x7b'] <+: name.toList) (isElement : Bool) :
    nameFault? name isElement = if isElement then some (.unqualifiedElement name) else none := by
  have hsplit : splitName name isElement =
      if isElement then .error (.unqualifiedElement name) else .ok (none, name) := by
    rw [splitName]
    split
    · next rest hname => exact absurd (hname ▸ List.prefix_append ['\x7b'] rest) h
    · rfl
  rw [nameFault?, hsplit]
  cases isElement <;> rfl

theorem nameFault?_true_eq_none_iff {name : String} :
    nameFault? name true = none ↔ ['\x7b'] <+: name.toList ∧ ¬IsUnclosed name := by
  by_cases hopen : ['\x7b'] <+: name.toList
  · rw [nameFault?_of_opened hopen, IsUnclosed]
    simp [hopen]
  · rw [nameFault?_of_unopened hopen]
    simp [hopen]

theorem nameFault?_false_eq_none_iff {name : String} :
    nameFault? name false = none ↔ ¬IsUnclosed name := by
  by_cases hopen : ['\x7b'] <+: name.toList
  · rw [nameFault?_of_opened hopen, IsUnclosed]
    simp [hopen]
  · rw [nameFault?_of_unopened hopen, IsUnclosed]
    simp [hopen]

theorem eq_of_nameFault? {name : String} {isElement : Bool} {error : Error}
    (h : nameFault? name isElement = some error) :
    isElement = true ∧ error = .unqualifiedElement name ∨ error = .fault .unclosedNamespace := by
  by_cases hopen : ['\x7b'] <+: name.toList
  · rw [nameFault?_of_opened hopen] at h
    split at h
    · cases h
    · exact .inr (Option.some.inj h).symm
  · rw [nameFault?_of_unopened hopen] at h
    split at h
    · next helement => exact .inl ⟨helement, (Option.some.inj h).symm⟩
    · cases h

/-- The first fault of the names of a start tag, if they have one. -/
def Element.fault? (x : Element) : Option Error :=
  (nameFault? x.tag true).or (x.attributes.findSome? fun a ↦ nameFault? a.1 false)

theorem Element.fault?_eq_none_iff {x : Element} : x.fault? = none ↔ ¬x.IsMisnamed := by
  have hkeys : (∀ a ∈ x.attributes, nameFault? a.1 false = none) ↔
      ¬∃ a ∈ x.attributes, IsUnclosed a.1 := by
    simp only [nameFault?_false_eq_none_iff, not_exists, not_and]
  rw [fault?, Option.or_eq_none_iff, List.findSome?_eq_none_iff, hkeys, nameFault?_true_eq_none_iff,
    IsMisnamed, not_or, not_or, not_not, and_assoc]

theorem Element.eq_of_fault? {x : Element} {error : Error} (h : x.fault? = some error) :
    error = .unqualifiedElement x.tag ∨ error = .fault .unclosedNamespace := by
  rcases Option.or_eq_some_iff.mp h with htag | ⟨-, hkey⟩
  · exact (eq_of_nameFault? htag).imp_left And.right
  · obtain ⟨a, -, hkey⟩ := List.exists_of_findSome?_eq_some hkey
    exact .inr ((eq_of_nameFault? hkey).resolve_left fun h ↦ absurd h.1 (by decide))

theorem findSome?_cons_eq_or {α β : Type} (f : α → Option β) (a : α) (rest : List α) :
    (a :: rest).findSome? f = (f a).or (rest.findSome? f) := by
  rw [List.findSome?_cons]
  cases f a <;> rfl

/-! ### How drafting ends -/

namespace Drafting

variable {α β : Type} {registered : List String} {fault? fault?' : Option Error}

/-- The steps end with the fault, or well if there is none, and no prefix that is registered is made
on the way. -/
def Meets (registered : List String) (fault? : Option Error) : Drafting α → Prop
  | done (.ok _) => fault? = none
  | done (.error error) => fault? = some error
  | number used next => registered ⊆ used ∧ ∀ n, (next n).Meets registered fault?

theorem Meets.bind {p : Drafting α} {f : α → Drafting β} (hp : p.Meets registered fault?)
    (hf : ∀ a, (f a).Meets registered fault?') :
    (p >>= f).Meets registered (fault?.or fault?') := by
  induction p with
  | done outcome =>
    cases outcome with
    | ok a =>
      obtain rfl : fault? = none := hp
      exact hf a
    | error error =>
      obtain rfl : fault? = some error := hp
      rfl
  | number used next ih => exact ⟨hp.1, fun n ↦ ih n (hp.2 n)⟩

theorem Meets.bind_sound {p : Drafting α} {f : α → Drafting β} (hp : p.Meets registered fault?)
    (hf : ∀ a, (f a).Meets registered none) : (p >>= f).Meets registered fault? := by
  rw [← Option.or_none (o := fault?)]
  exact hp.bind hf

theorem Meets.outcome {p : Drafting α} (h : p.Meets registered fault?) (n : Nat) (error : Error) :
    (p.carryOut.run.run n).1 = .error error ↔ fault? = some error := by
  induction p generalizing n with
  | done outcome =>
    cases outcome with
    | ok a =>
      obtain rfl : fault? = none := h
      exact iff_of_false nofun nofun
    | error error' =>
      obtain rfl : fault? = some error' := h
      exact ⟨fun h ↦ congrArg some (Except.error.inj h),
        fun h ↦ congrArg Except.error (Option.some.inj h)⟩
  | number used next ih =>
    rw [run_carryOut_number]
    exact ih _ (h.2 _) _

theorem Meets.isNumbering {p : Drafting α} (h : p.Meets registered fault?) (n : Nat) :
    Writer.IsNumbering registered (p.taken n) := by
  refine ⟨(p.taken_ascending n).2.1, ?_⟩
  induction p generalizing n with
  | done outcome => exact fun k hk ↦ absurd hk List.not_mem_nil
  | number used next ih =>
    rw [taken]
    exact List.forall_mem_cons.mpr
      ⟨fun hmem ↦ firstFree_not_mem used n (h.1 hmem), ih _ (h.2 _) _⟩

end Drafting

namespace Writer

open Drafting

variable {w : Writer}

theorem meets_draftPrefix (hw : w.oddities = []) (isElement : Bool) (st : DraftNaming)
    (ns : String) : (w.draftPrefix isElement st ns).Meets w.prefixes.values none := by
  rw [draftPrefix]
  cases st.scope.get? ns with
  | some mark => rfl
  | none =>
    dsimp only
    split_ifs
    · rfl
    · rfl
    · cases w.prefixes.get? ns with
      | some pre => rfl
      | none =>
        simp only [hw, List.lookup_nil, usedPrefixes_eq hw]
        exact ⟨List.subset_append_left _ _, fun n ↦ rfl⟩

theorem meets_draftName (hw : w.oddities = []) (isElement : Bool) (st : DraftNaming)
    (name : String) :
    (w.draftName isElement st name).Meets w.prefixes.values (nameFault? name isElement) := by
  rw [draftName, nameFault?]
  rcases splitName name isElement with e | ⟨_ | ns, plain⟩
  · rfl
  · rfl
  · exact (meets_draftPrefix hw isElement st ns).bind fun r ↦ rfl

theorem meets_draftAttributes (hw : w.oddities = []) (st : DraftNaming)
    (attributes : List (String × String)) :
    (w.draftAttributes st attributes).Meets w.prefixes.values
      (attributes.findSome? fun a ↦ nameFault? a.1 false) := by
  induction attributes generalizing st with
  | nil => rfl
  | cons a rest ih =>
    rw [draftAttributes, findSome?_cons_eq_or]
    refine (meets_draftName hw false st a.1).bind fun r ↦ ?_
    exact (ih r.2).bind_sound fun r' ↦ rfl

mutual

theorem meets_draft (hw : w.oddities = []) : ∀ (e : Element) (scope : OrderedMap String Mark),
    (∀ x ∈ e.nodes, ∃ s, writtenText x.text = .ok s) →
      (w.draft scope e).Meets w.prefixes.values (e.nodes.findSome? Element.fault?)
  | ⟨tag, attributes, text, tail, children⟩, scope, htexts => by
    obtain ⟨⟨s, htext⟩, hchildren⟩ := List.forall_mem_cons.mp htexts
    rw [draft, Element.nodes, findSome?_cons_eq_or, Element.fault?, Option.or_assoc]
    refine (meets_draftName hw true ⟨scope, []⟩ tag).bind fun name ↦ ?_
    refine (meets_draftAttributes hw name.2 attributes).bind fun attributes ↦ ?_
    refine (meets_draftAll hw children attributes.2.scope hchildren).bind_sound fun children ↦ ?_
    rw [show writtenText text = .ok s from htext]
    rfl

theorem meets_draftAll (hw : w.oddities = []) :
    ∀ (es : List Element) (scope : OrderedMap String Mark),
      (∀ x ∈ Element.nodesAll es, ∃ s, writtenText x.text = .ok s) →
        (w.draftAll scope es).Meets w.prefixes.values
          ((Element.nodesAll es).findSome? Element.fault?)
  | [], scope, htexts => rfl
  | e :: rest, scope, htexts => by
    rw [draftAll, Element.nodesAll, List.findSome?_append]
    obtain ⟨he, hrest⟩ := List.forall_mem_append.mp htexts
    refine (meets_draft hw e scope he).bind fun d ↦ ?_
    exact (meets_draftAll hw rest scope hrest).bind_sound fun ds ↦ rfl

end

/-! ### Refusals -/

variable {e : Element}

/-- A tree of texts is refused for the first fault of its names in document order. -/
theorem writeElement_eq_error_iff (hw : w.oddities = [])
    (htexts : ∀ x ∈ e.nodes, ∃ s, writtenText x.text = .ok s) (indent : Int) (error : Error) :
    (w.writeElement e indent).1 = .error error ↔
      e.nodes.findSome? Element.fault? = some error := by
  rw [← (meets_draft hw e ∅ htexts).outcome w.nextNumber,
    show (w.writeElement e indent).1 = (w.markupOf e).1.map _ from rfl, fst_markupOf]
  cases ((w.draft ∅ e).carryOut.run.run w.nextNumber).1 <;> simp [Except.map]

theorem exists_writeElement_eq_error_iff (hw : w.oddities = [])
    (htexts : ∀ x ∈ e.nodes, ∃ s, writtenText x.text = .ok s) (indent : Int) :
    (∃ error, (w.writeElement e indent).1 = .error error) ↔ ∃ x ∈ e.nodes, x.IsMisnamed := by
  simp only [writeElement_eq_error_iff hw htexts]
  rw [← Option.isSome_iff_exists, List.isSome_findSome?, List.any_eq_true]
  simp only [Option.isSome_iff_ne_none, ne_eq, Element.fault?_eq_none_iff, not_not]

/-- Whichever number is the next, a tree that is not refused comes out the same but for the numbers
of new prefixes. -/
theorem agreeUpToNew_writeElement (hw : w.oddities = [])
    (htexts : ∀ x ∈ e.nodes, ∃ s, writtenText x.text = .ok s)
    (hnames : ∀ x ∈ e.nodes, ¬x.IsMisnamed) (indent : Int) (n n' : Nat) :
    ∃ s s', ((w.withNumber n).writeElement e indent).1 = .ok s ∧
      ((w.withNumber n').writeElement e indent).1 = .ok s' ∧
      AgreeUpToNew w.prefixes.values indent s s' := by
  obtain ⟨hmarkup, hlength⟩ := w.markupOf_eq_map_template e n
  obtain ⟨hmarkup', hlength'⟩ := w.markupOf_eq_map_template e n'
  have hnumbering (k : Nat) : IsNumbering w.prefixes.values
      (((w.withNumber k).draft ∅ e).taken k) :=
    (meets_draft (w := w.withNumber k) hw e ∅ htexts).isNumbering k
  cases htemplate : w.template e with
  | error error =>
    have hrefused : ((w.withNumber n).writeElement e indent).1 = .error error := by
      rw [show ((w.withNumber n).writeElement e indent).1 =
        ((w.withNumber n).markupOf e).1.map _ from rfl, hmarkup, htemplate]
      rfl
    obtain ⟨x, hx, hmisnamed⟩ :=
      (exists_writeElement_eq_error_iff (w := w.withNumber n) hw htexts indent).mp ⟨error, hrefused⟩
    exact absurd hmisnamed (hnames x hx)
  | ok d =>
    rw [htemplate] at hmarkup hmarkup'
    exact ⟨_, _, writeElement_of_markupOf hmarkup indent, writeElement_of_markupOf hmarkup' indent,
      d, _, _, hlength.trans hlength'.symm, hnumbering n, hnumbering n', rfl, rfl⟩

end Writer

end ContactCard.Xml
