import ContactCard.Proofs.Xml.Drafting

/-!
# Other numbers

The next number of a writer shows in what it writes only as far as new prefixes have numbers. To say
so, a tree is drafted with new prefixes that are counted from zero (`Writer.template`). This draft
depends neither on the number that the writer begins with nor on what it wrote before; and with the
numbers that are given from any other number on, it is what the writer writes then
(`markupOf_eq_map_template`). So two outputs of one tree differ in the numbers of new prefixes only
(`AgreeUpToNew`).
-/

namespace ContactCard.Xml

/-! ### Renumbering -/

section Renumber

variable (ν : Nat → Nat)

/-- A new prefix with another number. -/
def Mark.renumber : Mark → Mark
  | known pre => known pre
  | new n => new (ν n)

def DraftNaming.renumber (st : DraftNaming) : DraftNaming :=
  ⟨st.scope.mapValues (Mark.renumber ν), st.declared.map fun d ↦ (d.1, d.2.renumber ν)⟩

@[simp] theorem DraftNaming.renumber_declare (st : DraftNaming) (ns : String) (mark : Mark) :
    (st.declare ns mark).renumber ν = (st.renumber ν).declare ns (mark.renumber ν) := by
  rw [renumber, declare, OrderedMap.mapValues_insert, List.map_append]
  rfl

namespace Draft

mutual

/-- The draft with other numbers for its new prefixes. -/
def renumber : Draft → Draft
  | ⟨name, attributes, declarations, text, children⟩ =>
    ⟨(name.1.renumber ν, name.2), attributes.map fun a ↦ ((a.1.1.renumber ν, a.1.2), a.2),
      declarations.map fun d ↦ (d.1, d.2.renumber ν), text, renumberAll children⟩

/-- Several drafts with other numbers for their new prefixes. -/
def renumberAll : List Draft → List Draft
  | [] => []
  | d :: rest => renumber d :: renumberAll rest

end

/-- The markup in which the new prefixes have the given numbers, in their order. -/
def fill (d : Draft) (numbers : List Nat) : Markup :=
  (d.renumber fun k ↦ numbers.getD k 0).markup

end Draft

end Renumber

/-- The `k`-th question for a number is answered with `ν k`. -/
def answerWith (ν : Nat → Nat) (_ : List String) : Numbering Nat := do
  let k ← get
  set (k + 1)
  return ν k

namespace Writer

/-- The writer with another number that is the next. -/
def withNumber (w : Writer) (n : Nat) : Writer := { w with nextNumber := n }

open Drafting

variable (w : Writer) (ν : Nat → Nat) (m : Nat)

theorem renumber_draftPrefix (isElement : Bool) (st : DraftNaming) (ns : String) :
    (fun r ↦ (r.1.renumber ν, r.2.renumber ν)) <$>
        (w.draftPrefix isElement st ns).interpret (answerWith id) =
      ((w.withNumber m).draftPrefix isElement (st.renumber ν) ns).interpret (answerWith ν) := by
  rw [draftPrefix, draftPrefix, show (st.renumber ν).scope.get? ns = _ from
    OrderedMap.get?_mapValues _ _ _]
  cases st.scope.get? ns with
  | some mark => rfl
  | none =>
    dsimp only [Option.map_none]
    rw [show (w.withNumber m).prefixes = w.prefixes from rfl,
      show (w.withNumber m).oddities = w.oddities from rfl,
      show (w.withNumber m).defaultNamespace = w.defaultNamespace from rfl]
    by_cases hxml : ns = xmlNamespace
    · rw [if_pos hxml, if_pos hxml]
      rfl
    by_cases hdefault : isElement = true ∧ w.defaultNamespace = some ns
    · rw [if_neg hxml, if_neg hxml, if_pos hdefault, if_pos hdefault]
      simp [Mark.renumber]
    rw [if_neg hxml, if_neg hxml, if_neg hdefault, if_neg hdefault]
    cases w.prefixes.get? ns with
    | some pre => simp [Mark.renumber]
    | none =>
      cases w.oddities.lookup (.text ns) with
      | some v => simp [Mark.renumber]
      | none =>
        -- other prefixes are in use, but the answers do not depend on them
        rw [usedPrefixes, usedPrefixes, show (w.withNumber m).oddities = w.oddities from rfl]
        split_ifs
        · simp [Numbering.ofExcept, answerWith, Mark.renumber]
        · rfl

theorem renumber_draftName (isElement : Bool) (st : DraftNaming) (name : String) :
    (fun r ↦ ((r.1.1.renumber ν, r.1.2), r.2.renumber ν)) <$>
        (w.draftName isElement st name).interpret (answerWith id) =
      ((w.withNumber m).draftName isElement (st.renumber ν) name).interpret (answerWith ν) := by
  rw [draftName, draftName]
  rcases splitName name isElement with e | ⟨_ | ns, plain⟩
  · rfl
  · rfl
  · refine (map_interpret_bind (w.renumber_draftPrefix ν m isElement st ns) fun r ↦ ?_).trans
      (interpret_bind _ _).symm
    rfl

theorem renumber_draftAttributes (st : DraftNaming) (attributes : List (String × String)) :
    (fun r ↦ (r.1.map fun a ↦ ((a.1.1.renumber ν, a.1.2), a.2), r.2.renumber ν)) <$>
        (w.draftAttributes st attributes).interpret (answerWith id) =
      ((w.withNumber m).draftAttributes (st.renumber ν) attributes).interpret (answerWith ν) := by
  induction attributes generalizing st with
  | nil => rfl
  | cons a rest ih =>
    rw [draftAttributes, draftAttributes]
    refine (map_interpret_bind (w.renumber_draftName ν m false st a.1) fun r ↦ ?_).trans
      (interpret_bind _ _).symm
    exact (map_interpret_bind (ih r.2) fun r ↦ rfl).trans (interpret_bind _ _).symm

mutual

/-- Drafts depend on the numbers of new prefixes in one way only: these are the numbers that new
prefixes have. -/
theorem renumber_draft : ∀ (e : Element) (scope : OrderedMap String Mark),
    Draft.renumber ν <$> (w.draft scope e).interpret (answerWith id) =
      ((w.withNumber m).draft (scope.mapValues (Mark.renumber ν)) e).interpret (answerWith ν)
  | ⟨tag, attributes, text, tail, children⟩, scope => by
    rw [draft, draft]
    refine (map_interpret_bind (w.renumber_draftName ν m true ⟨scope, []⟩ tag)
      fun name ↦ ?_).trans (interpret_bind _ _).symm
    refine (map_interpret_bind (w.renumber_draftAttributes ν m name.2 attributes)
      fun attributes ↦ ?_).trans (interpret_bind _ _).symm
    refine (map_interpret_bind (renumber_draftAll children attributes.2.scope)
      fun children ↦ ?_).trans (interpret_bind _ _).symm
    have htext : id <$> (ofExcept (writtenText text)).interpret (answerWith id) =
        (ofExcept (writtenText text)).interpret (answerWith ν) := by
      rw [id_map, interpret_ofExcept, interpret_ofExcept]
    exact (map_interpret_bind htext fun text ↦ rfl).trans (interpret_bind _ _).symm

theorem renumber_draftAll : ∀ (es : List Element) (scope : OrderedMap String Mark),
    Draft.renumberAll ν <$> (w.draftAll scope es).interpret (answerWith id) =
      ((w.withNumber m).draftAll (scope.mapValues (Mark.renumber ν)) es).interpret (answerWith ν)
  | [], scope => rfl
  | e :: rest, scope => by
    rw [draftAll, draftAll]
    refine (map_interpret_bind (renumber_draft e scope) fun d ↦ ?_).trans
      (interpret_bind _ _).symm
    exact (map_interpret_bind (renumber_draftAll rest scope) fun ds ↦ rfl).trans
      (interpret_bind _ _).symm

end

end Writer

/-! ### The numbers that are given -/

/-- Steps that are carried out come to what they come to with the numbers that are given. -/
theorem Drafting.run_interpret_answerWith {α : Type} (p : Drafting α) {ν : Nat → Nat} {n k : Nat}
    (h : ∀ i number, (p.taken n)[i]? = some number → ν (k + i) = number) :
    (p.interpret (answerWith ν)).run.run k =
      ((p.carryOut.run.run n).1, k + (p.taken n).length) := by
  induction p generalizing n k with
  | done outcome => rfl
  | number used next ih =>
    have hfirst : ν k = firstFree used used.length n := h 0 _ rfl
    have hrest := ih (firstFree used used.length n) (n := firstFree used used.length n + 1)
      (k := k + 1) fun i number hi ↦ by
        rw [Nat.add_right_comm]
        exact h (i + 1) number hi
    show ((next (ν k)).interpret (answerWith ν)).run.run (k + 1) = _
    rw [hfirst, hrest, run_carryOut_number, taken, List.length_cons, Nat.add_right_comm,
      Nat.add_assoc]

namespace Writer

variable (w : Writer)

/-- The draft of a tree in which new prefixes are counted from zero. -/
def template (e : Element) : Except Error Draft :=
  (((w.draft ∅ e).interpret (answerWith id)).run.run 0).1

/-- The number of the new prefixes that a tree asks for. -/
def newCount (e : Element) : Nat := (((w.draft ∅ e).interpret (answerWith id)).run.run 0).2

/-- Whichever number is the next, as many new prefixes are asked for, and the markup is the one
draft with their numbers. -/
theorem markupOf_eq_map_template (e : Element) (n : Nat) :
    let numbers := ((w.withNumber n).draft ∅ e).taken n
    ((w.withNumber n).markupOf e).1 = (w.template e).map (Draft.fill · numbers) ∧
      numbers.length = w.newCount e := by
  intro numbers
  have hrun := ((w.withNumber n).draft ∅ e).run_interpret_answerWith (n := n) (k := 0)
    (ν := fun k ↦ numbers.getD k 0) fun i number hi ↦ by
      rw [Nat.zero_add, List.getD_eq_getElem?_getD, hi]
      rfl
  rw [show ((w.withNumber n).draft ∅ e).interpret _ = _ from
    (w.renumber_draft _ n e ∅).symm, ExceptT.run_map, Nat.zero_add] at hrun
  refine ⟨?_, (congrArg Prod.snd hrun).symm⟩
  rw [fst_markupOf, show (w.withNumber n).nextNumber = n from rfl, ← congrArg Prod.fst hrun]
  show Except.map Draft.markup (Except.map _ (w.template e)) = _
  cases w.template e <;> rfl

/-- Numbers that may be given to new prefixes, one after the other. -/
structure IsNumbering (registered : List String) (numbers : List Nat) : Prop where
  increasing : numbers.Pairwise (· < ·)
  fresh : ∀ n ∈ numbers, numberedPrefix n ∉ registered

/-- One draft is written out in both outputs, with numbers of their own for its new prefixes. -/
def AgreeUpToNew (registered : List String) (indent : Int) (s s' : String) : Prop :=
  ∃ (d : Draft) (numbers numbers' : List Nat), numbers.length = numbers'.length ∧
    IsNumbering registered numbers ∧ IsNumbering registered numbers' ∧
    s = Markup.clean (String.ofList ((d.fill numbers).render (indentation indent) 0)) ∧
    s' = Markup.clean (String.ofList ((d.fill numbers').render (indentation indent) 0))

end Writer

end ContactCard.Xml
