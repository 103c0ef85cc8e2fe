import ContactCard.Proofs.Xml.Prefix

/-!
# Drafts

Where a tree is written, new prefixes get numbers, and a number that was given is never seen again
but as a part of names. A draft is markup in which every prefix still stands apart from the name
behind it, and a new one is known by its number (`Mark`, `Draft`). The steps that lead to a draft
are data (`Drafting`): they end, or ask for a number and go on with it. So all numbers can be listed
that are given in the course of these steps (`Drafting.taken`), also where the tree is refused in
the end.

Carried out, the steps are those of the writer (`carryOut_draft`): the same markup or refusal comes
of them, and the writer is left with the same number.
-/

namespace ContactCard.Xml

/-! ### Steps that ask for numbers -/

/-- Steps that may be refused and may ask for the numbers of new prefixes. -/
inductive Drafting (α : Type) where
  /-- Ends with a result, or with a refusal. -/
  | done (outcome : Except Error α)
  /-- Asks for the number of a prefix that is none of those in use, and goes on with it. -/
  | number (used : List String) (next : Nat → Drafting α)

namespace Drafting

variable {α β : Type}

/-- One step after the other. -/
def bind : Drafting α → (α → Drafting β) → Drafting β
  | done (.ok a), f => f a
  | done (.error e), _ => done (.error e)
  | number used next, f => number used fun n ↦ (next n).bind f

instance : Monad Drafting where
  pure a := done (.ok a)
  bind := bind

/-- Passes on a result. -/
def ofExcept (x : Except Fault α) : Drafting α := done (x.mapError .fault)

/-- The number of a new prefix. -/
def askNumber (used : List String) : Drafting Nat := number used pure

/-- What the steps come to with the given way to answer them. -/
def interpret (answer : List String → Numbering Nat) : Drafting α → Numbering α
  | done outcome => ExceptT.mk (pure outcome)
  | number used next => do
    let n ← answer used
    (next n).interpret answer

/-- What the steps come to if every number is the next free one. -/
def carryOut (p : Drafting α) : Numbering α := p.interpret takeNumber

/-- The numbers that are given when the steps are carried out from the first number on. -/
def taken : Drafting α → Nat → List Nat
  | done _, _ => []
  | number used next, n =>
    let k := firstFree used used.length n
    k :: (next k).taken (k + 1)

section Interpret

variable {answer : List String → Numbering Nat}

@[simp] theorem interpret_pure (a : α) : (pure a : Drafting α).interpret answer = pure a := rfl

@[simp] theorem interpret_error (e : Error) :
    (done (.error e) : Drafting α).interpret answer = throw e := rfl

@[simp] theorem interpret_ofExcept (x : Except Fault α) :
    (ofExcept x).interpret answer = Numbering.ofExcept x := by
  cases x <;> rfl

@[simp] theorem interpret_askNumber (used : List String) :
    (askNumber used).interpret answer = answer used := bind_pure (answer used)

@[simp] theorem interpret_bind (p : Drafting α) (f : α → Drafting β) :
    (p >>= f).interpret answer = p.interpret answer >>= fun a ↦ (f a).interpret answer := by
  induction p with
  | done outcome =>
    cases outcome with
    | ok a => exact (pure_bind a fun a ↦ (f a).interpret answer).symm
    | error e => rfl
  | number used next ih =>
    show (answer used >>= fun n ↦ (next n >>= f).interpret answer) = _
    simp only [ih, interpret, bind_assoc]

/-- Steps mirror others one after the other if they do so one by one. -/
theorem map_interpret_bind {α' β' : Type} {p : Drafting α} {f : α → Drafting β} {u : α → α'}
    {v : β → β'} {x : Numbering α'} {g : α' → Numbering β'} (hp : u <$> p.interpret answer = x)
    (hf : ∀ a, v <$> (f a).interpret answer = g (u a)) :
    v <$> (p >>= f).interpret answer = x >>= g := by
  rw [interpret_bind, map_bind, ← hp, bind_map_left]
  exact bind_congr hf

end Interpret

/-! ### The numbers that are given -/

theorem run_carryOut_number (used : List String) (next : Nat → Drafting α) (n : Nat) :
    (number used next).carryOut.run.run n =
      (next (firstFree used used.length n)).carryOut.run.run
        (firstFree used used.length n + 1) := rfl

/-- Numbers are given in ascending order, between the one before the steps and the one after them.
-/
theorem taken_ascending (p : Drafting α) (n : Nat) :
    n ≤ (p.carryOut.run.run n).2 ∧ (p.taken n).Pairwise (· < ·) ∧
      ∀ k ∈ p.taken n, n ≤ k ∧ k < (p.carryOut.run.run n).2 := by
  induction p generalizing n with
  | done outcome => exact ⟨le_rfl, .nil, fun k hk ↦ absurd hk List.not_mem_nil⟩
  | number used next ih =>
    have hfirst := le_firstFree used used.length n
    rw [run_carryOut_number, taken]
    obtain ⟨hle, hpairwise, hbounds⟩ :=
      ih (firstFree used used.length n) (firstFree used used.length n + 1)
    refine ⟨by omega, .cons (fun k hk ↦ (hbounds k hk).1) hpairwise, ?_⟩
    refine List.forall_mem_cons.mpr ⟨⟨hfirst, hle⟩, fun k hk ↦ ?_⟩
    have := hbounds k hk
    omega

end Drafting

/-! ### Drafts -/

/-- A prefix that is known when the writing begins, or a new one by its number. -/
inductive Mark where
  | known (pre : String)
  | new (n : Nat)

/-- The prefix. -/
def Mark.text : Mark → String
  | known pre => pre
  | new n => numberedPrefix n

/-- Markup whose prefixes stand apart from the names. -/
structure Draft where
  name : Mark × String
  attributes : List ((Mark × String) × String)
  declarations : List (String × Mark)
  text : String
  children : List Draft

namespace Draft

/-- A name with its prefix, if it has one. -/
def join (name : Mark × String) : String := joinName name.1.text name.2

mutual

/-- The markup with the prefixes in their places. -/
def markup : Draft → Markup
  | ⟨name, attributes, declarations, text, children⟩ =>
    ⟨join name, attributes.map fun a ↦ (join a.1, a.2), declarations.map fun d ↦ (d.1, d.2.text),
      text, markupAll children⟩

/-- The markup of several drafts. -/
def markupAll : List Draft → List Markup
  | [] => []
  | d :: rest => markup d :: markupAll rest

end

end Draft

/-- The prefixes in scope, and those of them that the current start tag declares. -/
structure DraftNaming where
  scope : OrderedMap String Mark
  declared : List (String × Mark)

namespace DraftNaming

/-- Adds a declaration to the current start tag. -/
def declare (st : DraftNaming) (ns : String) (mark : Mark) : DraftNaming :=
  ⟨st.scope.insert ns mark, st.declared ++ [(ns, mark)]⟩

/-- The naming with the prefixes themselves. -/
def naming (st : DraftNaming) : Naming :=
  ⟨st.scope.mapValues Mark.text, st.declared.map fun d ↦ (d.1, d.2.text)⟩

@[simp] theorem naming_declare (st : DraftNaming) (ns : String) (mark : Mark) :
    (st.declare ns mark).naming = st.naming.declare ns mark.text := by
  rw [naming, declare, OrderedMap.mapValues_insert, List.map_append]
  rfl

end DraftNaming

/-! ### Drafting a tree -/

namespace Writer

/-- The prefix of a namespace, with the declarations that it takes. -/
def draftPrefix (w : Writer) (isElement : Bool) (st : DraftNaming) (ns : String) :
    Drafting (Mark × DraftNaming) :=
  match st.scope.get? ns with
  | some mark => return (mark, st)
  | none =>
    if ns = xmlNamespace then return (.known "xml", st)
    else if isElement ∧ w.defaultNamespace = some ns then
      return (.known "", st.declare ns (.known ""))
    else
      match w.prefixes.get? ns, w.oddities.lookup (.text ns) with
      | some pre, _ => return (.known pre, st.declare ns (.known pre))
      | none, some v => do
        let pre ← Drafting.ofExcept (writtenPrefix v)
        return (.known pre, st.declare ns (.known pre))
      | none, none => do
        let used ← Drafting.ofExcept (w.usedPrefixes st.naming)
        let n ← Drafting.askNumber used
        return (.new n, st.declare ns (.new n))

/-- The prefix and the local part of a tag or the name of an attribute. -/
def draftName (w : Writer) (isElement : Bool) (st : DraftNaming) (name : String) :
    Drafting ((Mark × String) × DraftNaming) :=
  match splitName name isElement with
  | .error e => .done (.error e)
  | .ok (none, plain) => return ((.known "", plain), st)
  | .ok (some ns, plain) => do
    let (mark, st) ← w.draftPrefix isElement st ns
    return ((mark, plain), st)

/-- The attributes with the prefixes and the local parts of their names. -/
def draftAttributes (w : Writer) (st : DraftNaming) : List (String × String) →
    Drafting (List ((Mark × String) × String) × DraftNaming)
  | [] => return ([], st)
  | (name, value) :: rest => do
    let (name, st) ← w.draftName false st name
    let (rest, st) ← w.draftAttributes st rest
    return ((name, value) :: rest, st)

mutual

/-- The draft of an element inside a scope. -/
def draft (w : Writer) (scope : OrderedMap String Mark) : Element → Drafting Draft
  | ⟨tag, attributes, text, _, children⟩ => do
    let (name, st) ← w.draftName true ⟨scope, []⟩ tag
    let (attributes, st) ← w.draftAttributes st attributes
    let children ← draftAll w st.scope children
    return ⟨name, attributes, st.declared, ← Drafting.ofExcept (writtenText text), children⟩

/-- The drafts of elements inside a scope. -/
def draftAll (w : Writer) (scope : OrderedMap String Mark) : List Element → Drafting (List Draft)
  | [] => return []
  | e :: rest => do
    let d ← draft w scope e
    let rest ← draftAll w scope rest
    return d :: rest

end

/-! ### Carrying out what was drafted -/

variable (w : Writer)

open Drafting

theorem carryOut_draftPrefix (isElement : Bool) (st : DraftNaming) (ns : String) :
    (fun r ↦ (r.1.text, r.2.naming)) <$> (w.draftPrefix isElement st ns).carryOut =
      w.prefixOf isElement st.naming ns := by
  rw [draftPrefix, prefixOf, show st.naming.scope.get? ns = _ from OrderedMap.get?_mapValues _ _ _,
    carryOut]
  cases st.scope.get? ns with
  | some mark => rfl
  | none =>
    dsimp only [Option.map_none]
    split_ifs
    · rfl
    · simp [Mark.text]
    · cases w.prefixes.get? ns with
      | some pre => simp [Mark.text]
      | none => cases w.oddities.lookup (.text ns) <;> simp [Mark.text]

theorem carryOut_draftName (isElement : Bool) (st : DraftNaming) (name : String) :
    (fun r ↦ (Draft.join r.1, r.2.naming)) <$> (w.draftName isElement st name).carryOut =
      w.writtenName isElement st.naming name := by
  rw [draftName, writtenName]
  rcases splitName name isElement with e | ⟨_ | ns, plain⟩
  · rfl
  · rfl
  · exact map_interpret_bind (w.carryOut_draftPrefix isElement st ns) fun r ↦ rfl

theorem carryOut_draftAttributes (st : DraftNaming) (attributes : List (String × String)) :
    (fun r ↦ (r.1.map fun a ↦ (Draft.join a.1, a.2), r.2.naming)) <$>
      (w.draftAttributes st attributes).carryOut = w.writtenAttributes st.naming attributes := by
  induction attributes generalizing st with
  | nil => rfl
  | cons a rest ih =>
    rw [draftAttributes, writtenAttributes]
    refine map_interpret_bind (w.carryOut_draftName false st a.1) fun r ↦ ?_
    exact map_interpret_bind (ih r.2) fun r ↦ rfl

mutual

/-- The steps of a draft are those of the writer. -/
theorem carryOut_draft : ∀ (e : Element) (scope : OrderedMap String Mark),
    Draft.markup <$> (w.draft scope e).carryOut = w.markup (scope.mapValues Mark.text) e
  | ⟨tag, attributes, text, tail, children⟩, scope => by
    rw [draft, markup]
    refine map_interpret_bind (w.carryOut_draftName true ⟨scope, []⟩ tag) fun name ↦ ?_
    refine map_interpret_bind (w.carryOut_draftAttributes name.2 attributes) fun attributes ↦ ?_
    refine map_interpret_bind (carryOut_draftAll children attributes.2.scope) fun children ↦ ?_
    have htext : id <$> (ofExcept (writtenText text)).interpret takeNumber =
        Numbering.ofExcept (writtenText text) := by rw [id_map, interpret_ofExcept]
    exact map_interpret_bind htext fun text ↦ rfl

theorem carryOut_draftAll : ∀ (es : List Element) (scope : OrderedMap String Mark),
    Draft.markupAll <$> (w.draftAll scope es).carryOut = w.markupAll (scope.mapValues Mark.text) es
  | [], scope => rfl
  | e :: rest, scope => by
    rw [draftAll, markupAll]
    refine map_interpret_bind (carryOut_draft e scope) fun d ↦ ?_
    exact map_interpret_bind (carryOut_draftAll rest scope) fun ds ↦ rfl

end

/-- What comes of a whole tree, and the number that is left, by its draft. -/
theorem run_markup (e : Element) (n : Nat) :
    (w.markup ∅ e).run.run n = (((w.draft ∅ e).carryOut.run.run n).1.map Draft.markup,
      ((w.draft ∅ e).carryOut.run.run n).2) := by
  rw [show w.markup ∅ e = _ from (w.carryOut_draft e ∅).symm, ExceptT.run_map]
  rfl

/-- What comes of a whole tree, by its draft. -/
theorem fst_markupOf (e : Element) :
    (w.markupOf e).1 = ((w.draft ∅ e).carryOut.run.run w.nextNumber).1.map Draft.markup :=
  congrArg Prod.fst (w.run_markup e w.nextNumber)

end Writer

end ContactCard.Xml
