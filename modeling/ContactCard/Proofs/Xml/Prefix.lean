import ContactCard.Proofs.Xml.Reader
import Std.Data.String.ToNat

/-!
# How prefixes are chosen

Which number a new prefix gets depends on all that was written before, but nothing that is written
depends on more than that the prefix is new. So what a writer does is described by relations that
leave the numbers open: `Chooses` for the prefix of a namespace, `WritesName` and `WritesAttributes`
for the names in a start tag, and `Writes` for a whole tree.

A tree whose names can be taken apart and whose texts are texts is written, and in this way
(`exists_writes`). No other tree is written (`canBeWritten_of_writeElement`).
-/

namespace ContactCard.Xml

/-! ### New prefixes -/

theorem numberedPrefix_inj {m n : Nat} (h : numberedPrefix m = numberedPrefix n) : m = n := by
  have h := congrArg String.toList h
  rw [numberedPrefix, numberedPrefix, String.toList_append, String.toList_append,
    List.append_cancel_left_eq, String.toList_inj] at h
  exact Nat.repr_injective h

/-- The search goes upwards. -/
theorem le_firstFree (used : List String) (fuel n : Nat) : n ≤ firstFree used fuel n := by
  induction fuel generalizing n with
  | zero => exact le_rfl
  | succ fuel ih =>
    rw [firstFree]
    split
    · exact (Nat.le_succ n).trans (ih (n + 1))
    · exact le_rfl

/-- The search stops at a free number or has passed as many numbers that are not free as it could.
-/
theorem firstFree_cases (used : List String) (fuel n : Nat) :
    numberedPrefix (firstFree used fuel n) ∉ used ∨
      firstFree used fuel n = n + fuel ∧ ∀ i < fuel, numberedPrefix (n + i) ∈ used := by
  induction fuel generalizing n with
  | zero => exact .inr ⟨rfl, by simp⟩
  | succ fuel ih =>
    rw [firstFree]
    by_cases hused : used.contains (numberedPrefix n) = true
    · rw [if_pos hused]
      rcases ih (n + 1) with hfree | ⟨heq, hall⟩
      · exact .inl hfree
      · refine .inr ⟨by rw [heq]; omega, fun i hi ↦ ?_⟩
        cases i with
        | zero => simpa using hused
        | succ i =>
          have := hall i (by omega)
          rwa [show n + 1 + i = n + (i + 1) by omega] at this
    · rw [if_neg hused]
      exact .inl (by simpa using hused)

/-- The new prefix is not used: of more numbers than there are used prefixes, not all can belong to
used ones. -/
theorem firstFree_not_mem (used : List String) (n : Nat) :
    numberedPrefix (firstFree used used.length n) ∉ used := by
  rcases firstFree_cases used used.length n with hfree | ⟨heq, hall⟩
  · exact hfree
  intro hmem
  have hsub : (List.range' n (used.length + 1)).map numberedPrefix ⊆ used := by
    intro pre hpre
    obtain ⟨k, hk, rfl⟩ := List.mem_map.mp hpre
    obtain ⟨hle, hlt⟩ := List.mem_range'_1.mp hk
    by_cases hlast : k = n + used.length
    · rwa [hlast, ← heq]
    · have := hall (k - n) (by omega)
      rwa [show n + (k - n) = k by omega] at this
  have hnodup : ((List.range' n (used.length + 1)).map numberedPrefix).Nodup :=
    List.Pairwise.map numberedPrefix (fun a b hab h ↦ hab (numberedPrefix_inj h)) List.nodup_range'
  have := hnodup.length_le_of_subset hsub
  rw [List.length_map, List.length_range'] at this
  omega

/-! ### Runs of steps that use numbers -/

namespace Numbering

variable {α β : Type}

/-- From the first number, the step succeeds with the result and leaves off at the other number. -/
def Gives (x : Numbering α) (n : Nat) (a : α) (n' : Nat) : Prop := x.run.run n = (.ok a, n')

theorem Gives.pure (a : α) (n : Nat) : Gives (Pure.pure a) n a n := rfl

theorem Gives.bind {x : Numbering α} {f : α → Numbering β} {n k n' : Nat} {a : α} {b : β}
    (hx : Gives x n a k) (hf : Gives (f a) k b n') : Gives (x >>= f) n b n' := by
  rw [Gives, ExceptT.run_bind, StateT.run_bind, show x.run.run n = (.ok a, k) from hx]
  exact hf

theorem Gives.ofExcept (a : α) (n : Nat) : Gives (ofExcept (.ok a)) n a n := rfl

/-- What succeeds succeeds step by step. -/
theorem Gives.of_bind {x : Numbering α} {f : α → Numbering β} {n n' : Nat} {b : β}
    (h : Gives (x >>= f) n b n') : ∃ a k, Gives x n a k ∧ Gives (f a) k b n' := by
  rw [Gives, ExceptT.run_bind, StateT.run_bind] at h
  rcases hx : x.run.run n with ⟨result, k⟩
  cases result with
  | error e =>
    rw [show StateT.run x.run n = (.error e, k) from hx] at h
    cases h
  | ok a =>
    rw [show StateT.run x.run n = (.ok a, k) from hx] at h
    exact ⟨a, k, hx, h⟩

end Numbering

open ContactCard.Xml.Numbering

theorem gives_takeNumber (used : List String) (n : Nat) :
    ∃ k n', Gives (takeNumber used) n k n' ∧ numberedPrefix k ∉ used :=
  ⟨firstFree used used.length n, _, rfl, firstFree_not_mem used n⟩

/-! ### Choosing prefixes -/

/-- The prefix that may be chosen for a namespace, and what is known about prefixes afterwards. -/
inductive Chooses (w : Writer) (isElement : Bool) (st : Naming) (ns : String) :
    String → Naming → Prop
  | inScope {pre : String} (h : st.scope.get? ns = some pre) : Chooses w isElement st ns pre st
  | reserved (hscope : st.scope.get? ns = none) (h : ns = xmlNamespace) :
      Chooses w isElement st ns "xml" st
  | default (hscope : st.scope.get? ns = none) (hns : ns ≠ xmlNamespace) (he : isElement = true)
      (h : w.defaultNamespace = some ns) : Chooses w isElement st ns "" (st.declare ns "")
  | registered {pre : String} (hscope : st.scope.get? ns = none) (hns : ns ≠ xmlNamespace)
      (hdefault : ¬(isElement = true ∧ w.defaultNamespace = some ns))
      (h : w.prefixes.get? ns = some pre) : Chooses w isElement st ns pre (st.declare ns pre)
  | new {n : Nat} (hscope : st.scope.get? ns = none) (hns : ns ≠ xmlNamespace)
      (hdefault : ¬(isElement = true ∧ w.defaultNamespace = some ns))
      (h : numberedPrefix n ∉ w.prefixes.values ++ st.scope.values) :
      Chooses w isElement st ns (numberedPrefix n) (st.declare ns (numberedPrefix n))

variable {w : Writer}

/-- Nothing comes into scope but by a declaration. -/
theorem Chooses.eq_or_eq_declare {isElement : Bool} {st st' : Naming} {ns pre : String}
    (h : Chooses w isElement st ns pre st') :
    st' = st ∨ st.scope.get? ns = none ∧ st' = st.declare ns pre := by
  cases h with
  | inScope h => exact .inl rfl
  | reserved hscope h => exact .inl rfl
  | default hscope hns he h => exact .inr ⟨hscope, rfl⟩
  | registered hscope hns hdefault h => exact .inr ⟨hscope, rfl⟩
  | new hscope hns hdefault h => exact .inr ⟨hscope, rfl⟩

theorem usedPrefixes_eq (hw : w.oddities = []) (st : Naming) :
    w.usedPrefixes st = .ok (w.prefixes.values ++ st.scope.values) := by
  simp [Writer.usedPrefixes, hw]

theorem exists_chooses (hw : w.oddities = []) (isElement : Bool) (st : Naming) (ns : String)
    (n : Nat) :
    ∃ pre st' n', Gives (w.prefixOf isElement st ns) n (pre, st') n' ∧
      Chooses w isElement st ns pre st' := by
  have hlookup : w.oddities.lookup (.text ns) = none := by rw [hw]; rfl
  rw [Writer.prefixOf]
  cases hscope : st.scope.get? ns with
  | some pre => exact ⟨pre, st, n, Gives.pure _ n, .inScope hscope⟩
  | none =>
    by_cases hns : ns = xmlNamespace
    · rw [if_pos hns]
      exact ⟨_, _, n, Gives.pure _ n, .reserved hscope hns⟩
    by_cases hdefault : isElement = true ∧ w.defaultNamespace = some ns
    · rw [if_neg hns, if_pos hdefault]
      exact ⟨_, _, n, Gives.pure _ n, .default hscope hns hdefault.1 hdefault.2⟩
    rw [if_neg hns, if_neg hdefault, hlookup, usedPrefixes_eq hw]
    cases hregistered : w.prefixes.get? ns with
    | some pre => exact ⟨_, _, n, Gives.pure _ n, .registered hscope hns hdefault hregistered⟩
    | none =>
      -- no name is known for the namespace, so a number that is free is taken
      obtain ⟨k, n', hk, hfree⟩ := gives_takeNumber (w.prefixes.values ++ st.scope.values) n
      exact ⟨_, _, n', (Gives.ofExcept _ n).bind (hk.bind (Gives.pure _ n')),
        .new hscope hns hdefault hfree⟩

/-! ### Writing names -/

/-- The name that may be written for a tag or the name of an attribute. -/
inductive WritesName (w : Writer) (isElement : Bool) (st : Naming) (name : String) :
    String → Naming → Prop
  | plain {plain : String} (h : splitName name isElement = .ok (none, plain)) :
      WritesName w isElement st name plain st
  | qualified {ns plain pre : String} {st' : Naming}
      (h : splitName name isElement = .ok (some ns, plain))
      (hpre : Chooses w isElement st ns pre st') :
      WritesName w isElement st name (joinName pre plain) st'

theorem exists_writesName (hw : w.oddities = []) {isElement : Bool} {name : String}
    {parts : Option String × String} (hname : splitName name isElement = .ok parts) (st : Naming)
    (n : Nat) :
    ∃ written st' n', Gives (w.writtenName isElement st name) n (written, st') n' ∧
      WritesName w isElement st name written st' := by
  rw [Writer.writtenName, hname]
  obtain ⟨_ | ns, plain⟩ := parts
  · exact ⟨plain, st, n, Gives.pure _ n, .plain hname⟩
  · obtain ⟨pre, st', n', hgives, hpre⟩ := exists_chooses hw isElement st ns n
    exact ⟨_, _, n', hgives.bind (Gives.pure _ n'), .qualified hname hpre⟩

/-- The attributes that may be written, one after the other. -/
inductive WritesAttributes (w : Writer) :
    Naming → List (String × String) → List (String × String) → Naming → Prop
  | nil (st : Naming) : WritesAttributes w st [] [] st
  | cons {st mid st' : Naming} {name written value : String} {rest rest' : List (String × String)}
      (hname : WritesName w false st name written mid)
      (hrest : WritesAttributes w mid rest rest' st') :
      WritesAttributes w st ((name, value) :: rest) ((written, value) :: rest') st'

theorem exists_writesAttributes (hw : w.oddities = []) {attributes : List (String × String)}
    (hnames : ∀ a ∈ attributes, ∃ parts, splitName a.1 false = .ok parts) (st : Naming) (n : Nat) :
    ∃ written st' n', Gives (w.writtenAttributes st attributes) n (written, st') n' ∧
      WritesAttributes w st attributes written st' := by
  induction attributes generalizing st n with
  | nil => exact ⟨[], st, n, Gives.pure _ n, .nil st⟩
  | cons a rest ih =>
    obtain ⟨name, value⟩ := a
    obtain ⟨parts, hparts⟩ := hnames _ List.mem_cons_self
    obtain ⟨written, mid, k, hname, hwrites⟩ := exists_writesName hw hparts st n
    obtain ⟨written', st', n', hrest, hwrites'⟩ :=
      ih (fun b hb ↦ hnames b (List.mem_cons_of_mem _ hb)) mid k
    exact ⟨_, _, n', hname.bind (hrest.bind (Gives.pure _ n')), .cons hwrites hwrites'⟩

/-! ### Writing trees -/

mutual

/-- The markup that may be written for an element inside a scope. -/
inductive Writes (w : Writer) : PrefixTable → Element → Markup → Prop
  | element {scope : PrefixTable} {mid st : Naming} {tag name : String}
      {attributes attributes' : List (String × String)} {text : Value} {text' : String}
      {tail : Option String} {children : List Element} {children' : List Markup}
      (hname : WritesName w true ⟨scope, []⟩ tag name mid)
      (hattributes : WritesAttributes w mid attributes attributes' st)
      (htext : writtenText text = .ok text') (hchildren : WritesAll w st.scope children children') :
      Writes w scope ⟨tag, attributes, text, tail, children⟩
        ⟨name, attributes', st.declared, text', children'⟩

/-- The markup that may be written for elements inside a scope. -/
inductive WritesAll (w : Writer) : PrefixTable → List Element → List Markup → Prop
  | nil (scope : PrefixTable) : WritesAll w scope [] []
  | cons {scope : PrefixTable} {e : Element} {m : Markup} {rest : List Element}
      {rest' : List Markup} (hfirst : Writes w scope e m) (hrest : WritesAll w scope rest rest') :
      WritesAll w scope (e :: rest) (m :: rest')

end

/-- The names of an element and its attributes can be taken apart, and its text is one. -/
structure Element.CanBeWritten (x : Element) : Prop where
  tag : ∃ parts, splitName x.tag true = .ok parts
  keys : ∀ a ∈ x.attributes, ∃ parts, splitName a.1 false = .ok parts
  text : ∃ s, writtenText x.text = .ok s

mutual

theorem exists_writes_markup (hw : w.oddities = []) :
    ∀ e : Element, (∀ x ∈ e.nodes, x.CanBeWritten) → ∀ scope n,
      ∃ m n', Gives (w.markup scope e) n m n' ∧ Writes w scope e m
  | ⟨tag, attributes, text, tail, children⟩, h, scope, n => by
    obtain ⟨⟨parts, hparts⟩, hkeys, ⟨s, htext⟩⟩ := h _ List.mem_cons_self
    obtain ⟨name, mid, k, hname, hwrites⟩ := exists_writesName hw hparts ⟨scope, []⟩ n
    obtain ⟨attributes', st, k', hattributes, hwrites'⟩ := exists_writesAttributes hw hkeys mid k
    obtain ⟨children', n', hchildren, hwrites''⟩ := exists_writes_markupAll hw children
      (fun x hx ↦ h x (List.mem_cons_of_mem _ hx)) st.scope k'
    have htext' : Gives (ofExcept (writtenText text)) n' s n' := by
      rw [htext]
      exact Gives.ofExcept s n'
    rw [Writer.markup]
    exact ⟨_, n', hname.bind (hattributes.bind (hchildren.bind (htext'.bind (Gives.pure _ n')))),
      .element hwrites hwrites' htext hwrites''⟩

theorem exists_writes_markupAll (hw : w.oddities = []) :
    ∀ es : List Element, (∀ x ∈ Element.nodesAll es, x.CanBeWritten) → ∀ scope n,
      ∃ ms n', Gives (w.markupAll scope es) n ms n' ∧ WritesAll w scope es ms
  | [], _, scope, n => ⟨[], n, Gives.pure _ n, .nil scope⟩
  | e :: rest, h, scope, n => by
    obtain ⟨m, k, hm, hwrites⟩ := exists_writes_markup hw e
      (fun x hx ↦ h x (List.mem_append_left _ hx)) scope n
    obtain ⟨ms, n', hms, hwrites'⟩ := exists_writes_markupAll hw rest
      (fun x hx ↦ h x (List.mem_append_right _ hx)) scope k
    rw [Writer.markupAll]
    exact ⟨_, n', hm.bind (hms.bind (Gives.pure _ n')), .cons hwrites hwrites'⟩

end

theorem exists_markupOf (hw : w.oddities = []) {e : Element} (h : ∀ x ∈ e.nodes, x.CanBeWritten) :
    ∃ m, (w.markupOf e).1 = .ok m ∧ Writes w ∅ e m := by
  obtain ⟨m, n', hm, hwrites⟩ := exists_writes_markup hw e h ∅ w.nextNumber
  refine ⟨m, ?_, hwrites⟩
  rw [Writer.markupOf, show (w.markup ∅ e).run.run w.nextNumber = _ from hm]

/-- The markup is what is written, with every indentation. -/
theorem writeElement_of_markupOf {e : Element} {m : Markup} (h : (w.markupOf e).1 = .ok m)
    (indent : Int) : (w.writeElement e indent).1 =
      .ok (Markup.clean (String.ofList (m.render (Writer.indentation indent) 0))) := by
  show (w.markupOf e).1.map _ = _
  rw [h]
  rfl

/-- A tree whose names can be taken apart and whose texts are texts is written, with every
indentation from the same markup. -/
theorem exists_writes (hw : w.oddities = []) {e : Element} (h : ∀ x ∈ e.nodes, x.CanBeWritten) :
    ∃ m, Writes w ∅ e m ∧ ∀ indent, (w.writeElement e indent).1 =
      .ok (Markup.clean (String.ofList (m.render (Writer.indentation indent) 0))) := by
  obtain ⟨m, hm, hwrites⟩ := exists_markupOf hw h
  exact ⟨m, hwrites, writeElement_of_markupOf hm⟩

/-! ### What can be written -/

theorem exists_splitName_of_gives {isElement : Bool} {st : Naming} {name : String} {n n' : Nat}
    {result : String × Naming} (h : Gives (w.writtenName isElement st name) n result n') :
    ∃ parts, splitName name isElement = .ok parts := by
  rw [Writer.writtenName] at h
  cases hname : splitName name isElement with
  | error e =>
    rw [hname] at h
    cases h
  | ok parts => exact ⟨parts, rfl⟩

theorem exists_splitName_of_writtenAttributes {attributes : List (String × String)} {st : Naming}
    {n n' : Nat} {result : List (String × String) × Naming}
    (h : Gives (w.writtenAttributes st attributes) n result n') :
    ∀ a ∈ attributes, ∃ parts, splitName a.1 false = .ok parts := by
  induction attributes generalizing st n n' result with
  | nil => exact fun a ha ↦ absurd ha List.not_mem_nil
  | cons first rest ih =>
    rw [Writer.writtenAttributes] at h
    obtain ⟨_, _, hfirst, h⟩ := h.of_bind
    obtain ⟨_, _, hrest, _⟩ := h.of_bind
    exact List.forall_mem_cons.mpr ⟨exists_splitName_of_gives hfirst, ih hrest⟩

mutual

theorem canBeWritten_of_markup :
    ∀ (e : Element) (scope : PrefixTable) {n n' : Nat} {m : Markup},
      Gives (w.markup scope e) n m n' → ∀ x ∈ e.nodes, x.CanBeWritten
  | ⟨tag, attributes, text, tail, children⟩, scope, n, n', m, h, x, hx => by
    rw [Writer.markup] at h
    obtain ⟨_, _, htag, h⟩ := h.of_bind
    obtain ⟨⟨_, st⟩, _, hattributes, h⟩ := h.of_bind
    obtain ⟨_, _, hchildren, h⟩ := h.of_bind
    obtain ⟨_, _, htext, _⟩ := h.of_bind
    rcases List.mem_cons.mp hx with rfl | hx
    · refine ⟨exists_splitName_of_gives htag, exists_splitName_of_writtenAttributes hattributes, ?_⟩
      show ∃ s, writtenText text = .ok s
      cases hwritten : writtenText text with
      | error f =>
        rw [hwritten] at htext
        cases htext
      | ok s => exact ⟨s, rfl⟩
    · exact canBeWritten_of_markupAll children st.scope hchildren x hx

theorem canBeWritten_of_markupAll :
    ∀ (es : List Element) (scope : PrefixTable) {n n' : Nat} {ms : List Markup},
      Gives (w.markupAll scope es) n ms n' → ∀ x ∈ Element.nodesAll es, x.CanBeWritten
  | [], _, _, _, _, _, _, hx => absurd hx List.not_mem_nil
  | e :: rest, scope, n, n', ms, h, x, hx => by
    rw [Writer.markupAll] at h
    obtain ⟨_, _, hfirst, h⟩ := h.of_bind
    obtain ⟨_, _, hrest, _⟩ := h.of_bind
    rcases List.mem_append.mp hx with hx | hx
    · exact canBeWritten_of_markup e scope hfirst x hx
    · exact canBeWritten_of_markupAll rest scope hrest x hx

end

/-- No other trees than these are written. -/
theorem canBeWritten_of_writeElement {e : Element} {indent : Int} {s : String}
    (h : (w.writeElement e indent).1 = .ok s) : ∀ x ∈ e.nodes, x.CanBeWritten := by
  rcases hm : (w.markup ∅ e).run.run w.nextNumber with ⟨result, n'⟩
  rw [Writer.writeElement, Writer.markupOf, hm] at h
  cases result with
  | error f => cases h
  | ok m => exact canBeWritten_of_markup e ∅ hm

end ContactCard.Xml
