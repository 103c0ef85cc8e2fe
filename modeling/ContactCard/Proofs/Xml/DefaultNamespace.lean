import ContactCard.Proofs.Xml.StartTag
import Mathlib.Data.List.Forall2

/-!
# Where the default namespace has no prefix

The elements in the default namespace of a writer should have no prefix, and the namespace should be
declared on the topmost of them only (`WrittenUnprefixed`). What is written for an element depends
on how the namespace was met first on the way down to it: a writer gives an attribute in the default
namespace a prefix, and where that happens first, all elements in the namespace below have it, too.
An attribute whose written name is `xmlns` looks like a declaration, wherever it stands. A tree
comes out as it should if and only if neither happens (`unprefixed_iff`).

The way down to an element is the list of the elements that it is in. What a writer has in scope is
determined by it as far as the default namespace is concerned (`Tracks`), so each start tag can be
looked at by itself (`Writes.forall₂_paths`).
-/

namespace ContactCard.Xml

open Markup

/-! ### Paths -/

namespace Element

mutual

/-- All elements of a tree, in the order of the tags, each after the elements that it is in, of
which the outermost comes first. -/
def paths (above : List Element) : Element → List (List Element × Element)
  | ⟨tag, attributes, text, tail, children⟩ =>
    let e : Element := ⟨tag, attributes, text, tail, children⟩
    (above, e) :: pathsAll (above ++ [e]) children

def pathsAll (above : List Element) : List Element → List (List Element × Element)
  | [] => []
  | e :: rest => paths above e ++ pathsAll above rest

end

/-- The element is in the namespace. -/
def IsIn (d : Option String) (x : Element) : Prop := ∃ plain, splitName x.tag true = .ok (d, plain)

/-- The element is in the namespace and in no element that is. -/
def IsTopmost (d : Option String) (above : List Element) (x : Element) : Prop :=
  x.IsIn d ∧ ∀ y ∈ above, ¬y.IsIn d

end Element

/-- How the default namespace was met first, after a start tag. -/
def meetElement (d : Option String) (met : Option Bool) (x : Element) : Option Bool :=
  meetAll d (meet d true met x.tag) x.attributes

/-- How the default namespace was met first, on the way through the elements. -/
def metAbove (d : Option String) (above : List Element) : Option Bool :=
  above.foldl (meetElement d) none

/-- The name of an attribute is written as that of a declaration of the default namespace. -/
def LooksDeclared (d : Option String) (met : Option Bool) (name : String) : Prop :=
  splitName name false = .ok (none, "xmlns") ∨
    splitName name false = .ok (d, "xmlns") ∧ isInDefault d name = true ∧ met = some true

/-- The start tag `x'` of `x` has no prefix if `x` is in the default namespace, and declares the
namespace only if no element above is in it. -/
structure WrittenUnprefixed (d : Option String) (above : List Element) (x x' : Element) : Prop where
  tag : ∀ plain, splitName x.tag true = .ok (d, plain) → x'.tag = plain
  declares : "xmlns" ∈ x'.attributes.map Prod.fst → x.IsTopmost d above

/-- If `x` is in the default namespace, then no attribute was the first to be met in it, and that
namespace is not the one of XML; only on a topmost element may an attribute look like a declaration.
-/
structure StaysUnprefixed (d : Option String) (above : List Element) (x : Element) : Prop where
  isIn : x.IsIn d → d ≠ some xmlNamespace ∧ metAbove d above ≠ some false
  declares : (∃ a ∈ x.attributes, LooksDeclared d (meet d true (metAbove d above) x.tag) a.1) →
    x.IsTopmost d above

variable {w : Writer} {outer : Bindings} {st st' : Naming} {isElement : Bool} {ns pre : String}
  {d : Option String} {met : Option Bool} {x : Element}

/-! ### What was met -/

theorem meet_isSome (h : met ≠ none) (name : String) : meet d isElement met name = met := by
  rw [meet]
  split
  · cases met with
    | none => exact absurd rfl h
    | some b => rfl
  · rfl

theorem meetAll_isSome (h : met ≠ none) (attributes : List (String × String)) :
    meetAll d met attributes = met := by
  induction attributes with
  | nil => rfl
  | cons a rest ih => rw [meetAll, List.foldl_cons, meet_isSome h, ← meetAll, ih]

/-- To be met as that of an attribute does not make the namespace one of an element. -/
theorem meet_false_eq_some_true_iff {name : String} :
    meet d false met name = some true ↔ met = some true := by
  cases met with
  | none =>
    rw [meet]
    split <;> simp
  | some b => rw [meet_isSome (by simp)]

theorem isInDefault_of_isIn (h : x.IsIn d) (hd : d ≠ some xmlNamespace) :
    isInDefault d x.tag = true := by
  obtain ⟨plain, hsplit⟩ := h
  obtain ⟨ns, plain, hparts, -⟩ := eq_expandedName_of_splitName hsplit
  obtain ⟨rfl, rfl⟩ := Prod.mk.inj hparts
  have hns : ns ≠ xmlNamespace := fun hns ↦ hd (congrArg some hns)
  rw [isInDefault, splitName_false_of_eq_some hsplit]
  simp [hns]

/-- Below an element in the default namespace, the namespace was met. -/
theorem metAbove_ne_none {above : List Element} (hx : x ∈ above) (h : x.IsIn d)
    (hd : d ≠ some xmlNamespace) : metAbove d above ≠ none := by
  have hkeeps : ∀ (rest : List Element) {met : Option Bool}, met ≠ none →
      rest.foldl (meetElement d) met = met := by
    intro rest
    induction rest with
    | nil => exact fun _ ↦ rfl
    | cons y rest ih =>
      intro met hmet
      have hy : meetElement d met y = met := by
        rw [meetElement, meet_isSome hmet, meetAll_isSome hmet]
      rw [List.foldl_cons, hy, ih hmet]
  obtain ⟨before, after, rfl⟩ := List.append_of_mem hx
  have hmet : meet d true (metAbove d before) x.tag ≠ none := by
    rw [meet, isInDefault_of_isIn h hd, if_pos rfl]
    cases metAbove d before <;> simp
  have hstep : meetElement d (metAbove d before) x = meet d true (metAbove d before) x.tag :=
    meetAll_isSome hmet _
  rw [metAbove, List.foldl_append, ← metAbove, List.foldl_cons, hstep, hkeeps after hmet]
  exact hmet

/-! ### Start tags -/

/-- The tag of an element in the default namespace has no prefix unless the namespace was met first
as that of an attribute. -/
theorem Chooses.eq_empty_iff_of_element (hw : w.IsProper) (h : Chooses w true st ns pre st')
    (hst : st.Follows w outer) (ht : Tracks w st.scope met) (hd : w.defaultNamespace = some ns) :
    pre = "" ↔ ns ≠ xmlNamespace ∧ met ≠ some false := by
  by_cases hns : ns = xmlNamespace
  · refine iff_of_false (fun hpre ↦ ?_) fun hne ↦ hne.1 hns
    rcases h.knows with hscope | ⟨-, rfl⟩
    · rw [hns, (h.follows hw hst).agrees.isReserved] at hscope
      exact absurd hscope (by simp)
    · exact absurd hpre (by decide)
  have hscope : st'.scope.get? ns = some pre := h.knows.resolve_right fun hxml ↦ hns hxml.1
  have hmet : met.or (some true) = some pre.isEmpty := by
    have htracks := h.tracks hw ht ns hd hns
    rwa [if_pos (by simp [hd, hns]), hscope] at htracks
  rw [and_iff_right hns, ← String.isEmpty_iff]
  cases met with
  | none =>
    have hempty : true = pre.isEmpty := Option.some.inj hmet
    simp [← hempty]
  | some b =>
    have hempty : b = pre.isEmpty := Option.some.inj hmet
    simp [← hempty]

/-- A start tag declares the default namespace for its element only, and only where it was not met
before. -/
theorem Chooses.of_empty_declared (hw : w.IsProper) (h : Chooses w isElement st ns pre st')
    {b : String × String} (hb : b ∈ st'.declared) (hempty : b.2 = "") :
    b ∈ st.declared ∨ isElement = true ∧ w.defaultNamespace = some ns ∧ ns ≠ xmlNamespace ∧
      st.scope.get? ns = none := by
  have hdeclare : ∀ pre : String, isNCName pre.toList = true → b ∈ (st.declare ns pre).declared →
      b ∈ st.declared := by
    intro pre hname hb
    refine (List.mem_append.mp hb).resolve_right fun hb ↦ ?_
    obtain rfl := List.mem_singleton.mp hb
    obtain rfl : pre = "" := hempty
    exact absurd hname (by decide)
  cases h with
  | inScope h => exact .inl hb
  | reserved hscope h => exact .inl hb
  | default hscope hns he h => exact .inr ⟨he, h, hns, hscope⟩
  | registered hscope hns hdefault h => exact .inl (hdeclare _ (hw.isName h hns).1 hb)
  | new hscope hns hdefault h => exact .inl (hdeclare _ (isNCName_numberedPrefix _) hb)

theorem WritesAttributes.of_empty_declared (hw : w.IsProper)
    {attributes written : List (String × String)}
    (h : WritesAttributes w st attributes written st') {b : String × String}
    (hb : b ∈ st'.declared) (hempty : b.2 = "") : b ∈ st.declared := by
  induction h with
  | nil st => exact hb
  | cons hname hrest ih =>
    cases hname with
    | plain h => exact ih hb
    | qualified h hpre =>
      exact (hpre.of_empty_declared hw (ih hb) hempty).resolve_right fun h ↦ absurd h.1 (by decide)

theorem joinName_eq_xmlns_iff {pre plain : String} :
    joinName pre plain = "xmlns" ↔ pre = "" ∧ plain = "xmlns" := by
  rw [joinName]
  split
  · next h =>
    rw [String.isEmpty_iff.mp h]
    simp
  · next h =>
    have hne : pre ≠ "" := fun hpre ↦ h (String.isEmpty_iff.mpr hpre)
    refine iff_of_false (fun heq ↦ ?_) fun h ↦ hne h.1
    have hcolon : ':' ∈ (pre ++ ":" ++ plain).toList := by simp [String.toList_append]
    rw [heq] at hcolon
    exact absurd hcolon (by decide)

theorem joinName_eq_self_iff {pre plain : String} : joinName pre plain = plain ↔ pre = "" := by
  rw [joinName]
  split
  · next h => exact iff_of_true rfl (String.isEmpty_iff.mp h)
  · next h =>
    refine iff_of_false (fun heq ↦ ?_) fun hpre ↦ h (String.isEmpty_iff.mpr hpre)
    have := congrArg (fun s ↦ s.toList.length) heq
    simp [String.toList_append] at this
    omega

/-- The written name of an attribute is that of a declaration just when it looks like one. -/
theorem WritesName.eq_xmlns_iff (hw : w.IsProper) {name written : String}
    (h : WritesName w false st name written st') (hst : st.Follows w outer)
    (ht : Tracks w st.scope met) :
    written = "xmlns" ↔ LooksDeclared w.defaultNamespace met name := by
  cases h with
  | plain h =>
    have hfalse : isInDefault w.defaultNamespace name = false := by rw [isInDefault, h]
    simp [LooksDeclared, h, hfalse]
  | @qualified ns plain pre st' h hpre =>
    rw [joinName_eq_xmlns_iff, hpre.eq_empty_iff hw hst ht]
    simp only [LooksDeclared, isInDefault, h]
    constructor
    · rintro ⟨⟨hin, hmet⟩, rfl⟩
      obtain ⟨hd, -⟩ : w.defaultNamespace = some ns ∧ ns ≠ xmlNamespace := by simpa using hin
      exact .inr ⟨by rw [hd], hin, hmet⟩
    · rintro (h | ⟨h, hin, hmet⟩)
      · exact absurd h (by simp)
      · exact ⟨⟨hin, hmet⟩, (Prod.mk.inj (Except.ok.inj h)).2⟩

/-- An attribute is written as a declaration of the default namespace just when one looks like it.
-/
theorem WritesAttributes.mem_xmlns_iff (hw : w.IsProper)
    {attributes written : List (String × String)}
    (h : WritesAttributes w st attributes written st') (hst : st.Follows w outer)
    (ht : Tracks w st.scope met) :
    "xmlns" ∈ written.map Prod.fst ↔
      ∃ a ∈ attributes, LooksDeclared w.defaultNamespace met a.1 := by
  induction h generalizing met with
  | nil st => simp
  | @cons st mid st' name written value rest rest' hname hrest ih =>
    obtain ⟨hmid, ht'⟩ := hname.follows hw hst ht
    have hsame : ∀ key, LooksDeclared w.defaultNamespace
        (meet w.defaultNamespace false met name) key ↔ LooksDeclared w.defaultNamespace met key :=
      fun key ↦ by rw [LooksDeclared, LooksDeclared, meet_false_eq_some_true_iff]
    rw [List.map_cons, List.mem_cons, eq_comm, hname.eq_xmlns_iff hw hst ht, ih hmid ht']
    simp [hsame]

/-- A tag in the default namespace has no prefix unless the namespace was met first as that of an
attribute. -/
theorem WritesName.eq_plain_iff (hw : w.IsProper) {tag name : String}
    (h : WritesName w true st tag name st') (hst : st.Follows w outer)
    (ht : Tracks w st.scope met) :
    (∀ plain, splitName tag true = .ok (w.defaultNamespace, plain) → name = plain) ↔
      ((∃ plain, splitName tag true = .ok (w.defaultNamespace, plain)) →
        w.defaultNamespace ≠ some xmlNamespace ∧ met ≠ some false) := by
  cases h with
  | plain h =>
    obtain ⟨ns, plain, hparts, -⟩ := eq_expandedName_of_splitName h
    exact absurd (congrArg Prod.fst hparts) (by simp)
  | @qualified ns plain pre st' h hpre =>
    by_cases hd : w.defaultNamespace = some ns
    · have hne : w.defaultNamespace ≠ some xmlNamespace ↔ ns ≠ xmlNamespace := by rw [hd]; simp
      have hself : joinName pre plain = plain ↔ pre = "" := joinName_eq_self_iff
      rw [hne, ← hpre.eq_empty_iff_of_element hw hst ht hd, ← hself]
      constructor
      · exact fun hall _ ↦ hall plain (by rw [hd, h])
      · intro hall other hother
        obtain ⟨-, rfl⟩ := Prod.mk.inj (Except.ok.inj (h.symm.trans hother))
        exact hall ⟨plain, hother⟩
    · have hnone (other : String) : splitName tag true ≠ .ok (w.defaultNamespace, other) := by
        intro hother
        exact hd (Prod.mk.inj (Except.ok.inj (hother.symm.trans h))).1
      exact iff_of_true (fun other hother ↦ absurd hother (hnone other))
        fun ⟨other, hother⟩ ↦ absurd hother (hnone other)

/-- A tag brings in the default namespace only if it is in it and the namespace was not met before.
-/
theorem WritesName.of_empty_declared (hw : w.IsProper) {scope : PrefixTable} {tag name : String}
    (h : WritesName w true ⟨scope, []⟩ tag name st') (ht : Tracks w scope met)
    {b : String × String} (hb : b ∈ st'.declared) (hempty : b.2 = "") :
    (∃ plain, splitName tag true = .ok (w.defaultNamespace, plain)) ∧
      w.defaultNamespace ≠ some xmlNamespace ∧ met = none := by
  cases h with
  | plain h => exact absurd hb List.not_mem_nil
  | @qualified ns plain pre st' h hpre =>
    obtain ⟨-, hd, hns, hscope⟩ :=
      (hpre.of_empty_declared hw hb hempty).resolve_left List.not_mem_nil
    refine ⟨⟨plain, by rw [hd, h]⟩, by rw [hd]; simpa using hns, ?_⟩
    rw [ht ns hd hns, show scope.get? ns = none from hscope]
    rfl

theorem mem_declarationAttributes_iff {declared : List (String × String)} :
    "xmlns" ∈ (declarationAttributes declared).map Prod.fst ↔ ∃ b ∈ declared, b.2 = "" := by
  have hname (pre : String) : declarationName pre = "xmlns" ↔ pre = "" := by
    constructor
    · intro h
      have hsome := declaredPrefix?_declarationName pre
      rw [h] at hsome
      exact (Option.some.inj hsome).symm
    · rintro rfl
      rfl
  simp [declarationAttributes, hname]

/-- The start tag of an element comes out as it should just when nothing on the way to it and
nothing in it prevents that. -/
theorem writtenUnprefixed_iff (hw : w.IsProper) {scope : PrefixTable} {mid : Naming}
    {above : List Element} {x x' : Element} {written : List (String × String)}
    (hagrees : Agrees w outer scope) (ht : Tracks w scope (metAbove w.defaultNamespace above))
    (hname : WritesName w true ⟨scope, []⟩ x.tag x'.tag mid)
    (hattributes : WritesAttributes w mid x.attributes written st)
    (heq : x'.attributes = written ++ declarationAttributes st.declared) :
    WrittenUnprefixed w.defaultNamespace above x x' ↔
      StaysUnprefixed w.defaultNamespace above x := by
  obtain ⟨hmid, ht'⟩ := hname.follows hw hagrees.follows ht
  have htag := hname.eq_plain_iff hw hagrees.follows ht
  -- what the writer itself declares, it declares on a topmost element
  have hdeclares : "xmlns" ∈ (declarationAttributes st.declared).map Prod.fst →
      x.IsTopmost w.defaultNamespace above := by
    intro hmem
    obtain ⟨b, hb, hempty⟩ := mem_declarationAttributes_iff.mp hmem
    obtain ⟨hin, hxml, hmet⟩ :=
      hname.of_empty_declared hw ht (hattributes.of_empty_declared hw hb hempty) hempty
    exact ⟨hin, fun y hy hyin ↦ metAbove_ne_none hy hyin hxml hmet⟩
  have hall : "xmlns" ∈ x'.attributes.map Prod.fst ↔
      (∃ a ∈ x.attributes, LooksDeclared w.defaultNamespace
        (meet w.defaultNamespace true (metAbove w.defaultNamespace above) x.tag) a.1) ∨
      "xmlns" ∈ (declarationAttributes st.declared).map Prod.fst := by
    rw [heq, List.map_append, List.mem_append, hattributes.mem_xmlns_iff hw hmid ht']
  constructor
  · intro h
    exact ⟨htag.mp h.tag, fun hlooks ↦ h.declares (hall.mpr (.inl hlooks))⟩
  · intro h
    exact ⟨htag.mpr h.isIn, fun hmem ↦ (hall.mp hmem).elim h.declares hdeclares⟩

/-! ### Trees -/

mutual

/-- Every start tag comes out as it should just when nothing prevents that. -/
theorem Writes.forall₂_paths (hw : w.IsProper) (outer : Bindings) :
    ∀ (e : Element) (m : Markup) (scope : PrefixTable) (above : List Element), Writes w scope e m →
      Agrees w outer scope → Tracks w scope (metAbove w.defaultNamespace above) →
      List.Forall₂ (fun p x' ↦ WrittenUnprefixed w.defaultNamespace p.1 p.2 x' ↔
        StaysUnprefixed w.defaultNamespace p.1 p.2) (e.paths above) m.written.nodes
  | ⟨tag, attributes, text, tail, children⟩, ⟨name, written, declarations, text', children'⟩, scope,
      above, h, hagrees, ht => by
    obtain ⟨mid, st, hname, hattributes, rfl, -, hchildren⟩ := h.inv
    obtain ⟨hmid, ht'⟩ := hname.follows hw hagrees.follows ht
    obtain ⟨hst, ht''⟩ := hattributes.follows hw hmid ht'
    refine .cons (writtenUnprefixed_iff hw hagrees ht hname hattributes rfl) ?_
    refine WritesAll.forall₂_paths hw (declareAll outer st.declared) children children' st.scope _
      hchildren hst.agrees ?_
    rw [metAbove, List.foldl_append, ← metAbove]
    exact ht''

theorem WritesAll.forall₂_paths (hw : w.IsProper) (outer : Bindings) :
    ∀ (es : List Element) (ms : List Markup) (scope : PrefixTable) (above : List Element),
      WritesAll w scope es ms → Agrees w outer scope →
      Tracks w scope (metAbove w.defaultNamespace above) →
      List.Forall₂ (fun p x' ↦ WrittenUnprefixed w.defaultNamespace p.1 p.2 x' ↔
        StaysUnprefixed w.defaultNamespace p.1 p.2) (Element.pathsAll above es)
        (Element.nodesAll (Markup.writtenAll ms))
  | [], _, _, _, .nil _, _, _ => .nil
  | e :: rest, _, scope, above, .cons hfirst hrest, hagrees, ht =>
    List.rel_append (Writes.forall₂_paths hw outer e _ scope above hfirst hagrees ht)
      (WritesAll.forall₂_paths hw outer rest _ scope above hrest hagrees ht)

end

theorem forall₂_iff_of_forall₂ {α β : Type} {R : α → β → Prop} {p : α → Prop} {as : List α}
    {bs : List β} (h : List.Forall₂ (fun a b ↦ R a b ↔ p a) as bs) :
    List.Forall₂ R as bs ↔ ∀ a ∈ as, p a := by
  induction h with
  | nil => simp
  | cons hab hrest ih => rw [List.forall₂_cons, List.forall_mem_cons, hab, ih]

/-- A tree that a writer without prefixes of its own accepts comes out with no prefixes in its
default namespace, which only topmost elements declare, if and only if nothing in the tree prevents
that. -/
theorem unprefixed_iff (d : Option String) (n : Nat) {e : Element} {indent : Int} {s : String}
    (h : (Writer.writeElement { Writer.new d with nextNumber := n } e indent).1 = .ok s) :
    ∃ m : Markup,
      (Writer.markupOf { Writer.new d with nextNumber := n } e).1 = .ok m ∧
      s = clean (String.ofList (m.render (Writer.indentation indent) 0)) ∧
      (List.Forall₂ (fun p x' ↦ WrittenUnprefixed d p.1 p.2 x') (e.paths []) m.written.nodes ↔
        ∀ p ∈ e.paths [], StaysUnprefixed d p.1 p.2) := by
  have hw := Writer.IsProper.new d n
  obtain ⟨m, hm, hwrites⟩ := exists_markupOf hw.oddities (canBeWritten_of_writeElement h)
  refine ⟨m, hm, Except.ok.inj (h.symm.trans (writeElement_of_markupOf hm indent)), ?_⟩
  exact forall₂_iff_of_forall₂ (hwrites.forall₂_paths hw outerBindings e m ∅ [] (Agrees.empty _)
    (tracks_empty _))

/-- The default namespace stays without a prefix below a foreign element and beside an attribute
that is in it, where an element was in it first. -/
theorem unprefixed_iff_foreign :
    let child := Element.bare (expandedName "d" "child") [(expandedName "d" "a", "1")]
    let parent : Element := ⟨expandedName "e" "parent", [("b", "2")], .null, none, [child]⟩
    let w : Writer := { Writer.new (some "d") with nextNumber := 3 }
    ∃ s, (w.writeElement parent 1).1 = .ok s ∧
      ∃ m : Markup, (w.markupOf parent).1 = .ok m ∧
        s = clean (String.ofList (m.render (Writer.indentation 1) 0)) ∧
        List.Forall₂ (fun p x' ↦ WrittenUnprefixed (some "d") p.1 p.2 x') (parent.paths [])
          m.written.nodes := by
  intro child parent w
  have hchild : splitName child.tag true = .ok (some "d", "child") :=
    splitName_expandedName (by decide) true
  have hparent : splitName parent.tag true = .ok (some "e", "parent") :=
    splitName_expandedName (by decide) true
  have hkeys : splitName (expandedName "d" "a") false = .ok (some "d", "a") ∧
      splitName "b" false = .ok (none, "b") :=
    ⟨splitName_expandedName (by decide) false, splitName_plain (by decide)⟩
  have hcan : ∀ x ∈ parent.nodes, x.CanBeWritten := by
    refine (Element.forall_mem_nodes_of_child rfl).mpr ⟨⟨⟨_, hparent⟩, ?_, ⟨_, rfl⟩⟩, ?_⟩
    · exact List.forall_mem_singleton.mpr ⟨_, hkeys.2⟩
    · exact (Element.forall_mem_nodes_of_childless rfl).mpr
        ⟨⟨_, hchild⟩, List.forall_mem_singleton.mpr ⟨_, hkeys.1⟩, ⟨_, rfl⟩⟩
  obtain ⟨_, -, hout⟩ := exists_writes (w := w) rfl hcan
  obtain ⟨m, hm, hs, hiff⟩ := unprefixed_iff (some "d") 3 (hout 1)
  refine ⟨_, hout 1, m, hm, hs, hiff.mpr ?_⟩
  have hpaths : parent.paths [] = [([], parent), ([parent], child)] := rfl
  have hforeign : ¬parent.IsIn (some "d") := by
    rintro ⟨plain, h⟩
    rw [hparent] at h
    exact absurd h (by simp)
  have hmet : metAbove (some "d") [parent] = none := by decide +kernel
  simp only [hpaths, List.forall_mem_cons, List.not_mem_nil, false_imp_iff, implies_true, and_true]
  refine ⟨⟨fun h ↦ absurd h hforeign, ?_⟩, fun _ ↦ ⟨by decide, by simp [hmet]⟩,
    fun _ ↦ ⟨⟨"child", hchild⟩, by simpa using hforeign⟩⟩
  rintro ⟨a, ha, h⟩
  obtain rfl : a = ("b", "2") := List.mem_singleton.mp ha
  rw [LooksDeclared, hkeys.2] at h
  exact absurd h (by simp)

/-- Below an attribute in the default namespace, an element in that namespace has a prefix. -/
theorem child_in_default_namespace_prefixed :
    let child := Element.bare (expandedName "d" "child") []
    let parent : Element :=
      ⟨expandedName "e" "parent", [(expandedName "d" "a", "1")], .null, none, [child]⟩
    let w := Writer.new (some "d")
    (w.writeElement parent (-1)).1.toOption = some
      "<ns1:parent ns2:a=\"1\" xmlns:ns1=\"e\" xmlns:ns2=\"d\"><ns2:child/></ns1:parent>" ∧
    ∃ m : Markup, (w.markupOf parent).1 = .ok m ∧
      ¬List.Forall₂ (fun p x' ↦ WrittenUnprefixed (some "d") p.1 p.2 x') (parent.paths [])
        m.written.nodes := by
  intro child parent w
  have hchild : splitName child.tag true = .ok (some "d", "child") :=
    splitName_expandedName (by decide) true
  have hcan : ∀ x ∈ parent.nodes, x.CanBeWritten := by
    have hkey : ∃ parts, splitName (expandedName "d" "a") false = .ok parts :=
      ⟨_, splitName_expandedName (by decide) false⟩
    refine (Element.forall_mem_nodes_of_child rfl).mpr ⟨⟨?_, ?_, ⟨_, rfl⟩⟩, ?_⟩
    · exact ⟨_, splitName_expandedName (by decide) true⟩
    · exact List.forall_mem_singleton.mpr hkey
    · exact (Element.forall_mem_nodes_of_childless rfl).mpr
        ⟨⟨_, hchild⟩, fun _ ha ↦ absurd ha List.not_mem_nil, ⟨_, rfl⟩⟩
  obtain ⟨m, hm, hwrites⟩ := exists_markupOf (w := w) rfl hcan
  refine ⟨by decide +kernel, m, hm, fun h ↦ ?_⟩
  have hpaths := hwrites.forall₂_paths (Writer.IsProper.new (some "d") 1) outerBindings parent m ∅
    [] (Agrees.empty _) (tracks_empty _)
  have hstays := (forall₂_iff_of_forall₂ hpaths).mp h ([parent], child) (by
    simp [parent, child, Element.paths, Element.pathsAll, Element.bare])
  have hmet : metAbove (some "d") [parent] = some false := by decide +kernel
  exact (hstays.isIn ⟨"child", hchild⟩).2 hmet

end ContactCard.Xml
