import ContactCard.Proofs.Xml.Indentation

/-!
# Attributes that lose their namespace

An attribute in the default namespace is written without a prefix where the namespace was met first
as that of an element, and a reader then finds it in no namespace. `Element.asFound` is the tree
with these attributes as they are found. The writer makes no difference between the two
(`Writes.asFound`), and in the second one nothing is left to lose (`keepsAttributes_asFound`); so
whatever is known of trees that keep their namespaces says how any tree is read.
-/

namespace ContactCard.Xml

open Text Markup

variable {w : Writer} {d : Option String} {met : Option Bool}

/-! ### Names as they are found -/

/-- The name that an attribute is found with, where the default namespace was met as said. -/
def foundName (d : Option String) (met : Option Bool) (name : String) : String :=
  match splitName name false with
  | .ok (some _, plain) => if met = some true ∧ isInDefault d name then plain else name
  | _ => name

/-- Only attributes in the default namespace are found with other names. -/
theorem foundName_eq_self {name : String} (h : met = some true → isInDefault d name = false) :
    foundName d met name = name := by
  rw [foundName]
  split
  · rw [if_neg]
    rintro ⟨hmet, hin⟩
    rw [h hmet] at hin
    exact absurd hin (by decide)
  · rfl

theorem foundName_expandedName {ns plain : String} (hns : '\x7d' ∉ ns.toList)
    (hin : isInDefault d (expandedName ns plain) = true) :
    foundName d (some true) (expandedName ns plain) = plain := by
  rw [foundName, splitName_expandedName hns]
  exact if_pos ⟨rfl, hin⟩

theorem isInDefault_of_isNCName {name : String} (h : isNCName name.toList = true) :
    isInDefault d name = false := by
  rw [isInDefault, splitName_plain (head?_ne_of_isNCName h)]

/-- No name is found in the default namespace where that was met first as that of an element. -/
theorem isInDefault_foundName {name : String} (hname : IsReadableKey name) :
    isInDefault d (foundName d (some true) name) = false := by
  cases hin : isInDefault d name with
  | false => rw [foundName_eq_self fun _ ↦ hin, hin]
  | true =>
    cases hname with
    | plain h _ => exact absurd (hin.symm.trans (isInDefault_of_isNCName h)) (by decide)
    | @qualified ns plain hns hplain =>
      rw [foundName_expandedName hns.brace hin, isInDefault_of_isNCName hplain]

/-- What is found is the name of an attribute, unless it is taken for a declaration. -/
theorem isReadableKey_foundName {name : String} (hname : IsReadableKey name)
    (hxmlns : foundName d met name ≠ "xmlns") : IsReadableKey (foundName d met name) := by
  by_cases hmet : met = some true
  · subst hmet
    cases hin : isInDefault d name with
    | false => rwa [foundName_eq_self fun _ ↦ hin]
    | true =>
      cases hname with
      | plain h _ => exact absurd (hin.symm.trans (isInDefault_of_isNCName h)) (by decide)
      | @qualified ns plain hns hplain =>
        rw [foundName_expandedName hns.brace hin] at hxmlns ⊢
        exact .plain hplain hxmlns
  · rwa [foundName_eq_self fun h ↦ absurd h hmet]

namespace Element

/-- The attributes of a start tag as they are found. -/
def foundAttributes (d : Option String) (met : Option Bool) (attributes : List (String × String)) :
    List (String × String) := attributes.map fun a ↦ (foundName d met a.1, a.2)

mutual

/-- The element with its attributes as they are found. -/
def asFound (d : Option String) (met : Option Bool) : Element → Element
  | ⟨tag, attributes, text, tail, children⟩ =>
    let met := meet d true met tag
    ⟨tag, foundAttributes d met attributes, text, tail,
      asFoundAll d (meetAll d met attributes) children⟩

def asFoundAll (d : Option String) (met : Option Bool) : List Element → List Element
  | [] => []
  | e :: rest => asFound d met e :: asFoundAll d met rest

end

theorem foundAttributes_eq_self (hmet : met ≠ some true) (attributes : List (String × String)) :
    foundAttributes d met attributes = attributes := by
  refine (List.map_congr_left fun a _ ↦ ?_).trans attributes.map_id
  rw [foundName_eq_self fun h ↦ absurd h hmet]
  rfl

/-- What was met as that of an element stays so. -/
theorem meetAll_some_true (d : Option String) (attributes : List (String × String)) :
    meetAll d (some true) attributes = some true := by
  induction attributes with
  | nil => rfl
  | cons a rest ih =>
    have hmeet : meet d false (some true) a.1 = some true := by
      rw [meet]
      split <;> rfl
    rw [meetAll, List.foldl_cons, hmeet]
    exact ih

theorem meetAll_foundAttributes (d : Option String) (met : Option Bool)
    (attributes : List (String × String)) :
    meetAll d met (foundAttributes d met attributes) = meetAll d met attributes := by
  by_cases hmet : met = some true
  · rw [hmet, meetAll_some_true, meetAll_some_true]
  · rw [foundAttributes_eq_self hmet]

mutual

/-- Nothing that is found loses its namespace again. -/
theorem keepsAttributes_asFound (met : Option Bool) :
    ∀ e : Element, (∀ x ∈ e.nodes, ∀ a ∈ x.attributes, IsReadableKey a.1) →
      (e.asFound d met).keepsAttributes d met = true
  | ⟨tag, attributes, text, tail, children⟩, h => by
    have hkeys : ∀ a ∈ attributes, IsReadableKey a.1 := h _ List.mem_cons_self
    rw [asFound, keepsAttributes_iff, meetAll_foundAttributes]
    refine ⟨fun hmet ↦ ?_,
      keepsAllAttributes_asFoundAll _ children fun x hx ↦ h x (List.mem_cons_of_mem _ hx)⟩
    rw [hmet, foundAttributes, List.any_map, List.any_eq_false]
    intro a ha
    rw [Function.comp_apply, isInDefault_foundName (hkeys a ha)]
    decide

theorem keepsAllAttributes_asFoundAll (met : Option Bool) :
    ∀ es : List Element, (∀ x ∈ nodesAll es, ∀ a ∈ x.attributes, IsReadableKey a.1) →
      keepsAllAttributes d met (asFoundAll d met es) = true
  | [], _ => rfl
  | e :: rest, h => by
    rw [asFoundAll, keepsAllAttributes, Bool.and_eq_true_iff]
    exact ⟨keepsAttributes_asFound met e fun x hx ↦ h x (List.mem_append_left _ hx),
      keepsAllAttributes_asFoundAll met rest fun x hx ↦ h x (List.mem_append_right _ hx)⟩

end

end Element

/-! ### The same markup -/

variable {outer : Bindings} {st st' : Naming}

/-- Where the default namespace was met first as that of an element, it has no prefix. -/
theorem Chooses.eq_of_tracks {ns pre : String} (h : Chooses w false st ns pre st')
    (ht : Tracks w st.scope (some true))
    (hin : (w.defaultNamespace == some ns && ns != xmlNamespace) = true) : pre = "" ∧ st' = st := by
  obtain ⟨hd, hns⟩ : w.defaultNamespace = some ns ∧ ns ≠ xmlNamespace := by simpa using hin
  obtain ⟨pre', hscope, hempty⟩ := Option.map_eq_some_iff.mp (ht ns hd hns).symm
  obtain rfl := String.isEmpty_iff.mp hempty
  cases h with
  | inScope h => exact ⟨Option.some.inj (h.symm.trans hscope), rfl⟩
  | reserved hnone _ | default hnone _ _ _ | registered hnone _ _ _ | new hnone _ _ _ =>
    exact absurd (hnone.symm.trans hscope) (by simp)

/-- An attribute is written as it is found. -/
theorem WritesName.foundName {name written : String} (h : WritesName w false st name written st')
    (hname : IsReadableKey name) (ht : Tracks w st.scope (some true)) :
    WritesName w false st (foundName w.defaultNamespace (some true) name) written st' := by
  cases hin : isInDefault w.defaultNamespace name with
  | false => rwa [foundName_eq_self fun _ ↦ hin]
  | true =>
    rcases h.of_isAttributeName hname.isAttributeName with
      ⟨-, -, -, -, -, hdefault⟩ | ⟨ns, plain, pre, rfl, hns, -, hpre, rfl⟩
    · rw [hdefault] at hin
      cases hin
    · obtain ⟨rfl, rfl⟩ := hpre.eq_of_tracks ht (by rwa [isInDefault_expandedName hns] at hin)
      rw [foundName_expandedName hns hin]
      exact .plain (splitName_plain (head?_ne_of_isNCName (hname.parts hns).2))

theorem WritesAttributes.foundAttributes (hw : w.IsProper)
    {attributes written : List (String × String)} (h : WritesAttributes w st attributes written st')
    (hnames : ∀ a ∈ attributes, IsReadableKey a.1) (hst : st.Follows w outer)
    (ht : Tracks w st.scope met) :
    WritesAttributes w st (Element.foundAttributes w.defaultNamespace met attributes) written
      st' := by
  by_cases hmet : met = some true
  · subst hmet
    induction h with
    | nil st => exact .nil st
    | @cons st mid st' name written value rest rest' hname hrest ih =>
      obtain ⟨hmid, ht'⟩ := hname.follows hw hst ht
      have hmeet : meet w.defaultNamespace false (some true) name = some true :=
        Element.meetAll_some_true _ [(name, value)]
      obtain ⟨hkey, hkeys⟩ := List.forall_mem_cons.mp hnames
      exact .cons (hname.foundName hkey ht) (ih hkeys hmid (hmeet ▸ ht'))
  · rwa [Element.foundAttributes_eq_self hmet]

mutual

/-- The writer makes no difference between a tree and what is found of it. -/
theorem Writes.asFound (hw : w.IsProper) (outer : Bindings) (met : Option Bool) :
    ∀ (e : Element) (m : Markup) (scope : PrefixTable), Writes w scope e m →
      (∀ x ∈ e.nodes, IsReadableTag x.tag ∧ ∀ a ∈ x.attributes, IsReadableKey a.1) →
      Agrees w outer scope → Tracks w scope met →
      Writes w scope (e.asFound w.defaultNamespace met) m
  | _, _, scope, .element hname hattributes htext hchildren, hnames, hagrees, ht => by
    obtain ⟨htag, hkeys⟩ := hnames _ List.mem_cons_self
    obtain ⟨hmid, ht'⟩ := hname.follows hw hagrees.follows ht
    obtain ⟨hst, ht''⟩ := hattributes.follows hw hmid ht'
    exact .element hname (hattributes.foundAttributes hw hkeys hmid ht') htext
      (WritesAll.asFoundAll hw _ _ _ _ _ hchildren
        (fun x hx ↦ hnames x (List.mem_cons_of_mem _ hx)) hst.agrees ht'')

theorem WritesAll.asFoundAll (hw : w.IsProper) (outer : Bindings) (met : Option Bool) :
    ∀ (es : List Element) (ms : List Markup) (scope : PrefixTable), WritesAll w scope es ms →
      (∀ x ∈ Element.nodesAll es, IsReadableTag x.tag ∧ ∀ a ∈ x.attributes, IsReadableKey a.1) →
      Agrees w outer scope → Tracks w scope met →
      WritesAll w scope (Element.asFoundAll w.defaultNamespace met es) ms
  | [], _, scope, .nil _, _, _, _ => .nil scope
  | e :: rest, _, scope, .cons hfirst hrest, hnames, hagrees, ht =>
    .cons (Writes.asFound hw outer met e _ scope hfirst
        (fun x hx ↦ hnames x (List.mem_append_left _ hx)) hagrees ht)
      (WritesAll.asFoundAll hw outer met rest _ scope hrest
        (fun x hx ↦ hnames x (List.mem_append_right _ hx)) hagrees ht)

end

/-! ### What is left of an element -/

namespace Element

/-- The second element is the first one with its attributes as they are found somewhere. -/
structure IsFoundWith (d : Option String) (x y : Element) : Prop where
  tag : y.tag = x.tag
  attributes : ∃ met, y.attributes = foundAttributes d met x.attributes
  text : y.text = x.text
  isLeaf : y.children = [] ↔ x.children = []

theorem asFoundAll_eq_nil (es : List Element) : asFoundAll d met es = [] ↔ es = [] := by
  cases es <;> simp [asFoundAll]

mutual

theorem forall₂_nodes_asFound (met : Option Bool) :
    ∀ e : Element, List.Forall₂ (IsFoundWith d) e.nodes (e.asFound d met).nodes
  | ⟨_, _, _, _, children⟩ =>
    .cons ⟨rfl, ⟨_, rfl⟩, rfl, asFoundAll_eq_nil children⟩
      (forall₂_nodesAll_asFoundAll _ children)

theorem forall₂_nodesAll_asFoundAll (met : Option Bool) :
    ∀ es : List Element, List.Forall₂ (IsFoundWith d) (nodesAll es) (nodesAll (asFoundAll d met es))
  | [] => .nil
  | e :: rest =>
    List.rel_append (forall₂_nodes_asFound met e) (forall₂_nodesAll_asFoundAll met rest)

end

variable {x y : Element}

theorem IsFoundWith.values (h : IsFoundWith d x y) :
    y.attributes.map Prod.snd = x.attributes.map Prod.snd := by
  obtain ⟨met, hattributes⟩ := h.attributes
  rw [hattributes, foundAttributes, List.map_map]
  rfl

/-- The names of the attributes can stand in one start tag: they are distinct, and none of them
declares a namespace. -/
def HasDistinctKeys (x : Element) : Prop :=
  (x.attributes.map Prod.fst).Nodup ∧ "xmlns" ∉ x.attributes.map Prod.fst

instance (x : Element) : Decidable x.HasDistinctKeys :=
  inferInstanceAs (Decidable (_ ∧ _))

/-- What is found of an element that parsers give is such an element, unless its attributes cannot
stand in one start tag. -/
theorem IsGiven.of_isFoundWith (hx : x.IsGiven) (h : IsFoundWith d x y) (hy : y.HasDistinctKeys) :
    y.IsGiven := by
  obtain ⟨met, hattributes⟩ := h.attributes
  have hmem : ∀ b ∈ y.attributes, ∃ a ∈ x.attributes, b = (foundName d met a.1, a.2) := by
    intro b hb
    obtain ⟨a, ha, rfl⟩ := List.mem_map.mp (hattributes ▸ hb)
    exact ⟨a, ha, rfl⟩
  refine ⟨h.tag ▸ hx.tag, fun b hb ↦ ?_, hy.1, fun b hb ↦ ?_, h.text ▸ hx.isText, ?_⟩
  · obtain ⟨a, ha, rfl⟩ := hmem b hb
    refine isReadableKey_foundName (hx.keys a ha) fun hxmlns ↦ hy.2 ?_
    exact hxmlns ▸ List.mem_map_of_mem hb
  · obtain ⟨a, ha, rfl⟩ := hmem b hb
    exact hx.values a ha
  · rw [ownText, h.text]
    exact hx.text

end Element

end ContactCard.Xml
