import ContactCard.Proofs.Xml.Namespace

/-!
# Written start tags

What a written tree has to do with the tree it was written for can be said of one start tag at a
time (`Writes.nodes`): the tag was written for that of some element, in a scope in which writer and
reader agree (`IsWrittenFor`). What a document needs of its start tags follows for each of them by
itself.
-/

namespace ContactCard.Xml

open Text

variable {w : Writer}

/-- The start tag and the text of `x'` were written for those of `x`, in a scope that agrees with
the bindings of a reader; if `K` holds, then the attributes kept the default namespace. -/
inductive IsWrittenFor (w : Writer) (K : Prop) (x x' : Element) : Prop
  | intro {scope : PrefixTable} {outer : Bindings} {mid st : Naming} {met : Option Bool}
      {written : List (String × String)} (hagrees : Agrees w outer scope) (ht : Tracks w scope met)
      (hname : WritesName w true ⟨scope, []⟩ x.tag x'.tag mid)
      (hattributes : WritesAttributes w mid x.attributes written st)
      (hkeep : K → meet w.defaultNamespace true met x.tag = some true →
        x.attributes.any (fun a ↦ isInDefault w.defaultNamespace a.1) = false)
      (heq : x'.attributes = written ++ declarationAttributes st.declared)
      (htext : x'.text = .text x.ownText) : IsWrittenFor w K x x'

mutual

/-- Every start tag of a written tree was written for that of an element of the tree. -/
theorem Writes.nodes (hw : w.IsProper) (K : Prop) (outer : Bindings) (met : Option Bool) :
    ∀ (e : Element) (m : Markup) (scope : PrefixTable), Writes w scope e m →
      (∀ x ∈ e.nodes, x.IsNamed) → Agrees w outer scope → Tracks w scope met →
      (K → e.keepsAttributes w.defaultNamespace met = true) →
      ∀ x' ∈ m.written.nodes, ∃ x ∈ e.nodes, IsWrittenFor w K x x'
  | ⟨tag, attributes, text, tail, children⟩, ⟨name, written, declarations, text', children'⟩, scope,
      h, hnames, hagrees, ht, hkeeps => by
    obtain ⟨mid, st, hname, hattributes, rfl, rfl, hchildren⟩ := h.inv
    obtain ⟨hmid, ht'⟩ := hname.follows hw hagrees.follows ht
    obtain ⟨hst, ht''⟩ := hattributes.follows hw hmid ht'
    have hboth := fun hK ↦ Element.keepsAttributes_iff.mp (hkeeps hK)
    intro x' hx'
    rcases List.mem_cons.mp hx' with rfl | hx'
    · exact ⟨_, List.mem_cons_self,
        .intro hagrees ht hname hattributes (fun hK ↦ (hboth hK).1) rfl rfl⟩
    · obtain ⟨x, hx, hwritten⟩ := WritesAll.nodes hw K (declareAll outer st.declared) _ children
        children' st.scope hchildren (fun x hx ↦ hnames x (List.mem_cons_of_mem _ hx)) hst.agrees
        ht'' (fun hK ↦ (hboth hK).2) x' hx'
      exact ⟨x, List.mem_cons_of_mem _ hx, hwritten⟩

theorem WritesAll.nodes (hw : w.IsProper) (K : Prop) (outer : Bindings) (met : Option Bool) :
    ∀ (es : List Element) (ms : List Markup) (scope : PrefixTable), WritesAll w scope es ms →
      (∀ x ∈ Element.nodesAll es, x.IsNamed) → Agrees w outer scope → Tracks w scope met →
      (K → Element.keepsAllAttributes w.defaultNamespace met es = true) →
      ∀ x' ∈ Element.nodesAll (Markup.writtenAll ms), ∃ x ∈ Element.nodesAll es,
        IsWrittenFor w K x x'
  | [], _, scope, .nil _, _, _, _, _ => fun x' hx' ↦ absurd hx' List.not_mem_nil
  | e :: rest, _, scope, .cons hfirst hrest, hnames, hagrees, ht, hkeeps => by
    have hboth := fun hK ↦ Bool.and_eq_true_iff.mp (hkeeps hK)
    intro x' hx'
    rcases List.mem_append.mp hx' with hx' | hx'
    · obtain ⟨x, hx, hwritten⟩ := Writes.nodes hw K outer met e _ scope hfirst
        (fun x hx ↦ hnames x (List.mem_append_left _ hx)) hagrees ht (fun hK ↦ (hboth hK).1) x' hx'
      exact ⟨x, List.mem_append_left _ hx, hwritten⟩
    · obtain ⟨x, hx, hwritten⟩ := WritesAll.nodes hw K outer met rest _ scope hrest
        (fun x hx ↦ hnames x (List.mem_append_right _ hx)) hagrees ht (fun hK ↦ (hboth hK).2) x' hx'
      exact ⟨x, List.mem_append_right _ hx, hwritten⟩

end

variable {K : Prop} {x x' : Element}

/-! ### Written names -/

/-- What was written stands for the name: it is the name itself or has a prefix in place of the
namespace. -/
inductive StandsFor (st : Naming) : String → String → Prop
  | plain {name : String} (hbrace : name.toList.head? ≠ some '\x7b') : StandsFor st name name
  | qualified {ns plain pre : String} (hns : '\x7d' ∉ ns.toList) (h : st.Knows ns pre) :
      StandsFor st (expandedName ns plain) (joinName pre plain)

/-- Whether a name has the namespace. -/
def HasNamespace (ns name : String) : Prop :=
  ∃ plain, name = expandedName ns plain ∧ '\x7d' ∉ ns.toList

variable {st mid st' : Naming} {outer : Bindings} {attributes written : List (String × String)}

/-- Every written attribute stands for an attribute, and has its value. -/
theorem WritesAttributes.standsFor (h : WritesAttributes w st attributes written st')
    (hnames : ∀ a ∈ attributes, IsAttributeName a.1) :
    ∀ a' ∈ written, ∃ a ∈ attributes, StandsFor st' a.1 a'.1 ∧ a'.2 = a.2 := by
  induction h with
  | nil st => simp
  | @cons st mid st' name written value rest rest' hname hrest ih =>
    have hfirst : StandsFor st' name written := by
      rcases hname.of_isAttributeName (hnames _ List.mem_cons_self) with
        ⟨rfl, rfl, hbrace, -, -, -⟩ | ⟨ns, plain, pre, rfl, hns, -, hpre, rfl⟩
      · exact .plain hbrace
      · exact .qualified hns (hpre.knows.mono hrest.extends)
    intro a' ha'
    rcases List.mem_cons.mp ha' with rfl | ha'
    · exact ⟨_, List.mem_cons_self, hfirst, rfl⟩
    · obtain ⟨a, ha, hstands⟩ := ih (fun a ha ↦ hnames a (List.mem_cons_of_mem _ ha)) a' ha'
      exact ⟨a, List.mem_cons_of_mem _ ha, hstands⟩

/-- Every namespace that attributes declare is that of one of them. -/
theorem WritesAttributes.hasNamespace (h : WritesAttributes w st attributes written st')
    (hnames : ∀ a ∈ attributes, IsAttributeName a.1) :
    ∀ d ∈ st'.declared, d ∈ st.declared ∨ ∃ a ∈ attributes, HasNamespace d.1 a.1 := by
  induction h with
  | nil st => exact fun d hd ↦ .inl hd
  | @cons st mid st' name written value rest rest' hname hrest ih =>
    intro d hd
    rcases ih (fun a ha ↦ hnames a (List.mem_cons_of_mem _ ha)) d hd with hd | ⟨a, ha, h⟩
    · rcases hname.of_isAttributeName (hnames _ List.mem_cons_self) with
        ⟨-, rfl, -, -, -, -⟩ | ⟨ns, plain, pre, rfl, hns, -, hpre, -⟩
      · exact .inl hd
      · rcases hpre.eq_of_mem_declared hd with hd | rfl
        · exact .inl hd
        · exact .inr ⟨_, List.mem_cons_self, plain, rfl, hns⟩
    · exact .inr ⟨a, List.mem_cons_of_mem _ ha, h⟩

/-- What a written start tag stands for: its names for names, its declarations for namespaces of
names and, if the attributes kept the default namespace, its attributes for attributes. -/
structure StartTag (w : Writer) (K : Prop) (outer : Bindings) (st : Naming) (x x' : Element)
    (written : List (String × String)) : Prop where
  follows : st.Follows w outer
  attributes : x'.attributes = written ++ declarationAttributes st.declared
  tag : ∃ ns plain pre, x.tag = expandedName ns plain ∧ '\x7d' ∉ ns.toList ∧ st.Knows ns pre ∧
    x'.tag = joinName pre plain
  keys : ∀ a' ∈ written, ∃ a ∈ x.attributes, StandsFor st a.1 a'.1 ∧ a'.2 = a.2
  declared : ∀ d ∈ st.declared, HasNamespace d.1 x.tag ∨ ∃ a ∈ x.attributes, HasNamespace d.1 a.1
  resolve : K → (∀ a' ∈ written, declaredPrefix? a'.1 = none) ∧
    resolveAttributes (declareAll outer st.declared) written = some x.attributes
  text : x'.text = .text x.ownText

theorem IsWrittenFor.startTag (hw : w.IsProper) (h : IsWrittenFor w K x x') (hx : x.IsNamed) :
    ∃ outer st written, StartTag w K outer st x x' written := by
  obtain @⟨scope, outer, mid, st, met, written, hagrees, ht, hname, hattributes, hkeep, heq,
    htext⟩ := h
  obtain ⟨hmid, ht'⟩ := hname.follows hw hagrees.follows ht
  obtain ⟨hst, -⟩ := hattributes.follows hw hmid ht'
  obtain ⟨ns, plain, pre, htag, -, hns, -, hpre, htag'⟩ := hname.of_isTagName hx.tag
  refine ⟨outer, st, written, hst, heq, ?_, hattributes.standsFor hx.keys, ?_, fun hK ↦ ?_, htext⟩
  · exact ⟨ns, plain, pre, htag, hns, hpre.knows.mono hattributes.extends, htag'⟩
  · intro d hd
    rcases hattributes.hasNamespace hx.keys d hd with hd | h
    · rcases hpre.eq_of_mem_declared hd with hd | rfl
      · exact absurd hd List.not_mem_nil
      · exact .inl ⟨plain, htag, hns⟩
    · exact .inr h
  · exact hattributes.resolve hw hx.keys hmid ht' (hkeep hK) fun _ _ h ↦ hst.lookup h

/-- The prefixes that an element declares. -/
def declaredPrefixes (x : Element) : List String :=
  x.attributes.filterMap fun a ↦ declaredPrefix? a.1

theorem declaredPrefixes_append {declared : List (String × String)}
    (h : x'.attributes = written ++ declarationAttributes declared) :
    declaredPrefixes x' = written.filterMap (fun a ↦ declaredPrefix? a.1) ++
      declared.map Prod.snd := by
  rw [declaredPrefixes, h, List.filterMap_append, declarationAttributes, List.filterMap_map]
  simp only [Function.comp_def, declaredPrefix?_declarationName, List.filterMap_eq_map']

/-- The prefixes that a start tag declares are those that the writer meant to declare. -/
theorem StartTag.declaredPrefixes_eq (h : StartTag w K outer st x x' written) (hK : K) :
    declaredPrefixes x' = st.declared.map Prod.snd := by
  rw [declaredPrefixes_append h.attributes, List.filterMap_eq_nil_iff.mpr (h.resolve hK).1,
    List.nil_append]

/-- No start tag declares a prefix twice. -/
theorem StartTag.nodup (h : StartTag w K outer st x x' written) (hK : K) :
    (declaredPrefixes x').Nodup := by
  rw [h.declaredPrefixes_eq hK]
  exact h.follows.nodup

end ContactCard.Xml
