import ContactCard.Proofs.Xml.StartTag

/-!
# Which trees keep their names

A writer that knows no prefixes of its own writes every tree, and every name in it resolves to what
it was, with two exceptions. An attribute in the default namespace of the writer, below or in an
element that brought the namespace into scope, has no prefix, and so no namespace. And characters
that XML does not allow are replaced wherever they stand, so a name that holds one is not kept. A
tree without such attributes and such names, and no other, keeps its names (`isFaithful_iff`).

That the names of a tree are written as they are follows tag by tag from what start tags stand for.
The other way round it is what a reader resolves that says it: names are put together from what is
written and from declared namespaces, so they hold no character that neither of them holds.
-/

namespace ContactCard.Xml

open Text Markup

/-- All characters of a name are written as they are. -/
def IsAllowed (name : String) : Prop := ∀ c ∈ name.toList, isForbidden c = false

/-- The names of the element and its attributes are written as they are. -/
structure Element.HasAllowedNames (x : Element) : Prop where
  tag : IsAllowed x.tag
  keys : ∀ a ∈ x.attributes, IsAllowed a.1

/-- The names in a written start tag, and the namespaces that it declares, are written as they are.
-/
structure Element.IsUnchanged (x : Element) : Prop extends x.HasAllowedNames where
  declared : ∀ a ∈ x.attributes, ∀ pre, declaredPrefix? a.1 = some pre → IsAllowed a.2

/-- What a reader makes of the names in the markup is the tree, no start tag declares a prefix
twice, and all names come out as they are. -/
structure Markup.IsFaithful (m : Markup) (e : Element) : Prop where
  resolve : m.written.resolve outerBindings = some e.plain
  nodup : ∀ x ∈ m.written.nodes, (declaredPrefixes x).Nodup
  unchanged : ∀ x ∈ m.written.nodes, x.IsUnchanged

variable {w : Writer} {K : Prop} {x x' : Element}

/-! ### Written names hold nothing new -/

theorem isAllowed_of_isNCName {s : String} (h : isNCName s.toList = true) : IsAllowed s :=
  fun c hc ↦ isForbidden_of_isXmlChar (isXmlChar_of_isNamePart (isNamePart_of_isNCName h c hc))

theorem isAllowed_declarationName {pre : String} (h : IsAllowed pre) :
    IsAllowed (declarationName pre) := by
  have hxmlns : ∀ c ∈ "xmlns:".toList, isForbidden c = false := by decide
  rw [declarationName]
  split
  · intro c hc
    exact hxmlns c (List.mem_append_left [':'] hc)
  · intro c hc
    rw [String.toList_append, List.mem_append] at hc
    rcases hc with hc | hc
    · exact hxmlns c hc
    · exact h c hc

theorem IsAllowed.plain {ns plain : String} (h : IsAllowed (expandedName ns plain)) :
    IsAllowed plain := by
  intro c hc
  exact h c (by simp [expandedName, String.toList_append, hc])

theorem IsAllowed.joinName {pre plain : String} (hpre : IsAllowed pre) (h : IsAllowed plain) :
    IsAllowed (joinName pre plain) := by
  rw [Xml.joinName]
  split
  · exact h
  · intro c hc
    rw [String.toList_append, String.toList_append, List.mem_append, List.mem_append] at hc
    rcases hc with (hc | hc) | hc
    · exact hpre c hc
    · rw [show c = ':' by simpa using hc]
      decide
    · exact h c hc

theorem IsAllowed.namespace {ns plain : String} (h : IsAllowed (expandedName ns plain)) :
    IsAllowed ns := by
  intro c hc
  exact h c (by simp [expandedName, String.toList_append, hc])

/-- Names that are allowed are written as names that are. -/
theorem IsWrittenFor.isUnchanged (hw : w.IsProper) (hK : K) (h : IsWrittenFor w K x x')
    (hx : x.IsNamed) (hallowed : x.HasAllowedNames) : x'.IsUnchanged := by
  obtain ⟨outer, st, written, hstart⟩ := h.startTag hw hx
  have hpre : ∀ {ns pre : String}, st.Knows ns pre → IsAllowed pre := by
    intro ns pre h
    rcases hstart.follows.isName hw h with rfl | ⟨hname, -⟩
    · exact fun c hc ↦ absurd hc List.not_mem_nil
    · exact isAllowed_of_isNCName hname
  -- what stands for a name is its local part with a prefix that is a name
  have hkey : ∀ {name name' : String}, StandsFor st name name' → IsAllowed name →
      IsAllowed name' := by
    intro name name' hstands hname
    cases hstands with
    | plain _ => exact hname
    | qualified _ hknows => exact (hpre hknows).joinName hname.plain
  have hnamespace : ∀ {ns name : String}, HasNamespace ns name → IsAllowed name → IsAllowed ns := by
    rintro ns name ⟨plain, rfl, -⟩ hname
    exact hname.namespace
  refine ⟨⟨?_, fun a ha ↦ ?_⟩, fun a ha pre hdeclared ↦ ?_⟩
  · obtain ⟨ns, plain, pre, htag, -, hknows, htag'⟩ := hstart.tag
    rw [htag']
    exact (hpre hknows).joinName (htag ▸ hallowed.tag).plain
  · rw [hstart.attributes, List.mem_append] at ha
    rcases ha with ha | ha
    · obtain ⟨b, hb, hstands, -⟩ := hstart.keys a ha
      exact hkey hstands (hallowed.keys b hb)
    · obtain ⟨d, hd, rfl⟩ := List.mem_map.mp ha
      exact isAllowed_declarationName (hpre (.inl (hstart.follows.declared d hd)))
  · rw [hstart.attributes, List.mem_append] at ha
    rcases ha with ha | ha
    · exact absurd ((hstart.resolve hK).1 a ha) (by simp [hdeclared])
    · obtain ⟨d, hd, rfl⟩ := List.mem_map.mp ha
      rcases hstart.declared d hd with htag | ⟨b, hb, hkey⟩
      · exact hnamespace htag hallowed.tag
      · exact hnamespace hkey (hallowed.keys b hb)

/-! ### Resolved names hold nothing new -/

/-- The namespaces in scope are written as they are. -/
def Bindings.IsAllowed (bindings : Bindings) : Prop := ∀ b ∈ bindings, Xml.IsAllowed b.2

variable {bindings : Bindings}

theorem Bindings.IsAllowed.lookup (h : bindings.IsAllowed) {pre ns : String}
    (hns : bindings.lookup pre = some ns) : Xml.IsAllowed ns := h (pre, ns) (mem_of_lookup hns)

theorem Bindings.IsAllowed.bind (h : bindings.IsAllowed) {attributes : List (String × String)}
    (hdeclared : ∀ a ∈ attributes, ∀ pre, declaredPrefix? a.1 = some pre → Xml.IsAllowed a.2) :
    (Xml.bind bindings attributes).IsAllowed := forall_mem_bind h hdeclared

theorem isAllowed_expandedName {ns plain : String} (hns : IsAllowed ns) (hplain : IsAllowed plain) :
    IsAllowed (expandedName ns plain) := by
  intro c hc
  simp only [expandedName, String.toList_append, List.mem_append] at hc
  rcases hc with ((hc | hc) | hc) | hc
  · rw [show c = '\x7b' by simpa using hc]
    decide
  · exact hns c hc
  · rw [show c = '\x7d' by simpa using hc]
    decide
  · exact hplain c hc

theorem isAllowed_splitPrefix {name : String} (h : IsAllowed name) :
    IsAllowed (splitPrefix name).2 := by
  rw [splitPrefix]
  split
  · exact h
  · next pre plain hcut =>
    intro c hc
    rw [String.toList_ofList] at hc
    exact h c (mem_of_mem_cut (by rw [hcut]) hc)

theorem isAllowed_resolveTag (h : bindings.IsAllowed) {name name' : String} (hname : IsAllowed name)
    (hresolve : resolveTag bindings name = some name') : IsAllowed name' := by
  have hplain := isAllowed_splitPrefix hname
  rw [resolveTag] at hresolve
  split at hresolve
  · next pre plain hsplit =>
    rw [hsplit] at hplain
    obtain ⟨ns, hns, rfl⟩ := Option.map_eq_some_iff.mp hresolve
    exact isAllowed_expandedName (h.lookup hns) hplain
  · next plain hsplit =>
    rw [hsplit] at hplain
    obtain rfl := Option.some.inj hresolve
    split
    · exact hplain
    · refine isAllowed_expandedName ?_ hplain
      cases hns : bindings.lookup "" with
      | none => exact fun c hc ↦ absurd hc List.not_mem_nil
      | some ns => exact h.lookup hns

theorem isAllowed_resolveAttributeName (h : bindings.IsAllowed) {name name' : String}
    (hname : IsAllowed name) (hresolve : resolveAttributeName bindings name = some name') :
    IsAllowed name' := by
  have hplain := isAllowed_splitPrefix hname
  rw [resolveAttributeName] at hresolve
  split at hresolve
  · next pre plain hsplit =>
    rw [hsplit] at hplain
    obtain ⟨ns, hns, rfl⟩ := Option.map_eq_some_iff.mp hresolve
    exact isAllowed_expandedName (h.lookup hns) hplain
  · next plain hsplit =>
    rw [hsplit] at hplain
    exact Option.some.inj hresolve ▸ hplain

theorem isAllowed_resolveAttributes (h : bindings.IsAllowed)
    {attributes resolved : List (String × String)} (hkeys : ∀ a ∈ attributes, IsAllowed a.1)
    (hresolve : resolveAttributes bindings attributes = some resolved) :
    ∀ a ∈ resolved, IsAllowed a.1 := by
  induction attributes generalizing resolved with
  | nil =>
    obtain rfl : resolved = [] := by simpa [resolveAttributes] using hresolve.symm
    exact fun a ha ↦ absurd ha List.not_mem_nil
  | cons a rest ih =>
    obtain ⟨hfirst, hrest⟩ := List.forall_mem_cons.mp hkeys
    obtain ⟨name, value⟩ := a
    cases hpre : declaredPrefix? name with
    | some pre =>
      rw [resolveAttributes, hpre] at hresolve
      exact ih hrest hresolve
    | none =>
      obtain ⟨name', rest', hname', hrest', rfl⟩ := resolveAttributes_cons_eq_some hpre hresolve
      exact List.forall_mem_cons.mpr
        ⟨isAllowed_resolveAttributeName h hfirst hname', ih hrest hrest'⟩

theorem resolvesTo_hasAllowedNames : Element.ResolvesTo Bindings.IsAllowed Element.IsUnchanged
    Element.HasAllowedNames where
  bind h hx := h.bind hx.declared
  resolve h hx htag hattributes :=
    ⟨isAllowed_resolveTag h hx.tag htag, isAllowed_resolveAttributes h hx.keys hattributes⟩

/-! ### Faithful markup -/

mutual

theorem mem_nodes_plain : ∀ e x : Element, x ∈ e.nodes →
    ∃ y ∈ e.plain.nodes, y.tag = x.tag ∧ y.attributes = x.attributes
  | ⟨tag, attributes, text, tail, children⟩, x, hx => by
    rcases List.mem_cons.mp hx with rfl | hx
    · exact ⟨_, List.mem_cons_self, rfl, rfl⟩
    · obtain ⟨y, hy, h⟩ := mem_nodesAll_plainAll children x hx
      exact ⟨y, List.mem_cons_of_mem _ hy, h⟩

theorem mem_nodesAll_plainAll : ∀ (es : List Element) (x : Element), x ∈ Element.nodesAll es →
    ∃ y ∈ Element.nodesAll (Element.plainAll es), y.tag = x.tag ∧ y.attributes = x.attributes
  | [], x, hx => absurd hx List.not_mem_nil
  | e :: rest, x, hx => by
    rcases List.mem_append.mp hx with hx | hx
    · obtain ⟨y, hy, h⟩ := mem_nodes_plain e x hx
      exact ⟨y, List.mem_append_left _ hy, h⟩
    · obtain ⟨y, hy, h⟩ := mem_nodesAll_plainAll rest x hx
      exact ⟨y, List.mem_append_right _ hy, h⟩

end

/-- A faithful tree has allowed names. -/
theorem Markup.IsFaithful.hasAllowedNames {m : Markup} {e : Element} (h : m.IsFaithful e) :
    ∀ x ∈ e.nodes, x.HasAllowedNames := by
  have houter : outerBindings.IsAllowed := by
    intro b hb
    rw [List.mem_singleton.mp hb]
    unfold IsAllowed
    decide
  intro x hx
  obtain ⟨y, hy, htag, hattributes⟩ := mem_nodes_plain e x hx
  obtain ⟨hy, hkeys⟩ :=
    resolvesTo_hasAllowedNames.nodes outerBindings houter _ _ h.unchanged h.resolve y hy
  exact ⟨htag ▸ hy, hattributes ▸ hkeys⟩

/-- A writer without prefixes of its own writes a tree faithfully if and only if the attributes of
the tree keep the default namespace of the writer and its names hold no character that is replaced.
-/
theorem isFaithful_iff (d : Option String) (n : Nat) {e : Element}
    (hnames : ∀ x ∈ e.nodes, x.IsNamed) (htexts : ∀ x ∈ e.nodes, ∃ s, writtenText x.text = .ok s) :
    ∃ m : Markup,
      (∀ indent, (Writer.writeElement { Writer.new d with nextNumber := n } e indent).1 =
        .ok (clean (String.ofList (m.render (Writer.indentation indent) 0)))) ∧
      (m.IsFaithful e ↔ e.keepsAttributes d none = true ∧ ∀ x ∈ e.nodes, x.HasAllowedNames) := by
  have hw := Writer.IsProper.new d n
  have hwritten : ∀ x ∈ e.nodes, x.CanBeWritten := fun x hx ↦
    ⟨(hnames x hx).tag.canBeWritten, fun a ha ↦ ((hnames x hx).keys a ha).canBeWritten, htexts x hx⟩
  obtain ⟨m, hwrites, houtput⟩ := exists_writes hw.oddities hwritten
  have hagrees := Agrees.empty { Writer.new d with nextNumber := n }
  have htracks := tracks_empty { Writer.new d with nextNumber := n }
  have hiff := hwrites.resolve_iff hw outerBindings none e m ∅ hnames hagrees htracks
  refine ⟨m, houtput, fun h ↦ ⟨hiff.mp h.resolve, h.hasAllowedNames⟩, ?_⟩
  rintro ⟨hkeeps, hallowed⟩
  -- given that attributes keep the namespace, each start tag can be looked at by itself
  have hnodes : ∀ x' ∈ m.written.nodes, (declaredPrefixes x').Nodup ∧ x'.IsUnchanged := by
    intro x' hx'
    obtain ⟨x, hx, hfor⟩ := Writes.nodes hw True outerBindings none e m ∅ hwrites hnames hagrees
      htracks (fun _ ↦ hkeeps) x' hx'
    obtain ⟨outer, st, written, hstart⟩ := hfor.startTag hw (hnames x hx)
    exact ⟨hstart.nodup trivial, hfor.isUnchanged hw trivial (hnames x hx) (hallowed x hx)⟩
  exact ⟨hiff.mpr hkeeps, fun x' hx' ↦ (hnodes x' hx').1, fun x' hx' ↦ (hnodes x' hx').2⟩

/-- A tree whose attributes keep the default namespace, which is that of an attribute first. -/
theorem isFaithful_iff_parent :
    let parent : Element :=
      ⟨expandedName "e" "parent", [(expandedName "d" "a", "1")], .null, none,
        [.bare (expandedName "d" "child") [(expandedName "d" "b", "2")]]⟩
    ∃ m : Markup,
      (∀ indent,
        (Writer.writeElement { Writer.new (some "d") with nextNumber := 3 } parent indent).1 =
          .ok (clean (String.ofList (m.render (Writer.indentation indent) 0)))) ∧
      (m.IsFaithful parent ↔ parent.keepsAttributes (some "d") none = true ∧
        ∀ x ∈ parent.nodes, x.HasAllowedNames) := by
  refine isFaithful_iff (some "d") 3 ?_ ?_
  all_goals
    simp only [Element.nodes, Element.nodesAll, Element.bare, List.append_nil,
      List.forall_mem_cons, List.not_mem_nil, false_imp_iff, implies_true, and_true]
  · refine ⟨⟨.qualified (by decide) (by decide) (by decide), ?_⟩,
      ⟨.qualified (by decide) (by decide) (by decide), ?_⟩⟩
    all_goals
      simp only [List.forall_mem_cons, List.not_mem_nil, false_imp_iff, implies_true, and_true]
      exact .qualified (by decide) (by decide)
  · exact ⟨⟨_, rfl⟩, ⟨_, rfl⟩⟩

/-- In an element in the default namespace, an attribute in that namespace loses it. -/
theorem attribute_in_default_namespace_lost :
    let e := Element.bare "\x7bd\x7dx" [("\x7bd\x7da", "1")]
    ∃ s, (Writer.writeElement (Writer.new (some "d")) e (-1)).1 = .ok s ∧
      s = "<x a=\"1\" xmlns=\"d\"/>" ∧
      (read s).map Element.attributes = some [("a", "1")] ∧
      e.keepsAttributes (some "d") none = false :=
  ⟨_, rfl, by decide +kernel, by decide +kernel, by decide +kernel⟩

end ContactCard.Xml
