import ContactCard.Proofs.Xml.Legibility

/-!
# Indentation

A tree is written with any indentation or without one, and what a reader makes of it is the same
tree up to the blanks around texts that stand next to children (`read_writeElement_indent`). What is
found of a tree is the tree with tidy texts as it is laid out, so this comes down to comparing two
layouts of one tree (`same_layout`). A text without children is laid out as it is, and no blank of
it gets lost (`forall₂_nodes_layout`).
-/

namespace ContactCard.Xml

open Text Markup

/-! ### Two layouts of one tree -/

/-- What two lists have in common with a third one relates them to each other. -/
theorem forall₂_of_common {α β γ : Type} {R : α → β → Prop} {S : α → γ → Prop} {T : β → γ → Prop}
    (hT : ∀ a b c, R a b → S a c → T b c) {as : List α} {bs : List β} {cs : List γ}
    (hR : List.Forall₂ R as bs) (hS : List.Forall₂ S as cs) : List.Forall₂ T bs cs := by
  induction hR generalizing cs with
  | nil =>
    cases hS
    exact .nil
  | cons hab _ ih =>
    obtain ⟨c, cs, hac, hrest, rfl⟩ := List.forall₂_cons_left_iff.mp hS
    exact .cons (hT _ _ _ hab hac) (ih hrest)

theorem areBlank_breakBefore (indent : Option Nat) (level : Nat) :
    AreBlank (breakBefore indent level) := by
  cases indent with
  | none => exact areBlank_nil
  | some width =>
    refine List.forall_mem_cons.mpr ⟨by decide, fun c hc ↦ ?_⟩
    rw [List.eq_of_mem_replicate hc]
    decide

namespace Element

/-- Stripping leaves no trace of an indentation. -/
theorem stripChars_laidText (indent : Option Nat) (level : Nat) (s : String) (isLeaf : Bool) :
    stripChars (laidText indent level s isLeaf) = stripChars s.toList := by
  rw [laidText]
  split
  · rfl
  · cases indent with
    | none => exact congrArg stripChars (List.append_nil _)
    | some width =>
      exact (isStripped_stripChars s.toList).stripChars_append areBlank_nil
        (areBlank_breakBefore (some width) (level + 1))

theorem strippedText_laidText (indent : Option Nat) (level : Nat) (s : String) (isLeaf : Bool) :
    strippedText (.ofOption (optionalText (laidText indent level s isLeaf))) = strip s := by
  rw [strippedText, Value.text?_ofOption, strip, toList_getD_optionalText, stripChars_laidText,
    strip]

/-- The comparison of elements passes over the texts after them. -/
theorem same_withTail (x y : Element) (s s' : Option String) :
    same { x with tail := s } { y with tail := s' } = same x y := by
  cases x
  cases y
  rfl

variable {indent indent' : Option Nat}

mutual

/-- A tree compares equal however it is laid out. -/
theorem same_layout (level : Nat) :
    ∀ e : Element, (e.layout indent level).same (e.layout indent' level) = true
  | ⟨tag, attributes, text, tail, children⟩ => by
    have hattributes : attributes.isPerm attributes = true := List.isPerm_iff.mpr (.refl _)
    simp only [layout, same, strippedText_laidText, beq_self_eq_true, hattributes,
      sameAll_layoutAll level children, Bool.and_self]

theorem sameAll_layoutAll (level : Nat) :
    ∀ es : List Element, sameAll (layoutAll indent level es) (layoutAll indent' level es) = true
  | [] => rfl
  | e :: rest => by
    rw [layoutAll, layoutAll, sameAll, same_withTail, same_layout (level + 1) e,
      sameAll_layoutAll level rest]
    rfl

end

/-- How an element is found in a layout: with its tag and its attributes and, if it has no children,
with its text as it is. -/
structure IsFoundAs (x y : Element) : Prop where
  tag : y.tag = x.tag
  attributes : y.attributes = x.attributes
  isLeaf : y.children = [] ↔ x.children = []
  text : x.children = [] → y.text = .ofOption (optionalText x.ownText.toList)

theorem forall₂_nodes_withTail {xs : List Element} {y : Element}
    (h : List.Forall₂ IsFoundAs xs y.nodes) (s : Option String) :
    List.Forall₂ IsFoundAs xs (nodes { y with tail := s }) := by
  cases y
  obtain ⟨x, rest, ⟨htag, hattributes, hleaf, htext⟩, hrest, rfl⟩ := List.forall₂_cons_right_iff.mp h
  exact .cons ⟨htag, hattributes, hleaf, htext⟩ hrest

theorem layoutAll_eq_nil (level : Nat) (es : List Element) :
    layoutAll indent level es = [] ↔ es = [] := by
  cases es <;> simp [layoutAll]

mutual

/-- The elements of a tree are found one by one in every layout of it. -/
theorem forall₂_nodes_layout (level : Nat) : ∀ e : Element,
    List.Forall₂ IsFoundAs e.nodes (e.layout indent level).nodes
  | ⟨tag, attributes, text, tail, children⟩ => by
    refine .cons ⟨rfl, rfl, layoutAll_eq_nil level children, fun hleaf ↦ ?_⟩
      (forall₂_nodesAll_layoutAll level children)
    obtain rfl : children = [] := hleaf
    rfl

theorem forall₂_nodesAll_layoutAll (level : Nat) : ∀ es : List Element,
    List.Forall₂ IsFoundAs (nodesAll es) (nodesAll (layoutAll indent level es))
  | [] => .nil
  | e :: rest =>
    List.rel_append (forall₂_nodes_withTail (forall₂_nodes_layout (level + 1) e) _)
      (forall₂_nodesAll_layoutAll level rest)

end

/-- Neither of the elements has children, and their texts are the same, or both have some. -/
structure LeafAgrees (x y : Element) : Prop where
  isLeaf : x.children = [] ↔ y.children = []
  text : x.children = [] → x.text = y.text

theorem IsFoundAs.leafAgrees {x y y' : Element} (h : x.IsFoundAs y) (h' : x.IsFoundAs y') :
    y.LeafAgrees y' :=
  ⟨h.isLeaf.trans h'.isLeaf.symm, fun hleaf ↦
    (h.text (h.isLeaf.mp hleaf)).trans (h'.text (h.isLeaf.mp hleaf)).symm⟩

/-- Elements without children are found with the same texts in all layouts. -/
theorem forall₂_leafAgrees_layout (level : Nat) (e : Element) :
    List.Forall₂ LeafAgrees (e.layout indent level).nodes (e.layout indent' level).nodes :=
  forall₂_of_common (fun _ _ _ h h' ↦ h.leafAgrees h') (forall₂_nodes_layout level e)
    (forall₂_nodes_layout level e)

end Element

/-! ### Trees that parsers give -/

namespace Element

/-- An element as parsers give it, in a namespace. A carriage return in its text comes from a
reference, and its text may stand next to children. -/
structure IsGiven (x : Element) : Prop where
  tag : IsReadableTag x.tag
  keys : ∀ a ∈ x.attributes, IsReadableKey a.1
  nodup : (x.attributes.map Prod.fst).Nodup
  values : ∀ a ∈ x.attributes, ∀ c ∈ a.2.toList, isXmlChar c = true
  isText : ∃ s, writtenText x.text = .ok s
  text : ∀ c ∈ x.ownText.toList, isXmlChar c = true

variable {x : Element}

theorem IsGiven.canBeWritten (h : x.IsGiven) : x.CanBeWritten :=
  ⟨h.tag.isTagName.canBeWritten, fun a ha ↦ (h.keys a ha).isAttributeName.canBeWritten, h.isText⟩

theorem IsGiven.isReadable (h : x.IsGiven) : (x.mapTexts tidyText clean).IsReadable := by
  refine isReadable_mapTexts h.tag h.keys h.nodup fun c hnon hholds ↦ ?_
  have hxml : isXmlChar c = true := hholds.elim (h.text c) fun ⟨a, ha, hc⟩ ↦ h.values a ha c hc
  rw [(noncharacters_facts c hnon).1] at hxml
  exact absurd hxml (by decide)

theorem IsGiven.keepsText (h : x.IsGiven) : x.KeepsText :=
  .inr fun c hc ↦ isForbidden_of_isXmlChar (h.text c hc)

end Element

variable {w : Writer} {e : Element}

/-- A tree as parsers give it is found with tidy texts as it is laid out. -/
theorem read_of_isGiven (hw : w.IsProper) {m : Markup} (hwrites : Writes w ∅ e m)
    (he : ∀ x ∈ e.nodes, x.IsGiven) (hkeeps : e.keepsAttributes w.defaultNamespace none = true)
    (indent : Option Nat) : read (clean (String.ofList (m.render indent 0))) =
      some ((e.mapTexts tidyText clean).layout indent 0) := by
  have hreadable : ∀ x ∈ (e.mapTexts tidyText clean).nodes, x.IsReadable := by
    rw [Element.nodes_mapTexts, List.forall_mem_map]
    exact fun x hx ↦ (he x hx).isReadable
  have hframe : IsFrame [] [] := ⟨.inl ⟨rfl, rfl⟩, by simp⟩
  refine read_of_tidy hw hwrites hreadable hkeeps (fun x hx ↦ (he x hx).keepsText) hframe ?_
  rw [clean, String.toList_ofList, String.toList_ofList]
  simp

end ContactCard.Xml
