import ContactCard.Proofs.Xml.Layout

/-!
# Outlines of elements

What is left of an element without its texts and the values of its attributes is its outline: the
tags, how they are nested, and the names of the attributes. Neither other texts nor another layout
change it.
-/

namespace ContactCard.Xml.Element

/-- The tags of the element and of all elements below it. -/
def tags (e : Element) : List String := e.nodes.map Element.tag

theorem tags_eq (e : Element) : e.tags = e.tag :: e.children.flatMap tags := by
  rw [tags, nodes_eq, List.map_cons, List.map_flatMap]
  rfl

mutual

/-- The element with other texts and other attribute values, and without texts after elements. -/
def mapTexts (f g : String → String) : Element → Element
  | ⟨tag, attributes, text, _, children⟩ =>
    ⟨tag, attributes.map fun a ↦ (a.1, g a.2), .text (f (text.text?.getD "")), none,
      mapTextsAll f g children⟩

def mapTextsAll (f g : String → String) : List Element → List Element
  | [] => []
  | e :: rest => mapTexts f g e :: mapTextsAll f g rest

end

variable {f g : String → String}

mutual

theorem nodes_mapTexts : ∀ e : Element, (e.mapTexts f g).nodes = e.nodes.map (mapTexts f g)
  | ⟨tag, attributes, text, tail, children⟩ => by
    rw [mapTexts, nodes, nodes, List.map_cons, nodesAll_mapTextsAll children, mapTexts]

theorem nodesAll_mapTextsAll : ∀ es : List Element,
    nodesAll (mapTextsAll f g es) = (nodesAll es).map (mapTexts f g)
  | [] => rfl
  | e :: rest => by
    rw [mapTextsAll, nodesAll, nodesAll, List.map_append, nodes_mapTexts e,
      nodesAll_mapTextsAll rest]

end

mutual

theorem mapTexts_mapTexts {f' g' : String → String} :
    ∀ e : Element, (e.mapTexts f g).mapTexts f' g' = e.mapTexts (f' ∘ f) (g' ∘ g)
  | ⟨tag, attributes, text, tail, children⟩ => by
    rw [mapTexts, mapTexts, mapTexts, mapTextsAll_mapTextsAll children, List.map_map]
    rfl

theorem mapTextsAll_mapTextsAll {f' g' : String → String} : ∀ es : List Element,
    mapTextsAll f' g' (mapTextsAll f g es) = mapTextsAll (f' ∘ f) (g' ∘ g) es
  | [] => rfl
  | e :: rest => by
    rw [mapTextsAll, mapTextsAll, mapTextsAll, mapTexts_mapTexts e, mapTextsAll_mapTextsAll rest]

end

/-- The element without texts and attribute values: its tags, how they are nested, and the names of
its attributes. -/
def outline (e : Element) : Element := e.mapTexts (fun _ ↦ "") fun _ ↦ ""

theorem outline_mapTexts (e : Element) : (e.mapTexts f g).outline = e.outline :=
  mapTexts_mapTexts e

/-- Elements with the same outline have the same tags. -/
theorem tags_outline (e : Element) : e.outline.tags = e.tags := by
  rw [tags, outline, nodes_mapTexts, List.map_map]
  refine List.map_congr_left fun x _ ↦ ?_
  cases x
  rfl

theorem mapTexts_withTail (e : Element) (s : Option String) :
    mapTexts f g { e with tail := s } = e.mapTexts f g := by
  cases e
  rfl

variable {indent : Option Nat}

mutual

theorem outline_layout (level : Nat) :
    ∀ e : Element, (e.layout indent level).outline = e.outline
  | ⟨tag, attributes, text, tail, children⟩ => by
    have hchildren := mapTextsAll_layoutAll level children
    rw [outline, outline, layout, mapTexts, mapTexts, hchildren]

theorem mapTextsAll_layoutAll (level : Nat) : ∀ es : List Element,
    mapTextsAll (fun _ ↦ "") (fun _ ↦ "") (layoutAll indent level es) =
      mapTextsAll (fun _ ↦ "") (fun _ ↦ "") es
  | [] => rfl
  | e :: rest => by
    have hfirst := outline_layout (level + 1) e
    rw [layoutAll, mapTextsAll, mapTextsAll, mapTexts_withTail, mapTextsAll_layoutAll level rest]
    exact congrArg (· :: _) hfirst

end

end ContactCard.Xml.Element
