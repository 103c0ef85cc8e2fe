import ContactCard.Proofs.Xml.Reader

/-!
# How elements are laid out

What a reader finds between the tags of a document is not quite what an element holds: an
indentation adds line breaks to texts and drops blanks around them, texts after elements are not
written, and an empty text reads as none. `Element.layout` is the element as it is found, and it is
made up by the tokens that are found (`tree?_tokens_layout`).

Nothing that is laid out has to do with names, so resolving names and laying out may change places
(`resolve_layout`).
-/

namespace ContactCard.Xml

open Text Markup

/-- The line break in front of what stands at a level. -/
def breakBefore (indent : Option Nat) (level : Nat) : List Char :=
  indent.elim [] fun width ↦ lineBreak width level

/-- A text, if it has characters. -/
def optionalText (cs : List Char) : Option String :=
  if cs.isEmpty then none else some (String.ofList cs)

@[simp] theorem toList_getD_optionalText (cs : List Char) :
    ((optionalText cs).getD "").toList = cs := by
  cases cs <;> simp [optionalText]

namespace Element

/-- The characters in front of the first child or, without children, all characters. -/
def laidText (indent : Option Nat) (level : Nat) (s : String) (isLeaf : Bool) : List Char :=
  if isLeaf then s.toList
  else
    (if indent.isSome then stripChars s.toList else s.toList) ++ breakBefore indent (level + 1)

mutual

/-- The element as it is found at a level. -/
def layout (indent : Option Nat) (level : Nat) : Element → Element
  | ⟨tag, attributes, text, _, children⟩ =>
    ⟨tag, attributes,
      .ofOption (optionalText (laidText indent level (text.text?.getD "") children.isEmpty)),
      none, layoutAll indent level children⟩

/-- The children of an element at a level as they are found. -/
def layoutAll (indent : Option Nat) (level : Nat) : List Element → List Element
  | [] => []
  | e :: rest =>
    { layout indent (level + 1) e with
      tail := optionalText (breakBefore indent (if rest.isEmpty then level else level + 1)) } ::
        layoutAll indent level rest

end

mutual

/-- The element with a text in every element and without the texts after elements. -/
def plain : Element → Element
  | ⟨tag, attributes, text, _, children⟩ =>
    ⟨tag, attributes, .text (text.text?.getD ""), none, plainAll children⟩

def plainAll : List Element → List Element
  | [] => []
  | e :: rest => plain e :: plainAll rest

end

mutual

/-- The tokens of an element. -/
def tokens : Element → List Token
  | ⟨tag, attributes, text, _, children⟩ =>
    .opening tag attributes :: textTokens (text.text?.getD "").toList ++ tokensAll children ++
      [.closing tag]

/-- The tokens of elements and of the texts after them. -/
def tokensAll : List Element → List Token
  | [] => []
  | e :: rest => tokens e ++ textTokens (e.tail.getD "").toList ++ tokensAll rest

end

@[simp] theorem tail_layout (indent : Option Nat) (level : Nat) (e : Element) :
    (layout indent level e).tail = none := by
  cases e
  rfl

/-- The text after an element is none of its own tokens. -/
@[simp] theorem tokens_withTail (e : Element) (s : Option String) :
    tokens { e with tail := s } = tokens e := by
  cases e
  rfl

/-! ### From tokens to elements -/

theorem addTokens_text_of_no_children {e : Element} (htext : e.text = .null)
    (hchildren : e.children = [])
    (stack : List Element) (root : Option Element) (cs : List Char) :
    (textTokens cs).foldlM Nest.add ⟨e :: stack, root⟩ =
      some ⟨{ e with text := .ofOption (optionalText cs) } :: stack, root⟩ := by
  obtain ⟨tag, attributes, text, tail, children⟩ := e
  cases htext
  cases hchildren
  by_cases hcs : cs.isEmpty = true
  · simp [textTokens, optionalText, hcs, Value.ofOption]
  · simp [textTokens, optionalText, hcs, Value.ofOption, Nest.add, addText]

theorem addTokens_text_of_children {e child : Element} {done : List Element}
    (hchildren : e.children = done ++ [child]) (htail : child.tail = none) (stack : List Element)
    (root : Option Element) (cs : List Char) :
    (textTokens cs).foldlM Nest.add ⟨e :: stack, root⟩ =
      some ⟨{ e with children := done ++ [{ child with tail := optionalText cs }] } :: stack,
        root⟩ := by
  obtain ⟨tag, attributes, text, tail, children⟩ := e
  obtain ⟨ctag, cattributes, ctext, ctail, cchildren⟩ := child
  cases htail
  cases hchildren
  by_cases hcs : cs.isEmpty = true
  · simp [textTokens, optionalText, hcs]
  · simp [textTokens, optionalText, hcs, Nest.add, addText]

variable {indent : Option Nat}

mutual

/-- The tokens of an element add it to the innermost open element. -/
theorem addTokens_layout (level : Nat) (stack : List Element) :
    ∀ e : Element, (∀ x ∈ e.nodes, (x.attributes.map Prod.fst).Nodup) →
      (layout indent level e).tokens.foldlM Nest.add ⟨stack, none⟩ =
        some (Nest.close ⟨stack, none⟩ (layout indent level e) stack)
  | ⟨tag, attributes, text, _, children⟩, h => by
    have hkeys : (attributes.map Prod.fst).Nodup := h _ List.mem_cons_self
    have hchildren := addTokens_layoutAll level stack children
      fun x hx ↦ h x (List.mem_cons_of_mem _ hx)
    have hopen : Nest.add ⟨stack, none⟩ (.opening tag attributes) =
        some ⟨.bare tag attributes :: stack, none⟩ := by
      rw [Nest.add, if_pos ⟨hkeys, rfl⟩]
    rw [layout, tokens]
    simp only [List.cons_append, List.foldlM_cons, List.foldlM_append, hopen, Option.bind_eq_bind,
      Option.bind_some]
    rw [addTokens_text_of_no_children rfl rfl, Option.bind_some, hchildren, Option.bind_some]
    simp [Nest.add, Nest.close, bare]

theorem addTokens_layoutAll (level : Nat) (stack : List Element) :
    ∀ es : List Element, (∀ x ∈ nodesAll es, (x.attributes.map Prod.fst).Nodup) →
      ∀ p : Element, (tokensAll (layoutAll indent level es)).foldlM Nest.add ⟨p :: stack, none⟩ =
        some ⟨{ p with children := p.children ++ layoutAll indent level es } :: stack, none⟩
  | [], _, p => by
    cases p
    simp [layoutAll, tokensAll]
  | e :: rest, h, p => by
    have hfirst := addTokens_layout (level + 1) (p :: stack) e
      fun x hx ↦ h x (List.mem_append_left _ hx)
    have hrest := addTokens_layoutAll level stack rest
      fun x hx ↦ h x (List.mem_append_right _ hx)
    have htail := addTokens_text_of_children (e := p.append (layout indent (level + 1) e)) rfl
      (tail_layout indent (level + 1) e) stack none
    rw [layoutAll, tokensAll]
    simp only [List.foldlM_append, toList_getD_optionalText, tokens_withTail]
    rw [hfirst, Option.bind_eq_bind, Option.bind_some]
    show (List.foldlM Nest.add ⟨p.append (layout indent (level + 1) e) :: stack, none⟩ _).bind _ = _
    rw [htail, Option.bind_some, hrest]
    simp [append]

end

/-- The tokens of an element as it is found make up the element as it is found. -/
theorem tree?_tokens_layout {e : Element} (h : ∀ x ∈ e.nodes, (x.attributes.map Prod.fst).Nodup)
    (level : Nat) : tree? (layout indent level e).tokens = some (layout indent level e) := by
  rw [tree?, addTokens_layout level [] e h]
  rfl

/-! ### Layout and names -/

theorem resolve_eq_some {bindings : Bindings} {e e' : Element} :
    e.resolve bindings = some e' ↔
      resolveTag (bind bindings e.attributes) e.tag = some e'.tag ∧
      resolveAttributes (bind bindings e.attributes) e.attributes = some e'.attributes ∧
      resolveAll (bind bindings e.attributes) e.children = some e'.children ∧
      e'.text = e.text ∧ e'.tail = e.tail := by
  obtain ⟨tag, attributes, text, tail, children⟩ := e
  obtain ⟨tag', attributes', text', tail', children'⟩ := e'
  rw [resolve]
  simp only [Option.bind_eq_bind, Option.bind_eq_some_iff, Option.pure_def, Option.some.injEq,
    Element.mk.injEq]
  constructor
  · rintro ⟨_, htag, _, hattributes, _, hchildren, rfl, rfl, rfl, rfl, rfl⟩
    exact ⟨htag, hattributes, hchildren, rfl, rfl⟩
  · rintro ⟨htag, hattributes, hchildren, rfl, rfl⟩
    exact ⟨_, htag, _, hattributes, _, hchildren, rfl, rfl, rfl, rfl, rfl⟩

theorem resolveAll_cons_eq_some {bindings : Bindings} {e : Element} {rest es' : List Element} :
    resolveAll bindings (e :: rest) = some es' ↔
      ∃ e' rest', e.resolve bindings = some e' ∧ resolveAll bindings rest = some rest' ∧
        es' = e' :: rest' := by
  rw [resolveAll]
  simp only [Option.bind_eq_bind, Option.bind_eq_some_iff, Option.pure_def, Option.some.injEq]
  constructor
  · rintro ⟨e', he, rest', hrest, rfl⟩
    exact ⟨e', rest', he, hrest, rfl⟩
  · rintro ⟨e', rest', he, hrest, rfl⟩
    exact ⟨e', he, rest', hrest, rfl⟩

/-- Start tags with `A` keep what `I` says of bindings, and inside of them names resolve to such as
`B` says. -/
structure ResolvesTo (I : Bindings → Prop) (A B : Element → Prop) : Prop where
  bind {bindings : Bindings} {x : Element} (h : I bindings) (hx : A x) :
    I (bind bindings x.attributes)
  resolve {bindings : Bindings} {x y : Element} (h : I bindings) (hx : A x)
    (htag : resolveTag bindings x.tag = some y.tag)
    (hattributes : resolveAttributes bindings x.attributes = some y.attributes) : B y

variable {I : Bindings → Prop} {A B : Element → Prop}

mutual

/-- What follows for the names in one start tag from the bindings inside of it follows for all names
of a tree. -/
theorem ResolvesTo.nodes (hAB : ResolvesTo I A B) (bindings : Bindings) (h : I bindings) :
    ∀ x y : Element, (∀ z ∈ x.nodes, A z) → x.resolve bindings = some y → ∀ z ∈ y.nodes, B z
  | ⟨tag, attributes, text, tail, children⟩, ⟨tag', attributes', text', tail', children'⟩, hnodes,
      hresolve => by
    obtain ⟨htag, hattributes, hchildren, -, -⟩ := resolve_eq_some.mp hresolve
    have hself := hnodes _ List.mem_cons_self
    have hinner := hAB.bind h hself
    intro z hz
    rcases List.mem_cons.mp hz with rfl | hz
    · exact hAB.resolve hinner hself htag hattributes
    · exact ResolvesTo.nodesAll hAB _ hinner children children'
        (fun z hz ↦ hnodes z (List.mem_cons_of_mem _ hz)) hchildren z hz

theorem ResolvesTo.nodesAll (hAB : ResolvesTo I A B) (bindings : Bindings) (h : I bindings) :
    ∀ xs ys : List Element, (∀ z ∈ Element.nodesAll xs, A z) → resolveAll bindings xs = some ys →
      ∀ z ∈ Element.nodesAll ys, B z
  | [], ys, _, hresolve => by
    obtain rfl : ys = [] := by simpa [resolveAll] using hresolve.symm
    exact fun z hz ↦ absurd hz List.not_mem_nil
  | x :: rest, ys, hnodes, hresolve => by
    obtain ⟨y, rest', hy, hrest, rfl⟩ := resolveAll_cons_eq_some.mp hresolve
    intro z hz
    rcases List.mem_append.mp hz with hz | hz
    · exact ResolvesTo.nodes hAB bindings h x y
        (fun z hz ↦ hnodes z (List.mem_append_left _ hz)) hy z hz
    · exact ResolvesTo.nodesAll hAB bindings h rest rest'
        (fun z hz ↦ hnodes z (List.mem_append_right _ hz)) hrest z hz

end

theorem isEmpty_of_resolveAll {bindings : Bindings} {es es' : List Element}
    (h : resolveAll bindings es = some es') : es'.isEmpty = es.isEmpty := by
  cases es with
  | nil =>
    obtain rfl : es' = [] := by simpa [resolveAll] using h.symm
    rfl
  | cons e rest =>
    obtain ⟨e', rest', -, -, rfl⟩ := resolveAll_cons_eq_some.mp h
    rfl

mutual

/-- An element whose names are resolved looks as it did. -/
theorem resolve_layout (level : Nat) (bindings : Bindings) :
    ∀ e e' : Element, e.resolve bindings = some e' →
      (layout indent level e).resolve bindings = some (layout indent level e')
  | ⟨tag, attributes, text, tail, children⟩, ⟨tag', attributes', text', tail', children'⟩, h => by
    obtain ⟨htag, hattributes, hchildren, rfl, rfl⟩ := resolve_eq_some.mp h
    have hall := resolveAll_layoutAll level _ children children' hchildren
    refine resolve_eq_some.mpr ⟨htag, hattributes, hall, ?_, rfl⟩
    simp only [layout, isEmpty_of_resolveAll hchildren]

theorem resolveAll_layoutAll (level : Nat) (bindings : Bindings) :
    ∀ es es' : List Element, resolveAll bindings es = some es' →
      resolveAll bindings (layoutAll indent level es) = some (layoutAll indent level es')
  | [], es', h => by
    obtain rfl : es' = [] := by simpa [resolveAll] using h.symm
    rfl
  | e :: rest, es', h => by
    obtain ⟨e', rest', he, hrest, rfl⟩ := resolveAll_cons_eq_some.mp h
    have hall := resolveAll_layoutAll level bindings rest rest' hrest
    obtain ⟨htag, hattributes, hchildren, htext, -⟩ :=
      resolve_eq_some.mp (resolve_layout (level + 1) bindings e e' he)
    rw [layoutAll, layoutAll]
    refine resolveAll_cons_eq_some.mpr ⟨_, _, ?_, hall, rfl⟩
    refine resolve_eq_some.mpr ⟨htag, hattributes, hchildren, htext, ?_⟩
    simp only [isEmpty_of_resolveAll hrest]

end

/-! ### What laying out leaves as it is -/

theorem exists_of_mem_nodes_withTail {e y : Element} {s : Option String}
    (hy : y ∈ nodes { e with tail := s }) :
    ∃ x ∈ e.nodes, y.tag = x.tag ∧ y.attributes = x.attributes := by
  cases e
  rcases List.mem_cons.mp hy with rfl | hy
  · exact ⟨_, List.mem_cons_self, rfl, rfl⟩
  · exact ⟨y, List.mem_cons_of_mem _ hy, rfl, rfl⟩

mutual

/-- Laying out an element changes no start tag. -/
theorem exists_of_mem_nodes_layout (level : Nat) :
    ∀ e : Element, ∀ y ∈ (e.layout indent level).nodes,
      ∃ x ∈ e.nodes, y.tag = x.tag ∧ y.attributes = x.attributes
  | ⟨tag, attributes, text, tail, children⟩, y, hy => by
    rcases List.mem_cons.mp hy with rfl | hy
    · exact ⟨_, List.mem_cons_self, rfl, rfl⟩
    · obtain ⟨x, hx, h⟩ := exists_of_mem_nodesAll_layoutAll level children y hy
      exact ⟨x, List.mem_cons_of_mem _ hx, h⟩

theorem exists_of_mem_nodesAll_layoutAll (level : Nat) :
    ∀ es : List Element, ∀ y ∈ nodesAll (layoutAll indent level es),
      ∃ x ∈ nodesAll es, y.tag = x.tag ∧ y.attributes = x.attributes
  | [], y, hy => absurd hy List.not_mem_nil
  | e :: rest, y, hy => by
    rcases List.mem_append.mp hy with hy | hy
    · obtain ⟨z, hz, htag, hattributes⟩ := exists_of_mem_nodes_withTail hy
      obtain ⟨x, hx, htag', hattributes'⟩ := exists_of_mem_nodes_layout (level + 1) e z hz
      exact ⟨x, List.mem_append_left _ hx, htag.trans htag', hattributes.trans hattributes'⟩
    · obtain ⟨x, hx, h⟩ := exists_of_mem_nodesAll_layoutAll level rest y hy
      exact ⟨x, List.mem_append_right _ hx, h⟩

end

theorem isEmpty_plainAll (es : List Element) : (plainAll es).isEmpty = es.isEmpty := by
  cases es <;> rfl

mutual

/-- What is laid out of an element does not depend on how its texts are given. -/
theorem layout_plain (level : Nat) :
    ∀ e : Element, e.plain.layout indent level = e.layout indent level
  | ⟨tag, attributes, text, tail, children⟩ => by
    rw [plain, layout, layout, layoutAll_plainAll level children, isEmpty_plainAll,
      Value.text?_text, Option.getD_some]

theorem layoutAll_plainAll (level : Nat) :
    ∀ es : List Element, layoutAll indent level (plainAll es) = layoutAll indent level es
  | [] => rfl
  | e :: rest => by
    rw [plainAll, layoutAll, layoutAll, layout_plain (level + 1) e, layoutAll_plainAll level rest,
      isEmpty_plainAll]

end

mutual

/-- The element without the texts after the elements in it and after itself. -/
def withoutTails : Element → Element
  | ⟨tag, attributes, text, _, children⟩ => ⟨tag, attributes, text, none, withoutTailsAll children⟩

def withoutTailsAll : List Element → List Element
  | [] => []
  | e :: rest => withoutTails e :: withoutTailsAll rest

end

mutual

/-- Without an indentation an element is found as it is, if no text in it is there but empty. -/
theorem layout_none (level : Nat) :
    ∀ e : Element, (∀ x ∈ e.nodes, x.text = .null ∨ ∃ s, s ≠ "" ∧ x.text = .text s) →
      e.layout none level = e.withoutTails
  | ⟨tag, attributes, text, tail, children⟩, h => by
    have hchildren := layoutAll_none level children fun x hx ↦ h x (List.mem_cons_of_mem _ hx)
    have htext : Value.ofOption (optionalText (laidText none level (text.text?.getD "")
        children.isEmpty)) = text := by
      have hlaid : laidText none level (text.text?.getD "") children.isEmpty =
          (text.text?.getD "").toList := by
        simp [laidText, breakBefore]
      rw [hlaid]
      rcases h _ List.mem_cons_self with htext | ⟨s, hs, htext⟩
      · rw [show text = .null from htext]
        rfl
      · have hne : s.toList ≠ [] := by simpa using hs
        rw [show text = .text s from htext]
        simp [optionalText, hne, Value.ofOption]
    rw [layout, withoutTails, htext, hchildren]

theorem layoutAll_none (level : Nat) :
    ∀ es : List Element,
      (∀ x ∈ nodesAll es, x.text = .null ∨ ∃ s, s ≠ "" ∧ x.text = .text s) →
      layoutAll none level es = withoutTailsAll es
  | [], _ => rfl
  | e :: rest, h => by
    have hfirst := layout_none (level + 1) e fun x hx ↦ h x (List.mem_append_left _ hx)
    have hrest := layoutAll_none level rest fun x hx ↦ h x (List.mem_append_right _ hx)
    rw [layoutAll, withoutTailsAll, hfirst, hrest]
    cases e
    rfl

end

end Element

end ContactCard.Xml
