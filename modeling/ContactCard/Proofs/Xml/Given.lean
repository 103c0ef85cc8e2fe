import ContactCard.Proofs.Xml.RoundTrip

/-!
# What readers give

Of whatever a document is made up, the tags that a reader finds in it are names: expanded ones with
a namespace that a prefix may be declared for, or names without a namespace (`tag_of_read`). Each of
the three stages of reading contributes to this. Scanning lets only characters of XML into attribute
values, among them the declared namespaces. The start tags of the tree are those that were scanned.
And resolving makes expanded names of written ones, given that those are names and the declarations
legal.
-/

namespace ContactCard.Xml

open Text

/-! ### Scanned values -/

/-- The values of the attributes hold nothing but characters of XML. -/
def HasXmlValues (attributes : List (String × String)) : Prop :=
  ∀ a ∈ attributes, ∀ c ∈ a.2.toList, isXmlChar c = true

theorem isXmlChar_of_referencedChar? {name : List Char} {c : Char}
    (h : referencedChar? name = some c) : isXmlChar c = true := by
  have hnumber : ∀ {n : Nat}, numberedChar? n = some c → isXmlChar c = true := by
    intro n h
    rw [numberedChar?] at h
    split at h
    · next hxml => exact Option.some.inj h ▸ hxml.2
    · exact absurd h (by simp)
  rw [referencedChar?.eq_def] at h
  split at h
  · split at h
    · exact hnumber h
    · exact absurd h (by simp)
  · split at h
    · exact hnumber h
    · exact absurd h (by simp)
  · have hall : ∀ e ∈ entities, isXmlChar e.2 = true := by decide +kernel
    exact hall (name, c) (mem_of_lookup h)

/-- The attributes of the start tag that is read, and what was read of a value so far. -/
def Mode.read : Mode → List (String × String) × List Char
  | .inTag head | .attributeName head _ | .beforeEquals head _ | .beforeValue head _
  | .afterValue head | .emptyEnd head => (head.attributes, [])
  | .value head _ _ cs | .valueReference head _ _ cs _ => (head.attributes, cs)
  | _ => ([], [])

/-- What was read of values so far holds nothing but characters of XML. -/
def Mode.IsGiven (mode : Mode) : Prop :=
  HasXmlValues mode.read.1 ∧ ∀ c ∈ mode.read.2, isXmlChar c = true

/-- The attributes of a token, which has none unless it is a start tag. -/
def Token.attributes : Token → List (String × String)
  | .opening _ attributes => attributes
  | _ => []

variable {mode mode' : Mode} {head : TagHead} {c : Char} {tokens : List Token}

theorem hasXmlValues_nil : HasXmlValues [] := fun _ ha ↦ absurd ha List.not_mem_nil

theorem Mode.isGiven_nil (h : mode.read = ([], [])) : mode.IsGiven := by
  rw [IsGiven, h]
  exact ⟨hasXmlValues_nil, fun _ hc ↦ absurd hc List.not_mem_nil⟩

theorem Mode.isGiven_head (hmode : mode.read = (head.attributes, []))
    (h : HasXmlValues head.attributes) : mode.IsGiven := by
  rw [IsGiven, hmode]
  exact ⟨h, fun _ hc ↦ absurd hc List.not_mem_nil⟩

theorem textTokens_attributes (cs : List Char) :
    ∀ t ∈ textTokens cs, t.attributes = [] := by
  intro t ht
  rw [textTokens] at ht
  split at ht
  · exact absurd ht List.not_mem_nil
  · rw [List.mem_singleton.mp ht]
    rfl

theorem isGiven_of_finishHead (h : HasXmlValues head.attributes)
    (hstep : finishHead head c = some (mode', tokens)) :
    mode'.IsGiven ∧ ∀ t ∈ tokens, HasXmlValues t.attributes := by
  rw [finishHead] at hstep
  split at hstep
  · obtain ⟨rfl, rfl⟩ : Mode.text [] = mode' ∧ [Token.opening _ _] = tokens := by simpa using hstep
    exact ⟨Mode.isGiven_nil rfl, List.forall_mem_singleton.mpr h⟩
  split at hstep
  · obtain ⟨rfl, rfl⟩ : Mode.emptyEnd head = mode' ∧ tokens = [] := by simpa using hstep
    exact ⟨Mode.isGiven_head rfl h, by simp⟩
  split at hstep
  · obtain ⟨rfl, rfl⟩ : Mode.inTag head = mode' ∧ tokens = [] := by simpa using hstep
    exact ⟨Mode.isGiven_head rfl h, by simp⟩
  · exact absurd hstep (by simp)

/-- Most characters give no token. -/
theorem isGiven_of_silent {next : Mode} (hstep : some (next, []) = some (mode', tokens))
    (h : next.IsGiven) : mode'.IsGiven ∧ ∀ t ∈ tokens, HasXmlValues t.attributes := by
  obtain ⟨rfl, rfl⟩ := Prod.mk.inj (Option.some.inj hstep)
  exact ⟨h, by simp⟩

section Value

variable {key cs reference : List Char} {quote : Char}

theorem isGiven_value (h : HasXmlValues head.attributes) (hcs : ∀ d ∈ cs, isXmlChar d = true)
    (hc : isXmlChar c = true) : (Mode.value head key quote (cs ++ [c])).IsGiven :=
  ⟨h, List.forall_mem_append.mpr ⟨hcs, List.forall_mem_singleton.mpr hc⟩⟩

theorem isGiven_of_step_value (h : (Mode.value head key quote cs).IsGiven)
    (hc : isXmlChar c = true) (hstep : step (.value head key quote cs) c = some (mode', tokens)) :
    mode'.IsGiven ∧ ∀ t ∈ tokens, HasXmlValues t.attributes := by
  obtain ⟨hattributes, hvalue⟩ := h
  rw [step] at hstep
  split at hstep
  · refine isGiven_of_silent hstep (Mode.isGiven_head rfl ?_)
    refine List.forall_mem_append.mpr ⟨hattributes, List.forall_mem_singleton.mpr ?_⟩
    rw [String.toList_ofList]
    exact hvalue
  split at hstep
  · exact absurd hstep (by simp)
  split at hstep
  · exact isGiven_of_silent hstep ⟨hattributes, hvalue⟩
  · have hread : isXmlChar (if isSpace c then ' ' else c) = true := by
      split
      · decide +kernel
      · exact hc
    exact isGiven_of_silent hstep (isGiven_value hattributes hvalue hread)

theorem isGiven_of_step_valueReference
    (h : (Mode.valueReference head key quote cs reference).IsGiven)
    (hstep : step (.valueReference head key quote cs reference) c = some (mode', tokens)) :
    mode'.IsGiven ∧ ∀ t ∈ tokens, HasXmlValues t.attributes := by
  obtain ⟨hattributes, hvalue⟩ := h
  rw [step] at hstep
  split at hstep
  · obtain ⟨d, hd, hstep⟩ := Option.map_eq_some_iff.mp hstep
    exact isGiven_of_silent (congrArg some hstep)
      (isGiven_value hattributes hvalue (isXmlChar_of_referencedChar? hd))
  · exact isGiven_of_silent hstep ⟨hattributes, hvalue⟩

end Value

/-- A character of XML lets nothing else into the values. -/
theorem Mode.IsGiven.step (h : mode.IsGiven) (hc : isXmlChar c = true)
    (hstep : Xml.step mode c = some (mode', tokens)) :
    mode'.IsGiven ∧ ∀ t ∈ tokens, HasXmlValues t.attributes := by
  cases mode with
  | value head key quote cs => exact isGiven_of_step_value h hc hstep
  | valueReference head key quote cs reference => exact isGiven_of_step_valueReference h hstep
  | afterValue head => exact isGiven_of_finishHead h.1 hstep
  | inTag head =>
    rw [Xml.step] at hstep
    split at hstep
    · exact isGiven_of_silent hstep (isGiven_head rfl h.1)
    · exact isGiven_of_finishHead h.1 hstep
  | startName name =>
    rw [Xml.step] at hstep
    split at hstep
    · exact isGiven_of_silent hstep (isGiven_nil rfl)
    · exact isGiven_of_finishHead hasXmlValues_nil hstep
  | emptyEnd head =>
    rw [Xml.step] at hstep
    split at hstep
    · obtain ⟨rfl, rfl⟩ := Prod.mk.inj (Option.some.inj hstep)
      exact ⟨isGiven_nil rfl,
        List.forall_mem_cons.mpr ⟨h.1, List.forall_mem_singleton.mpr hasXmlValues_nil⟩⟩
    · exact absurd hstep (by simp)
  | attributeName head key | beforeEquals head key | beforeValue head key =>
    rw [Xml.step] at hstep
    repeat' split at hstep
    all_goals first
      | exact isGiven_of_silent hstep (isGiven_head rfl h.1)
      | cases hstep
  | text cs =>
    rw [Xml.step] at hstep
    split at hstep
    · obtain ⟨rfl, rfl⟩ := Prod.mk.inj (Option.some.inj hstep)
      exact ⟨isGiven_nil rfl, fun t ht ↦ textTokens_attributes cs t ht ▸ hasXmlValues_nil⟩
    repeat' split at hstep
    all_goals first
      | exact isGiven_of_silent hstep (isGiven_nil rfl)
      | cases hstep
  | textReference cs reference =>
    rw [Xml.step] at hstep
    split at hstep
    · obtain ⟨d, -, hstep⟩ := Option.map_eq_some_iff.mp hstep
      exact isGiven_of_silent (congrArg some hstep) (isGiven_nil rfl)
    · exact isGiven_of_silent hstep (isGiven_nil rfl)
  | tagOpen | closeOpen | closeName name | closeEnd name =>
    rw [Xml.step] at hstep
    repeat' split at hstep
    all_goals first
      | exact isGiven_of_silent hstep (isGiven_nil rfl)
      | cases hstep
    -- the tokens that are left are end tags
    all_goals exact ⟨isGiven_nil rfl, List.forall_mem_singleton.mpr hasXmlValues_nil⟩

theorem hasXmlValues_of_scan {cs : List Char} (hcs : ∀ c ∈ cs, isXmlChar c = true)
    (h : mode.IsGiven) (hscan : scan mode cs = some tokens) :
    ∀ t ∈ tokens, HasXmlValues t.attributes := by
  induction cs generalizing mode tokens with
  | nil =>
    cases mode with
    | text cs =>
      obtain rfl : textTokens cs = tokens := by simpa [scan] using hscan
      exact fun t ht ↦ textTokens_attributes cs t ht ▸ hasXmlValues_nil
    | _ => exact absurd hscan (by simp [scan])
  | cons c cs ih =>
    obtain ⟨hc, hcs⟩ := List.forall_mem_cons.mp hcs
    rw [scan] at hscan
    · simp only [Option.bind_eq_bind, Option.bind_eq_some_iff, Option.pure_def, Option.some.injEq]
        at hscan
      obtain ⟨⟨mode', first⟩, hstep, rest, hrest, rfl⟩ := hscan
      obtain ⟨hmode', hfirst⟩ := h.step hc hstep
      exact List.forall_mem_append.mpr ⟨hfirst, ih hcs hmode' hrest⟩

/-! ### Start tags of trees -/

namespace Element

variable {Q : String → List (String × String) → Prop}

theorem forall_nodes_withTail {e : Element} {s : Option String}
    (h : ∀ x ∈ e.nodes, Q x.tag x.attributes) :
    ∀ x ∈ nodes { e with tail := s }, Q x.tag x.attributes := by
  rw [forall_mem_nodes_iff] at h ⊢
  exact h

/-- A text changes no start tag. -/
theorem forall_nodes_addText {e : Element} (h : ∀ x ∈ e.nodes, Q x.tag x.attributes) (s : String) :
    ∀ x ∈ (e.addText s).nodes, Q x.tag x.attributes := by
  rw [forall_mem_nodes_iff] at h
  rw [addText]
  split
  · exact forall_mem_nodes_iff.mpr h
  · next last hlast =>
    have hmem : last ∈ e.children := List.mem_of_getLast? hlast
    refine forall_mem_nodes_iff.mpr ⟨h.1, List.forall_mem_append.mpr ⟨fun child hchild ↦ ?_, ?_⟩⟩
    · exact h.2 child (List.dropLast_subset _ hchild)
    · rw [List.forall_mem_singleton]
      exact forall_nodes_withTail (h.2 last hmem)

theorem forall_nodes_append {e child : Element} (h : ∀ x ∈ e.nodes, Q x.tag x.attributes)
    (hchild : ∀ x ∈ child.nodes, Q x.tag x.attributes) :
    ∀ x ∈ (e.append child).nodes, Q x.tag x.attributes := by
  rw [forall_mem_nodes_iff] at h
  exact forall_mem_nodes_iff.mpr
    ⟨h.1, List.forall_mem_append.mpr ⟨h.2, List.forall_mem_singleton.mpr hchild⟩⟩

end Element

/-- All start tags in the open elements and in the root are among the tokens. -/
structure Nest.ComesFrom (n : Nest) (tokens : List Token) : Prop where
  stack : ∀ e ∈ n.stack, ∀ x ∈ e.nodes, .opening x.tag x.attributes ∈ tokens
  root : ∀ e, n.root = some e → ∀ x ∈ e.nodes, .opening x.tag x.attributes ∈ tokens

theorem Nest.ComesFrom.add {n n' : Nest} {all : List Token} (h : n.ComesFrom all) {t : Token}
    (ht : t ∈ all) (hadd : n.add t = some n') : n'.ComesFrom all := by
  obtain ⟨stack, root⟩ := n
  obtain ⟨hstack, hroot⟩ := h
  cases t with
  | text s =>
    cases stack with
    | nil => exact absurd hadd (by simp [Nest.add])
    | cons e stack =>
      obtain rfl := Option.some.inj hadd
      obtain ⟨he, hstack⟩ := List.forall_mem_cons.mp hstack
      exact ⟨List.forall_mem_cons.mpr ⟨Element.forall_nodes_addText
        (Q := fun tag attributes ↦ .opening tag attributes ∈ all) he s, hstack⟩, hroot⟩
  | opening name attributes =>
    rw [Nest.add] at hadd
    split at hadd
    · obtain rfl := Option.some.inj hadd
      refine ⟨List.forall_mem_cons.mpr ⟨fun x hx ↦ ?_, hstack⟩, hroot⟩
      rw [List.mem_singleton.mp hx]
      exact ht
    · exact absurd hadd (by simp)
  | closing name =>
    cases stack with
    | nil => exact absurd hadd (by simp [Nest.add])
    | cons e stack =>
      obtain ⟨he, hstack⟩ := List.forall_mem_cons.mp hstack
      by_cases htag : e.tag = name
      · obtain rfl := Option.some.inj ((if_pos htag).symm.trans hadd)
        cases stack with
        | nil => exact ⟨by simp [Nest.close], fun e' he' ↦ Option.some.inj he' ▸ he⟩
        | cons parent stack =>
          obtain ⟨hparent, hstack⟩ := List.forall_mem_cons.mp hstack
          exact ⟨List.forall_mem_cons.mpr ⟨Element.forall_nodes_append
            (Q := fun tag attributes ↦ .opening tag attributes ∈ all) hparent he, hstack⟩, hroot⟩
      · exact absurd ((if_neg htag).symm.trans hadd) (by simp)

/-- Every start tag of a tree is one of the tokens. -/
theorem opening_mem_of_tree? {e : Element} (h : tree? tokens = some e) :
    ∀ x ∈ e.nodes, .opening x.tag x.attributes ∈ tokens := by
  have hrun : ∀ (todo : List Token) (n n' : Nest), todo ⊆ tokens → n.ComesFrom tokens →
      todo.foldlM Nest.add n = some n' → n'.ComesFrom tokens := by
    intro todo
    induction todo with
    | nil =>
      intro n n' _ hn h
      exact Option.some.inj h ▸ hn
    | cons t todo ih =>
      intro n n' hsub hn h
      rw [List.foldlM_cons] at h
      obtain ⟨mid, hmid, h⟩ := Option.bind_eq_some_iff.mp h
      obtain ⟨ht, htodo⟩ := List.cons_subset.mp hsub
      exact ih mid n' htodo (hn.add ht hmid) h
  obtain ⟨n, hn, hroot⟩ := Option.bind_eq_some_iff.mp h
  split at hroot
  · exact (hrun tokens _ n (List.Subset.refl _) ⟨by simp, by simp⟩ hn).root e hroot
  · exact absurd hroot (by simp)

/-! ### Resolved tags -/

/-- The tag of an element, expanded if it has a namespace. -/
def IsGivenTag (tag : String) : Prop := IsReadableTag tag ∨ isNCName tag.toList = true

/-- Every prefix is bound to a namespace, and the empty one perhaps to none. -/
def Bindings.AreGiven (bindings : Bindings) : Prop :=
  ∀ b ∈ bindings, IsNamespace b.2 ∨ b.1 = "" ∧ b.2 = ""

/-- The start tag has legal names, and values that were scanned. -/
structure Element.IsScanned (x : Element) : Prop where
  names : hasLegalNames x = true
  values : HasXmlValues x.attributes

theorem isNamespace_of_isLegalBinding {pre ns : String} (h : isLegalBinding pre ns = true)
    (hchars : ∀ c ∈ ns.toList, isXmlChar c = true) : IsNamespace ns ∨ pre = "" ∧ ns = "" := by
  simp only [isLegalBinding, Bool.and_eq_true, bne_iff_ne, Bool.or_eq_true, Bool.not_eq_true',
    String.isEmpty_iff] at h
  obtain ⟨⟨⟨⟨-, hdeclarable⟩, -⟩, hempty⟩, hbrace⟩ := h
  by_cases hns : ns = ""
  · exact .inr ⟨hempty.resolve_right (by simp [hns]), hns⟩
  · exact .inl ⟨hns, by simpa using hbrace, hchars, hdeclarable⟩

variable {bindings : Bindings}

theorem Bindings.AreGiven.bind (h : bindings.AreGiven) {x : Element} (hx : x.IsScanned) :
    (Xml.bind bindings x.attributes).AreGiven := by
  refine forall_mem_bind h fun a ha pre hpre ↦ ?_
  have hlegal := List.all_eq_true.mp (Bool.and_eq_true_iff.mp hx.names).2 a ha
  rw [hpre] at hlegal
  exact isNamespace_of_isLegalBinding (Bool.and_eq_true_iff.mp hlegal).2 (hx.values a ha)

theorem Bindings.AreGiven.lookup (h : bindings.AreGiven) {pre ns : String}
    (hns : bindings.lookup pre = some ns) : IsNamespace ns ∨ pre = "" ∧ ns = "" :=
  h (pre, ns) (mem_of_lookup hns)

/-- A tag that is a name resolves to one. -/
theorem isGivenTag_of_resolveTag (h : bindings.AreGiven) {name tag : String}
    (hname : isQName name = true) (htag : resolveTag bindings name = some tag) :
    IsGivenTag tag := by
  rw [isQName] at hname
  rw [resolveTag] at htag
  cases hsplit : splitPrefix name with
  | mk pre plain =>
    rw [hsplit] at hname htag
    cases pre with
    | some pre =>
      obtain ⟨hpre, hplain⟩ := Bool.and_eq_true_iff.mp hname
      obtain ⟨ns, hns, rfl⟩ := Option.map_eq_some_iff.mp htag
      rcases h.lookup hns with hns | ⟨rfl, -⟩
      · exact .inl (.qualified hns hplain)
      · exact absurd hpre (by decide)
    | none =>
      obtain rfl := Option.some.inj htag
      split
      · exact .inr hname
      · next hne =>
        cases hns : bindings.lookup "" with
        | none => exact absurd (by simp [hns]) hne
        | some ns =>
          rw [hns] at hne
          rcases h.lookup hns with hns | ⟨-, rfl⟩
          · exact .inl (.qualified hns hname)
          · exact absurd (by decide) hne

theorem resolvesTo_isGivenTag : Element.ResolvesTo Bindings.AreGiven Element.IsScanned
    fun x ↦ IsGivenTag x.tag where
  bind h hx := h.bind hx
  resolve h hx htag _ := isGivenTag_of_resolveTag h (Bool.and_eq_true_iff.mp hx.names).1 htag

/-! ### Documents -/

/-- Every character of a document that is read is one of XML. -/
theorem isXmlChar_of_readWritten {s : String} {e : Element} (h : readWritten s = some e) :
    ∀ c ∈ normalizeLineEnds s.toList, isXmlChar c = true := by
  rw [readWritten] at h
  split at h
  · next hall => exact List.all_eq_true.mp hall
  · exact absurd h (by simp)

theorem trim_subset (cs : List Char) : trim cs ⊆ cs := by
  intro c hc
  rw [trim, List.mem_reverse] at hc
  have hc := (List.dropWhile_suffix _).mem hc
  exact (List.dropWhile_suffix _).mem (List.mem_reverse.mp hc)

theorem dropDeclaration_subset (cs : List Char) : dropDeclaration cs ⊆ cs := by
  rw [dropDeclaration]
  split
  · exact List.drop_subset _ _
  · exact List.Subset.refl _

theorem hasXmlValues_of_readWritten {s : String} {e : Element} (h : readWritten s = some e) :
    ∀ x ∈ e.nodes, HasXmlValues x.attributes := by
  have hchars := isXmlChar_of_readWritten h
  rw [readWritten, if_pos (List.all_eq_true.mpr hchars)] at h
  obtain ⟨tokens, hscan, htree⟩ := Option.bind_eq_some_iff.mp h
  have hvalues := hasXmlValues_of_scan
    (fun c hc ↦ hchars c (dropDeclaration_subset _ (trim_subset _ hc))) (Mode.isGiven_nil rfl)
    hscan
  exact fun x hx ↦ hvalues _ (opening_mem_of_tree? htree x hx)

/-- Every tag that a reader gives is a name. -/
theorem tag_of_read {s : String} {e : Element} (h : read s = some e) :
    ∀ x ∈ e.nodes, IsGivenTag x.tag := by
  obtain ⟨written, hwritten, h⟩ := Option.bind_eq_some_iff.mp h
  split at h
  · next hnames =>
    obtain ⟨resolved, hresolve, h⟩ := Option.bind_eq_some_iff.mp h
    split at h
    · obtain rfl := Option.some.inj h
      have houter : outerBindings.AreGiven := by
        intro b hb
        rw [List.mem_singleton.mp hb]
        exact .inl (by decide +kernel)
      exact resolvesTo_isGivenTag.nodes outerBindings houter _ _
        (fun x hx ↦ ⟨List.all_eq_true.mp hnames x hx, hasXmlValues_of_readWritten hwritten x hx⟩)
        hresolve
    · exact absurd h (by simp)
  · exact absurd h (by simp)

end ContactCard.Xml
