import ContactCard.Proofs.Xml.Cleaning

/-!
# Tables of prefixes

A writer takes any text for a prefix that is to be registered, except that `xml` is kept for the
namespace of XML. Its new prefixes differ from all registered ones, but nothing keeps the registered
ones from each other, and nothing makes them names.

Every tree without attributes in the default namespace comes out with names that resolve to what
they were, and no start tag declares a prefix twice, if and only if the prefixes of foreign
namespaces come out as names of which no two are the same (`unambiguous_iff`). Where they do not,
this shows at once, on an element with one or two attributes (`registeredTree`). The prefix that is
registered for the default namespace or for that of XML does not matter, since it is never written.
-/

namespace ContactCard.Xml

open Text Markup

/-- The prefixes that may be written come out as names, and no two namespaces share one. -/
structure Writer.IsUnambiguous (w : Writer) : Prop where
  isPrefix : ∀ {ns pre : String}, isForeign w.defaultNamespace ns = true →
    w.prefixes.get? ns = some pre → IsPrefix (clean pre)
  injective : ∀ {ns ns' pre pre' : String}, isForeign w.defaultNamespace ns = true →
    isForeign w.defaultNamespace ns' = true → w.prefixes.get? ns = some pre →
    w.prefixes.get? ns' = some pre' → clean pre = clean pre' → ns = ns'

/-- The markup is faithful to the tree, and what its start tags declare are prefixes. -/
structure Markup.IsUnambiguous (m : Markup) (e : Element) : Prop extends m.IsFaithful e where
  declares : ∀ x ∈ m.written.nodes, ∀ pre ∈ declaredPrefixes x, pre = "" ∨ IsPrefix pre

variable {w : Writer} {d : Option String} {e : Element} {m : Markup} {st : Naming}

/-! ### Unambiguous tables -/

theorem Writer.IsUnambiguous.isProper (h : w.IsUnambiguous) (hw : w.oddities = []) :
    w.cleaned.IsProper := by
  have hregistered {ns pre : String} (hget : w.cleaned.prefixes.get? ns = some pre) :
      isForeign w.defaultNamespace ns = true ∧
        ∃ raw, w.prefixes.get? ns = some raw ∧ clean raw = pre := by
    rw [get?_prefixes_cleaned] at hget
    split at hget
    · next hforeign => exact ⟨hforeign, Option.map_eq_some_iff.mp hget⟩
    · exact absurd hget (by simp)
  refine ⟨hw, fun {ns ns' pre} hget hget' ↦ ?_, fun {ns pre} hget _ ↦ ?_⟩
  · obtain ⟨hforeign, raw, hraw, rfl⟩ := hregistered hget
    obtain ⟨hforeign', raw', hraw', heq⟩ := hregistered hget'
    exact h.injective hforeign hforeign' hraw hraw' heq.symm
  · obtain ⟨hforeign, raw, hraw, rfl⟩ := hregistered hget
    exact h.isPrefix hforeign hraw

theorem Writer.isUnambiguous_of_entries
    (h : ∀ p ∈ w.prefixes.entries, isForeign w.defaultNamespace p.1 = true → IsPrefix (clean p.2) ∧
      ∀ q ∈ w.prefixes.entries, isForeign w.defaultNamespace q.1 = true → clean p.2 = clean q.2 →
        p.1 = q.1) : w.IsUnambiguous :=
  ⟨fun hforeign hget ↦ (h _ (OrderedMap.mem_entries_of_get? hget) hforeign).1,
    fun hforeign hforeign' hget hget' heq ↦
      (h _ (OrderedMap.mem_entries_of_get? hget) hforeign).2 _
        (OrderedMap.mem_entries_of_get? hget') hforeign' heq⟩

/-- Proper writers write ordinary trees unambiguously. -/
theorem Writes.isUnambiguous (hw : w.IsProper) (hwrites : Writes w ∅ e m)
    (he : ∀ x ∈ e.nodes, x.IsOrdinary w.defaultNamespace) : m.IsUnambiguous e := by
  have hnames : ∀ x ∈ e.nodes, x.IsNamed := fun x hx ↦ (he x hx).named
  have hkeeps := Element.keepsAttributes_of_forall none e fun x hx ↦ (he x hx).notDefault
  have hresolve := (hwrites.resolve_iff hw outerBindings none e m ∅ hnames (Agrees.empty w)
    (tracks_empty w)).mpr hkeeps
  have hnodes : ∀ x' ∈ m.written.nodes, (declaredPrefixes x').Nodup ∧ x'.IsUnchanged ∧
      ∀ pre ∈ declaredPrefixes x', pre = "" ∨ IsPrefix pre := by
    intro x' hx'
    obtain ⟨x, hx, hfor⟩ := Writes.nodes hw True outerBindings none e m ∅ hwrites hnames
      (Agrees.empty w) (tracks_empty w) (fun _ ↦ hkeeps) x' hx'
    obtain ⟨outer, st, written, hstart⟩ := hfor.startTag hw (hnames x hx)
    refine ⟨hstart.nodup trivial, hfor.isUnchanged hw trivial (hnames x hx) (he x hx).allowed, ?_⟩
    rw [hstart.declaredPrefixes_eq trivial]
    intro pre hpre
    obtain ⟨b, hb, rfl⟩ := List.mem_map.mp hpre
    have hscope := hstart.follows.declared b hb
    have hxml : b.1 ≠ xmlNamespace := by
      intro hxml
      rw [hxml, hstart.follows.agrees.isReserved] at hscope
      exact absurd hscope (by simp)
    by_cases hempty : b.2 = ""
    · exact .inl hempty
    · exact .inr ((hstart.follows.agrees.origin hscope).isName hw hxml hempty)
  exact ⟨⟨hresolve, fun x' hx' ↦ (hnodes x' hx').1, fun x' hx' ↦ (hnodes x' hx').2.1⟩,
    fun x' hx' ↦ (hnodes x' hx').2.2⟩

/-! ### Trees that show what is registered -/

/-- An element with an attribute in each of the namespaces. -/
def registeredTree (entries : List (String × String)) : Element :=
  .bare (expandedName xmlNamespace "x") (entries.map fun p ↦ (expandedName p.1 "a", ""))

/-- The markup of that element, with the prefixes. -/
def registeredMarkup (entries : List (String × String)) : Markup :=
  ⟨"xml:x", entries.map fun p ↦ (joinName p.2 "a", ""), entries, "", []⟩

/-- The prefixes are registered for the namespaces, and may be written. -/
def AreRegistered (w : Writer) (entries : List (String × String)) : Prop :=
  ∀ p ∈ entries, isForeign w.defaultNamespace p.1 = true ∧ w.prefixes.get? p.1 = some p.2

open ContactCard.Xml.Numbering

theorem gives_writtenAttributes_registered {entries : List (String × String)}
    (hall : AreRegistered w entries) (hnodup : (entries.map Prod.fst).Nodup)
    (hscope : ∀ p ∈ entries, st.scope.get? p.1 = none) (n : Nat) :
    ∃ scope, Gives (w.writtenAttributes st (entries.map fun p ↦ (expandedName p.1 "a", ""))) n
      (entries.map fun p ↦ (joinName p.2 "a", ""), ⟨scope, st.declared ++ entries⟩) n := by
  induction entries generalizing st with
  | nil =>
    refine ⟨st.scope, ?_⟩
    rw [List.append_nil]
    exact Gives.pure _ n
  | cons p rest ih =>
    obtain ⟨hnew, hnodup⟩ := List.nodup_cons.mp hnodup
    obtain ⟨⟨hforeign, hget⟩, hrest⟩ := List.forall_mem_cons.mp hall
    obtain ⟨hfree, hscope⟩ := List.forall_mem_cons.mp hscope
    obtain ⟨-, hxml, hbrace, -⟩ := isForeign_iff.mp hforeign
    have hfree' : ∀ q ∈ rest, (st.declare p.1 p.2).scope.get? q.1 = none := by
      intro q hq
      have hne : q.1 ≠ p.1 := by
        intro heq
        exact hnew (heq ▸ List.mem_map_of_mem hq)
      rw [get?_declare_of_ne hne]
      exact hscope q hq
    obtain ⟨scope, htail⟩ := ih hrest hnodup hfree'
    have hprefix : Gives (w.prefixOf false st p.1) n (p.2, st.declare p.1 p.2) n := by
      rw [Writer.prefixOf, hfree, if_neg hxml, if_neg (by simp), hget]
      exact Gives.pure _ n
    have hname : Gives (w.writtenName false st (expandedName p.1 "a")) n
        (joinName p.2 "a", st.declare p.1 p.2) n := by
      rw [Writer.writtenName, splitName_expandedName hbrace]
      exact hprefix.bind (Gives.pure _ n)
    refine ⟨scope, hname.bind (htail.bind ?_)⟩
    rw [show st.declared ++ p :: rest = (st.declare p.1 p.2).declared ++ rest by
      simp [Naming.declare]]
    exact Gives.pure _ n

theorem markupOf_registeredTree {entries : List (String × String)} (hall : AreRegistered w entries)
    (hnodup : (entries.map Prod.fst).Nodup) :
    (w.markupOf (registeredTree entries)).1 = .ok (registeredMarkup entries) := by
  have hfree : ∀ p ∈ entries, (⟨∅, []⟩ : Naming).scope.get? p.1 = none := fun _ _ ↦ rfl
  obtain ⟨scope, hattributes⟩ :=
    gives_writtenAttributes_registered hall hnodup hfree w.nextNumber
  have hprefix : Gives (w.prefixOf true ⟨∅, []⟩ xmlNamespace) w.nextNumber ("xml", ⟨∅, []⟩)
      w.nextNumber := by
    rw [Writer.prefixOf]
    exact Gives.pure _ _
  have htag : Gives (w.writtenName true ⟨∅, []⟩ (expandedName xmlNamespace "x")) w.nextNumber
      ("xml:x", ⟨∅, []⟩) w.nextNumber := by
    rw [Writer.writtenName, splitName_expandedName (by decide)]
    exact hprefix.bind (Gives.pure _ _)
  have hmarkup : Gives (w.markup ∅ (registeredTree entries)) w.nextNumber
      (registeredMarkup entries) w.nextNumber := by
    rw [registeredTree, Element.bare, Writer.markup]
    exact htag.bind (hattributes.bind ((Gives.pure _ _).bind ((Gives.ofExcept _ _).bind
      (Gives.pure _ _))))
  rw [Writer.markupOf, show (w.markup ∅ _).run.run w.nextNumber = _ from hmarkup]

theorem isOrdinary_registeredTree {entries : List (String × String)}
    (hall : AreRegistered w entries) :
    ∀ x ∈ (registeredTree entries).nodes, x.IsOrdinary w.defaultNamespace := by
  intro x hx
  obtain rfl : x = registeredTree entries := List.mem_singleton.mp hx
  have hkeys : ∀ a ∈ (registeredTree entries).attributes, IsAttributeName a.1 ∧ IsAllowed a.1 ∧
      isInDefault w.defaultNamespace a.1 = false := by
    intro a ha
    obtain ⟨p, hp, rfl⟩ := List.mem_map.mp ha
    obtain ⟨hd, -, hbrace, hallowed⟩ := isForeign_iff.mp (hall p hp).1
    have hplain : IsAllowed "a" := by
      unfold IsAllowed
      decide
    refine ⟨.qualified hbrace (by decide), isAllowed_expandedName hallowed hplain, ?_⟩
    rw [isInDefault_expandedName hbrace]
    simp [hd]
  have htag : IsTagName (expandedName xmlNamespace "x") :=
    .qualified (by decide) (by decide) (by decide)
  have hallowed : IsAllowed (expandedName xmlNamespace "x") := by
    unfold IsAllowed
    decide +kernel
  exact ⟨⟨htag, fun a ha ↦ (hkeys a ha).1⟩, ⟨hallowed, fun a ha ↦ (hkeys a ha).2.1⟩,
    fun a ha ↦ (hkeys a ha).2.2, ⟨"", rfl⟩⟩

theorem declaredPrefixes_registeredMarkup (entries : List (String × String)) :
    ∃ others, declaredPrefixes (registeredMarkup entries).cleanNames.written =
      others ++ (entries.map fun p ↦ (p.1, clean p.2)).map Prod.snd :=
  ⟨_, declaredPrefixes_append rfl⟩

/-- Without a prefix an attribute loses its namespace. -/
theorem not_isUnambiguous_of_empty (ns : String) :
    ¬(registeredMarkup [(ns, "")]).cleanNames.IsUnambiguous (registeredTree [(ns, "")]) := by
  intro h
  have hwritten : (registeredMarkup [(ns, "")]).cleanNames.written.attributes =
      [("a", ""), ("xmlns", ns)] := by
    have hclean : clean (joinName "" "a") = "a" ∧ declarationName (clean "") = "xmlns" := by decide
    simp [registeredMarkup, cleanNames, written, hclean]
  obtain ⟨-, hattributes, -⟩ := Element.resolve_eq_some.mp h.resolve
  have hdeclared : declaredPrefix? "a" = none ∧ declaredPrefix? "xmlns" = some "" := by decide
  have hplain (bindings : Bindings) : resolveAttributeName bindings "a" = some "a" :=
    resolveAttributeName_plain (by decide)
  rw [hwritten] at hattributes
  simp only [resolveAttributes, hdeclared, hplain] at hattributes
  have hname : ("a", "") = (expandedName ns "a", "") :=
    (List.cons.inj (Option.some.inj hattributes)).1
  exact expandedName_ne ns "a" (congrArg Prod.fst hname).symm

/-! ### Tables that are not unambiguous -/

variable (hall : ∀ e : Element, (∀ x ∈ e.nodes, x.IsOrdinary w.defaultNamespace) →
  ∃ m : Markup, (w.markupOf e).1 = .ok m ∧ m.cleanNames.IsUnambiguous e)

include hall in
/-- What is registered for some namespaces comes out unambiguously on the element with attributes in
them. -/
theorem isUnambiguous_registeredMarkup (entries : List (String × String))
    (hentries : AreRegistered w entries) (hnodup : (entries.map Prod.fst).Nodup) :
    (registeredMarkup entries).cleanNames.IsUnambiguous (registeredTree entries) := by
  obtain ⟨m, hm, hunambiguous⟩ := hall _ (isOrdinary_registeredTree hentries)
  rw [markupOf_registeredTree hentries hnodup] at hm
  exact Except.ok.inj hm ▸ hunambiguous

include hall in
theorem Writer.isUnambiguous_of_forall : w.IsUnambiguous := by
  refine ⟨fun {ns pre} hforeign hget ↦ ?_, fun {ns ns' pre pre'} hns hns' hget hget' heq ↦ ?_⟩
  · have hone := isUnambiguous_registeredMarkup hall [(ns, pre)]
      (List.forall_mem_singleton.mpr ⟨hforeign, hget⟩) (by simp)
    obtain ⟨others, hdeclared⟩ := declaredPrefixes_registeredMarkup [(ns, pre)]
    refine (hone.declares _ (Element.mem_nodes_self _) (clean pre) ?_).resolve_left fun hempty ↦ ?_
    · rw [hdeclared]
      simp
    · obtain rfl : pre = "" := by
        rwa [← String.isEmpty_iff, isEmpty_clean, String.isEmpty_iff] at hempty
      exact not_isUnambiguous_of_empty ns hone
  · by_contra hne
    have htwo := isUnambiguous_registeredMarkup hall [(ns, pre), (ns', pre')]
      (by
        rintro p (_ | ⟨_, _ | ⟨_, hp⟩⟩)
        · exact ⟨hns, hget⟩
        · exact ⟨hns', hget'⟩
        · exact absurd hp List.not_mem_nil) (by simpa using hne)
    obtain ⟨others, hdeclared⟩ := declaredPrefixes_registeredMarkup [(ns, pre), (ns', pre')]
    have hnodup := htwo.nodup _ (Element.mem_nodes_self _)
    rw [hdeclared] at hnodup
    have := (List.nodup_append.mp hnodup).2.1
    simp [heq] at this

/-! ### All tables -/

theorem fields_of_foldlM_addPrefix {prefixes : List (String × String)} {start : Writer}
    (h : prefixes.foldlM (fun w p ↦ w.addPrefix p.1 p.2) start = Except.ok w) :
    w.oddities = start.oddities ∧ w.defaultNamespace = start.defaultNamespace := by
  induction prefixes generalizing start with
  | nil =>
    obtain rfl : start = w := Except.ok.inj h
    exact ⟨rfl, rfl⟩
  | cons p rest ih =>
    rw [List.foldlM_cons] at h
    obtain ⟨next, hnext, h⟩ := exists_of_bind_eq_ok h
    have hsame : next.oddities = start.oddities ∧
        next.defaultNamespace = start.defaultNamespace := by
      rw [Writer.addPrefix] at hnext
      split at hnext
      · exact absurd hnext (by simp)
      · obtain rfl := Except.ok.inj hnext
        exact ⟨rfl, rfl⟩
    obtain ⟨hoddities, hdefault⟩ := ih h
    exact ⟨hoddities.trans hsame.1, hdefault.trans hsame.2⟩

/-- A table of prefixes is unambiguous if and only if every ordinary tree comes out unambiguously.
-/
theorem unambiguous_iff (d : Option String) (prefixes : List (String × String)) (n : Nat)
    {w : Writer} (h : Writer.withPrefixes d prefixes = .ok w) :
    (∀ e : Element, (∀ x ∈ e.nodes, x.IsOrdinary d) →
      ∃ m : Markup, (Writer.markupOf { w with nextNumber := n } e).1 = .ok m ∧
        (∀ indent, (Writer.writeElement { w with nextNumber := n } e indent).1 =
          .ok (clean (String.ofList (m.cleanNames.render (Writer.indentation indent) 0)))) ∧
        m.cleanNames.IsUnambiguous e) ↔
      w.IsUnambiguous := by
  obtain ⟨hoddities, rfl⟩ := fields_of_foldlM_addPrefix h
  constructor
  · intro hall
    have hnumbered : Writer.IsUnambiguous { w with nextNumber := n } :=
      Writer.isUnambiguous_of_forall fun e he ↦ by
        obtain ⟨m, hm, -, hunambiguous⟩ := hall e he
        exact ⟨m, hm, hunambiguous⟩
    exact ⟨hnumbered.isPrefix, hnumbered.injective⟩
  · intro hw e he
    have hnumbered : Writer.IsUnambiguous { w with nextNumber := n } := ⟨hw.isPrefix, hw.injective⟩
    obtain ⟨m, hm, hwrites⟩ := exists_markupOf (w := { w with nextNumber := n }) hoddities
      fun x hx ↦ (he x hx).canBeWritten
    refine ⟨m, hm, fun indent ↦ ?_, ?_⟩
    · rw [writeElement_of_markupOf hm, clean_render_cleanNames]
    · exact Writes.isUnambiguous (hnumbered.isProper hoddities) (hwrites.cleaned e m ∅ he) he

/-- One prefix has a character that is replaced, one looks like a new one, and that of the default
namespace is empty; the names of a tree are in their namespaces and in another one. -/
theorem unambiguous_iff_letter :
    let prefixes := [("f", "pre\x01"), ("g", "ns1"), ("d", "")]
    let letter : Element :=
      ⟨expandedName "d" "letter", [(expandedName "f" "k", "1")], .null, none,
        [.bare (expandedName "g" "p") [(expandedName "h" "k", "2")]]⟩
    ∃ w, Writer.withPrefixes (some "d") prefixes = .ok w ∧
      ∃ m : Markup, (Writer.markupOf { w with nextNumber := 1 } letter).1 = .ok m ∧
        (∀ indent, (Writer.writeElement { w with nextNumber := 1 } letter indent).1 =
          .ok (clean (String.ofList (m.cleanNames.render (Writer.indentation indent) 0)))) ∧
        m.cleanNames.IsUnambiguous letter := by
  intro prefixes letter
  refine ⟨_, rfl, (unambiguous_iff (some "d") prefixes 1 rfl).mpr ?_ letter ?_⟩
  · refine Writer.isUnambiguous_of_entries ?_
    unfold IsPrefix
    decide +kernel
  · have hallowed (ns plain : String) (h : ∀ c ∈ ns.toList ++ plain.toList, isForbidden c = false) :
        IsAllowed (expandedName ns plain) :=
      isAllowed_expandedName (fun c hc ↦ h c (List.mem_append_left _ hc))
        fun c hc ↦ h c (List.mem_append_right _ hc)
    refine (Element.forall_mem_nodes_of_child rfl).mpr ⟨?_,
      (Element.forall_mem_nodes_of_childless rfl).mpr ?_⟩
    · refine ⟨⟨.qualified (by decide) (by decide) (by decide), ?_⟩, ⟨hallowed _ _ (by decide), ?_⟩,
        ?_, ⟨_, rfl⟩⟩
      · exact List.forall_mem_singleton.mpr (.qualified (by decide) (by decide))
      · exact List.forall_mem_singleton.mpr (hallowed _ _ (by decide))
      · exact List.forall_mem_singleton.mpr (by decide +kernel)
    · refine ⟨⟨.qualified (by decide) (by decide) (by decide), ?_⟩, ⟨hallowed _ _ (by decide), ?_⟩,
        ?_, ⟨_, rfl⟩⟩
      · exact List.forall_mem_singleton.mpr (.qualified (by decide) (by decide))
      · exact List.forall_mem_singleton.mpr (hallowed _ _ (by decide))
      · exact List.forall_mem_singleton.mpr (by decide +kernel)

/-- Two namespaces with one prefix cannot be told apart, and with an empty one an attribute loses
its namespace. -/
theorem prefix_declared_twice :
    let shared := [("f", "p"), ("g", "p")]
    let x := Element.bare (expandedName "f" "x") [(expandedName "g" "a", "1")]
    let empty := [("f", "")]
    let y := Element.bare (expandedName "f" "y") [(expandedName "f" "a", "1")]
    (∃ w, Writer.withPrefixes (some "d") shared = .ok w ∧
      (w.writeElement x (-1)).1.toOption = some "<p:x p:a=\"1\" xmlns:p=\"f\" xmlns:p=\"g\"/>" ∧
      read "<p:x p:a=\"1\" xmlns:p=\"f\" xmlns:p=\"g\"/>" = none) ∧
    ∃ w, Writer.withPrefixes (some "d") empty = .ok w ∧
      (w.writeElement y (-1)).1.toOption = some "<y a=\"1\" xmlns=\"f\"/>" ∧
      (read "<y a=\"1\" xmlns=\"f\"/>").map Element.attributes = some [("a", "1")] := by
  intro shared x empty y
  exact ⟨⟨_, rfl, by decide +kernel, by decide +kernel⟩, _, rfl, by decide +kernel,
    by decide +kernel⟩

end ContactCard.Xml
