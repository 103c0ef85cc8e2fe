import ContactCard.Proofs.Xml.Document
import ContactCard.Proofs.Xml.StartTag

/-!
# Reading trees back

A tree that a reader of XML may give (`Element.IsReadable`) is written and read back: its names by
what is known of start tags, its characters by what is known of documents. What is read is the tree
as it is laid out, and without an indentation that is the tree itself, texts after elements apart
(`read_writeElement`).

The only condition on the tree is that its attributes keep the default namespace of the writer,
which they do if none of them is in it.
-/

namespace ContactCard.Xml

open Text Markup

/-! ### What readers give -/

/-- A namespace that a prefix may be declared for. -/
structure IsNamespace (ns : String) : Prop where
  ne : ns ≠ ""
  brace : '\x7d' ∉ ns.toList
  chars : ∀ c ∈ ns.toList, isXmlChar c = true
  isDeclarable : ns ≠ xmlnsNamespace

instance (ns : String) : Decidable (IsNamespace ns) :=
  decidable_of_iff (ns ≠ "" ∧ '\x7d' ∉ ns.toList ∧ (∀ c ∈ ns.toList, isXmlChar c = true) ∧
      ns ≠ xmlnsNamespace)
    ⟨fun ⟨hne, hbrace, hchars, hdeclarable⟩ ↦ ⟨hne, hbrace, hchars, hdeclarable⟩,
      fun ⟨hne, hbrace, hchars, hdeclarable⟩ ↦ ⟨hne, hbrace, hchars, hdeclarable⟩⟩

/-- The expanded name of an element. -/
inductive IsReadableTag : String → Prop
  | qualified {ns plain : String} (hns : IsNamespace ns) (hplain : isNCName plain.toList = true) :
      IsReadableTag (expandedName ns plain)

/-- The expanded name of an attribute. -/
inductive IsReadableKey : String → Prop
  | plain {name : String} (h : isNCName name.toList = true) (hxmlns : name ≠ "xmlns") :
      IsReadableKey name
  | qualified {ns plain : String} (hns : IsNamespace ns) (hplain : isNCName plain.toList = true) :
      IsReadableKey (expandedName ns plain)

namespace Element

/-- An element as readers give them, with the text that it may have. A carriage return in a text
would be read as a line feed. -/
structure IsReadable (x : Element) : Prop where
  tag : IsReadableTag x.tag
  keys : ∀ a ∈ x.attributes, IsReadableKey a.1
  nodup : (x.attributes.map Prod.fst).Nodup
  values : ∀ a ∈ x.attributes, ∀ c ∈ a.2.toList, isXmlChar c = true
  isText : ∃ s, writtenText x.text = .ok s
  text : IsPlain x.ownText.toList

end Element

theorem IsReadableTag.isTagName {name : String} (h : IsReadableTag name) : IsTagName name := by
  obtain ⟨hns, hplain⟩ := h
  exact .qualified hns.ne hns.brace (colon_not_mem_of_isNCName hplain)

theorem head?_ne_of_isNCName {cs : List Char} (h : isNCName cs = true) :
    cs.head? ≠ some '\x7b' := by
  intro hhead
  have hmem : '\x7b' ∈ cs := List.mem_of_mem_head? hhead
  exact absurd (isNamePart_of_isNCName h _ hmem) (by decide +kernel)

theorem IsReadableKey.isAttributeName {name : String} (h : IsReadableKey name) :
    IsAttributeName name := by
  cases h with
  | plain h hxmlns =>
    exact .plain (head?_ne_of_isNCName h) (colon_not_mem_of_isNCName h) hxmlns
  | qualified hns hplain => exact .qualified hns.brace (colon_not_mem_of_isNCName hplain)

theorem Element.IsReadable.isNamed {x : Element} (h : x.IsReadable) : x.IsNamed :=
  ⟨h.tag.isTagName, fun a ha ↦ (h.keys a ha).isAttributeName⟩

theorem Element.IsReadable.canBeWritten {x : Element} (h : x.IsReadable) : x.CanBeWritten :=
  ⟨h.isNamed.tag.canBeWritten, fun a ha ↦ (h.isNamed.keys a ha).canBeWritten, h.isText⟩

theorem IsReadableTag.parts {ns plain : String} (h : IsReadableTag (expandedName ns plain))
    (hns : '\x7d' ∉ ns.toList) : IsNamespace ns ∧ isNCName plain.toList = true := by
  generalize hname : expandedName ns plain = name at h
  obtain ⟨hns', hplain⟩ := h
  obtain ⟨rfl, rfl⟩ := expandedName_inj hns hns'.brace hname
  exact ⟨hns', hplain⟩

/-- Whether a tag is that of an element as readers give them. -/
def isReadableTag (name : String) : Bool :=
  match splitName name true with
  | .ok (some ns, plain) => decide (IsNamespace ns) && isNCName plain.toList
  | _ => false

theorem isReadableTag_iff {name : String} : isReadableTag name = true ↔ IsReadableTag name := by
  constructor
  · intro h
    rw [isReadableTag] at h
    split at h
    · next ns plain hsplit =>
      obtain ⟨hns, hplain⟩ := Bool.and_eq_true_iff.mp h
      obtain ⟨ns', plain', hparts, rfl⟩ := eq_expandedName_of_splitName hsplit
      obtain ⟨rfl, rfl⟩ : ns = ns' ∧ plain = plain' := by simpa using hparts
      exact .qualified (of_decide_eq_true hns) hplain
    · exact absurd h (by decide)
  · rintro ⟨hns, hplain⟩
    rw [isReadableTag, splitName_expandedName hns.brace]
    exact Bool.and_eq_true_iff.mpr ⟨decide_eq_true hns, hplain⟩

instance (name : String) : Decidable (IsReadableTag name) := decidable_of_iff _ isReadableTag_iff

theorem IsReadableKey.parts {ns plain : String} (h : IsReadableKey (expandedName ns plain))
    (hns : '\x7d' ∉ ns.toList) : IsNamespace ns ∧ isNCName plain.toList = true := by
  generalize hname : expandedName ns plain = name at h
  cases h with
  | plain h hxmlns =>
    have hhead : name.toList.head? = some '\x7b' := by
      rw [← hname]
      simp [expandedName, String.toList_append]
    exact absurd hhead (head?_ne_of_isNCName h)
  | qualified hns' hplain =>
    obtain ⟨rfl, rfl⟩ := expandedName_inj hns hns'.brace hname
    exact ⟨hns', hplain⟩

/-! ### Written start tags -/

theorem isWrittenName_of_isNCName {cs : List Char} (h : isNCName cs = true) :
    isWrittenName cs = true := by
  cases cs with
  | nil => exact absurd h (by decide)
  | cons c cs =>
    obtain ⟨hc, hcs⟩ := Bool.and_eq_true_iff.mp h
    rw [isWrittenName, isWrittenNameStart, hc, Bool.or_true, Bool.true_and, List.all_eq_true]
    intro d hd
    rw [isWrittenNamePart, List.all_eq_true.mp hcs d hd, Bool.or_true]

theorem isWrittenName_append {cs ds : List Char} (hcs : isNCName cs = true)
    (hds : isNCName ds = true) : isWrittenName (cs ++ ':' :: ds) = true := by
  have hpart : ∀ {es : List Char}, isNCName es = true → es.all isWrittenNamePart = true := by
    intro es hes
    refine List.all_eq_true.mpr fun c hc ↦ ?_
    rw [isWrittenNamePart, isNamePart_of_isNCName hes c hc, Bool.or_true]
  obtain ⟨c, cs, rfl⟩ : ∃ c cs', cs = c :: cs' :=
    List.exists_cons_of_ne_nil (by rintro rfl; exact absurd hcs (by decide))
  have hc := (Bool.and_eq_true_iff.mp hcs).1
  have hall : cs.all isWrittenNamePart = true := by
    have := hpart hcs
    rw [List.all_cons, Bool.and_eq_true_iff] at this
    exact this.2
  rw [List.cons_append, isWrittenName, isWrittenNameStart, hc, Bool.or_true, Bool.true_and,
    List.all_append, hall, Bool.true_and, List.all_cons, hpart hds, Bool.and_true]
  rfl

/-- A local name with a prefix, or none, is a name. -/
theorem isQName_joinName {pre plain : String} (hpre : pre = "" ∨ isNCName pre.toList = true)
    (hplain : isNCName plain.toList = true) :
    isQName (joinName pre plain) = true ∧ isWrittenName (joinName pre plain).toList = true := by
  have hcolon := colon_not_mem_of_isNCName hplain
  rcases hpre with rfl | hpre
  · refine ⟨?_, isWrittenName_of_isNCName hplain⟩
    rw [isQName, splitPrefix_joinName List.not_mem_nil hcolon]
    exact hplain
  · have hempty := isEmpty_of_isNCName hpre
    have hjoin : (joinName pre plain).toList = pre.toList ++ ':' :: plain.toList := by
      simp [joinName, hempty, String.toList_append]
    rw [isQName, splitPrefix_joinName (colon_not_mem_of_isNCName hpre) hcolon, hjoin]
    exact ⟨by simp [hempty, hpre, hplain], isWrittenName_append hpre hplain⟩

theorem isQName_declarationName {pre : String} (hpre : pre = "" ∨ isNCName pre.toList = true) :
    isQName (declarationName pre) = true ∧ isWrittenName (declarationName pre).toList = true := by
  rcases hpre with rfl | hpre
  · decide +kernel
  · have hjoin : declarationName pre = joinName "xmlns" pre := by
      rw [declarationName, isEmpty_of_isNCName hpre]
      rfl
    rw [hjoin]
    exact isQName_joinName (.inr (by decide +kernel)) hpre

variable {w : Writer} {K : Prop} {x x' : Element} {outer : Bindings} {st : Naming}
  {written : List (String × String)}

/-- What a written name resolves to is among the resolved names. -/
theorem mem_of_resolveAttributes {bindings : Bindings} {attributes : List (String × String)}
    {name name' : String} (h : resolveAttributes bindings written = some attributes)
    (hnone : ∀ a ∈ written, declaredPrefix? a.1 = none)
    (hname : resolveAttributeName bindings name = some name')
    (hmem : name ∈ written.map Prod.fst) : name' ∈ attributes.map Prod.fst := by
  induction written generalizing attributes with
  | nil => exact absurd hmem List.not_mem_nil
  | cons a rest ih =>
    obtain ⟨hfirst, hrest⟩ := List.forall_mem_cons.mp hnone
    obtain ⟨key, rest', hkey, hresolve, rfl⟩ := resolveAttributes_cons_eq_some hfirst h
    rw [List.map_cons, List.mem_cons] at hmem ⊢
    rcases hmem with rfl | hmem
    · exact .inl (Option.some.inj (hname.symm.trans hkey))
    · exact .inr (ih hresolve hrest hmem)

/-- Attributes whose names resolve to different ones have different names. -/
theorem nodup_of_resolveAttributes {bindings : Bindings} {attributes : List (String × String)}
    (h : resolveAttributes bindings written = some attributes)
    (hnone : ∀ a ∈ written, declaredPrefix? a.1 = none)
    (hnodup : (attributes.map Prod.fst).Nodup) : (written.map Prod.fst).Nodup := by
  induction written generalizing attributes with
  | nil => exact List.nodup_nil
  | cons a rest ih =>
    obtain ⟨hfirst, hrest⟩ := List.forall_mem_cons.mp hnone
    obtain ⟨key, rest', hkey, hresolve, rfl⟩ := resolveAttributes_cons_eq_some hfirst h
    obtain ⟨hnew, hnodup'⟩ := List.nodup_cons.mp hnodup
    exact List.nodup_cons.mpr
      ⟨fun hold ↦ hnew (mem_of_resolveAttributes hresolve hrest hkey hold),
        ih hresolve hrest hnodup'⟩

namespace StartTag

theorem prefix_isName (hw : w.IsProper) (h : StartTag w K outer st x x' written) {ns pre : String}
    (hknows : st.Knows ns pre) : pre = "" ∨ isNCName pre.toList = true :=
  (h.follows.isName hw hknows).imp_right And.left

/-- The declared namespaces are namespaces. -/
theorem isNamespace (h : StartTag w K outer st x x' written) (hx : x.IsReadable) :
    ∀ d ∈ st.declared, IsNamespace d.1 := by
  intro d hd
  rcases h.declared d hd with ⟨plain, htag, hns⟩ | ⟨a, ha, plain, hkey, hns⟩
  · exact ((htag ▸ hx.tag).parts hns).1
  · exact ((hkey ▸ hx.keys a ha).parts hns).1

theorem isQName_tag (hw : w.IsProper) (h : StartTag w K outer st x x' written) (hx : x.IsReadable) :
    isQName x'.tag = true ∧ isWrittenName x'.tag.toList = true := by
  obtain ⟨ns, plain, pre, htag, hns, hknows, htag'⟩ := h.tag
  rw [htag']
  exact isQName_joinName (h.prefix_isName hw hknows) ((htag ▸ hx.tag).parts hns).2

theorem isQName_key (hw : w.IsProper) (h : StartTag w K outer st x x' written) (hx : x.IsReadable) :
    ∀ a' ∈ written, isQName a'.1 = true ∧ isWrittenName a'.1.toList = true := by
  have hkey : ∀ {name name' : String}, StandsFor st name name' → IsReadableKey name →
      isQName name' = true ∧ isWrittenName name'.toList = true := by
    intro name name' hstands hname
    cases hstands with
    | plain hbrace =>
      cases hname with
      | plain h hxmlns => exact isQName_joinName (.inl rfl) h
      | qualified hns hplain => exact absurd (by simp [expandedName, String.toList_append]) hbrace
    | qualified hns hknows =>
      exact isQName_joinName (h.prefix_isName hw hknows) (hname.parts hns).2
  intro a' ha'
  obtain ⟨a, ha, hstands, -⟩ := h.keys a' ha'
  exact hkey hstands (hx.keys a ha)

/-- What a start tag declares may be declared. -/
theorem isLegalBinding (hw : w.IsProper) (h : StartTag w K outer st x x' written)
    (hx : x.IsReadable) : ∀ d ∈ st.declared, isLegalBinding d.2 d.1 = true := by
  intro d hd
  have hns := h.isNamespace hx d hd
  have hscope := h.follows.declared d hd
  have hreserved : d.1 ≠ xmlNamespace := by
    intro heq
    rw [heq, h.follows.agrees.isReserved] at hscope
    exact absurd hscope (by simp)
  have hxml : d.2 ≠ "xml" := by
    intro heq
    have hlookup := h.follows.agrees.lookup hscope
    rw [heq, h.follows.agrees.reserved, Option.some.injEq] at hlookup
    exact hreserved hlookup.symm
  have hxmlns : d.2 ≠ "xmlns" := by
    rcases h.follows.isName hw (.inl hscope) with hempty | ⟨-, hxmlns⟩
    · rw [hempty]
      decide
    · exact hxmlns
  rw [Xml.isLegalBinding, beq_eq_false_iff_ne.mpr hxml, beq_eq_false_iff_ne.mpr hreserved]
  simp [hxmlns, hns.isDeclarable, String.isEmpty_iff, hns.ne, hns.brace]

/-- No two attributes of a written start tag have one name. -/
theorem nodup_keys (hK : K) (h : StartTag w K outer st x x' written) (hx : x.IsReadable) :
    (x'.attributes.map Prod.fst).Nodup := by
  obtain ⟨hnone, hresolve⟩ := h.resolve hK
  have hdeclared : (declarationAttributes st.declared).map Prod.fst =
      (st.declared.map Prod.snd).map declarationName := by
    rw [declarationAttributes, List.map_map, List.map_map]
    rfl
  have hinj : ∀ pre pre' : String, pre ≠ pre' → declarationName pre ≠ declarationName pre' := by
    intro pre pre' hne heq
    have := congrArg declaredPrefix? heq
    rw [declaredPrefix?_declarationName, declaredPrefix?_declarationName] at this
    exact hne (Option.some.inj this)
  rw [h.attributes, List.map_append, hdeclared, List.nodup_append]
  refine ⟨nodup_of_resolveAttributes hresolve hnone hx.nodup,
    List.Pairwise.map declarationName hinj h.follows.nodup, fun key hkey key' hkey' ↦ ?_⟩
  rintro rfl
  -- an attribute with the name of a declaration would declare a prefix
  obtain ⟨a, ha, rfl⟩ := List.mem_map.mp hkey
  obtain ⟨pre, -, hpre⟩ := List.mem_map.mp hkey'
  have := hnone a ha
  rw [← hpre, declaredPrefix?_declarationName] at this
  exact absurd this (by simp)

/-- A written start tag has legal names and declarations. -/
theorem hasLegalNames (hw : w.IsProper) (hK : K) (h : StartTag w K outer st x x' written)
    (hx : x.IsReadable) : hasLegalNames x' = true := by
  refine Bool.and_eq_true_iff.mpr ⟨(h.isQName_tag hw hx).1, List.all_eq_true.mpr fun a ha ↦ ?_⟩
  rw [h.attributes, List.mem_append] at ha
  rcases ha with ha | ha
  · rw [(h.isQName_key hw hx a ha).1, (h.resolve hK).1 a ha]
    rfl
  · obtain ⟨d, hd, rfl⟩ := List.mem_map.mp ha
    have hname := h.prefix_isName hw (.inl (h.follows.declared d hd))
    rw [(isQName_declarationName hname).1, declaredPrefix?_declarationName]
    exact h.isLegalBinding hw hx d hd

/-- A written start tag may be written. -/
theorem isWritable (hw : w.IsProper) (hK : K) (h : StartTag w K outer st x x' written)
    (hx : x.IsReadable) : x'.IsWritable := by
  refine ⟨⟨(h.isQName_tag hw hx).2, fun a ha ↦ ?_⟩, h.nodup_keys hK hx, fun a ha ↦ ?_, ?_⟩
  · rw [h.attributes, List.mem_append] at ha
    rcases ha with ha | ha
    · exact (h.isQName_key hw hx a ha).2
    · obtain ⟨d, hd, rfl⟩ := List.mem_map.mp ha
      exact (isQName_declarationName (h.prefix_isName hw (.inl (h.follows.declared d hd)))).2
  · rw [h.attributes, List.mem_append] at ha
    rcases ha with ha | ha
    · obtain ⟨b, hb, -, hvalue⟩ := h.keys a ha
      rw [hvalue]
      exact hx.values b hb
    · obtain ⟨d, hd, rfl⟩ := List.mem_map.mp ha
      exact (h.isNamespace hx d hd).chars
  · rw [Element.ownText, h.text]
    exact hx.text

end StartTag

/-! ### Reading back -/

variable {e : Element}

/-- What is known of the markup of a tree that a reader may give. -/
theorem Writes.isReadable {m : Markup} (hwrites : Writes w ∅ e m) (hw : w.IsProper)
    (he : ∀ x ∈ e.nodes, x.IsReadable)
    (hkeeps : e.keepsAttributes w.defaultNamespace none = true) :
    m.written.resolve outerBindings = some e.plain ∧
      ∀ x' ∈ m.written.nodes, x'.IsWritable ∧ hasLegalNames x' = true := by
  have hnames : ∀ x ∈ e.nodes, x.IsNamed := fun x hx ↦ (he x hx).isNamed
  refine ⟨?_, fun x' hx' ↦ ?_⟩
  · exact (hwrites.resolve_iff hw outerBindings none e m ∅ hnames (.empty w)
      (tracks_empty w)).mpr hkeeps
  · obtain ⟨x, hx, hfor⟩ := Writes.nodes hw True outerBindings none e m ∅ hwrites hnames
      (.empty w) (tracks_empty w) (fun _ ↦ hkeeps) x' hx'
    obtain ⟨outer, st, written, hstart⟩ := hfor.startTag hw (hnames x hx)
    exact ⟨hstart.isWritable hw trivial (he x hx), hstart.hasLegalNames hw trivial (he x hx)⟩

/-- A tree that a reader may give is written. -/
theorem exists_readable_markup (hw : w.IsProper) (he : ∀ x ∈ e.nodes, x.IsReadable)
    (hkeeps : e.keepsAttributes w.defaultNamespace none = true) :
    ∃ m : Markup, m.written.resolve outerBindings = some e.plain ∧
      (∀ x' ∈ m.written.nodes, x'.IsWritable ∧ hasLegalNames x' = true) ∧
      ∀ indent, (w.writeElement e indent).1 =
        .ok (clean (String.ofList (m.render (Writer.indentation indent) 0))) := by
  obtain ⟨m, hwrites, houtput⟩ := exists_writes hw.oddities fun x hx ↦ (he x hx).canBeWritten
  obtain ⟨hresolve, hnodes⟩ := hwrites.isReadable hw he hkeeps
  exact ⟨m, hresolve, hnodes, houtput⟩

/-- What a reader makes of the names in markup does not depend on how it is laid out. -/
theorem read_of_readWritten {m : Markup} (he : ∀ x ∈ e.nodes, x.IsReadable)
    (hresolve : m.written.resolve outerBindings = some e.plain)
    (hlegal : ∀ x' ∈ m.written.nodes, hasLegalNames x' = true) {s : String} {indent : Option Nat}
    (hs : readWritten s = some (m.written.layout indent 0)) :
    read s = some (e.layout indent 0) := by
  have hnames : (m.written.layout indent 0).nodes.all hasLegalNames = true := by
    refine List.all_eq_true.mpr fun y hy ↦ ?_
    obtain ⟨x, hx, htag, hattributes⟩ := Element.exists_of_mem_nodes_layout 0 m.written y hy
    rw [hasLegalNames, htag, hattributes]
    exact hlegal x hx
  have hlayout := @Element.resolve_layout indent 0 outerBindings m.written e.plain hresolve
  rw [Element.layout_plain] at hlayout
  have hnodup : ∀ y ∈ (e.layout indent 0).nodes, (y.attributes.map Prod.fst).Nodup := by
    intro y hy
    obtain ⟨x, hx, -, hattributes⟩ := Element.exists_of_mem_nodes_layout 0 e y hy
    rw [hattributes]
    exact (he x hx).nodup
  rw [read, hs]
  simp only [Option.bind_eq_bind, Option.bind_some, hnames, if_true, hlayout]
  rw [if_pos hnodup]

/-- A tree that a reader may give is read back as it is laid out. -/
theorem read_writeElement (hw : w.IsProper) (he : ∀ x ∈ e.nodes, x.IsReadable)
    (hkeeps : e.keepsAttributes w.defaultNamespace none = true) (indent : Int) :
    ∃ s, (w.writeElement e indent).1 = .ok s ∧
      read s = some (e.layout (Writer.indentation indent) 0) := by
  obtain ⟨m, hresolve, hnodes, houtput⟩ := exists_readable_markup hw he hkeeps
  refine ⟨_, houtput indent, read_of_readWritten he hresolve (fun x' hx' ↦ (hnodes x' hx').2) ?_⟩
  have hplain := @isPlain_render (Writer.indentation indent) 0 m fun x' hx' ↦ (hnodes x' hx').1
  have hs : (clean (String.ofList (m.render (Writer.indentation indent) 0))).toList =
      [] ++ [] ++ m.render (Writer.indentation indent) 0 ++ [] := by
    rw [clean_of_isPlain hplain]
    simp
  exact readWritten_of_toList (fun x' hx' ↦ (hnodes x' hx').1) ⟨.inl ⟨rfl, rfl⟩, by simp⟩ hs

/-- What stands before and after the element on its lines in a document. -/
def lineBreaks (indent : Int) : List Char := if indent < 0 then [] else ['\n']

theorem isFrame_lineBreaks (indent : Int) : IsFrame declaration (lineBreaks indent) := by
  refine ⟨.inr rfl, fun c hc ↦ ?_⟩
  rw [lineBreaks] at hc
  split at hc
  · exact absurd hc List.not_mem_nil
  · exact List.mem_singleton.mp hc

theorem writeDocument_eq (w : Writer) (e : Element) (indent : Int) (encoding : String) :
    (w.writeDocument e indent encoding).1 = (w.writeElement e indent).1.map fun s ↦
      "<?xml version='1.0' encoding='" ++ encoding ++ "'?>" ++ (if indent < 0 then "" else "\n") ++
        s ++ (if indent < 0 then "" else "\n") := rfl

/-- A document is a declaration and an element. -/
theorem exists_writeDocument {w : Writer} {e : Element} {indent : Int} {s : String}
    (h : (w.writeElement e indent).1 = .ok s) :
    ∃ document, (w.writeDocument e indent "utf-8").1 = .ok document ∧
      document.toList = declaration ++ lineBreaks indent ++ s.toList ++ lineBreaks indent := by
  have hbreaks : (if indent < 0 then "" else "\n").toList = lineBreaks indent := by
    rw [lineBreaks]
    split <;> rfl
  rw [writeDocument_eq, h]
  refine ⟨_, rfl, ?_⟩
  rw [String.toList_append, String.toList_append, String.toList_append, hbreaks]
  rfl

/-- A document is written just when all of its tree can be. -/
theorem exists_writeDocument_iff {w : Writer} (hw : w.oddities = []) {e : Element} {indent : Int} :
    (∃ s, (w.writeDocument e indent "utf-8").1 = .ok s) ↔ ∀ x ∈ e.nodes, x.CanBeWritten := by
  constructor
  · rintro ⟨s, h⟩
    cases helement : (w.writeElement e indent).1 with
    | error f =>
      rw [writeDocument_eq, helement] at h
      cases h
    | ok element => exact canBeWritten_of_writeElement helement
  · intro h
    obtain ⟨m, -, houtput⟩ := exists_writes hw h
    obtain ⟨document, hdocument, -⟩ := exists_writeDocument (houtput indent)
    exact ⟨document, hdocument⟩

/-- A document around such a tree is read as the tree. -/
theorem read_writeDocument (hw : w.IsProper) (he : ∀ x ∈ e.nodes, x.IsReadable)
    (hkeeps : e.keepsAttributes w.defaultNamespace none = true) (indent : Int) :
    ∃ s, (w.writeDocument e indent "utf-8").1 = .ok s ∧
      read s = some (e.layout (Writer.indentation indent) 0) := by
  obtain ⟨m, hresolve, hnodes, houtput⟩ := exists_readable_markup hw he hkeeps
  have hwritable := fun x' hx' ↦ (hnodes x' hx').1
  obtain ⟨document, hdocument, hs⟩ := exists_writeDocument (houtput indent)
  rw [clean_of_isPlain (isPlain_render 0 m hwritable)] at hs
  exact ⟨document, hdocument, read_of_readWritten he hresolve (fun x' hx' ↦ (hnodes x' hx').2)
    (readWritten_of_toList hwritable (isFrame_lineBreaks indent) hs)⟩

/-! ### Registered prefixes -/

/-- A prefix that may be registered. -/
def IsPrefix (pre : String) : Prop := isNCName pre.toList = true ∧ pre ≠ "xml" ∧ pre ≠ "xmlns"

theorem Writer.IsProper.addPrefix (hw : w.IsProper) {ns pre : String} (hpre : IsPrefix pre)
    (hnew : ∀ ns', w.prefixes.get? ns' ≠ some pre) :
    Writer.IsProper { w with prefixes := w.prefixes.insert ns pre } := by
  refine ⟨hw.oddities, fun {ns₁ ns₂ pre'} h₁ h₂ ↦ ?_, fun {ns' pre'} h hns ↦ ?_⟩
  · by_cases hns₁ : ns₁ = ns
    · subst hns₁
      by_cases hns₂ : ns₂ = ns₁
      · exact hns₂.symm
      · rw [OrderedMap.get?_insert_self] at h₁
        rw [OrderedMap.get?_insert_of_ne hns₂] at h₂
        exact absurd (h₂.trans h₁.symm) (hnew ns₂)
    · rw [OrderedMap.get?_insert_of_ne hns₁] at h₁
      by_cases hns₂ : ns₂ = ns
      · subst hns₂
        rw [OrderedMap.get?_insert_self] at h₂
        exact absurd (h₁.trans h₂.symm) (hnew ns₁)
      · rw [OrderedMap.get?_insert_of_ne hns₂] at h₂
        exact hw.injective h₁ h₂
  · by_cases hns' : ns' = ns
    · subst hns'
      rw [OrderedMap.get?_insert_self] at h
      exact Option.some.inj h ▸ hpre
    · rw [OrderedMap.get?_insert_of_ne hns'] at h
      exact hw.isName h hns

theorem exists_foldlM_addPrefix {prefixes : List (String × String)} (hw : w.IsProper)
    (hname : ∀ p ∈ prefixes, IsPrefix p.2) (hnodup : (prefixes.map Prod.snd).Nodup)
    (hnew : ∀ p ∈ prefixes, ∀ ns, w.prefixes.get? ns ≠ some p.2) :
    ∃ w', prefixes.foldlM (fun w p ↦ w.addPrefix p.1 p.2) w = Except.ok w' ∧ w'.IsProper ∧
      w'.defaultNamespace = w.defaultNamespace := by
  induction prefixes generalizing w with
  | nil => exact ⟨w, rfl, hw, rfl⟩
  | cons p rest ih =>
    obtain ⟨hpre, hrest⟩ := List.forall_mem_cons.mp hname
    obtain ⟨hother, hnodup⟩ := List.nodup_cons.mp hnodup
    obtain ⟨hp, hnewRest⟩ := List.forall_mem_cons.mp hnew
    have hadd : w.addPrefix p.1 p.2 = .ok { w with prefixes := w.prefixes.insert p.1 p.2 } :=
      if_neg fun h ↦ hpre.2.1 h.1
    -- a registered prefix is not among those that follow, so they are all still free
    obtain ⟨w', hfold, hw', hdefault⟩ := ih (hw.addPrefix hpre hp) hrest hnodup <| by
      intro q hq ns h
      by_cases hns : ns = p.1
      · rw [hns, OrderedMap.get?_insert_self, Option.some.injEq] at h
        exact hother (h ▸ List.mem_map_of_mem hq)
      · rw [OrderedMap.get?_insert_of_ne hns] at h
        exact hnewRest q hq ns h
    refine ⟨w', ?_, hw', hdefault⟩
    rw [List.foldlM_cons, hadd]
    exact hfold

/-- A writer with registered prefixes of which no two are the same is proper, whatever it has
written before. -/
theorem exists_withPrefixes (d : Option String) {prefixes : List (String × String)}
    (hname : ∀ p ∈ prefixes, IsPrefix p.2) (hnodup : (prefixes.map Prod.snd).Nodup) (n : Nat) :
    ∃ w, Writer.withPrefixes d prefixes = .ok w ∧ w.defaultNamespace = d ∧
      Writer.IsProper { w with nextNumber := n } := by
  obtain ⟨w, hfold, hw, hdefault⟩ := exists_foldlM_addPrefix (Writer.IsProper.new d 1) hname hnodup
    fun p hp ns h ↦ (hname p hp).2.1 (get?_new.mp h).2
  exact ⟨w, hfold, hdefault, hw.oddities, hw.injective, hw.isName⟩

/-! ### Whole trees -/

namespace Element

variable {d : Option String}

mutual

/-- Attributes keep the default namespace where none is in it. -/
theorem keepsAttributes_of_forall (met : Option Bool) :
    ∀ e : Element, (∀ x ∈ e.nodes, ∀ a ∈ x.attributes, isInDefault d a.1 = false) →
      e.keepsAttributes d met = true
  | ⟨tag, attributes, text, tail, children⟩, h => by
    have hattributes : ∀ a ∈ attributes, isInDefault d a.1 = false := h _ List.mem_cons_self
    have hany : attributes.any (fun a ↦ isInDefault d a.1) = false :=
      List.any_eq_false.mpr fun a ha ↦ by simp [hattributes a ha]
    exact keepsAttributes_iff.mpr ⟨fun _ ↦ hany,
      keepsAllAttributes_of_forall _ children fun x hx ↦ h x (List.mem_cons_of_mem _ hx)⟩

theorem keepsAllAttributes_of_forall (met : Option Bool) :
    ∀ es : List Element, (∀ x ∈ nodesAll es, ∀ a ∈ x.attributes, isInDefault d a.1 = false) →
      keepsAllAttributes d met es = true
  | [], _ => rfl
  | e :: rest, h => by
    rw [keepsAllAttributes, Bool.and_eq_true_iff]
    exact ⟨keepsAttributes_of_forall met e fun x hx ↦ h x (List.mem_append_left _ hx),
      keepsAllAttributes_of_forall met rest fun x hx ↦ h x (List.mem_append_right _ hx)⟩

end

/-- An element as a parser gives it, with no carriage return in its text: a text that is there is
not empty. -/
structure IsParsed (x : Element) : Prop extends x.IsReadable where
  notEmpty : x.text = .null ∨ ∃ s, s ≠ "" ∧ x.text = .text s

end Element

/-- A tree that a parser gives is written and read back as it was, texts after elements apart: by
every writer that has a name registered for each of any namespaces, no name twice, whatever it has
written before. -/
theorem read_writeElement_withPrefixes (d : Option String) (prefixes : List (String × String))
    (hname : ∀ p ∈ prefixes, IsPrefix p.2) (hnodup : (prefixes.map Prod.snd).Nodup) (n : Nat)
    (e : Element) (he : ∀ x ∈ e.nodes, x.IsParsed)
    (hdefault : ∀ x ∈ e.nodes, ∀ a ∈ x.attributes, isInDefault d a.1 = false) :
    ∃ w s, Writer.withPrefixes d prefixes = .ok w ∧
      (Writer.writeElement { w with nextNumber := n } e (-1)).1 = .ok s ∧
      read s = some e.withoutTails := by
  obtain ⟨w, hwith, rfl, hw⟩ := exists_withPrefixes d hname hnodup n
  have hkeeps := Element.keepsAttributes_of_forall none e hdefault
  obtain ⟨s, hwrite, hread⟩ := read_writeElement hw (fun x hx ↦ (he x hx).toIsReadable) hkeeps (-1)
  refine ⟨w, s, hwith, hwrite, ?_⟩
  rw [hread, show Writer.indentation (-1) = none from rfl,
    Element.layout_none 0 e fun x hx ↦ (he x hx).notEmpty]

/-- A tree with registered, new and reserved prefixes, and with characters to escape. -/
theorem read_writeElement_letter :
    let letter : Element :=
      ⟨expandedName "d" "letter", [("to", "a & b"), (expandedName "f" "k", "\"'\n")], .text "1 < 2",
        none, [⟨expandedName "g" "p", [(expandedName xmlNamespace "lang", "en")], .null, some " ",
          []⟩]⟩
    ∃ w s, Writer.withPrefixes (some "d") [("f", "pre")] = .ok w ∧
      (Writer.writeElement { w with nextNumber := 7 } letter (-1)).1 = .ok s ∧
      read s = some letter.withoutTails := by
  refine read_writeElement_withPrefixes (some "d") [("f", "pre")] ?_ (by decide) 7 _ ?_ ?_
  · intro p hp
    rw [List.mem_singleton.mp hp]
    exact ⟨by decide +kernel, by decide, by decide⟩
  · simp only [Element.nodes, Element.nodesAll, List.append_nil, List.forall_mem_cons,
      List.not_mem_nil, false_imp_iff, implies_true, and_true]
    refine ⟨⟨⟨.qualified (by decide +kernel) (by decide +kernel), ?_, by decide, by decide +kernel,
      ⟨_, rfl⟩, by decide +kernel⟩, .inr ⟨"1 < 2", by decide, rfl⟩⟩,
      ⟨⟨.qualified (by decide +kernel) (by decide +kernel), ?_, by decide, by decide +kernel,
      ⟨_, rfl⟩, by decide +kernel⟩, .inl rfl⟩⟩
    · simp only [List.forall_mem_cons, List.not_mem_nil, false_imp_iff, implies_true, and_true]
      exact ⟨.plain (by decide +kernel) (by decide),
        .qualified (by decide +kernel) (by decide +kernel)⟩
    · simp only [List.forall_mem_cons, List.not_mem_nil, false_imp_iff, implies_true, and_true]
      exact .qualified (by decide +kernel) (by decide +kernel)
  · decide +kernel

end ContactCard.Xml
