import ContactCard.Proofs.Xml.Tidy
import ContactCard.Proofs.Xml.Fidelity

/-!
# Names as they come out

Characters that XML does not allow are replaced wherever they stand, and so the names of a start tag
may come out as others than those in the markup. Where the names of the tree hold no such character,
prefixes may still do, since any text can be registered as one.

The markup with the names that come out (`Markup.cleanNames`) looks the same when it is written
(`clean_render_cleanNames`). It is what might have been written if the prefixes had been registered
as they come out (`Writes.cleaned`): a new prefix differs from a registered one as it stands just
when it differs from it as it comes out. Only the namespaces that need a registered prefix have to
keep it, which are those of elements and attributes other than the default one and that of XML
(`isForeign`).
-/

namespace ContactCard.Xml

open Text Markup

/-! ### Cleaned names -/

theorem clean_of_isAllowed {s : String} (h : IsAllowed s) : clean s = s := by
  rw [clean, map_allowedChar_of_isAllowed h, String.ofList_toList]

theorem isAllowed_clean (s : String) : IsAllowed (clean s) := by
  intro c hc
  rw [clean, String.toList_ofList] at hc
  obtain ⟨d, -, rfl⟩ := List.mem_map.mp hc
  cases hd : isForbidden d with
  | true =>
    rw [allowedChar_of_isForbidden hd]
    decide
  | false => rwa [allowedChar_of_not hd]

theorem map_allowedChar_clean (s : String) :
    (clean s).toList.map allowedChar = s.toList.map allowedChar := by
  rw [map_allowedChar_of_isAllowed (isAllowed_clean s), clean, String.toList_ofList]

theorem isEmpty_clean (s : String) : (clean s).isEmpty = s.isEmpty := by
  rw [Bool.eq_iff_iff, String.isEmpty_iff, String.isEmpty_iff, ← String.toList_inj,
    ← String.toList_inj, clean, String.toList_ofList]
  simp

/-- Nothing but a text itself comes out as the text, if it holds no replacement character. -/
theorem clean_eq_iff {s t : String} (ht : ∀ c ∈ t.toList, isForbidden c = false ∧ c ≠ '\ufffd') :
    clean s = t ↔ s = t := by
  have hchars : ∀ cs ds : List Char, (∀ c ∈ ds, isForbidden c = false ∧ c ≠ '\ufffd') →
      (cs.map allowedChar = ds ↔ cs = ds) := by
    intro cs
    induction cs with
    | nil => simp
    | cons c cs ih =>
      rintro (_ | ⟨d, ds⟩) hds
      · simp
      · obtain ⟨hd, hrest⟩ := List.forall_mem_cons.mp hds
        rw [List.map_cons, List.cons.injEq, List.cons.injEq, allowedChar_eq_iff hd.1 hd.2,
          ih ds hrest]
  rw [← String.toList_inj, clean, String.toList_ofList, hchars _ _ ht, String.toList_inj]

theorem clean_joinName (pre plain : String) :
    clean (joinName pre plain) = joinName (clean pre) (clean plain) := by
  rw [joinName, joinName, isEmpty_clean]
  split
  · rfl
  · simp [clean, ← String.toList_inj, allowedChar, isForbidden]

theorem clean_declarationName (pre : String) :
    clean (declarationName pre) = declarationName (clean pre) := by
  rw [declarationName, declarationName, isEmpty_clean]
  split
  · decide
  · rw [← String.toList_inj]
    simp only [clean, String.toList_ofList, String.toList_append, List.map_append]
    rw [show "xmlns:".toList.map allowedChar = "xmlns:".toList by decide]

theorem clean_numberedPrefix_iff {s : String} {n : Nat} :
    clean s = numberedPrefix n ↔ s = numberedPrefix n := by
  refine clean_eq_iff fun c hc ↦ ⟨isAllowed_of_isNCName (isNCName_numberedPrefix n) c hc, ?_⟩
  rintro rfl
  have hcs : (numberedPrefix n).toList = 'n' :: 's' :: (toString n).toList := by
    simp [numberedPrefix, String.toList_append]
  have hdigit : '\ufffd' ∈ (toString n).toList := by simpa [hcs] using hc
  rw [Nat.toString_eq_ofList_toDigits, String.toList_ofList] at hdigit
  exact absurd (Nat.isDigit_of_mem_toDigits (by decide) (by decide) hdigit) (by decide)

/-! ### Markup -/

namespace Markup

mutual

/-- The markup with the names that come out. -/
def cleanNames : Markup → Markup
  | ⟨name, attributes, declarations, text, children⟩ =>
    ⟨clean name, attributes.map fun a ↦ (clean a.1, a.2),
      declarations.map fun d ↦ (d.1, clean d.2), text, cleanNamesAll children⟩

def cleanNamesAll : List Markup → List Markup
  | [] => []
  | m :: rest => cleanNames m :: cleanNamesAll rest

end

variable {indent : Option Nat}

theorem map_allowedChar_renderStart (name : String)
    (attributes declarations : List (String × String)) :
    (renderStart (clean name) (attributes.map fun a ↦ (clean a.1, a.2))
      (declarations.map fun d ↦ (d.1, clean d.2))).map allowedChar =
    (renderStart name attributes declarations).map allowedChar := by
  have hpair : ∀ (name : String) (value : String),
      (renderPair (clean name).toList value).map allowedChar =
        (renderPair name.toList value).map allowedChar := by
    intro name value
    simp only [renderPair, List.map_cons, List.map_append, map_allowedChar_clean]
  rw [renderStart_eq, renderStart_eq]
  simp only [List.map_cons, List.map_append, map_allowedChar_clean, List.map_flatMap,
    List.flatMap_append, List.flatMap_map, ← clean_declarationName, hpair]

mutual

theorem map_allowedChar_render : ∀ (m : Markup) (level : Nat),
    (render indent level m.cleanNames).map allowedChar = (render indent level m).map allowedChar
  | ⟨name, attributes, declarations, text, []⟩, level => by
    have hstart := map_allowedChar_renderStart name attributes declarations
    rw [cleanNames, cleanNamesAll, render, render]
    split
    · rw [List.map_append, List.map_append, hstart]
    · simp only [List.map_append, List.map_cons, hstart, map_allowedChar_clean]
  | ⟨name, attributes, declarations, text, child :: rest⟩, level => by
    have hstart := map_allowedChar_renderStart name attributes declarations
    have hall := map_allowedChar_renderAll (child :: rest) level
    rw [cleanNames, cleanNamesAll, render_of_children, render_of_children, ← cleanNamesAll]
    simp only [List.map_append, List.map_cons, hstart, hall, map_allowedChar_clean]

theorem map_allowedChar_renderAll : ∀ (ms : List Markup) (level : Nat),
    (renderAll indent level (cleanNamesAll ms)).map allowedChar =
      (renderAll indent level ms).map allowedChar
  | [], level => rfl
  | m :: rest, level => by
    rw [cleanNamesAll, renderAll_cons, renderAll_cons, List.map_append, List.map_append,
      List.map_append, List.map_append, map_allowedChar_render m,
      map_allowedChar_renderAll rest level]

end

/-- Nothing else is written for the markup with the names that come out. -/
theorem clean_render_cleanNames (m : Markup) (indent : Option Nat) (level : Nat) :
    clean (String.ofList (m.cleanNames.render indent level)) =
      clean (String.ofList (m.render indent level)) := by
  rw [clean, clean, String.toList_ofList, String.toList_ofList, map_allowedChar_render]

end Markup

/-! ### Registered prefixes as they come out -/

/-- Whether a prefix that is registered for the namespace may be written. -/
def isForeign (d : Option String) (ns : String) : Bool :=
  d != some ns && ns != xmlNamespace && !ns.toList.contains '\x7d' &&
    ns.toList.all fun c ↦ !isForbidden c

/-- The table with the prefixes as they come out. -/
def PrefixTable.cleaned (t : PrefixTable) : PrefixTable := ⟨t.entries.map fun e ↦ (e.1, clean e.2)⟩

/-- The naming with the prefixes as they come out. -/
def Naming.cleaned (st : Naming) : Naming :=
  ⟨PrefixTable.cleaned st.scope, st.declared.map fun d ↦ (d.1, clean d.2)⟩

/-- The writer with those prefixes registered that may be written, as they come out. -/
def Writer.cleaned (w : Writer) : Writer :=
  { w with prefixes :=
      PrefixTable.cleaned ⟨w.prefixes.entries.filter fun e ↦ isForeign w.defaultNamespace e.1⟩ }

variable {w : Writer} {isElement : Bool} {st st' : Naming} {ns pre plain : String}
  {d : Option String}

theorem isForeign_iff : isForeign d ns = true ↔
    d ≠ some ns ∧ ns ≠ xmlNamespace ∧ '\x7d' ∉ ns.toList ∧ IsAllowed ns := by
  simp [isForeign, IsAllowed, and_assoc]

theorem get?_cleaned (t : PrefixTable) (ns : String) :
    (PrefixTable.cleaned t).get? ns = (t.get? ns).map clean := OrderedMap.get?_mapValues clean t ns

theorem cleaned_insert (t : PrefixTable) (ns pre : String) :
    PrefixTable.cleaned (t.insert ns pre) = (PrefixTable.cleaned t).insert ns (clean pre) :=
  OrderedMap.mapValues_insert clean t ns pre

theorem cleaned_declare (st : Naming) (ns pre : String) :
    (st.declare ns pre).cleaned = st.cleaned.declare ns (clean pre) := by
  show (⟨PrefixTable.cleaned (st.scope.insert ns pre), (st.declared ++ [(ns, pre)]).map _⟩ :
      Naming) =
    ⟨(PrefixTable.cleaned st.scope).insert ns (clean pre), st.declared.map _ ++ [(ns, clean pre)]⟩
  rw [cleaned_insert, List.map_append]
  rfl

theorem get?_prefixes_cleaned (w : Writer) (ns : String) : w.cleaned.prefixes.get? ns =
    if isForeign w.defaultNamespace ns then (w.prefixes.get? ns).map clean else none := by
  have hfilter (entries : List (String × String)) :
      (entries.filter fun e ↦ isForeign w.defaultNamespace e.1).lookup ns =
        if isForeign w.defaultNamespace ns then entries.lookup ns else none := by
    induction entries with
    | nil => simp
    | cons e rest ih =>
      obtain ⟨key, pre⟩ := e
      rw [List.filter_cons, List.lookup_cons]
      by_cases hns : ns = key
      · subst hns
        split
        · simp
        · next hforeign => rw [ih, if_neg hforeign]
      · have hne : (ns == key) = false := by simpa using hns
        rw [hne]
        split
        · rw [List.lookup_cons, hne, ih]
        · exact ih
  show (PrefixTable.cleaned ⟨_⟩).get? ns = _
  rw [get?_cleaned]
  show (List.lookup ns (w.prefixes.entries.filter _)).map clean = _
  rw [hfilter]
  split <;> rfl

theorem mem_values_cleaned {t : PrefixTable} (h : pre ∈ (PrefixTable.cleaned t).values) :
    ∃ pre' ∈ t.values, pre = clean pre' := by
  rw [show (PrefixTable.cleaned t).values = _ from OrderedMap.values_mapValues clean t] at h
  obtain ⟨pre', hpre', rfl⟩ := List.mem_map.mp h
  exact ⟨pre', hpre', rfl⟩

/-! ### What might have been written -/

/-- A prefix comes out as it might have been chosen if those that may be written had been registered
as they come out. -/
theorem Chooses.cleaned (h : Chooses w isElement st ns pre st')
    (hns : ns = xmlNamespace ∨ isElement = true ∧ w.defaultNamespace = some ns ∨
      isForeign w.defaultNamespace ns = true) :
    Chooses w.cleaned isElement st.cleaned ns (clean pre) st'.cleaned := by
  have hnone (hscope : st.scope.get? ns = none) : st.cleaned.scope.get? ns = none := by
    show (PrefixTable.cleaned st.scope).get? ns = none
    rw [get?_cleaned, hscope]
    rfl
  cases h with
  | inScope h =>
    refine .inScope ?_
    show (PrefixTable.cleaned st.scope).get? ns = some (clean pre)
    rw [get?_cleaned, h]
    rfl
  | reserved hscope h =>
    rw [show clean "xml" = "xml" by decide]
    exact .reserved (hnone hscope) h
  | default hscope hxml he h =>
    rw [cleaned_declare, show clean "" = "" by decide]
    exact .default (hnone hscope) hxml he h
  | registered hscope hxml hdefault h =>
    have hforeign := (hns.resolve_left hxml).resolve_left hdefault
    rw [cleaned_declare]
    refine .registered (hnone hscope) hxml hdefault ?_
    rw [get?_prefixes_cleaned, if_pos hforeign, h]
    rfl
  | @new n hscope hxml hdefault h =>
    have hself : clean (numberedPrefix n) = numberedPrefix n := clean_numberedPrefix_iff.mpr rfl
    rw [List.mem_append, not_or] at h
    rw [cleaned_declare, hself]
    refine .new (hnone hscope) hxml hdefault ?_
    -- a new prefix is not what another one comes out as
    rw [List.mem_append, not_or]
    constructor
    · intro hmem
      obtain ⟨pre, hpre, heq⟩ := mem_values_cleaned hmem
      rw [clean_numberedPrefix_iff.mp heq.symm] at hpre
      obtain ⟨e, he, hpre⟩ := List.mem_map.mp hpre
      exact h.1 (List.mem_map.mpr ⟨e, (List.mem_filter.mp he).1, hpre⟩)
    · intro hmem
      obtain ⟨pre, hpre, heq⟩ := mem_values_cleaned hmem
      rw [clean_numberedPrefix_iff.mp heq.symm] at hpre
      exact h.2 hpre

theorem isForeign_cases (d : Option String) (hbrace : '\x7d' ∉ ns.toList) (hns : IsAllowed ns) :
    ns = xmlNamespace ∨ d = some ns ∨ isForeign d ns = true := by
  by_cases hxml : ns = xmlNamespace
  · exact .inl hxml
  by_cases hd : d = some ns
  · exact .inr (.inl hd)
  · exact .inr (.inr (isForeign_iff.mpr ⟨hd, hxml, hbrace, hns⟩))

theorem WritesName.cleaned_tag {tag name : String} (h : WritesName w true st tag name st')
    (htag : IsTagName tag) (hallowed : IsAllowed tag) :
    WritesName w.cleaned true st.cleaned tag (clean name) st'.cleaned := by
  obtain ⟨ns, plain, pre, rfl, -, hns, -, hpre, rfl⟩ := h.of_isTagName htag
  rw [clean_joinName, clean_of_isAllowed hallowed.plain]
  refine .qualified (splitName_expandedName hns true) (hpre.cleaned ?_)
  exact (isForeign_cases _ hns hallowed.namespace).imp_right fun h ↦ h.imp_left fun hd ↦ ⟨rfl, hd⟩

theorem WritesName.cleaned_key {key name : String} (h : WritesName w false st key name st')
    (hkey : IsAttributeName key) (hallowed : IsAllowed key)
    (hdefault : isInDefault w.defaultNamespace key = false) :
    WritesName w.cleaned false st.cleaned key (clean name) st'.cleaned := by
  rcases h.of_isAttributeName hkey with
    ⟨rfl, rfl, hbrace, -⟩ | ⟨ns, plain, pre, rfl, hns, -, hpre, rfl⟩
  · rw [clean_of_isAllowed hallowed]
    exact .plain (splitName_plain hbrace)
  · rw [clean_joinName, clean_of_isAllowed hallowed.plain]
    refine .qualified (splitName_expandedName hns false) (hpre.cleaned ?_)
    rw [isInDefault_expandedName hns] at hdefault
    rcases isForeign_cases w.defaultNamespace hns hallowed.namespace with hxml | hd | hforeign
    · exact .inl hxml
    · exact .inl (by simpa [hd] using hdefault)
    · exact .inr (.inr hforeign)

/-- An element whose names are names with namespaces and come out as they are, and that has no
attribute in the default namespace. -/
structure Element.IsOrdinary (d : Option String) (x : Element) : Prop where
  named : x.IsNamed
  allowed : x.HasAllowedNames
  notDefault : ∀ a ∈ x.attributes, isInDefault d a.1 = false
  text : ∃ s, writtenText x.text = .ok s

theorem Element.IsOrdinary.canBeWritten {x : Element} (h : x.IsOrdinary d) : x.CanBeWritten :=
  ⟨h.named.tag.canBeWritten, fun a ha ↦ (h.named.keys a ha).canBeWritten, h.text⟩

theorem WritesAttributes.cleaned {attributes written : List (String × String)}
    (h : WritesAttributes w st attributes written st')
    (hnames : ∀ a ∈ attributes, IsAttributeName a.1) (hallowed : ∀ a ∈ attributes, IsAllowed a.1)
    (hdefault : ∀ a ∈ attributes, isInDefault w.defaultNamespace a.1 = false) :
    WritesAttributes w.cleaned st.cleaned attributes (written.map fun a ↦ (clean a.1, a.2))
      st'.cleaned := by
  induction h with
  | nil st => exact .nil st.cleaned
  | cons hname hrest ih =>
    obtain ⟨hfirst, hnames⟩ := List.forall_mem_cons.mp hnames
    obtain ⟨hfirst', hallowed⟩ := List.forall_mem_cons.mp hallowed
    obtain ⟨hfirst'', hdefault⟩ := List.forall_mem_cons.mp hdefault
    exact .cons (hname.cleaned_key hfirst hfirst' hfirst'') (ih hnames hallowed hdefault)

mutual

/-- A tree comes out as it might have been written if the prefixes that may be written had been
registered as they come out. -/
theorem Writes.cleaned : ∀ (e : Element) (m : Markup) (scope : PrefixTable), Writes w scope e m →
    (∀ x ∈ e.nodes, x.IsOrdinary w.defaultNamespace) →
    Writes w.cleaned (PrefixTable.cleaned scope) e m.cleanNames
  | ⟨tag, attributes, text, tail, children⟩, _, scope, .element hname hattributes htext hchildren,
      he => by
    have hx := he _ List.mem_cons_self
    exact .element (hname.cleaned_tag hx.named.tag hx.allowed.tag)
      (hattributes.cleaned hx.named.keys hx.allowed.keys hx.notDefault) htext
      (WritesAll.cleaned children _ _ hchildren fun x hx ↦ he x (List.mem_cons_of_mem _ hx))

theorem WritesAll.cleaned : ∀ (es : List Element) (ms : List Markup) (scope : PrefixTable),
    WritesAll w scope es ms → (∀ x ∈ Element.nodesAll es, x.IsOrdinary w.defaultNamespace) →
    WritesAll w.cleaned (PrefixTable.cleaned scope) es (cleanNamesAll ms)
  | [], _, _, .nil _, _ => .nil _
  | e :: rest, _, scope, .cons hfirst hrest, he =>
    .cons (Writes.cleaned e _ scope hfirst fun x hx ↦ he x (List.mem_append_left _ hx))
      (WritesAll.cleaned rest _ scope hrest fun x hx ↦ he x (List.mem_append_right _ hx))

end

end ContactCard.Xml
