import ContactCard.Proofs.Codec.Projection
import ContactCard.Proofs.XCard.Composition
import Mathlib.Data.List.Count
import Mathlib.Data.List.Nodup

/-!
# Parameters in the elements of properties

The element of a property holds the prepared parameters of the property, other than VALUE, as its
first child, or no such child if there are none (`HoldsParameters`). Nothing is lost on the way:
they are read back from that child as they were, with all names and values in their order
(`ofElement?_toElement`). As a name stands only once among the parameters of a property, it has
exactly one element, and this has a value in it unless the name is bare (`Parameters.Encodes`).

The value is the only other child. It looks like one that holds parameters if its data type is named
after them, so this name is left out.
-/

namespace ContactCard

open Text Xml

/-! ### Reading parameters -/

namespace PropertyElement

/-- The local part of a name in the namespace of a version. -/
def unqualified? (v : Version) (tag : String) : Option String :=
  ((qualified v "").toList.isPrefixOf? tag.toList).map String.ofList

theorem unqualified?_qualified (v : Version) (name : String) :
    unqualified? v (qualified v name) = some name := by
  have hcs : (qualified v name).toList = (qualified v "").toList ++ name.toList := by
    simp [toList_qualified]
  have hprefix : ∀ cs rest : List Char, cs.isPrefixOf? (cs ++ rest) = some rest := by
    intro cs rest
    induction cs with
    | nil => rfl
    | cons c cs ih => simp [List.isPrefixOf?, ih]
  rw [unqualified?, hcs, hprefix, Option.map_some, String.ofList_toList]

end PropertyElement

namespace Parameters

/-- The name and the values that the element of one parameter holds. -/
def entryOf? (v : Version) (x : Element) : Option (String × List String) :=
  (PropertyElement.unqualified? v x.tag).map fun name ↦ (name, x.children.map Element.ownText)

/-- The parameters that an element of parameters holds. -/
def ofElement? (v : Version) (x : Element) : Option Parameters :=
  if x.tag = PropertyElement.qualified v "parameters" then
    (x.children.mapM (entryOf? v)).map fun entries ↦ ⟨⟨entries⟩⟩
  else none

theorem entryOf?_parameterElement (v : Version) (name : String) (values : List String) :
    entryOf? v (parameterElement v name values) = some (name, values) := by
  have htexts : (parameterElement v name values).children.map Element.ownText = values := by
    show (values.map _).map _ = values
    rw [List.map_map]
    exact List.map_id'' (fun _ ↦ rfl) values
  rw [entryOf?, htexts]
  show (PropertyElement.unqualified? v (PropertyElement.qualified v name)).map _ = _
  rw [PropertyElement.unqualified?_qualified, Option.map_some]

/-- Parameters are read back as they were, whatever their names and values are. -/
theorem ofElement?_toElement (v : Version) (ps : Parameters) :
    ofElement? v (ps.toElement v) = some ps := by
  have hentries : ∀ es : List (String × List String),
      (es.map fun e ↦ parameterElement v e.1 e.2).mapM (entryOf? v) = some es := by
    intro es
    induction es with
    | nil => rfl
    | cons e rest ih =>
      rw [List.map_cons, List.mapM_cons, entryOf?_parameterElement, ih]
      rfl
  have htag : (ps.toElement v).tag = PropertyElement.qualified v "parameters" := rfl
  have hchildren : (ps.toElement v).children =
      ps.table.entries.map fun e ↦ parameterElement v e.1 e.2 := rfl
  rw [ofElement?, if_pos htag, hchildren, hentries, Option.map_some]

/-- The element is that of the parameters and is read back as them. Each name has one child, whose
children have the tag that belongs to the name. There is at least one of these unless there may be
bare names. -/
structure Encodes (ps : Parameters) (bare : Prop) (x : Element) : Prop where
  read : ofElement? .v4_0 x = some ps
  once : ∀ name ∈ ps.names,
    (x.children.map Element.tag).count (PropertyElement.qualified .v4_0 name) = 1
  valued : ∀ child ∈ x.children, child.children = [] → bare
  tagged : ∀ child ∈ x.children, ∃ name ∈ ps.names,
    child.tag = PropertyElement.qualified .v4_0 name ∧
      ∀ value ∈ child.children, value.tag = PropertyElement.qualified .v4_0 (valueName name)

/-- Parameters as they are kept have such an element. -/
theorem IsKept.encodes {ps : Parameters} {bare : Prop} (h : ps.IsKept bare) :
    ps.Encodes bare (ps.toElement .v4_0) := by
  have htags : (ps.toElement .v4_0).children.map Element.tag =
      ps.names.map (PropertyElement.qualified .v4_0) := by
    show (ps.table.entries.map _).map _ = (ps.table.entries.map _).map _
    rw [List.map_map, List.map_map]
    rfl
  have hinjective : Function.Injective (PropertyElement.qualified .v4_0) :=
    fun _ _ ↦ XCardDocument.qualified_inj.mp
  refine ⟨ofElement?_toElement .v4_0 ps, fun name hname ↦ ?_, fun child hchild ↦ ?_,
    fun child hchild ↦ ?_⟩
  · rw [htags, List.count_map_of_injective _ _ hinjective]
    exact List.count_eq_one_of_mem h.nodup hname
  · obtain ⟨e, he, rfl⟩ := List.mem_map.mp hchild
    exact fun hnil ↦ h.values e he (List.map_eq_nil_iff.mp hnil)
  · obtain ⟨e, he, rfl⟩ := List.mem_map.mp hchild
    refine ⟨e.1, List.mem_map_of_mem he, rfl, fun value hvalue ↦ ?_⟩
    obtain ⟨s, -, rfl⟩ := List.mem_map.mp hvalue
    rfl

end Parameters

/-! ### Elements with parameters -/

/-- The element of a property has a child with the tag of parameters just when there are any. It is
the first child, the only one with that tag, and encodes them. -/
structure HoldsParameters (e : Element) (ps : Parameters) (bare : Prop) : Prop where
  present : (∃ x ∈ e.children, x.tag = PropertyElement.qualified .v4_0 "parameters") ↔
    ps.isEmpty = false
  first : ∀ x ∈ e.children, x.tag = PropertyElement.qualified .v4_0 "parameters" →
    ∃ rest, e.children = x :: rest ∧
      ∀ y ∈ rest, y.tag ≠ PropertyElement.qualified .v4_0 "parameters"
  encoded : ∀ x ∈ e.children, x.tag = PropertyElement.qualified .v4_0 "parameters" →
    ps.Encodes bare x

/-- A value that does not look like parameters leaves those before it as they are. -/
theorem holdsParameters_append {tag : String} {ps : Parameters} {bare : Prop}
    {d : Option DataType} (hps : ps.IsKept bare) (hd : ∀ t, d = some t → toLower t.name ≠ "parameters") (v : Value) :
    HoldsParameters (PropertyElement.append ⟨propertyHolder tag ps, .v4_0⟩ d v).element ps bare := by
  have hvalue : PropertyElement.valueTag .v4_0 d ≠
      PropertyElement.qualified .v4_0 "parameters" := by
    intro h
    have hname := XCardDocument.qualified_inj.mp h
    cases d with
    | none => exact absurd hname (by decide)
    | some t => exact hd t rfl hname
  have hchildren : (PropertyElement.append ⟨propertyHolder tag ps, .v4_0⟩ d v).element.children =
      (propertyHolder tag ps).children ++ [PropertyElement.valueElement .v4_0 d v] := rfl
  have hbefore : ∀ x ∈ (propertyHolder tag ps).children ++ [PropertyElement.valueElement .v4_0 d v],
      x.tag = PropertyElement.qualified .v4_0 "parameters" →
        x ∈ (propertyHolder tag ps).children := by
    intro x hx htag
    rcases List.mem_append.mp hx with hx | hx
    · exact hx
    · rw [List.mem_singleton.mp hx] at htag
      exact absurd htag hvalue
  cases hempty : ps.isEmpty with
  | true =>
    have hnone : (propertyHolder tag ps).children = [] := by
      rw [propertyHolder, if_pos hempty]
      rfl
    have hno : ∀ x ∈ (propertyHolder tag ps).children ++
        [PropertyElement.valueElement .v4_0 d v],
        x.tag ≠ PropertyElement.qualified .v4_0 "parameters" := fun x hx htag ↦
      List.not_mem_nil (hnone ▸ hbefore x hx htag)
    refine ⟨iff_of_false ?_ (by simp [hempty]), fun x hx htag ↦ absurd htag (hno x hx),
      fun x hx htag ↦ absurd htag (hno x hx)⟩
    rintro ⟨x, hx, htag⟩
    exact hno x hx htag
  | false =>
    have hone : (propertyHolder tag ps).children = [ps.toElement .v4_0] := by
      rw [propertyHolder, hempty]
      rfl
    refine ⟨iff_of_true ⟨ps.toElement .v4_0, ?_, rfl⟩ hempty, fun x hx htag ↦ ?_,
      fun x hx htag ↦ ?_⟩
    · rw [hchildren, hone]
      exact List.mem_cons_self
    · obtain rfl : x = ps.toElement .v4_0 := eq_of_mem_propertyHolder (hbefore x hx htag)
      rw [hchildren, hone]
      exact ⟨_, rfl, fun y hy ↦ List.mem_singleton.mp hy ▸ hvalue⟩
    · obtain rfl : x = ps.toElement .v4_0 := eq_of_mem_propertyHolder (hbefore x hx htag)
      exact hps.encodes

namespace XCardDocument

variable {d : XCardDocument} {qs : List Property} {card : Element} {bare : Prop}

/-- The element that is written for a property holds its prepared parameters, other than VALUE. -/
theorem exists_holdsParameters {p : Property} {e : Element}
    (hwritten : propertyElement .standard p = .ok (.ok e)) (hkept : p.parameters.IsKept bare)
    (hd : ∀ c t, Registry.standard.codecOfProperty p = .ok c →
      c.dataType p .v4_0 = .ok (some t) → toLower t.name ≠ "parameters") :
    ∃ c ps, Registry.standard.codecOfProperty p = .ok c ∧
      c.prepareParameters p .v4_0 = .ok ps ∧ HoldsParameters e (ps.remove "value") bare := by
  obtain ⟨c, tag, ps, t, v, hcodec, -, hps, ht, -, rfl⟩ := exists_of_propertyElement hwritten
  have hprepared : (ps.remove "value").IsKept bare :=
    (isKept_of_prepareParameters hcodec hps hkept).remove "value"
  have hother : ∀ x, t = some x → toLower x.name ≠ "parameters" := by
    rintro x rfl
    exact hd c x hcodec ht
  exact ⟨c, ps, hcodec, hps, holdsParameters_append hprepared hother v⟩

/-- Every property of a card that comes to an element, be it the PRODID property that the document
brings along, has its prepared parameters in it, other than VALUE, as the first child if there are
any. They are read back from there as they are, if the names of the parameters of the properties are
distinct and in lower case, as making and changing them leaves them, and the data type is not named
like that child. Where no name is bare, every name has a value there. -/
theorem parameters_encoded (hregistry : d.registry = .standard)
    (hadd : (d.add qs).2 = .ok card) (hkept : ∀ p ∈ qs, p.parameters.IsKept bare) :
    ∃ own, card = cardElement .standard (keptProperties d.replacesProductId qs ++ own) ∧
      (∀ p ∈ own, ∃ v, p = .ofValue .productId v) ∧
      ∀ p ∈ keptProperties d.replacesProductId qs ++ own, ∀ e,
        propertyElement .standard p = .ok (.ok e) →
        (∀ c t, Registry.standard.codecOfProperty p = .ok c →
          c.dataType p .v4_0 = .ok (some t) → toLower t.name ≠ "parameters") →
        e ∈ card.nodes ∧ ∃ c ps, Registry.standard.codecOfProperty p = .ok c ∧
          c.prepareParameters p .v4_0 = .ok ps ∧ HoldsParameters e (ps.remove "value") bare := by
  obtain ⟨own, hcard, hown⟩ := exists_eq_cardElement hadd
  rw [hregistry] at hcard
  refine ⟨own, hcard, hown, fun p hp e he hd ↦ ⟨?_, ?_⟩⟩
  · rw [hcard]
    exact mem_nodes_cardElement hp (elementOf?_eq_some_iff.mpr he) (Element.mem_nodes_self e)
  · refine exists_holdsParameters he ?_ hd
    rcases List.mem_append.mp hp with hp | hp
    · exact hkept p (List.mem_filter.mp hp).1
    · obtain ⟨v, rfl⟩ := hown p hp
      cases v <;> exact Parameters.isKept_empty

/-- A motto keeps the values of a parameter together, and a parameter that is named like the element
of all of them. -/
theorem parameters_encoded_motto :
    let d : XCardDocument := ⟨.standard, .standard, .empty, true, [], []⟩
    let motto := { Property.ofExtension "X-MOTTO" (some "Tea & Cake") (some (.ofName "TEXT")) with
      parameters := Parameters.empty.add "TYPE" "home" |>.add "value" "date"
        |>.add "parameters" "" |>.add "Type" "work" }
    let qs := [.ofText .formattedName (some "Club"), motto]
    ∃ card e, (d.add qs).2 = .ok card ∧ (∀ p ∈ qs, p.parameters.IsNormal) ∧
      motto ∈ keptProperties true qs ∧ propertyElement .standard motto = .ok (.ok e) ∧
      e ∈ card.nodes ∧ HoldsParameters e
        (Parameters.empty.add "type" "home" |>.add "parameters" "" |>.add "type" "work")
        False := by
  intro d motto qs
  have hadd : (d.add qs).2 = .ok _ := rfl
  have hnormal : ∀ p ∈ qs, p.parameters.IsNormal := by
    intro p hp
    rcases List.mem_cons.mp hp with rfl | hp
    · exact Parameters.isKept_empty
    · rw [List.mem_singleton.mp hp]
      exact (((Parameters.isKept_empty.add _ _).add _ _).add _ _).add _ _
  have hkept : motto ∈ keptProperties true qs :=
    List.mem_filter.mpr ⟨by simp [qs], by decide +kernel⟩
  have hwritten : propertyElement .standard motto = .ok (.ok _) := rfl
  have hcodec : Registry.standard.codecOfProperty motto = .ok (.extension "X-MOTTO") := rfl
  have hprepared : (Codec.extension "X-MOTTO").prepareParameters motto .v4_0 =
      .ok (motto.parameters.assign "value" (some "text")) := rfl
  have hd : ∀ c t, Registry.standard.codecOfProperty motto = .ok c →
      c.dataType motto .v4_0 = .ok (some t) → toLower t.name ≠ "parameters" := by
    intro c t hc ht
    obtain rfl := Except.ok.inj (hcodec.symm.trans hc)
    obtain rfl : DataType.ofName "TEXT" = t := Option.some.inj (Except.ok.inj ht)
    decide +kernel
  obtain ⟨own, -, -, hencoded⟩ := parameters_encoded rfl hadd hnormal
  obtain ⟨hnode, c, ps, hc, hps, hholds⟩ :=
    hencoded motto (List.mem_append_left _ hkept) _ hwritten hd
  obtain rfl := Except.ok.inj (hcodec.symm.trans hc)
  obtain rfl := Except.ok.inj (hprepared.symm.trans hps)
  refine ⟨_, _, hadd, hnormal, hkept, hwritten, hnode, ?_⟩
  have hremoved : (motto.parameters.assign "value" (some "text")).remove "value" =
      (Parameters.empty.add "type" "home" |>.add "parameters" "" |>.add "type" "work") := by
    decide +kernel
  rwa [hremoved] at hholds

end XCardDocument

end ContactCard
