import ContactCard.Proofs.Codec.Conversion
import ContactCard.Proofs.Codec.Registry
import ContactCard.Proofs.XCard.Document

/-!
# Cards that are refused

What a document makes of cards whose properties are ordinary (`Property.IsOrdinary`): each holds what
properties of its class hold, and has a name.

The codec of such a property finds all that it asks for, unless it was found by the name of the
property. Of the codecs that names have, some ask for a resource, which no text property has; and
the codec of a name that has none of its own asks for a data type, which only extension properties
have. A property that lacks what it is asked for (`Property.lacksPart`) is neither written nor left
out with a warning: the card is refused (`add_ok_iff_of_isOrdinary`). The cards before and after it
are not affected (`exists_cards_addAll`).
-/

namespace ContactCard

open Text

variable {p : Property} {name : String} {c : Codec} {f : Fault}

/-! ### Properties and what they lack -/

/-- A binary property or a text property of a class with a codec, or a property with a name that
holds a text and whose class has no codec. The latter are the extension properties, and the text
properties of classes that are not registered. -/
inductive Property.IsOrdinary (p : Property) : Prop
  | binary {c : PropertyClass} {k : MediaClass} {r : Resource} {t : Option MediaType}
      (hc : (c, k) ∈ binaryClasses) (hcls : p.cls = c) (hname : p.name = c.name)
      (hcontent : p.content = .binary r t)
  | text {c : PropertyClass} {v : Option String} (hc : c ∈ textCodecClasses) (hcls : p.cls = c)
      (hname : p.name = c.name) (hcontent : p.content = .text v)
  | unregistered {name : String} {v : Option String}
      (hclass : Registry.standard.codecOfLineage? p.cls = none)
      (hname : p.name = some name) (hvalue : p.value = .ok v)

/-- Whether the codec that the name of the property decides on, as its class has none, asks for
something that the property does not have: a resource, or the data type of an extension property. -/
def Property.lacksPart (p : Property) : Bool :=
  (Registry.standard.codecOfLineage? p.cls).isNone &&
    p.name.any fun name ↦
      if toUpper name ∈ resourceNames then !p.resource.isOk
      else (Registry.standard.byName.get? (toUpper name)).isNone && !p.dataType.isOk

theorem Property.lacksPart_of_class
    (hclass : Registry.standard.codecOfLineage? p.cls = some c) :
    p.lacksPart = false := by
  rw [lacksPart, hclass]
  rfl

/-! ### What ordinary properties come to -/

namespace XCardDocument

variable {r : Registry}

/-- A property whose codec finds all that it asks for comes to something. -/
theorem faultOf?_of_accepts (hcodec : r.codecOfProperty p = .ok c) (hname : p.name = some name)
    (h : c.Accepts p) : faultOf? r p = none := by
  obtain ⟨tag, htag⟩ := exists_propertyTag hname
  obtain ⟨ps, hps⟩ := h.prepare
  have hps' : c.prepareParameters p version = .ok ps := hps
  rw [faultOf?_eq_none_iff]
  simp only [propertyElement, hcodec, htag, hps', Bind.bind, Except.bind]
  obtain ⟨outcome, houtcome⟩ := h.write (if (ps.remove "value").isEmpty then .bare tag []
    else (Xml.Element.bare tag []).append ((ps.remove "value").toElement version))
  rw [show version = Version.v4_0 from rfl] at houtcome ⊢
  rw [houtcome]
  cases outcome <;> exact ⟨_, rfl⟩

/-- Parameters that cannot be prepared are why a property comes to nothing. -/
theorem faultOf?_of_prepareParameters (hcodec : r.codecOfProperty p = .ok c)
    (hname : p.name = some name) (h : c.prepareParameters p .v4_0 = .error f) :
    faultOf? r p = some f := by
  obtain ⟨tag, htag⟩ := exists_propertyTag hname
  have h' : c.prepareParameters p version = .error f := h
  simp only [faultOf?, propertyElement, hcodec, htag, h', Bind.bind, Except.bind]

/-- Where the name decides, the property comes to nothing if it lacks what is asked for. -/
theorem faultOf?_of_name {v : Option String}
    (hclass : Registry.standard.codecOfLineage? p.cls = none)
    (hname : p.name = some name) (hvalue : p.value = .ok v) :
    faultOf? .standard p = if p.lacksPart then some .missingPart else none := by
  have hcodec := codecOfProperty_of_name hclass hname
  have hresource : p.resource = .error .missingPart := by
    rw [Property.resource]
    rcases content_of_value hvalue with h | ⟨d, h⟩ <;> rw [h]
  rw [Property.lacksPart, hclass, hname]
  simp only [Option.isNone_none, Bool.true_and, Option.any_some]
  cases hbyName : Registry.standard.byName.get? (toUpper name) with
  | some c =>
    rw [hbyName, Option.getD_some] at hcodec
    rcases byName_cases hbyName with ⟨hmem, label, k, m, rfl⟩ | ⟨hmem, haccepts⟩
    · rw [faultOf?_of_prepareParameters hcodec hname
        (Codec.prepareParameters_binary_of_error label k m hresource), hresource, if_pos hmem]
      rfl
    · rw [faultOf?_of_accepts hcodec hname (haccepts p v hvalue), if_neg hmem]
      rfl
  | none =>
    rw [hbyName, Option.getD_none] at hcodec
    rw [if_neg (not_mem_resourceNames hbyName)]
    rcases content_of_value hvalue with h | ⟨d, h⟩
    · have hd : p.dataType = .error .missingPart := by rw [Property.dataType, h]
      rw [faultOf?_of_prepareParameters hcodec hname
        (Codec.prepareParameters_extension name hd), hd]
      rfl
    · have hd : p.dataType = .ok d := by rw [Property.dataType, h]
      rw [faultOf?_of_accepts hcodec hname
        (Codec.accepts_extension name (heldValue_of_value hvalue) hd), hd]
      rfl

/-- Where the class decides, the property comes to something. -/
theorem faultOf?_of_class
    (hclass : Registry.standard.codecOfLineage? p.cls = some c)
    (hname : p.name = some name) (h : c.Accepts p) :
    faultOf? .standard p = if p.lacksPart then some .missingPart else none := by
  rw [faultOf?_of_accepts (codecOfProperty_of_class hclass) hname h, p.lacksPart_of_class hclass]
  rfl

/-- An ordinary property comes to something unless it lacks what it is asked for. -/
theorem faultOf?_of_isOrdinary (h : p.IsOrdinary) :
    faultOf? .standard p = if p.lacksPart then some .missingPart else none := by
  cases h with
  | @binary c k r t hc hcls hname hcontent =>
    obtain ⟨label, hclass⟩ := exists_codec_of_mem_binaryClasses hc
    obtain ⟨name, hclassName⟩ := exists_name_of_mem_binaryClasses hc
    rw [← hcls] at hclass
    exact faultOf?_of_class hclass (hname.trans hclassName) (Codec.accepts_binary _ _ _ hcontent)
  | @text c v hc hcls hname hcontent =>
    obtain ⟨⟨name, hclassName⟩, -, label, t, hclass, -⟩ :=
      exists_codec_of_mem_textCodecClasses hc
    rw [← hcls] at hclass
    have hvalue : p.value = .ok v := by rw [Property.value, hcontent]
    exact faultOf?_of_class hclass (hname.trans hclassName)
      (Codec.accepts_text _ _ _ (heldValue_of_value hvalue))
  | unregistered hclass hname hvalue => exact faultOf?_of_name hclass hname hvalue

/-- The PRODID property of a document comes to something, whatever the settings say. -/
theorem faultOf?_ofValue (v : Value) :
    faultOf? .standard (.ofValue .productId v) = none := by
  have hheld : (Property.ofValue .productId v).heldValue = .ok v := by cases v <;> rfl
  have hclass : (Property.ofValue .productId v).cls = .productId := by cases v <;> rfl
  have hname : (Property.ofValue .productId v).name = some "PRODID" := by cases v <;> rfl
  obtain ⟨-, -, label, t, hcodec, -⟩ :=
    exists_codec_of_mem_textCodecClasses (c := .productId) (by simp [textCodecClasses])
  rw [← hclass] at hcodec
  exact faultOf?_of_accepts (codecOfProperty_of_class hcodec) hname (Codec.accepts_text _ _ _ hheld)

/-! ### Documents -/

/-- The document uses the standard codecs and knows what to name in PRODID properties. -/
structure IsStandard (d : XCardDocument) : Prop where
  registry : d.registry = .standard
  definitions : d.definitions.NamesProduct

variable {d : XCardDocument} {ps : List Property}

theorem isStandard_new {settings : Settings} (h : new .standard settings = .ok d) :
    d.IsStandard := by
  obtain rfl := Except.ok.inj ((new_eq Definitions.areStandard_standard settings).symm.trans h)
  exact ⟨rfl, Definitions.namesProduct_standard⟩

/-- A standard document writes the properties that it keeps, and none of its own would have a card
refused. -/
theorem IsStandard.exists_plan (h : d.IsStandard) (ps : List Property) :
    ∃ definitions own,
      d.plan ps = .ok (definitions, grouped (keptProperties d.replacesProductId ps ++ own)) ∧
      definitions.NamesProduct ∧ ∀ p ∈ own, faultOf? .standard p = none := by
  cases hreplaces : d.replacesProductId with
  | false =>
    have hplan := plan_of_keeps hreplaces ps
    rw [← List.append_nil (keptProperties false ps)] at hplan
    exact ⟨d.definitions, [], hplan, h.definitions, fun p hp ↦ absurd hp List.not_mem_nil⟩
  | true =>
    obtain ⟨definitions, v, hread, hdefinitions⟩ := d.settings.exists_read_productName h.definitions
    refine ⟨definitions, [.ofValue .productId v], plan_of_replaces hreplaces hread ps,
      hdefinitions, fun p hp ↦ ?_⟩
    rw [List.mem_singleton.mp hp]
    exact faultOf?_ofValue v

/-- Adding a card to a standard document leaves a standard document. -/
theorem IsStandard.add (h : d.IsStandard) (ps : List Property) : (d.add ps).1.IsStandard := by
  obtain ⟨definitions, own, hplan, hdefinitions, -⟩ := h.exists_plan ps
  rw [XCardDocument.add, hplan]
  dsimp only
  rcases cardElements d.registry _ with ⟨children, omitted, f | -⟩ <;>
    exact ⟨h.registry, hdefinitions⟩

/-- The same fault is met wherever one is met at all. -/
theorem firstFault_eq_error {r : Registry}
    (h : ∀ p ∈ ps, faultOf? r p = none ∨ faultOf? r p = some f) {p : Property} (hp : p ∈ ps)
    (hfault : faultOf? r p = some f) : firstFault r ps = .error f := by
  rw [firstFault]
  cases hfirst : ps.findSome? (faultOf? r) with
  | none => exact absurd (hfault.symm.trans (List.findSome?_eq_none_iff.mp hfirst p hp)) (by simp)
  | some f' =>
    obtain ⟨q, hq, hq'⟩ := List.exists_of_findSome?_eq_some hfirst
    rcases h q hq with h | h
    · exact absurd (hq'.symm.trans h) (by simp)
    · obtain rfl := Option.some.inj (hq'.symm.trans h)
      rfl

/-- Whether none of the properties that are written lacks what it is asked for. -/
def lacksNothing (replacesProductId : Bool) (ps : List Property) : Bool :=
  (keptProperties replacesProductId ps).all fun p ↦ !p.lacksPart

/-- What comes of adding a card of ordinary properties. -/
theorem IsStandard.add_ordinary (h : d.IsStandard) (hps : ∀ p ∈ ps, p.IsOrdinary) :
    if lacksNothing d.replacesProductId ps then
      ∃ card, (d.add ps).2 = .ok card ∧ (d.add ps).1.cards = d.cards ++ [card]
    else (d.add ps).2 = .error (.fault .missingPart) ∧ (d.add ps).1.cards = d.cards := by
  obtain ⟨definitions, own, hplan, -, hown⟩ := h.exists_plan ps
  have hkept : ∀ p ∈ keptProperties d.replacesProductId ps,
      faultOf? d.registry p = if p.lacksPart then some .missingPart else none := fun p hp ↦ by
    rw [h.registry]
    exact faultOf?_of_isOrdinary (hps p (List.mem_filter.mp hp).1)
  rw [← h.registry] at hown
  split
  · next hall =>
    have hfault : ∀ p ∈ keptProperties d.replacesProductId ps ++ own,
        faultOf? d.registry p = none := by
      intro p hp
      rcases List.mem_append.mp hp with hp | hp
      · have hlacks := List.all_eq_true.mp hall p hp
        rw [hkept p hp, if_neg (by simpa using hlacks)]
      · exact hown p hp
    rw [add_eq_ok hplan hfault]
    exact ⟨_, rfl, rfl⟩
  · next hsome =>
    obtain ⟨p, hp, hlacks⟩ : ∃ p ∈ keptProperties d.replacesProductId ps, p.lacksPart = true := by
      simpa [lacksNothing] using hsome
    refine add_eq_error hplan (firstFault_eq_error (fun q hq ↦ ?_)
      (mem_inGroupOrder.mpr (List.mem_append_left _ hp)) (by rw [hkept p hp, if_pos hlacks]))
    rcases List.mem_append.mp (mem_inGroupOrder.mp hq) with hq | hq
    · rw [hkept q hq]
      split
      · exact .inr rfl
      · exact .inl rfl
    · exact .inl (hown q hq)

/-- Just the ordinary properties that lack nothing come to an element or to a warning. So a standard
document adds a card of ordinary properties just when none of those that are written lacks what it is
asked for. Otherwise the card is refused for that reason, and the document keeps the cards that it
has. -/
theorem add_ok_iff_of_isOrdinary (hd : d.IsStandard) (hps : ∀ p ∈ ps, p.IsOrdinary) :
    (∀ p ∈ ps, (∃ outcome, propertyElement d.registry p = .ok outcome) ↔ p.lacksPart = false) ∧
    ((∃ card, (d.add ps).2 = .ok card) ↔
      ∀ p ∈ keptProperties d.replacesProductId ps, p.lacksPart = false) ∧
    ∀ p ∈ keptProperties d.replacesProductId ps, p.lacksPart = true →
      (d.add ps).2 = .error (.fault .missingPart) ∧ (d.add ps).1.cards = d.cards := by
  have hadd := hd.add_ordinary hps
  have hall : lacksNothing d.replacesProductId ps = true ↔
      ∀ p ∈ keptProperties d.replacesProductId ps, p.lacksPart = false := by
    simp [lacksNothing]
  refine ⟨fun p hp ↦ ?_, ⟨fun ⟨card, hcard⟩ ↦ hall.mp ?_, fun h ↦ ?_⟩, fun p hp hlacks ↦ ?_⟩
  · rw [← faultOf?_eq_none_iff, hd.registry, faultOf?_of_isOrdinary (hps p hp)]
    cases p.lacksPart <;> simp
  · by_contra hsome
    rw [if_neg hsome] at hadd
    exact absurd (hcard.symm.trans hadd.1) (by simp)
  · rw [if_pos (hall.mpr h)] at hadd
    obtain ⟨card, hcard, -⟩ := hadd
    exact ⟨card, hcard⟩
  · rwa [if_neg fun h ↦ absurd (hall.mp h p hp) (by simp [hlacks])] at hadd

/-- A new document takes a card with an extension property in a group and with a photo that has no
resource, but not with one more property that has the name of a class of photos. -/
theorem add_ok_iff_of_isOrdinary_club :
    let d : XCardDocument := ⟨.standard, .standard, .empty, true, [], []⟩
    let club : List Property :=
      [.ofText .formattedName (some "Club"),
        { Property.ofExtension "x-motto" none (some .text) with group := some "home" },
        .ofResource .photo .absent none]
    let photo := Property.ofExtension "photo" (some "x") none
    d.IsStandard ∧ (∀ p ∈ club ++ [photo], p.IsOrdinary) ∧
    (∃ card, (d.add club).2 = .ok card) ∧
    (d.add (club ++ [photo])).2 = .error (.fault .missingPart) ∧
    (d.add (club ++ [photo])).1.cards = [] := by
  intro d club photo
  have hd : d.IsStandard := isStandard_new (show new .standard .empty = .ok _ from rfl)
  have hclub : ∀ p ∈ club ++ [photo], p.IsOrdinary := by
    simp only [club, photo, List.cons_append, List.nil_append, List.forall_mem_cons,
      List.not_mem_nil, false_imp_iff, implies_true, and_true]
    exact ⟨.text (c := .formattedName) (by decide) rfl rfl rfl, .unregistered rfl rfl rfl,
      .binary (k := .image) (by decide) rfl rfl rfl, .unregistered rfl rfl rfl⟩
  refine ⟨hd, hclub, ?_, ?_⟩
  · refine (add_ok_iff_of_isOrdinary hd fun p hp ↦ hclub p (List.mem_append_left _ hp)).2.1.mpr ?_
    decide +kernel
  · have hphoto : photo ∈ keptProperties d.replacesProductId (club ++ [photo]) :=
      List.mem_filter.mpr ⟨List.mem_append_right club List.mem_cons_self, rfl⟩
    exact (add_ok_iff_of_isOrdinary hd hclub).2.2 photo hphoto rfl

/-- New documents refuse a card with an extension property that has the name of photos, and one with
a text property of a class that is not registered, though their properties are ordinary. -/
theorem ordinary_cards_refused :
    let named : List Property :=
      [.ofText .formattedName (some "Club"), .ofExtension "photo" (some "x") none]
    let unregistered : List Property :=
      [.ofText .formattedName (some "Club"),
        .ofText (PropertyClass.text.specialise "PlainText" (some "X-PLAIN")) (some "x")]
    ∃ d, new .standard .empty = .ok d ∧
      (∀ p ∈ named, p.IsOrdinary) ∧ (d.add named).2 = .error (.fault .missingPart) ∧
      (∀ p ∈ unregistered, p.IsOrdinary) ∧
      (d.add unregistered).2 = .error (.fault .missingPart) := by
  intro named unregistered
  refine ⟨_, rfl, ?_, rfl, ?_, rfl⟩
  · simp only [named, List.forall_mem_cons, List.not_mem_nil, false_imp_iff, implies_true, and_true]
    exact ⟨.text (c := .formattedName) (by decide) rfl rfl rfl, .unregistered rfl rfl rfl⟩
  · simp only [unregistered, List.forall_mem_cons, List.not_mem_nil, false_imp_iff, implies_true,
      and_true]
    exact ⟨.text (c := .formattedName) (by decide) rfl rfl rfl, .unregistered rfl rfl rfl⟩

/-! ### Cards one after the other -/

theorem replacesProductId_add (d : XCardDocument) (ps : List Property) :
    (d.add ps).1.replacesProductId = d.replacesProductId := by
  rw [XCardDocument.add]
  rcases d.plan ps with e | ⟨definitions, groups⟩
  · rfl
  · dsimp only
    rcases cardElements d.registry _ with ⟨children, omitted, f | -⟩ <;> rfl

/-- Of cards of ordinary properties that are added one after the other, those that lack nothing make
it into the document, whatever stands between them. -/
theorem exists_cards_addAll (hd : d.IsStandard) {cards : List (List Property)}
    (hcards : ∀ ps ∈ cards, ∀ p ∈ ps, p.IsOrdinary) :
    ∃ added, (d.addAll cards).cards = d.cards ++ added ∧
      added.length = cards.countP (lacksNothing d.replacesProductId) := by
  induction cards generalizing d with
  | nil => exact ⟨[], by simp [addAll], rfl⟩
  | cons ps rest ih =>
    obtain ⟨hfirst, hrest⟩ := List.forall_mem_cons.mp hcards
    obtain ⟨added, hadded, hlength⟩ := ih (hd.add ps) hrest
    rw [replacesProductId_add] at hlength
    have hall : d.addAll (ps :: rest) = (d.add ps).1.addAll rest := rfl
    have hadd := hd.add_ordinary hfirst
    rw [hall, hadded, List.countP_cons]
    split at hadd
    · next hnothing =>
      obtain ⟨card, -, hcard⟩ := hadd
      refine ⟨card :: added, by rw [hcard, List.append_assoc]; rfl, ?_⟩
      rw [List.length_cons, hlength, if_pos hnothing]
    · next hlacks =>
      refine ⟨added, by rw [hadd.2], ?_⟩
      rw [hlength, if_neg hlacks, Nat.add_zero]

end XCardDocument

end ContactCard
