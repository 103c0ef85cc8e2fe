import ContactCard.Proofs.Xml.Markup
import ContactCard.Proofs.Xml.Scope

/-!
# Namespaces of written names

A tag that was written resolves to the tag that was meant, and so does the name of an attribute
that has a prefix or no namespace. But attributes in the default namespace may come out without a
prefix, and then they are taken for attributes without a namespace: this is so wherever the
namespace was met as that of an element before it was met as that of an attribute. Then, and only
then, a tree does not resolve to what it was (`Writes.resolve_iff`).
-/

namespace ContactCard.Xml

open Text

/-! ### Names -/

/-- A tag with a namespace. -/
inductive IsTagName : String → Prop
  | qualified {ns plain : String} (hne : ns ≠ "") (hns : '\x7d' ∉ ns.toList)
      (hplain : ':' ∉ plain.toList) : IsTagName (expandedName ns plain)

/-- The name of an attribute, with a namespace or without one. -/
inductive IsAttributeName : String → Prop
  | plain {name : String} (hbrace : name.toList.head? ≠ some '\x7b') (hcolon : ':' ∉ name.toList)
      (hxmlns : name ≠ "xmlns") : IsAttributeName name
  | qualified {ns plain : String} (hns : '\x7d' ∉ ns.toList) (hplain : ':' ∉ plain.toList) :
      IsAttributeName (expandedName ns plain)

/-- The names of an element and its attributes are names with namespaces, or in the case of
attributes without. -/
structure Element.IsNamed (x : Element) : Prop where
  tag : IsTagName x.tag
  keys : ∀ a ∈ x.attributes, IsAttributeName a.1

theorem splitName_plain {name : String} (h : name.toList.head? ≠ some '\x7b') :
    splitName name false = .ok (none, name) := by
  rw [splitName]
  split
  · next heq => exact absurd (by rw [heq]; rfl) h
  · rfl

theorem IsTagName.canBeWritten {name : String} (h : IsTagName name) :
    ∃ parts, splitName name true = .ok parts := by
  obtain ⟨-, hns, -⟩ := h
  exact ⟨_, splitName_expandedName hns true⟩

theorem IsAttributeName.canBeWritten {name : String} (h : IsAttributeName name) :
    ∃ parts, splitName name false = .ok parts := by
  cases h with
  | plain hbrace _ _ => exact ⟨_, splitName_plain hbrace⟩
  | qualified hns _ => exact ⟨_, splitName_expandedName hns false⟩

/-- An expanded name is not its local part. -/
theorem expandedName_ne (ns plain : String) : expandedName ns plain ≠ plain := by
  intro h
  have := congrArg (fun s ↦ s.toList.length) h
  simp [expandedName, String.toList_append] at this
  omega

variable {w : Writer} {bindings : Bindings} {ns pre plain : String}

theorem resolveTag_joinName (hpre : ':' ∉ pre.toList) (hplain : ':' ∉ plain.toList) (hns : ns ≠ "")
    (h : bindings.lookup pre = some ns) :
    resolveTag bindings (joinName pre plain) = some (expandedName ns plain) := by
  rw [resolveTag, splitPrefix_joinName hpre hplain]
  by_cases hempty : pre.isEmpty = true
  · have hne : ns.isEmpty = false := by simpa [String.isEmpty_iff] using hns
    obtain rfl := String.isEmpty_iff.mp hempty
    simp [h, hne]
  · simp [hempty, h]

theorem resolveAttributeName_joinName (hpre : ':' ∉ pre.toList) (hplain : ':' ∉ plain.toList)
    (hne : pre ≠ "") (h : bindings.lookup pre = some ns) :
    resolveAttributeName bindings (joinName pre plain) = some (expandedName ns plain) := by
  have hempty : pre.isEmpty = false := by simpa [String.isEmpty_iff] using hne
  rw [resolveAttributeName, splitPrefix_joinName hpre hplain]
  simp [hempty, h]

theorem resolveAttributeName_plain (h : ':' ∉ plain.toList) :
    resolveAttributeName bindings plain = some plain := by
  rw [resolveAttributeName, splitPrefix, cut_of_not_mem h]

theorem declaredPrefix?_plain (h : ':' ∉ plain.toList) (hne : plain ≠ "xmlns") :
    declaredPrefix? plain = none := by
  rw [declaredPrefix?, if_neg hne, splitPrefix, cut_of_not_mem h]

theorem declaredPrefix?_joinName (hpre : ':' ∉ pre.toList) (hplain : ':' ∉ plain.toList)
    (hne : pre ≠ "") (hxmlns : pre ≠ "xmlns") : declaredPrefix? (joinName pre plain) = none := by
  have hempty : pre.isEmpty = false := by simpa [String.isEmpty_iff] using hne
  have hcolon : ':' ∈ (joinName pre plain).toList := by
    simp [joinName, hempty, String.toList_append]
  have hname : joinName pre plain ≠ "xmlns" := by
    intro h
    rw [h] at hcolon
    exact absurd hcolon (by decide)
  rw [declaredPrefix?, if_neg hname, splitPrefix_joinName hpre hplain]
  simp [hempty, hxmlns]

/-- A declaration declares its prefix. -/
theorem declaredPrefix?_declarationName (pre : String) :
    declaredPrefix? (declarationName pre) = some pre := by
  rw [declarationName]
  split
  · next h =>
    obtain rfl := String.isEmpty_iff.mp h
    rfl
  · next h =>
    have hcs : ("xmlns:" ++ pre).toList = "xmlns".toList ++ ':' :: pre.toList := by
      simp [String.toList_append]
    have hne : "xmlns:" ++ pre ≠ "xmlns" := by
      intro heq
      have := congrArg (fun s ↦ s.toList.length) heq
      simp [String.toList_append] at this
    rw [declaredPrefix?, if_neg hne, splitPrefix, hcs, cut_append (by decide)]
    simp

/-! ### Where the default namespace is met first -/

/-- Whether a name is in the default namespace of a writer. The namespace of XML never is one. -/
def isInDefault (d : Option String) (name : String) : Bool :=
  match splitName name false with
  | .ok (some ns, _) => d == some ns && ns != xmlNamespace
  | _ => false

/-- How the default namespace was met first, after a name: as that of an element or not, if at all.
-/
def meet (d : Option String) (isElement : Bool) (met : Option Bool) (name : String) : Option Bool :=
  if isInDefault d name then met.or (some isElement) else met

/-- How the default namespace was met first, after the names of attributes. -/
def meetAll (d : Option String) (met : Option Bool) (attributes : List (String × String)) :
    Option Bool :=
  attributes.foldl (fun met a ↦ meet d false met a.1) met

namespace Element

mutual

/-- Whether attributes in the default namespace keep it: on the way from the root to each of them
the namespace was met as that of an attribute before it was met as that of an element. -/
def keepsAttributes (d : Option String) (met : Option Bool) : Element → Bool
  | ⟨tag, attributes, _, _, children⟩ =>
    let met := meet d true met tag
    !(met == some true && attributes.any fun a ↦ isInDefault d a.1) &&
      keepsAllAttributes d (meetAll d met attributes) children

def keepsAllAttributes (d : Option String) (met : Option Bool) : List Element → Bool
  | [] => true
  | e :: rest => keepsAttributes d met e && keepsAllAttributes d met rest

end

theorem keepsAttributes_iff {d : Option String} {met : Option Bool} {tag : String}
    {attributes : List (String × String)} {text : Value} {tail : Option String}
    {children : List Element} :
    keepsAttributes d met ⟨tag, attributes, text, tail, children⟩ = true ↔
      (meet d true met tag = some true →
        attributes.any (fun a ↦ isInDefault d a.1) = false) ∧
      keepsAllAttributes d (meetAll d (meet d true met tag) attributes) children = true := by
  rw [keepsAttributes, Bool.and_eq_true_iff]
  refine and_congr_left fun _ ↦ ?_
  by_cases hmet : meet d true met tag = some true
  · simp [hmet]
  · simp [hmet]

end Element

/-- What was met is what the scope has: a prefix for the default namespace, which is empty if it was
met first as that of an element. -/
def Tracks (w : Writer) (scope : PrefixTable) (met : Option Bool) : Prop :=
  ∀ ns, w.defaultNamespace = some ns → ns ≠ xmlNamespace →
    met = (scope.get? ns).map String.isEmpty

theorem tracks_empty (w : Writer) : Tracks w ∅ none := fun _ _ _ ↦ rfl

variable {outer : Bindings} {st st' : Naming} {isElement : Bool} {met : Option Bool}

theorem isInDefault_expandedName (hns : '\x7d' ∉ ns.toList) (d : Option String) :
    isInDefault d (expandedName ns plain) = (d == some ns && ns != xmlNamespace) := by
  rw [isInDefault, splitName_expandedName hns]

theorem Chooses.tracks (hw : w.IsProper) (h : Chooses w isElement st ns pre st')
    (ht : Tracks w st.scope met) :
    Tracks w st'.scope
      (if w.defaultNamespace == some ns && ns != xmlNamespace then met.or (some isElement)
        else met) := by
  intro d hd hdxml
  have hmet := ht d hd hdxml
  by_cases hns : ns = d
  · subst hns
    have hcond : (w.defaultNamespace == some ns && ns != xmlNamespace) = true := by
      simp [hd, hdxml]
    rw [if_pos hcond]
    cases h with
    | inScope h => rw [hmet, h]; rfl
    | reserved hscope h => exact absurd h hdxml
    | default hscope hns he h =>
      rw [hmet, hscope, get?_declare_self, he]
      rfl
    | registered hscope hns hdefault h =>
      have he : isElement = false := by simpa [hd] using hdefault
      rw [hmet, hscope, get?_declare_self, he, Option.map_some,
        isEmpty_of_isNCName (hw.isName h hns).1]
      rfl
    | new hscope hns hdefault h =>
      have he : isElement = false := by simpa [hd] using hdefault
      rw [hmet, hscope, get?_declare_self, he, Option.map_some,
        isEmpty_of_isNCName (isNCName_numberedPrefix _)]
      rfl
  · have hcond : (w.defaultNamespace == some ns && ns != xmlNamespace) = false := by
      simp [hd, Ne.symm hns]
    have hne : d ≠ ns := Ne.symm hns
    rw [hcond]
    cases h with
    | inScope h => exact hmet
    | reserved hscope h => exact hmet
    | default hscope hns he h => rwa [get?_declare_of_ne hne]
    | registered hscope hns hdefault h => rwa [get?_declare_of_ne hne]
    | new hscope hns hdefault h => rwa [get?_declare_of_ne hne]

/-- An attribute has a namespace and no prefix where its namespace is the default one and was met
first as that of an element. -/
theorem Chooses.eq_empty_iff (hw : w.IsProper) (h : Chooses w false st ns pre st')
    (hst : st.Follows w outer) (ht : Tracks w st.scope met) :
    pre = "" ↔ (w.defaultNamespace == some ns && ns != xmlNamespace) = true ∧ met = some true := by
  have hne : ∀ {pre : String}, isNCName pre.toList = true → pre ≠ "" := by
    rintro pre hname rfl
    exact absurd hname (by decide)
  constructor
  · intro hpre
    cases h with
    | inScope h =>
      subst hpre
      have hns : ns ≠ xmlNamespace := by
        rintro rfl
        rw [hst.agrees.isReserved] at h
        exact absurd h (by simp)
      rcases hst.agrees.origin h with ⟨-, hd⟩ | hd | ⟨n, hd, -⟩
      · rw [ht ns hd hns, h]
        exact ⟨by simp [hd, hns], rfl⟩
      · exact absurd rfl (hne (hw.isName hd hns).1)
      · exact absurd hd (hne (isNCName_numberedPrefix n)).symm
    | reserved hscope h => exact absurd hpre (by decide)
    | default hscope hns he h => exact absurd he (by decide)
    | registered hscope hns hdefault h => exact absurd hpre (hne (hw.isName h hns).1)
    | new hscope hns hdefault h => exact absurd hpre (hne (isNCName_numberedPrefix _))
  · rintro ⟨hcond, hmet⟩
    obtain ⟨hd, hns⟩ : w.defaultNamespace = some ns ∧ ns ≠ xmlNamespace := by simpa using hcond
    have hscope := ht ns hd hns
    cases h with
    | inScope h =>
      rw [h, hmet] at hscope
      exact String.isEmpty_iff.mp (by simpa using hscope.symm)
    | reserved _ h => exact absurd h hns
    | default hscope' _ he _ => exact absurd he (by decide)
    | registered hscope' _ _ _ | new hscope' _ _ _ => simp [hscope', hmet] at hscope

/-- The namespace of a name does not depend on what it is the name of. -/
theorem splitName_false_of_eq_some {name : String}
    (h : splitName name isElement = .ok (some ns, plain)) :
    splitName name false = .ok (some ns, plain) := by
  cases isElement with
  | false => exact h
  | true =>
    rw [splitName] at h ⊢
    split at h
    · exact h
    · exact absurd h (by simp)

/-- What writing a name does to what is known. -/
theorem WritesName.follows (hw : w.IsProper) {name written : String}
    (h : WritesName w isElement st name written st') (hst : st.Follows w outer)
    (ht : Tracks w st.scope met) :
    st'.Follows w outer ∧ Tracks w st'.scope (meet w.defaultNamespace isElement met name) := by
  cases h with
  | plain h =>
    have hfalse : isInDefault w.defaultNamespace name = false := by
      cases isElement with
      | false => rw [isInDefault, h]
      | true =>
        obtain ⟨ns, plain, hparts, -⟩ := eq_expandedName_of_splitName h
        exact absurd (congrArg Prod.fst hparts) (by simp)
    rw [meet, hfalse]
    exact ⟨hst, ht⟩
  | qualified h hpre =>
    rw [meet, isInDefault, splitName_false_of_eq_some h]
    exact ⟨hpre.follows hw hst, hpre.tracks hw ht⟩

/-- A tag is written with a prefix for its namespace, which may be empty. -/
theorem WritesName.of_isTagName {name written : String} (h : WritesName w true st name written st')
    (hname : IsTagName name) :
    ∃ ns plain pre, name = expandedName ns plain ∧ ns ≠ "" ∧ '\x7d' ∉ ns.toList ∧
      ':' ∉ plain.toList ∧ Chooses w true st ns pre st' ∧ written = joinName pre plain := by
  obtain @⟨ns, plain, hne, hns, hplain⟩ := hname
  have hsplit := @splitName_expandedName ns plain hns true
  cases h with
  | plain h => exact absurd (hsplit.symm.trans h) (by simp)
  | qualified h hpre =>
    obtain ⟨rfl, rfl⟩ : _ = _ ∧ _ = _ := by simpa using hsplit.symm.trans h
    exact ⟨_, _, _, rfl, hne, hns, hplain, hpre, rfl⟩

/-- The name of an attribute is written as it is or with a prefix for its namespace. -/
theorem WritesName.of_isAttributeName {name written : String}
    (h : WritesName w false st name written st') (hname : IsAttributeName name) :
    (written = name ∧ st' = st ∧ name.toList.head? ≠ some '\x7b' ∧ ':' ∉ name.toList ∧
      name ≠ "xmlns" ∧ ∀ d, isInDefault d name = false) ∨
    ∃ ns plain pre, name = expandedName ns plain ∧ '\x7d' ∉ ns.toList ∧ ':' ∉ plain.toList ∧
      Chooses w false st ns pre st' ∧ written = joinName pre plain := by
  cases hname with
  | plain hbrace hcolon hxmlns =>
    have hsplit := splitName_plain hbrace
    have hdefault : ∀ d, isInDefault d name = false := fun d ↦ by rw [isInDefault, hsplit]
    cases h with
    | plain h =>
      obtain rfl : name = written := by simpa using hsplit.symm.trans h
      exact .inl ⟨rfl, rfl, hbrace, hcolon, hxmlns, hdefault⟩
    | qualified h hpre => exact absurd (hsplit.symm.trans h) (by simp)
  | @qualified ns plain hns hplain =>
    have hsplit := @splitName_expandedName ns plain hns false
    cases h with
    | plain h => exact absurd (hsplit.symm.trans h) (by simp)
    | qualified h hpre =>
      obtain ⟨rfl, rfl⟩ : _ = _ ∧ _ = _ := by simpa using hsplit.symm.trans h
      exact .inr ⟨_, _, _, rfl, hns, hplain, hpre, rfl⟩

/-! ### Attributes -/

/-- What writing attributes does to what is known. -/
theorem WritesAttributes.follows (hw : w.IsProper) {attributes written : List (String × String)}
    (h : WritesAttributes w st attributes written st') (hst : st.Follows w outer)
    (ht : Tracks w st.scope met) :
    st'.Follows w outer ∧ Tracks w st'.scope (meetAll w.defaultNamespace met attributes) := by
  induction h generalizing met with
  | nil st => exact ⟨hst, ht⟩
  | @cons st mid st' name written value rest rest' hname hrest ih =>
    obtain ⟨hmid, ht'⟩ := hname.follows hw hst ht
    exact ih hmid ht'

theorem resolveAttributes_cons_eq_some {name value : String}
    {rest attributes : List (String × String)} (hname : declaredPrefix? name = none)
    (h : resolveAttributes bindings ((name, value) :: rest) = some attributes) :
    ∃ name' rest', resolveAttributeName bindings name = some name' ∧
      resolveAttributes bindings rest = some rest' ∧ attributes = (name', value) :: rest' := by
  rw [resolveAttributes, hname] at h
  simp only [Option.bind_eq_bind, Option.bind_eq_some_iff, Option.pure_def, Option.some.injEq] at h
  obtain ⟨name', hname', rest', hrest, rfl⟩ := h
  exact ⟨name', rest', hname', hrest, rfl⟩

theorem length_resolveAttributes_le {attributes resolved : List (String × String)}
    (h : resolveAttributes bindings attributes = some resolved) :
    resolved.length ≤ attributes.length := by
  induction attributes generalizing resolved with
  | nil =>
    obtain rfl : resolved = [] := by simpa [resolveAttributes] using h.symm
    exact Nat.le_refl 0
  | cons a rest ih =>
    obtain ⟨name, value⟩ := a
    cases hdeclared : declaredPrefix? name with
    | some pre =>
      rw [resolveAttributes, hdeclared] at h
      exact Nat.le_succ_of_le (ih h)
    | none =>
      obtain ⟨name', rest', -, hrest, rfl⟩ := resolveAttributes_cons_eq_some hdeclared h
      exact Nat.succ_le_succ (ih hrest)

theorem WritesAttributes.length_eq {attributes written : List (String × String)}
    (h : WritesAttributes w st attributes written st') : written.length = attributes.length := by
  induction h with
  | nil st => rfl
  | cons hname hrest ih => rw [List.length_cons, List.length_cons, ih]

variable {attributes written : List (String × String)}

/-- The attributes of a start tag resolve to what they were only if none of them lost its
namespace. -/
theorem WritesAttributes.not_of_resolve (hw : w.IsProper)
    (h : WritesAttributes w st attributes written st')
    (hnames : ∀ a ∈ attributes, IsAttributeName a.1) (hst : st.Follows w outer)
    (ht : Tracks w st.scope met) (hresolve : resolveAttributes bindings written = some attributes)
    (hmet : met = some true) :
    attributes.any (fun a ↦ isInDefault w.defaultNamespace a.1) = false := by
  induction h generalizing met with
  | nil st => rfl
  | @cons st mid st' name written value rest rest' hname hrest ih =>
    have hkeys : ∀ a ∈ rest, IsAttributeName a.1 := fun a ha ↦ hnames a (List.mem_cons_of_mem _ ha)
    rw [resolveAttributes] at hresolve
    cases hdeclared : declaredPrefix? written with
    | some pre =>
      -- a declaration is no attribute, so one attribute too few would be left
      rw [hdeclared] at hresolve
      have := length_resolveAttributes_le hresolve
      rw [hrest.length_eq, List.length_cons] at this
      omega
    | none =>
      rw [hdeclared] at hresolve
      simp only [Option.bind_eq_bind, Option.bind_eq_some_iff] at hresolve
      obtain ⟨name', hname', rest'', hrest'', hresolve⟩ := hresolve
      obtain ⟨rfl, rfl⟩ : name' = name ∧ rest'' = rest := by simpa using hresolve
      rw [List.any_cons, Bool.or_eq_false_iff]
      rcases hname.of_isAttributeName (hnames _ List.mem_cons_self) with
        ⟨-, rfl, -, -, -, hdefault⟩ | ⟨ns, plain, pre, rfl, hns, hplain, hpre, rfl⟩
      · exact ⟨hdefault _, ih hkeys hst ht hrest'' hmet⟩
      · have hin : (w.defaultNamespace == some ns && ns != xmlNamespace) = false := by
          -- without a prefix the name would resolve to its local part
          rw [Bool.eq_false_iff]
          intro hin
          obtain rfl := (hpre.eq_empty_iff hw hst ht).mpr ⟨hin, hmet⟩
          have hjoin : joinName "" plain = plain := rfl
          rw [hjoin, resolveAttributeName_plain hplain] at hname'
          exact expandedName_ne ns plain (Option.some.inj hname').symm
        have ht' := hpre.tracks hw ht
        rw [hin] at ht'
        rw [isInDefault_expandedName hns]
        exact ⟨hin, ih hkeys (hpre.follows hw hst) ht' hrest'' hmet⟩

/-- The attributes of a start tag resolve to what they were if none of them lost its namespace. No
written attribute looks like a declaration. -/
theorem WritesAttributes.resolve (hw : w.IsProper)
    (h : WritesAttributes w st attributes written st')
    (hnames : ∀ a ∈ attributes, IsAttributeName a.1) (hst : st.Follows w outer)
    (ht : Tracks w st.scope met)
    (hkeeps : met = some true →
      attributes.any (fun a ↦ isInDefault w.defaultNamespace a.1) = false)
    (hbindings : ∀ ns pre, st'.Knows ns pre → bindings.lookup pre = some ns) :
    (∀ a ∈ written, declaredPrefix? a.1 = none) ∧
      resolveAttributes bindings written = some attributes := by
  induction h generalizing met with
  | nil st => exact ⟨by simp, rfl⟩
  | @cons st mid st' name written value rest rest' hname hrest ih =>
    have hkeys : ∀ a ∈ rest, IsAttributeName a.1 := fun a ha ↦ hnames a (List.mem_cons_of_mem _ ha)
    have hkeep : met = some true → isInDefault w.defaultNamespace name = false ∧
        rest.any (fun a ↦ isInDefault w.defaultNamespace a.1) = false := by
      intro hmet
      have := hkeeps hmet
      rwa [List.any_cons, Bool.or_eq_false_iff] at this
    rcases hname.of_isAttributeName (hnames _ List.mem_cons_self) with
      ⟨rfl, rfl, -, hcolon, hxmlns, hdefault⟩ | ⟨ns, plain, pre, rfl, hns, hplain, hpre, rfl⟩
    · obtain ⟨hnone, hresolve⟩ := ih hkeys hst ht (fun hmet ↦ (hkeep hmet).2) hbindings
      have hkey := declaredPrefix?_plain hcolon hxmlns
      refine ⟨List.forall_mem_cons.mpr ⟨hkey, hnone⟩, ?_⟩
      rw [resolveAttributes, hkey]
      simp only [resolveAttributeName_plain hcolon, hresolve]
      rfl
    · rw [isInDefault_expandedName hns] at hkeep
      have hmid := hpre.follows hw hst
      have ht' := hpre.tracks hw ht
      -- to be met as that of an attribute does not make the namespace one of an element
      have hmet' {c : Bool} (h : (if c then met.or (some false) else met) = some true) :
          met = some true := by
        rcases met with _ | _ | _ <;> cases c <;> simp_all
      obtain ⟨hnone, hresolve⟩ := ih hkeys hmid ht' (fun h ↦ (hkeep (hmet' h)).2) hbindings
      have hne : pre ≠ "" := by
        intro hempty
        obtain ⟨hin, hmet⟩ := (hpre.eq_empty_iff hw hst ht).mp hempty
        rw [(hkeep hmet).1] at hin
        exact absurd hin (by decide)
      have hcolon := hmid.colon_not_mem hw hpre.knows
      have hxmlns := ((hmid.isName hw hpre.knows).resolve_left hne).2
      have hkey := declaredPrefix?_joinName hcolon hplain hne hxmlns
      have hlookup := hbindings ns pre (hpre.knows.mono hrest.extends)
      refine ⟨List.forall_mem_cons.mpr ⟨hkey, hnone⟩, ?_⟩
      rw [resolveAttributes, hkey]
      simp only [resolveAttributeName_joinName hcolon hplain hne hlookup, hresolve]
      rfl

/-! ### Trees -/

/-- The attributes that declare prefixes. -/
def declarationAttributes (declared : List (String × String)) : List (String × String) :=
  declared.map fun d ↦ (declarationName d.2, d.1)

theorem bind_append (attributes declared : List (String × String))
    (h : ∀ a ∈ attributes, declaredPrefix? a.1 = none) :
    bind bindings (attributes ++ declarationAttributes declared) =
      declareAll bindings declared := by
  have hnone : bind bindings attributes = bindings := by
    induction attributes with
    | nil => rfl
    | cons a rest ih =>
      have hfirst := h a List.mem_cons_self
      have hrest := ih fun b hb ↦ h b (List.mem_cons_of_mem _ hb)
      rw [bind, List.foldl_cons, hfirst]
      exact hrest
  have hdeclared : bind bindings (declarationAttributes declared) =
      declareAll bindings declared := by
    rw [bind, declarationAttributes, List.foldl_map]
    simp only [declaredPrefix?_declarationName]
    rfl
  rw [bind, List.foldl_append, ← bind, ← bind, hnone, hdeclared]

theorem resolveAttributes_append (attributes declared : List (String × String)) :
    resolveAttributes bindings (attributes ++ declarationAttributes declared) =
      resolveAttributes bindings attributes := by
  induction attributes with
  | nil =>
    induction declared with
    | nil => rfl
    | cons d rest ih =>
      show resolveAttributes bindings ((declarationName d.2, d.1) :: declarationAttributes rest) = _
      simp only [resolveAttributes, declaredPrefix?_declarationName]
      exact ih
  | cons a rest ih =>
    obtain ⟨name, value⟩ := a
    rw [List.cons_append, resolveAttributes, resolveAttributes, ih]

/-- The attributes of a written element, its declarations among them, resolve to what they were if
none of them lost its namespace. -/
theorem WritesAttributes.resolve_declared (hw : w.IsProper)
    (h : WritesAttributes w st attributes written st')
    (hnames : ∀ a ∈ attributes, IsAttributeName a.1) (hst : st.Follows w outer)
    (ht : Tracks w st.scope met)
    (hkeeps : met = some true →
      attributes.any (fun a ↦ isInDefault w.defaultNamespace a.1) = false) :
    bind outer (written ++ declarationAttributes st'.declared) = declareAll outer st'.declared ∧
      resolveAttributes (declareAll outer st'.declared)
        (written ++ declarationAttributes st'.declared) = some attributes := by
  obtain ⟨hst', -⟩ := h.follows hw hst ht
  obtain ⟨hnone, hresolve⟩ := h.resolve hw hnames hst ht hkeeps fun _ _ hknows ↦ hst'.lookup hknows
  exact ⟨bind_append _ _ hnone, by rw [resolveAttributes_append, hresolve]⟩

theorem writtenText_eq_ok {v : Value} {s : String} (h : writtenText v = .ok s) :
    s = v.text?.getD "" := by
  have hfalse : ∀ {e : Fault},
      (if v.isTruthy then Except.error e else .ok "") = .ok s → s = "" := by
    intro e h
    split at h
    · exact absurd h (by simp)
    · simpa using h.symm
  cases v with
  | text t => simpa [writtenText] using h.symm
  | bytes bs =>
    cases bs with
    | nil => exact hfalse (e := .missingPart) h
    | cons b bs => exact absurd h (by simp [writtenText])
  | _ => exact hfalse (e := .missingPart) h

/-- How the markup of an element came about. -/
theorem Writes.inv {scope : PrefixTable} {e : Element} {m : Markup} (h : Writes w scope e m) :
    ∃ mid st, WritesName w true ⟨scope, []⟩ e.tag m.name mid ∧
      WritesAttributes w mid e.attributes m.attributes st ∧ m.declarations = st.declared ∧
      m.text = e.text.text?.getD "" ∧ WritesAll w st.scope e.children m.children := by
  cases h with
  | element hname hattributes htext hchildren =>
    exact ⟨_, _, hname, hattributes, rfl, writtenText_eq_ok htext, hchildren⟩

theorem Agrees.follows {scope : PrefixTable} (h : Agrees w outer scope) :
    Naming.Follows w outer ⟨scope, []⟩ := ⟨h, by simp, by simp⟩

/-- What a tag resolves to. -/
theorem WritesName.resolveTag (hw : w.IsProper) {scope : PrefixTable} {mid : Naming}
    {tag name : String} (h : WritesName w true ⟨scope, []⟩ tag name mid) (htag : IsTagName tag)
    (hagrees : Agrees w outer scope)
    (hbindings : ∀ ns pre, mid.Knows ns pre → bindings.lookup pre = some ns) :
    Xml.resolveTag bindings name = some tag := by
  obtain ⟨ns, plain, pre, rfl, hne, hns, hplain, hpre, rfl⟩ := h.of_isTagName htag
  have hmid := hpre.follows hw hagrees.follows
  exact resolveTag_joinName (hmid.colon_not_mem hw hpre.knows) hplain hne (hbindings _ _ hpre.knows)

mutual

/-- A tree resolves to what it was if and only if its attributes keep the default namespace. -/
theorem Writes.resolve_iff (hw : w.IsProper) (outer : Bindings) (met : Option Bool) :
    ∀ (e : Element) (m : Markup) (scope : PrefixTable), Writes w scope e m →
      (∀ x ∈ e.nodes, x.IsNamed) → Agrees w outer scope → Tracks w scope met →
      (m.written.resolve outer = some e.plain ↔
        e.keepsAttributes w.defaultNamespace met = true)
  | ⟨tag, attributes, text, tail, children⟩, ⟨name, written, declarations, text', children'⟩, scope,
      h, hnames, hagrees, ht => by
    obtain ⟨mid, st, hname, hattributes, rfl, rfl, hchildren⟩ := h.inv
    obtain ⟨htag, hkeys⟩ := hnames _ List.mem_cons_self
    obtain ⟨hmid, ht'⟩ := hname.follows hw hagrees.follows ht
    obtain ⟨hst, ht''⟩ := hattributes.follows hw hmid ht'
    have hall := WritesAll.resolve_iff hw (declareAll outer st.declared) _ children children'
      st.scope hchildren (fun x hx ↦ hnames x (List.mem_cons_of_mem _ hx)) hst.agrees ht''
    rw [Element.resolve_eq_some, Element.keepsAttributes_iff]
    constructor
    · rintro ⟨-, hattrs, hchildren', -, -⟩
      -- an attribute that lost its namespace would not be resolved to itself
      have hkeep : meet w.defaultNamespace true met tag = some true →
          attributes.any (fun a ↦ isInDefault w.defaultNamespace a.1) = false := by
        change resolveAttributes _ (written ++ declarationAttributes st.declared) = _ at hattrs
        rw [resolveAttributes_append] at hattrs
        exact hattributes.not_of_resolve hw hkeys hmid ht' hattrs
      obtain ⟨hinner, -⟩ := hattributes.resolve_declared hw hkeys hmid ht' hkeep
      change Element.resolveAll (bind outer (written ++ declarationAttributes st.declared)) _ = _
        at hchildren'
      rw [hinner] at hchildren'
      exact ⟨hkeep, hall.mp hchildren'⟩
    · rintro ⟨hkeep, hkeepAll⟩
      obtain ⟨hinner, hattrs⟩ := hattributes.resolve_declared hw hkeys hmid ht' hkeep
      refine ⟨?_, ?_, ?_, rfl, rfl⟩
      · show resolveTag (bind outer (written ++ declarationAttributes st.declared)) name = some tag
        rw [hinner]
        exact hname.resolveTag hw htag hagrees fun ns pre h ↦
          hst.lookup (h.mono hattributes.extends)
      · show resolveAttributes (bind outer (written ++ declarationAttributes st.declared))
          (written ++ declarationAttributes st.declared) = _
        rw [hinner, hattrs]
        rfl
      · show Element.resolveAll (bind outer (written ++ declarationAttributes st.declared)) _ = _
        rw [hinner]
        exact hall.mpr hkeepAll

theorem WritesAll.resolve_iff (hw : w.IsProper) (outer : Bindings) (met : Option Bool) :
    ∀ (es : List Element) (ms : List Markup) (scope : PrefixTable), WritesAll w scope es ms →
      (∀ x ∈ Element.nodesAll es, x.IsNamed) → Agrees w outer scope → Tracks w scope met →
      (Element.resolveAll outer (Markup.writtenAll ms) = some (Element.plainAll es) ↔
        Element.keepsAllAttributes w.defaultNamespace met es = true)
  | [], _, scope, .nil _, _, _, _ => iff_of_true rfl rfl
  | e :: rest, _, scope, .cons hfirst hrest, hnames, hagrees, ht => by
    have hone := Writes.resolve_iff hw outer met e _ scope hfirst
      (fun x hx ↦ hnames x (List.mem_append_left _ hx)) hagrees ht
    have hall := WritesAll.resolve_iff hw outer met rest _ scope hrest
      (fun x hx ↦ hnames x (List.mem_append_right _ hx)) hagrees ht
    rw [Markup.writtenAll, Element.plainAll, Element.resolveAll_cons_eq_some,
      Element.keepsAllAttributes, Bool.and_eq_true_iff, ← hone, ← hall]
    constructor
    · rintro ⟨e', rest', he, hrest', heq⟩
      obtain ⟨rfl, rfl⟩ := List.cons.inj heq
      exact ⟨he, hrest'⟩
    · rintro ⟨he, hrest'⟩
      exact ⟨_, _, he, hrest', rfl⟩

end

end ContactCard.Xml
