import ContactCard.Proofs.Xml.Prefix

/-!
# Scopes of prefixes

A writer remembers which prefix it has declared for a namespace, and a reader which namespace a
prefix stands for. The two agree (`Agrees`): no prefix in scope is ever declared for a second
namespace, so whatever the writer remembers, the reader finds.

The invariant is about one start tag at a time (`Naming.Follows`), since a tag declares prefixes
while its names are written and a reader knows all of them from its beginning. Each choice of a
prefix preserves it (`Chooses.follows`), and what a prefix stood for it still stands for
(`Chooses.extends`).
-/

namespace ContactCard.Xml

open Text

/-- The registered prefixes of a writer are names, and no two namespaces share one. -/
structure Writer.IsProper (w : Writer) : Prop where
  oddities : w.oddities = []
  injective : ∀ {ns ns' pre : String}, w.prefixes.get? ns = some pre →
    w.prefixes.get? ns' = some pre → ns = ns'
  isName : ∀ {ns pre : String}, w.prefixes.get? ns = some pre → ns ≠ xmlNamespace →
    isNCName pre.toList = true ∧ pre ≠ "xml" ∧ pre ≠ "xmlns"

/-- The bindings inside a start tag with the declarations. -/
def declareAll (bindings : Bindings) (declared : List (String × String)) : Bindings :=
  declared.foldl (fun bindings d ↦ (d.2, d.1) :: bindings) bindings

theorem declareAll_concat (bindings : Bindings) (declared : List (String × String))
    (d : String × String) :
    declareAll bindings (declared ++ [d]) = (d.2, d.1) :: declareAll bindings declared := by
  rw [declareAll, List.foldl_append]
  rfl

/-- Where a prefix comes from: it is that of the default namespace, a registered one or a new one.
-/
def HasOrigin (w : Writer) (ns pre : String) : Prop :=
  pre = "" ∧ w.defaultNamespace = some ns ∨ w.prefixes.get? ns = some pre ∨
    ∃ n, pre = numberedPrefix n ∧ pre ∉ w.prefixes.values

/-- What a writer has in scope is what the bindings of a reader say. -/
structure Agrees (w : Writer) (bindings : Bindings) (scope : PrefixTable) : Prop where
  lookup : ∀ {ns pre : String}, scope.get? ns = some pre → bindings.lookup pre = some ns
  reserved : bindings.lookup "xml" = some xmlNamespace
  isReserved : scope.get? xmlNamespace = none
  origin : ∀ {ns pre : String}, scope.get? ns = some pre → HasOrigin w ns pre

/-- What is known about prefixes inside a start tag agrees with the bindings outside of it and the
declarations that it has. -/
structure Naming.Follows (w : Writer) (outer : Bindings) (st : Naming) : Prop where
  agrees : Agrees w (declareAll outer st.declared) st.scope
  declared : ∀ d ∈ st.declared, st.scope.get? d.1 = some d.2
  nodup : (st.declared.map Prod.snd).Nodup

/-! ### New writers -/

theorem get?_new {d : Option String} {ns pre : String} :
    (Writer.new d).prefixes.get? ns = some pre ↔ ns = xmlNamespace ∧ pre = "xml" := by
  by_cases hns : ns = xmlNamespace
  · subst hns
    rw [Writer.new, OrderedMap.get?_insert_self]
    simp [eq_comm]
  · rw [Writer.new, OrderedMap.get?_insert_of_ne hns]
    simp [hns, OrderedMap.get?, OrderedMap.empty]

theorem Writer.IsProper.new (d : Option String) (n : Nat) :
    Writer.IsProper { Writer.new d with nextNumber := n } := by
  refine ⟨rfl, fun {ns ns' pre} h h' ↦ ?_, fun {ns pre} h hns ↦ ?_⟩
  · obtain ⟨rfl, -⟩ := (get?_new (d := d)).mp h
    exact ((get?_new (d := d)).mp h').1.symm
  · exact absurd ((get?_new (d := d)).mp h).1 hns

theorem Agrees.empty (w : Writer) : Agrees w outerBindings ∅ := by
  have hnone : ∀ {ns pre : String}, (∅ : PrefixTable).get? ns ≠ some pre := by
    intro ns pre h
    exact absurd (show none = some pre from h) (by simp)
  exact ⟨fun h ↦ (hnone h).elim, rfl, rfl, fun h ↦ (hnone h).elim⟩

variable {w : Writer} {outer : Bindings} {st st' : Naming} {isElement : Bool} {ns pre : String}

/-! ### Prefixes -/

theorem isNCName_numberedPrefix (n : Nat) : isNCName (numberedPrefix n).toList = true := by
  have hcs : (numberedPrefix n).toList = 'n' :: 's' :: (toString n).toList := by
    simp [numberedPrefix, String.toList_append]
  have hdigits : ∀ c ∈ (toString n).toList, isNamePart c = true := by
    intro c hc
    rw [Nat.toString_eq_ofList_toDigits, String.toList_ofList] at hc
    have hc := Nat.isDigit_of_mem_toDigits (by decide) (by decide) hc
    simp only [Char.isDigit, Bool.and_eq_true, decide_eq_true_eq, ge_iff_le, UInt32.le_iff_toNat_le]
      at hc
    have hn : 48 ≤ c.toNat ∧ c.toNat ≤ 57 := hc
    have hother : inRanges c.toNat nameOtherRanges = true := by
      simp only [nameOtherRanges, inRanges]
      repeat' split
      all_goals first | rfl | omega
    rw [isNamePart, hother, Bool.or_true]
  have hstart : isNameStart 'n' = true ∧ isNamePart 's' = true := by decide +kernel
  rw [hcs, isNCName, hstart.1, Bool.true_and, List.all_cons, hstart.2, Bool.true_and,
    List.all_eq_true]
  exact hdigits

theorem numberedPrefix_ne (n : Nat) {s : String} (hs : ¬['n', 's'] <+: s.toList) :
    numberedPrefix n ≠ s := by
  rintro rfl
  exact hs ⟨(toString n).toList, by simp [numberedPrefix, String.toList_append]⟩

/-- A prefix that is not that of the default namespace is a name, and not a reserved one. -/
theorem HasOrigin.isName (hw : w.IsProper) (h : HasOrigin w ns pre) (hns : ns ≠ xmlNamespace)
    (hpre : pre ≠ "") : isNCName pre.toList = true ∧ pre ≠ "xml" ∧ pre ≠ "xmlns" := by
  rcases h with ⟨h, -⟩ | h | ⟨n, rfl, -⟩
  · exact absurd h hpre
  · exact hw.isName h hns
  · exact ⟨isNCName_numberedPrefix n, numberedPrefix_ne n (by decide),
      numberedPrefix_ne n (by decide)⟩

/-! ### Declarations -/

theorem get?_declare_self (st : Naming) (ns pre : String) :
    (st.declare ns pre).scope.get? ns = some pre := OrderedMap.get?_insert_self _ _ _

theorem get?_declare_of_ne {ns' : String} (h : ns' ≠ ns) (st : Naming) (pre : String) :
    (st.declare ns pre).scope.get? ns' = st.scope.get? ns' := OrderedMap.get?_insert_of_ne h _ _

theorem eq_or_of_get?_declare {ns' pre' : String}
    (h : (st.declare ns pre).scope.get? ns' = some pre') :
    ns' = ns ∧ pre' = pre ∨ st.scope.get? ns' = some pre' := by
  by_cases hne : ns' = ns
  · subst hne
    rw [get?_declare_self] at h
    exact .inl ⟨rfl, (Option.some.inj h).symm⟩
  · rw [get?_declare_of_ne hne] at h
    exact .inr h

/-- What is declared stays in scope. -/
theorem get?_of_mem_declare (hscope : st.scope.get? ns = none)
    (h : ∀ d ∈ st.declared, st.scope.get? d.1 = some d.2) :
    ∀ d ∈ (st.declare ns pre).declared, (st.declare ns pre).scope.get? d.1 = some d.2 := by
  intro d hd
  rcases List.mem_append.mp hd with hd | hd
  · have hget := h d hd
    have hne : d.1 ≠ ns := by
      intro heq
      rw [heq, hscope] at hget
      exact absurd hget (by simp)
    rwa [get?_declare_of_ne hne]
  · obtain rfl := List.mem_singleton.mp hd
    exact get?_declare_self st ns pre

/-- A declaration keeps the agreement if its prefix was not in scope. -/
theorem Naming.Follows.declare (hst : st.Follows w outer) (hscope : st.scope.get? ns = none)
    (hns : ns ≠ xmlNamespace) (hnew : ∀ ns', st.scope.get? ns' ≠ some pre) (hxml : pre ≠ "xml")
    (horigin : HasOrigin w ns pre) : (st.declare ns pre).Follows w outer := by
  have hbindings : declareAll outer (st.declare ns pre).declared =
      (pre, ns) :: declareAll outer st.declared := declareAll_concat _ _ _
  -- the new binding hides no other, as its prefix is new
  have hother : ∀ {pre' : String}, pre' ≠ pre →
      (declareAll outer (st.declare ns pre).declared).lookup pre' =
        (declareAll outer st.declared).lookup pre' := by
    intro pre' hne
    rw [hbindings, List.lookup_cons, beq_eq_false_iff_ne.mpr hne]
  refine ⟨⟨fun h ↦ ?_, ?_, ?_, fun h ↦ ?_⟩, get?_of_mem_declare hscope hst.declared, ?_⟩
  · rcases eq_or_of_get?_declare h with ⟨rfl, rfl⟩ | h
    · rw [hbindings, List.lookup_cons_self]
    · rw [hother fun heq ↦ hnew _ (heq ▸ h)]
      exact hst.agrees.lookup h
  · rw [hother (Ne.symm hxml)]
    exact hst.agrees.reserved
  · rw [get?_declare_of_ne hns.symm]
    exact hst.agrees.isReserved
  · rcases eq_or_of_get?_declare h with ⟨rfl, rfl⟩ | h
    · exact horigin
    · exact hst.agrees.origin h
  · have hmem : pre ∉ st.declared.map Prod.snd := by
      intro hmem
      obtain ⟨d, hd, hpre⟩ := List.mem_map.mp hmem
      exact hnew d.1 (hpre ▸ hst.declared d hd)
    show ((st.declared ++ [(ns, pre)]).map Prod.snd).Nodup
    rw [List.map_append, List.nodup_append]
    refine ⟨hst.nodup, by simp, fun a ha b hb ↦ ?_⟩
    obtain rfl : b = pre := by simpa using hb
    rintro rfl
    exact hmem ha

/-! ### Choices -/

/-- Every choice of a prefix keeps the agreement. -/
theorem Chooses.follows (hw : w.IsProper) (h : Chooses w isElement st ns pre st')
    (hst : st.Follows w outer) : st'.Follows w outer := by
  cases h with
  | inScope h => exact hst
  | reserved hscope h => exact hst
  | default hscope hns he h =>
    refine hst.declare hscope hns (fun ns' hns' ↦ ?_) (by decide) (.inl ⟨rfl, h⟩)
    -- the empty prefix can only be that of the default namespace, which is not in scope yet
    rcases hst.agrees.origin hns' with ⟨-, hd⟩ | hd | ⟨n, hd, -⟩
    · rw [h, Option.some.injEq] at hd
      rw [← hd, hscope] at hns'
      exact absurd hns' (by simp)
    · by_cases hxml : ns' = xmlNamespace
      · rw [hxml, hst.agrees.isReserved] at hns'
        exact absurd hns' (by simp)
      · exact absurd (hw.isName hd hxml).1 (by decide)
    · exact absurd hd.symm (numberedPrefix_ne n (by decide))
  | registered hscope hns hdefault h =>
    refine hst.declare hscope hns (fun ns' hns' ↦ ?_) (hw.isName h hns).2.1 (.inr (.inl h))
    -- registered prefixes are names, differ from one another and are never taken for numbers
    rcases hst.agrees.origin hns' with ⟨rfl, -⟩ | hd | ⟨n, -, hd⟩
    · exact absurd (hw.isName h hns).1 (by decide)
    · rw [hw.injective hd h, hscope] at hns'
      exact absurd hns' (by simp)
    · exact hd (OrderedMap.mem_values_of_get? h)
  | new hscope hns hdefault h =>
    rw [List.mem_append, not_or] at h
    exact hst.declare hscope hns (fun ns' hns' ↦ h.2 (OrderedMap.mem_values_of_get? hns'))
      (numberedPrefix_ne _ (by decide)) (.inr (.inr ⟨_, rfl, h.1⟩))

/-- What one naming has in scope the other has, too. -/
def Naming.Extends (st st' : Naming) : Prop :=
  ∀ ns pre, st.scope.get? ns = some pre → st'.scope.get? ns = some pre

theorem Naming.Extends.refl (st : Naming) : st.Extends st := fun _ _ h ↦ h

theorem Naming.Extends.trans {st'' : Naming} (h : st.Extends st') (h' : st'.Extends st'') :
    st.Extends st'' := fun ns pre hget ↦ h' ns pre (h ns pre hget)

theorem Chooses.extends (h : Chooses w isElement st ns pre st') : st.Extends st' := by
  rcases h.eq_or_eq_declare with rfl | ⟨hscope, rfl⟩
  · exact .refl st'
  · intro ns' pre' hget
    have hne : ns' ≠ ns := by
      rintro rfl
      rw [hscope] at hget
      exact absurd hget (by simp)
    rwa [get?_declare_of_ne hne]

theorem WritesName.extends {name written : String}
    (h : WritesName w isElement st name written st') :
    st.Extends st' := by
  cases h with
  | plain h => exact .refl st
  | qualified h hpre => exact hpre.extends

theorem WritesAttributes.extends {attributes written : List (String × String)}
    (h : WritesAttributes w st attributes written st') : st.Extends st' := by
  induction h with
  | nil st => exact .refl st
  | cons hname hrest ih => exact hname.extends.trans ih

/-- A start tag declares nothing but the namespaces for which prefixes are chosen. -/
theorem Chooses.eq_of_mem_declared (h : Chooses w isElement st ns pre st') {d : String × String}
    (hd : d ∈ st'.declared) : d ∈ st.declared ∨ d.1 = ns := by
  rcases h.eq_or_eq_declare with rfl | ⟨-, rfl⟩
  · exact .inl hd
  · exact (List.mem_append.mp hd).imp_right fun hd ↦ by rw [List.mem_singleton.mp hd]

/-- The prefix stands for the namespace. -/
def Naming.Knows (st : Naming) (ns pre : String) : Prop :=
  st.scope.get? ns = some pre ∨ ns = xmlNamespace ∧ pre = "xml"

theorem Naming.Knows.mono (h : st.Knows ns pre) (hst : st.Extends st') : st'.Knows ns pre :=
  h.imp_left fun h ↦ hst _ _ h

/-- A prefix that was chosen for a namespace stands for it. -/
theorem Chooses.knows (h : Chooses w isElement st ns pre st') : st'.Knows ns pre := by
  cases h with
  | inScope h => exact .inl h
  | reserved hscope h => exact .inr ⟨h, rfl⟩
  | default hscope hns he h => exact .inl (get?_declare_self _ _ _)
  | registered hscope hns hdefault h => exact .inl (get?_declare_self _ _ _)
  | new hscope hns hdefault h => exact .inl (get?_declare_self _ _ _)

/-- The bindings of a reader have the namespace for which a prefix stands. -/
theorem Naming.Follows.lookup (hst : st.Follows w outer) (h : st.Knows ns pre) :
    (declareAll outer st.declared).lookup pre = some ns := by
  rcases h with h | ⟨rfl, rfl⟩
  · exact hst.agrees.lookup h
  · exact hst.agrees.reserved

/-- A prefix that stands for a namespace is empty or a name. -/
theorem Naming.Follows.isName (hw : w.IsProper) (hst : st.Follows w outer) (h : st.Knows ns pre) :
    pre = "" ∨ isNCName pre.toList = true ∧ pre ≠ "xmlns" := by
  rcases h with h | ⟨-, rfl⟩
  · by_cases hempty : pre = ""
    · exact .inl hempty
    · have hns : ns ≠ xmlNamespace := by
        rintro rfl
        rw [hst.agrees.isReserved] at h
        exact absurd h (by simp)
      have hname := (hst.agrees.origin h).isName hw hns hempty
      exact .inr ⟨hname.1, hname.2.2⟩
  · exact .inr ⟨by decide +kernel, by decide⟩

theorem Naming.Follows.colon_not_mem (hw : w.IsProper) (hst : st.Follows w outer)
    (h : st.Knows ns pre) : ':' ∉ pre.toList := by
  rcases hst.isName hw h with rfl | ⟨hname, -⟩
  · exact List.not_mem_nil
  · exact colon_not_mem_of_isNCName hname

end ContactCard.Xml
