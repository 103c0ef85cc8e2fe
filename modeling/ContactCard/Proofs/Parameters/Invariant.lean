import ContactCard.Proofs.Parameters
import ContactCard.Proofs.Text.Case

/-!
# Parameters as they are kept

Parameters that came about by making and changing them are tidy (`Parameters.IsTidy`): a name stands
there once and in lower case. They are in normal form (`Parameters.IsNormal`) if every name has a
value besides; this is what all changes keep but the putting of a value without a text, which leaves
its name behind. That the names are distinct rests on a name in lower case being its own lower case.
In normal form a name is there just when it has values, and parameters can be made again from their
items (`IsNormal.ofPairs_items`). Tidy ones can be made again from their entries (`IsKept.copy_eq`).

No look-up and no change depends on the case of the name that it is given: it is the same with the
name in lower case (`getAll_toLower` and the lemmas after it).
-/

namespace ContactCard.Parameters

open Text

/-- The names are distinct and in lower case, and each of them has a value unless there may be bare
names. -/
structure IsKept (bare : Prop) (p : Parameters) : Prop where
  nodup : p.names.Nodup
  lower : ∀ name ∈ p.names, toLower name = name
  values : ∀ e ∈ p.table.entries, e.2 = [] → bare

/-- The names are distinct and in lower case. -/
abbrev IsTidy (p : Parameters) : Prop := p.IsKept True

/-- The names are distinct and in lower case, and each of them has a value. -/
abbrev IsNormal (p : Parameters) : Prop := p.IsKept False

variable {p q : Parameters} {name : String} {bare : Prop} {v : Value}

theorem isKept_empty : IsKept bare empty :=
  ⟨List.nodup_nil, fun _ h ↦ absurd h List.not_mem_nil, fun _ h ↦ absurd h List.not_mem_nil⟩

theorem IsNormal.weaken (h : p.IsNormal) : p.IsKept bare :=
  ⟨h.nodup, h.lower, fun e he hnil ↦ absurd hnil (h.values e he)⟩

namespace IsKept

/-! ### What changes keep -/

theorem insert (h : p.IsKept bare) (name : String) {values : List String}
    (hvalues : values = [] → bare) : IsKept bare ⟨p.table.insert (toLower name) values⟩ where
  nodup := OrderedMap.nodup_keys_insert h.nodup _ _
  lower a ha := by
    rcases OrderedMap.mem_keys_insert.mp ha with rfl | ha
    · exact toLower_toLower name
    · exact h.lower a ha
  values e he := by
    rcases OrderedMap.eq_or_mem_of_mem_insertEntry he with rfl | he
    · exact hvalues
    · exact h.values e he

theorem remove (h : p.IsKept bare) (name : String) : (p.remove name).IsKept bare where
  nodup := OrderedMap.nodup_keys_erase h.nodup _
  lower a ha := h.lower a ((p.table.keys_erase_sublist _).subset ha)
  values e he := h.values e (List.mem_of_mem_filter he)

theorem add (h : p.IsKept bare) (name value : String) : (p.add name value).IsKept bare :=
  h.insert name (by simp)

theorem set (h : p.IsKept bare) (name value : String) : (p.set name value).IsKept bare :=
  (h.remove name).insert name (by simp)

theorem replace (h : p.IsKept bare) (name : String) (v : Value) :
    (p.replace name v).1.IsKept bare := by
  unfold Parameters.replace
  split
  · exact h.remove name
  · split
    · exact h.set name _
    · exact h.remove name

/-- Only a value without a text may leave a bare name. -/
theorem put (h : p.IsKept bare) (name : String) (hv : v.isWritable = false → bare) :
    (p.put name v).1.IsKept bare := by
  unfold Parameters.put
  split
  · exact h
  · split
    · exact h.add name _
    · next f hf =>
      rcases v.toText_cases with ⟨⟨s, hs⟩, -⟩ | ⟨-, hunwritable⟩
      · exact absurd (hs.symm.trans hf) nofun
      · exact h.insert name fun _ ↦ hv hunwritable

/-- The last value that is removed takes the name with it. -/
theorem removeValue? (h : p.IsKept bare) (hq : p.removeValue? name v = some q) :
    q.IsKept bare := by
  simp only [Parameters.removeValue?] at hq
  split at hq
  · split at hq
    · exact Option.some.inj hq ▸ h.remove name
    · next hrest => exact Option.some.inj hq ▸ h.insert name fun hnil ↦ absurd hnil hrest
  · exact absurd hq (by simp)

theorem setPreference (h : p.IsKept bare) (hq : p.setPreference v = .ok q) : q.IsKept bare := by
  unfold Parameters.setPreference at hq
  split at hq
  · exact Except.ok.inj hq ▸ h.remove "pref"
  · obtain ⟨i, -, hq⟩ := exists_of_bind_eq_ok hq
    split at hq
    · exact absurd hq (by simp [throw, throwThe, MonadExceptOf.throw, Bind.bind, Except.bind])
    · exact Except.ok.inj hq ▸ h.set "pref" _

theorem assignTo (h : p.IsKept bare) (a : Accessor) (v : Value) :
    (p.assignTo a v).1.IsKept bare := by
  unfold Parameters.assignTo
  split
  · exact h
  · cases hq : p.setPreference v with
    | ok q => exact h.setPreference hq
    | error e => exact h
  · exact h.replace _ v

end IsKept

/-! ### Parameters that are made -/

namespace IsNormal

/-- What is put without a refusal has a text. -/
theorem put_of_eq_ok (h : p.IsNormal) (hq : unlessRefused (p.put name v) = .ok q) :
    q.IsNormal := by
  rcases v.toText_cases with ⟨⟨s, hs⟩, -⟩ | ⟨hf, -⟩
  · by_cases hv : v = .null
    · subst hv
      exact absurd hq nofun
    · rw [put_of_toText p hv hs] at hq
      exact Except.ok.inj hq ▸ h.add name s
  · rw [put_of_toText_error p hf] at hq
    exact absurd hq nofun

/-- What every step keeps, steps one after the other keep. -/
theorem foldlM {α : Type} {f : Parameters → α → Except Error Parameters}
    (hf : ∀ {p a q}, p.IsNormal → f p a = .ok q → q.IsNormal) (h : p.IsNormal) {as : List α}
    (hq : as.foldlM f p = .ok q) : q.IsNormal := by
  induction as generalizing p with
  | nil => exact Except.ok.inj hq ▸ h
  | cons a rest ih =>
    rw [List.foldlM_cons] at hq
    obtain ⟨p', hp', hq⟩ := exists_of_bind_eq_ok hq
    exact ih (hf h hp') hq

theorem putAll (h : p.IsNormal) (hq : p.putAll name v = .ok q) : q.IsNormal := by
  unfold Parameters.putAll at hq
  split at hq
  · exact h.foldlM (fun h hq ↦ h.put_of_eq_ok hq) hq
  · exact h.put_of_eq_ok hq

end IsNormal

/-- Parameters are made in normal form. -/
theorem isNormal_ofPairs {pairs : List (String × Value)} (h : ofPairs pairs = .ok p) :
    p.IsNormal := IsNormal.foldlM (fun h hq ↦ h.putAll hq) isKept_empty h

/-! ### What is there has values -/

theorem IsNormal.contains_iff (h : p.IsNormal) (name : String) :
    p.contains name = true ↔ p.getAll name ≠ [] := by
  rw [contains, OrderedMap.contains, getAll]
  cases hvalues : p.table.get? (toLower name) with
  | none => simp
  | some values =>
    have hne : values ≠ [] := h.values (toLower name, values) (mem_of_lookup hvalues)
    simpa using hne

theorem getAll_ne_nil_iff (p : Parameters) (name : String) :
    p.getAll name ≠ [] ↔ p.get? name ≠ none := by
  rw [get?, ne_eq, ne_eq, List.head?_eq_none_iff]

/-! ### Making parameters again -/

/-- Values that are added one by one are added together. -/
theorem foldlM_put_texts (p : Parameters) (name : String) {values : List String}
    (h : values ≠ []) :
    (values.map Value.text).foldlM (fun p v ↦ unlessRefused (p.put name v)) p =
      .ok ⟨p.table.insert (toLower name) (p.getAll name ++ values)⟩ := by
  induction values generalizing p with
  | nil => exact absurd rfl h
  | cons s rest ih =>
    show (rest.map Value.text).foldlM (fun p v ↦ unlessRefused (p.put name v)) (p.add name s) = _
    by_cases hrest : rest = []
    · subst hrest
      rfl
    · rw [ih (p.add name s) hrest, getAll_add_self, add, OrderedMap.insert_insert, List.append_assoc]
      rfl

theorem getAll_of_not_mem (h : toLower name ∉ p.names) : p.getAll name = [] := by
  rw [names, ← OrderedMap.contains_iff_mem_keys, OrderedMap.contains, Bool.not_eq_true,
    Option.isSome_eq_false_iff, Option.isNone_iff_eq_none] at h
  rw [getAll, h]
  rfl

/-- Items with new names are added at the end. -/
theorem foldlM_putAll_items {es : List (String × List String)}
    (hnodup : (p.names ++ es.map Prod.fst).Nodup) (hlower : ∀ e ∈ es, toLower e.1 = e.1)
    (hnonempty : ∀ e ∈ es, e.2 ≠ []) :
    (es.map fun (name, values) ↦ (name, Value.list (values.map .text))).foldlM
      (fun p e ↦ p.putAll e.1 e.2) p = .ok ⟨⟨p.table.entries ++ es⟩⟩ := by
  induction es generalizing p with
  | nil => simp [pure, Except.pure]
  | cons e rest ih =>
    obtain ⟨name, values⟩ := e
    obtain ⟨hname, hlower⟩ := List.forall_mem_cons.mp hlower
    obtain ⟨hvalues, hnonempty⟩ := List.forall_mem_cons.mp hnonempty
    obtain ⟨-, -, hdisjoint⟩ := List.nodup_append.mp hnodup
    have hfresh : toLower name ∉ p.names := by
      rw [hname]
      exact fun hmem ↦ hdisjoint name hmem name (by simp) rfl
    have hput : p.putAll name (.list (values.map .text)) =
        .ok ⟨⟨p.table.entries ++ [(name, values)]⟩⟩ := by
      rw [putAll, foldlM_put_texts p name hvalues, getAll_of_not_mem hfresh, OrderedMap.insert,
        OrderedMap.insertEntry_of_not_mem _ hfresh, hname]
      rfl
    have hnext : (names ⟨⟨p.table.entries ++ [(name, values)]⟩⟩ ++ rest.map Prod.fst).Nodup := by
      simpa [names, OrderedMap.keys] using hnodup
    rw [List.map_cons, List.foldlM_cons, hput]
    show List.foldlM _ _ _ = _
    rw [ih hnext hlower hnonempty, List.append_assoc]
    rfl

theorem IsNormal.ofPairs_items (h : p.IsNormal) : ofPairs p.items = .ok p := by
  have hlower : ∀ e ∈ p.table.entries, toLower e.1 = e.1 := fun e he ↦
    h.lower e.1 (List.mem_map_of_mem he)
  exact foldlM_putAll_items (p := empty) h.nodup hlower h.values

theorem IsKept.copy_eq (h : p.IsKept bare) : p.copy = p := by
  rw [copy, OrderedMap.ofList_entries h.nodup]

/-! ### The case of names -/

section Lowered

variable (p) (name)

@[simp] theorem getAll_toLower : p.getAll (toLower name) = p.getAll name := by
  rw [getAll, toLower_toLower, getAll]

@[simp] theorem contains_toLower : p.contains (toLower name) = p.contains name := by
  rw [contains, toLower_toLower, contains]

@[simp] theorem remove_toLower : p.remove (toLower name) = p.remove name := by
  rw [remove, toLower_toLower, remove]

@[simp] theorem add_toLower (value : String) : p.add (toLower name) value = p.add name value := by
  rw [add, getAll_toLower, toLower_toLower, add]

@[simp] theorem set_toLower (value : String) : p.set (toLower name) value = p.set name value := by
  rw [set, remove_toLower, toLower_toLower, set]

@[simp] theorem reserve_toLower : p.reserve (toLower name) = p.reserve name := by
  rw [reserve, getAll_toLower, toLower_toLower, reserve]

@[simp] theorem put_toLower (v : Value) : p.put (toLower name) v = p.put name v := by
  simp only [put, add_toLower, reserve_toLower]

@[simp] theorem replace_toLower (v : Value) : p.replace (toLower name) v = p.replace name v := by
  simp only [replace, remove_toLower, set_toLower]

@[simp] theorem removeValue?_toLower (v : Value) :
    p.removeValue? (toLower name) v = p.removeValue? name v := by
  simp only [removeValue?, getAll_toLower, remove_toLower, toLower_toLower]

@[simp] theorem putAll_toLower (v : Value) : p.putAll (toLower name) v = p.putAll name v := by
  cases v <;> simp only [putAll, put_toLower]

end Lowered

/-- The names of pairs do not depend on their case. -/
theorem ofPairs_toLower (pairs : List (String × Value)) :
    ofPairs (pairs.map fun e ↦ (toLower e.1, e.2)) = ofPairs pairs := by
  simp only [ofPairs, List.foldlM_map, putAll_toLower]

end ContactCard.Parameters
