/-!
# Maps that keep the order of insertion

A map as the list of its entries, in the order in which their keys were first inserted. Giving a key
a new value leaves the key where it is; a key that was erased and comes back stands at the end.

## Main statements

* `get?_insert_self`, `get?_insert_of_ne`: what a look-up finds after an insertion.
* `keys_insert_of_contains`, `keys_insert_of_not_contains`: where the key stands afterwards.
* `get?_erase_self`, `get?_erase_of_ne`: what a look-up finds after a removal.
* `nodup_keys_insert`, `nodup_keys_erase`: no key gets a second entry.
* `ofList_entries`: a map is made again from its entries.
-/

namespace ContactCard

/-- What a look-up in a list of pairs finds is one of them. -/
theorem mem_of_lookup {α β : Type} [BEq α] [LawfulBEq α] {es : List (α × β)} {a : α} {b : β}
    (h : es.lookup a = some b) : (a, b) ∈ es := by
  obtain ⟨before, after, rfl, -⟩ := List.lookup_eq_some_iff.mp h
  exact List.mem_append_right before List.mem_cons_self

/-- Entries in the order in which their keys were first inserted. -/
structure OrderedMap (α β : Type) where
  entries : List (α × β)
  deriving DecidableEq

namespace OrderedMap

variable {α β γ : Type}

/-- The map without entries. -/
def empty : OrderedMap α β := ⟨[]⟩

instance : EmptyCollection (OrderedMap α β) := ⟨empty⟩

instance : Inhabited (OrderedMap α β) := ⟨empty⟩

/-- The keys, in order. -/
def keys (m : OrderedMap α β) : List α := m.entries.map Prod.fst

/-- The values, in the order of their keys. -/
def values (m : OrderedMap α β) : List β := m.entries.map Prod.snd

/-- The number of entries. -/
def size (m : OrderedMap α β) : Nat := m.entries.length

/-- Whether there are no entries. -/
def isEmpty (m : OrderedMap α β) : Bool := m.entries.isEmpty

/-- The map with every value changed. -/
def mapValues (f : β → γ) (m : OrderedMap α β) : OrderedMap α γ :=
  ⟨m.entries.map fun e ↦ (e.1, f e.2)⟩

theorem values_mapValues (f : β → γ) (m : OrderedMap α β) :
    (m.mapValues f).values = m.values.map f := by
  rw [values, values, mapValues, List.map_map, List.map_map]
  rfl

variable [BEq α]

/-- The value of a key. -/
def get? (m : OrderedMap α β) (k : α) : Option β := m.entries.lookup k

/-- Whether the key has a value. -/
def contains (m : OrderedMap α β) (k : α) : Bool := (m.get? k).isSome

/-- Entries with `k` set to `v`, in place if `k` is there and at the end if not. -/
def insertEntry (k : α) (v : β) : List (α × β) → List (α × β)
  | [] => [(k, v)]
  | (a, b) :: rest => if k == a then (a, v) :: rest else (a, b) :: insertEntry k v rest

/-- The map with `k` set to `v`. -/
def insert (m : OrderedMap α β) (k : α) (v : β) : OrderedMap α β := ⟨insertEntry k v m.entries⟩

/-- The map without the key. -/
def erase (m : OrderedMap α β) (k : α) : OrderedMap α β := ⟨m.entries.filter fun e ↦ !(k == e.1)⟩

/-- The map after inserting the entries one by one: of two with the same key the later value wins,
in the place of the earlier. -/
def ofList (entries : List (α × β)) : OrderedMap α β :=
  entries.foldl (fun m e ↦ m.insert e.1 e.2) empty

/-! ### What an insertion does -/

theorem lookup_insertEntry_self [LawfulBEq α] (k : α) (v : β) (es : List (α × β)) :
    (insertEntry k v es).lookup k = some v := by
  induction es with
  | nil => simp [insertEntry]
  | cons e es ih =>
    obtain ⟨a, b⟩ := e
    by_cases h : k = a
    · subst h; simp [insertEntry]
    · have hne : (k == a) = false := by simpa using h
      simp [insertEntry, hne, List.lookup_cons, ih]

theorem lookup_insertEntry_of_ne [LawfulBEq α] {k l : α} (hl : l ≠ k) (v : β) (es : List (α × β)) :
    (insertEntry k v es).lookup l = es.lookup l := by
  induction es with
  | nil =>
    have hne : (l == k) = false := by simpa using hl
    simp [insertEntry, List.lookup_cons, hne]
  | cons e es ih =>
    obtain ⟨a, b⟩ := e
    by_cases h : k = a
    · subst h
      have hne : (l == k) = false := by simpa using hl
      simp [insertEntry, List.lookup_cons, hne]
    · have hne : (k == a) = false := by simpa using h
      simp only [insertEntry, hne, Bool.false_eq_true, if_false, List.lookup_cons, ih]

@[simp] theorem get?_insert_self [LawfulBEq α] (m : OrderedMap α β) (k : α) (v : β) :
    (m.insert k v).get? k = some v := lookup_insertEntry_self k v m.entries

theorem get?_insert_of_ne [LawfulBEq α] {k l : α} (hl : l ≠ k) (m : OrderedMap α β) (v : β) :
    (m.insert k v).get? l = m.get? l := lookup_insertEntry_of_ne hl v m.entries

theorem keys_insertEntry_of_mem [LawfulBEq α] {k : α} (v : β) {es : List (α × β)}
    (h : k ∈ es.map Prod.fst) : (insertEntry k v es).map Prod.fst = es.map Prod.fst := by
  induction es with
  | nil => simp at h
  | cons e es ih =>
    obtain ⟨a, b⟩ := e
    by_cases hk : k = a
    · subst hk; simp [insertEntry]
    · have hne : (k == a) = false := by simpa using hk
      have hes : k ∈ es.map Prod.fst := by simpa [hk] using h
      simp [insertEntry, hne, ih hes]

/-- A new key is put at the end. -/
theorem insertEntry_of_not_mem [LawfulBEq α] {k : α} (v : β) {es : List (α × β)}
    (h : k ∉ es.map Prod.fst) : insertEntry k v es = es ++ [(k, v)] := by
  induction es with
  | nil => rfl
  | cons e es ih =>
    obtain ⟨a, b⟩ := e
    have hk : k ≠ a := by rintro rfl; simp at h
    have hne : (k == a) = false := by simpa using hk
    have hes : k ∉ es.map Prod.fst := fun hm ↦ h (by simp [hm])
    simp [insertEntry, hne, ih hes]

/-- An insertion adds one entry. -/
theorem eq_or_mem_of_mem_insertEntry [LawfulBEq α] {k : α} {v : β} {e : α × β} {es : List (α × β)}
    (h : e ∈ insertEntry k v es) : e = (k, v) ∨ e ∈ es := by
  induction es with
  | nil => exact .inl (List.mem_singleton.mp h)
  | cons first rest ih =>
    obtain ⟨a, b⟩ := first
    rw [insertEntry] at h
    split at h
    · next hk =>
      rcases List.mem_cons.mp h with rfl | h
      · exact .inl (by rw [eq_of_beq hk])
      · exact .inr (List.mem_cons_of_mem _ h)
    · rcases List.mem_cons.mp h with rfl | h
      · exact .inr List.mem_cons_self
      · exact (ih h).imp_right (List.mem_cons_of_mem _)

/-- A key that is there keeps its place. -/
theorem keys_insert_of_contains [LawfulBEq α] {m : OrderedMap α β} {k : α} (h : k ∈ m.keys)
    (v : β) : (m.insert k v).keys = m.keys := keys_insertEntry_of_mem v h

/-- A new key stands at the end. -/
theorem keys_insert_of_not_contains [LawfulBEq α] {m : OrderedMap α β} {k : α} (h : k ∉ m.keys)
    (v : β) : (m.insert k v).keys = m.keys ++ [k] := by
  rw [keys, insert, insertEntry_of_not_mem v h, List.map_append]
  rfl

/-- What a look-up finds is an entry. -/
theorem mem_entries_of_get? [LawfulBEq α] {m : OrderedMap α β} {k : α} {v : β}
    (h : m.get? k = some v) : (k, v) ∈ m.entries := mem_of_lookup h

/-- What a look-up finds is a value. -/
theorem mem_values_of_get? [LawfulBEq α] {m : OrderedMap α β} {k : α} {v : β}
    (h : m.get? k = some v) : v ∈ m.values := List.mem_map_of_mem (mem_entries_of_get? h)

/-- The entries of a map that is made from a list are in the list. -/
theorem mem_of_mem_ofList [LawfulBEq α] {es : List (α × β)} {e : α × β}
    (h : e ∈ (ofList es).entries) : e ∈ es := by
  suffices hfold : ∀ m : OrderedMap α β,
      e ∈ (es.foldl (fun m e ↦ m.insert e.1 e.2) m).entries → e ∈ m.entries ∨ e ∈ es from
    (hfold empty h).resolve_left List.not_mem_nil
  clear h
  induction es with
  | nil => exact fun m hm ↦ .inl hm
  | cons first rest ih =>
    intro m hm
    rcases ih (m.insert first.1 first.2) hm with hinsert | hrest
    · rcases eq_or_mem_of_mem_insertEntry hinsert with rfl | hold
      · exact .inr List.mem_cons_self
      · exact .inl hold
    · exact .inr (List.mem_cons_of_mem _ hrest)

/-! ### What a change of the values does -/

theorem get?_mapValues (f : β → γ) (m : OrderedMap α β) (k : α) :
    (m.mapValues f).get? k = (m.get? k).map f := by
  obtain ⟨es⟩ := m
  show (es.map fun e ↦ (e.1, f e.2)).lookup k = (es.lookup k).map f
  induction es with
  | nil => rfl
  | cons e es ih =>
    rw [List.map_cons, List.lookup_cons, List.lookup_cons, ih]
    split <;> rfl

theorem mapValues_insert (f : β → γ) (m : OrderedMap α β) (k : α) (v : β) :
    (m.insert k v).mapValues f = (m.mapValues f).insert k (f v) := by
  obtain ⟨es⟩ := m
  show (⟨(insertEntry k v es).map _⟩ : OrderedMap α γ) = ⟨insertEntry k (f v) (es.map _)⟩
  congr 1
  induction es with
  | nil => rfl
  | cons e es ih =>
    rw [List.map_cons, insertEntry, insertEntry]
    split
    · rfl
    · rw [List.map_cons, ih]

/-! ### What a removal does -/

@[simp] theorem get?_erase_self [LawfulBEq α] (m : OrderedMap α β) (k : α) :
    (m.erase k).get? k = none := by
  obtain ⟨es⟩ := m
  show (es.filter fun e ↦ !(k == e.1)).lookup k = none
  induction es with
  | nil => rfl
  | cons e es ih =>
    obtain ⟨a, b⟩ := e
    by_cases h : k = a
    · subst h; simp [ih]
    · have hne : (k == a) = false := by simpa using h
      simp [hne, List.lookup_cons, ih]

theorem get?_erase_of_ne [LawfulBEq α] {k l : α} (hl : l ≠ k) (m : OrderedMap α β) :
    (m.erase k).get? l = m.get? l := by
  obtain ⟨es⟩ := m
  show (es.filter fun e ↦ !(k == e.1)).lookup l = es.lookup l
  induction es with
  | nil => rfl
  | cons e es ih =>
    obtain ⟨a, b⟩ := e
    by_cases h : k = a
    · subst h
      have hne : (l == k) = false := by simpa using hl
      simpa [List.lookup_cons, hne] using ih
    · have hne : (k == a) = false := by simpa using h
      simp only [List.filter_cons, hne, Bool.not_false, if_true, List.lookup_cons, ih]

/-- Of a key that is removed no insertion leaves a trace. -/
theorem erase_insert [LawfulBEq α] (m : OrderedMap α β) (k : α) (v : β) :
    (m.insert k v).erase k = m.erase k := by
  obtain ⟨es⟩ := m
  show (⟨(insertEntry k v es).filter _⟩ : OrderedMap α β) = ⟨es.filter _⟩
  congr 1
  induction es with
  | nil => simp [insertEntry]
  | cons e es ih =>
    obtain ⟨a, b⟩ := e
    by_cases h : (k == a) = true
    · simp [insertEntry, h]
    · simp [insertEntry, h, ih]

theorem keys_erase (m : OrderedMap α β) (k : α) :
    (m.erase k).keys = m.keys.filter fun l ↦ !(k == l) := by
  rw [keys, keys, List.filter_map]
  rfl

theorem keys_erase_sublist (m : OrderedMap α β) (k : α) : (m.erase k).keys.Sublist m.keys :=
  List.filter_sublist.map _

theorem nodup_keys_erase {m : OrderedMap α β} (h : m.keys.Nodup) (k : α) :
    (m.erase k).keys.Nodup := (m.keys_erase_sublist k).nodup h

/-! ### Keys that are distinct -/

section Distinct

variable [LawfulBEq α] {m : OrderedMap α β} {k : α}

theorem contains_iff_mem_keys : m.contains k = true ↔ k ∈ m.keys := by
  rw [contains, get?, Option.isSome_iff_exists, keys, List.mem_map]
  constructor
  · rintro ⟨v, hv⟩
    exact ⟨(k, v), mem_of_lookup hv, rfl⟩
  · rintro ⟨e, he, rfl⟩
    rw [← Option.isSome_iff_exists, Option.isSome_iff_ne_none]
    intro hnone
    simpa using List.lookup_eq_none_iff.mp hnone e he

theorem mem_keys_insert {l : α} {v : β} : l ∈ (m.insert k v).keys ↔ l = k ∨ l ∈ m.keys := by
  by_cases hk : k ∈ m.keys
  · rw [keys_insert_of_contains hk, iff_or_self]
    rintro rfl
    exact hk
  · rw [keys_insert_of_not_contains hk, List.mem_append, List.mem_singleton, or_comm]

theorem nodup_keys_insert (h : m.keys.Nodup) (k : α) (v : β) : (m.insert k v).keys.Nodup := by
  by_cases hk : k ∈ m.keys
  · rwa [keys_insert_of_contains hk]
  · rw [keys_insert_of_not_contains hk, List.nodup_append]
    refine ⟨h, by simp, ?_⟩
    rintro a ha b hb rfl
    exact hk (List.mem_singleton.mp hb ▸ ha)

/-- Of two insertions of one key the first leaves no trace. -/
theorem insert_insert (m : OrderedMap α β) (k : α) (u v : β) :
    (m.insert k u).insert k v = m.insert k v := by
  obtain ⟨es⟩ := m
  show (⟨insertEntry k v (insertEntry k u es)⟩ : OrderedMap α β) = ⟨insertEntry k v es⟩
  congr 1
  induction es with
  | nil => simp [insertEntry]
  | cons e es ih =>
    obtain ⟨a, b⟩ := e
    by_cases h : (k == a) = true
    · simp [insertEntry, h]
    · simp [insertEntry, h, ih]

/-- Entries with new keys are added at the end. -/
theorem foldl_insert_of_nodup {es : List (α × β)} (h : (m.keys ++ es.map Prod.fst).Nodup) :
    es.foldl (fun m e ↦ m.insert e.1 e.2) m = ⟨m.entries ++ es⟩ := by
  induction es generalizing m with
  | nil => rw [List.foldl_nil, List.append_nil]
  | cons e rest ih =>
    obtain ⟨-, -, hdisjoint⟩ := List.nodup_append.mp h
    have hfresh : e.1 ∉ m.keys := fun he ↦ hdisjoint e.1 he e.1 (by simp) rfl
    have hinsert : m.insert e.1 e.2 = ⟨m.entries ++ [e]⟩ := by
      rw [insert, insertEntry_of_not_mem e.2 hfresh]
    rw [List.foldl_cons, hinsert, ih (by simpa [keys] using h), List.append_assoc]
    rfl

/-- A map is made again from its entries. -/
theorem ofList_entries (h : m.keys.Nodup) : ofList m.entries = m := by
  rw [ofList, foldl_insert_of_nodup (by simpa [keys, empty] using h)]
  rfl

end Distinct

end OrderedMap

end ContactCard
