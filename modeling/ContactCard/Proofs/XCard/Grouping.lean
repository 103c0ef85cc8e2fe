import ContactCard.XCard.Document
import Mathlib.Data.List.Induction

/-!
# Properties in their groups

The element of a card holds the properties of a card group by group: the groups in the order of
their first properties, and in each group its properties in the order of the card
(`entries_grouped`).
-/

namespace ContactCard.XCardDocument

/-- The properties of a group, in the order of the card. -/
def inGroup (ps : List Property) (group : Option String) : List Property :=
  ps.filter fun p ↦ p.group == group

/-- The groups of properties, in the order of the first property of each. -/
def groupsOf (ps : List Property) : List (Option String) := (ps.map Property.group).eraseDups

/-- The properties of a card, group by group. -/
def inGroupOrder (ps : List Property) : List Property := (groupsOf ps).flatMap (inGroup ps)

theorem nodup_eraseDups {α : Type} [BEq α] [LawfulBEq α] : ∀ l : List α, l.eraseDups.Nodup
  | [] => List.nodup_nil
  | a :: rest => by
    -- the rest without the head is shorter, but it is not the tail of a list
    have hlength : (rest.filter fun b ↦ !b == a).length < rest.length + 1 :=
      Nat.lt_succ_of_le (List.length_filter_le _ _)
    rw [List.eraseDups_cons, List.nodup_cons, List.mem_eraseDups]
    exact ⟨by simp, nodup_eraseDups _⟩
termination_by l => l.length

/-- Of entries that are made from their keys, an insertion makes one anew. -/
theorem insertEntry_map {α β : Type} [BEq α] [LawfulBEq α] {f f' : α → β} {k : α} {keys : List α}
    (hnodup : keys.Nodup) (hk : k ∈ keys) (hsame : ∀ a, a ≠ k → f a = f' a) :
    OrderedMap.insertEntry k (f' k) (keys.map fun a ↦ (a, f a)) = keys.map fun a ↦ (a, f' a) := by
  induction keys with
  | nil => exact absurd hk List.not_mem_nil
  | cons a rest ih =>
    obtain ⟨ha, hrest⟩ := List.nodup_cons.mp hnodup
    rw [List.map_cons, List.map_cons, OrderedMap.insertEntry]
    by_cases heq : k = a
    · subst heq
      have hothers : rest.map (fun a ↦ (a, f a)) = rest.map fun a ↦ (a, f' a) :=
        List.map_congr_left fun b hb ↦ by rw [hsame b (by rintro rfl; exact ha hb)]
      rw [if_pos (beq_self_eq_true k), hothers]
    · have hmem : k ∈ rest := (List.mem_cons.mp hk).resolve_left heq
      rw [if_neg (by simpa using heq), ih hrest hmem, hsame a (Ne.symm heq)]

theorem lookup_map {α β : Type} [BEq α] [LawfulBEq α] (f : α → β) {k : α} {keys : List α}
    (hk : k ∈ keys) : (keys.map fun a ↦ (a, f a)).lookup k = some (f k) := by
  induction keys with
  | nil => exact absurd hk List.not_mem_nil
  | cons a rest ih =>
    rw [List.map_cons, List.lookup_cons]
    by_cases heq : k = a
    · subst heq
      simp
    · have hmem : k ∈ rest := (List.mem_cons.mp hk).resolve_left heq
      have hne : (k == a) = false := by simpa using heq
      simp only [hne, ih hmem]

theorem mem_groupsOf {ps : List Property} {group : Option String} :
    group ∈ groupsOf ps ↔ ∃ p ∈ ps, p.group = group := by
  rw [groupsOf, List.mem_eraseDups, List.mem_map]

theorem groupsOf_concat_of_mem {ps : List Property} {p : Property} (h : p.group ∈ groupsOf ps) :
    groupsOf (ps ++ [p]) = groupsOf ps := by
  have hold : (List.map Property.group [p]).removeAll (ps.map Property.group) = [] := by
    rw [mem_groupsOf] at h
    simpa [List.removeAll] using h
  rw [groupsOf, List.map_append, List.eraseDups_append, hold, List.eraseDups_nil, List.append_nil,
    groupsOf]

theorem groupsOf_concat_of_not_mem {ps : List Property} {p : Property} (h : p.group ∉ groupsOf ps) :
    groupsOf (ps ++ [p]) = groupsOf ps ++ [p.group] := by
  have hnew : (List.map Property.group [p]).removeAll (ps.map Property.group) = [p.group] := by
    rw [mem_groupsOf] at h
    simpa [List.removeAll] using h
  rw [groupsOf, List.map_append, List.eraseDups_append, hnew, groupsOf]
  rfl

theorem inGroup_concat_self (ps : List Property) (p : Property) :
    inGroup (ps ++ [p]) p.group = inGroup ps p.group ++ [p] := by
  simp [inGroup]

theorem inGroup_concat_of_ne (ps : List Property) {p : Property} {group : Option String}
    (h : group ≠ p.group) : inGroup (ps ++ [p]) group = inGroup ps group := by
  simp [inGroup, Ne.symm h]

theorem inGroup_eq_nil {ps : List Property} {group : Option String} (h : group ∉ groupsOf ps) :
    inGroup ps group = [] := by
  refine List.filter_eq_nil_iff.mpr fun p hp hgroup ↦ h (mem_groupsOf.mpr ⟨p, hp, ?_⟩)
  simpa using hgroup

/-- The groups of a card and what is in them. -/
theorem entries_grouped (ps : List Property) :
    (grouped ps).entries = (groupsOf ps).map fun group ↦ (group, inGroup ps group) := by
  -- properties are put into their groups from the first to the last, so the induction is on the
  -- end of the list
  induction ps using List.reverseRecOn with
  | nil => rfl
  | append_singleton ps p ih =>
    have hlast : grouped (ps ++ [p]) = putInGroup (grouped ps) p.group p := by
      rw [grouped, List.foldl_append]
      rfl
    have hkeys : (grouped ps).entries.map Prod.fst = groupsOf ps := by
      rw [ih, List.map_map]
      exact List.map_id _
    rw [hlast, putInGroup]
    by_cases hmem : p.group ∈ groupsOf ps
    · have hget : (grouped ps).get? p.group = some (inGroup ps p.group) := by
        rw [OrderedMap.get?, ih, lookup_map _ hmem]
      rw [hget, Option.getD_some, ← inGroup_concat_self, OrderedMap.insert, ih,
        groupsOf_concat_of_mem hmem]
      exact insertEntry_map (nodup_eraseDups _) hmem fun group hne ↦
        (inGroup_concat_of_ne ps hne).symm
    · have hget : (grouped ps).get? p.group = none := by
        rw [OrderedMap.get?, List.lookup_eq_none_iff]
        intro e he
        have hne : p.group ≠ e.1 := by
          intro heq
          exact hmem (heq ▸ hkeys ▸ List.mem_map_of_mem he)
        simpa using hne
      have hsame : (groupsOf ps).map (fun group ↦ (group, inGroup (ps ++ [p]) group)) =
          (groupsOf ps).map fun group ↦ (group, inGroup ps group) :=
        List.map_congr_left fun group hgroup ↦ by
          rw [inGroup_concat_of_ne ps (by rintro rfl; exact hmem hgroup)]
      rw [hget, Option.getD_none, OrderedMap.insert,
        OrderedMap.insertEntry_of_not_mem _ (hkeys ▸ hmem), groupsOf_concat_of_not_mem hmem,
        List.map_append, hsame, ih, List.map_singleton, inGroup_concat_self, inGroup_eq_nil hmem]

/-- The properties in their groups, one group after the other. -/
theorem flatMap_grouped (ps : List Property) :
    (grouped ps).entries.flatMap Prod.snd = inGroupOrder ps := by
  rw [entries_grouped, inGroupOrder, List.flatMap_map]

end ContactCard.XCardDocument
