import ContactCard.Proofs.Parameters.Runs

/-!
# Taking back a value

A value is kept as text and looked for as it is given. So the removal of a value finds what was put
under the name just when the value is a text itself (`Parameters.removeValue_after_put`): then the
texts of the name are up to order those from before, and all other names are as they were. Any other
value, a number or a data type say, is not found, and its text stays.
-/

namespace ContactCard.Parameters

open Text

variable {p q r : Parameters} {name s : String} {v : Value}

/-! ### Looking for a value -/

/-- Only a text is equal to a text. -/
theorem same_text_iff : v.same (.text s) = true ↔ v = .text s := by
  cases v with
  | text t => simp [Value.same]
  | _ => simp [Value.same, Value.countsInt, Value.countsDouble]

/-- A text is found if it is there. -/
theorem removeValue?_text (hs : s ∈ p.getAll name) :
    p.removeValue? name (.text s) =
      if (p.getAll name).erase s = [] then some (p.remove name)
      else some ⟨p.table.insert (toLower name) ((p.getAll name).erase s)⟩ := by
  have hfind : (fun t ↦ (Value.text s).same (.text t)) = (s == ·) := by
    funext t
    rw [Value.same]
  have hany : (p.getAll name).any (s == ·) = true :=
    List.any_beq.trans (List.elem_eq_true_of_mem hs)
  rw [removeValue?, hfind, if_pos hany, ← List.erase_eq_eraseP]
  cases (p.getAll name).erase s <;> rfl

/-- A value that is not a text is not found, whatever its text is. -/
theorem removeValue?_eq_none (hv : ∀ s, v ≠ .text s) : p.removeValue? name v = none := by
  have hnone : ((p.getAll name).any fun s ↦ v.same (.text s)) = false :=
    List.any_eq_false.mpr fun s _ ↦ by simpa [same_text_iff] using hv s
  simp [removeValue?, hnone]

/-! ### What was put -/

/-- In `r` the table `p` is there again, but for the order of the texts of the name. A name that has
no texts is not there. -/
structure IsRestored (p r : Parameters) (name : String) : Prop where
  names : r.names = if p.getAll name = [] then (p.remove name).names else p.names
  perm : (r.getAll name).Perm (p.getAll name)
  others : ∀ other, toLower other ≠ toLower name → r.getAll other = p.getAll other

/-- The removal of a text takes back its addition. -/
theorem removeValue?_add (p : Parameters) (name s : String) :
    ∃ r, (p.add name s).removeValue? name (.text s) = some r ∧ p.IsRestored r name := by
  have hs : s ∈ p.getAll name ++ [s] := by simp
  have hperm : ((p.getAll name ++ [s]).erase s).Perm (p.getAll name) :=
    ((List.perm_cons_erase hs).symm.trans (List.perm_append_singleton s _)).cons_inv
  rw [removeValue?_text (by rwa [getAll_add_self]), getAll_add_self]
  split
  · next hnil =>
    have hbare : p.getAll name = [] := List.perm_nil.mp (hnil ▸ hperm.symm)
    refine ⟨_, rfl, ?_⟩
    rw [remove, add, OrderedMap.erase_insert]
    exact {
      names := by rw [if_pos hbare, remove]
      perm := by
        rw [hbare, ← remove, getAll_remove_self]
      others := fun other hother ↦ p.getAll_remove_of_ne hother }
  · next hne =>
    have hvalues : p.getAll name ≠ [] := fun hnil ↦ hne (List.perm_nil.mp (hnil ▸ hperm))
    have hmem : toLower name ∈ p.names := not_imp_comm.mp getAll_of_not_mem hvalues
    refine ⟨_, rfl, ?_⟩
    rw [add, OrderedMap.insert_insert]
    exact {
      names := by
        rw [if_neg hvalues]
        exact OrderedMap.keys_insert_of_contains hmem _
      perm := by
        rw [getAll, OrderedMap.get?_insert_self]
        exact hperm
      others := fun other hother ↦ by
        rw [getAll, OrderedMap.get?_insert_of_ne hother, getAll] }

/-- A value that is put is taken back by its removal if it is a text, and if it is anything else the
removal does not find it. -/
theorem removeValue_after_put (p : Parameters) (name : String) (hv : v ≠ .null)
    (hwritable : v.isWritable = true) :
    ∃ q, (Change.put name v).made p = (q, .ok .nothing) ∧
      ((∃ s, v = .text s) → ∃ r, (Change.removeValue name v).made q = (r, .ok (.flag true)) ∧
        p.IsRestored r name) ∧
      ((∀ s, v ≠ .text s) → (Change.removeValue name v).made q = (q, .ok (.flag false))) := by
  obtain ⟨t, ht⟩ := Value.exists_toText hwritable
  have hput : (Change.put name v).made p = (p.add name t, .ok .nothing) := by
    rw [Change.made, p.put_of_toText hv ht]
    rfl
  refine ⟨_, hput, ?_, fun htext ↦ ?_⟩
  · rintro ⟨s, rfl⟩
    obtain rfl := Except.ok.inj ht
    obtain ⟨r, hr, hrestored⟩ := p.removeValue?_add name s
    exact ⟨r, by rw [Change.made, hr], hrestored⟩
  · rw [Change.made, removeValue?_eq_none htext]

/-- Of two equal texts the first one goes; a truth value stays as a text. -/
theorem removeValue_after_put_home :
    let p : Parameters := ⟨⟨[("type", ["home", "work"])]⟩⟩
    (∃ q r, (Change.put "TYPE" (.text "home")).made p = (q, .ok .nothing) ∧
        (Change.removeValue "TYPE" (.text "home")).made q = (r, .ok (.flag true)) ∧
        r.names = ["type"] ∧ (r.getAll "type").Perm ["home", "work"]) ∧
      ∃ q, (Change.put "TYPE" (.bool true)).made p = (q, .ok .nothing) ∧
        (Change.removeValue "TYPE" (.bool true)).made q = (q, .ok (.flag false)) := by
  intro p
  have htype : toLower "TYPE" = toLower "type" := by decide +kernel
  obtain ⟨q, hq, hfound, -⟩ := removeValue_after_put (v := .text "home") p "TYPE" nofun rfl
  obtain ⟨r, hr, hrestored⟩ := hfound ⟨"home", rfl⟩
  obtain ⟨q', hq', -, hmissed⟩ := removeValue_after_put (v := .bool true) p "TYPE" nofun rfl
  refine ⟨⟨q, r, hq, hr, hrestored.names.trans (by decide +kernel), ?_⟩, q', hq', hmissed nofun⟩
  have hperm := hrestored.perm
  rwa [getAll, htype, ← getAll] at hperm

/-- A preference is put as a number: its removal as a number says that it is not there. -/
theorem number_not_taken_back :
    empty.IsReachable ∧ ∃ q, (Change.put "pref" (.int 5)).made empty = (q, .ok .nothing) ∧
      (Change.removeValue "pref" (.int 5)).made q = (q, .ok (.flag false)) ∧
      q.getAll "pref" = ["5"] := by
  have hfive : (Value.int 5).toText = .ok "5" := by decide +kernel
  have hput : (Change.put "pref" (.int 5)).made empty = (empty.add "pref" "5", .ok .nothing) := by
    rw [Change.made, empty.put_of_toText (by simp) hfive]
    rfl
  refine ⟨IsNormal.isReachable isKept_empty, _, hput, ?_, empty.getAll_add_self _ _⟩
  rw [Change.made, removeValue?_eq_none (by simp)]

end ContactCard.Parameters
