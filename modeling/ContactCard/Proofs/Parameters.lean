import ContactCard.Parameters
import Mathlib.Tactic.Common

/-!
# What a look-up finds in parameters

Assigning covers setting and removing, so two equations say what every look-up finds after either:
the assigned value under the name itself, and what was there before under any other. The other names
are there or not as they were. Putting a value and replacing by it are adding and setting its text;
without a text, a place is all that putting gives, and replacing only removes.
-/

namespace ContactCard.Parameters

open Text

variable (p : Parameters) {v : Value} {s : String} {f : Fault}

theorem put_of_toText (hv : v ≠ .null) (hs : v.toText = .ok s) (name : String) :
    p.put name v = (p.add name s, .ok ()) := by
  unfold put
  split
  · exact absurd rfl hv
  · rw [hs]

theorem put_of_toText_error (hf : v.toText = .error f) (name : String) :
    p.put name v = (p.reserve name, .error (.fault f)) := by
  unfold put
  split
  · exact absurd hf nofun
  · rw [hf]

theorem replace_of_toText (hv : v ≠ .null) (hs : v.toText = .ok s) (name : String) :
    p.replace name v = (p.set name s, .ok ()) := by
  unfold replace
  split
  · exact absurd rfl hv
  · rw [hs]

theorem replace_of_toText_error (hf : v.toText = .error f) (name : String) :
    p.replace name v = (p.remove name, .error (.fault f)) := by
  unfold replace
  split
  · exact absurd hf nofun
  · rw [hf]

theorem getAll_remove_self (name : String) : (p.remove name).getAll name = [] := by
  rw [getAll, remove, OrderedMap.get?_erase_self]
  rfl

theorem getAll_remove_of_ne {a b : String} (h : toLower a ≠ toLower b) :
    (p.remove b).getAll a = p.getAll a := by
  rw [getAll, getAll, remove, OrderedMap.get?_erase_of_ne h]

theorem getAll_add_self (name value : String) :
    (p.add name value).getAll name = p.getAll name ++ [value] := by
  rw [getAll, add, OrderedMap.get?_insert_self]
  rfl

theorem getAll_set_self (name value : String) : (p.set name value).getAll name = [value] := by
  rw [getAll, set, OrderedMap.get?_insert_self]
  rfl

theorem getAll_set_of_ne {a b : String} (h : toLower a ≠ toLower b) (value : String) :
    (p.set b value).getAll a = p.getAll a := by
  rw [← p.getAll_remove_of_ne h, getAll, getAll, set, OrderedMap.get?_insert_of_ne h]

@[simp] theorem get?_assign_self (name : String) (value : Option String) :
    (p.assign name value).get? name = value := by
  cases value with
  | none => rw [assign, get?, getAll_remove_self]; rfl
  | some s => rw [assign, get?, getAll_set_self]; rfl

theorem get?_assign_of_ne {a b : String} (h : toLower a ≠ toLower b) (value : Option String) :
    (p.assign b value).get? a = p.get? a := by
  cases value with
  | none => rw [assign, get?, getAll_remove_of_ne p h, get?]
  | some s => rw [assign, get?, getAll_set_of_ne p h, get?]

theorem get?_remove_of_ne {a b : String} (h : toLower a ≠ toLower b) :
    (p.remove b).get? a = p.get? a := get?_assign_of_ne p h none

variable {p}

theorem mem_names_remove {a b : String} (h : a ≠ toLower b) :
    a ∈ (p.remove b).names ↔ a ∈ p.names := by
  rw [names, remove, OrderedMap.keys_erase, List.mem_filter, names]
  simp [Ne.symm h]

theorem mem_names_assign {a b : String} (h : a ≠ toLower b) (value : Option String) :
    a ∈ (p.assign b value).names ↔ a ∈ p.names := by
  cases value with
  | none => exact mem_names_remove h
  | some s =>
    rw [assign, set, names]
    by_cases hmem : toLower b ∈ (p.remove b).table.keys
    · rw [OrderedMap.keys_insert_of_contains hmem]
      exact mem_names_remove h
    · rw [OrderedMap.keys_insert_of_not_contains hmem, List.mem_append, List.mem_singleton,
        or_iff_left h]
      exact mem_names_remove h

end ContactCard.Parameters
