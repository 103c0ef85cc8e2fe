/-!
# Splitting texts

Cutting a list of characters at a separator, once or everywhere.

Main statements: `cut_append` and `cut_of_not_mem`, what a cut finds.
-/

namespace ContactCard.Text

/-- The parts of a text between the separators; there is one more of them than separators. -/
def split (separator : Char) : List Char → List (List Char)
  | [] => [[]]
  | c :: rest =>
    if c = separator then [] :: split separator rest
    else
      match split separator rest with
      | [] => [[c]]
      | part :: parts => (c :: part) :: parts

/-- What stands before the first separator, and what stands after it if there is one. -/
def cut (separator : Char) : List Char → List Char × Option (List Char)
  | [] => ([], none)
  | c :: rest =>
    if c = separator then ([], some rest)
    else
      let (before, after) := cut separator rest
      (c :: before, after)

/-- The parts with the separator between them. -/
def join (separator : Char) : List (List Char) → List Char
  | [] => []
  | [part] => part
  | part :: parts => part ++ separator :: join separator parts

theorem cut_of_not_mem {separator : Char} {cs : List Char} (h : separator ∉ cs) :
    cut separator cs = (cs, none) := by
  induction cs with
  | nil => rfl
  | cons c rest ih =>
    have hc : c ≠ separator := fun hc ↦ h (by simp [hc])
    have hrest : separator ∉ rest := fun hmem ↦ h (by simp [hmem])
    rw [cut, if_neg hc, ih hrest]

theorem cut_append {separator : Char} {before : List Char} (h : separator ∉ before)
    (after : List Char) : cut separator (before ++ separator :: after) = (before, some after) := by
  induction before with
  | nil => simp [cut]
  | cons c rest ih =>
    have hc : c ≠ separator := fun hc ↦ h (by simp [hc])
    have hrest : separator ∉ rest := fun hmem ↦ h (by simp [hmem])
    rw [List.cons_append, cut, if_neg hc, ih hrest]

/-- What stands after a separator is a part of the text. -/
theorem mem_of_mem_cut {separator c : Char} {cs after : List Char}
    (h : (cut separator cs).2 = some after) (hc : c ∈ after) : c ∈ cs := by
  induction cs with
  | nil => exact absurd h (by simp [cut])
  | cons first rest ih =>
    rw [cut] at h
    split at h
    · obtain rfl := Option.some.inj h
      exact List.mem_cons_of_mem _ hc
    · exact List.mem_cons_of_mem _ (ih h)

end ContactCard.Text
