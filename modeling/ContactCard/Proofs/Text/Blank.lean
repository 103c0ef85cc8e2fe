import ContactCard.Text.Blank
import Mathlib.Data.List.TakeWhile

/-!
# Texts without blanks at their ends

Stripping a text takes blanks from its ends (`exists_eq_append_stripChars`) until there are none
(`isStripped_stripChars`), and this is all there is to know of it: of a stripped text between blanks
it leaves the stripped text (`IsStripped.stripChars_append`). So a second stripping does nothing
(`strip_strip`).
-/

namespace ContactCard.Text

/-- The characters are blank. -/
def AreBlank (cs : List Char) : Prop := ∀ c ∈ cs, isBlank c = true

/-- There is no blank at either end. -/
structure IsStripped (cs : List Char) : Prop where
  head : ∀ c, cs.head? = some c → isBlank c = false
  last : ∀ c, cs.getLast? = some c → isBlank c = false

variable {as bs cs : List Char}

theorem areBlank_nil : AreBlank [] := fun _ h ↦ absurd h List.not_mem_nil

theorem AreBlank.append (has : AreBlank as) (hbs : AreBlank bs) : AreBlank (as ++ bs) :=
  List.forall_mem_append.mpr ⟨has, hbs⟩

theorem dropWhile_areBlank (has : AreBlank as) (cs : List Char) :
    (as ++ cs).dropWhile isBlank = cs.dropWhile isBlank := List.dropWhile_append_of_pos has

theorem dropWhile_eq_self (h : ∀ c, cs.head? = some c → isBlank c = false) :
    cs.dropWhile isBlank = cs := by
  cases cs with
  | nil => rfl
  | cons c cs => rw [List.dropWhile_cons, h c rfl, if_neg (by decide)]

/-- Of a stripped text between blanks the text is left. -/
theorem IsStripped.stripChars_append (h : IsStripped cs) (has : AreBlank as) (hbs : AreBlank bs) :
    stripChars (as ++ cs ++ bs) = cs := by
  have hrev : AreBlank bs.reverse := fun c hc ↦ hbs c (List.mem_reverse.mp hc)
  have hlast : ∀ c, cs.reverse.head? = some c → isBlank c = false := fun c hc ↦
    h.last c (by rwa [List.head?_reverse] at hc)
  rw [stripChars, List.append_assoc, dropWhile_areBlank has]
  cases cs with
  | nil =>
    have hbs : bs.dropWhile isBlank = [] := List.dropWhile_eq_nil_iff.mpr hbs
    rw [List.nil_append, hbs]
    rfl
  | cons c rest =>
    have hfront : (c :: rest ++ bs).dropWhile isBlank = c :: rest ++ bs :=
      dropWhile_eq_self fun d hd ↦ h.head d hd
    rw [hfront, List.reverse_append, dropWhile_areBlank hrev, dropWhile_eq_self hlast,
      List.reverse_reverse]

/-- Stripping takes blanks from both ends. -/
theorem exists_eq_append_stripChars (cs : List Char) :
    ∃ as bs, AreBlank as ∧ AreBlank bs ∧ cs = as ++ stripChars cs ++ bs := by
  let rest := cs.dropWhile isBlank
  refine ⟨cs.takeWhile isBlank, (rest.reverse.takeWhile isBlank).reverse,
    fun c hc ↦ List.mem_takeWhile_imp hc,
    fun c hc ↦ List.mem_takeWhile_imp (List.mem_reverse.mp hc), ?_⟩
  have hrest : rest = stripChars cs ++ (rest.reverse.takeWhile isBlank).reverse := by
    rw [stripChars, ← List.reverse_append, List.takeWhile_append_dropWhile, List.reverse_reverse]
  rw [List.append_assoc, ← hrest, List.takeWhile_append_dropWhile]

theorem head?_dropWhile {c : Char} (h : (cs.dropWhile isBlank).head? = some c) :
    isBlank c = false := by
  have := List.head?_dropWhile_not isBlank cs
  rw [h] at this
  simpa using this

theorem isStripped_stripChars (cs : List Char) : IsStripped (stripChars cs) where
  head c hc := by
    -- what is dropped at the end leaves the first character, if there is one left
    have hprefix : stripChars cs <+: cs.dropWhile isBlank := by
      have := (List.dropWhile_suffix isBlank (l := (cs.dropWhile isBlank).reverse))
      rw [stripChars, ← List.reverse_suffix, List.reverse_reverse]
      exact this
    obtain ⟨rest, hrest⟩ := hprefix
    have hhead : (cs.dropWhile isBlank).head? = some c := by
      rw [← hrest, List.head?_append, hc]
      rfl
    exact head?_dropWhile hhead
  last c hc := by
    rw [stripChars, List.getLast?_reverse] at hc
    exact head?_dropWhile hc

/-- A text without blanks at its ends is left as it is. -/
theorem IsStripped.stripChars_eq_self (h : IsStripped cs) : stripChars cs = cs := by
  simpa using h.stripChars_append areBlank_nil areBlank_nil

@[simp] theorem strip_strip (s : String) : strip (strip s) = strip s := by
  rw [strip, strip, String.toList_ofList, (isStripped_stripChars s.toList).stripChars_eq_self]

theorem stripChars_of_areBlank (h : AreBlank cs) : stripChars cs = [] := by
  have hnil : IsStripped [] := ⟨by simp, by simp⟩
  simpa using hnil.stripChars_append h areBlank_nil

theorem stripChars_subset (cs : List Char) : stripChars cs ⊆ cs := by
  obtain ⟨as, bs, -, -, hcs⟩ := exists_eq_append_stripChars cs
  intro c hc
  rw [hcs]
  exact List.mem_append_left _ (List.mem_append_right _ hc)

/-- Only blanks get lost. -/
theorem mem_stripChars {c : Char} (hc : c ∈ cs) (hblank : isBlank c = false) :
    c ∈ stripChars cs := by
  obtain ⟨as, bs, has, hbs, hcs⟩ := exists_eq_append_stripChars cs
  have hnot : ∀ {ds : List Char}, AreBlank ds → c ∉ ds := by
    intro ds hds hmem
    rw [hds c hmem] at hblank
    exact absurd hblank (by decide)
  rw [hcs, List.mem_append, List.mem_append] at hc
  exact (hc.resolve_right (hnot hbs)).resolve_left (hnot has)

end ContactCard.Text
