import ContactCard.Text.CodeRange
import ContactCard.Text.Split
import ContactCard.Xml.Writer
import Mathlib.Data.List.TakeWhile

/-!
# Characters and names of XML

The characters that an XML document may hold, and the names that it may use: a name without a
colon, or two of them with a colon between. A name in the form `{namespace}local` is an expanded
one; writing replaces the namespace by a prefix, and reading puts it back.

Main statements: `splitName_expandedName`, an expanded name is taken apart into what it was made
from; `splitPrefix_joinName`, a written name is taken apart into its prefix and its local part.
-/

namespace ContactCard.Xml

open Text

/-! ### Characters -/

/-- The code points of the characters that XML 1.0 allows. -/
def xmlRanges : List (Nat × Nat) :=
  [(9, 10), (13, 13), (32, 0xD7FF), (0xE000, 0xFFFD), (0x10000, 0x10FFFF)]

def isXmlChar (c : Char) : Bool := inRanges c.toNat xmlRanges

/-- The code points of the characters that begin names, the colon apart. -/
def nameStartRanges : List (Nat × Nat) :=
  [(65, 90), (95, 95), (97, 122), (0xC0, 0xD6), (0xD8, 0xF6), (0xF8, 0x2FF), (0x370, 0x37D),
   (0x37F, 0x1FFF), (0x200C, 0x200D), (0x2070, 0x218F), (0x2C00, 0x2FEF), (0x3001, 0xD7FF),
   (0xF900, 0xFDCF), (0xFDF0, 0xFFFD), (0x10000, 0xEFFFF)]

/-- The code points of the other characters of names. -/
def nameOtherRanges : List (Nat × Nat) :=
  [(45, 46), (48, 57), (0xB7, 0xB7), (0x300, 0x36F), (0x203F, 0x2040)]

def isNameStart (c : Char) : Bool := inRanges c.toNat nameStartRanges

def isNamePart (c : Char) : Bool := isNameStart c || inRanges c.toNat nameOtherRanges

/-- Whether the characters make up a name without a colon. -/
def isNCName : List Char → Bool
  | [] => false
  | c :: cs => isNameStart c && cs.all isNamePart

theorem isForbidden_of_isXmlChar {c : Char} (h : isXmlChar c = true) :
    Markup.isForbidden c = false := by
  obtain ⟨r, hr, h⟩ := exists_of_inRanges h
  simp only [xmlRanges, List.mem_cons, List.not_mem_nil, or_false] at hr
  have hn : 9 ≤ c.toNat ∧ c.toNat ≠ 11 ∧ c.toNat ≠ 12 ∧ ¬(14 ≤ c.toNat ∧ c.toNat ≤ 31) := by
    rcases hr with rfl | rfl | rfl | rfl | rfl <;> omega
  simp only [Markup.isForbidden]
  simp only [Bool.or_eq_false_iff, Bool.and_eq_false_iff, decide_eq_false_iff_not,
    beq_eq_false_iff_ne]
  omega

theorem isXmlChar_of_isNamePart {c : Char} (h : isNamePart c = true) : isXmlChar c = true := by
  have hwithin : ∀ r ∈ nameStartRanges ++ nameOtherRanges, 32 ≤ r.1 ∧ r.2 ≤ 0xD7FF ∨
      0xE000 ≤ r.1 ∧ r.2 ≤ 0xFFFD ∨ 0x10000 ≤ r.1 ∧ r.2 ≤ 0x10FFFF := by decide
  have hmem : ∃ r ∈ nameStartRanges ++ nameOtherRanges, r.1 ≤ c.toNat ∧ c.toNat ≤ r.2 := by
    rcases Bool.or_eq_true_iff.mp h with h | h
    · obtain ⟨r, hr, hn⟩ := exists_of_inRanges h
      exact ⟨r, List.mem_append_left _ hr, hn⟩
    · obtain ⟨r, hr, hn⟩ := exists_of_inRanges h
      exact ⟨r, List.mem_append_right _ hr, hn⟩
  obtain ⟨r, hr, hn⟩ := hmem
  have := hwithin r hr
  simp only [isXmlChar, inRanges, xmlRanges]
  repeat' split
  all_goals first | rfl | omega

theorem isNamePart_of_isNameStart {c : Char} (h : isNameStart c = true) : isNamePart c = true := by
  rw [isNamePart, h, Bool.true_or]

theorem isNamePart_of_isNCName {cs : List Char} (h : isNCName cs = true) :
    ∀ c ∈ cs, isNamePart c = true := by
  cases cs with
  | nil => exact fun c hc ↦ absurd hc List.not_mem_nil
  | cons c cs =>
    obtain ⟨hc, hcs⟩ := Bool.and_eq_true_iff.mp h
    exact List.forall_mem_cons.mpr ⟨isNamePart_of_isNameStart hc, List.all_eq_true.mp hcs⟩

theorem colon_not_mem_of_isNCName {cs : List Char} (h : isNCName cs = true) : ':' ∉ cs :=
  fun hmem ↦ absurd (isNamePart_of_isNCName h _ hmem) (by decide +kernel)

theorem brace_not_mem_of_isNCName {cs : List Char} (h : isNCName cs = true) : '\x7d' ∉ cs :=
  fun hmem ↦ absurd (isNamePart_of_isNCName h _ hmem) (by decide +kernel)

theorem isEmpty_of_isNCName {s : String} (h : isNCName s.toList = true) : s.isEmpty = false := by
  cases hs : s.isEmpty with
  | false => rfl
  | true =>
    rw [String.isEmpty_iff.mp hs] at h
    exact absurd h (by decide)

/-! ### Names with prefixes -/

/-- The prefix of a written name, if it has one, and its local part. -/
def splitPrefix (name : String) : Option String × String :=
  match cut ':' name.toList with
  | (_, none) => (none, name)
  | (pre, some plain) => (some (String.ofList pre), String.ofList plain)

theorem splitPrefix_joinName {pre name : String} (hpre : ':' ∉ pre.toList)
    (hname : ':' ∉ name.toList) :
    splitPrefix (joinName pre name) = (if pre.isEmpty then none else some pre, name) := by
  rw [joinName]
  split
  · rw [splitPrefix, cut_of_not_mem hname]
  · rw [splitPrefix]
    have hcs : (pre ++ ":" ++ name).toList = pre.toList ++ ':' :: name.toList := by
      simp [String.toList_append]
    rw [hcs, cut_append hpre]
    simp only [String.ofList_toList]

/-! ### Expanded names -/

/-- The name with a namespace and a local part. -/
def expandedName (ns plain : String) : String := "\x7b" ++ ns ++ "\x7d" ++ plain

theorem splitName_expandedName {ns plain : String} (hns : '\x7d' ∉ ns.toList) (isElement : Bool) :
    splitName (expandedName ns plain) isElement = .ok (some ns, plain) := by
  have hcs : (expandedName ns plain).toList = '\x7b' :: (ns.toList ++ '\x7d' :: plain.toList) := by
    simp [expandedName, String.toList_append]
  have hdrop : (ns.toList ++ '\x7d' :: plain.toList).dropWhile (· != '\x7d') =
      '\x7d' :: plain.toList := by
    rw [List.dropWhile_append_of_pos fun c hc ↦ bne_iff_ne.mpr fun h ↦ hns (by rwa [← h])]
    simp
  have htake : (ns.toList ++ '\x7d' :: plain.toList).takeWhile (· != '\x7d') = ns.toList := by
    rw [List.takeWhile_append_of_pos fun c hc ↦ bne_iff_ne.mpr fun h ↦ hns (by rwa [← h])]
    simp
  rw [splitName, hcs]
  simp only [hdrop, htake, String.ofList_toList]

/-- What is taken apart is an expanded name, or that of an attribute without a namespace. -/
theorem eq_of_splitName {name : String} {isElement : Bool} {parts : Option String × String}
    (h : splitName name isElement = .ok parts) :
    isElement = false ∧ parts = (none, name) ∨
      ∃ ns plain, parts = (some ns, plain) ∧ name = expandedName ns plain := by
  rw [splitName] at h
  split at h
  · next rest hname =>
    split at h
    · next c tail hdrop =>
      obtain rfl : c = '\x7d' := by
        have hhead := List.head_dropWhile_not (· != '\x7d') (by rw [hdrop]; simp)
        simpa [hdrop] using hhead
      have hrest := List.takeWhile_append_dropWhile (p := (· != '\x7d')) (l := rest)
      rw [hdrop] at hrest
      refine .inr ⟨_, _, (Except.ok.inj h).symm, ?_⟩
      rw [← String.toList_inj]
      calc name.toList = '\x7b' :: (rest.takeWhile (· != '\x7d') ++ '\x7d' :: tail) :=
            hname.trans (congrArg _ hrest.symm)
        _ = _ := by simp [expandedName, String.toList_append]
    · exact absurd h (by simp)
  · cases isElement with
    | true => exact absurd h (by simp)
    | false => exact .inl ⟨rfl, (Except.ok.inj h).symm⟩

/-- Only an expanded name can be taken apart as that of an element. -/
theorem eq_expandedName_of_splitName {name : String} {parts : Option String × String}
    (h : splitName name true = .ok parts) :
    ∃ ns plain, parts = (some ns, plain) ∧ name = expandedName ns plain :=
  (eq_of_splitName h).resolve_left fun h ↦ absurd h.1 (by decide)

/-- The name of an element can be taken apart just when it has a namespace. -/
theorem exists_splitName_iff {name : String} :
    (∃ parts, splitName name true = .ok parts) ↔ ∃ ns plain, name = expandedName ns plain := by
  constructor
  · rintro ⟨parts, h⟩
    obtain ⟨ns, plain, -, hname⟩ := eq_expandedName_of_splitName h
    exact ⟨ns, plain, hname⟩
  · rintro ⟨ns, plain, rfl⟩
    have hname : (expandedName ns plain).toList =
        '\x7b' :: (ns.toList ++ '\x7d' :: plain.toList) := by
      simp [expandedName, String.toList_append]
    rw [splitName, hname]
    cases hdrop : (ns.toList ++ '\x7d' :: plain.toList).dropWhile (· != '\x7d') with
    | nil => exact absurd (List.dropWhile_eq_nil_iff.mp hdrop '\x7d' (by simp)) (by simp)
    | cons c tail =>
      simp only [hdrop]
      exact ⟨_, rfl⟩

/-- The parts of an expanded name are determined. -/
theorem expandedName_inj {ns ns' plain plain' : String} (hns : '\x7d' ∉ ns.toList)
    (hns' : '\x7d' ∉ ns'.toList) (h : expandedName ns plain = expandedName ns' plain') :
    ns = ns' ∧ plain = plain' := by
  have hsplit := @splitName_expandedName ns plain hns true
  rw [h, splitName_expandedName hns'] at hsplit
  simpa [eq_comm] using hsplit

end ContactCard.Xml
