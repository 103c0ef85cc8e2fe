import ContactCard.OrderedMap
import ContactCard.Text.Case
import Mathlib.Data.List.Basic

/-!
# Letter case is settled at once

A text in upper case is its own upper case (`toUpper_toUpper`), and a text in lower case its own
lower case (`toLower_toLower`). What the tables map to they do not map any further (`IsSettled`). To
know this of two runs it is not needed to look at their code points one by one: either the ends of
the runs are apart, or all code points of the one are even and all of the other odd
(`CaseRun.avoids`).

A character that no other one is mapped to (`IsUnreached`) stands in lower case only where it stood
before (`mem_of_mem_lowerFrom`).
-/

namespace ContactCard.Text

namespace CaseRun

/-- The code points of the run are all even or all odd. -/
def isSparse (r : CaseRun) : Bool := r.step == 2 || r.first == r.last

/-- The code point that the first of the run is mapped to. -/
def image (r : CaseRun) : Nat := (r.first + r.shift).toNat

/-- None of the code points that `r` maps to belongs to `q`. -/
def avoids (r q : CaseRun) : Bool :=
  Nat.blt (r.last + r.shift).toNat q.first || Nat.blt q.last r.image ||
    (r.isSparse && q.isSparse && Nat.blt 0 r.image && (r.image + q.first) % 2 == 1)

theorem apply?_eq_some {r : CaseRun} {n m : Nat} (h : r.apply? n = some m) :
    (r.first ≤ n ∧ n ≤ r.last ∧ (n - r.first) % r.step = 0) ∧ (n + r.shift).toNat = m := by
  unfold CaseRun.apply? at h
  split at h
  · next hn => exact ⟨hn, Option.some.inj h⟩
  · exact absurd h (by simp)

/-- The code points of a sparse run agree in parity with the first of them. -/
theorem isSparse.mod_two {r : CaseRun} (hr : r.isSparse = true) {n m : Nat}
    (h : r.apply? n = some m) : n % 2 = r.first % 2 := by
  obtain ⟨⟨hfirst, hlast, hstep⟩, -⟩ := apply?_eq_some h
  rw [isSparse, Bool.or_eq_true, beq_iff_eq, beq_iff_eq] at hr
  rcases hr with hr | hr
  · rw [hr] at hstep
    omega
  · omega

theorem avoids.apply?_eq_none {r q : CaseRun} (h : r.avoids q = true) {n m : Nat}
    (hn : r.apply? n = some m) : q.apply? m = none := by
  obtain ⟨⟨hfirst, hlast, -⟩, rfl⟩ := apply?_eq_some hn
  rw [Option.eq_none_iff_forall_ne_some]
  intro k hk
  obtain ⟨⟨hqfirst, hqlast, -⟩, -⟩ := apply?_eq_some hk
  simp only [avoids, Bool.or_eq_true, Bool.and_eq_true, Nat.blt_eq, beq_iff_eq, image] at h
  rcases h with (h | h) | ⟨⟨⟨hr, hq⟩, hpos⟩, hodd⟩
  · omega
  · omega
  · have hrmod := isSparse.mod_two hr hn
    have hqmod := isSparse.mod_two hq hk
    omega

/-- A run maps no code point to one that it avoids. -/
theorem avoids.ne {r : CaseRun} {n m k : Nat} (h : r.avoids ⟨k, k, 1, 0⟩ = true)
    (hn : r.apply? n = some m) : m ≠ k := by
  have hnone := avoids.apply?_eq_none h hn
  rintro rfl
  unfold CaseRun.apply? at hnone
  simp at hnone

end CaseRun

theorem exists_of_findRun?_eq_some {n m : Nat} {runs : List CaseRun}
    (h : findRun? n runs = some m) : ∃ r ∈ runs, r.apply? n = some m := by
  induction runs with
  | nil => exact absurd h (by simp [findRun?])
  | cons r rest ih =>
    rw [findRun?] at h
    split at h
    · exact absurd h (by simp)
    · split at h
      · next k hk => exact ⟨r, List.mem_cons_self, hk.trans h⟩
      · obtain ⟨r', hr', hm⟩ := ih h
        exact ⟨r', List.mem_cons_of_mem _ hr', hm⟩

theorem findRun?_eq_none {n : Nat} {runs : List CaseRun} (h : ∀ r ∈ runs, r.apply? n = none) :
    findRun? n runs = none := by
  rw [Option.eq_none_iff_forall_ne_some]
  intro m hm
  obtain ⟨r, hr, hn⟩ := exists_of_findRun?_eq_some hm
  exact absurd ((h r hr).symm.trans hn) (by simp)

/-! ### Settled tables -/

/-- What the tables map a character to they do not map any further. -/
structure IsSettled (expansions : List (Nat × List Nat)) (runs : List CaseRun) : Prop where
  /-- No run maps to a code point that another one maps. -/
  mapped : (runs.all fun r ↦ runs.all r.avoids) = true
  /-- No run maps to a code point that has an expansion. -/
  unexpanded : (runs.all fun r ↦ expansions.all fun e ↦ r.avoids ⟨e.1, e.1, 1, 0⟩) = true
  /-- Nothing in an expansion is mapped. -/
  expanded : ∀ e ∈ expansions, ∀ c ∈ e.2.map Char.ofNat, mapCase expansions runs c = [c]
  /-- What is no code point counts as the first one. -/
  first : mapCase expansions runs '\x00' = ['\x00']

theorem isSettled_upper : IsSettled upperExpansions upperRuns :=
  ⟨by decide +kernel, by decide +kernel, by decide +kernel, by decide +kernel⟩

theorem isSettled_lower : IsSettled lowerExpansions lowerRuns :=
  ⟨by decide +kernel, by decide +kernel, by decide +kernel, by decide +kernel⟩

section Settled

variable {expansions : List (Nat × List Nat)} {runs : List CaseRun}

theorem mapCase_eq_singleton {c : Char} (hexpansions : expansions.lookup c.toNat = none)
    (hruns : findRun? c.toNat runs = none) : mapCase expansions runs c = [c] := by
  simp only [mapCase, hexpansions, hruns]

theorem toNat_ofNat_or (m : Nat) : (Char.ofNat m).toNat = m ∨ Char.ofNat m = '\x00' := by
  by_cases hm : m.isValidChar
  · rw [Char.ofNat, dif_pos hm]
    exact .inl rfl
  · exact .inr (dif_neg hm)

/-- What a run maps to is mapped to itself. -/
theorem IsSettled.mapCase_of_findRun? (h : IsSettled expansions runs) {n m : Nat}
    (hrun : findRun? n runs = some m) :
    mapCase expansions runs (Char.ofNat m) = [Char.ofNat m] := by
  obtain ⟨r, hr, hm⟩ := exists_of_findRun?_eq_some hrun
  rcases toNat_ofNat_or m with htoNat | hzero
  · refine mapCase_eq_singleton ?_ ?_
    · rw [htoNat, List.lookup_eq_none_iff]
      intro e he
      have havoids := List.all_eq_true.mp (List.all_eq_true.mp h.unexpanded r hr) e he
      simpa using CaseRun.avoids.ne havoids hm
    · rw [htoNat]
      exact findRun?_eq_none fun q hq ↦ CaseRun.avoids.apply?_eq_none
        (List.all_eq_true.mp (List.all_eq_true.mp h.mapped r hr) q hq) hm
  · rw [hzero]
    exact h.first

/-- What a character is mapped to is mapped to itself. -/
theorem IsSettled.mapCase_of_mem (h : IsSettled expansions runs) {c d : Char}
    (hd : d ∈ mapCase expansions runs c) : mapCase expansions runs d = [d] := by
  cases hexpansions : expansions.lookup c.toNat with
  | some ns =>
    simp only [mapCase, hexpansions] at hd
    exact h.expanded _ (mem_of_lookup hexpansions) d hd
  | none =>
    cases hruns : findRun? c.toNat runs with
    | some m =>
      simp only [mapCase, hexpansions, hruns, List.mem_singleton] at hd
      rw [hd, h.mapCase_of_findRun? hruns]
    | none =>
      have hself := mapCase_eq_singleton hexpansions hruns
      rw [hself, List.mem_singleton] at hd
      rw [hd, hself]

/-! ### Characters that no other one is mapped to -/

/-- No other character is mapped to the character, neither alone nor among several. -/
structure IsUnreached (expansions : List (Nat × List Nat)) (runs : List CaseRun) (d : Char) :
    Prop where
  mapped : (runs.all fun r ↦ r.avoids ⟨d.toNat, d.toNat, 1, 0⟩) = true
  expanded : ∀ e ∈ expansions, d ∉ e.2.map Char.ofNat
  /-- What is no code point counts as the first one. -/
  ne_first : d ≠ '\x00'

theorem IsUnreached.eq_of_mem_mapCase {c d : Char} (h : IsUnreached expansions runs d)
    (hd : d ∈ mapCase expansions runs c) : d = c := by
  cases hexpansions : expansions.lookup c.toNat with
  | some ns =>
    simp only [mapCase, hexpansions] at hd
    exact absurd hd (h.expanded (c.toNat, ns) (mem_of_lookup hexpansions))
  | none =>
    cases hruns : findRun? c.toNat runs with
    | some m =>
      simp only [mapCase, hexpansions, hruns, List.mem_singleton] at hd
      obtain ⟨r, hr, hm⟩ := exists_of_findRun?_eq_some hruns
      rcases toNat_ofNat_or m with htoNat | hzero
      · rw [← hd] at htoNat
        exact absurd htoNat.symm (CaseRun.avoids.ne (List.all_eq_true.mp h.mapped r hr) hm)
      · exact absurd (hd.trans hzero) h.ne_first
    | none => simpa [mapCase, hexpansions, hruns] using hd

end Settled

/-! ### Texts -/

/-- A text in upper case is its own upper case. -/
@[simp] theorem toUpper_toUpper (s : String) : toUpper (toUpper s) = toUpper s := by
  have hchars : ∀ d ∈ s.toList.flatMap upperOf, upperOf d = [d] := by
    intro d hd
    obtain ⟨c, -, hd⟩ := List.mem_flatMap.mp hd
    exact isSettled_upper.mapCase_of_mem hd
  rw [toUpper, toUpper, String.toList_ofList, List.flatMap_congr hchars, List.flatMap_singleton']

/-- Neither a sigma nor any other character in lower case is mapped any further. -/
theorem lowerOf_of_mem_lowerFrom {afterCased : Bool} {cs : List Char} {d : Char}
    (hd : d ∈ lowerFrom afterCased cs) : d ≠ 'Σ' ∧ lowerOf d = [d] := by
  have hcapital : lowerOf 'Σ' ≠ ['Σ'] := by decide +kernel
  have hlower : lowerOf d = [d] := by
    induction cs generalizing afterCased with
    | nil => exact absurd hd List.not_mem_nil
    | cons c rest ih =>
      rw [lowerFrom, List.mem_append] at hd
      rcases hd with hd | hd
      · split at hd
        · have hsmall : lowerOf 'ς' = ['ς'] ∧ lowerOf 'σ' = ['σ'] := by decide +kernel
          split at hd <;> rw [List.mem_singleton.mp hd]
          exacts [hsmall.1, hsmall.2]
        · exact isSettled_lower.mapCase_of_mem hd
      · exact ih hd
  refine ⟨?_, hlower⟩
  rintro rfl
  exact hcapital hlower

/-- Where no character is mapped to another one, the characters around them do not matter. -/
theorem lowerFrom_eq_self {cs : List Char} (h : ∀ c ∈ cs, c ≠ 'Σ' ∧ lowerOf c = [c])
    (afterCased : Bool) : lowerFrom afterCased cs = cs := by
  induction cs generalizing afterCased with
  | nil => rfl
  | cons c rest ih =>
    obtain ⟨⟨hsigma, hlower⟩, hrest⟩ := List.forall_mem_cons.mp h
    rw [lowerFrom, if_neg hsigma, hlower, ih hrest]
    rfl

/-- A character that no other one is mapped to stands in lower case only where it stood before. -/
theorem mem_of_mem_lowerFrom {d : Char} (h : IsUnreached lowerExpansions lowerRuns d)
    (hfinal : d ≠ 'ς') {afterCased : Bool} {cs : List Char} (hd : d ∈ lowerFrom afterCased cs) :
    d ∈ cs := by
  have hsmall : 'σ' ∈ lowerOf 'Σ' := by decide +kernel
  induction cs generalizing afterCased with
  | nil => exact absurd hd List.not_mem_nil
  | cons c rest ih =>
    rw [lowerFrom, List.mem_append] at hd
    rcases hd with hd | hd
    · split at hd
      · split at hd <;> obtain rfl := List.mem_singleton.mp hd
        · exact absurd rfl hfinal
        · exact absurd (h.eq_of_mem_mapCase hsmall) (by decide)
      · exact List.mem_cons.mpr (.inl (h.eq_of_mem_mapCase hd))
    · exact List.mem_cons_of_mem _ (ih hd)

/-- A text in lower case is its own lower case. -/
@[simp] theorem toLower_toLower (s : String) : toLower (toLower s) = toLower s := by
  rw [toLower, toLower, String.toList_ofList,
    lowerFrom_eq_self (fun _ hd ↦ lowerOf_of_mem_lowerFrom hd) false]

end ContactCard.Text
