import ContactCard.DataUri
import ContactCard.Proofs.Base64
import ContactCard.Proofs.Text.Case

/-!
# Data URI round trip

A data URI that was written is read back whole exactly if its media type does not hold the marker
that ends it, and the texts that are read as data URIs are those that begin with the scheme and hold
the marker after it (`ofText_toText_iff_and_ofText_iff`). The marker cannot begin inside the media
type and end after it: it begins with a semicolon and holds no other one
(`afterPart?_marker_append`). Both fixed parts stand in a text wherever a text stands that is the
same in upper case (`Spells`).
-/

namespace ContactCard.DataUri

open Text

/-- The part of the marker after its semicolon. -/
def markerTail : List Char := "base64,".toList

theorem marker_eq : marker = ';' :: markerTail := rfl

/-- A fixed part without semicolons, looked for in front of a semicolon, is found before it. -/
theorem afterPart?_append_semicolon {ps : List Char} (h : ∀ p ∈ ps, matchesLetter p ';' = false)
    (cs rest : List Char) :
    afterPart? ps (cs ++ ';' :: rest) = (afterPart? ps cs).map (· ++ ';' :: rest) := by
  induction ps generalizing cs with
  | nil => rfl
  | cons p ps ih =>
    have hp := h p List.mem_cons_self
    have hps : ∀ q ∈ ps, matchesLetter q ';' = false := fun q hq ↦ h q (List.mem_cons_of_mem _ hq)
    cases cs with
    | nil =>
      show (if matchesLetter p ';' = true then afterPart? ps rest else none) = none
      rw [hp, if_neg Bool.false_ne_true]
    | cons c cs =>
      rw [List.cons_append, afterPart?, afterPart?]
      by_cases hc : matchesLetter p c = true
      · rw [if_pos hc, if_pos hc, ih hps]
      · rw [if_neg hc, if_neg hc]
        rfl

/-- What follows a text does not make a marker begin in it. -/
theorem afterPart?_marker_append {c : Char} {cs : List Char}
    (h : afterPart? marker (c :: cs) = none) (rest : List Char) :
    afterPart? marker (c :: cs ++ ';' :: rest) = none := by
  rw [marker_eq, afterPart?] at h
  rw [marker_eq, List.cons_append, afterPart?]
  by_cases hc : matchesLetter ';' c = true
  · rw [if_pos hc] at h ⊢
    rw [afterPart?_append_semicolon (by decide), h]
    rfl
  · rw [if_neg hc]

theorem splitAtMarker?_append {cs : List Char} (h : splitAtMarker? cs = none) (rest : List Char) :
    splitAtMarker? (cs ++ (marker ++ rest)) = some (cs, rest) := by
  induction cs with
  | nil => rfl
  | cons c cs ih =>
    have hnone : afterPart? marker (c :: cs) = none := by
      rw [splitAtMarker?] at h
      cases hm : afterPart? marker (c :: cs) with
      | none => rfl
      | some r => rw [hm] at h; exact absurd h (by simp)
    have hrest : splitAtMarker? cs = none := by
      rw [splitAtMarker?, hnone] at h
      simpa using h
    have hcons : afterPart? marker (c :: cs ++ ';' :: (markerTail ++ rest)) = none :=
      afterPart?_marker_append hnone _
    rw [marker_eq] at ih ⊢
    show splitAtMarker? (c :: (cs ++ ';' :: (markerTail ++ rest))) = _
    rw [splitAtMarker?,
      show afterPart? marker (c :: (cs ++ ';' :: (markerTail ++ rest))) = none from hcons]
    show (splitAtMarker? (cs ++ (';' :: markerTail ++ rest))).map _ = _
    rw [ih hrest]
    rfl

theorem toList_toText (uri : DataUri) :
    uri.toText.toList =
      scheme ++ (uri.contentType.toList ++ (marker ++ Base64.encodeBytes uri.data)) := by
  simp only [toText, Base64.encode, String.toList_append, String.toList_ofList, List.append_assoc]
  rfl

/-- A data URI is read back as it was written if no marker stands in its media type. -/
theorem ofChars?_toText {uri : DataUri} (h : splitAtMarker? uri.contentType.toList = none) :
    ofChars? uri.toText.toList = some uri := by
  have hscheme : ∀ cs, afterPart? scheme (scheme ++ cs) = some cs := fun _ ↦ rfl
  have hdata : Base64.decode (String.ofList (Base64.encodeBytes uri.data)) = uri.data :=
    Base64.decode_encode uri.data
  rw [toList_toText, ofChars?, hscheme]
  show (splitAtMarker? _).bind _ = _
  rw [splitAtMarker?_append h]
  show some (⟨String.ofList uri.contentType.toList, Base64.decode _⟩ : DataUri) = some uri
  rw [hdata, String.ofList_toList]

/-- The same for texts. -/
theorem ofText_toText {uri : DataUri} (h : splitAtMarker? uri.contentType.toList = none) :
    ofText uri.toText = .ok uri := by
  rw [ofText, ofChars?_toText h]

theorem ofText_of_ofChars?_eq_none {s : String} (h : ofChars? s.toList = none) :
    ∃ e, ofText s = .error e := by
  rw [ofText, h]
  exact ⟨_, rfl⟩

/-! ### Fixed parts without regard to case -/

/-- A character stands for a character of a fixed part if they are the same in upper case. -/
theorem matchesLetter_iff {p c : Char} (hp : p ∈ scheme ++ marker) :
    matchesLetter p c = true ↔ upperOf c = upperOf p := by
  have hcapital : upperOf p = [p.toUpper] ∧ p.toUpper ≠ '\x00' ∧
      upperOf p.toUpper = [p.toUpper] ∧ matchesLetter p p.toUpper = true := by
    revert p
    decide +kernel
  obtain ⟨hupper, hzero, hsettled, hself⟩ := hcapital
  constructor
  · intro h
    simp only [matchesLetter, Bool.or_eq_true, Bool.and_eq_true, beq_iff_eq] at h
    rcases h with (rfl | rfl) | ⟨rfl, rfl⟩
    · rfl
    · rw [hsettled, hupper]
    · decide +kernel
  · intro h
    have hlong : ∀ e ∈ upperExpansions, e.2.length ≠ 1 := by decide +kernel
    have hruns : ∀ r ∈ upperRuns, ∀ q ∈ scheme ++ marker,
        matchesLetter q (Char.ofNat (q.toUpper.toNat - r.shift).toNat) = true ∨
          r.apply? (q.toUpper.toNat - r.shift).toNat ≠ some q.toUpper.toNat := by
      decide +kernel
    rw [hupper, upperOf, mapCase] at h
    cases hexpansion : upperExpansions.lookup c.toNat with
    | some ns =>
      refine absurd ?_ (hlong (c.toNat, ns) (mem_of_lookup hexpansion))
      simpa [hexpansion] using congrArg List.length h
    | none =>
      cases hrun : findRun? c.toNat upperRuns with
      | none =>
        simp only [hexpansion, hrun, List.cons.injEq, and_true] at h
        rw [h, hself]
      | some m =>
        simp only [hexpansion, hrun, List.cons.injEq, and_true] at h
        obtain ⟨r, hr, hm⟩ := exists_of_findRun?_eq_some hrun
        have hcode : m = p.toUpper.toNat := by
          rcases toNat_ofNat_or m with htoNat | hm
          · rw [← htoNat, h]
          · exact absurd (h.symm.trans hm) hzero
        have hpos : p.toUpper.toNat ≠ 0 := fun h ↦ hzero (Char.toNat_inj.mp h)
        have hback : (p.toUpper.toNat - r.shift).toNat = c.toNat := by
          have := (CaseRun.apply?_eq_some hm).2
          omega
        rcases hruns r hr p hp with hmatches | hnone
        · rwa [hback, Char.ofNat_toNat] at hmatches
        · rw [hback, ← hcode] at hnone
          exact absurd hm hnone

/-- The characters are those of a fixed part, without regard to case. -/
def Spells (part spelled : List Char) : Prop := spelled.map upperOf = part.map upperOf

/-- A fixed part is found where a spelling of it begins the text. -/
theorem afterPart?_eq_some_iff {part cs rest : List Char}
    (hpart : ∀ p ∈ part, p ∈ scheme ++ marker) :
    afterPart? part cs = some rest ↔ ∃ spelled, cs = spelled ++ rest ∧ Spells part spelled := by
  induction part generalizing cs with
  | nil => simp [afterPart?, Spells]
  | cons p part ih =>
    obtain ⟨hp, hpart⟩ := List.forall_mem_cons.mp hpart
    cases cs with
    | nil =>
      refine ⟨fun h ↦ absurd h (by simp [afterPart?]), ?_⟩
      rintro ⟨spelled, happend, hspelled⟩
      obtain ⟨rfl, rfl⟩ := List.append_eq_nil_iff.mp happend.symm
      exact absurd hspelled (by simp [Spells])
    | cons c cs =>
      rw [afterPart?]
      constructor
      · intro h
        split at h
        · next hc =>
          obtain ⟨spelled, rfl, hspelled⟩ := (ih hpart).mp h
          exact ⟨c :: spelled, rfl, List.cons_eq_cons.mpr ⟨(matchesLetter_iff hp).mp hc, hspelled⟩⟩
        · exact absurd h (by simp)
      · rintro ⟨_ | ⟨d, spelled⟩, happend, hspelled⟩
        · exact absurd hspelled (by simp [Spells])
        · obtain ⟨rfl, rfl⟩ := List.cons_eq_cons.mp happend
          obtain ⟨hc, hspelled⟩ := List.cons_eq_cons.mp hspelled
          rw [if_pos ((matchesLetter_iff hp).mpr hc)]
          exact (ih hpart).mpr ⟨spelled, rfl, hspelled⟩

theorem afterPart?_scheme_eq_some_iff {cs rest : List Char} :
    afterPart? scheme cs = some rest ↔ ∃ spelled, cs = spelled ++ rest ∧ Spells scheme spelled :=
  afterPart?_eq_some_iff fun _ ↦ List.mem_append_left _

theorem afterPart?_marker_eq_some_iff {cs rest : List Char} :
    afterPart? marker cs = some rest ↔ ∃ spelled, cs = spelled ++ rest ∧ Spells marker spelled :=
  afterPart?_eq_some_iff fun _ ↦ List.mem_append_right _

/-! ### The first marker -/

/-- Somewhere in the text stands the marker, without regard to case. -/
def HoldsMarker (cs : List Char) : Prop :=
  ∃ before spelled after, cs = before ++ (spelled ++ after) ∧ Spells marker spelled

theorem not_holdsMarker_nil : ¬HoldsMarker [] := by
  rintro ⟨before, spelled, after, happend, hspelled⟩
  obtain ⟨-, happend⟩ := List.append_eq_nil_iff.mp happend.symm
  obtain ⟨rfl, -⟩ := List.append_eq_nil_iff.mp happend
  exact absurd hspelled (by simp [Spells, marker_eq])

/-- A marker begins with the first character of a text, or stands in the rest of it. -/
theorem holdsMarker_cons_iff {c : Char} {cs : List Char} :
    HoldsMarker (c :: cs) ↔ (∃ rest, afterPart? marker (c :: cs) = some rest) ∨ HoldsMarker cs := by
  constructor
  · rintro ⟨_ | ⟨d, before⟩, spelled, after, happend, hspelled⟩
    · exact .inl ⟨after, afterPart?_marker_eq_some_iff.mpr ⟨spelled, happend, hspelled⟩⟩
    · obtain ⟨-, hrest⟩ := List.cons_eq_cons.mp happend
      exact .inr ⟨before, spelled, after, hrest, hspelled⟩
  · rintro (⟨rest, hrest⟩ | ⟨before, spelled, after, rfl, hspelled⟩)
    · obtain ⟨spelled, happend, hspelled⟩ := afterPart?_marker_eq_some_iff.mp hrest
      exact ⟨[], spelled, rest, happend, hspelled⟩
    · exact ⟨c :: before, spelled, after, rfl, hspelled⟩

theorem splitAtMarker?_eq_none_iff {cs : List Char} :
    splitAtMarker? cs = none ↔ ¬HoldsMarker cs := by
  induction cs with
  | nil => simp [splitAtMarker?, not_holdsMarker_nil]
  | cons c cs ih =>
    rw [holdsMarker_cons_iff, splitAtMarker?]
    cases hmarker : afterPart? marker (c :: cs) with
    | some rest => simp
    | none => simp [ih]

/-- A text is split at the first marker: none stands in what is before it. -/
theorem not_holdsMarker_of_splitAtMarker? {cs before rest : List Char}
    (h : splitAtMarker? cs = some (before, rest)) : ¬HoldsMarker before := by
  suffices hsplit : (∃ spelled, cs = before ++ (spelled ++ rest) ∧ Spells marker spelled) ∧
      ¬HoldsMarker before from hsplit.2
  induction cs generalizing before with
  | nil => exact absurd h (by simp [splitAtMarker?])
  | cons c cs ih =>
    rw [splitAtMarker?] at h
    cases hmarker : afterPart? marker (c :: cs) with
    | some rest' =>
      simp only [hmarker, Option.some.injEq, Prod.mk.injEq] at h
      obtain ⟨rfl, rfl⟩ := h
      exact ⟨afterPart?_marker_eq_some_iff.mp hmarker, not_holdsMarker_nil⟩
    | none =>
      simp only [hmarker, Option.map_eq_some_iff, Prod.mk.injEq, Prod.exists] at h
      obtain ⟨before, rest', hsplit, rfl, rfl⟩ := h
      obtain ⟨⟨spelled, rfl, hspelled⟩, hbefore⟩ := ih hsplit
      refine ⟨⟨spelled, rfl, hspelled⟩, fun hholds ↦ ?_⟩
      -- a marker that begins with `c` and ends before the split is there in the longer text too
      rcases holdsMarker_cons_iff.mp hholds with ⟨rest, hrest⟩ | hholds
      · obtain ⟨spelled', happend, hspelled'⟩ := afterPart?_marker_eq_some_iff.mp hrest
        have hsome : afterPart? marker (c :: (before ++ (spelled ++ rest'))) =
            some (rest ++ (spelled ++ rest')) :=
          afterPart?_marker_eq_some_iff.mpr ⟨spelled', by
            rw [← List.append_assoc spelled', ← happend, List.cons_append], hspelled'⟩
        exact absurd (hmarker.symm.trans hsome) (by simp)
      · exact hbefore hholds

/-! ### What is read as a data URI -/

/-- The text begins with the scheme, and the marker stands somewhere after it, both without regard
to case. -/
def IsDataUri (cs : List Char) : Prop :=
  ∃ spelled body, cs = spelled ++ body ∧ Spells scheme spelled ∧ HoldsMarker body

/-- What is read from a text with the scheme and a marker: they and what they part. -/
theorem ofChars?_eq_some_iff {cs : List Char} {uri : DataUri} :
    ofChars? cs = some uri ↔ ∃ body before rest, afterPart? scheme cs = some body ∧
      splitAtMarker? body = some (before, rest) ∧
      uri = ⟨String.ofList before, Base64.decode (String.ofList rest)⟩ := by
  simp only [ofChars?, Option.bind_eq_bind, Option.bind_eq_some_iff, Option.pure_def,
    Option.some.injEq, Prod.exists, eq_comm (a := uri)]
  constructor
  · rintro ⟨body, hscheme, before, rest, hsplit, huri⟩
    exact ⟨body, before, rest, hscheme, hsplit, huri⟩
  · rintro ⟨body, before, rest, hscheme, hsplit, huri⟩
    exact ⟨body, hscheme, before, rest, hsplit, huri⟩

theorem exists_ofChars?_iff {cs : List Char} :
    (∃ uri, ofChars? cs = some uri) ↔ IsDataUri cs := by
  constructor
  · rintro ⟨uri, huri⟩
    obtain ⟨body, before, rest, hscheme, hsplit, -⟩ := ofChars?_eq_some_iff.mp huri
    obtain ⟨spelled, happend, hspelled⟩ := afterPart?_scheme_eq_some_iff.mp hscheme
    refine ⟨spelled, body, happend, hspelled, ?_⟩
    by_contra hbody
    rw [splitAtMarker?_eq_none_iff.mpr hbody] at hsplit
    exact absurd hsplit (by simp)
  · rintro ⟨spelled, body, happend, hspelled, hbody⟩
    have hscheme := afterPart?_scheme_eq_some_iff.mpr ⟨spelled, happend, hspelled⟩
    cases hsplit : splitAtMarker? body with
    | none => exact absurd hbody (splitAtMarker?_eq_none_iff.mp hsplit)
    | some parts =>
      exact ⟨_, ofChars?_eq_some_iff.mpr ⟨body, parts.1, parts.2, hscheme, hsplit, rfl⟩⟩

/-- No marker stands in the media type that is read. -/
theorem not_holdsMarker_of_ofChars? {cs : List Char} {uri : DataUri}
    (h : ofChars? cs = some uri) : ¬HoldsMarker uri.contentType.toList := by
  obtain ⟨body, before, rest, -, hsplit, rfl⟩ := ofChars?_eq_some_iff.mp h
  rw [String.toList_ofList]
  exact not_holdsMarker_of_splitAtMarker? hsplit

theorem ofText_eq_ok_iff {s : String} {uri : DataUri} :
    ofText s = .ok uri ↔ ofChars? s.toList = some uri := by
  unfold ofText
  split
  · next uri' huri => rw [huri, Except.ok.injEq, Option.some.injEq]
  · next hnone => simp [hnone]

/-- A data URI is read back as it was written exactly if no marker stands in its media type. A text
is read as a data URI exactly if it begins with the scheme and a marker follows; any other one is
refused with a message that shows its first forty characters. -/
theorem ofText_toText_iff_and_ofText_iff :
    (∀ uri : DataUri, ofText uri.toText = .ok uri ↔ ¬HoldsMarker uri.contentType.toList) ∧
    ∀ s : String,
      (IsDataUri s.toList → ∃ uri, ofText s = .ok uri) ∧
      (¬IsDataUri s.toList →
        ofText s = .error (.notDataUri (quoted (String.ofList (s.toList.take 40))))) := by
  refine ⟨fun uri ↦ ⟨fun h ↦ ?_, fun h ↦ ?_⟩, fun s ↦ ⟨fun h ↦ ?_, fun h ↦ ?_⟩⟩
  · exact not_holdsMarker_of_ofChars? (ofText_eq_ok_iff.mp h)
  · exact ofText_toText (splitAtMarker?_eq_none_iff.mpr h)
  · obtain ⟨uri, huri⟩ := exists_ofChars?_iff.mpr h
    exact ⟨uri, ofText_eq_ok_iff.mpr huri⟩
  · have hnone : ofChars? s.toList = none :=
      Option.eq_none_iff_forall_ne_some.mpr fun uri huri ↦ h (exists_ofChars?_iff.mp ⟨uri, huri⟩)
    rw [ofText, hnone]

-- The long s counts as an s, and only the first marker ends the media type.
example : ofChars? "Data:;base64;baſe64,;base64,TWFu".toList =
    some ⟨";base64", Base64.decode ";base64,TWFu"⟩ := by decide +kernel

end ContactCard.DataUri
