import ContactCard.Url.Basic

/-!
# When URLs can be joined

A text that is relative to a base is refused if one of the two has a malformed authority, whatever
the rest of them is (`join_eq_error`). Otherwise it may still come to nothing: this is so just when
neither of the two says anything, the fragment of the base apart, which no relative URL keeps
(`SayNothing`). All other texts are joined to something (`exists_join_eq_ok`).
-/

namespace ContactCard.Url

open Text

/-! ### Authorities -/

/-- What stands after the scheme of a URL, if it has one. -/
def afterScheme (s : String) : List Char :=
  ((scheme? (cleaned s.toList)).getD ([], cleaned s.toList)).2

/-- The authority that a text names. -/
def authorityOf (s : String) : List Char := (splitAuthority (afterScheme s)).1

/-- What the text has in the place of an authority cannot be one. -/
def IsMalformed (s : String) : Prop := isAuthority (authorityOf s) = false

instance (s : String) : Decidable (IsMalformed s) :=
  inferInstanceAs (Decidable (isAuthority (authorityOf s) = false))

/-- A text is refused as a URL for its authority only, whatever scheme it is read with. -/
theorem ofChars_cases (s : String) (fallback : List Char) :
    ofChars s.toList fallback = .error .badAuthority ∧ IsMalformed s ∨
      (∃ u, ofChars s.toList fallback = .ok u) ∧ ¬IsMalformed s := by
  -- the fallback takes the place of the scheme and of nothing else
  have hrest : ((scheme? (cleaned s.toList)).getD (fallback, cleaned s.toList)).2 =
      afterScheme s := by
    rw [afterScheme]
    cases scheme? (cleaned s.toList) <;> rfl
  obtain ⟨u, hu⟩ : ∃ u, ofChars s.toList fallback =
      if isAuthority (splitAuthority
        ((scheme? (cleaned s.toList)).getD (fallback, cleaned s.toList)).2).1 then .ok u
      else .error .badAuthority := ⟨_, rfl⟩
  rw [hrest, ← authorityOf] at hu
  rw [hu, IsMalformed]
  cases isAuthority (authorityOf s) with
  | true => exact .inr ⟨⟨u, rfl⟩, by decide⟩
  | false => exact .inl ⟨rfl, rfl⟩

/-! ### URLs that say nothing -/

/-- The URL with a fragment and nothing else. -/
def ofFragment (fragment : List Char) : Url := ⟨[], [], [], [], [], fragment⟩

theorem delimited_eq_nil_iff {c : Char} {part : List Char} : delimited c part = [] ↔ part = [] := by
  cases part <;> simp [delimited]

/-- Only a URL without any part is written as nothing. -/
theorem toChars_eq_nil_iff {u : Url} : u.toChars = [] ↔ u = ofFragment [] := by
  constructor
  · intro h
    obtain ⟨scheme, authority, path, params, query, fragment⟩ := u
    simp only [toChars, List.append_eq_nil_iff, delimited_eq_nil_iff] at h
    obtain ⟨⟨⟨hscheme, hpath⟩, rfl⟩, rfl⟩ := h
    obtain rfl : scheme = [] := by
      cases scheme with
      | nil => rfl
      | cons c cs => simp at hscheme
    split at hpath
    · cases hpath
    · next hnone =>
      obtain ⟨rfl, hparams⟩ := List.append_eq_nil_iff.mp hpath
      obtain rfl := delimited_eq_nil_iff.mp hparams
      obtain rfl : authority = [] := by simpa [hasAuthority] using hnone
      rfl
  · rintro rfl
    rfl

theorem joinPaths_ne_nil (base path : List Char) : joinPaths base path ≠ [] := by
  simp only [joinPaths]
  generalize Text.join '/' _ = joined
  cases joined with
  | nil => exact List.cons_ne_nil _ _
  | cons c cs => exact List.cons_ne_nil _ _

/-- A relative URL is resolved to nothing just when neither it nor its base says anything. -/
theorem resolve_eq_nothing_iff {b u : Url} (hscheme : u.scheme = b.scheme) :
    b.resolve u = ofFragment [] ↔ (∃ fragment, b = ofFragment fragment) ∧ u = ofFragment [] := by
  constructor
  · intro h
    obtain ⟨scheme, authority, path, params, query, fragment⟩ := u
    obtain ⟨_, authority', path', params', query', fragment'⟩ := b
    obtain rfl := hscheme
    simp only [resolve] at h
    split at h
    · next hown =>
      obtain rfl : authority = [] := congrArg Url.authority h
      exact absurd hown.2 (by decide)
    next hown =>
    split at h
    · next hempty =>
      simp only [ofFragment, Url.mk.injEq] at h ⊢
      obtain ⟨rfl, hauthority, rfl, rfl, hquery, rfl⟩ := h
      -- without a scheme a URL has an authority, so that it takes the one of the base
      have hamong : isAmong [] authoritySchemes = true := by decide
      rw [hamong] at hauthority hown
      obtain rfl : authority = [] := by simpa using hown
      obtain rfl : query = [] := by
        cases query with
        | nil => rfl
        | cons c cs => cases hquery
      obtain rfl : authority' = [] := hauthority
      obtain rfl : query' = [] := hquery
      obtain ⟨rfl, rfl⟩ : path = [] ∧ params = [] := by simpa using hempty
      exact ⟨⟨fragment', rfl, rfl, rfl, rfl, rfl, rfl⟩, rfl, rfl, rfl, rfl, rfl, rfl⟩
    · next hpath =>
      exact absurd (congrArg Url.path h) (joinPaths_ne_nil _ _)
  · rintro ⟨⟨fragment, rfl⟩, rfl⟩
    rfl

/-! ### Joining -/

variable {base text : String}

/-- Neither the text nor its base says anything, the fragment of the base apart. -/
structure SayNothing (base text : String) : Prop where
  base : ∃ fragment, ofChars base.toList [] = .ok (ofFragment fragment)
  text : ofChars text.toList [] = .ok (ofFragment [])

theorem join_eq_bind (hbase : base ≠ "") (htext : text ≠ "") :
    join base text = do
      let b ← ofChars base.toList []
      let u ← ofChars text.toList b.scheme
      if u.scheme ≠ b.scheme ∨ !isAmong u.scheme relativeSchemes then return text
      return String.ofList (b.resolve u).toChars := by
  simp [join, String.isEmpty_iff, hbase, htext]

/-- A malformed authority, be it that of the base or that of the text, is refused. -/
theorem join_eq_error (hbase : base ≠ "") (htext : text ≠ "")
    (h : IsMalformed base ∨ IsMalformed text) : join base text = .error .badAuthority := by
  rw [join_eq_bind hbase htext]
  rcases ofChars_cases base [] with ⟨hb, -⟩ | ⟨⟨b, hb⟩, hbase⟩
  · rw [hb]
    rfl
  rcases ofChars_cases text b.scheme with ⟨hu, -⟩ | ⟨-, htext⟩
  · rw [hb]
    show ofChars text.toList b.scheme >>= _ = _
    rw [hu]
    rfl
  · exact absurd h (not_or.mpr ⟨hbase, htext⟩)

theorem sayNothing_iff {b u : Url} (hb : ofChars base.toList [] = .ok b)
    (hu : ofChars text.toList b.scheme = .ok u) :
    SayNothing base text ↔ (∃ fragment, b = ofFragment fragment) ∧ u = ofFragment [] := by
  constructor
  · rintro ⟨⟨fragment, hbase⟩, htext⟩
    obtain rfl := Except.ok.inj (hb.symm.trans hbase)
    exact ⟨⟨fragment, rfl⟩, Except.ok.inj (hu.symm.trans htext)⟩
  · rintro ⟨⟨fragment, rfl⟩, rfl⟩
    exact ⟨⟨fragment, hb⟩, hu⟩

/-- With well-formed authorities a text is joined, and to nothing only if nothing was said. -/
theorem exists_join_eq_ok (hbase : base ≠ "") (htext : text ≠ "")
    (h : ¬(IsMalformed base ∨ IsMalformed text)) :
    ∃ s, join base text = .ok s ∧ (s = "" ↔ SayNothing base text) := by
  obtain ⟨hbase', htext'⟩ := not_or.mp h
  obtain ⟨b, hb⟩ := ((ofChars_cases base []).resolve_left fun h ↦ hbase' h.2).1
  obtain ⟨u, hu⟩ := ((ofChars_cases text b.scheme).resolve_left fun h ↦ htext' h.2).1
  have hjoin : join base text =
      if u.scheme ≠ b.scheme ∨ !isAmong u.scheme relativeSchemes then .ok text
      else .ok (String.ofList (b.resolve u).toChars) := by
    rw [join_eq_bind hbase htext, hb]
    show ofChars text.toList b.scheme >>= _ = _
    rw [hu]
    rfl
  rw [hjoin, sayNothing_iff hb hu]
  split
  · next hother =>
    refine ⟨text, rfl, iff_of_false htext ?_⟩
    rintro ⟨⟨fragment, rfl⟩, rfl⟩
    rcases hother with hscheme | hamong
    · exact hscheme rfl
    · exact absurd hamong (by decide)
  · next hsame =>
    have hscheme : u.scheme = b.scheme := Decidable.not_not.mp (not_or.mp hsame).1
    refine ⟨_, rfl, ?_⟩
    rw [← String.toList_inj, String.toList_ofList, String.toList_empty, toChars_eq_nil_iff,
      resolve_eq_nothing_iff hscheme]

end ContactCard.Url
