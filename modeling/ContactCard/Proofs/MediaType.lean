import ContactCard.MediaType

/-!
# What catalogs answer

Content types are registered and looked for in any order. The catalog of a class grows by what is
registered on that very class, at its end, and by nothing else (`Catalogs.catalog_after`): neither
what other classes get nor a query leaves a trace in it.

What a query gives is said by the entries of the class alone (`Catalogs.Call.Gives`), with one rule
for each way in which an answer comes about. The catalogs give just what the rules say
(`Catalogs.made_after_iff`).
-/

namespace ContactCard

open Text

/-! ### The earliest of a list -/

/-- The first item of a list that has a property. -/
structure IsEarliest {α : Type} (P : α → Prop) (xs : List α) (x : α) : Prop where
  holds : P x
  exists_split : ∃ before after, xs = before ++ x :: after ∧ ∀ y ∈ before, ¬ P y

theorem find?_eq_some_iff_isEarliest {α : Type} {P : α → Prop} {p : α → Bool}
    (hp : ∀ x, p x = true ↔ P x) {xs : List α} {x : α} :
    xs.find? p = some x ↔ IsEarliest P xs x := by
  rw [List.find?_eq_some_iff_append, hp]
  simp only [Bool.not_eq_true', ← Bool.not_eq_true, hp]
  exact ⟨fun h ↦ ⟨h.1, h.2⟩, fun h ↦ ⟨h.1, h.2⟩⟩

namespace MediaType

/-! ### Content types with the given parts -/

/-- A part agrees up to case with the one that is given, if one is given. -/
def Agrees (given part : Option String) : Prop :=
  ∀ s, given = some s → ∃ t, part = some t ∧ toLower t = toLower s

/-- At least one part is given, and the content type has all that are, up to case. -/
structure HasParts (token mediaType extension : Option String) (m : MediaType) : Prop where
  isGiven : ¬ (token = none ∧ mediaType = none ∧ extension = none)
  agreesToken : Agrees token m.token
  agreesMediaType : Agrees mediaType m.mediaType
  agreesExtension : Agrees extension m.extension

theorem matchesPart_iff {given part : Option String} :
    matchesPart given part = true ↔ Agrees given part := by
  cases given with
  | none => exact iff_of_true rfl nofun
  | some s =>
    cases part with
    | none => exact iff_of_false nofun fun h ↦ by simpa using h s rfl
    | some t => simpa [matchesPart, Agrees] using eq_comm

theorem meets_iff {token mediaType extension : Option String} {m : MediaType}
    (hgiven : ¬ (token = none ∧ mediaType = none ∧ extension = none)) :
    meets token mediaType extension m = true ↔ HasParts token mediaType extension m := by
  simp only [meets, Bool.and_eq_true, matchesPart_iff]
  exact ⟨fun h ↦ ⟨hgiven, h.1.1, h.1.2, h.2⟩, fun h ↦ ⟨⟨h.2, h.3⟩, h.4⟩⟩

end MediaType

namespace Catalogs

open MediaType

/-! ### Calls -/

/-- The registration of a content type on a class, or a query of the class. -/
inductive Call where
  | register (k : MediaClass) (token mediaType extension : Option String)
  | find (k : MediaClass) (token mediaType extension : Option String)
  | get (k : MediaClass) (token mediaType extension : Option String)
  | ofToken (k : MediaClass) (token : Option String)
  | ofMediaType (k : MediaClass) (mediaType : Option String)

namespace Call

/-- The catalogs after a call, and the content type that it gives, if any. -/
def made (c : Catalogs) : Call → Catalogs × Option MediaType
  | .register k token mediaType extension =>
    (c.register k token mediaType extension, some (entry k token mediaType extension))
  | .find k token mediaType extension => (c, c.find? k token mediaType extension)
  | .get k token mediaType extension => (c, some (c.get k token mediaType extension))
  | .ofToken k token => (c, some (c.ofToken k token))
  | .ofMediaType k mediaType => (c, some (c.ofMediaType k mediaType))

/-- The token where it could be a media type, which takes a slash. -/
def slashed (token : Option String) : Option String := token.filter fun s ↦ s.toList.contains '/'

/-- The entry that a registration makes. -/
def entry? : Call → Option MediaType
  | .register k token mediaType extension => some (entry k token mediaType extension)
  | _ => none

/-- What a call gives, by the entries of each class. -/
inductive Gives (entries : MediaClass → List MediaType) : Call → Option MediaType → Prop
  | registered (k token mediaType extension) :
    Gives entries (.register k token mediaType extension)
      (some (entry k token mediaType extension))
  /-- The earliest entry with all the given parts is found. -/
  | found {k token mediaType extension m}
    (h : IsEarliest (HasParts token mediaType extension) (entries k) m) :
    Gives entries (.find k token mediaType extension) (some m)
  | notFound {k token mediaType extension}
    (h : ∀ m ∈ entries k, ¬ HasParts token mediaType extension m) :
    Gives entries (.find k token mediaType extension) none
  /-- Getting gives the entry that would be found. -/
  | known {k token mediaType extension m}
    (h : IsEarliest (HasParts token mediaType extension) (entries k) m) :
    Gives entries (.get k token mediaType extension) (some m)
  /-- Where there is none, it gives a new content type with just the given parts, which is no
  entry. -/
  | unknown {k token mediaType extension}
    (h : ∀ m ∈ entries k, ¬ HasParts token mediaType extension m) :
    Gives entries (.get k token mediaType extension) (some (.new k token mediaType extension))
  /-- A token stands for the entry with this token. -/
  | token {k token m} (h : IsEarliest (HasParts token none none) (entries k) m) :
    Gives entries (.ofToken k token) (some m)
  /-- A token that no entry has stands for the entry with this media type, if it has a slash. -/
  | slashed {k token m} (hnone : ∀ m ∈ entries k, ¬ HasParts token none none m)
    (h : IsEarliest (HasParts none (slashed token) none) (entries k) m) :
    Gives entries (.ofToken k token) (some m)
  /-- Any other token stands for a new content type that has the token and nothing else. -/
  | unknownToken {k token} (hnone : ∀ m ∈ entries k, ¬ HasParts token none none m)
    (hslashed : ∀ m ∈ entries k, ¬ HasParts none (slashed token) none m) :
    Gives entries (.ofToken k token) (some (.new k token none none))
  /-- A media type stands for what is got by it alone. -/
  | mediaType {k mediaType answer} (h : Gives entries (.get k none mediaType none) answer) :
    Gives entries (.ofMediaType k mediaType) answer

end Call

/-- The catalogs after one call after the other. -/
def after (c : Catalogs) (calls : List Call) : Catalogs :=
  calls.foldl (fun c call ↦ (call.made c).1) c

/-- The entries that calls make on exactly this class, the earliest first. -/
def entered (calls : List Call) (k : MediaClass) : List MediaType :=
  (calls.filterMap Call.entry?).filter (·.cls = k)

variable {c : Catalogs} {k : MediaClass} {token mediaType extension : Option String}
  {m : MediaType}

/-! ### Catalogs grow by what is registered on their class -/

theorem catalog_register_self (c : Catalogs) (k : MediaClass)
    (token mediaType extension : Option String) :
    (c.register k token mediaType extension).catalog k =
      c.catalog k ++ [entry k token mediaType extension] := by
  simp [register, catalog]

theorem catalog_register_of_ne {l : MediaClass} (hl : l ≠ k) :
    (c.register k token mediaType extension).catalog l = c.catalog l := by
  rw [register, catalog, OrderedMap.get?_insert_of_ne hl, ← catalog]

theorem catalog_made (c : Catalogs) (call : Call) (k : MediaClass) :
    (call.made c).1.catalog k = c.catalog k ++ entered [call] k := by
  cases call with
  | register l token mediaType extension =>
    by_cases hl : l = k
    · subst hl
      simp [Call.made, catalog_register_self, entered, Call.entry?, entry]
    · simp [Call.made, catalog_register_of_ne (Ne.symm hl), entered, Call.entry?, entry, hl]
  | _ => simp [Call.made, entered, Call.entry?]

theorem catalog_after (c : Catalogs) (calls : List Call) (k : MediaClass) :
    (c.after calls).catalog k = c.catalog k ++ entered calls k := by
  induction calls generalizing c with
  | nil => simp [after, entered]
  | cons call rest ih =>
    have hentered : entered (call :: rest) k = entered [call] k ++ entered rest k := by
      rw [entered, ← List.singleton_append, List.filterMap_append, List.filter_append]
      rfl
    calc
      (c.after (call :: rest)).catalog k = ((call.made c).1.after rest).catalog k := rfl
      _ = (call.made c).1.catalog k ++ entered rest k := ih _
      _ = c.catalog k ++ entered (call :: rest) k := by
        rw [catalog_made, hentered, List.append_assoc]

/-! ### What queries give -/

theorem find?_eq_some_iff : c.find? k token mediaType extension = some m ↔
    IsEarliest (HasParts token mediaType extension) (c.catalog k) m := by
  rw [find?]
  split
  · next hgiven => exact iff_of_false nofun fun h ↦ h.holds.isGiven hgiven
  · next hgiven => exact find?_eq_some_iff_isEarliest fun _ ↦ meets_iff hgiven

theorem find?_eq_none_iff : c.find? k token mediaType extension = none ↔
    ∀ m ∈ c.catalog k, ¬ HasParts token mediaType extension m := by
  rw [find?]
  split
  · next hgiven => exact iff_of_true rfl fun m _ h ↦ h.isGiven hgiven
  · next hgiven =>
    rw [List.find?_eq_none]
    exact forall₂_congr fun m _ ↦ not_congr (meets_iff hgiven)

theorem ofToken_eq (c : Catalogs) (k : MediaClass) (token : Option String) :
    c.ofToken k token = ((c.find? k token none none).or
      (c.find? k none (Call.slashed token) none)).getD (.new k token none none) := by
  have hnothing : c.find? k none none none = none := if_pos ⟨rfl, rfl, rfl⟩
  cases token with
  | none => simp [ofToken, Call.slashed, hnothing]
  | some s =>
    by_cases hs : '/' ∈ s.toList
    · simp [ofToken, Call.slashed, Option.filter, hs]
    · simp [ofToken, Call.slashed, Option.filter, hs, hnothing]

theorem gives_ofToken (c : Catalogs) (k : MediaClass) (token : Option String) :
    Call.Gives c.catalog (.ofToken k token) (some (c.ofToken k token)) := by
  rw [ofToken_eq]
  cases htoken : c.find? k token none none with
  | some m => exact .token (find?_eq_some_iff.mp htoken)
  | none =>
    have hnone := find?_eq_none_iff.mp htoken
    cases hslashed : c.find? k none (Call.slashed token) none with
    | some m => exact .slashed hnone (find?_eq_some_iff.mp hslashed)
    | none => exact .unknownToken hnone (find?_eq_none_iff.mp hslashed)

theorem gives_get (c : Catalogs) (k : MediaClass) (token mediaType extension : Option String) :
    Call.Gives c.catalog (.get k token mediaType extension)
      (some (c.get k token mediaType extension)) := by
  rw [get]
  cases hfind : c.find? k token mediaType extension with
  | some m => exact .known (find?_eq_some_iff.mp hfind)
  | none => exact .unknown (find?_eq_none_iff.mp hfind)

/-- What a call gives is what the rules say of the catalogs. -/
theorem gives_made (c : Catalogs) (call : Call) : call.Gives c.catalog (call.made c).2 := by
  cases call with
  | register k token mediaType extension => exact .registered ..
  | find k token mediaType extension =>
    show Call.Gives _ _ (c.find? k token mediaType extension)
    cases hfind : c.find? k token mediaType extension with
    | some m => exact .found (find?_eq_some_iff.mp hfind)
    | none => exact .notFound (find?_eq_none_iff.mp hfind)
  | get k token mediaType extension => exact c.gives_get k token mediaType extension
  | ofToken k token => exact c.gives_ofToken k token
  | ofMediaType k mediaType => exact .mediaType (c.gives_get k none mediaType none)

/-- The rules say one thing of each call. -/
theorem made_eq_of_gives {call : Call} {answer : Option MediaType}
    (h : call.Gives c.catalog answer) : (call.made c).2 = answer := by
  induction h with
  | registered => rfl
  | found h => exact find?_eq_some_iff.mpr h
  | notFound h => exact find?_eq_none_iff.mpr h
  | known h => simp [Call.made, get, find?_eq_some_iff.mpr h]
  | unknown h => simp [Call.made, get, find?_eq_none_iff.mpr h]
  | token h => simp [Call.made, ofToken_eq, find?_eq_some_iff.mpr h]
  | slashed hnone h =>
    simp [Call.made, ofToken_eq, find?_eq_none_iff.mpr hnone, find?_eq_some_iff.mpr h]
  | unknownToken hnone hslashed =>
    simp [Call.made, ofToken_eq, find?_eq_none_iff.mpr hnone, find?_eq_none_iff.mpr hslashed]
  | mediaType _ ih => exact ih

/-- After any calls the catalog of each class has got what was registered on just this class, so
that catalogs that were empty hold nothing else. A further call gives what the rules say of these
entries, and changes nothing unless it is a registration. -/
theorem made_after_iff (c : Catalogs) (calls : List Call) :
    (∀ k, (c.after calls).catalog k = c.catalog k ++ entered calls k) ∧
      ∀ call : Call,
        (∀ answer, (call.made (c.after calls)).2 = answer ↔
          call.Gives (fun k ↦ c.catalog k ++ entered calls k) answer) ∧
        (call.entry? = none → (call.made (c.after calls)).1 = c.after calls) := by
  have hcatalog : (c.after calls).catalog = fun k ↦ c.catalog k ++ entered calls k :=
    funext (c.catalog_after calls)
  refine ⟨c.catalog_after calls, fun call ↦ ⟨fun answer ↦ ?_, fun hquery ↦ ?_⟩⟩
  · rw [← hcatalog]
    refine ⟨?_, made_eq_of_gives⟩
    rintro rfl
    exact (c.after calls).gives_made call
  · cases call with
    | register => exact absurd hquery nofun
    | _ => rfl

end Catalogs

end ContactCard
