import ContactCard.Proofs.Codec.Leniency
import ContactCard.Proofs.Codec.Registry
import ContactCard.Proofs.Parameters.Invariant

/-!
# Prepared parameters as a projection

Preparing the parameters of a property replaces those that its codec decides and keeps the others
(`prepareParameters_projection`). What it replaces them by depends on the property and the version
alone and not on what was stored, so every codec comes down to one list of changes
(`Codec.Prepares`), and changes to different names are made only once: making them again changes
nothing (`Parameters.assignAll_assignAll`).

The VALUE parameter is one of those that are decided, and it is left out if the data type is the
default one. A reader who falls back on the default therefore gets the data type of the value.
-/

namespace ContactCard

open Text

/-! ### Changes of parameters -/

namespace Parameters

variable {ps : Parameters} {changes : List (String × Option String)} {names : List String}

/-- The parameters after each name was assigned its value, one after the other. -/
def assignAll (ps : Parameters) (changes : List (String × Option String)) : Parameters :=
  changes.foldl (fun ps c ↦ ps.assign c.1 c.2) ps

/-- The names that changes assign to, as they are kept. -/
def changedNames (changes : List (String × Option String)) : List String :=
  changes.map fun c ↦ toLower c.1

/-- The entries that changes leave behind. -/
def changedEntries (changes : List (String × Option String)) : List (String × List String) :=
  changes.filterMap fun c ↦ c.2.map fun s ↦ (toLower c.1, [s])

/-- The entries of other names, in order. -/
def others (ps : Parameters) (names : List String) : List (String × List String) :=
  ps.table.entries.filter fun e ↦ e.1 ∉ names

theorem fst_mem_changedNames {e : String × List String} (h : e ∈ changedEntries changes) :
    e.1 ∈ changedNames changes := by
  obtain ⟨c, hc, hvalue⟩ := List.mem_filterMap.mp h
  obtain ⟨s, -, rfl⟩ := Option.map_eq_some_iff.mp hvalue
  exact List.mem_map_of_mem hc

/-- Assigning puts the name at the end. -/
theorem entries_assign (ps : Parameters) (name : String) (value : Option String) :
    (ps.assign name value).table.entries =
      ps.others [toLower name] ++ changedEntries [(name, value)] := by
  have hremove : (ps.remove name).table.entries = ps.others [toLower name] := by
    refine List.filter_congr fun e _ ↦ ?_
    rw [Bool.eq_iff_iff, Bool.not_eq_true', beq_eq_false_iff_ne, decide_eq_true_eq,
      List.mem_singleton]
    exact ne_comm
  cases value with
  | none => simpa [assign, changedEntries] using hremove
  | some s =>
    have hfresh : toLower name ∉ (ps.remove name).table.entries.map Prod.fst := by
      simp [remove, OrderedMap.erase]
    rw [assign, set, OrderedMap.insert, OrderedMap.insertEntry_of_not_mem _ hfresh, hremove]
    rfl

/-- The others are found again where they were, and the new entry may be one of them. -/
theorem others_assign (ps : Parameters) (name : String) (value : Option String)
    (names : List String) :
    (ps.assign name value).others names =
      ps.others (toLower name :: names) ++
        (changedEntries [(name, value)]).filter fun e ↦ e.1 ∉ names := by
  rw [others, entries_assign, List.filter_append, others, others, List.filter_filter]
  congr 1
  refine List.filter_congr fun e _ ↦ ?_
  rw [Bool.eq_iff_iff]
  simp [and_comm]

/-- Assigning to one of the names leaves the others as they are. -/
theorem others_assign_of_mem {name : String} (h : toLower name ∈ names) (value : Option String) :
    (ps.assign name value).others names = ps.others names := by
  have hnew : (changedEntries [(name, value)]).filter (fun e ↦ e.1 ∉ names) = [] := by
    rw [List.filter_eq_nil_iff]
    intro e he
    have hname : e.1 = toLower name := List.mem_singleton.mp (fst_mem_changedNames he)
    simpa [hname] using h
  rw [others_assign, hnew, List.append_nil]
  refine List.filter_congr fun e _ ↦ ?_
  rw [Bool.eq_iff_iff]
  simp only [List.mem_cons, not_or, decide_eq_true_eq, and_iff_right_iff_imp]
  intro hne heq
  exact hne (heq ▸ h)

theorem others_assignAll (h : changedNames changes ⊆ names) :
    (ps.assignAll changes).others names = ps.others names := by
  induction changes generalizing ps with
  | nil => rfl
  | cons c rest ih =>
    obtain ⟨hc, hrest⟩ := List.cons_subset.mp h
    rw [assignAll, List.foldl_cons]
    exact (ih hrest).trans (others_assign_of_mem hc c.2)

/-- The other names come first, as they were, and the assigned ones follow in the order of the
changes. -/
theorem entries_assignAll (h : (changedNames changes).Nodup) :
    (ps.assignAll changes).table.entries =
      ps.others (changedNames changes) ++ changedEntries changes := by
  induction changes generalizing ps with
  | nil => simp [assignAll, others, changedNames, changedEntries]
  | cons c rest ih =>
    obtain ⟨hc, hrest⟩ := List.nodup_cons.mp h
    have hkept : (changedEntries [c]).filter (fun e ↦ e.1 ∉ changedNames rest) =
        changedEntries [c] := by
      rw [List.filter_eq_self]
      intro e he
      have hname : e.1 = toLower c.1 := List.mem_singleton.mp (fst_mem_changedNames he)
      rw [hname, decide_eq_true_eq]
      exact hc
    have hothers : (ps.assign c.1 c.2).others (changedNames rest) =
        ps.others (changedNames (c :: rest)) ++ changedEntries [c] := by
      rw [others_assign, hkept]
      rfl
    have hentries : changedEntries (c :: rest) = changedEntries [c] ++ changedEntries rest := by
      rw [changedEntries, changedEntries, changedEntries, ← List.filterMap_append]
      rfl
    rw [hentries, ← List.append_assoc, ← hothers]
    exact ih hrest

/-- Changes to different names are made only once. -/
theorem assignAll_assignAll (ps : Parameters) (h : (changedNames changes).Nodup) :
    (ps.assignAll changes).assignAll changes = ps.assignAll changes := by
  have hentries : ((ps.assignAll changes).assignAll changes).table.entries =
      (ps.assignAll changes).table.entries := by
    rw [entries_assignAll h, others_assignAll (List.Subset.refl _), ← entries_assignAll h]
  exact congrArg (fun es ↦ (⟨⟨es⟩⟩ : Parameters)) hentries

theorem IsKept.assignAll {bare : Prop} (h : ps.IsKept bare)
    (changes : List (String × Option String)) : (ps.assignAll changes).IsKept bare := by
  induction changes generalizing ps with
  | nil => exact h
  | cons c rest ih =>
    refine ih (?_ : (ps.assign c.1 c.2).IsKept bare)
    cases c.2 with
    | none => exact h.remove c.1
    | some s => exact h.set c.1 s

end Parameters

/-! ### The data type that a reader infers -/

/-- Data types are equal in either order. -/
theorem DataType.sameOption_comm (a b : Option DataType) :
    DataType.sameOption a b = DataType.sameOption b a := by
  cases a <;> cases b <;> try rfl
  rw [Bool.eq_iff_iff, sameOption, sameOption, same_iff, same_iff, eq_comm]

/-- The value that the VALUE parameter is given: the name of the data type, unless it is the default
one. -/
def Codec.namedDataType (c : Codec) (d : Option DataType) (v : Version) : Option String :=
  (if DataType.sameOption d (c.defaultDataType v) then none else d).map DataType.name

/-- The data type is found again from its name or, if that was left out, as the default one. -/
theorem Codec.sameOption_namedDataType {c : Codec} {d : Option DataType} {v : Version}
    (h : d = none → c.defaultDataType v = none) :
    DataType.sameOption (((c.namedDataType d v).map DataType.ofName).or (c.defaultDataType v)) d =
      true := by
  rw [namedDataType]
  split
  · next hsame =>
    rwa [Option.map_none, Option.map_none, Option.none_or, DataType.sameOption_comm]
  · next hother =>
    cases d with
    | none => exact absurd (by rw [h rfl]; rfl) hother
    | some t => exact DataType.same_iff.mpr (DataType.toLower_name_ofName t.name)

/-! ### What each codec changes -/

/-- The names of the parameters that codecs of a shape decide. -/
def Shape.decidedNames : Shape → List String
  | .binary => ["encoding", "mediatype", "type", "value"]
  | _ => ["value"]

/-- The names of the parameters that a codec decides. -/
def Codec.decidedNames (c : Codec) : List String := c.subject.target.shape.decidedNames

/-- Whatever is stored with the property, the codec makes the same changes to it, and names the data
type of the value at last. -/
structure Codec.Prepares (c : Codec) (p : Property) (v : Version)
    (changes : List (String × Option String)) (d : Option DataType) : Prop where
  prepare : ∀ ps, c.prepareParameters { p with parameters := ps } v =
    .ok (ps.assignAll (changes ++ [("value", c.namedDataType d v)]))
  dataType : c.dataType p v = .ok d
  /-- A value has a data type if there is one by default. -/
  missing : d = none → c.defaultDataType v = none
  nodup : (Parameters.changedNames changes ++ ["value"]).Nodup
  decided : Parameters.changedNames changes ++ ["value"] ⊆ c.decidedNames

/-- The changes by which a resource is described. -/
def BinaryPolicy.changes (b : BinaryPolicy) (r : Resource) (t : Option MediaType) :
    List (String × Option String) :=
  match r with
  | .absent => []
  | .url _ =>
    ("encoding", none) ::
      if b.isLegacy then [("type", t.bind MediaType.token), ("mediatype", none)]
      else [("mediatype", t.bind MediaType.mediaType)]
  | .data _ =>
    ("mediatype", none) :: ("encoding", b.encoding.map Encoding.name) ::
      if b.isLegacy then [("type", t.bind MediaType.token)] else []

theorem BinaryPolicy.describe_eq (b : BinaryPolicy) (r : Resource) (t : Option MediaType)
    (ps : Parameters) : b.describe r t ps = ps.assignAll (b.changes r t) := by
  cases r with
  | absent => rfl
  | _ => cases h : b.isLegacy <;> simp [describe, changes, h, Parameters.assignAll] <;> rfl

/-- They are changes to different names, among those that codecs of resources decide. -/
theorem BinaryPolicy.changedNames_changes (b : BinaryPolicy) (r : Resource)
    (t : Option MediaType) :
    (Parameters.changedNames (b.changes r t) ++ ["value"]).Nodup ∧
      Parameters.changedNames (b.changes r t) ++ ["value"] ⊆ Shape.binary.decidedNames := by
  have hlower : toLower "encoding" = "encoding" ∧ toLower "mediatype" = "mediatype" ∧
      toLower "type" = "type" := by decide +kernel
  cases r with
  | absent => simp [changes, Parameters.changedNames, Shape.decidedNames]
  | _ =>
    cases h : b.isLegacy <;>
      simp [changes, Parameters.changedNames, Shape.decidedNames, h, hlower]

namespace Codec

variable {p : Property} {v : Version}

/-- A codec that adjusts nothing changes the VALUE parameter alone. -/
theorem prepares_of_adjust {c : Codec} {d : Option DataType}
    (hadjust : ∀ ps, c.format.adjust { p with parameters := ps } v ps = .ok ps)
    (hd : ∀ ps, c.format.dataType { p with parameters := ps } v = .ok d)
    (hmissing : d = none → c.defaultDataType v = none) : c.Prepares p v [] d where
  prepare ps := by
    simp only [prepareParameters, hadjust, hd]
    rfl
  dataType := hd p.parameters
  missing := hmissing
  nodup := by simp [Parameters.changedNames]
  decided := by
    rw [decidedNames]
    cases c.subject.target.shape <;> decide +kernel

theorem prepares_text (label : String) (k : PropertyClass) (t : DataType) :
    (ofClass label k (.text t)).Prepares p v [] (some t) :=
  prepares_of_adjust (fun _ ↦ rfl) (fun _ ↦ rfl) fun h ↦ absurd h (Option.some_ne_none t)

theorem prepares_extension (name : String) {d : Option DataType} (h : p.dataType = .ok d) :
    (extension name).Prepares p v [] d :=
  prepares_of_adjust (fun _ ↦ rfl) (fun _ ↦ h) fun _ ↦ rfl

theorem prepares_binary (label : String) {k : PropertyClass} (m : MediaClass)
    (hk : k.shape = .binary) {r : Resource} {t : Option MediaType}
    (h : p.content = .binary r t) :
    (binary label k m).Prepares p v ((BinaryPolicy.of v).changes r t)
      ((BinaryPolicy.of v).dataType r) where
  prepare ps := by
    have hprepare := prepareParameters_binary label k m
      (p := { p with parameters := ps }) (r := r) (t := t) h v
    rw [hprepare, preparedParameters, BinaryPolicy.describe_eq, Parameters.assignAll,
      Parameters.assignAll, List.foldl_append]
    rfl
  dataType := by
    show p.resource.map (BinaryPolicy.of v).dataType = _
    rw [Property.resource_eq h]
    rfl
  missing hnone := by
    cases v with
    | v4_0 => cases r <;> exact absurd hnone (Option.some_ne_none _)
    | _ => rfl
  nodup := ((BinaryPolicy.of v).changedNames_changes r t).1
  decided := by
    rw [decidedNames, binary, hk]
    exact ((BinaryPolicy.of v).changedNames_changes r t).2

end Codec

/-! ### Properties and the codecs that serve them -/

/-- The property has what the codecs of a shape ask for. -/
def Property.Suits (p : Property) : Shape → Prop
  | .plain => True
  | .binary => ∃ r t, p.content = .binary r t
  | .text => ∃ s, p.value = .ok s
  | .extension => ∃ d, p.dataType = .ok d

/-- The codec is the one that was registered for the class of the property or, where no class
decides and the name has none, that of extension properties; and the property suits it. -/
structure Property.IsServedBy (p : Property) (c : Codec) : Prop where
  codec : Registry.standard.codecOfLineage? p.cls = some c ∨
    Registry.standard.codecOfLineage? p.cls = none ∧ ∃ name, p.name = some name ∧
      Registry.standard.byName.get? (toUpper name) = none ∧ c = .extension name
  suits : p.Suits c.subject.target.shape

variable {p : Property} {c : Codec}

theorem Property.IsServedBy.codecOfProperty (h : p.IsServedBy c) :
    Registry.standard.codecOfProperty p = .ok c := by
  rcases h.codec with hclass | ⟨hclass, name, hname, hnew, rfl⟩
  · exact codecOfProperty_of_class hclass
  · rw [codecOfProperty_of_name hclass hname, hnew, Option.getD_none]

theorem Property.IsServedBy.exists_prepares (h : p.IsServedBy c) (v : Version) :
    ∃ changes d, c.Prepares p v changes d := by
  obtain ⟨hcodec, hsuits⟩ := h
  rcases hcodec with hclass | ⟨-, name, -, -, rfl⟩
  · rcases registered_cases (mem_registeredCodecs_of_codecOfLineage? hclass) with
      ⟨label, k, t, rfl⟩ | ⟨label, k, m, hk, rfl⟩
    · exact ⟨_, _, Codec.prepares_text label k t⟩
    · rw [Codec.binary, hk] at hsuits
      obtain ⟨r, t, hcontent⟩ := hsuits
      exact ⟨_, _, Codec.prepares_binary label m hk hcontent⟩
  · obtain ⟨d, hd⟩ := hsuits
    exact ⟨_, _, Codec.prepares_extension name hd⟩

/-- Where a codec prepares the parameters of a property at all, it makes the same changes to any. -/
theorem exists_prepares_of_prepareParameters {v : Version} {ps : Parameters}
    (hcodec : Registry.standard.codecOfProperty p = .ok c)
    (hps : c.prepareParameters p v = .ok ps) : ∃ changes d, c.Prepares p v changes d := by
  obtain ⟨adjusted, hadjusted, hps⟩ := exists_of_bind_eq_ok hps
  obtain ⟨d, hd, -⟩ := exists_of_bind_eq_ok hps
  rcases codecOfProperty_cases hcodec with hc | ⟨name, rfl⟩
  · rcases registered_cases hc with ⟨label, k, t, rfl⟩ | ⟨label, k, m, hk, rfl⟩
    · exact ⟨_, _, Codec.prepares_text label k t⟩
    · obtain ⟨r, hresource, -⟩ := exists_of_bind_eq_ok hadjusted
      obtain ⟨t, hcontent⟩ := content_of_resource hresource
      exact ⟨_, _, Codec.prepares_binary label m hk hcontent⟩
  · exact ⟨_, _, Codec.prepares_extension name hd⟩

/-- Parameters that were prepared are kept like those that are stored with the property. -/
theorem isKept_of_prepareParameters {v : Version} {ps : Parameters} {bare : Prop}
    (hcodec : Registry.standard.codecOfProperty p = .ok c)
    (hps : c.prepareParameters p v = .ok ps) (h : p.parameters.IsKept bare) :
    ps.IsKept bare := by
  obtain ⟨changes, d, hprepares⟩ := exists_prepares_of_prepareParameters hcodec hps
  rw [Except.ok.inj (hps.symm.trans (hprepares.prepare p.parameters))]
  exact h.assignAll _

/-- Preparing the parameters of a property, whichever are stored with it, keeps those that its codec
does not decide, with their values and in their order. The result can be stored in their place,
where a copy of it is kept, and preparing it again changes nothing. A reader who takes the data type
from the VALUE parameter, or else the default one, gets the data type of the value. -/
theorem prepareParameters_projection (h : p.IsServedBy c) (v : Version) :
    Registry.standard.codecOfProperty p = .ok c ∧
    ∃ ps d, c.prepareParameters p v = .ok ps ∧ c.dataType p v = .ok d ∧
      ps.others c.decidedNames = p.parameters.others c.decidedNames ∧
      (p.parameters.IsTidy → ps.copy = ps) ∧
      c.prepareParameters { p with parameters := ps } v = .ok ps ∧
      DataType.sameOption (ps.valueType?.or (c.defaultDataType v)) d = true := by
  obtain ⟨changes, d, hprepares⟩ := h.exists_prepares v
  have hlower : toLower "value" = "value" := by decide +kernel
  let all := changes ++ [("value", c.namedDataType d v)]
  have hnames : Parameters.changedNames all = Parameters.changedNames changes ++ ["value"] := by
    rw [Parameters.changedNames, List.map_append, List.map_singleton, hlower]
    rfl
  have hvalue : (p.parameters.assignAll all).get? "value" = c.namedDataType d v := by
    rw [Parameters.assignAll, List.foldl_append]
    exact Parameters.get?_assign_self _ "value" _
  refine ⟨h.codecOfProperty, p.parameters.assignAll all, d, hprepares.prepare p.parameters,
    hprepares.dataType, Parameters.others_assignAll (hnames ▸ hprepares.decided),
    fun htidy ↦ (htidy.assignAll all).copy_eq, ?_, ?_⟩
  · rw [hprepares.prepare, Parameters.assignAll_assignAll _ (hnames ▸ hprepares.nodup)]
  · rw [Parameters.valueType?, hvalue]
    exact Codec.sameOption_namedDataType hprepares.missing

/-- A photograph loses the parameters of a form that it does not have, an extension property only
the VALUE parameter, and both keep the rest in order. -/
theorem prepareParameters_projection_stale :
    let stale := Parameters.empty.add "value" "date" |>.add "language" "en" |>.add "encoding" "b"
      |>.add "TYPE" "home" |>.add "pref" "1"
    let photo := { Property.ofResource .photo (.url "http://example.com/p") none with
      parameters := stale }
    let distance := { Property.ofExtension "x-distance" (some "3") (some (.ofName "INTEGER")) with
      parameters := stale }
    (photo.IsServedBy .photo ∧ ∀ v, ∃ ps, Codec.photo.prepareParameters photo v = .ok ps ∧
      ps.others Codec.photo.decidedNames = [("language", ["en"]), ("pref", ["1"])]) ∧
    let codec := Codec.extension "X-DISTANCE"
    distance.IsServedBy codec ∧ ∀ v, ∃ ps, codec.prepareParameters distance v = .ok ps ∧
      ps.others codec.decidedNames =
        [("language", ["en"]), ("encoding", ["b"]), ("type", ["home"]), ("pref", ["1"])] := by
  intro stale photo distance
  have hphoto : photo.IsServedBy .photo := ⟨.inl rfl, _, _, rfl⟩
  have hdistance : distance.IsServedBy (.extension "X-DISTANCE") :=
    ⟨.inr ⟨rfl, "X-DISTANCE", by decide +kernel, by decide +kernel, rfl⟩, _, rfl⟩
  refine ⟨⟨hphoto, fun v ↦ ?_⟩, hdistance, fun v ↦ ?_⟩
  · obtain ⟨-, ps, -, hprepare, -, hothers, -⟩ := prepareParameters_projection hphoto v
    exact ⟨ps, hprepare, hothers.trans (by decide +kernel)⟩
  · obtain ⟨-, ps, -, hprepare, -, hothers, -⟩ := prepareParameters_projection hdistance v
    exact ⟨ps, hprepare, hothers.trans (by decide +kernel)⟩

end ContactCard
