import ContactCard.Proofs.Settings.Runs
import ContactCard.Proofs.Settings.Transparency

/-!
# What settings objects share

All settings objects share the defaults that are kept. So an object can tell what was done with the
others exactly when a default is kept that depends on which object it was computed for: objects do
not influence each other, whatever is done with them and in which order, if and only if the
definitions are impartial (`Settings.World.answers_filter_iff`). The standard definitions are
(`Definitions.isImpartial_standard`), and so are all whose factories, where their answers are kept,
do not look at the settings (`Definitions.isImpartial_of_done`).
-/

namespace ContactCard

/-- A default that is to be kept comes out the same for all settings objects that have no value of
their own for it. An answer that is null or a refusal is not kept and may differ. -/
def Definitions.IsImpartial (ds : Definitions) : Prop :=
  ∀ name d, ds.get? name = some d → d.cached = true →
    ∀ s t : Settings, s.stored.get? name = none → t.stored.get? name = none →
      ∀ v, v ≠ .null → (s.lookUp ds (.ofName name)).2 = .ok v →
        (t.lookUp ds (.ofName name)).2 = .ok v

namespace Settings

variable {s t : Settings} {ds ds' : Definitions} {P : Definition → Value → Prop} {name : String}
  {d : Definition} {v : Value}

/-! ### Operations where defaults were kept -/

/-- Settings that compute the defaults that are kept do with them all that they do without. -/
theorem Operation.made_congr (hnamed : ds.IsNamed) (hP : s.Computes ds P) (h : ds.Keeps P ds')
    (op : Operation) :
    (op.made ds' s).settings = (op.made ds s).settings ∧
      (op.made ds' s).answer = (op.made ds s).answer := by
  have hlook : ∀ r, (s.lookUp ds' r).2 = (s.lookUp ds r).2 := fun r ↦
    (lookUp_eq_freshAnswer hnamed hP h r).2.trans
      (lookUp_eq_freshAnswer hnamed hP (.refl P ds) r).2.symm
  have hreading : ∀ {x y : Definitions × Settings × Except Error Value}, x.2 = y.2 →
      (Effect.ofReading x).settings = (Effect.ofReading y).settings ∧
        (Effect.ofReading x).answer = (Effect.ofReading y).answer := by
    rintro ⟨_, x⟩ ⟨_, y⟩ rfl
    exact ⟨rfl, rfl⟩
  have hchange : ∀ changed : Except Error (Settings × Answer),
      (Effect.ofChange ds' s changed).settings = (Effect.ofChange ds s changed).settings ∧
        (Effect.ofChange ds' s changed).answer = (Effect.ofChange ds s changed).answer := by
    rintro (e | ⟨s', answer⟩) <;> exact ⟨rfl, rfl⟩
  cases op with
  | look r => exact ⟨rfl, congrArg (Except.map Answer.value) (hlook r)⟩
  | set key v =>
    rw [made, made, set_congr h]
    exact hchange _
  | delete key => exact hchange _
  | popFirst => exact hchange _
  | pop key default? =>
    refine hreading ?_
    rw [pop_snd, pop_snd, hlook]
  | setDefault key v =>
    refine hreading ?_
    rw [setDefault_snd, setDefault_snd, fillIn_congr (lookUp_eq_freshAnswer hnamed hP h _).1,
      fillIn_congr (lookUp_eq_freshAnswer hnamed hP (.refl P ds) _).1, hlook]
  | update entries =>
    rw [made, made, setAll_congr h]
    exact ⟨rfl, rfl⟩
  | _ => exact ⟨rfl, rfl⟩

/-- An operation keeps no defaults but those that the settings compute. -/
theorem Operation.keeps_made_of_computes (hnamed : ds.IsNamed) (hP : s.Computes ds P)
    (h : ds.Keeps P ds') (op : Operation) : ds.Keeps P (op.made ds' s).definitions := by
  rw [op.definitions_made]
  cases op.request? with
  | none => exact h
  | some r => exact (lookUp_eq_freshAnswer hnamed hP h r).1

/-! ### Looking up and keeping -/

/-- Impartial definitions keep only what all settings compute. -/
theorem computes_of_isImpartial (hnamed : ds.IsNamed) (h : ds.IsImpartial) (t : Settings) :
    t.Computes ds fun d v ↦ d.cached = true ∧ v ≠ .null ∧
      ∃ s : Settings, s.stored.get? d.name = none ∧ ∃ k, s.freshDefault ds k d = .ok v where
  sound := by
    rintro name d v hd ht ⟨hcached, hv, s, hs, k, hk⟩
    rw [hnamed name d hd] at hs
    refine ⟨fuel ds, ?_⟩
    rw [← lookUp_ofName hnamed ht hd]
    refine h name d hd hcached s t hs ht v hv ?_
    rw [lookUp_ofName hnamed hs hd, freshDefault_fuel hd (by rw [hk]; rfl), hk]
  complete := by
    intro name d v k hd ht hcached hv hk
    exact ⟨hcached, hv, t, (hnamed name d hd).symm ▸ ht, k, hk⟩

/-- A default that was found is there from then on, if it is one to be kept. -/
theorem exists_get?_lookUp (hnamed : ds.IsNamed) (hs : s.stored.get? name = none)
    (hd : ds.get? name = some d) (hcached : d.cached = true)
    (hv : (s.lookUp ds (.ofName name)).2 = .ok v) :
    ∃ e, (s.lookUp ds (.ofName name)).1.get? name = some e ∧ e.default = v := by
  rw [lookUp, Request.ofName, answer_of_defined hs hd] at hv ⊢
  cases hpending : d.pending? with
  | none =>
    rw [defaultOf_of_pending?_eq_none hpending] at hv ⊢
    exact ⟨d, hd, Except.ok.inj hv⟩
  | some f =>
    rw [fuel, defaultOf_succ hpending] at hv ⊢
    rw [keep_snd] at hv
    generalize run s.stored _ f.steps ds = found at hv ⊢
    obtain ⟨ds', outcome⟩ := found
    obtain rfl : outcome = .ok v := hv
    refine ⟨{ d with default := v }, ?_, rfl⟩
    show (if d.cached then ds'.remember d v else ds').get? name = _
    rw [if_pos hcached, Definitions.remember, Definitions.get?, ← hnamed name d hd]
    exact OrderedMap.get?_insert_self _ _ _

/-- A default that is there is what settings without a value find. -/
theorem lookUp_of_default (ht : t.stored.get? name = none) {e : Definition}
    (he : ds.get? name = some e) (hnull : e.default ≠ .null) :
    (t.lookUp ds (.ofName name)).2 = .ok e.default := by
  rw [lookUp, Request.ofName, answer_of_defined ht he,
    defaultOf_of_pending?_eq_none (Definition.pending?_of_ne_null hnull)]

/-! ### What an object sees of the others -/

namespace World

/-- The answers that the object with number `i` gives while the objects are used, one after the
other. -/
def answers (i : Nat) : World → List (Nat × Operation) → List (Except Error Answer)
  | _, [] => []
  | w, (j, op) :: rest =>
    if j = i then (w.use j op).2 :: answers i (w.use j op).1 rest
    else answers i (w.use j op).1 rest

variable {w w' : World} {i j : Nat} {objects : List Settings}

theorem getElem?_objects_use_of_ne (h : j ≠ i) (op : Operation) :
    (w.use j op).1.objects[i]? = w.objects[i]? := by
  rw [use]
  cases w.objects[j]? with
  | none => rfl
  | some s => exact List.getElem?_set_ne h

/-- Two worlds in which object `i` is the same and the definitions were the same, before they kept
what every object computes. -/
structure Alike (ds : Definitions) (P : Definition → Value → Prop) (i : Nat) (w w' : World) :
    Prop where
  object : w.objects[i]? = w'.objects[i]?
  left : ds.Keeps P w.definitions
  right : ds.Keeps P w'.definitions

theorem Alike.use_other (hnamed : ds.IsNamed) (hP : ∀ s : Settings, s.Computes ds P)
    (h : Alike ds P i w w') (hji : j ≠ i) (op : Operation) : Alike ds P i (w.use j op).1 w' where
  object := (getElem?_objects_use_of_ne hji op).trans h.object
  left := by
    rw [use]
    cases w.objects[j]? with
    | none => exact h.left
    | some s => exact op.keeps_made_of_computes hnamed (hP s) h.left
  right := h.right

theorem Alike.use_self (hnamed : ds.IsNamed) (hP : ∀ s : Settings, s.Computes ds P)
    (h : Alike ds P i w w') (op : Operation) :
    Alike ds P i (w.use i op).1 (w'.use i op).1 ∧ (w.use i op).2 = (w'.use i op).2 := by
  have hobject := h.object
  rw [use, use, ← hobject]
  cases hs : w.objects[i]? with
  | none => exact ⟨h, rfl⟩
  | some s =>
    have hleft := op.made_congr hnamed (hP s) h.left
    have hright := op.made_congr hnamed (hP s) h.right
    refine ⟨⟨?_, op.keeps_made_of_computes hnamed (hP s) h.left,
      op.keeps_made_of_computes hnamed (hP s) h.right⟩, hleft.2.trans hright.2.symm⟩
    have hbound := (List.getElem?_eq_some_iff.mp hs).1
    have hbound' := (List.getElem?_eq_some_iff.mp (hobject.symm.trans hs)).1
    rw [List.getElem?_set_self hbound, List.getElem?_set_self hbound', hleft.1, hright.1]

/-- Alike worlds give the same answers, whatever is done with other objects in one of them. -/
theorem Alike.answers_eq (hnamed : ds.IsNamed) (hP : ∀ s : Settings, s.Computes ds P)
    (h : Alike ds P i w w') (uses : List (Nat × Operation)) :
    answers i w uses = answers i w' (uses.filter fun u ↦ u.1 = i) := by
  induction uses generalizing w w' with
  | nil => rfl
  | cons u rest ih =>
    obtain ⟨j, op⟩ := u
    by_cases hji : j = i
    · subst hji
      obtain ⟨hnext, hanswer⟩ := h.use_self hnamed hP op
      rw [List.filter_cons_of_pos (by simp), answers, answers, if_pos rfl, if_pos rfl, hanswer,
        ih hnext]
    · rw [List.filter_cons_of_neg (by simpa using hji), answers, if_neg hji]
      exact ih (h.use_other hnamed hP hji op)

/-- The object with number 1 finds out what object 0 kept, if it looks it up afterwards. -/
theorem answers_after_other (ds : Definitions) (s t : Settings) (r : Request) :
    answers 1 ⟨ds, [s, t]⟩ [(0, .look r), (1, .look r)] =
      [(t.lookUp (s.lookUp ds r).1 r).2.map .value] := rfl

/-- Settings objects do not influence each other if and only if the definitions are impartial:
whatever objects there are and whatever is done with them in which order, the answers of each object
are those that it gives when nothing is done with the others. -/
theorem answers_filter_iff (definitions : List Definition) :
    (∀ (objects : List Settings) (uses : List (Nat × Operation)) (i : Nat),
      answers i ⟨.ofList definitions, objects⟩ uses =
        answers i ⟨.ofList definitions, objects⟩ (uses.filter fun u ↦ u.1 = i)) ↔
      (Definitions.ofList definitions).IsImpartial := by
  have hnamed := Definitions.isNamed_ofList definitions
  constructor
  · intro hall name d hd hcached s t hs ht v hv hfound
    -- the first object keeps its default, and the second one finds it
    obtain ⟨e, he, rfl⟩ := exists_get?_lookUp hnamed hs hd hcached hfound
    have hanswers := hall [s, t] [(0, .look (.ofName name)), (1, .look (.ofName name))] 1
    have halone : answers 1 ⟨.ofList definitions, [s, t]⟩ [(1, .look (.ofName name))] =
        [(t.lookUp (.ofList definitions) (.ofName name)).2.map .value] := rfl
    rw [answers_after_other, lookUp_of_default ht he hv] at hanswers
    have hsame := List.head_eq_of_cons_eq (hanswers.trans halone)
    cases hlook : (t.lookUp (.ofList definitions) (.ofName name)).2 with
    | error error => exact absurd (hlook ▸ hsame) nofun
    | ok w =>
      rw [hlook] at hsame
      rw [Answer.value.inj (Except.ok.inj hsame)]
  · intro himpartial objects uses i
    exact Alike.answers_eq hnamed (computes_of_isImpartial hnamed himpartial)
      ⟨rfl, .refl _ _, .refl _ _⟩ uses

/-- A default that reads its settings object and is kept comes out for one object what it was for
the other. -/
theorem answers_ne_of_kept_reading :
    let signature : Definition := {
      name := "signature", kind := "str", default := .null, factory := some (.setting "name"),
      cached := true, doc := none, validator := none }
    let objects : List Settings := [⟨⟨[("name", .text "Ann")]⟩⟩, ⟨⟨[("name", .text "Bob")]⟩⟩]
    let uses : List (Nat × Operation) :=
      [(0, .look (.ofName "signature")), (1, .look (.ofName "signature"))]
    answers 1 ⟨.ofList [signature], objects⟩ uses ≠
      answers 1 ⟨.ofList [signature], objects⟩ (uses.filter fun u ↦ u.1 = 1) := by
  intro signature objects uses heq
  have hshared : answers 1 ⟨.ofList [signature], objects⟩ uses = [.ok (.value (.text "Ann"))] := rfl
  have halone : answers 1 ⟨.ofList [signature], objects⟩ (uses.filter fun u ↦ u.1 = 1) =
      [.ok (.value (.text "Bob"))] := rfl
  have htexts := List.head_eq_of_cons_eq (hshared.symm.trans (heq.trans halone))
  have hnames := Value.text.inj (Answer.value.inj (Except.ok.inj htexts))
  exact absurd hnames (by decide)

end World

end Settings

namespace Definitions

/-! ### Impartial definitions -/

/-- Definitions are impartial if no factory whose answer is kept looks at the settings. -/
theorem isImpartial_of_done {ds : Definitions} (hnamed : ds.IsNamed)
    (h : ∀ name d f, ds.get? name = some d → d.cached = true → d.pending? = some f →
      ∃ outcome, f.steps = .done outcome) : ds.IsImpartial := by
  intro name d hd hcached s t hs ht v _ hv
  rw [Settings.lookUp_ofName hnamed hs hd] at hv
  rw [Settings.lookUp_ofName hnamed ht hd, ← hv]
  cases hpending : d.pending? with
  | none =>
    rw [Settings.freshDefault_of_pending?_eq_none hpending,
      Settings.freshDefault_of_pending?_eq_none hpending]
  | some f =>
    obtain ⟨outcome, hsteps⟩ := h name d f hd hcached hpending
    rw [Settings.fuel, Settings.freshDefault_succ hpending, Settings.freshDefault_succ hpending,
      hsteps]
    rfl

/-- The settings of the document writers keep one default only, which is the same for all. -/
theorem isImpartial_standard : standard.IsImpartial := by
  refine isImpartial_of_done (isNamed_ofList _) fun name d f hd hcached hpending ↦ ?_
  have hmem := (mem_of_get?_ofList hd).1
  simp only [List.mem_cons, List.not_mem_nil, or_false] at hmem
  rcases hmem with rfl | rfl | rfl | rfl
  · exact absurd hcached nofun
  · obtain rfl := Option.some.inj hpending
    exact ⟨_, rfl⟩
  · exact absurd hcached nofun
  · exact absurd hcached nofun

end Definitions

end ContactCard
