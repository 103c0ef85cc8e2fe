import ContactCard.Proofs.Settings.Mapping

/-!
# What look-ups consult

A look-up that is left to a factory may go on to further look-ups. It consults the value of a name if
it is for this name, or if its factory lists what is set or makes a request that consults the name
(`Settings.Consults`). A look-up that does not consult a name comes to the same whatever is set under
it (`Settings.lookUp_of_not_consults`).
-/

namespace ContactCard

/-- Some steps of the first computation lead to the second, if requests are answered by `ask`. -/
inductive Computation.LeadsTo (ask : Request → Except Error Value) (c : Computation) :
    Computation → Prop where
  | refl : c.LeadsTo ask c
  | answered {r : Request} {next : Except Error Value → Computation}
    (h : c.LeadsTo ask (.look r next)) (hr : Settings.isCircular (ask r) = false) :
    c.LeadsTo ask (next (ask r))

namespace Settings

/-- The definition that a request is left to, if nothing is set and the request brings nothing
along. -/
def definitionFor? (s : Settings) (ds : Definitions) (r : Request) : Option Definition :=
  match s.stored? r.key, r.fallback with
  | .ok none, .null => r.key.text?.bind ds.get?
  | _, _ => none

/-- The answer to a request takes account of what is set under the name. -/
inductive Consults (s : Settings) (ds : Definitions) (name : String) : Request → Prop where
  /-- The request is for the name. -/
  | named {r : Request} (hkey : r.key = .text name) : Consults s ds name r
  /-- The factory that it is left to lists all that is set. -/
  | listed {r : Request} {d : Definition} {f : Factory}
    {next : OrderedMap String Value → Computation} (hd : s.definitionFor? ds r = some d)
    (hf : d.pending? = some f)
    (h : f.steps.LeadsTo (fun r ↦ (s.lookUp ds r).2) (.inspect next)) : Consults s ds name r
  /-- The factory that it is left to makes a request whose answer does. -/
  | through {r r' : Request} {d : Definition} {f : Factory}
    {next : Except Error Value → Computation} (hd : s.definitionFor? ds r = some d)
    (hf : d.pending? = some f)
    (h : f.steps.LeadsTo (fun r ↦ (s.lookUp ds r).2) (.look r' next))
    (hr' : Consults s ds name r') : Consults s ds name r

variable {s t : Settings} {ds : Definitions} {name : String} {d : Definition} {r : Request}

/-! ### Answers of settings that are alike -/

theorem stored?_congr (hst : ∀ other, other ≠ name → t.stored.get? other = s.stored.get? other)
    {key : Value} (hkey : key ≠ .text name) : t.stored? key = s.stored? key := by
  cases key with
  | text other => exact congrArg Except.ok (hst other fun h ↦ hkey (congrArg Value.text h))
  | _ => rfl

/-- An answer takes account of what is set under its key and of the default that it is left to, and
of nothing else. -/
theorem freshAnswer_eq_of_stored?_eq (hstored : t.stored? r.key = s.stored? r.key)
    {default default' : Definition → Except Error Value}
    (h : ∀ d, s.definitionFor? ds r = some d → default' d = default d) :
    t.freshAnswer ds default' r = s.freshAnswer ds default r := by
  rw [freshAnswer, freshAnswer, answer, answer, hstored]
  rw [definitionFor?] at h
  split
  · rfl
  · rfl
  · next hnone hfallback =>
    rw [hnone, hfallback] at h
    cases hd : r.key.text?.bind ds.get? with
    | none => rfl
    | some d => exact h d hd
  · rfl

/-- What is found with some fuel is what is looked up. -/
theorem lookUp_snd_of_isCircular_eq_false (hnamed : ds.IsNamed) {k : Nat}
    (h : isCircular (s.freshAnswer ds (s.freshDefault ds k) r) = false) :
    (s.lookUp ds r).2 = s.freshAnswer ds (s.freshDefault ds k) r := by
  rw [lookUp_snd hnamed]
  exact freshAnswer_congr (fun _ _ hd ↦ freshDefault_fuel hd) h

/-! ### Look-ups that do not consult a name -/

/-- The computation of a default comes to the same, from any point of it on, if the answers to the
requests that it makes are the same. -/
theorem outcome_of_not_consults (hnamed : ds.IsNamed) {k : Nat} {f : Factory}
    (hd : s.definitionFor? ds r = some d) (hf : d.pending? = some f) (hr : ¬s.Consults ds name r)
    (hanswers : ∀ r, ¬s.Consults ds name r →
      t.freshAnswer ds (t.freshDefault ds k) r = s.freshAnswer ds (s.freshDefault ds k) r)
    {c : Computation} (hc : f.steps.LeadsTo (fun r ↦ (s.lookUp ds r).2) c) :
    outcome t.stored (t.freshAnswer ds (t.freshDefault ds k)) c =
      outcome s.stored (s.freshAnswer ds (s.freshDefault ds k)) c := by
  induction c with
  | done outcome => rfl
  | inspect next ih => exact absurd (.listed hd hf hc) hr
  | look r' next ih =>
    have hsame := hanswers r' fun h ↦ hr (.through hd hf hc h)
    rw [outcome, outcome, hsame]
    cases hcircular : isCircular (s.freshAnswer ds (s.freshDefault ds k) r') with
    | true => rfl
    | false =>
      have hlook := lookUp_snd_of_isCircular_eq_false hnamed hcircular
      rw [if_neg Bool.false_ne_true, if_neg Bool.false_ne_true]
      refine ih _ ?_
      rw [← hlook] at hcircular ⊢
      exact hc.answered hcircular

/-- The default that a request is left to comes to the same if the request does not consult what is
different. -/
theorem freshDefault_of_not_consults (hnamed : ds.IsNamed)
    (hst : ∀ other, other ≠ name → t.stored.get? other = s.stored.get? other) (k : Nat)
    (hr : ¬s.Consults ds name r) (hd : s.definitionFor? ds r = some d) :
    t.freshDefault ds k d = s.freshDefault ds k d := by
  induction k generalizing r d with
  | zero => rfl
  | succ k ih =>
    cases hf : d.pending? with
    | none => rw [freshDefault_of_pending?_eq_none hf, freshDefault_of_pending?_eq_none hf]
    | some f =>
      rw [freshDefault_succ hf, freshDefault_succ hf]
      refine outcome_of_not_consults hnamed hd hf hr (fun r hr ↦ ?_) .refl
      exact freshAnswer_eq_of_stored?_eq (stored?_congr hst fun hkey ↦ hr (.named hkey))
        fun _ hd ↦ ih hr hd

/-- A look-up comes to the same whatever is set under a name that it does not consult. -/
theorem lookUp_of_not_consults (hnamed : ds.IsNamed)
    (hst : ∀ other, other ≠ name → t.stored.get? other = s.stored.get? other)
    (hr : ¬s.Consults ds name r) : (t.lookUp ds r).2 = (s.lookUp ds r).2 := by
  rw [lookUp_snd hnamed, lookUp_snd hnamed]
  exact freshAnswer_eq_of_stored?_eq (stored?_congr hst fun hkey ↦ hr (.named hkey))
    fun _ hd ↦ freshDefault_of_not_consults hnamed hst (fuel ds) hr hd

end Settings

end ContactCard
