import ContactCard.Proofs.Settings.Keeping
import Mathlib.Data.Finset.Card
import Mathlib.Order.Monotone.Basic

/-!
# Keeping defaults goes unnoticed

A default may be computed each time it is asked for (`Settings.freshDefault`), or be kept once it was
computed. For settings that compute the defaults that are kept it makes no difference
(`Settings.lookUp_eq_freshAnswer`): whatever was looked up before, a look-up gives the value that is
computed afresh, is refused for the same reason, and goes round in a circle only if that cannot be
helped.

The fuel of look-ups is enough (`Settings.freshDefault_fuel`). A chain of defaults that comes to an
end does so within as many steps as there are definitions: as soon as one more step settles no
further default, no number of steps does.
-/

namespace ContactCard.Settings

/-! ### Computing defaults afresh -/

/-- What a computation comes to, given the answers to requests. -/
def outcome (stored : OrderedMap String Value) (ask : Request → Except Error Value) :
    Computation → Except Error Value
  | .done outcome => outcome
  | .inspect next => outcome stored ask (next stored)
  | .look r next => if isCircular (ask r) then ask r else outcome stored ask (next (ask r))

/-- The answer to a request, given the defaults of definitions. -/
def freshAnswer (s : Settings) (ds : Definitions) (default : Definition → Except Error Value)
    (r : Request) : Except Error Value :=
  (s.answer (fun ds d ↦ (ds, default d)) ds r).2

/-- The default that a definition has or that its factory computes, when nothing is kept. -/
def freshDefault (s : Settings) (ds : Definitions) : Nat → Definition → Except Error Value
  | 0, d => d.pending?.elim (.ok d.default) fun _ ↦ .error Fault.circularDefault
  | fuel + 1, d =>
    d.pending?.elim (.ok d.default) fun f ↦
      outcome s.stored (s.freshAnswer ds (s.freshDefault ds fuel)) f.steps

variable {s : Settings} {ds : Definitions} {d : Definition} {f : Factory}

theorem isCircular_iff {o : Except Error Value} :
    isCircular o = true ↔ o = .error (.fault .circularDefault) := by
  constructor
  · intro h
    match o, h with
    | .error (.fault .circularDefault), _ => rfl
  · rintro rfl
    rfl

theorem freshDefault_of_pending?_eq_none (h : d.pending? = none) (fuel : Nat) :
    s.freshDefault ds fuel d = .ok d.default := by
  cases fuel <;> rw [freshDefault, h] <;> rfl

theorem freshDefault_succ (h : d.pending? = some f) (fuel : Nat) :
    s.freshDefault ds (fuel + 1) d =
      outcome s.stored (s.freshAnswer ds (s.freshDefault ds fuel)) f.steps := by
  rw [freshDefault, h]
  rfl

theorem isCircular_freshDefault_zero (h : d.pending? = some f) :
    isCircular (s.freshDefault ds 0 d) = true := by
  rw [freshDefault, h]
  rfl

/-! ### More fuel changes no answer -/

theorem outcome_congr {stored : OrderedMap String Value} {ask ask' : Request → Except Error Value}
    (h : ∀ r, isCircular (ask r) = false → ask' r = ask r) {c : Computation}
    (hc : isCircular (outcome stored ask c) = false) :
    outcome stored ask' c = outcome stored ask c := by
  induction c with
  | done outcome => rfl
  | inspect next ih => exact ih stored hc
  | look r next ih =>
    rw [outcome] at hc
    split at hc
    · next hr => exact absurd (hr.symm.trans hc) (by decide)
    · next hr =>
      have hsame := h r (Bool.eq_false_iff.mpr hr)
      rw [outcome, outcome, hsame, if_neg hr, if_neg hr]
      exact ih (ask r) hc

theorem freshAnswer_congr {default default' : Definition → Except Error Value}
    (h : ∀ name d, ds.get? name = some d → isCircular (default d) = false →
      default' d = default d) {r : Request} (hr : isCircular (s.freshAnswer ds default r) = false) :
    s.freshAnswer ds default' r = s.freshAnswer ds default r := by
  rcases s.answer_cases r with ⟨o, ho⟩ | ⟨name, -, hname⟩
  · rw [freshAnswer, freshAnswer, ho, ho]
  · rw [freshAnswer, hname] at hr ⊢
    rw [freshAnswer, hname]
    cases hd : ds.get? name with
    | none => rfl
    | some d =>
      rw [hd] at hr
      exact h name d hd hr

theorem freshDefault_succ_eq (fuel : Nat) (h : isCircular (s.freshDefault ds fuel d) = false) :
    s.freshDefault ds (fuel + 1) d = s.freshDefault ds fuel d := by
  cases hpending : d.pending? with
  | none =>
    rw [freshDefault_of_pending?_eq_none hpending, freshDefault_of_pending?_eq_none hpending]
  | some f =>
    induction fuel generalizing d f with
    | zero => exact absurd ((isCircular_freshDefault_zero hpending).symm.trans h) nofun
    | succ fuel ih =>
      rw [freshDefault_succ hpending] at h ⊢
      rw [freshDefault_succ hpending]
      refine outcome_congr (fun r hr ↦ freshAnswer_congr (fun _ d _ hd ↦ ?_) hr) h
      cases hpending' : d.pending? with
      | none =>
        rw [freshDefault_of_pending?_eq_none hpending',
          freshDefault_of_pending?_eq_none hpending']
      | some f' => exact ih hd f' hpending'

/-- A default that is found with some fuel is found with more. -/
theorem freshDefault_mono {k l : Nat} (hkl : k ≤ l)
    (h : isCircular (s.freshDefault ds k d) = false) :
    s.freshDefault ds l d = s.freshDefault ds k d := by
  induction l, hkl using Nat.le_induction with
  | base => rfl
  | succ l _ ih => rw [freshDefault_succ_eq l (ih ▸ h), ih]

/-! ### The fuel is enough -/

/-- The names of the definitions whose defaults are found with that much fuel. -/
def settled (s : Settings) (ds : Definitions) (fuel : Nat) : Finset String :=
  ds.table.keys.toFinset.filter fun name ↦
    (ds.get? name).any fun d ↦ !isCircular (s.freshDefault ds fuel d)

theorem mem_settled {name : String} (hd : ds.get? name = some d) {fuel : Nat} :
    name ∈ s.settled ds fuel ↔ isCircular (s.freshDefault ds fuel d) = false := by
  rw [settled, Finset.mem_filter, List.mem_toFinset, Definitions.mem_keys_iff, hd]
  simp

theorem settled_subset (s : Settings) (ds : Definitions) {k l : Nat} (hkl : k ≤ l) :
    s.settled ds k ⊆ s.settled ds l := by
  intro name hname
  obtain ⟨d, hd⟩ := Option.isSome_iff_exists.mp
    (Definitions.mem_keys_iff.mp (List.mem_toFinset.mp (Finset.mem_filter.mp hname).1))
  rw [mem_settled hd] at hname ⊢
  rwa [freshDefault_mono hkl hname]

theorem card_settled_le (fuel : Nat) : (s.settled ds fuel).card ≤ ds.table.size :=
  calc (s.settled ds fuel).card
      ≤ ds.table.keys.toFinset.card := Finset.card_filter_le _ _
    _ ≤ ds.table.keys.length := List.toFinset_card_le _
    _ = ds.table.size := List.length_map _

/-- Where one more step settles nothing, it changes no default at all. -/
theorem freshDefault_eq_of_card_eq {k : Nat}
    (h : (s.settled ds k).card = (s.settled ds (k + 1)).card) {name : String}
    (hd : ds.get? name = some d) : s.freshDefault ds (k + 1) d = s.freshDefault ds k d := by
  have hsame := Finset.eq_of_subset_of_card_le (s.settled_subset ds k.le_succ) h.ge
  cases hcircular : isCircular (s.freshDefault ds (k + 1) d) with
  | false =>
    rw [← mem_settled hd, ← hsame, mem_settled hd] at hcircular
    exact freshDefault_succ_eq k hcircular
  | true =>
    have hbefore : isCircular (s.freshDefault ds k d) = true := by
      by_contra hne
      have hk := freshDefault_succ_eq k (Bool.eq_false_iff.mpr hne)
      exact hne (hk ▸ hcircular)
    rw [isCircular_iff.mp hcircular, isCircular_iff.mp hbefore]

theorem card_settled_stable {k : Nat} (h : (s.settled ds k).card = (s.settled ds (k + 1)).card) :
    (s.settled ds (k + 1)).card = (s.settled ds (k + 2)).card := by
  suffices hsame : ∀ d, s.freshDefault ds (k + 2) d = s.freshDefault ds (k + 1) d by
    simp only [settled, hsame]
  intro d
  have hanswer : s.freshAnswer ds (s.freshDefault ds (k + 1)) =
      s.freshAnswer ds (s.freshDefault ds k) := by
    funext r
    rcases s.answer_cases r with ⟨o, ho⟩ | ⟨name, -, hname⟩
    · rw [freshAnswer, freshAnswer, ho, ho]
    · rw [freshAnswer, freshAnswer, hname, hname]
      cases hd : ds.get? name with
      | none => rfl
      | some d => exact freshDefault_eq_of_card_eq h hd
  rw [freshDefault, freshDefault, hanswer]

/-- A default that is found with any fuel is found with the fuel of look-ups. -/
theorem freshDefault_fuel {name : String} (hd : ds.get? name = some d) {k : Nat}
    (h : isCircular (s.freshDefault ds k d) = false) :
    s.freshDefault ds (fuel ds) d = s.freshDefault ds k d := by
  have hsize : ds.table.size ≤ max k (fuel ds) := le_max_of_le_right (Nat.le_succ _)
  have hstable : (s.settled ds (max k (fuel ds))).card = (s.settled ds ds.table.size).card :=
    Nat.stabilises_of_monotone (fun _ _ hkl ↦ Finset.card_le_card (s.settled_subset ds hkl))
      card_settled_le (fun _ ↦ card_settled_stable) hsize
  have hsame := Finset.eq_of_subset_of_card_le (s.settled_subset ds hsize) hstable.le
  -- the default is found with enough fuel for both, and so with the number of definitions
  have hmax := freshDefault_mono (le_max_left k (fuel ds)) h
  have hfound : isCircular (s.freshDefault ds ds.table.size d) = false := by
    rw [← mem_settled hd, hsame, mem_settled hd, hmax]
    exact h
  rw [← hmax, freshDefault_mono hsize hfound]
  exact freshDefault_mono (Nat.le_succ _) hfound

/-- All amounts of fuel that find a default find the same. -/
theorem freshDefault_unique {k l : Nat} (hk : isCircular (s.freshDefault ds k d) = false)
    (hl : isCircular (s.freshDefault ds l d) = false) :
    s.freshDefault ds k d = s.freshDefault ds l d :=
  (freshDefault_mono (le_max_left k l) hk).symm.trans (freshDefault_mono (le_max_right k l) hl)

/-! ### Keeping makes no difference -/

/-- The defaults that `P` allows to be kept are those that the settings compute, of the definitions
that they have no value for. -/
structure Computes (s : Settings) (ds : Definitions) (P : Definition → Value → Prop) : Prop where
  sound : ∀ name d v, ds.get? name = some d → s.stored.get? name = none → P d v →
    ∃ k, s.freshDefault ds k d = .ok v
  complete : ∀ name d v k, ds.get? name = some d → s.stored.get? name = none →
    d.cached = true → v ≠ .null → s.freshDefault ds k d = .ok v → P d v

variable {P : Definition → Value → Prop} {ds' : Definitions} {e : Definition} {name : String}

/-- If no default is kept but those that `P` allows, an answer keeps no others. -/
theorem answer_keeps {default : Definitions → Definition → Finding}
    (hdefault : ∀ name d e, ds.get? name = some d → d.Keeps (P d) e → s.stored.get? name = none →
      ds.Keeps P (default ds' e).1)
    (h : ds.Keeps P ds') (r : Request) : ds.Keeps P (s.answer default ds' r).1 := by
  refine answer_preserves (fun name e hstored he ↦ ?_) h
  obtain ⟨d, hd, hde⟩ := h.exists_get? he
  exact hdefault name d e hd hde hstored

/-- If all defaults are fresh ones, so are the answers. -/
theorem answer_fresh {default : Definitions → Definition → Finding}
    (hdefault : ∀ name d e, ds.get? name = some d → d.Keeps (P d) e → s.stored.get? name = none →
      isCircular (default ds' e).2 = false →
      ∃ k, s.freshDefault ds k d = (default ds' e).2)
    (h : ds.Keeps P ds') {r : Request} (hr : isCircular (s.answer default ds' r).2 = false) :
    ∃ k, s.freshAnswer ds (s.freshDefault ds k) r = (s.answer default ds' r).2 := by
  rcases s.answer_cases r with ⟨o, ho⟩ | ⟨name, hstored, hname⟩
  · exact ⟨0, by rw [freshAnswer, ho, ho]⟩
  · simp only [freshAnswer, hname] at hr ⊢
    cases hd : ds.get? name with
    | none => exact ⟨0, by rw [h.get?_eq_none hd]; rfl⟩
    | some d =>
      obtain ⟨e, he, hde⟩ := h.definition name d hd
      rw [he] at hr ⊢
      exact hdefault name d e hd hde hstored hr

/-- If all answers are fresh ones, so is what a computation comes to. -/
theorem run_fresh {answer : Definitions → Request → Finding}
    (hkeeps : ∀ ds' r, ds.Keeps P ds' → ds.Keeps P (answer ds' r).1)
    (hfresh : ∀ ds' r, ds.Keeps P ds' → isCircular (answer ds' r).2 = false →
      ∃ k, s.freshAnswer ds (s.freshDefault ds k) r = (answer ds' r).2)
    (c : Computation) (h : ds.Keeps P ds') (hc : isCircular (run s.stored answer c ds').2 = false) :
    ∃ k, outcome s.stored (s.freshAnswer ds (s.freshDefault ds k)) c =
      (run s.stored answer c ds').2 := by
  induction c generalizing ds' with
  | done outcome => exact ⟨0, rfl⟩
  | inspect next ih => exact ih s.stored h hc
  | look r next ih =>
    have hr := hfresh ds' r h
    have hnext := hkeeps ds' r h
    rw [run] at hc ⊢
    generalize answer ds' r = finding at hc hr hnext ⊢
    obtain ⟨ds'', o⟩ := finding
    dsimp only at hc hr hnext ⊢
    split at hc
    · next ho => exact absurd (ho.symm.trans hc) (by decide)
    · next ho =>
      have hfalse := Bool.eq_false_iff.mpr ho
      obtain ⟨k, hk⟩ := hr hfalse
      obtain ⟨l, hl⟩ := ih o hnext hc
      -- one amount of fuel for the answer and for what comes after it
      have hmono : ∀ {m : Nat}, m ≤ max k l → ∀ r,
          isCircular (s.freshAnswer ds (s.freshDefault ds m) r) = false →
          s.freshAnswer ds (s.freshDefault ds (max k l)) r =
            s.freshAnswer ds (s.freshDefault ds m) r :=
        fun hm r hr ↦ freshAnswer_congr (fun _ _ _ hd ↦ freshDefault_mono hm hd) hr
      have hanswer : s.freshAnswer ds (s.freshDefault ds (max k l)) r = o :=
        (hmono (le_max_left k l) r (hk ▸ hfalse)).trans hk
      refine ⟨max k l, ?_⟩
      rw [outcome, hanswer, if_neg ho, if_neg ho, ← hl]
      exact outcome_congr (hmono (le_max_right k l)) (hl ▸ hc)

/-- A default that is found where others were kept is the one that is computed afresh. -/
theorem defaultOf_fresh (hnamed : ds.IsNamed) (hP : s.Computes ds P) (fuel : Nat)
    (h : ds.Keeps P ds') (hd : ds.get? name = some d) (he : d.Keeps (P d) e)
    (hstored : s.stored.get? name = none) :
    ds.Keeps P (s.defaultOf fuel ds' e).1 ∧
      (isCircular (s.defaultOf fuel ds' e).2 = false →
        ∃ k, s.freshDefault ds k d = (s.defaultOf fuel ds' e).2) := by
  induction fuel generalizing ds' name d e with
  | zero =>
    refine ⟨h, fun _ ↦ ?_⟩
    cases he with
    | same => exact ⟨0, rfl⟩
    | kept _ _ hv hvP =>
      rw [defaultOf_of_pending?_eq_none (Definition.pending?_of_ne_null hv)]
      exact hP.sound name d _ hd hstored hvP
  | succ fuel ih =>
    cases hpending : e.pending? with
    | none =>
      rw [defaultOf_of_pending?_eq_none hpending]
      refine ⟨h, fun _ ↦ ?_⟩
      cases he with
      | same => exact ⟨0, freshDefault_of_pending?_eq_none hpending 0⟩
      | kept _ _ hv hvP => exact hP.sound name d _ hd hstored hvP
    | some f =>
      obtain rfl := he.eq_of_pending? hpending
      have hkeeps : ∀ ds' r, ds.Keeps P ds' → ds.Keeps P (s.answer (s.defaultOf fuel) ds' r).1 :=
        fun ds' r h ↦ answer_keeps (fun _ _ _ hd hde hstored ↦ (ih h hd hde hstored).1) h r
      have hanswer : ∀ ds' r, ds.Keeps P ds' →
          isCircular (s.answer (s.defaultOf fuel) ds' r).2 = false →
          ∃ k, s.freshAnswer ds (s.freshDefault ds k) r = (s.answer (s.defaultOf fuel) ds' r).2 :=
        fun ds' r h ↦ answer_fresh (fun _ _ _ hd hde hstored ↦ (ih h hd hde hstored).2) h
      have hrun : ds.Keeps P (run s.stored (s.answer (s.defaultOf fuel)) f.steps ds').1 :=
        run_preserves (I := ds.Keeps P) hkeeps f.steps h
      rw [defaultOf_succ hpending, keep_snd]
      have hdefault : isCircular (run s.stored (s.answer (s.defaultOf fuel)) f.steps ds').2 = false →
          ∃ k, s.freshDefault ds k e =
            (run s.stored (s.answer (s.defaultOf fuel)) f.steps ds').2 := by
        intro hcircular
        obtain ⟨k, hk⟩ := run_fresh hkeeps hanswer f.steps h hcircular
        exact ⟨k + 1, (freshDefault_succ hpending k).trans hk⟩
      refine ⟨keeps_keep hrun ((hnamed name e hd).symm ▸ hd) hpending ?_, hdefault⟩
      intro v hv hcached hnull
      obtain ⟨k, hk⟩ := hdefault (by rw [hv]; rfl)
      exact hP.complete name e v k hd hstored hcached hnull (hk.trans hv)

theorem keeps_answer (hnamed : ds.IsNamed) (hP : s.Computes ds P) (fuel : Nat)
    (ds' : Definitions) (r : Request) (h : ds.Keeps P ds') :
    ds.Keeps P (s.answer (s.defaultOf fuel) ds' r).1 :=
  answer_keeps (fun _ _ _ hd hde hstored ↦ (defaultOf_fresh hnamed hP fuel h hd hde hstored).1) h r

/-! ### No circle is found that could be helped -/

/-- If all defaults that can be computed afresh are found, so are the answers. -/
theorem answer_eq_freshAnswer {default : Definitions → Definition → Finding}
    {default' : Definition → Except Error Value}
    (hdefault : ∀ name d e, ds.get? name = some d → d.Keeps (P d) e → s.stored.get? name = none →
      isCircular (default' d) = false → (default ds' e).2 = default' d)
    (h : ds.Keeps P ds') {r : Request} (hr : isCircular (s.freshAnswer ds default' r) = false) :
    (s.answer default ds' r).2 = s.freshAnswer ds default' r := by
  rcases s.answer_cases r with ⟨o, ho⟩ | ⟨name, hstored, hname⟩
  · rw [freshAnswer, ho, ho]
  · simp only [freshAnswer, hname] at hr ⊢
    cases hd : ds.get? name with
    | none => rw [h.get?_eq_none hd]; rfl
    | some d =>
      obtain ⟨e, he, hde⟩ := h.definition name d hd
      rw [hd] at hr
      rw [he]
      exact hdefault name d e hd hde hstored hr

theorem run_eq_outcome {stored : OrderedMap String Value}
    {answer : Definitions → Request → Finding} {ask : Request → Except Error Value}
    (hkeeps : ∀ ds' r, ds.Keeps P ds' → ds.Keeps P (answer ds' r).1)
    (hsame : ∀ ds' r, ds.Keeps P ds' → isCircular (ask r) = false → (answer ds' r).2 = ask r)
    (c : Computation) (h : ds.Keeps P ds') (hc : isCircular (outcome stored ask c) = false) :
    (run stored answer c ds').2 = outcome stored ask c := by
  induction c generalizing ds' with
  | done outcome => rfl
  | inspect next ih => exact ih stored h hc
  | look r next ih =>
    rw [outcome] at hc ⊢
    split at hc
    · next hr => exact absurd (hr.symm.trans hc) (by decide)
    · next hr =>
      have hanswer := hsame ds' r h (Bool.eq_false_iff.mpr hr)
      have hnext := hkeeps ds' r h
      rw [run]
      generalize answer ds' r = finding at hanswer hnext ⊢
      obtain ⟨ds'', o⟩ := finding
      obtain rfl : o = ask r := hanswer
      rw [if_neg hr]
      dsimp only
      rw [if_neg hr]
      exact ih (ask r) hnext hc

/-- With the same fuel, a default is found where others were kept if it can be computed afresh. -/
theorem defaultOf_eq_freshDefault (hnamed : ds.IsNamed) (hP : s.Computes ds P) (fuel : Nat)
    (h : ds.Keeps P ds') (hd : ds.get? name = some d) (he : d.Keeps (P d) e)
    (hstored : s.stored.get? name = none)
    (hcircular : isCircular (s.freshDefault ds fuel d) = false) :
    (s.defaultOf fuel ds' e).2 = s.freshDefault ds fuel d := by
  induction fuel generalizing ds' name d e with
  | zero =>
    cases hpending : d.pending? with
    | none =>
      obtain rfl := he.eq_of_pending?_eq_none hpending
      rfl
    | some f => exact absurd ((isCircular_freshDefault_zero hpending).symm.trans hcircular) nofun
  | succ fuel ih =>
    cases he with
    | kept _ _ hv hvP =>
      obtain ⟨k, hk⟩ := hP.sound name d _ hd hstored hvP
      rw [defaultOf_of_pending?_eq_none (Definition.pending?_of_ne_null hv)]
      exact hk.symm.trans (freshDefault_unique (by rw [hk]; rfl) hcircular)
    | same =>
      cases hpending : d.pending? with
      | none =>
        rw [defaultOf_of_pending?_eq_none hpending, freshDefault_of_pending?_eq_none hpending]
      | some f =>
        rw [freshDefault_succ hpending] at hcircular ⊢
        rw [defaultOf_succ hpending, keep_snd]
        refine run_eq_outcome (keeps_answer hnamed hP fuel) (fun ds' r h hr ↦ ?_) f.steps h hcircular
        exact answer_eq_freshAnswer (fun _ _ _ hd hde hstored ↦ ih h hd hde hstored) h hr

/-! ### Looking up -/

/-- Settings look up what they would compute afresh, whatever defaults of their own were kept before,
and all that they add to these is of the same kind. -/
theorem lookUp_eq_freshAnswer (hnamed : ds.IsNamed) (hP : s.Computes ds P) (h : ds.Keeps P ds')
    (r : Request) :
    ds.Keeps P (s.lookUp ds' r).1 ∧
      (s.lookUp ds' r).2 = s.freshAnswer ds (s.freshDefault ds (fuel ds)) r := by
  have hfuel : fuel ds' = fuel ds := by
    have hkeys := congrArg List.length h.keys
    simpa only [fuel, OrderedMap.size, OrderedMap.keys, List.length_map, Nat.add_right_cancel_iff]
      using hkeys
  rw [lookUp, hfuel]
  refine ⟨keeps_answer hnamed hP (fuel ds) ds' r h, ?_⟩
  cases hr : isCircular (s.freshAnswer ds (s.freshDefault ds (fuel ds)) r) with
  | false =>
    exact answer_eq_freshAnswer (fun _ _ _ hd hde hstored ↦
      defaultOf_eq_freshDefault hnamed hP (fuel ds) h hd hde hstored) h hr
  | true =>
    -- an answer that was found could be computed afresh, with some fuel and so with this
    rw [isCircular_iff.mp hr, ← isCircular_iff]
    by_contra hne
    have hfound := Bool.eq_false_iff.mpr hne
    obtain ⟨k, hk⟩ := answer_fresh (fun _ _ _ hd hde hstored ↦
      (defaultOf_fresh hnamed hP (fuel ds) h hd hde hstored).2) h hfound
    have hfresh : s.freshAnswer ds (s.freshDefault ds (fuel ds)) r =
        s.freshAnswer ds (s.freshDefault ds k) r :=
      freshAnswer_congr (fun _ _ hd ↦ freshDefault_fuel hd) (hk ▸ hfound)
    exact hne (by rw [← hk, ← hfresh, hr])

/-- A look-up gives what the settings would compute afresh. -/
theorem lookUp_snd (hnamed : ds.IsNamed) (s : Settings) (r : Request) :
    (s.lookUp ds r).2 = s.freshAnswer ds (s.freshDefault ds (fuel ds)) r :=
  have hself : s.Computes ds fun d v ↦ ∃ k, s.freshDefault ds k d = .ok v :=
    ⟨fun _ _ _ _ _ hv ↦ hv, fun _ _ _ k _ _ _ _ hk ↦ ⟨k, hk⟩⟩
  (lookUp_eq_freshAnswer hnamed hself (.refl _ ds) r).2

theorem lookUp_ofName (hnamed : ds.IsNamed) (hs : s.stored.get? name = none)
    (hd : ds.get? name = some d) :
    (s.lookUp ds (.ofName name)).2 = s.freshDefault ds (fuel ds) d := by
  rw [lookUp_snd hnamed, freshAnswer, Request.ofName, answer_of_defined hs hd]

end ContactCard.Settings
