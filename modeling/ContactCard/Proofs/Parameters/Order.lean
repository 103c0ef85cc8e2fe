import ContactCard.Proofs.Parameters.Accessors
import ContactCard.Proofs.Parameters.Runs
import Mathlib.Data.List.Dedup
import Mathlib.Data.List.Induction
import Mathlib.Tactic.MkIffOfInductiveProp

/-!
# The order of names

The names of parameters are to stand in the order in which they were first added
(`Parameters.IsInOrder`). Adding a value keeps to this: a name that is there stays where it is, and
a new one comes last. Replacing values does not: the name goes to the end, be it new or not, and is
lost if the new value has no text. So the names stand in the order in which they last came to the end,
and this is the order of their addition all along just when no name is replaced that is there and is
not the last one, and none is lost (`Parameters.names_after_and_isInOrder_iff`).
-/

namespace ContactCard.Parameters

open Text

/-! ### Lists without duplicates -/

section Lists

variable {α : Type} [DecidableEq α] {l : List α} {a : α}

/-- Of equal items the last one stays. -/
theorem dedup_concat (l : List α) (a : α) :
    (l ++ [a]).dedup = (l.dedup.filter fun b ↦ !(a == b)) ++ [a] := by
  induction l with
  | nil => rfl
  | cons b l ih =>
    by_cases hl : b ∈ l
    · rw [List.cons_append, List.dedup_cons_of_mem (List.mem_append_left _ hl), ih,
        List.dedup_cons_of_mem hl]
    · by_cases hb : a = b
      · subst hb
        rw [List.cons_append, List.dedup_cons_of_mem (by simp), ih, List.dedup_cons_of_notMem hl]
        simp
      · have hfresh : b ∉ l ++ [a] := by simp [hl, Ne.symm hb]
        rw [List.cons_append, List.dedup_cons_of_notMem hfresh, ih, List.dedup_cons_of_notMem hl]
        simp [hb]

/-- Of equal items the first one stays. -/
theorem eraseDups_concat (l : List α) (a : α) :
    (l ++ [a]).eraseDups = if a ∈ l then l.eraseDups else l.eraseDups ++ [a] := by
  have hone : [a].eraseDups = [a] := by simp [List.eraseDups_cons]
  rw [List.eraseDups_append]
  by_cases ha : a ∈ l <;> simp [List.removeAll, ha, hone]

theorem eraseDups_of_nodup (h : l.Nodup) : l.eraseDups = l := by
  induction l using List.reverseRecOn with
  | nil => rfl
  | append_singleton l a ih =>
    have ha : a ∉ l := fun ha ↦ (List.nodup_append.mp h).2.2 a ha a (by simp) rfl
    rw [eraseDups_concat, if_neg ha, ih h.of_append_left]

theorem filter_eq_self_of_not_mem (h : a ∉ l) : (l.filter fun b ↦ !(a == b)) = l :=
  List.filter_eq_self.mpr fun b hb ↦ by simpa using fun hab : a = b ↦ h (hab ▸ hb)

/-- Going to the end changes nothing for the last one only. -/
theorem filter_concat_eq_self_iff (h : l.Nodup) :
    (l.filter fun b ↦ !(a == b)) ++ [a] = l ↔ l.getLast? = some a := by
  constructor
  · intro heq
    rw [← heq, List.getLast?_concat]
  · intro hlast
    obtain ⟨front, rfl⟩ := List.getLast?_eq_some_iff.mp hlast
    have ha : a ∉ front := fun ha ↦ (List.nodup_append.mp h).2.2 a ha a (by simp) rfl
    simp [List.filter_append, filter_eq_self_of_not_mem ha]

end Lists

/-! ### Names after one change -/

variable {p : Parameters} {name : String} {c : Change} {cs : List Change}

theorem names_add (p : Parameters) (name value : String) :
    (p.add name value).names =
      if toLower name ∈ p.names then p.names else p.names ++ [toLower name] := by
  split
  · next h => exact OrderedMap.keys_insert_of_contains h _
  · next h => exact OrderedMap.keys_insert_of_not_contains h _

theorem names_reserve (p : Parameters) (name : String) :
    (p.reserve name).names =
      if toLower name ∈ p.names then p.names else p.names ++ [toLower name] := by
  split
  · next h => exact OrderedMap.keys_insert_of_contains h _
  · next h => exact OrderedMap.keys_insert_of_not_contains h _

theorem self_mem_names_add (p : Parameters) (name value : String) :
    toLower name ∈ (p.add name value).names := by
  rw [names_add]
  split <;> simp [*]

theorem self_mem_names_reserve (p : Parameters) (name : String) :
    toLower name ∈ (p.reserve name).names := by
  rw [names_reserve]
  split <;> simp [*]

theorem names_remove (p : Parameters) (name : String) :
    (p.remove name).names = p.names.filter fun other ↦ !(toLower name == other) :=
  OrderedMap.keys_erase ..

theorem names_set (p : Parameters) (name value : String) :
    (p.set name value).names =
      (p.names.filter fun other ↦ !(toLower name == other)) ++ [toLower name] := by
  have hnot : toLower name ∉ (p.remove name).names := by
    rw [names_remove]
    simp
  rw [← names_remove]
  exact OrderedMap.keys_insert_of_not_contains hnot _

namespace Change

/-- The change is to give a value to a name: a replacement by null is not. -/
def IsAdding : Change → Prop
  | .put _ _ => True
  | .replace _ v | .assign _ v => v ≠ .null
  | .remove _ | .removeValue _ _ => False

/-- The name that the change is for. -/
def target : Change → String
  | .put name _ | .replace name _ | .remove name | .removeValue name _ => toLower name
  | .assign a _ => a.name

/-- Whether the change puts its value in the place of those that were there. -/
def replaces : Change → Bool
  | .replace _ _ | .assign _ _ => true
  | _ => false

/-- The table after the change. -/
def next (p : Parameters) (c : Change) : Parameters := (c.made p).1

/-- Whether the change is not refused. -/
def isAccepted (p : Parameters) (c : Change) : Bool := (c.made p).2.toBool

/-- Whether the name of the change is there after it. -/
def leavesName (p : Parameters) (c : Change) : Bool := (c.next p).names.contains c.target

/-- Whether the change puts its name at the end, where it may have been. -/
def lands (p : Parameters) (c : Change) : Bool :=
  c.isAccepted p && c.replaces || c.leavesName p && !p.names.contains c.target

/-- The change replaces the values of a name that is there and takes it away from its place. -/
@[mk_iff]
structure Moves (p : Parameters) (c : Change) : Prop where
  accepted : c.isAccepted p = true
  replaces : c.replaces = true
  mem : c.target ∈ p.names
  not_last : p.names.getLast? ≠ some c.target

/-- The change takes away a name that is there. -/
@[mk_iff]
structure Loses (p : Parameters) (c : Change) : Prop where
  mem : c.target ∈ p.names
  gone : c.leavesName p = false

theorem isKept_next {bare : Prop} (h : p.IsKept bare) (hc : ¬c.HasText → bare) :
    (c.next p).IsKept bare := c.isKept_made h hc

theorem toLower_target (c : Change) : toLower c.target = c.target := by
  cases c with
  | assign a v => exact a.toLower_name
  | _ => exact toLower_toLower _

/-- What a change that gives a value may come to: the table that it leaves, and whether it is
accepted. Without a text for the value, adding leaves the name there and replacing takes it away. -/
inductive Leaves (p : Parameters) (c : Change) : Parameters → Bool → Prop where
  | refused : Leaves p c p false
  | added (s : String) (hc : c.replaces = false) : Leaves p c (p.add c.target s) true
  | set (s : String) (hc : c.replaces = true) : Leaves p c (p.set c.target s) true
  | reserved (hc : c.replaces = false) : Leaves p c (p.reserve c.target) false
  | removed (hc : c.replaces = true) (htext : ¬c.HasText) : Leaves p c (p.remove c.target) false

theorem leaves_next (p : Parameters) (hc : c.IsAdding) :
    Leaves p c (c.next p) (c.isAccepted p) := by
  cases c with
  | put name v =>
    rw [isAccepted, next, made, ← p.put_toLower]
    by_cases hv : v = .null
    · subst hv
      exact .refused
    · rcases v.toText_cases with ⟨⟨s, hs⟩, -⟩ | ⟨hf, -⟩
      · rw [p.put_of_toText hv hs]
        exact .added s rfl
      · rw [p.put_of_toText_error hf]
        exact .reserved rfl
  | replace name v =>
    rw [isAccepted, next, made, ← p.replace_toLower]
    rcases v.toText_cases with ⟨⟨s, hs⟩, -⟩ | ⟨hf, hunwritable⟩
    · rw [p.replace_of_toText hc hs]
      exact .set s rfl
    · rw [p.replace_of_toText_error hf]
      exact .removed rfl (ne_true_of_eq_false hunwritable)
  | assign a v =>
    rw [isAccepted, next, made]
    rcases p.assignTo_cases a hc with ⟨s, hs, -⟩ | ⟨⟨e, he⟩, -⟩
    · rw [hs]
      exact .set s rfl
    · rw [he]
      cases hloses : a.loses v with
      | false => exact .refused
      | true => exact .removed rfl (ne_true_of_eq_false (a.isWritable_of_loses hloses))
  | remove name => exact absurd hc id
  | removeValue name v => exact absurd hc id

/-- A change that gives a value puts the name at the end, or leaves the names where they are; but for
its own, they are all still there. -/
theorem names_next (p : Parameters) (hc : c.IsAdding) :
    (c.next p).names =
      if c.lands p then (p.names.filter fun other ↦ !(c.target == other)) ++ [c.target]
      else if c.leavesName p then p.names
      else p.names.filter fun other ↦ !(c.target == other) := by
  have hleaves := leaves_next p hc
  rw [lands, leavesName]
  generalize c.next p = q, c.isAccepted p = accepted at hleaves ⊢
  cases hleaves with
  | refused =>
    by_cases hmem : c.target ∈ p.names
    · simp [hmem]
    · simp [hmem, filter_eq_self_of_not_mem hmem]
  | added s hreplaces =>
    rw [names_add, c.toLower_target]
    by_cases hmem : c.target ∈ p.names
    · simp [hmem, hreplaces]
    · simp [hmem, hreplaces, filter_eq_self_of_not_mem hmem]
  | set s hreplaces => simp [names_set, c.toLower_target, hreplaces]
  | reserved hreplaces =>
    rw [names_reserve, c.toLower_target]
    by_cases hmem : c.target ∈ p.names
    · simp [hmem]
    · simp [hmem, filter_eq_self_of_not_mem hmem]
  | removed hreplaces => simp [names_remove, c.toLower_target]

theorem leavesName_of_isAccepted (hc : c.IsAdding) (h : c.isAccepted p = true) :
    c.leavesName p = true := by
  have hleaves := leaves_next p hc
  have htarget := c.toLower_target
  rw [leavesName]
  generalize c.next p = q, c.isAccepted p = accepted at hleaves h ⊢
  cases hleaves with
  | refused | reserved | removed => exact absurd h Bool.false_ne_true
  | added s => simpa [htarget] using p.self_mem_names_add c.target s
  | set s => simp [names_set, htarget]

/-- A name goes only where its new value has no text. -/
theorem not_loses (hc : c.IsAdding) (htext : c.HasText) : ¬c.Loses p := by
  have hleaves := leaves_next p hc
  have htarget := c.toLower_target
  rw [loses_iff, leavesName]
  generalize c.next p = q, c.isAccepted p = accepted at hleaves ⊢
  cases hleaves with
  | refused => simp
  | added s => simpa [htarget] using fun _ ↦ p.self_mem_names_add c.target s
  | set s => simp [names_set, htarget]
  | reserved => simpa [htarget] using fun _ ↦ p.self_mem_names_reserve c.target
  | removed _ hnot => exact absurd htext hnot

/-- The names are what they were, with a new one at the end, unless a name is moved or lost. -/
theorem names_next_eq_iff (h : p.IsTidy) (hc : c.IsAdding) :
    (c.next p).names =
        (if c.leavesName p ∧ c.target ∉ p.names then p.names ++ [c.target] else p.names) ↔
      ¬c.Moves p ∧ ¬c.Loses p := by
  rw [c.names_next p hc, lands, moves_iff, loses_iff]
  by_cases hmem : c.target ∈ p.names
  · by_cases hboth : c.isAccepted p = true ∧ c.replaces = true
    · have hleaves := c.leavesName_of_isAccepted hc hboth.1
      simp [hmem, hboth, hleaves, filter_concat_eq_self_iff h.nodup]
    · have hstays : (c.isAccepted p && c.replaces) = false := by simpa using hboth
      cases hleaves : c.leavesName p with
      | true =>
        simpa [hmem, hstays] using fun haccepted hreplaces ↦ absurd ⟨haccepted, hreplaces⟩ hboth
      | false => simp [hmem, hstays]
  · cases hleaves : c.leavesName p with
    | true => simp [hmem, filter_eq_self_of_not_mem hmem]
    | false =>
      have haccepted : c.isAccepted p = false := by
        by_contra hnot
        exact absurd (c.leavesName_of_isAccepted hc (by simpa using hnot)) (by simp [hleaves])
      simp [hmem, haccepted, filter_eq_self_of_not_mem hmem]

end Change

/-! ### Names after one change after the other -/

/-- The table after the changes. -/
def after (p : Parameters) (cs : List Change) : Parameters := cs.foldl (fun q c ↦ c.next q) p

/-- The names that those changes are for which count at their table. -/
def targets (counts : Parameters → Change → Bool) (p : Parameters) : List Change → List String
  | [] => []
  | c :: cs => (if counts p c then [c.target] else []) ++ targets counts (c.next p) cs

theorem targets_concat (counts : Parameters → Change → Bool) (p : Parameters) (cs : List Change)
    (c : Change) : p.targets counts (cs ++ [c]) =
      p.targets counts cs ++ if counts (p.after cs) c then [c.target] else [] := by
  induction cs generalizing p with
  | nil => exact List.append_nil _
  | cons first rest ih =>
    rw [List.cons_append, targets, ih, targets, List.append_assoc]
    rfl

/-- The names that were added to those at the start, each time that it was. -/
def given (p : Parameters) : List Change → List String :=
  p.targets fun q c ↦ c.leavesName q

/-- The names that came to the end, each time that it did. -/
def landed (p : Parameters) : List Change → List String :=
  p.targets fun q c ↦ c.lands q

/-- The names stand in the order in which they were first added: those at the start as they stood
there, and after them the others. -/
def IsInOrder (p : Parameters) (cs : List Change) : Prop :=
  (p.after cs).names = (p.names ++ p.given cs).eraseDups

instance (p : Parameters) (cs : List Change) : Decidable (p.IsInOrder cs) :=
  inferInstanceAs (Decidable ((p.after cs).names = (p.names ++ p.given cs).eraseDups))

theorem after_concat (p : Parameters) (cs : List Change) (c : Change) :
    p.after (cs ++ [c]) = c.next (p.after cs) := List.foldl_concat ..

theorem isTidy_after (h : p.IsTidy) (cs : List Change) : (p.after cs).IsTidy := by
  induction cs generalizing p with
  | nil => exact h
  | cons c rest ih => exact ih (c.isKept_next h fun _ ↦ trivial)

theorem dedup_landed_nil (h : p.IsTidy) : (p.names ++ p.landed []).dedup = p.names := by
  have hlanded : p.landed [] = [] := rfl
  rw [hlanded, List.append_nil, h.nodup.dedup]

/-- A name that comes to the end once more is moved there. -/
theorem dedup_landed_concat (p : Parameters) (cs : List Change) (c : Change) :
    (p.names ++ p.landed (cs ++ [c])).dedup =
      if c.lands (p.after cs) then
        ((p.names ++ p.landed cs).dedup.filter fun other ↦ !(c.target == other)) ++ [c.target]
      else (p.names ++ p.landed cs).dedup := by
  rw [landed, targets_concat, ← landed]
  split
  · rw [← List.append_assoc, dedup_concat]
  · rw [List.append_nil]

/-- The names that are there stand in the order in which they last came to the end. -/
theorem names_after_sublist (h : p.IsTidy) (hcs : ∀ c ∈ cs, c.IsAdding) :
    (p.after cs).names.Sublist (p.names ++ p.landed cs).dedup := by
  induction cs using List.reverseRecOn with
  | nil =>
    rw [dedup_landed_nil h]
    exact .refl _
  | append_singleton before c ih =>
    rw [List.forall_mem_append, List.forall_mem_singleton] at hcs
    have hbefore := ih hcs.1
    rw [after_concat, c.names_next _ hcs.2, dedup_landed_concat]
    split
    · exact (hbefore.filter _).append_right _
    · split
      · exact hbefore
      · exact List.filter_sublist.trans hbefore

/-- They are all there if none was lost. -/
theorem names_after (h : p.IsTidy) (hcs : ∀ c ∈ cs, c.IsAdding)
    (hlost : ∀ before c, before ++ [c] <+: cs → ¬c.Loses (p.after before)) :
    (p.after cs).names = (p.names ++ p.landed cs).dedup := by
  induction cs using List.reverseRecOn with
  | nil => exact (dedup_landed_nil h).symm
  | append_singleton before c ih =>
    rw [List.forall_mem_append, List.forall_mem_singleton] at hcs
    have hbefore := ih hcs.1 fun l d hl ↦ hlost l d (hl.trans (List.prefix_append before [c]))
    have hkept : ¬c.Loses (p.after before) := hlost before c List.prefix_rfl
    rw [after_concat, c.names_next _ hcs.2, dedup_landed_concat, ← hbefore]
    split
    · rfl
    · split
      · rfl
      · next hgone =>
        have hnot : c.target ∉ (p.after before).names := fun hmem ↦
          hkept ⟨hmem, Bool.eq_false_iff.mpr hgone⟩
        exact filter_eq_self_of_not_mem hnot

/-- One more change keeps the order just when it does not move or lose a name. -/
theorem isInOrder_concat_iff (h : p.IsTidy) (hc : c.IsAdding) (hbefore : p.IsInOrder cs) :
    p.IsInOrder (cs ++ [c]) ↔ ¬c.Moves (p.after cs) ∧ ¬c.Loses (p.after cs) := by
  have hmem : c.target ∈ p.names ++ p.given cs ↔ c.target ∈ (p.after cs).names := by
    rw [hbefore, List.mem_eraseDups]
  rw [← c.names_next_eq_iff (isTidy_after h cs) hc, IsInOrder, after_concat, given,
    targets_concat, ← given, ← List.append_assoc]
  cases hleaves : c.leavesName (p.after cs) with
  | false => simp [hbefore.symm]
  | true =>
    rw [if_pos rfl, eraseDups_concat]
    simp [hmem, hbefore.symm]

theorem isInOrder_nil (h : p.IsTidy) : p.IsInOrder [] := by
  have hgiven : p.given [] = [] := rfl
  rw [IsInOrder, hgiven, List.append_nil, eraseDups_of_nodup h.nodup]
  rfl

/-- The order is kept all along just when no change moves or loses a name. -/
theorem isInOrder_iff_forall_not_moves (h : p.IsTidy) (hcs : ∀ c ∈ cs, c.IsAdding) :
    (∀ before, before <+: cs → p.IsInOrder before) ↔
      ∀ before c, before ++ [c] <+: cs → ¬c.Moves (p.after before) ∧ ¬c.Loses (p.after before) := by
  induction cs using List.reverseRecOn with
  | nil =>
    simp only [List.prefix_nil, forall_eq, List.append_eq_nil_iff, List.cons_ne_nil, and_false,
      false_imp_iff, implies_true, iff_true]
    exact isInOrder_nil h
  | append_singleton cs c ih =>
    rw [List.forall_mem_append, List.forall_mem_singleton] at hcs
    -- Each side says one thing more than for `cs`, and these two are equivalent once the names are
    -- in order after `cs`.
    have hfront {l : List Change} (hl : l <+: cs) : l <+: cs ++ [c] :=
      hl.trans (List.prefix_append cs [c])
    constructor
    · intro hall before d hd
      rcases List.prefix_concat_iff.mp hd with heq | hd
      · obtain ⟨rfl, hdc⟩ := List.append_inj' heq rfl
        obtain rfl := List.singleton_inj.mp hdc
        have hbefore := hall before (hfront List.prefix_rfl)
        exact (isInOrder_concat_iff h hcs.2 hbefore).mp (hall _ List.prefix_rfl)
      · exact (ih hcs.1).mp (fun l hl ↦ hall l (hfront hl)) before d hd
    · intro hnot before hbefore
      have hall := (ih hcs.1).mpr fun l d hl ↦ hnot l d (hfront hl)
      rcases List.prefix_concat_iff.mp hbefore with rfl | hbefore
      · exact (isInOrder_concat_iff h hcs.2 (hall cs List.prefix_rfl)).mpr
          (hnot cs c List.prefix_rfl)
      · exact hall before hbefore

/-- The names of a table to which values are given stand in the order in which they last came to the
end, and they are all there if none was lost. They have been there in the order of their addition all
along just when none was moved or lost; and none is lost if the values have texts. -/
theorem names_after_and_isInOrder_iff (hp : p.IsReachable) (hcs : ∀ c ∈ cs, c.IsAdding) :
    (p.after cs).names.Sublist (p.names ++ p.landed cs).dedup ∧
      ((∀ before c, before ++ [c] <+: cs → ¬c.Loses (p.after before)) →
        (p.after cs).names = (p.names ++ p.landed cs).dedup) ∧
      ((∀ before, before <+: cs → p.IsInOrder before) ↔
        ∀ before c, before ++ [c] <+: cs →
          ¬c.Moves (p.after before) ∧ ¬c.Loses (p.after before)) ∧
      ∀ c ∈ cs, c.HasText → ∀ before, ¬c.Loses (p.after before) :=
  ⟨names_after_sublist hp.isTidy hcs, names_after hp.isTidy hcs,
    isInOrder_iff_forall_not_moves hp.isTidy hcs,
    fun _ hc htext _ ↦ Change.not_loses (hcs _ hc) htext⟩

/-- One more language and a new label leave the preference in its place, a new preference does
not. -/
theorem names_after_and_isInOrder_iff_preference :
    let p : Parameters := ⟨⟨[("pref", ["1"]), ("language", ["en"])]⟩⟩
    let before : List Change := [.put "LANGUAGE" (.text "fr"), .assign .label (.text "Home")]
    (p.after before).names = ["pref", "language", "label"] ∧ p.IsInOrder before ∧
      (p.after (before ++ [.assign .preference (.int 2)])).names = ["language", "label", "pref"] ∧
      ¬∀ cs, cs <+: before ++ [.assign .preference (.int 2)] → p.IsInOrder cs := by
  intro p before
  have hp : p.IsReachable := IsNormal.isReachable
    ⟨by decide +kernel, by decide +kernel, by decide +kernel⟩
  have hcs : ∀ c ∈ before ++ [.assign .preference (.int 2)], c.IsAdding := by
    simp [before, Change.IsAdding]
  have htext : ∀ c ∈ before ++ [.assign .preference (.int 2)], c.HasText := by
    have htwo : Integer.isWritable 2 = true := by decide
    simp [before, Change.HasText, Value.isWritable, htwo]
  have hbefore : ∀ c ∈ before, c.IsAdding := fun c hc ↦ hcs c (List.mem_append_left _ hc)
  obtain ⟨-, hnames, horder, hlost⟩ := names_after_and_isInOrder_iff hp hcs
  have hkept {front : List Change} {c : Change}
      (hc : front ++ [c] <+: before ++ [.assign .preference (.int 2)]) : ¬c.Loses (p.after front) :=
    have hmem := hc.subset (List.mem_append_right front (List.mem_singleton_self c))
    hlost c hmem (htext c hmem) front
  have hmoves : Change.Moves (p.after before) (.assign .preference (.int 2)) :=
    ⟨by decide +kernel, rfl, by decide +kernel, by decide +kernel⟩
  refine ⟨?_, by decide +kernel, ?_, fun hall ↦ (horder.mp hall before _ List.prefix_rfl).1 hmoves⟩
  · rw [(names_after_and_isInOrder_iff hp hbefore).2.1 fun front c hc ↦
      hkept (hc.trans (List.prefix_append before _))]
    decide +kernel
  · rw [hnames fun front c hc ↦ hkept hc]
    decide +kernel

/-- A preference is replaced: its name does not stand where it was added any more. -/
theorem replaced_name_moved :
    let p : Parameters := ⟨⟨[("pref", ["1"]), ("language", ["en"])]⟩⟩
    let c : Change := .replace "pref" (.int 2)
    p.IsReachable ∧ c.IsAdding ∧ c.isAccepted p = true ∧ p.names = ["pref", "language"] ∧
      (p.after [c]).names = ["language", "pref"] ∧ ¬p.IsInOrder [c] := by
  intro p c
  have hp : p.IsReachable := IsNormal.isReachable
    ⟨by decide +kernel, by decide +kernel, by decide +kernel⟩
  exact ⟨hp, nofun, by decide +kernel, rfl, by decide +kernel, by decide +kernel⟩

end ContactCard.Parameters
