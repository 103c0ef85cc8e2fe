import ContactCard.Proofs.Xml.Drafting

/-!
# New prefixes

A namespace for which no prefix is known gets one that nobody else has: `ns` and the first number,
from the next one on, that makes no prefix in use. The search always ends (`finds_firstFree`), as
only so many prefixes are in use, although anyone may have registered prefixes that look like new
ones.

The next number belongs to the writer and outlives every tree, also one that is refused halfway. So
a writer never makes a prefix twice, whatever is registered and written (`nodup_newPrefixes`).
-/

namespace ContactCard.Xml

/-! ### The search for a number -/

/-- Going up number by number, the search from the first number on ends at the second. -/
inductive Finds (used : List String) : Nat → Nat → Prop where
  | here {n : Nat} (h : numberedPrefix n ∉ used) : Finds used n n
  | next {n k : Nat} (h : numberedPrefix n ∈ used) (hk : Finds used (n + 1) k) : Finds used n k

variable {used : List String}

theorem Finds.not_mem {n k : Nat} (h : Finds used n k) : numberedPrefix k ∉ used := by
  induction h with
  | here h => exact h
  | next h hk ih => exact ih

/-- The search ends, for whatever prefixes are in use and wherever it begins. -/
theorem finds_firstFree (used : List String) (n : Nat) :
    Finds used n (firstFree used used.length n) := by
  have hfuel (fuel n : Nat) (h : numberedPrefix (firstFree used fuel n) ∉ used) :
      Finds used n (firstFree used fuel n) := by
    induction fuel generalizing n with
    | zero => exact .here h
    | succ fuel ih =>
      rw [firstFree] at h ⊢
      split at h
      · next hused =>
        rw [if_pos hused]
        exact .next (by simpa using hused) (ih (n + 1) h)
      · next hfree =>
        rw [if_neg hfree]
        exact .here h
  exact hfuel used.length n (firstFree_not_mem used n)

namespace Writer

/-! ### The life of a writer -/

/-- What a writer is asked to do. -/
inductive Call where
  | addPrefix (ns pre : String)
  | writeElement (e : Element) (indent : Int)
  | writeDocument (e : Element) (indent : Int) (encoding : String)

/-- The writer after a call, which may have been refused. -/
def Call.next (w : Writer) : Call → Writer
  | addPrefix ns pre => (w.addPrefix ns pre).toOption.getD w
  | writeElement e indent => (w.writeElement e indent).2
  | writeDocument e indent encoding => (w.writeDocument e indent encoding).2

/-- The writer after a sequence of calls. -/
def after (w : Writer) (calls : List Call) : Writer := calls.foldl Call.next w

/-- The numbers that are given in the course of a call. -/
def Call.numbers (w : Writer) : Call → List Nat
  | addPrefix _ _ => []
  | writeElement e _ | writeDocument e _ _ => (w.draft ∅ e).taken w.nextNumber

/-- The numbers that are given in the course of a sequence of calls. -/
def numbers : Writer → List Call → List Nat
  | _, [] => []
  | w, call :: rest => call.numbers w ++ (call.next w).numbers rest

/-- The prefixes that are made in the course of a sequence of calls. -/
def newPrefixes (w : Writer) (calls : List Call) : List String :=
  (w.numbers calls).map numberedPrefix

variable {w : Writer}

theorem nextNumber_addPrefix (ns pre : String) :
    ((Call.addPrefix ns pre).next w).nextNumber = w.nextNumber := by
  rw [Call.next, addPrefix]
  split <;> rfl

theorem nextNumber_writeElement (e : Element) (indent : Int) :
    (w.writeElement e indent).2.nextNumber =
      ((w.draft ∅ e).carryOut.run.run w.nextNumber).2 := congrArg Prod.snd (w.run_markup e _)

/-- In the course of a call, numbers are given in ascending order, and all of them are used up. -/
theorem Call.numbers_ascending (call : Call) (w : Writer) :
    w.nextNumber ≤ (call.next w).nextNumber ∧ (call.numbers w).Pairwise (· < ·) ∧
      ∀ k ∈ call.numbers w, w.nextNumber ≤ k ∧ k < (call.next w).nextNumber := by
  cases call with
  | addPrefix ns pre =>
    rw [nextNumber_addPrefix]
    exact ⟨le_rfl, .nil, fun k hk ↦ absurd hk List.not_mem_nil⟩
  | writeElement e indent =>
    rw [Call.next, nextNumber_writeElement]
    exact (w.draft ∅ e).taken_ascending w.nextNumber
  | writeDocument e indent encoding =>
    rw [Call.next,
      show (w.writeDocument e indent encoding).2 = (w.writeElement e indent).2 from rfl,
      nextNumber_writeElement]
    exact (w.draft ∅ e).taken_ascending w.nextNumber

theorem numbers_ascending (w : Writer) (calls : List Call) :
    (w.numbers calls).Pairwise (· < ·) ∧ ∀ k ∈ w.numbers calls, w.nextNumber ≤ k := by
  induction calls generalizing w with
  | nil => exact ⟨.nil, fun k hk ↦ absurd hk List.not_mem_nil⟩
  | cons call rest ih =>
    obtain ⟨hle, hpairwise, hbounds⟩ := call.numbers_ascending w
    obtain ⟨hrest, hafter⟩ := ih (call.next w)
    refine ⟨List.pairwise_append.mpr ⟨hpairwise, hrest, fun k hk k' hk' ↦ ?_⟩, ?_⟩
    · exact (hbounds k hk).2.trans_le (hafter k' hk')
    · exact List.forall_mem_append.mpr ⟨fun k hk ↦ (hbounds k hk).1,
        fun k hk ↦ hle.trans (hafter k hk)⟩

/-- For all tables of registered prefixes and of prefixes in scope, the search for a new prefix ends
with one that is in neither of them; and in its whole life a writer makes no prefix twice, also
where calls are refused. The prefixes of a call are counted by its draft, whose steps are those of
the writer. -/
theorem nodup_newPrefixes :
    (∀ (d : Option String) (registered : PrefixTable) (st : Naming) (n : Nat),
      ∃ used k, (Writer.mk d registered [] n).usedPrefixes st = .ok used ∧ Finds used n k ∧
        (takeNumber used).run.run n = (.ok k, k + 1) ∧
        numberedPrefix k ∉ registered.values ∧ numberedPrefix k ∉ st.scope.values) ∧
    (∀ (w : Writer) (e : Element), Draft.markup <$> (w.draft ∅ e).carryOut = w.markup ∅ e) ∧
    ∀ (w : Writer) (calls : List Call), (w.newPrefixes calls).Nodup := by
  refine ⟨fun d registered st n ↦ ?_, fun w e ↦ w.carryOut_draft e ∅, fun w calls ↦ ?_⟩
  · have hfinds := finds_firstFree (registered.values ++ st.scope.values) n
    have hfree := hfinds.not_mem
    rw [List.mem_append, not_or] at hfree
    exact ⟨_, _, usedPrefixes_eq rfl st, hfinds, rfl, hfree⟩
  · refine (w.numbers_ascending calls).1.map numberedPrefix fun k k' hlt heq ↦ ?_
    exact hlt.ne (numberedPrefix_inj heq)

/-- A prefix that was registered is passed over, and one that a refused tree took is gone. -/
example :
    (new none).newPrefixes [.addPrefix "urn:a" "ns2",
      .writeElement ⟨"\x7burn:b\x7dx", [("\x7burn", "")], .null, none, []⟩ 2,
      .writeElement ⟨"\x7burn:b\x7dx", [], .null, none, []⟩ 2] = ["ns1", "ns3"] := by
  decide +kernel

end Writer

end ContactCard.Xml
