import ContactCard.Proofs.NamedValue
import ContactCard.Proofs.Number.Integer
import ContactCard.Proofs.Parameters.Runs

/-!
# Typed accessors

A typed accessor reads the first text of its parameter as an encoding, a data type or a number, or
as it is (`Accessor.reading`), and keeps what it is assigned as the only text of the parameter. It
takes a value if there is something that it can read from then on (`Accessor.Takes`). Whatever the
table holds, an assignment either makes the accessor read what it was assigned and leaves the other
names alone, or it is refused. What is refused changes nothing, unless it is a value that has no text:
when this is found the parameter has been removed already (`Parameters.next_assign`).
-/

namespace ContactCard.Parameters

open Text

/-! ### Reading -/

/-- What an accessor makes of a text. -/
def Accessor.reading : Accessor → String → Value
  | .encoding, s => .encoding (.ofName s)
  | .value, s => .dataType (.ofName s)
  | .preference, s => (Integer.ofText? s).elim .null .int
  | _, s => .text s

/-- What an accessor reads, null if there is nothing to be read. -/
def read (p : Parameters) : Accessor → Value
  | .encoding => p.encoding?.elim .null .encoding
  | .value => p.valueType?.elim .null .dataType
  | .types => .list ((p.getAll "type").map .text)
  | .preference => p.preference?.elim .null .int
  | a => .ofOption (p.get? a.name)

variable {p q : Parameters} {a : Accessor} {v w : Value} {s : String}

theorem read_of_get? (ha : a ≠ .types) (h : p.get? a.name = some s) :
    p.read a = a.reading s := by
  cases a with
  | types => exact absurd rfl ha
  | encoding => rw [read, encoding?, show p.get? "encoding" = some s from h]; rfl
  | value => rw [read, valueType?, show p.get? "value" = some s from h]; rfl
  | preference => rw [read, preference?, show p.get? "pref" = some s from h]; rfl
  | _ => exact congrArg Value.ofOption h

theorem read_of_get?_eq_none (ha : a ≠ .types) (h : p.get? a.name = none) :
    p.read a = .null := by
  cases a with
  | types => exact absurd rfl ha
  | encoding => rw [read, encoding?, show p.get? "encoding" = none from h]; rfl
  | value => rw [read, valueType?, show p.get? "value" = none from h]; rfl
  | preference => rw [read, preference?, show p.get? "pref" = none from h]; rfl
  | _ => exact congrArg Value.ofOption h

/-! ### What is taken -/

namespace Accessor

/-- The accessor reads texts as they are. -/
def IsPlain : Accessor → Prop
  | .encoding | .value | .types | .preference => False
  | _ => True

/-- The accessor takes `v`, and reads `w` from then on. -/
inductive Takes : Accessor → Value → Value → Prop where
  | nothing {a : Accessor} (ha : a ≠ .types) : Takes a .null .null
  | encoding {v : Value} {s : String} (hv : v ≠ .null) (hs : v.toText = .ok s) :
    Takes .encoding v (.encoding (.ofName s))
  | value {v : Value} {s : String} (hv : v ≠ .null) (hs : v.toText = .ok s) :
    Takes .value v (.dataType (.ofName s))
  | preference {v : Value} {i : Int} (hi : v.toInt = .ok i) (hlow : 1 ≤ i) (hhigh : i ≤ 100) :
    Takes .preference v (.int i)
  | text {a : Accessor} {v : Value} {s : String} (ha : a.IsPlain) (hv : v ≠ .null)
    (hs : v.toText = .ok s) : Takes a v (.text s)

theorem Takes.ne_types (h : a.Takes v w) : a ≠ .types := by
  rintro rfl
  cases h with
  | nothing ha => exact ha rfl
  | text ha => exact ha

/-- Only an integer from 1 to 100 is taken for a preference. -/
theorem Takes.of_preference (h : Takes .preference v w) (hv : v ≠ .null) :
    ∃ i, v.toInt = .ok i ∧ 1 ≤ i ∧ i ≤ 100 ∧ w = .int i := by
  cases h with
  | nothing => exact absurd rfl hv
  | preference hi hlow hhigh => exact ⟨_, hi, hlow, hhigh, rfl⟩
  | text ha => exact absurd ha id

/-- What is taken has a text, but for a preference, of which only the number is kept. -/
theorem Takes.exists_toText (h : a.Takes v w) (ha : a ≠ .preference) : ∃ s, v.toText = .ok s := by
  cases h with
  | nothing => exact ⟨_, rfl⟩
  | encoding _ hs => exact ⟨_, hs⟩
  | value _ hs => exact ⟨_, hs⟩
  | preference => exact absurd rfl ha
  | text _ _ hs => exact ⟨_, hs⟩

/-- Whether the assignment of the value is refused only after the parameter was removed: it has no
text, and nothing else is asked of it before. -/
def loses : Accessor → Value → Bool
  | .types, _ | .preference, _ => false
  | _, v => !v.isWritable

theorem isWritable_of_loses (h : a.loses v = true) : v.isWritable = false := by
  cases a with
  | types | preference => exact absurd h Bool.false_ne_true
  | _ => exact (Bool.not_eq_true' _).mp h

/-- The value has the form that the accessor reads. -/
def IsOwn : Accessor → Value → Prop
  | .encoding, .encoding _ | .value, .dataType _ | .preference, .int _ => True
  | a, .text _ => a.IsPlain
  | _, _ => False

/-- What has the form that the accessor reads comes back as it was given. -/
theorem Takes.same (h : a.Takes v w) (hv : a.IsOwn v) : w.same v = true := by
  cases h with
  | nothing ha => cases a <;> exact absurd hv id
  | encoding hne hs =>
    cases v with
    | encoding e =>
      obtain rfl := Except.ok.inj hs
      exact Encoding.same_iff.mpr (Encoding.toLower_name_ofName e.name)
    | _ => exact absurd hv id
  | value hne hs =>
    cases v with
    | dataType d =>
      obtain rfl := Except.ok.inj hs
      exact DataType.same_iff.mpr (DataType.toLower_name_ofName d.name)
    | _ => exact absurd hv id
  | preference hi hlow hhigh =>
    cases v with
    | int j =>
      obtain rfl := Except.ok.inj hi
      exact Value.same_self _
    | _ => exact absurd hv id
  | text ha hne hs =>
    cases v with
    | text t =>
      obtain rfl := Except.ok.inj hs
      exact Value.same_self _
    | _ => cases a <;> first | exact absurd ha id | exact absurd hv id

theorem toLower_name (a : Accessor) : toLower a.name = a.name := by
  cases a <;> decide +kernel

end Accessor

/-! ### Assigning -/

/-- A preference is read back from its text. -/
theorem reading_preference {i : Int} (hlow : 1 ≤ i) (hhigh : i ≤ 100) :
    Accessor.preference.reading (toString i) = .int i := by
  obtain ⟨n, rfl⟩ := Int.eq_ofNat_of_zero_le (by omega : 0 ≤ i)
  have hlength : (Nat.toDigits 10 n).length ≤ 3 :=
    (Nat.length_toDigits_le_iff (by decide) (by decide)).mpr (by omega)
  have hread : Integer.ofText? (toString (n : Int)) = some (n : Int) :=
    Integer.ofText?_toString (decide_eq_true (Nat.le_trans hlength (by decide)))
  rw [Accessor.reading, hread]
  rfl

/-- A preference in its range is kept as text, and nothing else is taken for one. -/
theorem setPreference_cases (p : Parameters) (hv : v ≠ .null) :
    (∃ s, p.setPreference v = .ok (p.set "pref" s) ∧
        Accessor.preference.Takes v (Accessor.preference.reading s)) ∨
      (∃ e, p.setPreference v = .error e) ∧ ∀ w, ¬Accessor.preference.Takes v w := by
  have heq : p.setPreference v = match v.toInt with
      | .ok i => if i < 1 ∨ 100 < i then .error .preferenceRange
          else .ok (p.set "pref" (toString i))
      | .error fault => .error (.fault fault) := by
    unfold setPreference
    split
    · exact absurd rfl hv
    · cases v.toInt with
      | error fault => rfl
      | ok i =>
        dsimp only [Fault.lift, Except.mapError, bind, Except.bind]
        split <;> rfl
  rw [heq]
  cases hi : v.toInt with
  | error fault =>
    refine .inr ⟨⟨_, rfl⟩, fun w h ↦ ?_⟩
    obtain ⟨i, hi', -⟩ := h.of_preference hv
    exact absurd (hi.symm.trans hi') nofun
  | ok i =>
    dsimp only
    by_cases hrange : i < 1 ∨ 100 < i
    · rw [if_pos hrange]
      refine .inr ⟨⟨_, rfl⟩, fun w h ↦ ?_⟩
      obtain ⟨j, hj, hlow, hhigh, -⟩ := h.of_preference hv
      obtain rfl := Except.ok.inj (hi.symm.trans hj)
      omega
    · rw [if_neg hrange]
      refine .inl ⟨toString i, rfl, ?_⟩
      rw [reading_preference (by omega) (by omega)]
      exact .preference hi (by omega) (by omega)

/-- An accessor that keeps the text of what it is assigned takes any value that has one. The parameter
is lost if the value has none. -/
theorem replace_cases (p : Parameters) (hv : v ≠ .null) (hpreference : a ≠ .preference)
    (hloses : a.loses v = !v.isWritable)
    (htakes : ∀ s, v.toText = .ok s → a.Takes v (a.reading s)) :
    (∃ s, p.replace a.name v = (p.set a.name s, .ok ()) ∧ a.Takes v (a.reading s)) ∨
      (∃ e, p.replace a.name v = (if a.loses v then p.remove a.name else p, .error e)) ∧
        ∀ w, ¬a.Takes v w := by
  rcases v.toText_cases with ⟨⟨s, hs⟩, -⟩ | ⟨hf, hunwritable⟩
  · exact .inl ⟨s, p.replace_of_toText hv hs _, htakes s hs⟩
  · refine .inr ⟨⟨.fault .tooManyDigits, ?_⟩, fun w h ↦ ?_⟩
    · rw [p.replace_of_toText_error hf, hloses, hunwritable]
      rfl
    · obtain ⟨s, hs⟩ := h.exists_toText hpreference
      exact absurd (hs.symm.trans hf) nofun

/-- A value that is not null becomes the only text of the parameter, and what is read from this is
what the accessor takes the value for; or it does not take the value. -/
theorem assignTo_cases (p : Parameters) (a : Accessor) (hv : v ≠ .null) :
    (∃ s, p.assignTo a v = (p.set a.name s, .ok ()) ∧ a.Takes v (a.reading s)) ∨
      (∃ e, p.assignTo a v = (if a.loses v then p.remove a.name else p, .error e)) ∧
        ∀ w, ¬a.Takes v w := by
  cases a with
  | types => exact .inr ⟨⟨_, rfl⟩, fun _ h ↦ h.ne_types rfl⟩
  | preference =>
    rw [assignTo]
    rcases p.setPreference_cases hv with ⟨s, hs, htakes⟩ | ⟨⟨e, he⟩, hnot⟩
    · exact .inl ⟨s, by rw [hs]; rfl, htakes⟩
    · exact .inr ⟨⟨e, by rw [he]; rfl⟩, hnot⟩
  | encoding => exact p.replace_cases hv nofun rfl fun s hs ↦ .encoding hv hs
  | value => exact p.replace_cases hv nofun rfl fun s hs ↦ .value hv hs
  | _ => exact p.replace_cases hv nofun rfl fun s hs ↦ .text trivial hv hs

/-- Null takes the parameter away. -/
theorem assignTo_null (p : Parameters) (ha : a ≠ .types) :
    p.assignTo a .null = (p.remove a.name, .ok ()) := by
  cases a <;> first | exact absurd rfl ha | rfl

/-- In `q` the accessor has been assigned `v`, and this is all that differs from `p`. -/
structure IsAssigned (p q : Parameters) (a : Accessor) (v : Value) : Prop where
  /-- What is read is what the accessor takes the value for. -/
  taken : a.Takes v (q.read a)
  /-- It is the value itself if that has the form which the accessor reads. -/
  same : a.IsOwn v → (q.read a).same v = true
  /-- The parameter has one text. -/
  single : v ≠ .null → ∃ s, q.getAll a.name = [s]
  /-- It is not there if null was assigned. -/
  absent : v = .null → q.contains a.name = false
  others : ∀ name, toLower name ≠ a.name → q.getAll name = p.getAll name

theorem isAssigned_remove (p : Parameters) (ha : a ≠ .types) :
    p.IsAssigned (p.remove a.name) a .null where
  taken := by
    rw [read_of_get?_eq_none ha (by rw [get?, getAll_remove_self]; rfl)]
    exact .nothing ha
  same h := by cases a <;> exact absurd h id
  single h := absurd rfl h
  absent _ := by
    rw [contains, OrderedMap.contains, remove, OrderedMap.get?_erase_self]
    rfl
  others name hname := p.getAll_remove_of_ne (by rwa [a.toLower_name])

theorem isAssigned_set (p : Parameters) (hv : v ≠ .null) (h : a.Takes v (a.reading s)) :
    p.IsAssigned (p.set a.name s) a v := by
  have hread : (p.set a.name s).read a = a.reading s :=
    read_of_get? h.ne_types (by rw [get?, getAll_set_self]; rfl)
  exact {
    taken := hread ▸ h
    same := hread ▸ h.same
    single := fun _ ↦ ⟨s, p.getAll_set_self _ _⟩
    absent := fun hnull ↦ absurd hnull hv
    others := fun name hname ↦ p.getAll_set_of_ne (by rwa [a.toLower_name]) s }

/-- Whatever the tables hold, a value is assigned to an accessor of one of them or refused. In the
first case what was assigned is read from then on. In the second the accessor does not take the value;
then nothing changes, unless the value has no text and the accessor would have kept that. In this case
the parameter is removed, and this is all that changes. -/
theorem next_assign {tables : List Parameters} {i : Nat} (hp : tables[i]? = some p) (a : Accessor)
    (v : Value) :
    (∃ q, (Call.change i (.assign a v)).next tables = ⟨tables.set i q, .ok .nothing⟩ ∧
        p.IsAssigned q a v) ∨
      (∀ w, ¬a.Takes v w) ∧ ∃ e, (Call.change i (.assign a v)).next tables =
        ⟨if a.loses v then tables.set i (p.remove a.name) else tables, .error e⟩ := by
  have hnext : (Call.change i (.assign a v)).next tables =
      ⟨tables.set i (p.assignTo a v).1, (p.assignTo a v).2.map fun _ ↦ .nothing⟩ := by
    rw [Call.next, tableAt, hp]
    rfl
  rw [hnext]
  by_cases hv : v = .null
  · subst hv
    by_cases ha : a = .types
    · subst ha
      exact .inr ⟨fun _ h ↦ h.ne_types rfl, _, congrArg (Moment.mk · _) (set_self hp)⟩
    · rw [p.assignTo_null ha]
      exact .inl ⟨_, rfl, p.isAssigned_remove ha⟩
  · rcases p.assignTo_cases a hv with ⟨s, hs, htakes⟩ | ⟨⟨e, he⟩, hnot⟩
    · rw [hs]
      exact .inl ⟨_, rfl, p.isAssigned_set hv htakes⟩
    · rw [he]
      refine .inr ⟨hnot, e, congrArg (Moment.mk · _) ?_⟩
      cases a.loses v with
      | true => rfl
      | false => exact set_self hp

/-- A preference in digits of another script takes the place of two texts, the first of which spells
no number; one out of range is refused. -/
theorem next_assign_digit :
    let p : Parameters := ⟨⟨[("pref", ["first", "2"]), ("type", ["home", "work"])]⟩⟩
    (∃ q, (Call.change 0 (.assign .preference (.text " \u0665"))).next [p] = ⟨[q], .ok .nothing⟩ ∧
        p.preference? = none ∧ q.read .preference = .int 5 ∧ (q.getAll "pref").length = 1 ∧
        q.getAll "TYPE" = ["home", "work"]) ∧
      ∃ e, (Call.change 0 (.assign .preference (.int 101))).next [p] = ⟨[p], .error e⟩ := by
  intro p
  have hp : [p][0]? = some p := rfl
  have hint : (Value.text " \u0665").toInt = .ok 5 := by decide +kernel
  constructor
  · rcases next_assign hp .preference (.text " \u0665") with
      ⟨q, hnext, h⟩ | ⟨hnot, -⟩
    · obtain ⟨i, hi, -, -, hread⟩ := h.taken.of_preference nofun
      obtain rfl := Except.ok.inj (hint.symm.trans hi)
      obtain ⟨s, hs⟩ := h.single nofun
      refine ⟨q, hnext, by decide +kernel, hread, congrArg List.length hs, ?_⟩
      exact (h.others "TYPE" (by decide +kernel)).trans (by decide +kernel)
    · exact absurd (.preference hint (by decide) (by decide)) (hnot _)
  · rcases next_assign hp .preference (.int 101) with ⟨q, -, h⟩ | ⟨-, hrefused⟩
    · obtain ⟨i, hi, -, hhigh, -⟩ := h.taken.of_preference nofun
      obtain rfl := Except.ok.inj hi
      exact absurd hhigh (by decide)
    · exact hrefused

/-- A label is to be replaced by the first number that has too many digits. This is refused, and the
label that was there is gone. -/
theorem label_lost :
    let p : Parameters := ⟨⟨[("label", ["Home"])]⟩⟩
    let moment := (Call.change 0 (.assign .label (.int Integer.firstTooLong))).next [p]
    p.IsReachable ∧ moment = ⟨[empty], .error (.fault .tooManyDigits)⟩ ∧ moment.tables ≠ [p] := by
  intro p moment
  have hp : p.IsReachable := IsNormal.isReachable
    ⟨by decide +kernel, by decide +kernel, by decide +kernel⟩
  have hnext {v : Value} {f : Fault} (hf : v.toText = .error f) :
      (Call.change 0 (.assign .label v)).next [p] = ⟨[p.remove "label"], .error (.fault f)⟩ := by
    show Moment.mk [(p.replace "label" v).1] ((p.replace "label" v).2.map fun _ ↦ .nothing) = _
    rw [p.replace_of_toText_error hf]
    rfl
  have hmoment : moment = ⟨[p.remove "label"], .error (.fault .tooManyDigits)⟩ :=
    hnext (Value.toText_int_of_isWritable_eq_false Integer.isWritable_firstTooLong)
  have hremove : p.remove "label" = empty := by decide +kernel
  rw [hmoment, hremove]
  exact ⟨hp, rfl, by decide⟩

end ContactCard.Parameters
