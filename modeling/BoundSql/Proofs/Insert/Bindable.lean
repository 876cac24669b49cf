import BoundSql.Insert.Stored
import BoundSql.Proofs.Report

/-!
# Values that a driver can bind

A driver binds nothing or a scalar. What is bound for a value is one of three things: a scalar
itself, the value of a member, or a text made of a structure (`stored_cases`). Scalars and texts can
be bound. The value of a member is taken as it is, and it may be anything: a collection, a record,
or a member again. So a structure reaches the driver exactly as the value of a member, and then it
is no storage form: stored once more, it comes out as something else.

* `Value.Bindable` — what a driver can bind;
* `Value.stored_eq_self_iff` — which values are stored as they are;
* `Value.bindable_stored_iff` — for which values what is stored can be bound, and stays as it is.
-/

namespace BoundSql.Value

/-- **What a driver can bind**: nothing or a scalar. A member is none, whatever it is built on. -/
inductive Bindable : Value → Prop where
  | null : Bindable null
  | bool (b : Bool) : Bindable (bool b)
  | int (n : Int) : Bindable (int n)
  | float (f : FloatText) : Bindable (float f)
  | text (s : String) : Bindable (text s)
  | bytes (bs : List UInt8) : Bindable (bytes bs)
  | decimal (digits : String) : Bindable (decimal digits)
  | datetime (d : Date) (t : Clock) : Bindable (datetime d t)
  | date (d : Date) : Bindable (date d)
  | time (t : Clock) : Bindable (time t)
  | duration (d : Duration) : Bindable (duration d)
  | uuid (digits : String) : Bindable (uuid digits)

theorem bindable_iff_isScalar {v : Value} : v.Bindable ↔ v.isScalar = true := by
  constructor
  · intro h
    cases h <;> rfl
  · intro h
    cases v <;> first | constructor | cases h

instance : DecidablePred Bindable := fun _ => decidable_of_iff _ bindable_iff_isScalar.symm

/-! ### What is stored -/

section Stored

variable {arrays : List String} {column : String} {v bound : Value}

theorem exists_text_of_storedText {isArray : Bool} (h : storedText isArray v = .ok bound) :
    ∃ t, bound = text t := by
  unfold storedText at h
  split at h
  · cases h
    exact ⟨_, rfl⟩
  · obtain ⟨t, -, rfl⟩ := Report.except_map_eq_ok.mp h
    exact ⟨t, rfl⟩

/-- What can be bound is stored as it is, in any column. -/
theorem Bindable.stored_eq (h : v.Bindable) (arrays : List String) (column : String) :
    v.stored arrays column = .ok v := by
  cases h <;> rfl

/-- **What is stored for a value**: what can be bound itself, the value of a member, or a text that
is made of a structure. -/
theorem stored_cases (h : v.stored arrays column = .ok bound) :
    (v.Bindable ∧ bound = v) ∨ (∃ type base name, v = member type base name bound) ∨
      ∃ t, bound = text t := by
  cases v with
  | member type base name value =>
    -- a member is stored as its value, whatever that is
    cases h
    exact .inr (.inl ⟨type, base, name, rfl⟩)
  | record type fields =>
    obtain ⟨t, -, rfl⟩ := Report.except_map_eq_ok.mp h
    exact .inr (.inr ⟨t, rfl⟩)
  | list xs | tuple xs | set xs | frozenset xs | map es | unset =>
    -- a collection is written out, as an array or as JSON
    exact .inr (.inr (exists_text_of_storedText h))
  | _ =>
    cases h
    exact .inl ⟨by constructor, rfl⟩

/-- A member is larger than its value. -/
theorem member_ne_value (type : String) (base : MemberBase) (name : String) (value : Value) :
    value ≠ member type base name value := by
  intro h
  have hsize := congrArg sizeOf h
  simp at hsize

/-- **A value is stored as it is** exactly if it is a scalar. -/
theorem stored_eq_self_iff (h : v.stored arrays column = .ok bound) :
    bound = v ↔ v.isScalar = true := by
  rw [← bindable_iff_isScalar]
  constructor
  · rintro rfl
    rcases stored_cases h with ⟨hbindable, -⟩ | ⟨type, base, name, hmember⟩ | ⟨t, rfl⟩
    · exact hbindable
    · exact absurd hmember (member_ne_value type base name bound)
    · exact .text t
  · intro hbindable
    exact (Except.ok.inj ((hbindable.stored_eq arrays column).symm.trans h)).symm

end Stored

/-! ### What can be bound of it -/

/-- **A value whose storage form can be bound**: any but a member, and a member of a value that can
be bound. -/
def StoresBindable : Value → Prop
  | member _ _ _ value => value.Bindable
  | _ => True

/-- **When what is bound for a value can be bound.** For any value of any kind, in any column,
whichever columns hold arrays:

* what is stored is nothing or a scalar, and no member, exactly if the value is no member or the
  member of such a value;
* storing it again, for this or any other column, changes nothing exactly if it is;
* if it is not, then it is the value of a member, as it stands.
-/
theorem bindable_stored_iff {arrays : List String} {column : String} {v bound : Value}
    (h : v.stored arrays column = .ok bound) :
    (bound.Bindable ↔ v.StoresBindable) ∧
    (∀ (arrays' : List String) (column' : String),
      bound.stored arrays' column' = .ok bound ↔ bound.Bindable) ∧
    (¬ bound.Bindable → ∃ type base name, v = member type base name bound) := by
  refine ⟨?_, fun arrays' column' => ?_, fun hnot => ?_⟩
  · rcases stored_cases h with ⟨hbindable, rfl⟩ | ⟨type, base, name, rfl⟩ | ⟨t, rfl⟩
    · refine iff_of_true hbindable ?_
      cases hbindable <;> trivial
    · exact Iff.rfl
    · -- the text may be that of a structure or the value of a member
      refine iff_of_true (.text t) ?_
      cases v with
      | member type base name value =>
        cases h
        exact .text t
      | _ => trivial
  · refine ⟨fun hagain => ?_, fun hbindable => hbindable.stored_eq arrays' column'⟩
    exact bindable_iff_isScalar.mpr ((stored_eq_self_iff hagain).mp rfl)
  · rcases stored_cases h with ⟨hbindable, rfl⟩ | hmember | ⟨t, rfl⟩
    · exact absurd hbindable hnot
    · exact hmember
    · exact absurd (.text t) hnot

/-- A member that is a whole number, and a set with a member in it for a column of arrays. -/
theorem bindable_stored_iff_of_scalars :
    (member "Limit" .integer "MAX" (int 10)).stored ["tags"] "tags" = .ok (int 10) ∧
    (int 10).Bindable ∧ (int 10).stored ["tags"] "tags" = .ok (int 10) ∧
    (set [member "Size" .plain "S" (list [])]).stored ["tags"] "tags" =
      .ok (text "\x7bSize.S\x7d") ∧
    (text "\x7bSize.S\x7d").stored ["tags"] "tags" = .ok (text "\x7bSize.S\x7d") := by
  have hmember : (member "Limit" .integer "MAX" (int 10)).stored ["tags"] "tags" =
      .ok (int 10) := rfl
  have hset : (set [member "Size" .plain "S" (list [])]).stored ["tags"] "tags" =
      .ok (text "\x7bSize.S\x7d") := by
    rfl
  -- what is stored is a scalar in both, so storing it again changes nothing
  obtain ⟨hnumber, hsame, -⟩ := bindable_stored_iff hmember
  obtain ⟨htext, hagain, -⟩ := bindable_stored_iff hset
  have hten : (int 10).Bindable := hnumber.mpr (.int 10)
  exact ⟨hmember, hten, (hsame _ _).mpr hten, hset, (hagain _ _).mpr (htext.mpr trivial)⟩

/-- **The value of a member reaches the driver as it is**: a list, which is no scalar and would be
stored as an array literal. -/
theorem not_bindable_of_sizes :
    (member "Sizes" .plain "ALL" (list [text "s", text "m"])).stored ["tags"] "tags" =
      .ok (list [text "s", text "m"]) ∧
    ¬ (list [text "s", text "m"]).Bindable ∧
    (list [text "s", text "m"]).stored ["tags"] "tags" = .ok (text "\x7bs,m\x7d") :=
  ⟨rfl, by decide, rfl⟩

end BoundSql.Value
