import BoundSql.Column
import BoundSql.Proofs.Ident.SnakeCase

/-!
# Field paths

A path is cut at its dots. What is in front of the first one is the table, and what is behind the
last one the field; whatever stands between them has no part in the column. So a path stands for a
column with a name exactly if a letter or digit is left behind its last dot.

* `Path.split_dotted`, `Path.split_of_no_dot` — a path with a dot and one without;
* `Path.eq_field_or_dotted`, `Path.suffix_field` — what the field of a path is;
* `Path.NamesColumn` — a path with a name for its column, and `Path.snakeCase_field_eq_empty`, where
  nothing is left of the name.
-/

namespace BoundSql

/-- Nothing is left of a name without its final `s` if there is no more to it. -/
theorem singular_eq_empty_iff {name : String} : singular name = "" ↔ name = "" ∨ name = "s" := by
  rw [singular]
  -- the name has an `s` at its end, or is left as it is
  split
  · rename_i rest hchars
    have hname : name = String.ofList (rest.reverse ++ ['s']) := by
      apply String.toList_inj.mp
      rw [← List.reverse_inj, hchars]
      simp
    rw [hname, ← String.toList_inj, ← String.toList_inj, ← String.toList_inj]
    simp
  · rename_i hother
    have hs : name ≠ "s" := by
      rintro rfl
      exact hother [] rfl
    simp [hs]

/-- **A column is written with a table in front** exactly if that qualifies it. -/
theorem Column.sql_eq_iff {c : Column} {table : String} :
    c.sql = Ident.quote table ++ "." ++ Ident.quote c.name ↔ c.qualifier = some table := by
  rw [sql]
  cases hqualifier : c.qualifier with
  | none =>
    -- without a qualifier the column is shorter
    refine iff_of_false (fun h => ?_) (by simp)
    have hlength := congrArg String.length h
    simp at hlength
  | some t =>
    have hquote : Ident.quote t = Ident.quote table ↔ t = table :=
      ⟨fun h => Ident.quote_injective h, congrArg _⟩
    simp [hquote]

namespace Path

open Text

/-! ### Segments -/

/-- A path without dots is one segment. -/
theorem segments_of_no_dot {path : String} (h : '.' ∉ path.toList) : segments path = [path] := by
  have hdot : ∀ c ∈ path.toList, (c == '.') = false := fun c hc =>
    beq_false_of_ne (ne_of_mem_of_not_mem hc h)
  rw [segments, splitBy_of_none hdot, List.map_singleton, String.ofList_toList]

/-- **A dot** ends the segments in front of it. -/
theorem segments_dotted (front rest : String) :
    segments (front ++ "." ++ rest) = segments front ++ segments rest := by
  have hchars : (front ++ "." ++ rest).toList = front.toList ++ '.' :: rest.toList := by
    simp
  rw [segments, hchars, splitBy_append_separator rfl, List.map_append]
  rfl

theorem segments_ne_nil (path : String) : segments path ≠ [] :=
  fun h => splitBy_ne_nil _ _ (List.map_eq_nil_iff.mp h)

/-! ### Fields and tables -/

theorem field_of_no_dot {path : String} (h : '.' ∉ path.toList) : field path = path := by
  rw [field, segments_of_no_dot h]
  rfl

/-- The field is looked for behind every dot. -/
theorem field_dotted (front rest : String) : field (front ++ "." ++ rest) = field rest := by
  rw [field, segments_dotted, List.getLast?_append_of_ne_nil _ (segments_ne_nil rest)]
  rfl

/-- **A path without dots** is a field of no table. -/
theorem split_of_no_dot {path : String} (h : '.' ∉ path.toList) (aliases : Aliases) :
    split path aliases = (none, path) := by
  rw [split, table, field_of_no_dot h, segments_of_no_dot h]

/-- **A path with a dot** has the table of what is in front of the first one. -/
theorem split_dotted {first : String} (h : '.' ∉ first.toList) (rest : String)
    (aliases : Aliases) :
    split (first ++ "." ++ rest) aliases = (some (tableOf aliases first), field rest) := by
  obtain ⟨next, more, hrest⟩ := List.exists_cons_of_ne_nil (segments_ne_nil rest)
  rw [split, table, field_dotted, segments_dotted, segments_of_no_dot h, hrest]
  rfl

/-- **A table is lost** only where no alias is given for it and nothing is left without its final
`s`. -/
theorem tableOf_eq_empty_iff {aliases : Aliases} (htargets : ∀ a ∈ aliases, a.2 ≠ "")
    {first : String} (hfirst : first ≠ "") :
    tableOf aliases first = "" ↔ aliases.find? first = none ∧ first = "s" := by
  cases htarget : aliases.find? first with
  | none =>
    have htable : tableOf aliases first = singular first := by
      rw [tableOf, htarget]
      rfl
    rw [htable, singular_eq_empty_iff]
    simp [hfirst]
  | some target =>
    -- an alias is never empty, so no table is lost with one
    obtain ⟨a, ha, rfl⟩ := Option.map_eq_some_iff.mp htarget
    have hmem : a ∈ aliases := List.mem_reverse.mp (List.mem_of_find?_eq_some ha)
    have htable : tableOf aliases first = a.2 := by
      rw [tableOf, htarget]
      rfl
    rw [htable]
    simp [htargets a hmem]

/-! ### Paths that name a column -/

/-- A path that is dotted has a last dot. -/
theorem exists_last_dot {path : String} (h : '.' ∈ path.toList) :
    ∃ front rest, path = front ++ "." ++ rest ∧ '.' ∉ rest.toList := by
  obtain ⟨back, front, hpath, hback⟩ :=
    List.eq_append_cons_of_mem (List.mem_reverse.mpr h)
  refine ⟨String.ofList front.reverse, String.ofList back.reverse, ?_, by simpa using hback⟩
  apply String.toList_inj.mp
  rw [← List.reverse_inj, hpath]
  simp

/-- **The field of a path** is what is behind its last dot, or all of it. -/
theorem eq_field_or_dotted (path : String) :
    '.' ∉ (field path).toList ∧
      (path = field path ∨ ∃ front, path = front ++ "." ++ field path) := by
  by_cases hdot : '.' ∈ path.toList
  · obtain ⟨front, rest, rfl, hrest⟩ := exists_last_dot hdot
    rw [field_dotted, field_of_no_dot hrest]
    exact ⟨hrest, .inr ⟨front, rfl⟩⟩
  · rw [field_of_no_dot hdot]
    exact ⟨hdot, .inl rfl⟩

theorem field_suffix (path : String) : (field path).toList <:+ path.toList := by
  obtain ⟨-, hpath | ⟨front, hpath⟩⟩ := eq_field_or_dotted path
  · exact ⟨[], congrArg String.toList hpath.symm⟩
  · have hchars := congrArg String.toList hpath
    rw [String.toList_append] at hchars
    exact ⟨_, hchars.symm⟩

/-- What stands at the end of a path without a dot in it belongs to the field. -/
theorem suffix_field {path : String} {back : List Char} (h : back <:+ path.toList)
    (hdot : '.' ∉ back) : back <:+ (field path).toList := by
  obtain ⟨-, hpath | ⟨front, hpath⟩⟩ := eq_field_or_dotted path
  · rw [← hpath]
    exact h
  · have hdotted : '.' :: (field path).toList <:+ path.toList := by
      have hchars := congrArg String.toList hpath
      exact ⟨front.toList, by simpa using hchars.symm⟩
    -- of two ends of one text, one is an end of the other
    rcases List.suffix_or_suffix_of_suffix h hdotted with hback | hback
    · rcases List.suffix_cons_iff.mp hback with rfl | hback
      · exact absurd List.mem_cons_self hdot
      · exact hback
    · exact absurd (hback.subset List.mem_cons_self) hdot

/-- **A path that names a column**: it has an ASCII letter or digit with no dot behind it. -/
def NamesColumn (path : String) : Prop :=
  ∃ front c back, path.toList = front ++ c :: back ∧ c.isAlphanum = true ∧ '.' ∉ back

/-- A path names a column exactly if its field has a letter or digit. -/
theorem namesColumn_iff {path : String} :
    NamesColumn path ↔ ∃ c ∈ (field path).toList, c.isAlphanum = true := by
  constructor
  · rintro ⟨front, c, back, hchars, hc, hback⟩
    -- nothing from the letter on is a dot, so all of it belongs to the field
    have hdot : '.' ∉ c :: back := by
      intro hmem
      rcases List.mem_cons.mp hmem with rfl | hmem
      · cases hc
      · exact hback hmem
    exact ⟨c, (suffix_field ⟨front, hchars.symm⟩ hdot).subset List.mem_cons_self, hc⟩
  · rintro ⟨c, hmem, hc⟩
    obtain ⟨front, back, hfield⟩ := List.append_of_mem hmem
    obtain ⟨table, hpath⟩ := field_suffix path
    have hback : '.' ∉ back := fun hdot =>
      (eq_field_or_dotted path).1 (hfield ▸ List.mem_append_right _ (List.mem_cons_of_mem _ hdot))
    refine ⟨table ++ front, c, back, ?_, hc, hback⟩
    rw [← hpath, hfield, List.append_assoc]

/-- **A path that names no column** has nothing left of its field. -/
theorem snakeCase_field_eq_empty {path : String} :
    Ident.snakeCase (field path) = "" ↔ ¬ NamesColumn path := by
  rw [Ident.snakeCase_eq_empty_iff, namesColumn_iff]
  simp

instance : DecidablePred NamesColumn := fun path =>
  decidable_of_iff ((field path).toList.any Char.isAlphanum = true) (by
    rw [namesColumn_iff, List.any_eq_true])

end Path

end BoundSql
