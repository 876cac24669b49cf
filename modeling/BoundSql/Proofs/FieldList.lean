import BoundSql.FieldList
import BoundSql.Proofs.Sql.Draft

/-!
# Field lists read back

A field list is made for a statement written by hand, where it stands between texts that nobody has
checked. By the lexical rules of SQL it is a list of items with commas between them: each comma
outside quotes divides two items, and an item is a column of a table or a string
(`FieldList.read`). What stands inside quotes never counts, whatever characters it is made of: the
quote that would end it is doubled there.

An item is written in one way (`Item.sql`), so field lists are read back as what they were made of.

* `Item.scan_sql` — the lexemes of one item, in front of anything that may follow it;
* `scan_items` — the lexemes of items with commas between them;
* `read_items` — items with commas between them are read as these items;
* `read_select_and_pairs` — both kinds of field lists, for any table, other name and fields.
-/

namespace BoundSql.FieldList

open Sql Draft

/-- **An item of a field list**: a column of a table, or a string. -/
inductive Item where
  | column (table name : String)
  | string (s : String)
deriving DecidableEq

namespace Item

/-- An item in SQL. -/
def sql : Item → String
  | column table name => Ident.quote table ++ "." ++ Ident.quote name
  | string s => FieldList.string s

/-- The lexemes of an item. -/
def lexemes : Item → List Lexeme
  | column table name => [.name table, .dot, .name name]
  | string s => [.string s]

/-- The item that has the given lexemes, if there is one. -/
def ofLexemes? : List Lexeme → Option Item
  | [.name table, .dot, .name name] => some (column table name)
  | [.string s] => some (string s)
  | _ => none

@[simp] theorem ofLexemes?_lexemes (i : Item) : ofLexemes? i.lexemes = some i := by
  cases i <;> rfl

/-- No comma is among the lexemes of an item: those of its texts are inside quotes. -/
theorem comma_not_mem_lexemes (i : Item) : .stray ',' ∉ i.lexemes := by
  cases i <;> simp [lexemes]

/-- **One item is read as its lexemes**, in front of anything that may follow it. -/
theorem scan_sql (i : Item) {rest : List Char} (h : Breaks rest) :
    scan .between (i.sql.toList ++ rest) = i.lexemes ++ scan .between rest := by
  cases i with
  | column table name =>
    have hchars : (column table name).sql.toList ++ rest =
        (Ident.quote table).toList ++ '.' :: ((Ident.quote name).toList ++ rest) := by
      simp [sql, String.toList_append]
    have hdot : ('.' :: ((Ident.quote name).toList ++ rest)).head? ≠ some '"' := by simp
    rw [hchars, scan_name table hdot, scan_dot, scan_name name h.head_ne]
    rfl
  | string s =>
    -- a single quote right behind the string would double the one that ends it
    have hquote : rest.head? ≠ some '\'' := by
      intro hhead
      rcases h '\'' hhead with h | h | h <;> exact absurd h (by decide)
    exact scan_string s hquote

end Item

/-- What stands between the commas that are lexemes; nothing stands in an empty list. -/
def betweenCommas (ls : List Lexeme) : List (List Lexeme) :=
  if ls = [] then [] else ls.splitOn (.stray ',')

/-- **The items of a text**, each of them if it is one, by the lexical rules of SQL. -/
def read (text : String) : List (Option Item) :=
  (betweenCommas (scan .between text.toList)).map Item.ofLexemes?

example : read "\"a,b\".\"c\",'it''s',x" =
    [some (.column "a,b" "c"), some (.string "it's"), none] := by
  decide +kernel

/-- **Items with commas between them** are read as their lexemes with commas between them. -/
theorem scan_items (items : List Item) {rest : List Char} (h : Breaks rest) :
    scan .between ((",".intercalate (items.map Item.sql)).toList ++ rest) =
      [.stray ','].intercalate (items.map Item.lexemes) ++ scan .between rest := by
  induction items with
  | nil => rfl
  | cons i items ih =>
    cases items with
    | nil =>
      simp only [List.map_cons, List.map_nil, String.intercalate_singleton,
        List.intercalate_singleton]
      exact i.scan_sql h
    | cons j items =>
      -- behind the first item stands a comma, and behind that the list of the others
      have hchars : (",".intercalate ((i :: j :: items).map Item.sql)).toList ++ rest =
          i.sql.toList ++ (",".toList ++
            ((",".intercalate ((j :: items).map Item.sql)).toList ++ rest)) := by
        simp [String.intercalate_cons_cons, String.toList_append]
      have hcomma : ∀ cs, scan .between (",".toList ++ cs) = .stray ',' :: scan .between cs :=
        fun _ => rfl
      rw [hchars, i.scan_sql (breaks_comma _), hcomma, ih]
      simp [List.intercalate_cons_cons]

/-- **Items with commas between them are read as these items**, no more and no less of them. -/
theorem read_items (items : List Item) :
    read (",".intercalate (items.map Item.sql)) = items.map some := by
  have hscan : scan .between (",".intercalate (items.map Item.sql)).toList =
      [.stray ','].intercalate (items.map Item.lexemes) := by
    have hnothing : Breaks [] := fun c hc => nomatch hc
    have hbehind := scan_items items hnothing
    rwa [List.append_nil, show scan .between [] = [] from rfl, List.append_nil] at hbehind
  have hsplit : betweenCommas ([.stray ','].intercalate (items.map Item.lexemes)) =
      items.map Item.lexemes := by
    cases items with
    -- no items make an empty text, which is not one empty item between no commas
    | nil => rfl
    | cons i items =>
      have hne : [Lexeme.stray ','].intercalate ((i :: items).map Item.lexemes) ≠ [] := by
        cases i <;> cases items <;> simp [Item.lexemes, List.intercalate]
      rw [betweenCommas, if_neg hne]
      refine List.splitOn_intercalate _ (fun ls hls => ?_) (by simp)
      obtain ⟨k, -, rfl⟩ := List.mem_map.mp hls
      exact k.comma_not_mem_lexemes
  rw [read, hscan, hsplit, List.map_map]
  exact List.map_congr_left fun i _ => i.ofLexemes?_lexemes

/-! ### Field lists -/

/-- The name that is given, unless it is empty, or else the table. -/
theorem sourceOf_eq (table : String) (name : Option String) :
    sourceOf table name = (name.filter (· ≠ "")).getD table := by
  cases name with
  | none => rfl
  | some n => by_cases h : n = "" <;> simp [sourceOf, Option.filter, h]

/-- The item that a field is selected by. -/
def selected (source field : String) : Item := .column source (Ident.snakeCase field)

/-- **Field lists read back.** For any table, any other name for it and any fields, whatever
characters these are made of:

* a projection is read as one column for each field, in order: that of the field in snake case, of
  the other name or, if that is missing or empty, of the table;
* a list of pairs is read as two items for each field, in order: the field itself as a string, and
  the same column.
-/
theorem read_select_and_pairs (table : String) (name : Option String) (fields : List String) :
    let source := (name.filter (· ≠ "")).getD table
    read (select table name fields) =
      fields.map (fun f => some (.column source (Ident.snakeCase f))) ∧
    read (pairs table name fields) =
      fields.flatMap (fun f => [some (.string f), some (.column source (Ident.snakeCase f))]) := by
  intro source
  have hsource : sourceOf table name = source := sourceOf_eq table name
  -- both lists are items joined by commas, so one reading lemma serves them
  have hselect : select table name fields =
      ",".intercalate ((fields.map (selected source)).map Item.sql) := by
    rw [select, List.map_map, ← hsource]
    rfl
  have hpairs : pairs table name fields =
      ",".intercalate ((fields.flatMap fun f => [.string f, selected source f]).map Item.sql) := by
    rw [pairs, List.map_flatMap, ← hsource]
    rfl
  constructor
  · rw [hselect, read_items, List.map_map]
    rfl
  · rw [hpairs, read_items, List.map_flatMap]
    rfl

end BoundSql.FieldList
