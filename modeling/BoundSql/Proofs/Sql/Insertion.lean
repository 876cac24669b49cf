import BoundSql.Proofs.Sql.Draft

/-!
# Insertions

The lexemes of an `INSERT` statement: the table, the columns between brackets, and tuples of
parameters between brackets, with commas between the items of each list. A list with commas is known
from its lexemes, whatever follows it, if its items are (`listed_append_injective`). So lexemes are
those of one insertion at most.

What a store takes is more than that. It wants a column and a tuple at least, columns with names, no
two alike, and a value for each of them in every tuple (`Insertion.WellFormed`).

* `Insertion.lexemes_injective` — an insertion is known from its lexemes;
* `Draft.Scans` — the lexemes of a draft, and `Draft.scans_commas`, those of drafts with commas;
* `Draft.numberTuples` — the parameters of tuples of values.
-/

namespace BoundSql.Sql

/-! ### Lists with commas -/

/-- The lexemes of items, each with a comma in front. -/
def commaLed (items : List (List Lexeme)) : List Lexeme := items.flatMap (.stray ',' :: ·)

/-- The lexemes of items with commas between them. -/
def listed : List (List Lexeme) → List Lexeme
  | [] => []
  | item :: items => item ++ commaLed items

section Listed

variable {α : Type} {f : α → List Lexeme}

/-- Items that are known from their lexemes, whatever follows. -/
def Known (f : α → List Lexeme) : Prop :=
  ∀ {a b : α} {x y : List Lexeme}, f a ++ x = f b ++ y → a = b ∧ x = y

theorem commaLed_append_injective (hknown : Known f) {as bs : List α} {x y : List Lexeme}
    (hx : x.head? ≠ some (.stray ',')) (hy : y.head? ≠ some (.stray ','))
    (h : commaLed (as.map f) ++ x = commaLed (bs.map f) ++ y) : as = bs ∧ x = y := by
  -- what follows the list has no comma in front, so both lists end together
  induction as generalizing bs with
  | nil =>
    cases bs with
    | nil => exact ⟨rfl, h⟩
    | cons b bs =>
      have hempty : x = commaLed ((b :: bs).map f) ++ y := h
      exact absurd (congrArg List.head? hempty) hx
  | cons a as ih =>
    cases bs with
    | nil =>
      have hempty : commaLed ((a :: as).map f) ++ x = y := h
      exact absurd (congrArg List.head? hempty.symm) hy
    | cons b bs =>
      have hbehind : f a ++ (commaLed (as.map f) ++ x) = f b ++ (commaLed (bs.map f) ++ y) := by
        simpa [commaLed] using h
      obtain ⟨rfl, hrest⟩ := hknown hbehind
      obtain ⟨rfl, rfl⟩ := ih hrest
      exact ⟨rfl, rfl⟩

/-- What can follow a list: neither a comma nor an item. -/
def Ends (f : α → List Lexeme) (ls : List Lexeme) : Prop :=
  ls.head? ≠ some (.stray ',') ∧ ∀ a, ls.head? ≠ (f a).head?

/-- **A list with commas** is known from its lexemes, and so is what follows it. -/
theorem listed_append_injective (hknown : Known f) (hne : ∀ a, f a ≠ []) {as bs : List α}
    {x y : List Lexeme} (hx : Ends f x) (hy : Ends f y)
    (h : listed (as.map f) ++ x = listed (bs.map f) ++ y) : as = bs ∧ x = y := by
  -- what a list that is not empty starts with is an item
  have hfirst : ∀ (a : α) (as : List α) (x : List Lexeme),
      (listed ((a :: as).map f) ++ x).head? = (f a).head? := by
    intro a as x
    obtain ⟨l, ls, hl⟩ := List.exists_cons_of_ne_nil (hne a)
    rw [List.map_cons, listed, hl]
    rfl
  cases as with
  | nil =>
    cases bs with
    | nil => exact ⟨rfl, h⟩
    | cons b bs => exact absurd ((congrArg List.head? h).trans (hfirst b bs y)) (hx.2 b)
  | cons a as =>
    cases bs with
    | nil => exact absurd ((congrArg List.head? h).symm.trans (hfirst a as x)) (hy.2 a)
    | cons b bs =>
      have hitems : f a ++ (commaLed (as.map f) ++ x) = f b ++ (commaLed (bs.map f) ++ y) := by
        simpa [listed] using h
      obtain ⟨rfl, hrest⟩ := hknown hitems
      obtain ⟨rfl, rfl⟩ := commaLed_append_injective hknown hx.1 hy.1 hrest
      exact ⟨rfl, rfl⟩

theorem parameters_listed (items : List (List Lexeme)) :
    parameters (listed items) = items.flatMap parameters := by
  -- a comma is no parameter
  have hled : ∀ items : List (List Lexeme),
      parameters (commaLed items) = items.flatMap parameters := by
    intro items
    induction items with
    | nil => rfl
    | cons item items ih =>
      show parameters ((.stray ',' :: item) ++ commaLed items) = _
      rw [parameters_append, ih]
      rfl
  cases items with
  | nil => rfl
  | cons item items =>
    rw [listed, parameters_append, hled]
    rfl

end Listed

/-! ### Insertions -/

/-- An `INSERT` statement: its table and columns, the numbers of the parameters of each tuple, and
whether it asks for the rows it makes. -/
structure Insertion where
  table : String
  columns : List String
  tuples : List (List Nat)
  returning : Bool

namespace Insertion

/-- The lexemes of a tuple. -/
def tupleLexemes (numbers : List Nat) : List Lexeme :=
  .opening :: (listed (numbers.map fun n => [.parameter (some n)]) ++ [.closing])

/-- The lexemes of the end of an insertion. -/
def returningLexemes (returning : Bool) : List Lexeme :=
  if returning then [.operator "RETURNING", .operator "*"] else []

/-- The lexemes of an insertion. -/
def lexemes (i : Insertion) : List Lexeme :=
  [.operator "INSERT", .operator "INTO", .name i.table, .opening] ++
    (listed (i.columns.map fun c => [.name c]) ++
      ([.closing, .operator "VALUES"] ++
        (listed (i.tuples.map tupleLexemes) ++ returningLexemes i.returning)))

/-- **What a store takes as an insertion.** -/
structure WellFormed (i : Insertion) : Prop where
  columns_ne_nil : i.columns ≠ []
  name_ne : ∀ c ∈ i.columns, c ≠ ""
  nodup : i.columns.Nodup
  tuples_ne_nil : i.tuples ≠ []
  width : ∀ numbers ∈ i.tuples, numbers.length = i.columns.length

theorem known_parameter : Known fun n : Nat => [Lexeme.parameter (some n)] := by
  intro a b x y h
  simpa using h

theorem known_name : Known fun c : String => [Lexeme.name c] := by
  intro a b x y h
  simpa using h

theorem known_tuple : Known tupleLexemes := by
  intro a b x y h
  have hends : ∀ ls, Ends (fun n : Nat => [Lexeme.parameter (some n)]) (.closing :: ls) :=
    fun ls => ⟨by simp, fun n => by simp⟩
  have hlists : listed (a.map fun n => [.parameter (some n)]) ++ .closing :: x =
      listed (b.map fun n => [.parameter (some n)]) ++ .closing :: y := by
    simpa [tupleLexemes] using h
  obtain ⟨rfl, hrest⟩ :=
    listed_append_injective known_parameter (by simp) (hends x) (hends y) hlists
  exact ⟨rfl, (List.cons.inj hrest).2⟩

/-- **An insertion is known from its lexemes.** -/
theorem lexemes_injective {i j : Insertion} (h : i.lexemes = j.lexemes) : i = j := by
  obtain ⟨table, columns, tuples, returning⟩ := i
  obtain ⟨table', columns', tuples', returning'⟩ := j
  -- what follows the tuples is neither a comma nor the beginning of another one
  have hends : ∀ returning, Ends tupleLexemes (returningLexemes returning) := by
    intro returning
    cases returning with
    | true => exact ⟨by simp [returningLexemes], fun a => by simp [returningLexemes, tupleLexemes]⟩
    | false => exact ⟨by simp [returningLexemes], fun a => by simp [returningLexemes, tupleLexemes]⟩
  -- the table is read first, then the columns up to their closing bracket, then the tuples
  obtain ⟨rfl, hcolumns⟩ : table = table' ∧
      listed (columns.map fun c => [.name c]) ++ ([.closing, .operator "VALUES"] ++
        (listed (tuples.map tupleLexemes) ++ returningLexemes returning)) =
      listed (columns'.map fun c => [.name c]) ++ ([.closing, .operator "VALUES"] ++
        (listed (tuples'.map tupleLexemes) ++ returningLexemes returning')) := by
    simpa [lexemes] using h
  obtain ⟨rfl, hvalues⟩ := listed_append_injective known_name (by simp)
    ⟨by simp, by simp⟩ ⟨by simp, by simp⟩ hcolumns
  have htuples := List.append_cancel_left hvalues
  obtain ⟨rfl, hreturning⟩ := listed_append_injective known_tuple (by simp [tupleLexemes])
    (hends returning) (hends returning') htuples
  cases returning <;> cases returning' <;> first | rfl | cases hreturning

theorem parameters_tuple (numbers : List Nat) :
    parameters (tupleLexemes numbers) = numbers.map some := by
  show parameters (_ ++ [.closing]) = _
  rw [parameters_append, parameters_listed, List.flatMap_map]
  simp [parameters, ← List.map_eq_flatMap]

/-- The placeholders of an insertion are those of its tuples. -/
theorem parameters_lexemes (i : Insertion) : parameters i.lexemes = i.tuples.flatten.map some := by
  have hreturning : parameters (returningLexemes i.returning) = [] := by
    cases i.returning <;> rfl
  -- columns and fixed words have no parameters, so all of them are in the tuples
  have hcolumns : parameters (listed (i.columns.map fun c => [.name c])) = [] := by
    rw [parameters_listed, List.flatMap_map]
    simp [parameters]
  have htuples : parameters (listed (i.tuples.map tupleLexemes)) = i.tuples.flatten.map some := by
    rw [parameters_listed, List.flatMap_map]
    simp [parameters_tuple, List.flatMap_def, List.map_flatten]
  rw [lexemes, parameters_append, parameters_append, parameters_append, parameters_append, hcolumns,
    htuples, hreturning]
  simp [parameters]

end Insertion

/-! ### The lexemes of drafts -/

namespace Draft

/-- **The lexemes of a draft** behind so many parameters, wherever a rest of the given kind
follows. -/
def Scans (style : PlaceholderStyle) (follows : List Char → Prop) (bound : Nat) (d : Draft)
    (ls : List Lexeme) : Prop :=
  ∀ rest, follows rest →
    scan .between ((text style bound d).toList ++ rest) =
      ls.map (Lexeme.shown style) ++ scan .between rest

variable {style : PlaceholderStyle} {follows : List Char → Prop} {bound : Nat}

theorem scans_nil : Scans style follows bound [] [] := fun _ _ => rfl

theorem scans_verbatim {s : String} {ls : List Lexeme}
    (h : ∀ rest, follows rest → scan .between (s.toList ++ rest) =
      ls.map (Lexeme.shown style) ++ scan .between rest) :
    Scans style follows bound [.verbatim s] ls := by
  intro rest hrest
  rw [text_verbatim_cons, text_nil, String.append_empty, h rest hrest]

/-- Drafts behind one another have the lexemes of both. -/
theorem Scans.append {before : List Char → Prop} {d e : Draft} {ls ms : List Lexeme}
    (hd : Scans style before bound d ls)
    (he : Scans style follows (bound + (values d).length) e ms)
    (h : ∀ rest, follows rest →
      before ((text style (bound + (values d).length) e).toList ++ rest)) :
    Scans style follows bound (d ++ e) (ls ++ ms) := by
  intro rest hrest
  rw [text_append, String.toList_append, List.append_assoc, hd _ (h _ hrest), he _ hrest,
    List.map_append, List.append_assoc]

/-- A text that is read as the given lexemes wherever it stands. -/
def Lexes (s : String) (ls : List Lexeme) : Prop :=
  ∀ style rest, scan .between (s.toList ++ rest) =
    ls.map (Lexeme.shown style) ++ scan .between rest

/-- Such a text can stand in front of any draft. -/
theorem Scans.verbatim_cons {s : String} {ls ms : List Lexeme} {d : Draft} (hs : Lexes s ls)
    (hd : Scans style follows bound d ms) :
    Scans style follows bound (.verbatim s :: d) (ls ++ ms) := by
  have hverbatim : Scans style (fun _ => True) bound [.verbatim s] ls :=
    scans_verbatim fun rest _ => hs style rest
  exact hverbatim.append hd fun _ _ => trivial

/-- Such a text can stand between drafts, if it may follow the first of them. -/
theorem Scans.append_verbatim {before : List Char → Prop} {d e : Draft} {s : String}
    {ls sign ms : List Lexeme} (hd : Scans style before bound d ls)
    (hbefore : ∀ rest, before (s.toList ++ rest)) (hs : Lexes s sign)
    (he : Scans style follows (bound + (values d).length) e ms) :
    Scans style follows bound (d ++ .verbatim s :: e) (ls ++ (sign ++ ms)) := by
  refine hd.append (he.verbatim_cons hs) fun rest _ => ?_
  rw [text_verbatim_cons, String.toList_append, List.append_assoc]
  exact hbefore _

/-- Drafts with a blank between them have the lexemes of both. -/
theorem Scans.append_blank {d e : Draft} {ls ms : List Lexeme} (hd : Scans style Clear bound d ls)
    (he : Scans style follows (bound + (values d).length) e ms) :
    Scans style follows bound (d ++ .verbatim " " :: e) (ls ++ ms) := by
  have hblank : Lexes " " [] := fun _ _ => rfl
  have hclear : ∀ rest, Clear (" ".toList ++ rest) := clear_blank
  exact hd.append_verbatim hclear hblank he

theorem scans_name (s : String) : Scans style Breaks bound [.verbatim (Ident.quote s)] [.name s] :=
  scans_verbatim fun _ hrest => scan_name s hrest.head_ne

/-- A value in its place is the next parameter. -/
theorem scans_bound (v : Value) :
    Scans style Breaks bound [.bound v] [.parameter (some (bound + 1))] := by
  intro rest hrest
  have hdigit : ∀ c ∈ rest.head?, c.isDigit = false := by
    intro c hc
    rcases hrest c hc with rfl | rfl | rfl <;> rfl
  rw [text_bound_cons, text_nil, String.append_empty, scan_placeholder style _ hdigit]
  rfl

section Commas

variable {α : Type} {f : α → Draft} {g : Nat → α → List Lexeme}

/-- The lexemes of drafts, each behind the parameters of those before it. -/
def lexemesFrom (f : α → Draft) (g : Nat → α → List Lexeme) (bound : Nat) :
    List α → List (List Lexeme)
  | [] => []
  | a :: as => g bound a :: lexemesFrom f g (bound + (values (f a)).length) as

/-- **Drafts divided by commas** are read as a list with commas. -/
theorem scans_commas (h : ∀ bound a, Scans style Breaks bound (f a) (g bound a)) (bound : Nat)
    (as : List α) :
    Scans style Breaks bound (commas (as.map f)) (listed (lexemesFrom f g bound as)) := by
  induction as generalizing bound with
  | nil => exact scans_nil
  | cons a as ih =>
    have ha := h bound a
    cases as with
    | nil =>
      have hone : listed (lexemesFrom f g bound [a]) = g bound a := List.append_nil _
      rw [hone]
      exact ha
    | cons b bs =>
      -- behind the first item stands a comma and then the list of the others
      have hcomma : Lexes "," [.stray ','] := fun _ _ => rfl
      have hlist := ha.append_verbatim breaks_comma hcomma (ih (bound + (values (f a)).length))
      exact hlist

end Commas

/-! ### Tuples -/

/-- The numbers of the parameters of tuples of values, behind so many others. -/
def numberTuples (bound : Nat) : List (List Value) → List (List Nat)
  | [] => []
  | vs :: rows => List.range' (bound + 1) vs.length :: numberTuples (bound + vs.length) rows

/-- Tuples of values are numbered without a gap. -/
theorem flatten_numberTuples (bound : Nat) (rows : List (List Value)) :
    (numberTuples bound rows).flatten = List.range' (bound + 1) rows.flatten.length := by
  induction rows generalizing bound with
  | nil => rfl
  | cons vs rows ih =>
    have hstart : bound + vs.length + 1 = bound + 1 + vs.length := by omega
    rw [numberTuples, List.flatten_cons, ih, hstart, List.range'_append_1, List.flatten_cons,
      List.length_append]

/-- Tuples of values have as many parameters as values. -/
theorem map_length_numberTuples (bound : Nat) (rows : List (List Value)) :
    (numberTuples bound rows).map List.length = rows.map List.length := by
  induction rows generalizing bound with
  | nil => rfl
  | cons vs rows ih => rw [numberTuples, List.map_cons, ih, List.length_range', List.map_cons]

end Draft

end BoundSql.Sql
