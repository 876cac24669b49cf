import BoundSql.Proofs.Sql.Lexeme

/-!
# Drafts of statements

A draft is a statement with the values still in place. Numbering it from left to right, behind the
parameters that are bound before it, leaves placeholders where the values were. So the values of a
draft, in order, are what its placeholders stand for.

* `Sql.Draft.numbers_numbered` — the placeholders are numbered without a gap;
* `Sql.Draft.text_append`, `Sql.Draft.text_divided`, `Sql.Draft.text_sentence` — drafts behind one
  another;
* `Sql.Draft.Reads` — a draft whose text, read by the lexical rules of SQL, shows its placeholders
  and no others; it is kept by putting drafts behind one another.
-/

namespace BoundSql.Sql

/-- A part of a draft: text, or a value in its place. -/
inductive Draft.Part where
  | verbatim (s : String)
  | bound (v : Value)

/-- The value of a part. -/
def Draft.Part.value? : Draft.Part → Option Value
  | verbatim _ => none
  | bound v => some v

/-- A statement with the values in place. -/
abbrev Draft := List Draft.Part

namespace Draft

/-- The values of a draft, from left to right. -/
def values (d : Draft) : List Value := d.filterMap Draft.Part.value?

/-- A draft with placeholders for its values, behind so many parameters. -/
def numbered (bound : Nat) : Draft → List Piece
  | [] => []
  | .verbatim s :: d => .verbatim s :: numbered bound d
  | .bound _ :: d => .parameter (bound + 1) :: numbered (bound + 1) d

/-- The text of a draft, behind so many parameters. -/
def text (style : PlaceholderStyle) (bound : Nat) (d : Draft) : String :=
  write style (numbered bound d)

@[simp] theorem values_nil : values [] = [] := rfl

@[simp] theorem values_verbatim_cons (s : String) (d : Draft) :
    values (.verbatim s :: d) = values d := rfl

@[simp] theorem values_bound_cons (v : Value) (d : Draft) :
    values (.bound v :: d) = v :: values d := rfl

theorem values_append (d e : Draft) : values (d ++ e) = values d ++ values e :=
  List.filterMap_append

/-- Drafts behind others are numbered on from them. -/
theorem numbered_append (bound : Nat) (d e : Draft) :
    numbered bound (d ++ e) = numbered bound d ++ numbered (bound + (values d).length) e := by
  induction d generalizing bound with
  | nil => rfl
  | cons p d ih =>
    cases p with
    | verbatim s => exact congrArg (.verbatim s :: ·) (ih bound)
    | bound v =>
      -- a value in front moves the numbers behind it up by one
      have hcount : bound + (values (.bound v :: d)).length = bound + 1 + (values d).length := by
        show bound + (values d).length.succ = _
        omega
      rw [hcount]
      exact congrArg (.parameter (bound + 1) :: ·) (ih (bound + 1))

theorem eq_nil_of_numbered {bound : Nat} {d : Draft} (h : numbered bound d = []) : d = [] := by
  cases d with
  | nil => rfl
  | cons p d => cases p <;> cases h

/-- **The placeholders of a draft** are numbered without a gap, one for each value. -/
theorem numbers_numbered (bound : Nat) (d : Draft) :
    numbers (numbered bound d) = List.range' (bound + 1) (values d).length := by
  induction d generalizing bound with
  | nil => rfl
  | cons p d ih =>
    cases p with
    | verbatim s => exact ih bound
    | bound v => exact congrArg ((bound + 1) :: ·) (ih (bound + 1))

section Text

variable (style : PlaceholderStyle) (bound : Nat)

@[simp] theorem text_nil : text style bound [] = "" := rfl

@[simp] theorem text_verbatim_cons (s : String) (d : Draft) :
    text style bound (.verbatim s :: d) = s ++ text style bound d := rfl

@[simp] theorem text_bound_cons (v : Value) (d : Draft) :
    text style bound (.bound v :: d) =
      style.placeholder (bound + 1 : Nat) ++ text style (bound + 1) d := rfl

theorem text_append (d e : Draft) :
    text style bound (d ++ e) =
      text style bound d ++ text style (bound + (values d).length) e := by
  rw [text, numbered_append, write_append]
  rfl

/-- The texts of drafts, each numbered on from those before it. -/
def texts : Nat → List Draft → List String
  | _, [] => []
  | bound, d :: ds => text style bound d :: texts (bound + (values d).length) ds

/-- Drafts with a text between each and the next. -/
def divided (sep : String) : List Draft → Draft
  | [] => []
  | [d] => d
  | d :: ds => d ++ .verbatim sep :: divided sep ds

/-- Drafts divided by commas. -/
def commas (ds : List Draft) : Draft := divided "," ds

theorem divided_cons_cons (sep : String) (d e : Draft) (es : List Draft) :
    divided sep (d :: e :: es) = d ++ .verbatim sep :: divided sep (e :: es) := rfl

/-- **Divided by a text**, drafts have their texts divided by it. -/
theorem text_divided (sep : String) (ds : List Draft) :
    text style bound (divided sep ds) = sep.intercalate (texts style bound ds) := by
  induction ds generalizing bound with
  | nil => rfl
  | cons d ds ih =>
    cases ds with
    | nil => exact String.intercalate_singleton.symm
    | cons e es =>
      -- what comes next is numbered behind the values of the first draft
      let next := bound + (values d).length
      calc
        text style bound (divided sep (d :: e :: es)) =
            text style bound d ++ (sep ++ text style next (divided sep (e :: es))) := by
          rw [divided_cons_cons, text_append, text_verbatim_cons]
        _ = text style bound d ++ sep ++ sep.intercalate (texts style next (e :: es)) := by
          rw [ih, String.append_assoc]
        _ = sep.intercalate (text style bound d :: texts style next (e :: es)) :=
          String.intercalate_cons_cons.symm

theorem values_divided (sep : String) (ds : List Draft) :
    values (divided sep ds) = ds.flatMap values := by
  induction ds with
  | nil => rfl
  | cons d ds ih =>
    cases ds with
    | nil => simp [divided]
    | cons e es =>
      rw [divided_cons_cons, values_append, List.flatMap_cons, ← ih]
      rfl

end Text

/-! ### Sentences -/

/-- Drafts that are not empty, divided by blanks. -/
def sentence (ds : List Draft) : Draft := divided " " (ds.filter fun d => !d.isEmpty)

theorem values_sentence (ds : List Draft) : values (sentence ds) = ds.flatMap values := by
  rw [sentence, values_divided]
  induction ds with
  | nil => rfl
  | cons d ds ih =>
    cases d with
    | nil => exact ih
    | cons p d => exact congrArg (values (p :: d) ++ ·) ih

/-- Whether a draft shows something unless it is empty. -/
def Shown (d : Draft) : Prop := ∀ style bound, text style bound d = "" → d = []

theorem shown_nil : Shown [] := fun _ _ _ => rfl

theorem shown_verbatim_cons {s : String} (hs : s ≠ "") (d : Draft) : Shown (.verbatim s :: d) := by
  intro style bound h
  rw [text_verbatim_cons] at h
  exact absurd (String.append_eq_empty_iff.mp h).1 hs

/-- Drafts that show something are those whose texts are not empty. -/
theorem texts_filter (style : PlaceholderStyle) (bound : Nat) {ds : List Draft}
    (h : ∀ d ∈ ds, Shown d) :
    texts style bound (ds.filter fun d => !d.isEmpty) =
      (texts style bound ds).filter fun s => !s.isEmpty := by
  induction ds generalizing bound with
  | nil => rfl
  | cons d ds ih =>
    have hds := fun bound => ih bound fun e he => h e (List.mem_cons_of_mem d he)
    cases d with
    | nil => exact hds bound
    | cons p d =>
      -- a draft with a part has a text, as it shows something
      have hne : text style bound (p :: d) ≠ "" := fun hempty =>
        absurd (h _ List.mem_cons_self style bound hempty) (List.cons_ne_nil p d)
      have hshown : (!(text style bound (p :: d)).isEmpty) = true := by simpa using hne
      rw [List.filter_cons_of_pos rfl, texts, texts, hds, List.filter_cons, if_pos hshown]

/-- **A sentence of drafts** has their texts, where these are not empty, divided by blanks. -/
theorem text_sentence (style : PlaceholderStyle) (bound : Nat) {ds : List Draft}
    (h : ∀ d ∈ ds, Shown d) :
    text style bound (sentence ds) =
      " ".intercalate ((texts style bound ds).filter fun s => !s.isEmpty) := by
  rw [sentence, text_divided, texts_filter style bound h]

/-! ### Reading drafts -/

/-- What may follow a part of a list: a blank, a comma, a closing bracket, or nothing. -/
def Breaks (rest : List Char) : Prop := ∀ c ∈ rest.head?, c = ' ' ∨ c = ',' ∨ c = ')'

/-- Placeholders as a style shows them: so many, behind so many others. -/
def placeholders (style : PlaceholderStyle) (bound count : Nat) : List (Option Nat) :=
  (List.range' (bound + 1) count).map fun i => if style.isNumbered then some i else none

theorem placeholders_add (style : PlaceholderStyle) (bound m n : Nat) :
    placeholders style bound (m + n) =
      placeholders style bound m ++ placeholders style (bound + m) n := by
  rw [placeholders, ← List.range'_append_1, List.map_append]
  have hstart : bound + 1 + m = bound + m + 1 := by omega
  rw [hstart]
  rfl

/-- A style shows the numbers of placeholders or hides them all. -/
theorem parameters_shown (style : PlaceholderStyle) (ls : List Lexeme) :
    parameters (ls.map (Lexeme.shown style)) =
      (parameters ls).map fun n => if style.isNumbered then n else none := by
  induction ls with
  | nil => rfl
  | cons l ls ih =>
    cases l with
    | parameter n => exact congrArg (_ :: ·) ih
    | _ => exact ih

/-- **A draft that shows its placeholders.** Read by the lexical rules of SQL, wherever a rest of
the given kind follows, its text has the placeholders of its values and no others. -/
def Reads (style : PlaceholderStyle) (follows : List Char → Prop) (d : Draft) : Prop :=
  ∀ bound rest, follows rest →
    parameters (scan .between ((text style bound d).toList ++ rest)) =
      placeholders style bound (values d).length ++ parameters (scan .between rest)

/-- A text that shows no placeholders, wherever a rest of the given kind follows. -/
def Silent (follows : List Char → Prop) (s : String) : Prop :=
  ∀ rest, follows rest →
    parameters (scan .between (s.toList ++ rest)) = parameters (scan .between rest)

variable {style : PlaceholderStyle} {follows : List Char → Prop}

theorem reads_nil : Reads style follows [] := fun _ _ _ => rfl

/-- Drafts behind one another show the placeholders of both. -/
theorem Reads.append {before : List Char → Prop} {d e : Draft} (hd : Reads style before d)
    (he : Reads style follows e)
    (h : ∀ bound rest, follows rest → before ((text style bound e).toList ++ rest)) :
    Reads style follows (d ++ e) := by
  intro bound rest hrest
  rw [text_append, String.toList_append, List.append_assoc, hd _ _ (h _ _ hrest), he _ _ hrest,
    values_append, List.length_append, placeholders_add, List.append_assoc]

theorem reads_verbatim {s : String} (h : Silent follows s) : Reads style follows [.verbatim s] := by
  intro bound rest hrest
  rw [text_verbatim_cons, text_nil, String.append_empty, h rest hrest]
  rfl

/-- Text that is silent wherever it stands can be put in front of any draft. -/
theorem Reads.verbatim_cons {s : String} (hs : Silent (fun _ => True) s) {d : Draft}
    (hd : Reads style follows d) : Reads style follows (.verbatim s :: d) :=
  (reads_verbatim hs).append hd fun _ _ _ => trivial

/-- Text that may follow a draft, and is silent wherever it stands, can be put behind it. -/
theorem Reads.append_verbatim {before : List Char → Prop} {d e : Draft} {s : String}
    (hd : Reads style before d) (hbefore : ∀ rest, before (s.toList ++ rest))
    (hs : Silent (fun _ => True) s) (he : Reads style follows e) :
    Reads style follows (d ++ .verbatim s :: e) := by
  refine hd.append (he.verbatim_cons hs) fun bound rest _ => ?_
  rw [text_verbatim_cons, String.toList_append, List.append_assoc]
  exact hbefore _

/-- A value in its place is read as one placeholder. -/
theorem reads_bound (v : Value) : Reads style Breaks [.bound v] := by
  intro bound rest hrest
  have hdigit : ∀ c ∈ rest.head?, c.isDigit = false := by
    intro c hc
    rcases hrest c hc with rfl | rfl | rfl <;> rfl
  rw [text_bound_cons, text_nil, String.append_empty, scan_placeholder style _ hdigit]
  rfl

theorem Breaks.of_clear {rest : List Char} (h : Clear rest) : Breaks rest :=
  fun c hc => .inl (h c hc)

/-- What may follow can be less. -/
theorem Reads.mono {before : List Char → Prop} {d : Draft} (hd : Reads style before d)
    (h : ∀ rest, follows rest → before rest) : Reads style follows d :=
  fun bound rest hrest => hd bound rest (h rest hrest)

/-- **Drafts divided by a text** that may follow each of them show the placeholders of all. -/
theorem reads_divided {sep : String} (hsep : Silent (fun _ => True) sep)
    (hfollows : ∀ rest, follows (sep.toList ++ rest)) {ds : List Draft}
    (h : ∀ d ∈ ds, Reads style follows d) : Reads style follows (divided sep ds) := by
  induction ds with
  | nil => exact reads_nil
  | cons d ds ih =>
    have hd := h d List.mem_cons_self
    have hds := ih fun e he => h e (List.mem_cons_of_mem d he)
    cases ds with
    | nil => exact hd
    | cons e es => exact hd.append_verbatim hfollows hsep hds

theorem breaks_comma (rest : List Char) : Breaks (",".toList ++ rest) :=
  fun _ hc => .inr (.inl (Option.some.inj hc).symm)

theorem breaks_closing (rest : List Char) : Breaks (")".toList ++ rest) :=
  fun _ hc => .inr (.inr (Option.some.inj hc).symm)

theorem reads_commas {ds : List Draft} (h : ∀ d ∈ ds, Reads style Breaks d) :
    Reads style Breaks (commas ds) :=
  reads_divided (fun _ _ => rfl) breaks_comma h

theorem reads_sentence {ds : List Draft} (h : ∀ d ∈ ds, Reads style Clear d) :
    Reads style Clear (sentence ds) :=
  reads_divided (fun _ _ => rfl) clear_blank fun d hd => h d (List.mem_filter.mp hd).1

theorem Breaks.head_ne {rest : List Char} (h : Breaks rest) : rest.head? ≠ some '"' := by
  intro hquote
  rcases h '"' hquote with h | h | h <;> exact absurd h (by decide)

/-- A quoted name shows no placeholders where no other quote follows. -/
theorem reads_name (s : String) :
    Reads style (fun rest => rest.head? ≠ some '"') [.verbatim (Ident.quote s)] :=
  reads_verbatim fun rest hrest => by rw [scan_name s hrest]; rfl

/-! ### Legible drafts -/

/-- **A part of a statement that can be read**: it shows something unless it is empty, and it shows
its placeholders and no others. -/
structure Legible (style : PlaceholderStyle) (d : Draft) : Prop where
  shown : Shown d
  reads : Reads style Clear d

theorem legible_nil : Legible style [] := ⟨shown_nil, reads_nil⟩

/-- A part with a keyword in front can be read if the rest of it can. -/
theorem legible_verbatim_cons {s : String} (hne : s ≠ "") (hs : Silent (fun _ => True) s)
    {d : Draft} (hd : Reads style Clear d) : Legible style (.verbatim s :: d) :=
  ⟨shown_verbatim_cons hne d, hd.verbatim_cons hs⟩

end Draft

end BoundSql.Sql
