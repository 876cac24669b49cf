import BoundSql.Proofs.Sql.Reading

/-!
# Sentences

The grammar of clauses over texts, for any notion of what a comparison is written as:

    clause := item (' ' (AND | OR) ' ' item)*
    item   := comparison | '( ' clause ' )'

A clause is written in full by `Sql.write`, whether or not it can be read. This module says when it
is a sentence, and that nothing but a sentence can be read.

* `Sql.sentence_write` — proper siblings are written as a sentence, whatever their comparisons look
  like;
* `Sql.resume_of_improper` — in any surroundings the reader gives up on siblings that are not
  proper;
* `Sql.says_write_iff` — the text of siblings says something exactly where they are proper.

`Sql.Proper` is what carries the inductions: each of siblings but the first has a joiner, and groups
are not empty, at any depth.
-/

namespace BoundSql.Sql

/-! ### The grammar -/

mutual

/-- One item of a clause: a comparison, or a clause between parentheses. -/
inductive Item (comparison : String → Prop) : String → Prop
  | comparison {text : String} : comparison text → Item comparison text
  | group {text : String} : Sentence comparison text → Item comparison ("( " ++ text ++ " )")

/-- A clause: items with one joiner between any two of them, and none at either end. -/
inductive Sentence (comparison : String → Prop) : String → Prop
  | item {text : String} : Item comparison text → Sentence comparison text
  | joined {text rest : String} (j : Joiner) : Item comparison text → Sentence comparison rest →
      Sentence comparison (text ++ (" " ++ j.keyword ++ " ") ++ rest)

end

/-! ### Proper siblings are a sentence -/

section Write

variable (style : PlaceholderStyle) {comparison : String → Prop}

/-- Behind an item, siblings that are items themselves go on a sentence. -/
theorem sentence_append {ts : List Term} (hproper : Proper false ts)
    (hitems : ∀ t ∈ ts, Item comparison (write style t.pieces)) {text : String}
    (htext : Item comparison text) :
    Sentence comparison (text ++ write style (pieces false ts)) := by
  induction ts generalizing text with
  | nil =>
    rw [pieces_nil, write_nil, String.append_empty]
    exact .item htext
  | cons t ts ih =>
    obtain ⟨hjoiner, -, hts⟩ := hproper
    -- a sibling that is not the first has a joiner
    obtain ⟨j, hj⟩ := Option.ne_none_iff_exists'.mp (hjoiner rfl)
    have ht := hitems t (List.mem_cons_self ..)
    have hbehind := ih hts (fun u hu => hitems u (List.mem_cons_of_mem _ hu)) ht
    have hbetween : write style [.verbatim (between t.joiner)] = " " ++ j.keyword ++ " " := by
      rw [hj]
      exact String.append_empty
    have hwritten : text ++ write style (pieces false (t :: ts)) =
        text ++ (" " ++ j.keyword ++ " ") ++
          (write style t.pieces ++ write style (pieces false ts)) := by
      -- the text of the next sibling begins with its joiner
      calc
        text ++ write style (pieces false (t :: ts)) =
            text ++ (write style [.verbatim (between t.joiner)] ++
              (write style t.pieces ++ write style (pieces false ts))) := by
          rw [pieces_cons, if_neg Bool.false_ne_true, write_append, write_append]
        _ = text ++ (" " ++ j.keyword ++ " ") ++
            (write style t.pieces ++ write style (pieces false ts)) := by
          rw [hbetween, ← String.append_assoc]
    rw [hwritten]
    exact .joined j htext hbehind

/-- Siblings that are items are a sentence, unless there are none. -/
theorem sentence_of_items {ts : List Term} (hproper : Proper true ts) (hne : ts ≠ [])
    (hitems : ∀ t ∈ ts, Item comparison (write style t.pieces)) :
    Sentence comparison (write style (pieces true ts)) := by
  cases ts with
  | nil => exact absurd rfl hne
  | cons t ts =>
    obtain ⟨-, -, hts⟩ := hproper
    have ht := hitems t (List.mem_cons_self ..)
    rw [pieces_cons, if_pos rfl, List.nil_append, write_append]
    exact sentence_append style hts (fun u hu => hitems u (List.mem_cons_of_mem _ hu)) ht

/-- Each of proper siblings is an item. -/
theorem item_of_proper {first : Bool} {ts : List Term} (hproper : Proper first ts)
    (hcomparison : ∀ t ∈ tests ts, comparison (write style t.pieces)) :
    ∀ t ∈ ts, Item comparison (write style t.pieces) := by
  induction ts using forest_induction generalizing first with
  | nil =>
    intro t ht
    exact absurd ht (List.not_mem_nil)
  | test j t ts ih =>
    have hrest := ih hproper.2.2 fun u hu => hcomparison u (List.mem_cons_of_mem _ hu)
    refine List.forall_mem_cons.mpr ⟨?_, hrest⟩
    exact .comparison (hcomparison t (List.mem_cons_self ..))
  | group j inner ts ihInner ih =>
    -- a group is not empty, so what is inside is a sentence of its own
    obtain ⟨-, ⟨hne, hinside⟩, hts⟩ := hproper
    have hrest := ih hts fun u hu => hcomparison u (List.mem_append_right _ hu)
    have hinner := ihInner hinside fun u hu => hcomparison u (List.mem_append_left _ hu)
    refine List.forall_mem_cons.mpr ⟨?_, hrest⟩
    rw [write_group]
    exact .group (sentence_of_items style hinside hne hinner)

/-- **The text of proper siblings is a sentence**, whatever their comparisons are written as. -/
theorem sentence_write {ts : List Term} (hproper : Proper true ts) (hne : ts ≠ [])
    (hcomparison : ∀ t ∈ tests ts, comparison (write style t.pieces)) :
    Sentence comparison (write style (pieces true ts)) :=
  sentence_of_items style hproper hne (item_of_proper style hproper hcomparison)

end Write

/-! ### Only proper siblings can be read -/

/-- A test does not follow a term directly. -/
theorem resume_more_test (groups : List Frame) (done : List Term) (t : Test) (ls : List Lexeme) :
    resume groups done .more (t.lexemes ++ ls) = none := by
  rw [resume_of_parts (parts_test t ls)]
  exact Option.bind_eq_none_iff.mpr fun _ _ => rfl

/-- A group does not follow a term directly. -/
theorem resume_more_opening (groups : List Frame) (done : List Term) (ls : List Lexeme) :
    resume groups done .more (.opening :: ls) = none := by
  rw [resume_of_parts (p := .opening) rfl]
  exact Option.bind_eq_none_iff.mpr fun _ _ => rfl

/-- A group does not close where a term is to come. -/
theorem resume_term_closing (groups : List Frame) (done : List Term) (j : Option Joiner)
    (ls : List Lexeme) : resume groups done (.term j) (.closing :: ls) = none := by
  rw [resume_of_parts (p := .closing) rfl]
  exact Option.bind_eq_none_iff.mpr fun _ _ => rfl

/-- **The reader gives up on siblings that are not proper**, in any surroundings. -/
theorem resume_of_improper {first : Bool} {ts : List Term} (h : ¬ Proper first ts)
    (groups : List Frame) (done : List Term) (rest : List Lexeme) :
    resume groups done (wantedAt first) (lexemesOf first ts ++ rest) = none := by
  induction ts using forest_induction generalizing first groups done rest with
  | nil => exact absurd trivial h
  | test j t ts ih =>
    rw [lexemesOf_cons, List.append_assoc, List.append_assoc]
    by_cases hj : first = false → j ≠ none
    · -- joined as it has to be, so what is wrong is behind it
      have hts : ¬ Proper false ts := fun hts => h ⟨hj, trivial, hts⟩
      refine (resume_lead (lead_of_joiner hj) groups done _).trans ?_
      rw [Term.lexemes, resume_test]
      exact ih hts groups _ rest
    · obtain ⟨rfl, rfl⟩ : first = false ∧ j = none := by simpa using hj
      exact resume_more_test groups done t _
  | group j inner ts ihInner ih =>
    rw [lexemesOf_cons, List.append_assoc, List.append_assoc]
    by_cases hj : first = false → j ≠ none
    · refine (resume_lead (lead_of_joiner hj) groups done _).trans ?_
      rw [Term.lexemes, List.cons_append, List.append_assoc, resume_opening]
      by_cases hinner : Proper true inner
      · cases inner with
        | nil => exact resume_term_closing _ _ none _
        | cons t inner =>
          -- the group itself is read, and what is wrong comes behind it
          have hne : t :: inner ≠ [] := List.cons_ne_nil t inner
          have hts : ¬ Proper false ts := fun hts => h ⟨hj, ⟨hne, hinner⟩, hts⟩
          have hderives := derives_lexemesOf hinner fun _ => hne
          refine (resume_of_derives hderives _ [] _).trans ?_
          rw [List.cons_append, resume_closing]
          exact ih hts groups _ rest
      · exact ihInner hinner _ [] _
    · obtain ⟨rfl, rfl⟩ : first = false ∧ j = none := by simpa using hj
      exact resume_more_opening groups done _

/-- No term begins with the keyword. -/
theorem exists_head_lexeme (t : Term) : ∃ l ls, t.lexemes = l :: ls ∧ l ≠ .filter := by
  cases t with
  | test j t =>
    obtain ⟨⟨table, name⟩, phrase, number⟩ := t
    cases phrase with
    | symbol sign => cases table <;> exact ⟨_, _, rfl, fun h => nomatch h⟩
    | membership sign => exact ⟨_, _, rfl, fun h => nomatch h⟩
    | pattern operator before after => cases table <;> exact ⟨_, _, rfl, fun h => nomatch h⟩
  | group j ts => exact ⟨_, _, rfl, fun h => nomatch h⟩

theorem readLexemes_lexemesOf {ts : List Term} (hne : ts ≠ []) :
    readLexemes (lexemesOf true ts) = resume [] [] (.term none) (lexemesOf true ts) := by
  cases ts with
  | nil => exact absurd rfl hne
  | cons t ts =>
    obtain ⟨l, ls, hlexemes, hl⟩ := exists_head_lexeme t
    rw [lexemesOf_cons, if_pos rfl, List.nil_append, hlexemes, List.cons_append]
    cases l with
    | filter => exact absurd rfl hl
    | _ => rfl

/-- **The text of siblings says something** exactly where they are proper, behind the keyword or
without it. -/
theorem says_write_iff (style : PlaceholderStyle) {ts : List Term}
    (hlegible : ∀ t ∈ tests ts, t.Legible) {bound n : Nat}
    (hn : (tests ts).map Test.number = List.range' (bound + 1) n) (keyword : Bool) :
    (∃ us, Says (lexemes bound (Compiler.withKeyword keyword (write style (pieces true ts)))) us) ↔
      Proper true ts := by
  constructor
  · rintro ⟨us, hsaid⟩
    refine Classical.byContradiction fun himproper => ?_
    have hne : ts ≠ [] := by
      rintro rfl
      exact himproper trivial
    have hnone : resume [] [] (.term none) (lexemesOf true ts) = none := by
      have hresume := resume_of_improper himproper [] [] []
      rw [List.append_nil] at hresume
      exact hresume
    -- what the grammar derives is read, but these lexemes are not
    have hread := hsaid.readLexemes_eq
    unfold Compiler.withKeyword at hread
    split at hread
    · rw [lexemes_filter, lexemes_write style hlegible hn] at hread
      exact Option.some_ne_none us (hread.symm.trans hnone)
    · rw [lexemes_write style hlegible hn, readLexemes_lexemesOf hne] at hread
      exact Option.some_ne_none us (hread.symm.trans hnone)
  · intro hproper
    exact ⟨_, says_write style hproper hlegible hn keyword⟩

end BoundSql.Sql
