import BoundSql.Compile
import BoundSql.Proofs.Sql.Lexeme

/-!
# Reading clauses

The grammar of clauses over lexemes, and a reader for it:

    clause := term ((AND | OR) term)*
    term   := test | '(' clause ')'

`Sql.Derives` is the grammar, one constructor for a rule. `Sql.read` reads a text with one pass over
its lexemes and a stack of open groups, in two steps: `Sql.parts` puts the lexemes of each test
together, `Sql.nest` nests them.

* `Sql.Says.readLexemes_eq` — what the grammar derives is read as such, so lexemes say one thing at
  most (`Sql.says_unique`);
* `Sql.says_write` — the text of siblings says these siblings.
-/

namespace BoundSql.Sql

/-! ### The grammar -/

/-- What a term shows in front of itself: the first of siblings nothing, any other a joiner. -/
inductive Lead : Bool → Option Joiner → List Lexeme → Prop
  | first : Lead true none []
  | next (j : Joiner) : Lead false (some j) [.joiner j]

/-- Lexemes and the siblings they say: a whole clause if the first of the siblings is among them,
otherwise the part of a clause behind its first term. -/
inductive Derives : Bool → List Lexeme → List Term → Prop
  | done : Derives false [] []
  | test {first : Bool} {j : Option Joiner} {lead ls : List Lexeme} {ts : List Term} (t : Test) :
    Lead first j lead → Derives false ls ts →
      Derives first (lead ++ (t.lexemes ++ ls)) (.test j t :: ts)
  | group {first : Bool} {j : Option Joiner} {lead inner ls : List Lexeme} {us ts : List Term} :
    Lead first j lead → Derives true inner us → Derives false ls ts →
      Derives first (lead ++ (.opening :: (inner ++ .closing :: ls))) (.group j us :: ts)

/-- Lexemes that say a clause, behind the keyword or without it, or nothing. -/
inductive Says : List Lexeme → List Term → Prop
  | nothing : Says [] []
  | bare {ls : List Lexeme} {ts : List Term} : Derives true ls ts → Says ls ts
  | filter {ls : List Lexeme} {ts : List Term} : Derives true ls ts → Says (.filter :: ls) ts

/-! ### The reader -/

/-- A test in one piece, or one of the lexemes around tests. -/
inductive Part where
  | test (t : Test)
  | joiner (j : Joiner)
  | opening
  | closing

/-- Puts the lexemes of tests together. -/
def parts : List Lexeme → Option (List Part)
  | [] => some []
  | .joiner j :: ls => (parts ls).map (.joiner j :: ·)
  | .opening :: ls => (parts ls).map (.opening :: ·)
  | .closing :: ls => (parts ls).map (.closing :: ·)
  | .name c :: .operator s :: .parameter (some n) :: ls =>
    (parts ls).map (.test ⟨⟨none, c⟩, .symbol s, n⟩ :: ·)
  | .name t :: .dot :: .name c :: .operator s :: .parameter (some n) :: ls =>
    (parts ls).map (.test ⟨⟨some t, c⟩, .symbol s, n⟩ :: ·)
  | .name c :: .operator s :: .string a :: .concat :: .parameter (some n) :: .concat ::
      .string b :: ls =>
    (parts ls).map (.test ⟨⟨none, c⟩, .pattern s a b, n⟩ :: ·)
  | .name t :: .dot :: .name c :: .operator s :: .string a :: .concat :: .parameter (some n) ::
      .concat :: .string b :: ls =>
    (parts ls).map (.test ⟨⟨some t, c⟩, .pattern s a b, n⟩ :: ·)
  | .parameter (some n) :: .operator s :: .any :: .opening :: .name c :: .closing :: ls =>
    (parts ls).map (.test ⟨⟨none, c⟩, .membership s, n⟩ :: ·)
  | .parameter (some n) :: .operator s :: .any :: .opening :: .name t :: .dot :: .name c ::
      .closing :: ls =>
    (parts ls).map (.test ⟨⟨some t, c⟩, .membership s, n⟩ :: ·)
  | _ => none

/-- A group that is not closed yet: its joiner, and the siblings in front of it. -/
structure Frame where
  joiner : Option Joiner
  around : List Term

/-- What the reader waits for: a term with the given joiner, or whatever may follow a term. -/
inductive Wanted where
  | term (j : Option Joiner)
  | more

/-- Nests terms: `done` are the siblings read so far in the innermost of the open groups. -/
def nest (groups : List Frame) (done : List Term) : Wanted → List Part → Option (List Term)
  | .term j, .test t :: ps => nest groups (done ++ [.test j t]) .more ps
  | .term j, .opening :: ps => nest (⟨j, done⟩ :: groups) [] (.term none) ps
  | .more, .joiner j :: ps => nest groups done (.term (some j)) ps
  | .more, .closing :: ps =>
    match groups with
    | g :: groups => nest groups (g.around ++ [.group g.joiner done]) .more ps
    | [] => none
  | .more, [] => if groups.isEmpty then some done else none
  | _, _ => none

/-- Reads lexemes on from the middle of a clause. -/
def resume (groups : List Frame) (done : List Term) (w : Wanted) (ls : List Lexeme) :
    Option (List Term) :=
  (parts ls).bind (nest groups done w)

/-- Reads the lexemes of a clause, behind the keyword or without it. -/
def readLexemes : List Lexeme → Option (List Term)
  | [] => some []
  | .filter :: ls => resume [] [] (.term none) ls
  | ls => resume [] [] (.term none) ls

/-- Reads a clause that stands behind `bound` parameters. -/
def read (bound : Nat) (text : String) : Option (List Term) := readLexemes (lexemes bound text)

/-! ### What the grammar derives is read -/

theorem parts_test (t : Test) (ls : List Lexeme) :
    parts (t.lexemes ++ ls) = (parts ls).map (.test t :: ·) := by
  obtain ⟨⟨table, name⟩, phrase, number⟩ := t
  cases table with
  | none => cases phrase <;> rfl
  | some table => cases phrase <;> rfl

/-- Reading on with `parts` that begin with a part known already. -/
theorem resume_of_parts {ls ls' : List Lexeme} {p : Part}
    (h : parts ls = (parts ls').map (p :: ·)) (groups : List Frame) (done : List Term)
    (w : Wanted) :
    resume groups done w ls = (parts ls').bind fun ps => nest groups done w (p :: ps) := by
  unfold resume
  rw [h, Option.bind_map]
  rfl

theorem resume_test (groups : List Frame) (done : List Term) (j : Option Joiner) (t : Test)
    (ls : List Lexeme) :
    resume groups done (.term j) (t.lexemes ++ ls) =
      resume groups (done ++ [.test j t]) .more ls :=
  resume_of_parts (parts_test t ls) groups done _

theorem resume_opening (groups : List Frame) (done : List Term) (j : Option Joiner)
    (ls : List Lexeme) :
    resume groups done (.term j) (.opening :: ls) =
      resume (⟨j, done⟩ :: groups) [] (.term none) ls :=
  resume_of_parts (p := .opening) rfl groups done _

theorem resume_joiner (groups : List Frame) (done : List Term) (j : Joiner) (ls : List Lexeme) :
    resume groups done .more (.joiner j :: ls) = resume groups done (.term (some j)) ls :=
  resume_of_parts (p := .joiner j) rfl groups done _

theorem resume_closing (g : Frame) (groups : List Frame) (done : List Term) (ls : List Lexeme) :
    resume (g :: groups) done .more (.closing :: ls) =
      resume groups (g.around ++ [.group g.joiner done]) .more ls :=
  resume_of_parts (p := .closing) rfl _ done _

/-- What the reader waits for where siblings go on. -/
def wantedAt (first : Bool) : Wanted := if first then .term none else .more

/-- A joiner is all that is read between a place where siblings go on and the term behind it. -/
theorem resume_lead {first : Bool} {j : Option Joiner} {lead : List Lexeme}
    (h : Lead first j lead) (groups : List Frame) (done : List Term) (ls : List Lexeme) :
    resume groups done (wantedAt first) (lead ++ ls) = resume groups done (.term j) ls := by
  cases h with
  | first => rfl
  | next j => exact resume_joiner groups done j ls

/-- **The reader follows the grammar.** In any surroundings, reading the lexemes of siblings adds
these siblings to what has been read. -/
theorem resume_of_derives {first : Bool} {ls : List Lexeme} {ts : List Term}
    (h : Derives first ls ts) (groups : List Frame) (done : List Term) (rest : List Lexeme) :
    resume groups done (wantedAt first) (ls ++ rest) = resume groups (done ++ ts) .more rest := by
  induction h generalizing groups done rest with
  | done => rw [List.append_nil]; rfl
  | test t hlead _ ih =>
    rw [List.append_assoc, List.append_assoc, resume_lead hlead, resume_test]
    refine (ih groups _ rest).trans ?_
    rw [List.append_assoc]
    rfl
  | group hlead _ _ ihInner ih =>
    rw [List.append_assoc, List.cons_append, List.append_assoc, List.cons_append,
      resume_lead hlead, resume_opening]
    -- the group is read with the siblings in front of it put aside, and taken up again behind it
    refine (ihInner _ [] _).trans ?_
    rw [List.nil_append, resume_closing]
    refine (ih groups _ rest).trans ?_
    rw [List.append_assoc]
    rfl

theorem resume_of_derives_all {ls : List Lexeme} {ts : List Term} (h : Derives true ls ts) :
    resume [] [] (.term none) ls = some ts := by
  have hread := resume_of_derives h [] [] []
  rw [List.append_nil, List.nil_append] at hread
  exact hread

/-- A clause without the keyword is told from one behind it by its first lexeme. -/
theorem Derives.readLexemes_eq {ls : List Lexeme} {ts : List Term} (h : Derives true ls ts) :
    readLexemes ls = some ts := by
  have hread := resume_of_derives_all h
  cases ls with
  | nil => cases hread
  | cons l ls =>
    -- no test begins with the keyword, nor does a bracket
    cases l with
    | filter => cases hread
    | _ => exact hread

/-- **What the grammar derives is read as such.** -/
theorem Says.readLexemes_eq {ls : List Lexeme} {ts : List Term} (h : Says ls ts) :
    readLexemes ls = some ts := by
  cases h with
  | nothing => rfl
  | bare h => exact Derives.readLexemes_eq h
  | filter h => exact resume_of_derives_all h

/-- **Lexemes say one thing at most.** -/
theorem says_unique {ls : List Lexeme} {ts us : List Term} (ht : Says ls ts) (hu : Says ls us) :
    ts = us :=
  Option.some.inj ((Says.readLexemes_eq ht).symm.trans (Says.readLexemes_eq hu))

/-! ### What siblings say -/

mutual

/-- A term as it reads: inside it the first of siblings has no joiner. -/
def Term.settle : Term → Term
  | .test j t => .test j t
  | .group j ts => .group j (settle true ts)

/-- Siblings as they read: the first of siblings has no joiner, at any depth. -/
def settle (first : Bool) : List Term → List Term
  | [] => []
  | t :: ts => t.settle.withJoiner (if first then none else t.joiner) :: settle false ts

end

mutual

/-- Whether the inside of a term is proper. -/
def Term.Proper : Term → Prop
  | .test _ _ => True
  | .group _ ts => ts ≠ [] ∧ Proper true ts

/-- Siblings that can be written as a clause: each but the first has a joiner, and groups are not
empty, at any depth. -/
def Proper (first : Bool) : List Term → Prop
  | [] => True
  | t :: ts => (first = false → t.joiner ≠ none) ∧ t.Proper ∧ Proper false ts

end

theorem settle_cons (first : Bool) (t : Term) (ts : List Term) :
    settle first (t :: ts) =
      t.settle.withJoiner (if first then none else t.joiner) :: settle false ts := rfl

theorem settle_append (first : Bool) (a b : List Term) :
    settle first (a ++ b) = settle first a ++ settle (first && a.isEmpty) b := by
  induction a generalizing first with
  | nil => rw [List.isEmpty_nil, Bool.and_true]; rfl
  | cons t a ih =>
    rw [List.cons_append, settle_cons, settle_cons, ih, List.isEmpty_cons, Bool.and_false]
    rfl

/-- Siblings are written as they read. -/
theorem pieces_settle (first : Bool) (ts : List Term) :
    pieces first (settle first ts) = pieces first ts := by
  -- a joiner that is not shown may as well be missing
  have hcons : ∀ (first : Bool) (t u : Term) (ts us : List Term), u.pieces = t.pieces →
      pieces false us = pieces false ts →
      pieces first (u.withJoiner (if first then none else t.joiner) :: us) =
        pieces first (t :: ts) := by
    intro first t u ts us hu hus
    have hpieces : ∀ j, (u.withJoiner j).pieces = u.pieces := by
      intro j
      cases u <;> rfl
    rw [pieces_cons, pieces_cons, hpieces, hu, hus, Term.joiner_withJoiner]
    cases first <;> rfl
  induction ts using forest_induction generalizing first with
  | nil => rfl
  | test j t ts ih => exact hcons first _ _ _ _ rfl (ih false)
  | group j inner ts ihInner ih =>
    have hgroup : (Term.group j (settle true inner)).pieces = (Term.group j inner).pieces := by
      rw [Term.pieces_group, Term.pieces_group, ihInner]
    exact hcons first _ _ _ _ hgroup (ih false)

@[simp] theorem tests_withJoiner (j : Option Joiner) (t : Term) :
    (t.withJoiner j).tests = t.tests := by
  cases t <;> rfl

/-- Siblings as they read have the same tests. -/
@[simp] theorem tests_settle (first : Bool) (ts : List Term) :
    tests (settle first ts) = tests ts := by
  induction ts using forest_induction generalizing first with
  | nil => rfl
  | test j t ts ih =>
    show (Term.withJoiner _ (.test j t)).tests ++ tests (settle false ts) = t :: tests ts
    rw [tests_withJoiner, ih]
    rfl
  | group j inner ts ihInner ih =>
    -- inside a group the first joiner is dropped as well, which changes no test
    show (Term.withJoiner _ (.group j (settle true inner))).tests ++ tests (settle false ts) = _
    rw [tests_withJoiner, ih, tests_group_cons]
    exact congrArg (· ++ tests ts) (ihInner true)

/-- Siblings that are proper behind others are proper anywhere. -/
theorem Proper.anywhere {ts : List Term} (h : Proper false ts) (first : Bool) :
    Proper first ts := by
  cases ts with
  | nil => trivial
  | cons t ts => exact ⟨fun _ => h.1 rfl, h.2⟩

theorem lead_of_joiner {first : Bool} {j : Option Joiner} (h : first = false → j ≠ none) :
    Lead first (if first then none else j) (if first then [] else joinerLexemes j) := by
  cases first with
  | true => exact .first
  | false =>
    obtain ⟨k, rfl⟩ := Option.ne_none_iff_exists'.mp (h rfl)
    exact .next k

/-- **The lexemes of proper siblings say these siblings.** -/
theorem derives_lexemesOf {first : Bool} {ts : List Term} (h : Proper first ts)
    (hne : first = true → ts ≠ []) : Derives first (lexemesOf first ts) (settle first ts) := by
  induction ts using forest_induction generalizing first with
  | nil =>
    cases first with
    | true => exact absurd rfl (hne rfl)
    | false => exact .done
  | test j t ts ih =>
    obtain ⟨hj, -, hts⟩ := h
    exact .test t (lead_of_joiner hj) (ih hts fun hfirst => nomatch hfirst)
  | group j inner ts ihInner ih =>
    -- a group that is not empty has a clause of its own inside
    obtain ⟨hj, ⟨hinner, hproper⟩, hts⟩ := h
    have hbehind := ih hts fun hfirst => nomatch hfirst
    have hinside := ihInner hproper fun _ => hinner
    rw [lexemesOf_cons, Term.lexemes, List.cons_append, List.append_assoc]
    exact .group (lead_of_joiner hj) hinside hbehind

/-! ### Reading what was written -/

theorem lexemes_filter (bound : Nat) (text : String) :
    lexemes bound ("WHERE " ++ text) = .filter :: lexemes bound text := by
  have hscan : scan .between ("WHERE " ++ text).toList = .filter :: scan .between text.toList := by
    rw [String.toList_append]
    rfl
  rw [lexemes, hscan]
  rfl

/-- **The text of a clause says the clause**, and nothing else, behind the keyword or without it. -/
theorem says_write (style : PlaceholderStyle) {ts : List Term} (hproper : Proper true ts)
    (hlegible : ∀ t ∈ tests ts, t.Legible) {bound n : Nat}
    (hn : (tests ts).map Test.number = List.range' (bound + 1) n) (keyword : Bool) :
    Says (lexemes bound (Compiler.withKeyword keyword (write style (pieces true ts))))
      (settle true ts) := by
  have hlexemes := lexemes_write style hlegible hn
  cases ts with
  | nil =>
    have hempty : Compiler.withKeyword keyword "" = "" := by simp [Compiler.withKeyword]
    rw [pieces_nil, write_nil, hempty]
    exact .nothing
  | cons t ts =>
    have hderives := derives_lexemesOf hproper fun _ => List.cons_ne_nil t ts
    unfold Compiler.withKeyword
    -- the keyword is written only if there is something to say
    split
    · rw [lexemes_filter, hlexemes]
      exact .filter hderives
    · rw [hlexemes]
      exact .bare hderives

end BoundSql.Sql
