import BoundSql.Proofs.Sql.Term

/-!
# The lexemes of a clause

`Sql.scan` cuts a text into lexemes by the lexical rules of SQL: an identifier stands between double
quotes and a string between single quotes, the quote itself written twice inside; letters make
words, of which some are keywords in any case; signs make operators; a placeholder is a dollar sign
or a colon with a number, a question mark, or a percent sign with the letter `s`. It reads one
character at a time and remembers what it is inside of (`Sql.Mode`), so nothing has to be known of
the text but what stands there. `Sql.lexemes` also numbers the placeholders that carry no number,
from left to right.

* `Sql.scan_pieces` — the text of siblings scans to their lexemes, whatever characters their
  identifiers are made of;
* `Sql.lexemes_write` — with every placeholder numbered.
-/

namespace BoundSql.Sql

/-- A lexeme. -/
inductive Lexeme where
  /-- A quoted identifier. -/
  | name (s : String)
  /-- A quoted string. -/
  | string (s : String)
  /-- A run of signs, or a word that is no keyword. -/
  | operator (s : String)
  /-- Two bars, which put texts together. -/
  | concat
  | joiner (j : Joiner)
  /-- The keyword `ANY`. -/
  | any
  /-- The keyword `WHERE`. -/
  | filter
  /-- A placeholder, with its number if it shows one. -/
  | parameter (number : Option Nat)
  | dot
  | opening
  | closing
  /-- A character no lexeme starts with. -/
  | stray (c : Char)
  /-- A quote that is never closed. -/
  | unclosed
deriving DecidableEq

/-! ### Classes of characters -/

/-- Whether a word can start with a character. -/
def isWordStart (c : Char) : Bool := c.isAlpha || c == '_'

/-- Whether a word can go on with a character. -/
def isWordChar (c : Char) : Bool := c.isAlphanum || c == '_'

/-- Whether an operator can have a character in it. -/
def isSign (c : Char) : Bool := ['=', '<', '>', '!', '|', '~', '*', '&', '#', '@', '^'].contains c

/-- The lexeme of a word: keywords count in any case. -/
def ofWord (cs : List Char) : Lexeme :=
  let word := String.ofList (cs.map Char.toUpper)
  if word = "AND" then .joiner .and
  else if word = "OR" then .joiner .or
  else if word = "ANY" then .any
  else if word = "WHERE" then .filter
  else .operator (String.ofList cs)

/-- The lexeme of a run of signs. -/
def ofSigns (cs : List Char) : Lexeme :=
  if cs = ['|', '|'] then .concat else .operator (String.ofList cs)

/-- The lexeme of what stood between two quotes. -/
def ofQuoted (q : Char) (cs : List Char) : Lexeme :=
  if q = '"' then .name (String.ofList cs) else .string (String.ofList cs)

/-! ### Scanning -/

/-- What the scanner is inside of, with the characters of it read so far. -/
inductive Mode where
  | between
  | quoted (q : Char) (cs : List Char)
  /-- Behind a quote inside a quoted text: the end of it, or the first half of a doubled quote. -/
  | atQuote (q : Char) (cs : List Char)
  | word (cs : List Char)
  | signs (cs : List Char)
  /-- Behind the mark of a numbered placeholder. -/
  | numbered (mark : Char) (digits : List Char)
  | percent

namespace Mode

/-- The lexemes that are due when what the scanner is inside of ends here. -/
def finish : Mode → List Lexeme
  | between => []
  | quoted _ _ => [.unclosed]
  | atQuote q cs => [ofQuoted q cs]
  | word cs => [ofWord cs]
  | signs cs => [ofSigns cs]
  | numbered mark digits =>
    if digits.isEmpty then [.stray mark]
    else [.parameter (some (Nat.ofDigitChars 10 digits 0))]
  | percent => [.stray '%']

/-- The mode after a character that goes on with what the scanner is inside of, and the lexemes that
are complete with it. -/
def extend? (c : Char) : Mode → Option (List Lexeme × Mode)
  | between => none
  | quoted q cs => some ([], if c = q then atQuote q cs else quoted q (cs ++ [c]))
  | atQuote q cs => if c = q then some ([], quoted q (cs ++ [q])) else none
  | word cs => if isWordChar c then some ([], word (cs ++ [c])) else none
  | signs cs => if isSign c then some ([], signs (cs ++ [c])) else none
  | numbered mark digits => if c.isDigit then some ([], numbered mark (digits ++ [c])) else none
  | percent => if c = 's' then some ([.parameter none], between) else none

/-- The mode after a character that begins something new, and the lexemes that are complete with
it. -/
def begin (c : Char) : List Lexeme × Mode :=
  if c.isWhitespace then ([], between)
  else if c = '"' ∨ c = '\'' then ([], quoted c [])
  else if c = '(' then ([.opening], between)
  else if c = ')' then ([.closing], between)
  else if c = '.' then ([.dot], between)
  else if c = '?' then ([.parameter none], between)
  else if c = '$' ∨ c = ':' then ([], numbered c [])
  else if c = '%' then ([], percent)
  else if isWordStart c then ([], word [c])
  else if isSign c then ([], signs [c])
  else ([.stray c], between)

/-- The mode after a character, and the lexemes that are complete with it. -/
def step (m : Mode) (c : Char) : List Lexeme × Mode :=
  match m.extend? c with
  | some r => r
  | none => (m.finish ++ (begin c).1, (begin c).2)

end Mode

/-- The lexemes of a text, read from a mode on. -/
def scan (m : Mode) : List Char → List Lexeme
  | [] => m.finish
  | c :: cs => (m.step c).1 ++ scan (m.step c).2 cs

/-- Numbers the placeholders that show no number, from left to right: each gets the number after
the greatest one before it, and the first the one after `bound`. -/
def enumerate (bound : Nat) : List Lexeme → List Lexeme
  | [] => []
  | .parameter none :: ls => .parameter (some (bound + 1)) :: enumerate (bound + 1) ls
  | .parameter (some n) :: ls => .parameter (some n) :: enumerate (max bound n) ls
  | l :: ls => l :: enumerate bound ls

/-- The lexemes of a text that stands behind `bound` parameters. -/
def lexemes (bound : Nat) (text : String) : List Lexeme :=
  enumerate bound (scan .between text.toList)

example : lexemes 0 "\"a\"\"b\" = ? or ? != ANY(\"t\".\"c\")" =
    [.name "a\"b", .operator "=", .parameter (some 1), .joiner .or, .parameter (some 2),
      .operator "!=", .any, .opening, .name "t", .dot, .name "c", .closing] := by decide +kernel

/-! ### Where a lexeme ends -/

theorem scan_cons {m m' : Mode} {c : Char} {ls : List Lexeme} (h : m.step c = (ls, m'))
    (cs : List Char) : scan m (c :: cs) = ls ++ scan m' cs := by
  show (m.step c).1 ++ scan (m.step c).2 cs = _
  rw [h]

/-- What the scanner is inside of ends where no character goes on with it. -/
theorem scan_of_ends {m : Mode} {rest : List Char} (h : ∀ c ∈ rest.head?, m.extend? c = none) :
    scan m rest = m.finish ++ scan .between rest := by
  cases rest with
  | nil => exact (List.append_nil _).symm
  | cons c cs =>
    have hc : m.extend? c = none := h c rfl
    have hstep : m.step c = (m.finish ++ (Mode.begin c).1, (Mode.begin c).2) := by
      unfold Mode.step
      rw [hc]
    have hbetween : Mode.between.step c = ((Mode.begin c).1, (Mode.begin c).2) := rfl
    rw [scan_cons hstep, scan_cons hbetween, List.append_assoc]

/-- Blanks between lexemes are skipped. -/
@[simp] theorem scan_blank (rest : List Char) :
    scan .between (' ' :: rest) = scan .between rest := rfl

@[simp] theorem scan_opening (rest : List Char) :
    scan .between ('(' :: rest) = .opening :: scan .between rest := rfl

@[simp] theorem scan_closing (rest : List Char) :
    scan .between (')' :: rest) = .closing :: scan .between rest := rfl

@[simp] theorem scan_dot (rest : List Char) :
    scan .between ('.' :: rest) = .dot :: scan .between rest := rfl

/-! ### Quoted texts -/

/-- Inside quotes a text with its quotes doubled is read to the quote that ends it. -/
theorem scan_double (q : Char) (cs s rest : List Char) :
    scan (.quoted q cs) (Text.double q s ++ q :: rest) = scan (.atQuote q (cs ++ s)) rest := by
  have hquote : ∀ cs, (Mode.quoted q cs).step q = ([], .atQuote q cs) := by
    intro cs
    simp [Mode.step, Mode.extend?]
  induction s generalizing cs with
  | nil =>
    rw [Text.double, List.nil_append, scan_cons (hquote cs), List.nil_append, List.append_nil]
  | cons c s ih =>
    by_cases hc : c = q
    · -- a quote in the text is met twice: the second one takes the scanner back inside
      subst hc
      have hback : (Mode.atQuote c cs).step c = ([], .quoted c (cs ++ [c])) := by
        simp [Mode.step, Mode.extend?]
      rw [Text.double, if_pos rfl, List.cons_append, List.cons_append, scan_cons (hquote cs),
        scan_cons hback, List.nil_append, List.nil_append, ih, List.append_assoc]
      rfl
    · have hstep : (Mode.quoted q cs).step c = ([], .quoted q (cs ++ [c])) := by
        simp [Mode.step, Mode.extend?, hc]
      rw [Text.double, if_neg hc, List.cons_append, scan_cons hstep, List.nil_append, ih,
        List.append_assoc]
      rfl

/-- **A quoted text is one lexeme**, whatever its characters are, unless another quote follows. -/
theorem scan_quoteWith {q : Char} (hq : q = '"' ∨ q = '\'') (s : String) {rest : List Char}
    (h : rest.head? ≠ some q) :
    scan .between ((Text.quoteWith q s).toList ++ rest) =
      ofQuoted q s.toList :: scan .between rest := by
  have hbegin : Mode.between.step q = ([], .quoted q []) := by
    rcases hq with rfl | rfl <;> rfl
  have hends : ∀ c ∈ rest.head?, (Mode.atQuote q s.toList).extend? c = none := by
    intro c hc
    have hne : c ≠ q := fun heq => h (heq ▸ hc)
    simp [Mode.extend?, hne]
  rw [Text.toList_quoteWith, List.cons_append, List.append_assoc, List.singleton_append,
    scan_cons hbegin, List.nil_append, scan_double, List.nil_append, scan_of_ends hends]
  rfl

theorem scan_name (s : String) {rest : List Char} (h : rest.head? ≠ some '"') :
    scan .between ((Ident.quote s).toList ++ rest) = .name s :: scan .between rest := by
  rw [Ident.quote, scan_quoteWith (.inl rfl) s h, ofQuoted, if_pos rfl, String.ofList_toList]

theorem scan_string (s : String) {rest : List Char} (h : rest.head? ≠ some '\'') :
    scan .between ((Text.quoteWith '\'' s).toList ++ rest) = .string s :: scan .between rest := by
  rw [scan_quoteWith (.inr rfl) s h, ofQuoted, if_neg (by decide), String.ofList_toList]

/-! ### Placeholders -/

/-- The digits of a number behind a mark are read to their end. -/
theorem scan_digits (mark : Char) (ds digits rest : List Char)
    (hd : ∀ c ∈ digits, c.isDigit = true) :
    scan (.numbered mark ds) (digits ++ rest) = scan (.numbered mark (ds ++ digits)) rest := by
  induction digits generalizing ds with
  | nil => simp
  | cons c digits ih =>
    have hc : c.isDigit = true := hd c (List.mem_cons_self ..)
    have hstep : (Mode.numbered mark ds).step c = ([], .numbered mark (ds ++ [c])) := by
      simp [Mode.step, Mode.extend?, hc]
    rw [List.cons_append, scan_cons hstep, List.nil_append,
      ih _ fun d h => hd d (List.mem_cons_of_mem _ h), List.append_assoc]
    rfl

/-- A mark and a number are a placeholder, unless a digit follows. -/
theorem scan_numbered {mark : Char} (hmark : Mode.between.step mark = ([], .numbered mark []))
    (n : Nat) {rest : List Char} (h : ∀ c ∈ rest.head?, c.isDigit = false) :
    scan .between (mark :: (n.repr.toList ++ rest)) =
      .parameter (some n) :: scan .between rest := by
  have hdigits : ∀ c ∈ Nat.toDigits 10 n, c.isDigit = true := fun c hc =>
    Nat.isDigit_of_mem_toDigits (by decide) (by decide) hc
  have hends : ∀ c ∈ rest.head?, (Mode.numbered mark (Nat.toDigits 10 n)).extend? c = none := by
    intro c hc
    simp [Mode.extend?, h c hc]
  -- read back in base ten, the digits of a number are the number
  rw [scan_cons hmark, Nat.toList_repr, List.nil_append, scan_digits _ _ _ _ hdigits,
    List.nil_append, scan_of_ends hends]
  simp [Mode.finish]

/-- A lexeme as a style shows it: placeholders carry their number only if the style writes it. -/
def Lexeme.shown (style : PlaceholderStyle) : Lexeme → Lexeme
  | parameter n => parameter (if style.isNumbered then n else none)
  | l => l

/-- **A placeholder is one lexeme** in every style, unless a digit follows. -/
theorem scan_placeholder (style : PlaceholderStyle) (n : Nat) {rest : List Char}
    (h : ∀ c ∈ rest.head?, c.isDigit = false) :
    scan .between ((style.placeholder n).toList ++ rest) =
      (Lexeme.parameter (some n)).shown style :: scan .between rest := by
  have hrepr : toString (n : Int) = n.repr := rfl
  -- two styles show the number, which a digit behind it would change
  cases style with
  | dollar =>
    rw [PlaceholderStyle.placeholder, hrepr, String.toList_append]
    exact scan_numbered rfl n h
  | colon =>
    rw [PlaceholderStyle.placeholder, hrepr, String.toList_append]
    exact scan_numbered rfl n h
  | question =>
    rw [PlaceholderStyle.placeholder]
    rfl
  | percent =>
    rw [PlaceholderStyle.placeholder]
    rfl

/-! ### Operators -/

/-- A text that reads as one operator wherever a blank follows. -/
def IsOperator (s : String) : Prop :=
  ∀ rest, scan .between (s.toList ++ ' ' :: rest) = .operator s :: scan .between rest

theorem isOperator_like : IsOperator "LIKE" := fun _ => rfl

theorem isOperator_ilike : IsOperator "ILIKE" := fun _ => rfl

/-- An operator whose phrase a reader can tell from everything around it. -/
def Phrase.Legible : Phrase → Prop
  | symbol sign => IsOperator sign
  | membership sign => IsOperator sign
  | pattern operator _ _ => IsOperator operator

/-! ### The lexemes of siblings -/

/-- A test that can be read: its table, if there is one, has a name, and its phrase is legible. -/
structure Test.Legible (t : Test) : Prop where
  /-- An empty table is not written. -/
  table_ne : t.column.table ≠ some ""
  phrase : t.phrase.Legible

/-- The lexemes of a column. -/
def columnLexemes (c : Column) : List Lexeme :=
  match c.table with
  | some t => [.name t, .dot, .name c.name]
  | none => [.name c.name]

/-- The lexemes of a test. -/
def Test.lexemes (t : Test) : List Lexeme :=
  match t.phrase with
  | .symbol sign => columnLexemes t.column ++ [.operator sign, .parameter (some t.number)]
  | .membership sign =>
    [.parameter (some t.number), .operator sign, .any, .opening] ++
      (columnLexemes t.column ++ [.closing])
  | .pattern operator before after =>
    columnLexemes t.column ++
      [.operator operator, .string before, .concat, .parameter (some t.number), .concat,
        .string after]

/-- The lexeme of a joiner, if there is one. -/
def joinerLexemes : Option Joiner → List Lexeme
  | some j => [.joiner j]
  | none => []

mutual

/-- The lexemes of a term, its joiner left out. -/
def Term.lexemes : Term → List Lexeme
  | .test _ t => t.lexemes
  | .group _ ts => .opening :: (lexemesOf true ts ++ [.closing])

/-- The lexemes of siblings; the very first one does not show its joiner. -/
def lexemesOf (first : Bool) : List Term → List Lexeme
  | [] => []
  | t :: ts => (if first then [] else joinerLexemes t.joiner) ++ (t.lexemes ++ lexemesOf false ts)

end

theorem lexemesOf_cons (first : Bool) (t : Term) (ts : List Term) :
    lexemesOf first (t :: ts) =
      (if first then [] else joinerLexemes t.joiner) ++ (t.lexemes ++ lexemesOf false ts) := rfl

theorem toList_sql_of_table {c : Column} {t : String} (h : c.table = some t) (ht : t ≠ "") :
    c.sql.toList = (Ident.quote t).toList ++ '.' :: (Ident.quote c.name).toList := by
  have hq : c.qualifier = some t := by
    simp [Column.qualifier, h, ht]
  simp [Column.sql, hq]

theorem sql_of_no_table {c : Column} (h : c.table = none) : c.sql = Ident.quote c.name := by
  have hq : c.qualifier = none := by simp [Column.qualifier, h]
  simp [Column.sql, hq]

/-- A column is read as its table and its name, unless a double quote follows. -/
theorem scan_column {c : Column} (hc : c.table ≠ some "") {rest : List Char}
    (h : rest.head? ≠ some '"') :
    scan .between (c.sql.toList ++ rest) = columnLexemes c ++ scan .between rest := by
  unfold columnLexemes
  cases htable : c.table with
  | none => rw [sql_of_no_table htable, scan_name _ h]; rfl
  | some t =>
    have ht : t ≠ "" := fun h => hc (h ▸ htable)
    rw [toList_sql_of_table htable ht, List.append_assoc, scan_name _ (by simp), List.cons_append,
      scan_dot, scan_name _ h]
    rfl

/-- What may follow a term: a blank, or nothing. -/
def Clear (rest : List Char) : Prop := ∀ c ∈ rest.head?, c = ' '

theorem clear_blank (rest : List Char) : Clear (' ' :: rest) := by
  intro c hc
  exact (Option.some.inj hc).symm

theorem clear_cases {rest : List Char} (h : Clear rest) :
    rest = [] ∨ ∃ more, rest = ' ' :: more := by
  cases rest with
  | nil => exact .inl rfl
  | cons c more => exact .inr ⟨more, by rw [h c rfl]⟩

/-- **A test is read as it is meant.** -/
theorem scan_test (style : PlaceholderStyle) {t : Test} (ht : t.Legible) {rest : List Char}
    (h : Clear rest) :
    scan .between ((write style t.pieces).toList ++ rest) =
      t.lexemes.map (Lexeme.shown style) ++ scan .between rest := by
  -- what follows is empty or a blank, so no placeholder and no string runs on
  have hdigit : ∀ c ∈ rest.head?, c.isDigit = false := by
    intro c hc
    rw [h c hc]
    rfl
  have hquote : rest.head? ≠ some '\'' := by
    intro hc
    exact absurd (h _ hc) (by decide)
  have hplain : ∀ rest', scan .between (t.column.sql.toList ++ ' ' :: rest') =
      columnLexemes t.column ++ scan .between rest' := fun rest' =>
    scan_column ht.table_ne (by simp)
  have hcolumn : (columnLexemes t.column).map (Lexeme.shown style) = columnLexemes t.column := by
    unfold columnLexemes
    split <;> rfl
  have hphrase := ht.phrase
  unfold Test.pieces Test.lexemes
  -- for each phrase the text is laid out as characters and then scanned from left to right
  cases hp : t.phrase with
  | symbol sign =>
    rw [hp] at hphrase
    simp only [write_cons, write_nil, Piece.text, String.toList_append, List.append_assoc,
      String.reduceToList, List.cons_append, List.nil_append, List.append_nil]
    rw [hplain, hphrase, scan_placeholder style t.number hdigit]
    simp [hcolumn, Lexeme.shown]
  | membership sign =>
    rw [hp] at hphrase
    have hany : ∀ rest', scan .between ('A' :: 'N' :: 'Y' :: '(' :: rest') =
        .any :: .opening :: scan .between rest' := fun _ => rfl
    simp only [write_cons, write_nil, Piece.text, String.toList_append, List.append_assoc,
      String.reduceToList, List.cons_append, List.nil_append, List.append_nil]
    rw [scan_placeholder style t.number (by simp), scan_blank, hphrase, hany,
      scan_column ht.table_ne (by simp), scan_closing]
    simp [hcolumn, Lexeme.shown]
  | pattern operator before after =>
    rw [hp] at hphrase
    have hbars : ∀ rest', scan .between (' ' :: '|' :: '|' :: ' ' :: rest') =
        .concat :: scan .between rest' := fun _ => rfl
    simp only [write_cons, write_nil, Piece.text, String.toList_append, List.append_assoc,
      String.reduceToList, List.cons_append, List.nil_append, List.append_nil]
    rw [hplain, hphrase, scan_string before (by simp), hbars,
      scan_placeholder style t.number (by simp), hbars, scan_string after hquote]
    simp [hcolumn, Lexeme.shown]

/-- What stands between a term and the sibling before it is read as its joiner. -/
theorem scan_between (style : PlaceholderStyle) (j : Option Joiner) (rest : List Char) :
    scan .between ((between j).toList ++ rest) =
      (joinerLexemes j).map (Lexeme.shown style) ++ scan .between rest := by
  rcases j with _ | _ | _
  · rfl
  · rfl
  · rfl

theorem clear_pieces (style : PlaceholderStyle) (ts : List Term) {rest : List Char}
    (h : Clear rest) : Clear ((write style (pieces false ts)).toList ++ rest) := by
  cases ts with
  | nil => simpa using h
  | cons t ts =>
    -- whatever the joiner, it begins with a space
    have hlead : ∃ cs, (between t.joiner).toList = ' ' :: cs := by
      rcases t.joiner with _ | _ | _
      · exact ⟨_, rfl⟩
      · exact ⟨_, rfl⟩
      · exact ⟨_, rfl⟩
    obtain ⟨cs, hcs⟩ := hlead
    intro c hc
    simp [Piece.text, hcs] at hc
    exact hc.symm

/-- **A clause is read as it is meant.** Scanned in any surroundings that begin with a blank, the
text of siblings gives the lexemes of the siblings. -/
theorem scan_pieces (style : PlaceholderStyle) (first : Bool) {ts : List Term}
    (ht : ∀ t ∈ tests ts, t.Legible) {rest : List Char} (h : Clear rest) :
    scan .between ((write style (pieces first ts)).toList ++ rest) =
      (lexemesOf first ts).map (Lexeme.shown style) ++ scan .between rest := by
  -- what a term shows in front of itself, whatever it is
  have hlead : ∀ (first : Bool) (t : Term) (rest : List Char),
      scan .between ((write style (if first then [] else [.verbatim (between t.joiner)])).toList ++
        rest) = (if first then [] else joinerLexemes t.joiner).map (Lexeme.shown style) ++
          scan .between rest := by
    intro first t rest
    cases first with
    | true => rfl
    | false => simpa [Piece.text] using scan_between style t.joiner rest
  induction ts using forest_induction generalizing first rest with
  | nil => rfl
  | test j t ts ih =>
    have hts : ∀ u ∈ tests ts, u.Legible := fun u hu => ht u (List.mem_cons_of_mem _ hu)
    rw [pieces_cons, lexemesOf_cons, write_append, write_append, Term.pieces_test]
    simp only [String.toList_append, List.append_assoc, List.map_append]
    rw [hlead, scan_test style (ht t (List.mem_cons_self ..)) (clear_pieces style ts h),
      ih false hts h]
    rfl
  | group j inner ts ihInner ih =>
    -- inside the brackets stand blanks, so the siblings there are surrounded as any others are
    have hinner : ∀ u ∈ tests inner, u.Legible := fun u hu => ht u (List.mem_append_left _ hu)
    have hts : ∀ u ∈ tests ts, u.Legible := fun u hu => ht u (List.mem_append_right _ hu)
    rw [pieces_cons, lexemesOf_cons, write_append, write_append, Term.pieces_group]
    simp only [write_cons, write_append, write_nil, Piece.text, String.toList_append,
      List.append_assoc, List.map_append, String.reduceToList, List.cons_append, List.nil_append]
    rw [hlead, scan_opening, scan_blank, ihInner true hinner (clear_blank _), scan_blank,
      scan_closing, ih false hts h]
    simp [Term.lexemes, Lexeme.shown]

/-! ### Numbers for the placeholders that show none -/

/-- The placeholders among lexemes, each with its number if it shows one. -/
def parameters (ls : List Lexeme) : List (Option Nat) :=
  ls.filterMap fun l => match l with
    | .parameter n => some n
    | _ => none

theorem parameters_append (a b : List Lexeme) :
    parameters (a ++ b) = parameters a ++ parameters b := List.filterMap_append

/-- **Counting gives the numbers back.** Placeholders that are numbered without a gap can be shown
in any style: those that show no number are numbered by counting. -/
theorem enumerate_shown (style : PlaceholderStyle) {ls : List Lexeme} {bound n : Nat}
    (h : parameters ls = (List.range' (bound + 1) n).map some) :
    enumerate bound (ls.map (Lexeme.shown style)) = ls := by
  induction ls generalizing bound n with
  | nil => rfl
  | cons l ls ih =>
    cases l with
    | parameter number =>
      cases n with
      | zero => exact absurd h (List.cons_ne_nil _ _)
      | succ n =>
        -- the first number is the one counting starts with, the others go on from there
        have hcons : number :: parameters ls =
            some (bound + 1) :: (List.range' (bound + 1 + 1) n).map some := h
        obtain ⟨rfl, htail⟩ := List.cons.inj hcons
        have hmax : max bound (bound + 1) = bound + 1 := Nat.max_eq_right (Nat.le_succ _)
        rw [List.map_cons, Lexeme.shown]
        cases style.isNumbered with
        | true => rw [if_pos rfl, enumerate, hmax, ih htail]
        | false => rw [if_neg Bool.false_ne_true, enumerate, ih htail]
    | _ => exact congrArg _ (ih h)

theorem parameters_columnLexemes (c : Column) : parameters (columnLexemes c) = [] := by
  unfold columnLexemes
  split <;> rfl

theorem parameters_test (t : Test) : parameters t.lexemes = [some t.number] := by
  have hcolumn := parameters_columnLexemes t.column
  unfold Test.lexemes
  -- a phrase shows one placeholder, in front of the column or behind it
  cases t.phrase with
  | symbol sign =>
    rw [parameters_append, hcolumn]
    rfl
  | membership sign =>
    rw [parameters_append, parameters_append, hcolumn]
    rfl
  | pattern operator before after =>
    rw [parameters_append, hcolumn]
    rfl

/-- The placeholders of siblings are the parameters of their tests, from left to right. -/
theorem parameters_lexemesOf (first : Bool) (ts : List Term) :
    parameters (lexemesOf first ts) = (tests ts).map fun t => some t.number := by
  -- a joiner is no parameter
  have hlead : ∀ (first : Bool) (t : Term),
      parameters (if first then [] else joinerLexemes t.joiner) = [] := by
    intro first t
    cases first with
    | true => rfl
    | false => rcases t.joiner with _ | _ <;> rfl
  induction ts using forest_induction generalizing first with
  | nil => rfl
  | test j t ts ih =>
    rw [lexemesOf_cons, parameters_append, parameters_append, hlead, ih]
    show [] ++ (parameters t.lexemes ++ _) = _
    rw [parameters_test]
    rfl
  | group j inner ts ihInner ih =>
    rw [lexemesOf_cons, parameters_append, parameters_append, hlead, ih, tests_group_cons,
      List.map_append]
    show [] ++ (parameters (lexemesOf true inner ++ [.closing]) ++ _) = _
    rw [parameters_append, ihInner, List.nil_append]
    simp [parameters]

/-- **The lexemes of a clause.** The text of siblings whose parameters are numbered without a gap
gives their lexemes, in every placeholder style. -/
theorem lexemes_write (style : PlaceholderStyle) {ts : List Term}
    (ht : ∀ t ∈ tests ts, t.Legible) {bound n : Nat}
    (hn : (tests ts).map Test.number = List.range' (bound + 1) n) :
    lexemes bound (write style (pieces true ts)) = lexemesOf true ts := by
  have hclear : Clear [] := fun c hc => absurd hc (by simp)
  have hscan : scan .between (write style (pieces true ts)).toList =
      (lexemesOf true ts).map (Lexeme.shown style) := by
    have := scan_pieces style true ht hclear
    simpa [scan, Mode.finish] using this
  have hparameters : parameters (lexemesOf true ts) = (List.range' (bound + 1) n).map some := by
    rw [parameters_lexemesOf, ← hn, List.map_map]
    rfl
  rw [lexemes, hscan, enumerate_shown style hparameters]

end BoundSql.Sql
