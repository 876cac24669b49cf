import BoundSql.Proofs.Insert.ArrayText

/-!
# Array literals taken apart

The quoting of an array literal can be undone by a reader that knows no blanks and no keyword: it
cuts what stands between the braces at the commas outside quotes, takes the backslashes out of a
piece in quotes, and leaves any other piece as it is. This reader finds the texts of every literal,
whatever their characters are, so no two lists of texts have the same literal.

* `pieces_elements` — a literal is cut into its elements and nowhere else;
* `pieceText_elementChars` — an element is read as the text it was written for;
* `uniquely_decodable` — every literal is undone, and what is bound for an array column is the same
  only for the same texts.
-/

namespace BoundSql.ArrayLiteral

/-! ### The reader of pieces -/

/-- Where a character stands: outside quotes, between quotes, or behind a backslash there. -/
inductive Side where
  | outside
  | inside
  | escaped
deriving DecidableEq

/-- Where the character behind `c` stands. -/
def Side.next (c : Char) : Side → Side
  | outside => if c = '"' then inside else outside
  | inside => if c = '"' then outside else if c = '\\' then escaped else inside
  | escaped => inside

/-- The pieces between the commas outside quotes, where `piece` is what was read of the first. -/
def pieces (side : Side) (piece : List Char) : List Char → List (List Char)
  | [] => [piece]
  | c :: cs =>
    if side = .outside ∧ c = ',' then piece :: pieces .outside [] cs
    else pieces (side.next c) (piece ++ [c]) cs

/-- What stands in front of the closing quote; behind a backslash a character stands for itself. -/
def unescape (escaped : Bool) : List Char → List Char
  | [] => []
  | c :: cs =>
    if escaped then c :: unescape false cs
    else if c = '\\' then unescape true cs
    else if c = '"' then []
    else c :: unescape false cs

/-- The text of a piece. -/
def pieceText : List Char → String
  | '"' :: cs => String.ofList (unescape false cs)
  | cs => String.ofList cs

/-- **The texts of an array literal**, by its quoting alone. -/
def decode (s : String) : List String :=
  if s = "\x7b\x7d" then []
  else (pieces .outside [] (s.toList.drop 1).dropLast).map pieceText

/-! ### One element -/

section Element

variable {side : Side} {c : Char} {cs piece rest : List Char}

/-- Any character but a comma outside quotes belongs to the piece. -/
theorem pieces_cons (h : ¬ (side = .outside ∧ c = ',')) :
    pieces side piece (c :: cs) = pieces (side.next c) (piece ++ [c]) cs := if_neg h

/-- Between quotes no escaped text ends the piece, or the quotes. -/
theorem pieces_escaped :
    pieces .inside piece (cs.flatMap escapeChar ++ rest) =
      pieces .inside (piece ++ cs.flatMap escapeChar) rest := by
  have hinside : ∀ {side : Side} {c : Char}, side ≠ .outside → ¬ (side = .outside ∧ c = ',') :=
    fun h hcomma => h hcomma.1
  induction cs generalizing piece with
  | nil => rw [List.flatMap_nil, List.nil_append, List.append_nil]
  | cons c cs ih =>
    rw [List.flatMap_cons, List.append_assoc, ← List.append_assoc piece, ← ih]
    -- a syntax character is met behind a backslash, where it changes nothing
    by_cases hsyntax : c = '\\' ∨ c = '"'
    · have hescape : escapeChar c = ['\\', c] := by simp [escapeChar, hsyntax]
      have hslash : Side.inside.next '\\' = .escaped := rfl
      have hback : Side.escaped.next c = .inside := rfl
      rw [hescape, List.cons_append, List.cons_append, pieces_cons (hinside (by decide)), hslash,
        pieces_cons (hinside (by decide)), hback, List.append_assoc]
      rfl
    · have hescape : escapeChar c = [c] := by simp [escapeChar, hsyntax]
      rw [not_or] at hsyntax
      have hstay : Side.inside.next c = .inside := by
        rw [Side.next, if_neg hsyntax.2, if_neg hsyntax.1]
      rw [hescape, List.cons_append, pieces_cons (hinside (by decide)), hstay]
      rfl

/-- A text without special characters belongs to the piece as a whole. -/
theorem pieces_plain (h : ∀ x ∈ cs, isSpecial x = false) :
    pieces .outside piece (cs ++ rest) = pieces .outside (piece ++ cs) rest := by
  induction cs generalizing piece with
  | nil => rw [List.nil_append, List.append_nil]
  | cons c cs ih =>
    obtain ⟨hc, hcs⟩ := List.forall_mem_cons.mp h
    obtain ⟨hcomma, -, -, hquote, -⟩ := ne_of_not_isSpecial hc
    have hstay : Side.outside.next c = .outside := if_neg hquote
    rw [List.cons_append, pieces_cons (fun h => hcomma h.2), hstay, ih hcs, List.append_assoc]
    rfl

/-- **An element is one piece**, and behind it the reader is outside quotes. -/
theorem pieces_elementChars :
    pieces .outside [] (elementChars cs ++ rest) = pieces .outside (elementChars cs) rest := by
  cases hquoted : isQuoted cs with
  | true =>
    -- between the quotes a comma is a character like any other
    have hopen : Side.outside.next '"' = .inside := rfl
    have hclose : Side.inside.next '"' = .outside := rfl
    have hcomma : ∀ side : Side, ¬ (side = .outside ∧ '"' = ',') :=
      fun _ h => absurd h.2 (by decide)
    rw [elementChars_of_isQuoted hquoted, List.cons_append, List.append_assoc,
      pieces_cons (hcomma _), hopen, pieces_escaped, List.singleton_append, pieces_cons (hcomma _),
      hclose]
    rfl
  | false =>
    -- without quotes there is no comma in it
    rw [elementChars_of_not_isQuoted hquoted,
      pieces_plain (not_isSpecial_of_not_isQuoted hquoted)]
    rfl

/-- Escaping is undone up to the closing quote. -/
theorem unescape_flatMap : unescape false (cs.flatMap escapeChar ++ '"' :: rest) = cs := by
  induction cs with
  | nil => rfl
  | cons c cs ih =>
    rw [List.flatMap_cons, List.append_assoc]
    -- only a backslash and a quote are written as two characters
    by_cases hsyntax : c = '\\' ∨ c = '"'
    · have hescape : escapeChar c = ['\\', c] := by simp [escapeChar, hsyntax]
      rw [hescape]
      show c :: unescape false (cs.flatMap escapeChar ++ '"' :: rest) = _
      rw [ih]
    · have hescape : escapeChar c = [c] := by simp [escapeChar, hsyntax]
      rw [not_or] at hsyntax
      rw [hescape, List.singleton_append, unescape, if_neg Bool.false_ne_true, if_neg hsyntax.1,
        if_neg hsyntax.2, ih]

/-- **An element is read as the text it was written for.** -/
theorem pieceText_elementChars : pieceText (elementChars cs) = String.ofList cs := by
  cases hquoted : isQuoted cs with
  | true =>
    rw [elementChars_of_isQuoted hquoted, pieceText, unescape_flatMap]
  | false =>
    rw [elementChars_of_not_isQuoted hquoted]
    have hplain := not_isSpecial_of_not_isQuoted hquoted
    -- a text with a quote in front would have been put in quotes
    rw [pieceText]
    rintro ds rfl
    exact absurd (hplain '"' List.mem_cons_self) (by decide)

theorem elementChars_ne_nil : elementChars cs ≠ [] := by
  cases hquoted : isQuoted cs with
  | true =>
    rw [elementChars_of_isQuoted hquoted]
    exact List.cons_ne_nil _ _
  | false =>
    rw [elementChars_of_not_isQuoted hquoted]
    rintro rfl
    cases hquoted

end Element

/-! ### The whole literal -/

/-- **A literal is cut into its elements** and nowhere else. -/
theorem pieces_elements (t : List Char) (ts : List (List Char)) :
    pieces .outside [] ([','].intercalate ((t :: ts).map elementChars)) =
      (t :: ts).map elementChars := by
  induction ts generalizing t with
  | nil =>
    have hone : [','].intercalate ([t].map elementChars) = elementChars t ++ [] := by
      simp [List.intercalate]
    rw [hone, pieces_elementChars]
    rfl
  | cons u us ih =>
    -- behind an element the reader is outside quotes, so the comma ends the piece
    have hmore : [','].intercalate ((t :: u :: us).map elementChars) =
        elementChars t ++ ',' :: [','].intercalate ((u :: us).map elementChars) := by
      rw [List.map_cons, List.map_cons, List.intercalate_cons_cons, List.append_assoc]
      rfl
    have hcomma : ∀ piece cs, pieces .outside piece (',' :: cs) =
        piece :: pieces .outside [] cs := fun _ _ => if_pos ⟨rfl, rfl⟩
    rw [hmore, pieces_elementChars, hcomma, ih]
    rfl

/-- Only the literal of no texts at all has nothing between its braces. -/
theorem intercalate_elements_ne_nil (t : List Char) (ts : List (List Char)) :
    [','].intercalate ((t :: ts).map elementChars) ≠ [] := by
  intro hnil
  have hpieces := pieces_elements t ts
  rw [hnil] at hpieces
  -- nothing would be one empty piece, and no element is empty
  exact elementChars_ne_nil (List.cons.inj hpieces).1.symm

/-- **Every literal is undone**, whatever characters its texts are made of. -/
theorem decode_ofItems (texts : List String) : decode (ofItems (texts.map Value.text)) = texts := by
  have hchars := toList_ofItems texts
  cases texts with
  | nil => rfl
  | cons t ts =>
    have helements : ((t :: ts).map fun t => elementChars t.toList) =
        (t.toList :: ts.map String.toList).map elementChars := by
      simp
    rw [helements] at hchars
    -- the braces alone are the empty list, and one element is enough to part from that
    have hne : ofItems ((t :: ts).map Value.text) ≠ "\x7b\x7d" := by
      intro heq
      rw [heq] at hchars
      have hnil := (List.cons.inj hchars).2
      exact intercalate_elements_ne_nil _ _ (List.self_eq_append_left.mp hnil)
    have htexts : (t.toList :: ts.map String.toList).map String.ofList = t :: ts := by
      simp [Function.comp_def]
    -- inside the braces the pieces are the elements, and each gives its text back
    calc decode (ofItems ((t :: ts).map Value.text))
        = (pieces .outside []
            ((ofItems ((t :: ts).map Value.text)).toList.drop 1).dropLast).map pieceText :=
          if_neg hne
      _ = ((t.toList :: ts.map String.toList).map elementChars).map pieceText := by
          rw [hchars, List.drop_one, List.tail_cons, List.dropLast_concat, pieces_elements]
      _ = (t.toList :: ts.map String.toList).map String.ofList := by
          rw [List.map_map]
          exact List.map_congr_left fun _ _ => pieceText_elementChars
      _ = t :: ts := htexts

/-- What is bound for a list of texts in an array column is its literal. -/
theorem stored_texts {arrays : List String} {column : String} (h : column ∈ arrays)
    (texts : List String) :
    (Value.list (texts.map .text)).stored arrays column =
      .ok (.text (ofItems (texts.map .text))) := by
  have hcontains : arrays.contains column = true := List.contains_iff_mem.mpr h
  show Value.storedText (arrays.contains column) _ = _
  rw [hcontains]
  rfl

/-- **Array literals are uniquely decodable.** The reader of pieces gives back every list of texts
from its literal. So neither two literals nor what is bound for an array column is the same for two
lists of texts, unless these are the same. -/
theorem uniquely_decodable {arrays : List String} {column : String} (h : column ∈ arrays)
    (texts : List String) :
    decode (ofItems (texts.map .text)) = texts ∧
    (∀ others : List String,
      ofItems (others.map .text) = ofItems (texts.map .text) ↔ others = texts) ∧
    ∀ others : List String, (Value.list (others.map .text)).stored arrays column =
      (Value.list (texts.map .text)).stored arrays column ↔ others = texts := by
  -- the reader undoes every literal, so a literal has one list only
  have hliterals : ∀ others : List String,
      ofItems (others.map .text) = ofItems (texts.map .text) ↔ others = texts := by
    intro others
    constructor
    · intro heq
      rw [← decode_ofItems others, heq, decode_ofItems]
    · rintro rfl
      rfl
  refine ⟨decode_ofItems texts, hliterals, fun others => ?_⟩
  rw [stored_texts h, stored_texts h, ← hliterals others]
  exact ⟨fun heq => Value.text.inj (Except.ok.inj heq), fun heq => by rw [heq]⟩

/-- Texts with every syntax character, one of them ending in a backslash; and no text at all against
one without characters. -/
theorem uniquely_decodable_of_syntax :
    let texts := ["", "a,b", "\\\"", "x\\", "\x7b \x7d", "\\\\\"\\", "plain"]
    "tags" ∈ ["tags"] ∧
    ofItems (texts.map .text) =
      "\x7b\"\",\"a,b\",\"\\\\\\\"\",\"x\\\\\",\"\x7b \x7d\",\"\\\\\\\\\\\"\\\\\",plain\x7d" ∧
    decode (ofItems (texts.map .text)) = texts ∧
    (Value.list []).stored ["tags"] "tags" ≠ (Value.list [.text ""]).stored ["tags"] "tags" := by
  intro texts
  have hcolumn : "tags" ∈ ["tags"] := List.mem_singleton_self _
  have hempty := (uniquely_decodable hcolumn [""]).2.2 []
  exact ⟨hcolumn, by decide, (uniquely_decodable hcolumn texts).1,
    fun heq => absurd (hempty.mp heq) (by decide)⟩

end BoundSql.ArrayLiteral
