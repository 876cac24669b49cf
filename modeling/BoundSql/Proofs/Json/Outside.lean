import BoundSql.Proofs.Json.Grammar

/-!
# Characters outside strings

The names of the floating point numbers that are not finite have a capital `N` or `I`, and the
grammar of JSON has neither of them outside strings. So to find such a name in a text, however deep
it lies, it is enough to look at the characters outside strings. A text that is complete, with every
string closed, can be looked at apart from what stands around it.

* `outside` — the characters that are in no string;
* `IsClosed` — texts that can be looked at apart;
* `Denotes.tidy` — what the grammar has outside strings;
* `IsText.isClosed` — the texts of JSON values can be looked at apart, and `isClosed_array` and
  `isClosed_object` say what of their parts is outside strings.
-/

namespace BoundSql.Json

/-! ### Outside and inside strings -/

mutual

/-- **The characters outside strings.** -/
def outside : List Char → List Char
  | '"' :: cs => behindQuote cs
  | c :: cs => c :: outside cs
  | [] => []

/-- The characters outside strings, where a string is open. -/
def behindQuote : List Char → List Char
  | '"' :: cs => outside cs
  | '\\' :: _ :: cs => behindQuote cs
  | _ :: cs => behindQuote cs
  | [] => []

end

theorem outside_cons {c : Char} (h : c ≠ '"') (cs : List Char) :
    outside (c :: cs) = c :: outside cs := by
  rw [outside]
  exact h

theorem behindQuote_cons {c : Char} (hquote : c ≠ '"') (hslash : c ≠ '\\') (cs : List Char) :
    behindQuote (c :: cs) = behindQuote cs := by
  rw [behindQuote]
  · exact hquote
  · exact fun _ _ hc => absurd hc hslash

/-- A hexadecimal digit neither closes a string nor starts an escape. -/
theorem behindQuote_hexDigit {c : Char} {n : Nat} (h : Text.hexDigit? c = some n) (cs : List Char) :
    behindQuote (c :: cs) = behindQuote cs := by
  refine behindQuote_cons ?_ ?_ cs
  · rintro rfl
    cases h
  · rintro rfl
    cases h

/-- A character of a string is passed over. -/
theorem behindQuote_append_of_isChar {cs : List Char} {us : List Nat} (h : IsChar cs us)
    (rest : List Char) : behindQuote (cs ++ rest) = behindQuote rest := by
  cases h with
  | plain hquote hslash _ => exact behindQuote_cons hquote hslash rest
  | short _ => rfl
  | @unit a b c d n h =>
    -- each of the four characters is a digit, or there would be no number
    simp only [hexNumber?, List.foldlM_cons, Option.bind_eq_bind, Option.bind_eq_some_iff,
      Option.map_eq_some_iff] at h
    obtain ⟨_, ⟨_, ha, _⟩, _, ⟨_, hb, _⟩, _, ⟨_, hc, _⟩, _, ⟨_, hd, _⟩, _⟩ := h
    show behindQuote (a :: b :: c :: d :: rest) = _
    rw [behindQuote_hexDigit ha, behindQuote_hexDigit hb, behindQuote_hexDigit hc,
      behindQuote_hexDigit hd]

theorem behindQuote_append {cs : List Char} {us : List Nat} (h : IsChars cs us)
    (rest : List Char) : behindQuote (cs ++ rest) = behindQuote rest := by
  induction h with
  | nil => rfl
  | cons h _ ih => rw [List.append_assoc, behindQuote_append_of_isChar h, ih]

/-- **A string is passed over**, whatever it holds. -/
theorem outside_string {cs : List Char} {s : String} (h : IsString cs s) (rest : List Char) :
    outside (cs ++ rest) = outside rest := by
  cases h with
  | mk h =>
    rw [List.cons_append, List.append_assoc, outside, behindQuote_append h]
    rfl

/-! ### Texts that can be looked at apart -/

/-- **A text with every string in it closed**: what stands behind it is outside. -/
def IsClosed (cs : List Char) : Prop :=
  ∀ rest, outside (cs ++ rest) = outside cs ++ outside rest

theorem isClosed_nil : IsClosed [] := fun _ => rfl

theorem IsClosed.append {cs ds : List Char} (h : IsClosed cs) (h' : IsClosed ds) :
    IsClosed (cs ++ ds) := by
  intro rest
  rw [List.append_assoc, h, h, h', List.append_assoc]

theorem IsClosed.cons {c : Char} (hc : c ≠ '"') {cs : List Char} (h : IsClosed cs) :
    IsClosed (c :: cs) := by
  intro rest
  rw [List.cons_append, outside_cons hc, outside_cons hc, h, List.cons_append]

theorem outside_of_not_mem {cs : List Char} (h : '"' ∉ cs) : IsClosed cs ∧ outside cs = cs := by
  induction cs with
  | nil => exact ⟨isClosed_nil, rfl⟩
  | cons c cs ih =>
    simp only [List.mem_cons, not_or] at h
    obtain ⟨hc, hcs⟩ := h
    obtain ⟨hclosed, hsame⟩ := ih hcs
    exact ⟨hclosed.cons (Ne.symm hc), by rw [outside_cons (Ne.symm hc), hsame]⟩

theorem isClosed_string {cs : List Char} {s : String} (h : IsString cs s) : IsClosed cs := by
  intro rest
  have hnone := outside_string h []
  rw [List.append_nil] at hnone
  rw [outside_string h, hnone]
  rfl

/-! ### What the grammar has outside strings -/

/-- A closed text with no capital `N` or `I` outside strings. -/
structure Tidy (cs : List Char) : Prop where
  isClosed : IsClosed cs
  letters : ∀ c ∈ outside cs, c ≠ 'N' ∧ c ≠ 'I'

theorem Tidy.append {cs ds : List Char} (h : Tidy cs) (h' : Tidy ds) : Tidy (cs ++ ds) where
  isClosed := h.isClosed.append h'.isClosed
  letters := by
    rw [h.isClosed]
    exact List.forall_mem_append.mpr ⟨h.letters, h'.letters⟩

theorem tidy_of_forall {cs : List Char} (h : ∀ c ∈ cs, c ≠ '"' ∧ c ≠ 'N' ∧ c ≠ 'I') : Tidy cs := by
  obtain ⟨hclosed, hsame⟩ := outside_of_not_mem fun hquote => (h '"' hquote).1 rfl
  refine ⟨hclosed, ?_⟩
  rw [hsame]
  exact fun c hc => (h c hc).2

theorem tidy_singleton {c : Char} (h : c ≠ '"' ∧ c ≠ 'N' ∧ c ≠ 'I') : Tidy [c] :=
  tidy_of_forall (List.forall_mem_singleton.mpr h)

theorem tidy_gap {gap : List Char} (h : IsGap gap) : Tidy gap := by
  refine tidy_of_forall fun c hc => ?_
  have hgap := h c hc
  refine ⟨?_, ?_, ?_⟩ <;> rintro rfl <;> cases hgap

theorem tidy_word {cs : List Char} {v : Value} (h : IsWord cs v) : Tidy cs := by
  refine tidy_of_forall ?_
  cases h with
  | number hnumber =>
    -- none of the three is a character of a number
    intro c hc
    have hchar := hnumber.chars c hc
    refine ⟨?_, ?_, ?_⟩ <;> rintro rfl <;> cases hchar
  | _ => simp

theorem tidy_string {cs : List Char} {s : String} (h : IsString cs s) : Tidy cs := by
  have hnone := outside_string h []
  rw [List.append_nil] at hnone
  refine ⟨isClosed_string h, ?_⟩
  rw [hnone]
  exact List.forall_mem_nil _

theorem Joined.tidy {close : Char} (hclose : Tidy [close]) {items : List (List Char)}
    {cs : List Char} (h : Joined close items cs) (hitems : ∀ i ∈ items, Tidy i) : Tidy cs := by
  have hcomma : Tidy [','] := tidy_singleton (by decide)
  induction h with
  | last hgap hgap' =>
    have hitem := hitems _ List.mem_cons_self
    exact (tidy_gap hgap).append (hitem.append ((tidy_gap hgap').append hclose))
  | more hgap hgap' _ ih =>
    obtain ⟨hitem, hrest⟩ := List.forall_mem_cons.mp hitems
    exact (tidy_gap hgap).append
      (hitem.append ((tidy_gap hgap').append (hcomma.append (ih hrest))))

theorem Listed.tidy {close : Char} (hclose : Tidy [close]) {items : List (List Char)}
    {cs : List Char} (h : Listed close items cs) (hitems : ∀ i ∈ items, Tidy i) : Tidy cs := by
  cases h with
  | none hgap => exact (tidy_gap hgap).append hclose
  | some h => exact h.tidy hclose hitems

theorem Member.tidy {m : Member} (hm : m.IsKeyed) (hvalue : Tidy m.chars) : Tidy m.text := by
  have hcolon : Tidy [':'] := tidy_singleton (by decide)
  exact (tidy_string hm.key).append ((tidy_gap hm.before).append
    (hcolon.append ((tidy_gap hm.after).append hvalue)))

/-- **The grammar has no capital `N` or `I` outside strings.** -/
theorem Denotes.tidy {cs : List Char} {v : Value} (h : Denotes cs v) : Tidy cs := by
  induction h with
  | word h => exact tidy_word h
  | string h => exact tidy_string h
  | array _ listed ih =>
    have hopen : Tidy ['['] := tidy_singleton (by decide)
    exact hopen.append (listed.tidy (tidy_singleton (by decide)) (List.forall_mem_map.mpr ih))
  | object hkeys _ listed ih =>
    -- a member is a string, a colon and a value, each of them tidy
    have hopen : Tidy ['\x7b'] := tidy_singleton (by decide)
    exact hopen.append (listed.tidy (tidy_singleton (by decide))
      (List.forall_mem_map.mpr fun m hm => Member.tidy (hkeys m hm) (ih m hm)))

/-- So no JSON text has one of them outside strings. -/
theorem IsJsonText.letters {s : String} (h : IsJsonText s) :
    ∀ c ∈ outside s.toList, c ≠ 'N' ∧ c ≠ 'I' := by
  obtain ⟨v, hv, hgap, hgap', hs⟩ := h
  rw [hs]
  exact ((tidy_gap hgap).append (hv.tidy.append (tidy_gap hgap'))).letters

/-! ### The texts of JSON values -/

/-- What is outside strings in a part is outside strings in the whole. -/
theorem subset_outside_append {cs ds part : List Char} (h : IsClosed cs)
    (hpart : outside part ⊆ outside cs ∨ outside part ⊆ outside ds) :
    outside part ⊆ outside (cs ++ ds) := by
  rw [h]
  rcases hpart with hpart | hpart
  · exact List.subset_append_of_subset_left _ hpart
  · exact List.subset_append_of_subset_right _ hpart

/-- Items up to a closing bracket are closed if each of them is, and what is outside strings in one
of them is so in all. -/
theorem isClosed_closed {close : Char} (hclose : close ≠ '"') {items : List String}
    (h : ∀ s ∈ items, IsClosed s.toList) : IsClosed (closed close items) ∧
      ∀ s ∈ items, outside s.toList ⊆ outside (closed close items) := by
  have hbracket : IsClosed [close] := .cons hclose isClosed_nil
  have hsign : IsClosed [',', ' '] := .cons (by decide) (.cons (by decide) isClosed_nil)
  induction items with
  | nil => exact ⟨hbracket, List.forall_mem_nil _⟩
  | cons s items ih =>
    obtain ⟨hs, hitems⟩ := List.forall_mem_cons.mp h
    obtain ⟨hrest, hsubset⟩ := ih hitems
    -- behind the first item there is the bracket, or a comma with the other items
    have hbehind : IsClosed (behindFirst close items) ∧
        outside (closed close items) ⊆ outside (behindFirst close items) := by
      cases items with
      | nil => exact ⟨hbracket, List.Subset.refl _⟩
      | cons t items =>
        exact ⟨hsign.append hrest, subset_outside_append hsign (.inr (List.Subset.refl _))⟩
    rw [closed_cons]
    refine ⟨hs.append hbehind.1, List.forall_mem_cons.mpr ⟨?_, fun t ht => ?_⟩⟩
    · exact subset_outside_append hs (.inl (List.Subset.refl _))
    · exact subset_outside_append hs (.inr (List.Subset.trans (hsubset t ht) hbehind.2))

/-- **The parts of an array** show outside its strings what they show outside theirs. -/
theorem isClosed_array {items : List String} (h : ∀ s ∈ items, IsClosed s.toList) :
    IsClosed (array items).toList ∧
      ∀ s ∈ items, outside s.toList ⊆ outside (array items).toList := by
  have hopen : IsClosed ['['] := .cons (by decide) isClosed_nil
  obtain ⟨hclosed, hsubset⟩ := isClosed_closed (by decide : ']' ≠ '"') h
  rw [toList_array]
  exact ⟨hopen.append hclosed, fun s hs => subset_outside_append hopen (.inr (hsubset s hs))⟩

/-- **The members of an object** show outside its strings what they show outside theirs. -/
theorem isClosed_object {members : List String} (h : ∀ m ∈ members, IsClosed m.toList) :
    IsClosed (object members).toList ∧
      ∀ m ∈ members, outside m.toList ⊆ outside (object members).toList := by
  have hopen : IsClosed ['\x7b'] := .cons (by decide) isClosed_nil
  obtain ⟨hclosed, hsubset⟩ := isClosed_closed (by decide : '\x7d' ≠ '"') h
  rw [toList_object]
  exact ⟨hopen.append hclosed, fun m hm => subset_outside_append hopen (.inr (hsubset m hm))⟩

/-- And a member shows what its value shows. -/
theorem isClosed_entry (key : String) {s : String} (h : IsClosed s.toList) :
    IsClosed (entry key s).toList ∧ outside s.toList ⊆ outside (entry key s).toList := by
  have hkey : IsClosed (string key).toList := isClosed_string (isString_string key)
  have hsign : IsClosed [':', ' '] := .cons (by decide) (.cons (by decide) isClosed_nil)
  rw [toList_entry]
  exact ⟨hkey.append (hsign.append h), subset_outside_append hkey
    (.inr (subset_outside_append hsign (.inr (List.Subset.refl _))))⟩

/-- **The text of a JSON value is closed.** -/
theorem IsText.isClosed {s : String} (h : IsText s) : IsClosed s.toList := by
  induction h with
  | @word w _ hword =>
    -- without a quote no string is opened
    have hquote : '"' ∉ w.toList := fun hmem => absurd (hword '"' hmem) (by decide)
    exact (outside_of_not_mem hquote).1
  | string s => exact isClosed_string (isString_string s)
  | array _ ih => exact (isClosed_array ih).1
  | @object members _ ih =>
    have hmembers : ∀ m ∈ members.map (fun m => entry m.1 m.2), IsClosed m.toList :=
      List.forall_mem_map.mpr fun m hm => (isClosed_entry m.1 (ih m hm)).1
    exact (isClosed_object hmembers).1

end BoundSql.Json
