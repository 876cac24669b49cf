import BoundSql.Proofs.Clause.Equalities

/-!
# Filters alone and among raw data

A filter can be compiled alone, or as the filter of raw data. Alone it may be a mapping and must not
be a text; among raw data, whatever can be iterated over is read as a list of nodes. So a list means
the same both ways, but the keys of a mapping and the characters of a text are read as nodes that
are malformed: a strict compiler stops at the first of them, a lenient one drops them all.

* `Compiler.selectRaw_rawFilter` — raw data with only a filter;
* `Compiler.selectRaw_of_scalars` — a filter among raw data whose items are no nodes;
* `Compiler.sameOutcome_iff` — where the two ways come to the same.
-/

namespace BoundSql

/-- The forms in which a filter is given: none, a list of nodes, a mapping from names of fields, or,
by mistake, a text or bytes. -/
inductive Value.IsFilter : Value → Prop where
  | null : IsFilter .null
  | list (xs : List Value) : IsFilter (.list xs)
  | mapping {es : Entries} (names : ∀ e ∈ es, ∃ s, e.1.asText? = some s ∧ s ≠ "") :
      IsFilter (.map es)
  | text {v : Value} {s : String} (h : v.asText? = some s) : IsFilter v
  | bytes (bs : List UInt8) : IsFilter (.bytes bs)

/-- The filters that mean the same alone and among raw data. -/
inductive Value.ReadAlike (strict : Bool) : Value → Prop where
  | null : ReadAlike strict .null
  | list (xs : List Value) : ReadAlike strict (.list xs)
  | noEntries : ReadAlike strict (.map [])
  | text (hstrict : strict = true) {v : Value} {s : String} (h : v.asText? = some s)
      (hne : s ≠ "") : ReadAlike strict v
  | bytes (hstrict : strict = true) (b : UInt8) (bs : List UInt8) :
      ReadAlike strict (.bytes (b :: bs))

/-- The items of a text are its characters. -/
theorem Value.items?_of_asText? {v : Value} {s : String} (h : v.asText? = some s) :
    v.items? = some (s.toList.map fun ch => .text (String.singleton ch)) := by
  cases v with
  | text t =>
    cases h
    rfl
  | member type base name value =>
    show ((Value.member type base name value).asText?).map _ = _
    rw [h]
    rfl
  | _ => cases h

/-! ### Items that are no nodes -/

namespace Node

/-- Texts and numbers, which are never nodes. -/
def IsScalar (v : Value) : Prop := v.asText?.isSome ∨ v.asInt?.isSome

theorem readOne_of_scalar (strict : Bool) (path : String) {v : Value} (h : IsScalar v) :
    readOne strict path v = .fail ⟨"expected an object, got " ++ v.typeName, path⟩ := by
  cases v with
  | map es => exact h.elim (fun h => nomatch h) (fun h => nomatch h)
  | record type fields => exact h.elim (fun h => nomatch h) (fun h => nomatch h)
  | _ => rfl

/-- A strict reader stops at an item that is no node. -/
theorem readAll_true_of_scalar (path : String) (index : Nat) {x : Value} (h : IsScalar x)
    (xs : List Value) :
    (readAll true path index (x :: xs)).result =
      .error ⟨"expected an object, got " ++ x.typeName, itemPath path index⟩ := by
  rw [readAll, readOne_of_scalar true (itemPath path index) h]
  rfl

/-- **A lenient reader drops all items** that are no nodes. -/
theorem readAll_false_of_scalars (path : String) (index : Nat) {xs : List Value}
    (h : ∀ x ∈ xs, IsScalar x) : (readAll false path index xs).result = .ok [] := by
  induction xs generalizing index with
  | nil => rfl
  | cons x xs ih =>
    have hrest := ih (index + 1) fun y hy => h y (List.mem_cons_of_mem x hy)
    rw [readAll, readOne_of_scalar false (itemPath path index) (h x List.mem_cons_self)]
    show (readAll false path (index + 1) xs).result.map _ = _
    rw [hrest]
    rfl

theorem isScalar_of_mem_keys {es : Entries}
    (names : ∀ e ∈ es, ∃ s, e.1.asText? = some s ∧ s ≠ "") :
    ∀ x ∈ es.map (·.1), IsScalar x := by
  intro x hx
  obtain ⟨e, he, rfl⟩ := List.mem_map.mp hx
  obtain ⟨s, hs, -⟩ := names e he
  exact .inl (by rw [hs]; rfl)

theorem isScalar_of_mem_chars {s : String} :
    ∀ x ∈ s.toList.map fun ch => Value.text (String.singleton ch), IsScalar x := by
  intro x hx
  obtain ⟨ch, -, rfl⟩ := List.mem_map.mp hx
  exact .inl rfl

theorem isScalar_of_mem_bytes {bs : List UInt8} :
    ∀ x ∈ bs.map fun b => Value.int b.toNat, IsScalar x := by
  intro x hx
  obtain ⟨b, -, rfl⟩ := List.mem_map.mp hx
  exact .inr rfl

end Node

namespace Selection

/-- Raw data that has only a filter. -/
def rawFilter (f : Value) : Value := .map [(.text "filters", f)]

/-- **Raw data with only a filter** has the nodes of the filter, read as a list. -/
theorem read_rawFilter (strict : Bool) {f : Value} (hf : f ≠ .null) :
    read strict (rawFilter f) = (Node.readItems strict Node.rootPath f).map ofNodes := by
  have hfilters : readFilters strict [(.text "filters", f)] =
      (Node.readItems strict Node.rootPath f).map some :=
    Compiler.readFilters_of_filter strict rfl hf
  -- besides the filter there is nothing to check
  have hcheck (ns : List Node) :
      ((checkWith (.ok (some ns)) [(.text "filters", f)]).toExcept .selection).mapError
        Error.invalid = .ok (ofNodes ns) := rfl
  show (readFilters strict [(.text "filters", f)]).bind _ = _
  rw [hfilters, Report.bind_map]
  simp only [hcheck]
  exact Report.bind_ok _ ofNodes

end Selection

namespace Compiler

variable (c : Compiler)

/-- Raw data with only a filter is compiled like a filter alone, once its nodes are read. -/
theorem selectRaw_rawFilter {f : Value} (hf : f ≠ .null) :
    c.selectRaw {} (Selection.rawFilter f) =
      (Node.readItems c.strict Node.rootPath f).bind fun ns => c.select {} (.ofNodes ns) := by
  have hgood : checkOffset ({} : Compilation).offset = .ok () := rfl
  rw [selectRaw, hgood, Report.ofExcept_ok_bind, Selection.read_rawFilter c.strict hf,
    Report.bind_map]
  rfl

/-- **A mapping alone** is compiled to a clause that binds the value of every entry. -/
theorem exists_of_filter_mapping {es : Entries}
    (names : ∀ e ∈ es, ∃ s, e.1.asText? = some s ∧ s ≠ "") :
    ∃ r, (c.filter 0 (.map es)).result = .ok r ∧ r.values = es.map (·.2) ∧
      (r.whereClause = "" ↔ es = []) := by
  obtain ⟨fields, hfields⟩ := exists_fields names
  have hresult := congrArg Report.result (c.filter_mapping hfields 0)
  exact ⟨_, hresult, rfl, c.whereClause_filter_mapping_eq_empty hfields 0⟩

/-- **A filter whose items are no nodes**, among raw data, is malformed for a strict compiler if it
has any items, and counts as no filter otherwise. -/
theorem selectRaw_of_scalars {f : Value} (hf : f ≠ .null) {xs : List Value}
    (hitems : f.items? = some xs) (hscalars : ∀ x ∈ xs, Node.IsScalar x) :
    (c.strict = true ∧ xs ≠ [] ∧
      ∃ m : Malformed, (c.selectRaw {} (Selection.rawFilter f)).result = .error m.error) ∨
    ((c.strict = true → xs = []) ∧
      ∃ r, (c.selectRaw {} (Selection.rawFilter f)).result = .ok r ∧
        r.whereClause = "" ∧ r.values = []) := by
  have hitems : Node.readItems c.strict Node.rootPath f =
      (Node.readAll c.strict Node.rootPath 0 xs).mapError Malformed.error := by
    rw [Node.readItems, hitems]
  rw [c.selectRaw_rawFilter hf, hitems]
  -- without nodes, the outcome is that of a selection of everything
  have hnone (hread : (Node.readAll c.strict Node.rootPath 0 xs).result = .ok []) :
      (((Node.readAll c.strict Node.rootPath 0 xs).mapError Malformed.error).bind fun ns =>
        c.select {} (.ofNodes ns)).result = .ok ⟨.int c.limit, .int 0, "", "", []⟩ :=
    Report.result_bind_eq_ok.mpr ⟨[], Report.result_mapError_eq_ok.mpr hread, rfl⟩
  cases hstrict : c.strict with
  | false =>
    rw [hstrict] at hnone
    have hread := Node.readAll_false_of_scalars Node.rootPath 0 hscalars
    exact .inr ⟨fun h => (nomatch h), _, hnone hread, rfl, rfl⟩
  | true =>
    rw [hstrict] at hnone
    cases xs with
    | nil => exact .inr ⟨fun _ => rfl, _, hnone rfl, rfl, rfl⟩
    | cons x xs =>
      have hread :=
        Node.readAll_true_of_scalar Node.rootPath 0 (hscalars x List.mem_cons_self) xs
      have hfail := (Report.result_mapError_eq_error (f := Malformed.error)).mpr ⟨_, hread, rfl⟩
      exact .inl ⟨rfl, List.cons_ne_nil x xs, _, Report.result_bind_eq_error.mpr (.inl hfail)⟩

/-! ### The two ways compared -/

/-- The classes of the errors that a filter can be refused with. -/
def filterErrors : List ErrorClass := [.malformedFilter, .unknownOperator, .unsupportedOperator]

/-- Whether an error refuses a filter. -/
def RefusesFilter (e : Error) : Prop := ∃ b, e = .build b ∧ b.errorClass ∈ filterErrors

/-- Two outcomes that are the same for a caller who looks at the clause, at the values and at the
class of an error. -/
inductive SameOutcome : Except Error Compiled → Except Error Compiled → Prop where
  | ok {r r' : Compiled} (clause : r.whereClause = r'.whereClause) (values : r.values = r'.values) :
      SameOutcome (.ok r) (.ok r')
  | error {e e' : BuildError} (same : e.errorClass = e'.errorClass)
      (refuses : e.errorClass ∈ filterErrors) :
      SameOutcome (.error (.build e)) (.error (.build e'))

theorem SameOutcome.refl {x : Except Error Compiled} (h : ∀ e, x = .error e → RefusesFilter e) :
    SameOutcome x x := by
  cases x with
  | ok r => exact .ok rfl rfl
  | error e =>
    obtain ⟨b, rfl, hb⟩ := h e rfl
    exact .error rfl hb

theorem refusesFilter_malformed (m : Malformed) : RefusesFilter m.error :=
  ⟨_, rfl, List.mem_cons_self⟩

/-- Nodes are refused for a leaf that cannot be rendered. -/
theorem refusesFilter_of_select {ns : List Node} {e : Error}
    (h : (c.select {} (.ofNodes ns)).result = .error e) : RefusesFilter e := by
  have hselect : c.select {} (.ofNodes ns) = (c.clause 0 ns).map fun clause =>
      ⟨.int c.limit, .int 0, "", withKeyword true clause.1, clause.2⟩ := rfl
  rw [hselect, Report.result_map_eq_error, clause, Report.result_mapError_eq_error] at h
  obtain ⟨e', he', rfl⟩ := h
  have hrender : (c.settings 0).render (Node.flatten c.aliases ns) =
      (c.survey (Node.leavesOf ns)).map fun _ => _ := c.render_eq 0 ns
  rw [hrender, Report.result_map_eq_error] at he'
  -- no tree leaves a bracket open, so only the operators can refuse a filter
  cases e' with
  | unsupported operator store => exact ⟨_, rfl, .tail _ (.tail _ (.head _))⟩
  | unknown operator field => exact ⟨_, rfl, .tail _ (.head _)⟩
  | unbalanced => exact absurd he' (c.survey_ne_unbalanced _)

/-- A list of nodes is refused for a malformed node or for a leaf that cannot be rendered. -/
theorem refusesFilter_of_list {xs : List Value} {e : Error}
    (h : (c.filter 0 (.list xs)).result = .error e) : RefusesFilter e := by
  rcases Report.result_bind_eq_error.mp h with hread | ⟨ns, -, hselect⟩
  · obtain ⟨m, -, rfl⟩ := Report.result_mapError_eq_error.mp hread
    exact refusesFilter_malformed m
  · exact c.refusesFilter_of_select hselect

/-- A text alone is malformed, and so are bytes. -/
theorem exists_error_of_filter {f : Value} (hf : (∃ s, f.asText? = some s) ∨ ∃ bs, f = .bytes bs) :
    ∃ m : Malformed, (c.filter 0 f).result = .error m.error := by
  refine ⟨⟨"expected a mapping or a list of nodes, got " ++ f.typeName, Node.rootPath⟩, ?_⟩
  rcases hf with ⟨s, hs⟩ | ⟨bs, rfl⟩
  · -- a member of a text enumeration counts as a text
    cases f with
    | text t => rfl
    | member type base name value =>
      show (Report.bind (if (Value.member type base name value).asText?.isSome then _ else _)
        _).result = _
      rw [hs]
      rfl
    | _ => cases hs
  · rfl

/-- Texts and bytes are malformed either way for a strict compiler, unless they are empty. -/
theorem sameOutcome_iff_of_text {f : Value} (hf : (∃ s, f.asText? = some s) ∨ ∃ bs, f = .bytes bs)
    {xs : List Value} (hitems : f.items? = some xs) (hscalars : ∀ x ∈ xs, Node.IsScalar x) :
    SameOutcome (c.selectRaw {} (Selection.rawFilter f)).result (c.filter 0 f).result ↔
      c.strict = true ∧ xs ≠ [] := by
  have hnull : f ≠ .null := by
    rintro rfl
    rcases hf with ⟨s, hs⟩ | ⟨bs, hbs⟩
    · cases hs
    · cases hbs
  obtain ⟨m, hm⟩ := c.exists_error_of_filter hf
  rw [hm]
  -- alone it is refused; among raw data a strict compiler refuses its first character, if any
  rcases c.selectRaw_of_scalars hnull hitems hscalars with
    ⟨hstrict, hne, m', hm'⟩ | ⟨hnil, r, hr, -, -⟩
  · rw [hm']
    exact ⟨fun _ => ⟨hstrict, hne⟩, fun _ => .error rfl List.mem_cons_self⟩
  · rw [hr]
    refine ⟨fun h => (nomatch h), fun h => ?_⟩
    exact absurd (hnil h.1) h.2

/-- A mapping is a filter alone only, unless it has no entries. -/
theorem sameOutcome_iff_of_mapping {es : Entries}
    (names : ∀ e ∈ es, ∃ s, e.1.asText? = some s ∧ s ≠ "") :
    SameOutcome (c.selectRaw {} (Selection.rawFilter (.map es))).result
      (c.filter 0 (.map es)).result ↔ es = [] := by
  obtain ⟨r', hr', hvalues, hempty⟩ := c.exists_of_filter_mapping names
  have hnull : Value.map es ≠ .null := fun h => nomatch h
  rw [hr']
  -- alone it is compiled; among raw data its keys are taken for nodes, and none of them is one
  rcases c.selectRaw_of_scalars hnull rfl (Node.isScalar_of_mem_keys names) with
    ⟨-, hne, m, hm⟩ | ⟨-, r, hr, hwhere, hnone⟩
  · rw [hm]
    refine ⟨fun h => (nomatch h), ?_⟩
    rintro rfl
    exact absurd rfl hne
  · rw [hr]
    constructor
    · rintro ⟨-, hsame⟩
      rw [hnone, hvalues] at hsame
      exact List.map_eq_nil_iff.mp hsame.symm
    · rintro rfl
      exact .ok (hwhere.trans (hempty.mpr rfl).symm) (hnone.trans hvalues.symm)

theorem noFilter_of_scalars (hlenient : c.strict = false) {f : Value} (hf : f ≠ .null)
    {xs : List Value} (hitems : f.items? = some xs) (hscalars : ∀ x ∈ xs, Node.IsScalar x) :
    ∃ r, (c.selectRaw {} (Selection.rawFilter f)).result = .ok r ∧
      r.whereClause = "" ∧ r.values = [] := by
  rcases c.selectRaw_of_scalars hf hitems hscalars with ⟨hstrict, -, -⟩ | ⟨-, hnone⟩
  · rw [hlenient] at hstrict
    cases hstrict
  · exact hnone

/-- **The two ways come to the same** for no filter at all, for lists, for mappings without entries,
and for texts and bytes that a strict compiler finds malformed either way; and for nothing else. A
lenient compiler takes all else among raw data for no filter. -/
theorem sameOutcome_iff (c : Compiler) {f : Value} (hf : f.IsFilter) :
    (SameOutcome (c.selectRaw {} (Selection.rawFilter f)).result (c.filter 0 f).result ↔
      f.ReadAlike c.strict) ∧
    (c.strict = false → ¬ f.ReadAlike c.strict →
      ∃ r, (c.selectRaw {} (Selection.rawFilter f)).result = .ok r ∧
        r.whereClause = "" ∧ r.values = []) := by
  cases hf with
  | null =>
    have hsame : SameOutcome (c.selectRaw {} (Selection.rawFilter .null)).result
        (c.filter 0 .null).result := .ok rfl rfl
    exact ⟨⟨fun _ => .null, fun _ => hsame⟩, fun _ h => absurd .null h⟩
  | list xs =>
    have hraw : c.selectRaw {} (Selection.rawFilter (.list xs)) = c.filter 0 (.list xs) :=
      c.selectRaw_rawFilter (fun h => (nomatch h))
    have hsame : SameOutcome (c.selectRaw {} (Selection.rawFilter (.list xs))).result
        (c.filter 0 (.list xs)).result := by
      rw [hraw]
      exact .refl fun e he => c.refusesFilter_of_list he
    exact ⟨⟨fun _ => .list xs, fun _ => hsame⟩, fun _ h => absurd (.list xs) h⟩
  | @mapping es names =>
    -- alone its entries are comparisons, among raw data its keys are no nodes
    refine ⟨(c.sameOutcome_iff_of_mapping names).trans ⟨?_, ?_⟩, fun hlenient _ => ?_⟩
    · rintro rfl
      exact .noEntries
    · intro h
      cases h with
      | noEntries => rfl
      | text hstrict h hne => cases h
    · exact c.noFilter_of_scalars hlenient (fun h => (nomatch h)) rfl
        (Node.isScalar_of_mem_keys names)
  | @text _ s h =>
    -- alone it is malformed, among raw data its characters are no nodes
    have hitems := Value.items?_of_asText? h
    have hnull : f ≠ .null := by
      rintro rfl
      cases h
    refine ⟨(c.sameOutcome_iff_of_text (.inl ⟨_, h⟩) hitems Node.isScalar_of_mem_chars).trans
      ⟨?_, ?_⟩, fun hlenient _ => ?_⟩
    · rintro ⟨hstrict, hne⟩
      refine .text hstrict h ?_
      rintro rfl
      exact hne rfl
    · intro hread
      cases hread with
      | text hstrict h' hne =>
        obtain rfl := Option.some.inj (h.symm.trans h')
        refine ⟨hstrict, fun hnil => hne ?_⟩
        exact String.toList_eq_nil_iff.mp (List.map_eq_nil_iff.mp hnil)
      | _ => cases h
    · exact c.noFilter_of_scalars hlenient hnull hitems Node.isScalar_of_mem_chars
  | bytes bs =>
    -- bytes are numbers when they are gone through, and no number is a node
    refine ⟨(c.sameOutcome_iff_of_text (.inr ⟨bs, rfl⟩) rfl Node.isScalar_of_mem_bytes).trans
      ⟨?_, ?_⟩, fun hlenient _ => ?_⟩
    · rintro ⟨hstrict, hne⟩
      obtain ⟨b, bs, rfl⟩ := List.exists_cons_of_ne_nil (fun h => hne (congrArg _ h))
      exact .bytes hstrict b bs
    · intro hread
      cases hread with
      | bytes hstrict b bs => exact ⟨hstrict, List.cons_ne_nil _ _⟩
      | text hstrict h hne => cases h
    · exact c.noFilter_of_scalars hlenient (fun h => (nomatch h)) rfl Node.isScalar_of_mem_bytes

/-- A filter that somebody wrote as text. -/
def sentence : Value := .text "id = 1"

/-- A text is malformed either way for a strict compiler, and no filter at all for a lenient one. -/
theorem sameOutcome_iff_of_sentence :
    SameOutcome (({ strict := true } : Compiler).selectRaw {} (Selection.rawFilter sentence)).result
      (({ strict := true } : Compiler).filter 0 sentence).result ∧
    ∃ r, (({} : Compiler).selectRaw {} (Selection.rawFilter sentence)).result = .ok r ∧
      r.whereClause = "" ∧ r.values = [] := by
  have hsentence : sentence.asText? = some "id = 1" := rfl
  have hform : sentence.IsFilter := .text hsentence
  constructor
  · refine (sameOutcome_iff { strict := true } hform).1.mpr ?_
    exact .text rfl hsentence (by decide)
  · refine (sameOutcome_iff {} hform).2 rfl fun h => ?_
    cases h with
    | text hstrict h hne => cases hstrict

/-- The two ways do not always come to the same: a text that is malformed alone is no filter among
raw data. -/
theorem not_sameOutcome_of_sentence :
    ¬ ∀ (c : Compiler) (f : Value), f.IsFilter →
      SameOutcome (c.selectRaw {} (Selection.rawFilter f)).result (c.filter 0 f).result := by
  intro h
  -- a lenient compiler drops character after character, and no filter is left
  have hraw : (({} : Compiler).selectRaw {} (Selection.rawFilter sentence)).result =
      .ok ⟨.int standardLimit, .int 0, "", "", []⟩ := by
    rfl
  have halone : (({} : Compiler).filter 0 sentence).result =
      .error (Malformed.error
        ⟨"expected a mapping or a list of nodes, got str", Node.rootPath⟩) := by
    rfl
  have hsame := h {} sentence (.text rfl)
  rw [hraw, halone] at hsame
  cases hsame

end Compiler

end BoundSql
