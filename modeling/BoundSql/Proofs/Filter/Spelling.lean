import BoundSql.Filter.Read
import BoundSql.Proofs.Filter.Masking
import BoundSql.Proofs.Text.Case
import Mathlib.Data.List.Forall2

/-!
# Filters in uniform spelling

Operators, joiners and directions may be written in any case, and the keys of joiners and of free
texts in either of two spellings. Written uniformly, a raw filter has small letters in all these
words and the underscored spelling of each such key; everything else stays as it is. Two raw filters
differ in case and spelling only exactly if they are the same when written uniformly.

Reading a raw filter written uniformly gives the same nodes, or the same error. Only a mapping that
has both spellings of a key is read otherwise, as the second one counts as unknown.

* `Checked.faults` — the outcome of a check apart from the places of its issues, which name keys;
* `Leaf.faults_check_uniformEntries`, `Node.faults_checkGroup_uniformEntries` — leaves and groups;
* `Node.readOne_uniformNode`, `Node.readAll_uniformItems` — nodes and siblings, at any depth.
-/

namespace BoundSql

/-! ### Uniform spelling -/

namespace Value

/-- The underscored spelling of a name with two spellings; any other name itself. -/
def uniformName (s : String) : String :=
  if s = "conditionType" then "condition_type" else if s = "freeText" then "free_text" else s

/-- A key in its underscored spelling. -/
def uniformKey (k : Value) : Value :=
  match k.asText? with
  | some s => text (uniformName s)
  | none => k

/-- A text in small letters, as far as plain letters go. -/
def uniformText : Value → Value
  | text s => text (Text.lowerLatin s)
  | v => v

/-- Whether the value of a key is an operator or a joiner. -/
def namesWord (k : Value) : Bool :=
  k.isKey "operator" || k.isKey "conditionType" || k.isKey "condition_type"

mutual

/-- A raw node in uniform spelling. -/
def uniformNode : Value → Value
  | map es => map (uniformEntries es)
  | v => v

/-- The entries of a raw node in uniform spelling. -/
def uniformEntries : Entries → Entries
  | [] => []
  | (k, v) :: rest =>
    (k.uniformKey, if k.isKey "expressions" then uniformChildren v
      else if k.namesWord then v.uniformText else v) :: uniformEntries rest

/-- The children of a raw node in uniform spelling. -/
def uniformChildren : Value → Value
  | list xs => list (uniformItems xs)
  | tuple xs => tuple (uniformItems xs)
  | v => v

/-- Raw siblings in uniform spelling. -/
def uniformItems : List Value → List Value
  | [] => []
  | x :: xs => uniformNode x :: uniformItems xs

end

/-- Whether a mapping has one of two keys at most. -/
def hasOneOf (key other : String) (es : Entries) : Bool :=
  (lookup key es).isNone || (lookup other es).isNone

mutual

/-- Whether every mapping of a raw node has one spelling of the key of its joiner. -/
def oneSpelling : Value → Bool
  | map es => hasOneOf "conditionType" "condition_type" es && oneSpellingEntries es
  | _ => true

/-- Whether the children among the entries of a raw node have one spelling each. -/
def oneSpellingEntries : Entries → Bool
  | [] => true
  | (k, v) :: rest =>
    (if k.isKey "expressions" then oneSpellingChildren v else true) && oneSpellingEntries rest

/-- Whether the children of a raw node have one spelling each. -/
def oneSpellingChildren : Value → Bool
  | list xs | tuple xs => oneSpellingItems xs
  | _ => true

/-- Whether raw siblings have one spelling each. -/
def oneSpellingItems : List Value → Bool
  | [] => true
  | x :: xs => oneSpelling x && oneSpellingItems xs

end

/-! ### Keys -/

/-- Entries with their keys in uniform spelling and their values changed, each as its key wants. -/
def respell (change : Value → Value → Value) (es : Entries) : Entries :=
  es.map fun e => (e.1.uniformKey, change e.1 e.2)

/-- The value of a key of a raw node in uniform spelling. -/
def uniformValue (k v : Value) : Value :=
  if k.isKey "expressions" then uniformChildren v else if k.namesWord then v.uniformText else v

theorem uniformEntries_eq (es : Entries) : uniformEntries es = respell uniformValue es := by
  induction es with
  | nil => rfl
  | cons e es ih => rw [uniformEntries, ih, respell, respell, List.map_cons, uniformValue]

theorem uniformValue_of_word {k : Value} {name : String} (v : Value) (hk : k.isKey name = true)
    (hword : name ∈ ["operator", "conditionType", "condition_type"]) :
    uniformValue k v = v.uniformText := by
  have hchildren : name ≠ "expressions" := by
    rintro rfl
    exact absurd hword (by decide)
  have hnames : k.namesWord = true := by
    simp only [List.mem_cons, List.not_mem_nil, or_false] at hword
    rcases hword with rfl | rfl | rfl <;> simp [namesWord, hk]
  rw [uniformValue, if_neg (not_isKey_of_isKey hk hchildren), if_pos hnames]

theorem uniformValue_of_other {k : Value} {name : String} (v : Value) (hk : k.isKey name = true)
    (hother : name ∉ ["expressions", "operator", "conditionType", "condition_type"]) :
    uniformValue k v = v := by
  simp only [List.mem_cons, List.not_mem_nil, or_false, not_or] at hother
  obtain ⟨hchildren, hoperator, hcamel, hsnake⟩ := hother
  have hnames : ¬ k.namesWord = true := by
    simp only [namesWord, Bool.or_eq_true, not_or]
    exact ⟨⟨not_isKey_of_isKey hk hoperator, not_isKey_of_isKey hk hcamel⟩,
      not_isKey_of_isKey hk hsnake⟩
  rw [uniformValue, if_neg (not_isKey_of_isKey hk hchildren), if_neg hnames]

theorem asText?_uniformKey (k : Value) : k.uniformKey.asText? = k.asText?.map uniformName := by
  cases hk : k.asText? with
  | none => rw [uniformKey, hk, hk, Option.map_none]
  | some s =>
    rw [uniformKey, hk]
    rfl

/-- A key that becomes another one is looked for under the other name. -/
theorem isKey_uniformKey {k : Value} {name uniform : String}
    (h : ∀ s, k.asText? = some s → (uniformName s = uniform ↔ s = name)) :
    k.uniformKey.isKey uniform = k.isKey name := by
  rw [Bool.eq_iff_iff, isKey, isKey, beq_iff_eq, beq_iff_eq, asText?_uniformKey]
  cases hs : k.asText? with
  | none => simp
  | some s => simpa using h s hs

/-- Names with one spelling are left alone. -/
theorem uniformName_eq_iff {s name : String}
    (h : name ∉ ["conditionType", "condition_type", "freeText", "free_text"]) :
    uniformName s = name ↔ s = name := by
  simp only [List.mem_cons, List.not_mem_nil, or_false, not_or] at h
  obtain ⟨hcamel, hsnake, hfree, hunder⟩ := h
  unfold uniformName
  split_ifs with hs hs'
  · exact iff_of_false (Ne.symm hsnake) (hs ▸ Ne.symm hcamel)
  · exact iff_of_false (Ne.symm hunder) (hs' ▸ Ne.symm hfree)
  · exact Iff.rfl

/-- **A name becomes another one** among the keys of some entries, and no other key does. -/
def Becomes (es : Entries) (name uniform : String) : Prop :=
  ∀ e ∈ es, ∀ s, e.1.asText? = some s → (uniformName s = uniform ↔ s = name)

/-- Names with one spelling become themselves. -/
theorem becomes_self (es : Entries) {name : String}
    (h : name ∉ ["conditionType", "condition_type", "freeText", "free_text"]) :
    Becomes es name name :=
  fun _ _ _ _ => uniformName_eq_iff h

theorem lookup_eq_none_iff {name : String} {es : Entries} :
    lookup name es = none ↔ ∀ e ∈ es, e.1.asText? ≠ some name := by
  induction es with
  | nil => simp [lookup]
  | cons e es ih =>
    obtain ⟨k, v⟩ := e
    rw [lookup, List.forall_mem_cons, ← ih]
    by_cases hk : k.asText? = some name <;> simp [isKey, hk]

/-- The spelling that is read becomes the underscored one. -/
theorem becomes_spelling {es : Entries} {key other : String}
    (hboth : ∀ s, uniformName s = other ↔ s = key ∨ s = other)
    (h : hasOneOf key other es = true) : Becomes es (Check.spelling key other es) other := by
  intro e he s hs
  rw [hboth, Check.spelling]
  split_ifs with hkey
  · -- the first spelling is there, so the other one is not
    have hother : lookup other es = none := by
      rcases Bool.or_eq_true_iff.mp h with hnone | hnone
      · rw [Option.isNone_iff_eq_none.mp hnone] at hkey
        cases hkey
      · exact Option.isNone_iff_eq_none.mp hnone
    refine or_iff_left fun heq => ?_
    exact lookup_eq_none_iff.mp hother e he (heq ▸ hs)
  · have hnone : lookup key es = none := Option.not_isSome_iff_eq_none.mp hkey
    refine or_iff_right fun heq => ?_
    exact lookup_eq_none_iff.mp hnone e he (heq ▸ hs)

theorem becomes_joinerKey {es : Entries} (h : hasOneOf "conditionType" "condition_type" es = true) :
    Becomes es (Check.spelling "conditionType" "condition_type" es) "condition_type" := by
  refine becomes_spelling (fun s => ?_) h
  unfold uniformName
  split_ifs <;> simp_all

theorem becomes_textKey {es : Entries} (h : hasOneOf "freeText" "free_text" es = true) :
    Becomes es (Check.spelling "freeText" "free_text" es) "free_text" := by
  refine becomes_spelling (fun s => ?_) h
  unfold uniformName
  split_ifs <;> simp_all

section Respell

variable {change : Value → Value → Value} {es : Entries} {name uniform : String}

/-- The value of a key is found under what the key becomes. -/
theorem lookup_respell {g : Value → Value} (hname : Becomes es name uniform)
    (hchange : ∀ k v, k.isKey name = true → change k v = g v) :
    lookup uniform (respell change es) = (lookup name es).map g := by
  induction es with
  | nil => rfl
  | cons e es ih =>
    obtain ⟨k, v⟩ := e
    obtain ⟨hk, hrest⟩ := List.forall_mem_cons.mp hname
    rw [respell, List.map_cons, ← respell, lookup, lookup, ih hrest, isKey_uniformKey hk]
    -- no key in front becomes the name that is looked up
    by_cases hfound : k.isKey name = true
    · rw [if_pos hfound, if_pos hfound, hchange k v hfound]
      rfl
    · rw [if_neg hfound, if_neg hfound]

/-- The first of two spellings is gone, so the other one is read. -/
theorem spelling_respell {key other : String} (hgone : ∀ s, uniformName s ≠ key) :
    Check.spelling key other (respell change es) = other := by
  have hnone : lookup key (respell change es) = none := by
    refine lookup_eq_none_iff.mpr fun e he hkey => ?_
    obtain ⟨e', -, rfl⟩ := List.mem_map.mp he
    rw [asText?_uniformKey] at hkey
    obtain ⟨s, -, hs⟩ := Option.map_eq_some_iff.mp hkey
    exact hgone s hs
  rw [Check.spelling, hnone]
  rfl

/-- The same keys are unknown, whatever they are called. -/
theorem unknownKeys_respell (change : Value → Value → Value) {known uniforms : List String}
    (h : List.Forall₂ (Becomes es) known uniforms) :
    (Check.unknownKeys uniforms (respell change es)).map (·.fault) =
      (Check.unknownKeys known es).map (·.fault) := by
  induction es with
  | nil => rfl
  | cons e es ih =>
    obtain ⟨k, v⟩ := e
    have hrest : List.Forall₂ (Becomes es) known uniforms :=
      h.imp fun _ _ hname e he => hname e (List.mem_cons_of_mem _ he)
    rw [respell, List.map_cons, ← respell, Check.unknownKeys, Check.unknownKeys, List.map_append,
      List.map_append, ih hrest, asText?_uniformKey]
    -- the rest of the entries is settled, what is left is the key in front
    congr 1
    cases hs : k.asText? with
    | none => rfl
    | some s =>
      -- a key is known under its new name exactly if it was known before
      have hknown : uniforms.contains (uniformName s) = known.contains s := by
        have hsame : List.Forall₂ (fun name uniform => uniformName s = uniform ↔ s = name)
            known uniforms :=
          h.imp fun _ _ hname => hname _ (List.mem_cons_self ..) s hs
        rw [Bool.eq_iff_iff, List.contains_iff_mem, List.contains_iff_mem]
        clear h hrest ih
        induction hsame with
        | nil => simp
        | cons hname _ ih => rw [List.mem_cons, List.mem_cons, hname, ih]
      show List.map _ (if uniforms.contains (uniformName s) then _ else _) =
        List.map _ (if known.contains s then _ else _)
      rw [hknown]
      split <;> rfl

end Respell

end Value

/-! ### Checks -/

namespace Checked

variable {α β γ : Type}

/-- **What a check finds**, apart from the places of the issues. -/
def faults : Checked α → Except (List Fault) α
  | ok a => .ok a
  | issues found => .error (found.map (·.fault))

/-- Two checks that find the same both pass with one value, or find the same faults. -/
theorem ok_or_issues_of_faults_eq {c c' : Checked α} (h : c.faults = c'.faults) :
    (∃ a, c = ok a ∧ c' = ok a) ∨ ∃ found found', c = issues found ∧ c' = issues found' ∧
      found.map (·.fault) = found'.map (·.fault) := by
  cases c with
  | ok a =>
    cases c' with
    | ok a' => exact .inl ⟨a, rfl, congrArg ok (Except.ok.inj h).symm⟩
    | issues found' => cases h
  | issues found =>
    cases c' with
    | ok a' => cases h
    | issues found' => exact .inr ⟨found, found', rfl, rfl, Except.error.inj h⟩

theorem faults_below (c : Checked α) (s : Step) : (c.below s).faults = c.faults := by
  cases c with
  | ok a => rfl
  | issues found => simp [below, faults]

theorem faults_map {c c' : Checked α} (f : α → β) (h : c.faults = c'.faults) :
    (c.map f).faults = (c'.map f).faults := by
  obtain ⟨a, rfl, rfl⟩ | ⟨found, found', rfl, rfl, hsame⟩ := ok_or_issues_of_faults_eq h
  · rfl
  · exact congrArg Except.error hsame

theorem faults_zipWith {x x' : Checked α} {y y' : Checked β} (f : α → β → γ)
    (hx : x.faults = x'.faults) (hy : y.faults = y'.faults) :
    (zipWith f x y).faults = (zipWith f x' y').faults := by
  obtain ⟨a, rfl, rfl⟩ | ⟨found, found', rfl, rfl, hfound⟩ := ok_or_issues_of_faults_eq hx <;>
    obtain ⟨b, rfl, rfl⟩ | ⟨more, more', rfl, rfl, hmore⟩ := ok_or_issues_of_faults_eq hy
  · rfl
  · exact congrArg Except.error hmore
  · exact congrArg Except.error hfound
  · simp [zipWith, faults, hfound, hmore]

theorem faults_closed {known known' : List String} {es es' : Entries} {c c' : Checked α}
    (hkeys : (Check.unknownKeys known es).map (·.fault) =
      (Check.unknownKeys known' es').map (·.fault)) (hc : c.faults = c'.faults) :
    (Check.closed known es c).faults = (Check.closed known' es' c').faults := by
  unfold Check.closed
  -- only whether there are unknown keys, and how many, matters
  generalize Check.unknownKeys known es = found at hkeys ⊢
  generalize Check.unknownKeys known' es' = found' at hkeys ⊢
  cases found with
  | nil =>
    obtain rfl : found' = [] := List.map_eq_nil_iff.mp hkeys.symm
    exact hc
  | cons issue rest =>
    -- their issues come behind those of the fields, in the same order
    cases found' with
    | nil => cases hkeys
    | cons issue' rest' =>
      obtain ⟨a, rfl, rfl⟩ | ⟨first, first', rfl, rfl, hfirst⟩ := ok_or_issues_of_faults_eq hc
      · exact congrArg Except.error hkeys
      · show Except.error ((first ++ _).map _) = Except.error ((first' ++ _).map _)
        rw [List.map_append, List.map_append, hfirst, hkeys]

end Checked

namespace Check

open Checked
open Value (uniformText uniformEntries respell Becomes)

/-! ### Words -/

theorem operatorTag_uniformText (v : Value) : operatorTag v.uniformText = operatorTag v := by
  cases v with
  | text s => exact congrArg Checked.ok (Text.lower_lowerLatin s)
  | _ => rfl

theorem joiner_uniformText (v : Value) : joiner v.uniformText = joiner v := by
  cases v with
  | text s =>
    have hword : keyword? (.text (Text.lowerLatin s)) = keyword? (.text s) :=
      congrArg some (Text.upperLatin_lowerLatin s)
    rw [uniformText, joiner, joiner, hword]
    · exact fun h => nomatch h
    · exact fun h => nomatch h
  | _ => rfl

theorem direction_uniformText (v : Value) : direction v.uniformText = direction v := by
  cases v with
  | text s =>
    have hword : keyword? (.text (Text.lowerLatin s)) = keyword? (.text s) :=
      congrArg some (Text.upperLatin_lowerLatin s)
    rw [uniformText, direction, direction, hword]
  | _ => rfl

/-! ### Fields -/

section Fields

variable {α : Type} {change : Value → Value → Value} {es : Entries} {name uniform : String}
  {check : Value → Checked α} {g : Value → Value}

theorem faults_required_respell (hname : Becomes es name uniform)
    (hchange : ∀ k v, k.isKey name = true → change k v = g v)
    (hcheck : ∀ v, (check (g v)).faults = (check v).faults) :
    (required uniform check (respell change es)).faults = (required name check es).faults := by
  rw [required, required, Value.lookup_respell hname hchange]
  cases Value.lookup name es with
  | none => rfl
  | some v =>
    show ((check (g v)).below _).faults = ((check v).below _).faults
    rw [faults_below, faults_below, hcheck]

theorem faults_allowed_respell (default : α) (hname : Becomes es name uniform)
    (hchange : ∀ k v, k.isKey name = true → change k v = g v)
    (hcheck : ∀ v, (check (g v)).faults = (check v).faults) :
    (allowed uniform check default (respell change es)).faults =
      (allowed name check default es).faults := by
  rw [allowed, allowed, Value.lookup_respell hname hchange]
  cases Value.lookup name es with
  | none => rfl
  | some v =>
    show ((check (g v)).below _).faults = ((check v).below _).faults
    rw [faults_below, faults_below, hcheck]

end Fields

/-- The key of a joiner is read in its underscored spelling. -/
theorem spelling_uniformEntries (es : Entries) :
    spelling "conditionType" "condition_type" (uniformEntries es) = "condition_type" := by
  rw [Value.uniformEntries_eq]
  refine Value.spelling_respell fun s => ?_
  unfold Value.uniformName
  split_ifs with hs <;> first | decide | exact hs

variable {es : Entries} (hone : Value.hasOneOf "conditionType" "condition_type" es = true)

include hone in
/-- The joiner of a node is the same in uniform spelling. -/
theorem faults_joinerField_uniformEntries :
    (joinerField (uniformEntries es)).faults = (joinerField es).faults := by
  have hkey : spelling "conditionType" "condition_type" es ∈
      ["operator", "conditionType", "condition_type"] := by
    unfold spelling
    split <;> decide
  rw [joinerField, spelling_uniformEntries, Value.uniformEntries_eq]
  exact faults_allowed_respell none (Value.becomes_joinerKey hone)
    (fun _ v hk => Value.uniformValue_of_word v hk hkey)
    fun v => congrArg faults (joiner_uniformText v)

include hone in
/-- The same keys of a node are unknown in uniform spelling. -/
theorem unknownKeys_uniformEntries (names : List String)
    (hnames : ∀ name ∈ names, name ∉ ["conditionType", "condition_type", "freeText", "free_text"]) :
    (unknownKeys (names ++ [spelling "conditionType" "condition_type" (uniformEntries es)])
        (uniformEntries es)).map (·.fault) =
      (unknownKeys (names ++ [spelling "conditionType" "condition_type" es]) es).map
        (·.fault) := by
  rw [spelling_uniformEntries, Value.uniformEntries_eq]
  refine Value.unknownKeys_respell _ (List.rel_append ?_ ?_)
  · exact List.forall₂_same.mpr fun name hname => Value.becomes_self es (hnames name hname)
  · exact .cons (Value.becomes_joinerKey hone) .nil

end Check

open Value (uniformEntries hasOneOf)

/-- **A raw leaf** is checked alike in uniform spelling. -/
theorem Leaf.faults_check_uniformEntries {es : Entries}
    (hone : hasOneOf "conditionType" "condition_type" es = true) :
    (check (uniformEntries es)).faults = (check es).faults := by
  have hkeys := Check.unknownKeys_uniformEntries hone ["field", "operator", "value"]
    (by decide)
  -- the name and the value are left alone, the operator and the joiner are read in any case
  have hfield : (Check.required "field" Check.name (uniformEntries es)).faults =
      (Check.required "field" Check.name es).faults := by
    rw [Value.uniformEntries_eq]
    exact Check.faults_required_respell (g := id) (Value.becomes_self es (by decide))
      (fun _ v hk => Value.uniformValue_of_other v hk (by decide)) fun _ => rfl
  have hoperator : (Check.required "operator" Check.operatorTag (uniformEntries es)).faults =
      (Check.required "operator" Check.operatorTag es).faults := by
    rw [Value.uniformEntries_eq]
    exact Check.faults_required_respell (Value.becomes_self es (by decide))
      (fun _ v hk => Value.uniformValue_of_word v hk (by decide))
      fun v => congrArg Checked.faults (Check.operatorTag_uniformText v)
  have hvalue : (Check.allowed "value" .ok Value.null (uniformEntries es)).faults =
      (Check.allowed "value" .ok Value.null es).faults := by
    rw [Value.uniformEntries_eq]
    exact Check.faults_allowed_respell Value.null (g := id) (Value.becomes_self es (by decide))
      (fun _ v hk => Value.uniformValue_of_other v hk (by decide)) fun _ => rfl
  have hjoiner := Check.faults_joinerField_uniformEntries hone
  rw [check, check]
  exact Checked.faults_closed hkeys (Checked.faults_zipWith _ (Checked.faults_zipWith _
    (Checked.faults_zipWith _ hfield hoperator) hvalue) hjoiner)

namespace Node

open Report Value

/-- A raw group whose children are given is checked alike in uniform spelling. -/
theorem faults_checkGroup_uniformEntries (children : List Node) {es : Entries}
    (hone : hasOneOf "conditionType" "condition_type" es = true) :
    (checkGroup (some (.ok children)) (uniformEntries es)).faults =
      (checkGroup (some (.ok children)) es).faults := by
  have hkeys := Check.unknownKeys_uniformEntries hone ["expressions"] (by decide)
  have hjoiner := Check.faults_joinerField_uniformEntries hone
  exact Checked.faults_closed hkeys (Checked.faults_zipWith _ rfl hjoiner)

/-! ### Reading -/

/-- A malformed node is described by its first fault alone. -/
theorem checked_of_faults_eq {m : Model} {path : String} {c c' : Checked Node}
    (h : c.faults = c'.faults) : checked m path c = checked m path c' := by
  obtain ⟨n, rfl, rfl⟩ | ⟨found, found', rfl, rfl, hsame⟩ := Checked.ok_or_issues_of_faults_eq h
  · rfl
  · have hfirst : found.head?.map (·.fault.message) = found'.head?.map (·.fault.message) := by
      have hhead := congrArg (fun faults => faults.head?.map Fault.message) hsame
      simpa [List.head?_map, Option.map_map, Function.comp_def] using hhead
    rw [checked, checked, hfirst]

/-- A node is kept among its siblings if it is read, whatever it looked like. -/
theorem keepOrDrop_of_result_eq (strict : Bool) (path : String) (item item' : Value)
    {r r' : Report Malformed Node} (h : r.result = r'.result) :
    (keepOrDrop strict path item r).result = (keepOrDrop strict path item' r').result := by
  unfold keepOrDrop
  rw [h]
  cases r'.result with
  | ok n => rfl
  | error e => cases strict <;> rfl

mutual

/-- **A node is read alike** in uniform spelling, or is malformed for the same reason. -/
theorem readOne_uniformNode (strict : Bool) (path : String) (v : Value)
    (hone : v.oneSpelling = true) :
    (readOne strict path v.uniformNode).result = (readOne strict path v).result := by
  cases v with
  | map es =>
    rw [oneSpelling, Bool.and_eq_true] at hone
    obtain ⟨hone, hbelow⟩ := hone
    have hchildren := readChildren_uniformEntries strict path es hbelow
    rw [uniformNode, readOne, readOne]
    generalize readChildren strict path (uniformEntries es) = uniform? at hchildren ⊢
    generalize readChildren strict path es = children? at hchildren ⊢
    cases hchildren with
    | none =>
      -- without children on either side, the entries are checked as a leaf
      exact checked_of_faults_eq
        (Checked.faults_map leaf (Leaf.faults_check_uniformEntries hone))
    | some hchildren =>
      refine result_bind_eq hchildren fun children => ?_
      exact checked_of_faults_eq (faults_checkGroup_uniformEntries children hone)
  | _ => rfl

theorem readChildren_uniformEntries (strict : Bool) (path : String) : ∀ es : Entries,
    oneSpellingEntries es = true →
    Option.Rel (fun r' r => r'.result = r.result)
      (readChildren strict path (uniformEntries es)) (readChildren strict path es)
  | [], _ => .none
  | (k, v) :: rest, hone => by
    -- renaming keys does not move a list of children
    rw [oneSpellingEntries, Bool.and_eq_true] at hone
    obtain ⟨hchildren, hrest⟩ := hone
    have hkey : k.uniformKey.isKey "expressions" = k.isKey "expressions" :=
      isKey_uniformKey fun _ _ => uniformName_eq_iff (by decide)
    rw [uniformEntries, readChildren, readChildren, hkey]
    by_cases hk : k.isKey "expressions" = true
    · rw [if_pos hk] at hchildren
      rw [if_pos hk, if_pos hk, if_pos hk]
      exact .some (readList_uniformChildren strict path v hchildren)
    · rw [if_neg hk, if_neg hk]
      exact readChildren_uniformEntries strict path rest hrest

theorem readList_uniformChildren (strict : Bool) (path : String) (v : Value)
    (hone : v.oneSpellingChildren = true) :
    (readList strict path v.uniformChildren).result = (readList strict path v).result := by
  cases v with
  | list xs => exact readAll_uniformItems strict (path ++ ".expressions") 0 xs hone
  | tuple xs => exact readAll_uniformItems strict (path ++ ".expressions") 0 xs hone
  | _ => rfl

/-- **Siblings are read alike** in uniform spelling. -/
theorem readAll_uniformItems (strict : Bool) (path : String) (index : Nat) : ∀ xs : List Value,
    oneSpellingItems xs = true →
    (readAll strict path index (uniformItems xs)).result = (readAll strict path index xs).result
  | [], _ => rfl
  | x :: xs, hone => by
    rw [oneSpellingItems, Bool.and_eq_true] at hone
    have hfirst := readOne_uniformNode strict (itemPath path index) x hone.1
    have hrest := readAll_uniformItems strict path (index + 1) xs hone.2
    rw [uniformItems, readAll, readAll]
    refine result_bind_eq (keepOrDrop_of_result_eq strict _ _ _ hfirst) fun kept => ?_
    rw [Report.map, Report.map, hrest]

end

end Node

end BoundSql
