import BoundSql.Proofs.Clause.Outline

/-!
# The flat form read back

The flat form of a filter loses nothing of the tree. A reader that goes over the tokens once, with a
stack of open groups and a joiner that waits for its group (`Progress`), puts the tree together
again: the nesting, the order of siblings, the joiners of leaves and groups, and the groups without
siblings. What it cannot give back is the spelling of a path, since the tokens hold the table and
the field that the path was split into. `Branch` is a filter as far as its tokens show it.

The reader is exact, which is proved from two sides:

* `Progress.run_flatten` — the tokens of siblings add these siblings to the innermost scope, in any
  state of the reader and whatever tokens follow;
* `Progress.tokens_of_step` — in any state the reader can still say which tokens it has gone over,
  so it accepts nothing that it does not write (`decode_eq_some_iff`);
* `exists_decode_iff` — it accepts the sequences whose groups are balanced and whose joiners stand
  in front of opening marks, and no others;
* `Node.flatten_invertible` — all of this for the flat form of a filter.
-/

namespace BoundSql

/-- **A filter as its tokens show it**: comparisons, and groups of such siblings. -/
inductive Branch where
  | comparison (c : Comparison)
  | group (children : List Branch) (joiner : Option Joiner)

namespace Branch

/-- **Induction over siblings.** A property of lists of branches holds if it holds of the empty list
and is handed on by a comparison in front and by a group in front, from the siblings inside the
group and those behind it. -/
@[elab_as_elim]
theorem forest_induction {motive : List Branch → Prop} (nil : motive [])
    (comparison : ∀ c bs, motive bs → motive (.comparison c :: bs))
    (group : ∀ children j bs, motive children → motive bs → motive (.group children j :: bs)) :
    ∀ bs, motive bs
  | [] => nil
  | .comparison c :: bs => comparison c bs (forest_induction nil comparison group bs)
  | .group children j :: bs =>
    group children j bs (forest_induction nil comparison group children)
      (forest_induction nil comparison group bs)

mutual

/-- The tokens of a branch. -/
def tokens : Branch → List Token
  | comparison c => [.comparison c]
  | group children j => Token.ofJoiner j ++ .opening :: (flatten children ++ [.closing])

/-- The tokens of siblings. -/
def flatten : List Branch → List Token
  | [] => []
  | b :: bs => tokens b ++ flatten bs

end

@[simp] theorem flatten_nil : flatten [] = [] := rfl

theorem flatten_comparison_cons (c : Comparison) (bs : List Branch) :
    flatten (.comparison c :: bs) = .comparison c :: flatten bs := rfl

theorem flatten_group_cons (children bs : List Branch) (j : Option Joiner) :
    flatten (.group children j :: bs) =
      Token.ofJoiner j ++ .opening :: (flatten children ++ .closing :: flatten bs) := by
  show (Token.ofJoiner j ++ .opening :: (flatten children ++ [.closing])) ++ flatten bs = _
  simp

theorem flatten_append (as bs : List Branch) : flatten (as ++ bs) = flatten as ++ flatten bs := by
  induction as with
  | nil => rfl
  | cons a as ih =>
    show a.tokens ++ flatten (as ++ bs) = a.tokens ++ flatten as ++ flatten bs
    rw [ih, List.append_assoc]

end Branch

namespace Node

mutual

/-- What the tokens show of a node: of a leaf its operator, value and joiner, and the two parts of
its path. -/
def branch (aliases : Aliases) : Node → Branch
  | leaf l =>
    .comparison
      { operator := l.operator
        field := (Path.split l.field aliases).2
        value := l.value
        table := (Path.split l.field aliases).1
        joiner := l.joiner }
  | group children j => .group (branches aliases children) j

/-- What the tokens show of siblings. -/
def branches (aliases : Aliases) : List Node → List Branch
  | [] => []
  | n :: ns => branch aliases n :: branches aliases ns

end

/-- The flat form of a filter is written from what it shows. -/
theorem flatten_branches (aliases : Aliases) (ns : List Node) :
    Branch.flatten (branches aliases ns) = flatten aliases ns := by
  induction ns using forest_induction with
  | nil => rfl
  | leaf l ns ih =>
    show .comparison (l.comparison aliases) :: Branch.flatten (branches aliases ns) =
      .comparison (l.comparison aliases) :: flatten aliases ns
    rw [ih]
  | group children j ns ihInner ih =>
    -- the joiner of a group stands in front of its opening mark
    show Branch.flatten (.group (branches aliases children) j :: branches aliases ns) =
      Token.ofJoiner j ++ .opening :: (flatten aliases children ++ [.closing]) ++ flatten aliases ns
    rw [Branch.flatten_group_cons, ihInner, ih]
    simp

end Node

/-! ### The reader -/

/-- A group that is open: its joiner, and the siblings in front of it, the last one first. -/
structure OpenGroup where
  joiner : Option Joiner
  before : List Branch

/-- **How far a reader of tokens has come**: the siblings of the innermost scope, the last one
first, the groups that are open, the innermost one first, and the joiner that waits for its
group. -/
structure Progress where
  siblings : List Branch
  groups : List OpenGroup
  waiting : Option Joiner

namespace Progress

/-- In front of the first token. -/
def start : Progress := ⟨[], [], none⟩

/-- One token further. A joiner has to be followed by an opening mark, and a closing mark needs a
group that is open. -/
def step? (p : Progress) (t : Token) : Option Progress :=
  match t, p.waiting, p.groups with
  | .joiner j, none, groups => some ⟨p.siblings, groups, some j⟩
  | .opening, waiting, groups => some ⟨[], ⟨waiting, p.siblings⟩ :: groups, none⟩
  | .closing, none, g :: groups =>
    some ⟨.group p.siblings.reverse g.joiner :: g.before, groups, none⟩
  | .comparison c, none, groups => some ⟨.comparison c :: p.siblings, groups, none⟩
  | _, _, _ => none

/-- Tokens further. -/
def run? (p : Progress) : List Token → Option Progress
  | [] => some p
  | t :: ts => (p.step? t).bind fun p => p.run? ts

/-- What was read, if nothing is left open. -/
def finish? (p : Progress) : Option (List Branch) :=
  match p.waiting, p.groups with
  | none, [] => some p.siblings.reverse
  | _, _ => none

end Progress

/-- **The filter that tokens are the flat form of**, if they are one. -/
def Token.decode (ts : List Token) : Option (List Branch) :=
  (Progress.start.run? ts).bind Progress.finish?

namespace Progress

open Branch

/-- Siblings further in the innermost scope. -/
def add (p : Progress) (bs : List Branch) : Progress :=
  { p with siblings := bs.reverse ++ p.siblings }

/-- **The tokens of siblings are read as these siblings**, wherever no joiner waits, in front of any
other tokens. -/
theorem run_flatten {p : Progress} (h : p.waiting = none) (bs : List Branch) (rest : List Token) :
    p.run? (flatten bs ++ rest) = (p.add bs).run? rest := by
  obtain ⟨siblings, groups, waiting⟩ := p
  subst h
  -- the state and what follows change on the way into a group and out of it again
  induction bs using Branch.forest_induction generalizing siblings groups rest with
  | nil => rfl
  | comparison c bs ih =>
    have hadd : (Progress.mk (.comparison c :: siblings) groups none).add bs =
        (Progress.mk siblings groups none).add (.comparison c :: bs) := by
      simp [add]
    calc (Progress.mk siblings groups none).run? (flatten (.comparison c :: bs) ++ rest)
        = (Progress.mk (.comparison c :: siblings) groups none).run? (flatten bs ++ rest) := rfl
      _ = ((Progress.mk siblings groups none).add (.comparison c :: bs)).run? rest := by
        rw [ih, hadd]
  | group children j bs ihInner ih =>
    -- with its joiner or without one, a group is opened in one way
    have hopen : ∀ ts,
        (Progress.mk siblings groups none).run? (Token.ofJoiner j ++ .opening :: ts) =
          (Progress.mk [] (⟨j, siblings⟩ :: groups) none).run? ts := by
      intro ts
      cases j <;> rfl
    have hinner : (Progress.mk [] (⟨j, siblings⟩ :: groups) none).add children =
        ⟨children.reverse, ⟨j, siblings⟩ :: groups, none⟩ := by
      simp [add]
    have hclose : ∀ ts, (Progress.mk children.reverse (⟨j, siblings⟩ :: groups) none).run?
        (.closing :: ts) = (Progress.mk (.group children j :: siblings) groups none).run? ts := by
      intro ts
      simp [run?, step?]
    have hadd : (Progress.mk (.group children j :: siblings) groups none).add bs =
        (Progress.mk siblings groups none).add (.group children j :: bs) := by
      simp [add]
    rw [flatten_group_cons, List.append_assoc, List.cons_append, hopen, List.append_assoc, ihInner,
      hinner, List.cons_append, hclose, ih, hadd]

/-! ### What was gone over -/

end Progress

/-- The tokens up to the opening mark of a group, from the start of the scope it stands in. -/
def OpenGroup.tokens (g : OpenGroup) : List Token :=
  Branch.flatten g.before.reverse ++ (Token.ofJoiner g.joiner ++ [.opening])

namespace Progress

open Branch

/-- The tokens that a reader has gone over. -/
def tokens (p : Progress) : List Token :=
  p.groups.reverse.flatMap OpenGroup.tokens ++
    (flatten p.siblings.reverse ++ Token.ofJoiner p.waiting)

/-- **A step adds its token** to those gone over. -/
theorem tokens_of_step {p p' : Progress} {t : Token} (h : p.step? t = some p') :
    p'.tokens = p.tokens ++ [t] := by
  obtain ⟨siblings, groups, waiting⟩ := p
  -- a joiner may only wait for an opening mark; every other token ends the reading there
  cases t with
  | joiner j =>
    cases waiting with
    | none =>
      cases h
      simp [tokens, Token.ofJoiner]
    | some _ => cases h
  | opening =>
    cases h
    simp [tokens, OpenGroup.tokens, Token.ofJoiner]
  | closing =>
    cases waiting with
    | none =>
      cases groups with
      | nil => cases h
      | cons g groups =>
        -- the siblings of the group become one sibling of the scope around it
        cases h
        simp [tokens, OpenGroup.tokens, Token.ofJoiner, flatten_append, flatten_group_cons]
    | some _ => cases h
  | comparison c =>
    cases waiting with
    | none =>
      cases h
      simp [tokens, Token.ofJoiner, flatten_append, flatten_comparison_cons]
    | some _ => cases h

/-- A run adds its tokens. -/
theorem tokens_of_run {p p' : Progress} {ts : List Token} (h : p.run? ts = some p') :
    p'.tokens = p.tokens ++ ts := by
  induction ts generalizing p with
  | nil =>
    cases h
    rw [List.append_nil]
  | cons t ts ih =>
    obtain ⟨q, hstep, hrun⟩ := Option.bind_eq_some_iff.mp h
    rw [ih hrun, tokens_of_step hstep, List.append_assoc]
    rfl

theorem tokens_of_finish {p : Progress} {bs : List Branch} (h : p.finish? = some bs) :
    p.tokens = flatten bs := by
  obtain ⟨siblings, groups, waiting⟩ := p
  unfold finish? at h
  split at h
  · next hwaiting hgroups =>
    cases h
    simp only at hwaiting hgroups
    subst hwaiting hgroups
    simp [tokens, Token.ofJoiner]
  · cases h

end Progress

namespace Token

/-- **The reader undoes the writing of tokens**, and accepts nothing else. -/
theorem decode_eq_some_iff {ts : List Token} {bs : List Branch} :
    decode ts = some bs ↔ Branch.flatten bs = ts := by
  constructor
  · -- each step keeps the tokens read so far, which are all of them at the end
    intro h
    obtain ⟨p, hrun, hfinish⟩ := Option.bind_eq_some_iff.mp h
    rw [← Progress.tokens_of_finish hfinish, Progress.tokens_of_run hrun]
    rfl
  · rintro rfl
    -- branches are read behind whatever is read already, here behind nothing
    have hrun : Progress.start.run? (Branch.flatten bs) = some (Progress.start.add bs) := by
      have hbehind := Progress.run_flatten (p := Progress.start) rfl bs []
      rwa [List.append_nil] at hbehind
    rw [decode, hrun]
    simp [Progress.finish?, Progress.add, Progress.start]

example : decode [.joiner .or, .opening, .closing] = some [.group [] (some .or)] := rfl

/-! ### Which tokens are a flat form -/

/-- The number of groups that are open behind tokens, where `opened` are open in front of them; none
where a group is closed that was not opened. -/
def depth? (opened : Nat) : List Token → Option Nat
  | [] => some opened
  | .opening :: ts => depth? (opened + 1) ts
  | .closing :: ts =>
    match opened with
    | 0 => none
    | opened + 1 => depth? opened ts
  | _ :: ts => depth? opened ts

/-- **Balanced groups**: none is closed before it is opened, and all are closed at the end. -/
def Balanced (ts : List Token) : Prop := depth? 0 ts = some 0

/-- **Joiners lead groups**: right behind a joiner there is an opening mark. -/
def JoinersLead (ts : List Token) : Prop :=
  ∀ j rest, .joiner j :: rest <:+ ts → rest.head? = some .opening

theorem joinersLead_nil : JoinersLead [] := by
  intro j rest h
  cases List.suffix_nil.mp h

theorem joinersLead_cons {t : Token} {ts : List Token} :
    JoinersLead (t :: ts) ↔ (∀ j, t = .joiner j → ts.head? = some .opening) ∧ JoinersLead ts := by
  constructor
  · intro h
    refine ⟨?_, fun j rest hrest => h j rest (hrest.trans (List.suffix_cons t ts))⟩
    rintro j rfl
    exact h j ts (List.suffix_refl _)
  · rintro ⟨hfirst, hts⟩ j rest hrest
    -- a joiner within the tokens is the first one or stands behind it
    rcases List.suffix_cons_iff.mp hrest with heq | hsuffix
    · obtain ⟨hj, rfl⟩ := List.cons.inj heq
      exact hfirst j hj.symm
    · exact hts j rest hsuffix

/-- Where the reader stands, it comes to an end exactly if the groups that are open are closed in
what follows, joiners lead groups there, and a joiner that waits meets its group at once. -/
theorem exists_finish_iff {p : Progress} {ts : List Token} :
    (∃ bs, (p.run? ts).bind Progress.finish? = some bs) ↔
      depth? p.groups.length ts = some 0 ∧ JoinersLead ts ∧
        (p.waiting ≠ none → ts.head? = some .opening) := by
  obtain ⟨siblings, groups, waiting⟩ := p
  -- the three conditions follow the state: of the siblings that were read nothing is asked
  induction ts generalizing siblings groups waiting with
  | nil =>
    cases waiting <;> cases groups <;>
      simp [Progress.run?, Progress.finish?, depth?, joinersLead_nil]
  | cons t ts ih =>
    rw [joinersLead_cons]
    cases t with
    | joiner j =>
      cases waiting with
      | none => simp [Progress.run?, Progress.step?, depth?, ih, and_comm]
      | some _ => simp [Progress.run?, Progress.step?]
    | opening => simp [Progress.run?, Progress.step?, depth?, ih]
    | closing =>
      cases waiting with
      | none =>
        cases groups with
        | nil => simp [Progress.run?, Progress.step?, depth?]
        | cons g groups => simp [Progress.run?, Progress.step?, depth?, ih]
      | some _ => cases groups <;> simp [Progress.run?, Progress.step?]
    | comparison c =>
      cases waiting with
      | none => simp [Progress.run?, Progress.step?, depth?, ih]
      | some _ => simp [Progress.run?, Progress.step?]

/-- **Which tokens are a flat form**: those with balanced groups in which joiners lead groups. -/
theorem exists_decode_iff {ts : List Token} :
    (∃ bs, decode ts = some bs) ↔ Balanced ts ∧ JoinersLead ts := by
  rw [decode, exists_finish_iff]
  simp [Progress.start, Balanced]

end Token

open Token in
/-- **The flat form of a filter can be undone.** For siblings of any depth and any aliases, the
tokens are balanced and joiners stand right in front of opening marks. The reader gives back what
the tokens show of the siblings: their nesting and order, the joiners of leaves and groups, the
groups without siblings, and for each leaf its operator, its value and the two parts of its path.
Nothing else has these tokens, so trees that differ in any of this have different tokens. -/
theorem Node.flatten_invertible (aliases : Aliases) (ns : List Node) :
    Balanced (flatten aliases ns) ∧ JoinersLead (flatten aliases ns) ∧
    decode (flatten aliases ns) = some (branches aliases ns) ∧
    (∀ bs, Branch.flatten bs = flatten aliases ns ↔ bs = branches aliases ns) ∧
    ∀ (aliases' : Aliases) (ms : List Node),
      flatten aliases' ms = flatten aliases ns ↔ branches aliases' ms = branches aliases ns := by
  -- the reader is exact: it answers with branches exactly if these have the tokens
  have hdecode : decode (flatten aliases ns) = some (branches aliases ns) :=
    decode_eq_some_iff.mpr (flatten_branches aliases ns)
  have hunique : ∀ bs, Branch.flatten bs = flatten aliases ns ↔ bs = branches aliases ns := by
    intro bs
    rw [← decode_eq_some_iff, hdecode, Option.some_inj]
    exact eq_comm
  obtain ⟨hbalanced, hlead⟩ := exists_decode_iff.mp ⟨_, hdecode⟩
  refine ⟨hbalanced, hlead, hdecode, hunique, fun aliases' ms => ?_⟩
  rw [← hunique, flatten_branches]

end BoundSql
