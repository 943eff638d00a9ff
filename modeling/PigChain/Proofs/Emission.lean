import PigChain.Proofs.Graph
import PigChain.Proofs.Lowering

/-!
# The statements that a stage adds

Lowering only ever adds statements, and a scalar inside an expression adds those of its whole stage before the statement
that uses it. The relation and the bag that a stage has reached stay where they are meanwhile, since they are numbers of
statements that are there. So every statement refers to statements before it, and the statements of one stage, read from
its result back to its source, are its clauses in their order, whatever was added between them.
-/

namespace PigChain

variable {N : String → Prop} {ss ss' : List Statement} {s t : Stage} {e x : Expr}

/-! ### What a statement refers to -/

/-- A column that a term refers to: of the row, or of another relation. -/
structure Reference where
  relation? : Option Nat
  column : String

def Term.references : Term → List Reference
  | .field name => [⟨none, name⟩]
  | .bag r column => [⟨some r, column⟩]
  | .single r column => [⟨some r, column⟩]
  | .not x => x.references
  | .negate x => x.references
  | .cast _ x => x.references
  | .isNull x => x.references
  | .isNotNull x => x.references
  | .operation _ x y => x.references ++ y.references
  | .choose t x y => t.references ++ (x.references ++ y.references)
  | .orElse x y => x.references ++ y.references
  | .call1 _ x => x.references
  | .call2 _ x y => x.references ++ y.references
  | .contains x y => x.references ++ y.references
  | _ => []

namespace Statement

/-- The relation that a statement runs over. -/
def input? : Statement → Option Nat
  | .load _ => none
  | .filter r _ => some r
  | .generate r _ => some r
  | .groupAll r => some r
  | .groupBy r _ => some r
  | .order r _ => some r
  | .limit r _ => some r

def terms : Statement → List Term
  | .filter _ p => [p]
  | .generate _ items => items.map Item.term
  | .groupBy _ keys => keys
  | .order _ keys => keys.map Prod.fst
  | _ => []

/-- The names that a statement gives to columns. -/
def aliases : Statement → List String
  | .generate _ items => items.filterMap Item.alias?
  | _ => []

def references (st : Statement) : List Reference := st.terms.flatMap Term.references

/-- Every relation that a statement mentions. -/
def relations (st : Statement) : List Nat := st.input?.toList ++ st.references.filterMap Reference.relation?

/-- A statement may stand at `n` with column names in `N`: it mentions relations before it only. -/
structure Fits (N : String → Prop) (n : Nat) (st : Statement) : Prop where
  relations : ∀ r ∈ st.relations, r < n
  columns : ∀ q ∈ st.references, N q.column
  aliases : ∀ a ∈ st.aliases, N a

end Statement

/-- Every statement of a list fits where it stands. -/
def Statement.AllFit (N : String → Prop) (ss : List Statement) : Prop :=
  ∀ (n : Nat) st, ss[n]? = some st → st.Fits N n

/-! ### Clauses in order -/

/-- What a statement does. -/
inductive Clause where
  | load | filter | generate | group | order | limit
  deriving DecidableEq, Repr

def Statement.clause : Statement → Clause
  | .load _ => .load
  | .filter _ _ => .filter
  | .generate _ _ => .generate
  | .groupAll _ => .group
  | .groupBy _ _ => .group
  | .order _ _ => .order
  | .limit _ _ => .limit

/-- A clause of a stage with its expressions. -/
structure Step where
  clause : Clause
  exprs : List Expr

namespace Stage

def filterSteps (s : Stage) : List Step := s.filter.toList.map fun x => ⟨.filter, [x]⟩

def columnSteps (s : Stage) : List Step :=
  if s.projected then [⟨.generate, s.columns.map Column.expr⟩] else []

def groupSteps (s : Stage) : List Step := s.grouping.toList.map fun g => ⟨.group, Grouping.exprs (some g)⟩

def orderSteps (s : Stage) : List Step :=
  if s.orderBy.isEmpty then [] else [⟨.order, s.orderBy.map Ordering.expr⟩]

def limitSteps (s : Stage) : List Step := s.limit.toList.map fun _ => ⟨.limit, []⟩

/-- The clauses that a stage has, in the order in which they run. -/
def steps (s : Stage) : List Step :=
  s.filterSteps ++ (s.columnSteps ++ (s.groupSteps ++ (s.orderSteps ++ s.limitSteps)))

/-- `s.Reaches ss rest r`: among the statements `ss`, the stage has come to the relation `r`, and its clauses `rest` are
still to run. It starts from its own source or from what the stage it reads leaves; a clause is a statement over the
relation reached before it, which mentions, for each scalar in the clause, the relation that the scalar's stage leaves. -/
inductive Reaches (ss : List Statement) : Stage → List Step → Nat → Prop where
  | load {s : Stage} {name : String} {n : Nat} (hs : s.source = .base name) (hn : ss[n]? = some (.load name)) :
    Reaches ss s s.steps n
  | inner {s inner : Stage} {r : Nat} (hs : s.source = .stage inner) (h : Reaches ss inner [] r) :
    Reaches ss s s.steps r
  | step {s : Stage} {c : Step} {rest : List Step} {r n : Nat} {st : Statement} (number : Stage → Nat)
    (h : Reaches ss s (c :: rest) r) (hn : ss[n]? = some st) (hc : st.clause = c.clause) (hi : st.input? = some r)
    (hscalars : ∀ x ∈ c.exprs, ∀ t type, Expr.Has (.scalar t type) x → Reaches ss t [] (number t))
    (hreads : ∀ x ∈ c.exprs, ∀ t type, Expr.Has (.scalar t type) x → number t ∈ st.relations) :
    Reaches ss s rest n

/-- The stage leaves the relation `r`: all of its clauses have run. -/
def Leaves (ss : List Statement) (s : Stage) (r : Nat) : Prop := s.Reaches ss [] r

/-- A stage that has come to `r`, with the column by which a clause reads each of its scalars. -/
inductive LaidOut (ss : List Statement) : Stage → List Step → Nat → Prop where
  | load {s : Stage} {name : String} {n : Nat} (hs : s.source = .base name) (hn : ss[n]? = some (.load name)) :
    LaidOut ss s s.steps n
  | inner {s inner : Stage} {r : Nat} (hs : s.source = .stage inner) (h : LaidOut ss inner [] r) :
    LaidOut ss s s.steps r
  | step {s : Stage} {c : Step} {rest : List Step} {r n : Nat} {st : Statement} (number : Stage → Nat)
    (h : LaidOut ss s (c :: rest) r) (hn : ss[n]? = some st) (hc : st.clause = c.clause) (hi : st.input? = some r)
    (hscalars : ∀ x ∈ c.exprs, ∀ t type, Expr.Has (.scalar t type) x → LaidOut ss t [] (number t))
    (hreads : ∀ x ∈ c.exprs, ∀ t type, Expr.Has (.scalar t type) x →
      (⟨some (number t), t.scalarColumn⟩ : Reference) ∈ st.references) :
    LaidOut ss s rest n

namespace LaidOut

variable {rest : List Step} {r : Nat}

theorem reaches (h : s.LaidOut ss rest r) : s.Reaches ss rest r := by
  induction h with
  | load hs hn => exact .load hs hn
  | inner hs _ ih => exact .inner hs ih
  | step number _ hn hc hi _ hreads ih ihscalars =>
    refine .step number ih hn hc hi ihscalars fun x hx t type hhas => List.mem_append_right _ ?_
    exact List.mem_filterMap.mpr ⟨_, hreads x hx t type hhas, rfl⟩

theorem mono (hp : ss <+: ss') (h : s.LaidOut ss rest r) : s.LaidOut ss' rest r := by
  have hkept : ∀ {n : Nat} {st : Statement}, ss[n]? = some st → ss'[n]? = some st := by
    intro n st hn
    obtain ⟨more, rfl⟩ := hp
    obtain ⟨hlt, -⟩ := List.getElem?_eq_some_iff.mp hn
    rw [List.getElem?_append_left hlt]
    exact hn
  induction h with
  | load hs hn => exact .load hs (hkept hn)
  | inner hs _ ih => exact .inner hs ih
  | step number _ hn hc hi _ hreads ih ihscalars => exact .step number ih (hkept hn) hc hi ihscalars hreads

/-- A clause whose scalars are laid out, from the relation that was reached. -/
theorem next {c : Step} {n : Nat} {st : Statement} (h : s.LaidOut ss (c :: rest) r) (hn : ss[n]? = some st)
    (hc : st.clause = c.clause) (hi : st.input? = some r)
    (hscalars : ∀ x ∈ c.exprs, ∀ t type, Expr.Has (.scalar t type) x →
      ∃ m, LaidOut ss t [] m ∧ (⟨some m, t.scalarColumn⟩ : Reference) ∈ st.references) :
    s.LaidOut ss rest n := by
  have hnumber : ∀ t : Stage, ∃ m, ∀ x ∈ c.exprs, ∀ type, Expr.Has (.scalar t type) x →
      LaidOut ss t [] m ∧ (⟨some m, t.scalarColumn⟩ : Reference) ∈ st.references := by
    intro t
    by_cases ht : ∃ x ∈ c.exprs, ∃ type, Expr.Has (.scalar t type) x
    · obtain ⟨x, hx, type, hhas⟩ := ht
      obtain ⟨m, hm⟩ := hscalars x hx t type hhas
      exact ⟨m, fun _ _ _ _ => hm⟩
    · exact ⟨0, fun x hx type hhas => absurd ⟨x, hx, type, hhas⟩ ht⟩
  choose number hnumber using hnumber
  exact .step number h hn hc hi (fun x hx t type hhas => (hnumber t x hx type hhas).1)
    fun x hx t type hhas => (hnumber t x hx type hhas).2

end LaidOut

end Stage

/-! ### Runs that add statements -/

/-- Whatever a run from `ss` ends with, it has only added statements that fit, and `P` holds of the statements and of
the result. -/
def Ensures {α : Type} (N : String → Prop) (ss : List Statement) (x : Lower α) (P : List Statement → α → Prop) : Prop :=
  ∀ a ss', x.run ss = .ok (a, ss') → ss <+: ss' ∧ (Statement.AllFit N ss → Statement.AllFit N ss') ∧ P ss' a

namespace Ensures

variable {α β : Type} {P : List Statement → α → Prop} {Q : List Statement → β → Prop}

theorem pure {a : α} (h : P ss a) : Ensures N ss (Pure.pure a) P := by
  intro b ss' hrun
  cases hrun
  exact ⟨List.prefix_rfl, id, h⟩

theorem throw (err : Error) : Ensures N ss (MonadExcept.throw err : Lower α) P := by
  intro a ss' hrun
  cases hrun

theorem lift {result : Except Error α} (h : ∀ a, result = .ok a → P ss a) : Ensures N ss (liftM result : Lower α) P := by
  intro a ss' hrun
  cases result with
  | error err => cases hrun
  | ok b =>
    cases hrun
    exact ⟨List.prefix_rfl, id, h _ rfl⟩

theorem bind {x : Lower α} {f : α → Lower β} (hx : Ensures N ss x P)
    (hf : ∀ ss' a, ss <+: ss' → P ss' a → Ensures N ss' (f a) Q) : Ensures N ss (x >>= f) Q := by
  intro b ss₂ hrun
  rw [StateT.run_bind] at hrun
  obtain ⟨⟨a, ss₁⟩, ha, hb⟩ := except_do_eq_ok.mp hrun
  obtain ⟨hp₁, hfit₁, hP⟩ := hx a ss₁ ha
  obtain ⟨hp₂, hfit₂, hQ⟩ := hf ss₁ a hp₁ hP b ss₂ hb
  exact ⟨hp₁.trans hp₂, fun h => hfit₂ (hfit₁ h), hQ⟩

theorem imp {x : Lower α} {P' : List Statement → α → Prop} (hx : Ensures N ss x P) (h : ∀ ss' a, P ss' a → P' ss' a) :
    Ensures N ss x P' := by
  intro a ss' hrun
  obtain ⟨hp, hfit, hP⟩ := hx a ss' hrun
  exact ⟨hp, hfit, h ss' a hP⟩

theorem emit {st : Statement} {P : List Statement → Nat → Prop} (hfit : st.Fits N ss.length)
    (h : P (ss ++ [st]) ss.length) : Ensures N ss (Lower.emit st) P := by
  intro n ss' hrun
  cases hrun
  refine ⟨List.prefix_append ss [st], fun hss m st' hm => ?_, h⟩
  by_cases hlt : m < ss.length
  · rw [List.getElem?_append_left hlt] at hm
    exact hss m st' hm
  · obtain ⟨hlen, -⟩ := List.getElem?_eq_some_iff.mp hm
    simp only [List.length_append, List.length_singleton] at hlen
    have hm' : m = ss.length := by omega
    subst hm'
    simp only [List.getElem?_concat_length, Option.some.injEq] at hm
    exact hm ▸ hfit

end Ensures

/-! ### Terms -/

theorem mem_references_negation {q : Reference} (x : Term) : q ∈ x.negation.references ↔ q ∈ x.references := by
  cases x <;> rfl

theorem mem_references_binaryTerm {q : Reference} (op : BinaryOp) (type : DataType) (x y : Term) :
    q ∈ (binaryTerm op type x y).references ↔ q ∈ x.references ∨ q ∈ y.references := by
  unfold binaryTerm
  split
  · exact List.mem_append
  · split
    · exact List.mem_append
    · exact List.mem_append

theorem mem_references_callTerm {q : Reference} {method : String} {object : Option Term} {args : List Term} {call : Term}
    (h : callTerm method object args = .ok call) :
    q ∈ call.references ↔ ∃ x ∈ args ++ object.toList, q ∈ x.references := by
  unfold callTerm at h
  split at h
  · split at h
    · cases h
      simp [Term.references]
    · cases h
  · split at h
    · cases h
      simp [Term.references]
    · cases h
  · split at h
    · cases h
      simp [Term.references, or_comm]
    · cases h
      simp [Term.references, or_comm]
    · cases h
      simp [Term.references, or_comm]
    · cases h
  · cases h

/-- The terms `ts` stand for the expressions `xs` after the statements `ss`: they refer to relations that are there and
to columns in `N`, and they read each scalar in the expressions from the relation that its stage leaves. -/
structure Lowered (N : String → Prop) (ss : List Statement) (xs : List Expr) (ts : List Term) : Prop where
  relations : ∀ t ∈ ts, ∀ q ∈ t.references, ∀ r ∈ q.relation?, r < ss.length
  columns : ∀ t ∈ ts, ∀ q ∈ t.references, N q.column
  scalars : ∀ x ∈ xs, ∀ u type, Expr.Has (.scalar u type) x →
    ∃ r, u.LaidOut ss [] r ∧ ∃ t ∈ ts, (⟨some r, u.scalarColumn⟩ : Reference) ∈ t.references

namespace Lowered

variable {xs ys : List Expr} {ts us : List Term}

theorem nil : Lowered N ss [] [] := by
  constructor
  · intro t ht
    cases ht
  · intro t ht
    cases ht
  · intro x hx
    cases hx

theorem mono (hp : ss <+: ss') (h : Lowered N ss xs ts) : Lowered N ss' xs ts := by
  refine ⟨fun t ht q hq r hr => ?_, h.columns, fun x hx u type hhas => ?_⟩
  · have hlt := h.relations t ht q hq r hr
    have hle := hp.length_le
    omega
  · obtain ⟨r, hlaid, hread⟩ := h.scalars x hx u type hhas
    exact ⟨r, hlaid.mono hp, hread⟩

theorem append (hx : Lowered N ss xs ts) (hy : Lowered N ss ys us) : Lowered N ss (xs ++ ys) (ts ++ us) := by
  refine ⟨fun t ht => ?_, fun t ht => ?_, fun x hmem u type hhas => ?_⟩
  · rcases List.mem_append.mp ht with ht | ht
    · exact hx.relations t ht
    · exact hy.relations t ht
  · rcases List.mem_append.mp ht with ht | ht
    · exact hx.columns t ht
    · exact hy.columns t ht
  · rcases List.mem_append.mp hmem with hmem | hmem
    · obtain ⟨r, hlaid, t, ht, href⟩ := hx.scalars x hmem u type hhas
      exact ⟨r, hlaid, t, List.mem_append_left us ht, href⟩
    · obtain ⟨r, hlaid, t, ht, href⟩ := hy.scalars x hmem u type hhas
      exact ⟨r, hlaid, t, List.mem_append_right ts ht, href⟩

/-- A node whose term refers to what the terms of its children refer to. -/
theorem node {term : Term} (he : e.holdsStage = false) (h : Lowered N ss xs ts) (hc : ∀ c ∈ e.children, c ∈ xs)
    (href : ∀ q, q ∈ term.references ↔ ∃ t ∈ ts, q ∈ t.references) : Lowered N ss [e] [term] := by
  refine ⟨fun t ht q hq => ?_, fun t ht q hq => ?_, fun x hx u type hhas => ?_⟩
  · rw [List.mem_singleton.mp ht] at hq
    obtain ⟨t', ht', hq⟩ := (href q).mp hq
    exact h.relations t' ht' q hq
  · rw [List.mem_singleton.mp ht] at hq
    obtain ⟨t', ht', hq⟩ := (href q).mp hq
    exact h.columns t' ht' q hq
  · rw [List.mem_singleton.mp hx, Expr.has_stage_iff he rfl] at hhas
    obtain ⟨c, hmem, hhas⟩ := hhas
    obtain ⟨r, hlaid, t, ht, hread⟩ := h.scalars c (hc c hmem) u type hhas
    exact ⟨r, hlaid, term, List.mem_singleton_self term, (href _).mpr ⟨t, ht, hread⟩⟩

/-- A term that refers to one column, for an expression without a scalar in it. -/
theorem column {name : String} {scope : Scope} {type : DataType} {term : Term} {relation? : Option Nat} (hN : N name)
    (href : term.references = [⟨relation?, name⟩]) (hr : ∀ r ∈ relation?, r < ss.length) :
    Lowered N ss [.column name scope type] [term] := by
  refine ⟨fun t ht q hq r hmem => ?_, fun t ht q hq => ?_, fun x hx u utype hhas => ?_⟩
  · rw [List.mem_singleton.mp ht, href] at hq
    rw [List.mem_singleton.mp hq] at hmem
    exact hr r hmem
  · rw [List.mem_singleton.mp ht, href] at hq
    rw [List.mem_singleton.mp hq]
    exact hN
  · rw [List.mem_singleton.mp hx] at hhas
    cases Expr.has_of_leaf rfl hhas

theorem fits {st : Statement} {r : Nat} (h : Lowered N ss xs st.terms) (hi : st.input? = some r) (hr : r < ss.length)
    (ha : ∀ a ∈ st.aliases, N a) : st.Fits N ss.length := by
  refine ⟨fun m hm => ?_, fun q hq => ?_, ha⟩
  · rw [Statement.relations, hi, List.mem_append] at hm
    rcases hm with hm | hm
    · rw [List.mem_singleton.mp hm]
      exact hr
    · obtain ⟨q, hq, hrel⟩ := List.mem_filterMap.mp hm
      obtain ⟨t, ht, hq⟩ := List.mem_flatMap.mp hq
      exact h.relations t ht q hq m hrel
  · obtain ⟨t, ht, hq⟩ := List.mem_flatMap.mp hq
    exact h.columns t ht q hq

/-- The statement of a clause, added after those that its expressions need. -/
theorem laidOut {st : Statement} {c : Step} {rest : List Step} {r : Nat} (h : Lowered N ss c.exprs st.terms)
    (hs : s.LaidOut ss (c :: rest) r) (hc : st.clause = c.clause) (hi : st.input? = some r) :
    s.LaidOut (ss ++ [st]) rest ss.length := by
  have hp : ss <+: ss ++ [st] := List.prefix_append ss [st]
  refine (hs.mono hp).next (by simp) hc hi fun x hx u type hhas => ?_
  obtain ⟨m, hlaid, t, ht, href⟩ := h.scalars x hx u type hhas
  exact ⟨m, hlaid.mono hp, List.mem_flatMap.mpr ⟨t, ht, href⟩⟩

end Lowered

/-! ### Expressions -/

/-- An expression is lowered to a term after any statements among which its bag is. -/
def Expr.Lowers (N : String → Prop) (e : Expr) : Prop :=
  ∀ ss bag, (∀ b ∈ bag, b < ss.length) → Ensures N ss (e.lower bag) fun ss' term => Lowered N ss' [e] [term]

theorem bag_mono {bag : Option Nat} (hp : ss <+: ss') (h : ∀ b ∈ bag, b < ss.length) : ∀ b ∈ bag, b < ss'.length := by
  intro b hb
  have hlt := h b hb
  have hle := hp.length_le
  omega

theorem ensures_list {bag : Option Nat} {xs : List Expr} (h : ∀ x ∈ xs, x.Lowers N)
    (hbag : ∀ b ∈ bag, b < ss.length) : Ensures N ss (Expr.lowerList bag xs) fun ss' ts => Lowered N ss' xs ts := by
  induction xs generalizing ss with
  | nil =>
    rw [Expr.lowerList]
    exact .pure .nil
  | cons x xs ih =>
    rw [Expr.lowerList]
    refine (h x List.mem_cons_self ss bag hbag).bind fun ss₁ t hp₁ ht => ?_
    refine (ih (fun y hy => h y (List.mem_cons_of_mem x hy)) (bag_mono hp₁ hbag)).bind fun ss₂ ts hp₂ hts => ?_
    exact .pure ((ht.mono hp₂).append hts)

/-- The names of the columns that stand in an expression and in the stages inside it are in `N`. -/
def Expr.NamesIn (N : String → Prop) (e : Expr) : Prop :=
  e.Throughout fun y => (∀ name scope type, y = .column name scope type → N name) ∧
    y.Holds fun t => ∀ name ∈ Column.names t.columns, N name

/-- One case a kind of node: the terms of the children, one after another, then the node. `hstage` is the case of a
scalar, the only node that adds statements of its own. -/
theorem lowers_of_children (hN : e.NamesIn N) (hvalue : N "value") (h : ∀ c ∈ e.children, c.Lowers N)
    (hstage : ∀ s type, e = .scalar s type → ∀ ss, Ensures N ss s.lower fun ss' r =>
      r.number < ss'.length ∧ s.LaidOut ss' [] r.number) : e.Lowers N := by
  intro ss bag hbag
  cases e with
  | constant v t =>
    rw [Expr.lower]
    refine .lift fun term hterm => .node rfl .nil (List.forall_mem_nil _) fun q => ?_
    have hnone : term.references = [] := by
      cases v <;> cases hterm <;> rfl
    simp [hnone]
  | column name scope t =>
    have hname : N name := (hN _ .self).1 name scope t rfl
    rw [Expr.lower]
    refine .lift fun term hterm => ?_
    cases scope with
    | row =>
      cases hterm
      exact .column hname rfl fun r hr => by cases hr
    | group =>
      cases bag with
      | none => cases hterm
      | some b =>
        cases hterm
        exact .column hname rfl hbag
  | unary op x t =>
    have hx := h x List.mem_cons_self ss bag hbag
    cases op with
    | not =>
      rw [Expr.lower]
      refine hx.bind fun ss₁ u hp hu => .pure (.node rfl hu (fun c hc => hc) fun q => ?_)
      simp [mem_references_negation]
    | negate =>
      rw [Expr.lower]
      refine hx.bind fun ss₁ u hp hu => .pure (.node rfl hu (fun c hc => hc) fun q => ?_)
      simp [Term.references]
    | convert =>
      rw [Expr.lower]
      cases t.cast? with
      | none => exact .throw _
      | some type =>
        refine hx.bind fun ss₁ u hp hu => .pure (.node rfl hu (fun c hc => hc) fun q => ?_)
        simp [Term.references]
  | binary op x y t =>
    rw [Expr.lower]
    refine (h x (by simp [Expr.children]) ss bag hbag).bind fun ss₁ u hp₁ hu => ?_
    refine (h y (by simp [Expr.children]) ss₁ bag (bag_mono hp₁ hbag)).bind fun ss₂ v hp₂ hv => ?_
    refine .pure (.node rfl ((hu.mono hp₂).append hv) (fun c hc => hc) fun q => ?_)
    simp [mem_references_binaryTerm]
  | conditional c x y t =>
    rw [Expr.lower]
    refine (h c (by simp [Expr.children]) ss bag hbag).bind fun ss₁ u hp₁ hu => ?_
    refine (h x (by simp [Expr.children]) ss₁ bag (bag_mono hp₁ hbag)).bind fun ss₂ v hp₂ hv => ?_
    have hbag₂ := bag_mono (hp₁.trans hp₂) hbag
    refine (h y (by simp [Expr.children]) ss₂ bag hbag₂).bind fun ss₃ w hp₃ hw => ?_
    have hboth := ((hu.mono hp₂).append hv).mono hp₃
    refine .pure (.node rfl (hboth.append hw) (fun d hd => hd) fun q => ?_)
    simp [Term.references]
  | isNull x =>
    rw [Expr.lower]
    refine (h x List.mem_cons_self ss bag hbag).bind fun ss₁ u hp hu => .pure (.node rfl hu (fun c hc => hc) fun q => ?_)
    simp [Term.references]
  | call object method args t =>
    rw [Expr.lower]
    have hargs : ∀ x ∈ args, x.Lowers N := fun x hx => h x (List.mem_append_right _ hx)
    refine (ensures_list hargs hbag).bind fun ss₁ us hp₁ hus => ?_
    -- The arguments come before the object, which is a child before them.
    have hchildren : ∀ c ∈ (Expr.call object method args t).children, c ∈ args ++ object.toList := by
      intro c hc
      simp only [Expr.children, List.mem_append] at hc ⊢
      exact hc.symm
    cases object with
    | none =>
      refine .lift fun call hcall => .node rfl hus (fun c hc => ?_) fun q => ?_
      · simpa using hchildren c hc
      · rw [mem_references_callTerm hcall, Option.toList_none, List.append_nil]
    | some x =>
      refine (h x (by simp [Expr.children]) ss₁ bag (bag_mono hp₁ hbag)).bind fun ss₂ v hp₂ hv => ?_
      refine .lift fun call hcall => .node rfl ((hus.mono hp₂).append hv) hchildren fun q => ?_
      rw [mem_references_callTerm hcall, Option.toList_some]
  | scalar s t =>
    have hcolumn : N s.scalarColumn := by
      have hnames := (hN _ .self).2 s rfl s .self
      unfold Stage.scalarColumn
      split
      · exact hvalue
      · next c cs hcols => exact hnames c.name (by simp [Column.names, hcols])
    rw [Expr.lower]
    refine (hstage s t rfl ss).bind fun ss₁ r hp hr => .pure ⟨?_, ?_, ?_⟩
    · intro u hu q hq m hm
      rw [List.mem_singleton.mp hu, Term.references] at hq
      rw [List.mem_singleton.mp hq] at hm
      cases hm
      exact hr.1
    · intro u hu q hq
      rw [List.mem_singleton.mp hu, Term.references] at hq
      rw [List.mem_singleton.mp hq]
      exact hcolumn
    · intro x hx u type hhas
      rw [List.mem_singleton.mp hx] at hhas
      cases hhas with
      | self => exact ⟨r.number, hr.2, _, List.mem_singleton_self _, List.mem_singleton_self _⟩
      | child he _ _ => cases he
  | _ =>
    simp only [Expr.lower]
    exact .throw _

/-! ### Stages -/

/-- A stage has reached a relation, and it and its bag are there. -/
structure Stage.Stands (ss : List Statement) (s : Stage) (rest : List Step) (r : Relation) : Prop where
  number : r.number < ss.length
  bag : ∀ b ∈ r.bag, b < ss.length
  laidOut : s.LaidOut ss rest r.number

theorem Stage.Stands.mono {rest : List Step} {r : Relation} (hp : ss <+: ss') (h : s.Stands ss rest r) :
    s.Stands ss' rest r := by
  refine ⟨?_, bag_mono hp h.bag, h.laidOut.mono hp⟩
  have hlt := h.number
  have hle := hp.length_le
  omega

section

variable {rest : List Step} {r : Relation}

/-- The statement of a clause takes the stage on by that clause. -/
theorem ensures_clause (st : Statement) {c : Step} {bag : Option Nat} (hs : s.Stands ss (c :: rest) r)
    (h : Lowered N ss c.exprs st.terms) (hc : st.clause = c.clause) (hi : st.input? = some r.number)
    (ha : ∀ a ∈ st.aliases, N a) (hbag : ∀ b ∈ bag, b < ss.length) :
    Ensures N ss (do pure ⟨← Lower.emit st, bag⟩) fun ss' r' => s.Stands ss' rest r' := by
  have hp : ss <+: ss ++ [st] := List.prefix_append ss [st]
  have hemit : Ensures N ss (Lower.emit st) fun ss' n => s.Stands ss' rest ⟨n, bag⟩ :=
    .emit (h.fits hi hs.number ha) ⟨by simp, bag_mono hp hbag, h.laidOut hs.laidOut hc hi⟩
  exact hemit.bind fun ss' n _ hn => .pure hn

theorem ensures_filter (h : ∀ x ∈ s.filter, x.Lowers N) (hs : s.Stands ss (s.filterSteps ++ rest) r) :
    Ensures N ss (Stage.lowerFilter r s.filter) fun ss' r' => s.Stands ss' rest r' := by
  unfold Stage.filterSteps at hs
  cases hf : s.filter with
  | none =>
    rw [hf] at hs
    rw [Stage.lowerFilter]
    exact .pure hs
  | some x =>
    rw [hf] at hs
    rw [Stage.lowerFilter]
    refine (h x hf ss r.bag hs.bag).bind fun ss₁ p hp hlow => ?_
    have hs₁ := hs.mono hp
    exact ensures_clause (.filter r.number p) hs₁ hlow rfl rfl (List.forall_mem_nil _) hs₁.bag

theorem ensures_items {bag : Option Nat} {columns : List Column} (h : ∀ c ∈ columns, c.expr.Lowers N)
    (hN : ∀ name ∈ Column.names columns, N name) (hbag : ∀ b ∈ bag, b < ss.length) :
    Ensures N ss (Column.lowerList bag columns) fun ss' items =>
      Lowered N ss' (columns.map Column.expr) (items.map Item.term) ∧ ∀ a ∈ items.filterMap Item.alias?, N a := by
  induction columns generalizing ss with
  | nil =>
    rw [Column.lowerList]
    exact .pure ⟨.nil, List.forall_mem_nil _⟩
  | cons c columns ih =>
    obtain ⟨name, x⟩ := c
    rw [Column.lowerList]
    refine (h ⟨name, x⟩ List.mem_cons_self ss bag hbag).bind fun ss₁ t hp₁ ht => ?_
    have hrest := ih (fun d hd => h d (List.mem_cons_of_mem _ hd)) (fun n hn => hN n (List.mem_cons_of_mem _ hn))
      (bag_mono hp₁ hbag)
    refine hrest.bind fun ss₂ items hp₂ hitems => .pure ⟨(ht.mono hp₂).append hitems.1, ?_⟩
    intro a ha
    obtain ⟨item, hitem, ha⟩ := List.mem_filterMap.mp ha
    rcases List.mem_cons.mp hitem with rfl | hitem
    · have hname : a = name := by
        unfold Column.alias? at ha
        split at ha
        · split at ha
          · cases ha
          · exact (Option.some.inj ha).symm
        · exact (Option.some.inj ha).symm
      rw [hname]
      exact hN name List.mem_cons_self
    · exact hitems.2 a (List.mem_filterMap.mpr ⟨item, hitem, ha⟩)

theorem ensures_columns (h : ∀ c ∈ s.columns, c.expr.Lowers N) (hN : ∀ name ∈ Column.names s.columns, N name)
    (hs : s.Stands ss (s.columnSteps ++ rest) r) :
    Ensures N ss (Stage.lowerColumns r s.projected s.columns) fun ss' r' => s.Stands ss' rest r' := by
  unfold Stage.columnSteps at hs
  unfold Stage.lowerColumns
  split
  · next hproj =>
    rw [if_pos hproj] at hs
    refine (ensures_items h hN hs.bag).bind fun ss₁ items hp hitems => ?_
    exact ensures_clause (.generate r.number items) (hs.mono hp) hitems.1 rfl rfl hitems.2 fun b hb => by cases hb
  · next hproj =>
    rw [if_neg hproj] at hs
    exact .pure hs

theorem ensures_grouping (h : ∀ x ∈ Grouping.exprs s.grouping, x.Lowers N)
    (hs : s.Stands ss (s.groupSteps ++ rest) r) :
    Ensures N ss (Stage.lowerGrouping r s.grouping) fun ss' r' => s.Stands ss' rest r' := by
  -- The bag of a group is the relation that was grouped.
  have hbag : ∀ {ss : List Statement}, r.number < ss.length → ∀ b ∈ some r.number, b < ss.length := by
    intro ss hlt b hb
    cases hb
    exact hlt
  unfold Stage.groupSteps at hs
  cases hg : s.grouping with
  | none =>
    rw [hg] at hs
    rw [Stage.lowerGrouping]
    exact .pure hs
  | some g =>
    rw [hg] at hs h
    cases g with
    | all =>
      rw [Stage.lowerGrouping]
      exact ensures_clause (.groupAll r.number) hs .nil rfl rfl (List.forall_mem_nil _) (hbag hs.number)
    | keys keys =>
      rw [Stage.lowerGrouping]
      refine (ensures_list h hs.bag).bind fun ss₁ ks hp hks => ?_
      have hs₁ := hs.mono hp
      exact ensures_clause (.groupBy r.number ks) hs₁ hks rfl rfl (List.forall_mem_nil _) (hbag hs₁.number)

theorem ensures_keys {bag : Option Nat} {orderBy : List Ordering} (h : ∀ o ∈ orderBy, o.expr.Lowers N)
    (hbag : ∀ b ∈ bag, b < ss.length) :
    Ensures N ss (Ordering.lowerList bag orderBy) fun ss' keys =>
      Lowered N ss' (orderBy.map Ordering.expr) (keys.map Prod.fst) ∧ keys.isEmpty = orderBy.isEmpty := by
  induction orderBy generalizing ss with
  | nil =>
    rw [Ordering.lowerList]
    exact .pure ⟨.nil, rfl⟩
  | cons o orderBy ih =>
    obtain ⟨x, d⟩ := o
    rw [Ordering.lowerList]
    refine (h ⟨x, d⟩ List.mem_cons_self ss bag hbag).bind fun ss₁ t hp₁ ht => ?_
    have hrest := ih (fun p hp => h p (List.mem_cons_of_mem _ hp)) (bag_mono hp₁ hbag)
    exact hrest.bind fun ss₂ keys hp₂ hkeys => .pure ⟨(ht.mono hp₂).append hkeys.1, rfl⟩

theorem ensures_order (h : ∀ o ∈ s.orderBy, o.expr.Lowers N) (hs : s.Stands ss (s.orderSteps ++ rest) r) :
    Ensures N ss (Stage.lowerOrder r s.orderBy) fun ss' r' => s.Stands ss' rest r' := by
  unfold Stage.orderSteps at hs
  unfold Stage.lowerOrder
  refine (ensures_keys h hs.bag).bind fun ss₁ keys hp hkeys => ?_
  have hs₁ := hs.mono hp
  rw [hkeys.2]
  split
  · next hempty =>
    rw [if_pos hempty] at hs₁
    exact .pure hs₁
  · next hempty =>
    rw [if_neg hempty] at hs₁
    exact ensures_clause (.order r.number keys) hs₁ hkeys.1 rfl rfl (List.forall_mem_nil _) hs₁.bag

theorem ensures_limit (hs : s.Stands ss (s.limitSteps ++ rest) r) :
    Ensures N ss (Stage.lowerLimit r s.limit) fun ss' r' => s.Stands ss' rest r' := by
  unfold Stage.limitSteps at hs
  cases hl : s.limit with
  | none =>
    rw [hl] at hs
    exact .pure hs
  | some count =>
    rw [hl] at hs
    exact ensures_clause (.limit r.number count) hs .nil rfl rfl (List.forall_mem_nil _) hs.bag

end

/-- The clauses of a stage, over what its source leaves. -/
theorem ensures_clauses (hexprs : ∀ x ∈ s.exprs, x.Lowers N) (hN : ∀ name ∈ Column.names s.columns, N name)
    (hsource : Ensures N ss s.source.lower fun ss' r => s.Stands ss' s.steps r) :
    Ensures N ss s.lower fun ss' r => s.Stands ss' [] r := by
  rw [Stage.lower_eq]
  have hfilter : ∀ x ∈ s.filter, x.Lowers N := fun x hx =>
    hexprs x (Stage.mem_exprs.mpr (.inr (.inl hx)))
  have hcolumns : ∀ c ∈ s.columns, c.expr.Lowers N := fun c hc =>
    hexprs c.expr (Stage.mem_exprs.mpr (.inr (.inr (.inl (List.mem_map_of_mem hc)))))
  have hgrouping : ∀ x ∈ Grouping.exprs s.grouping, x.Lowers N := fun x hx =>
    hexprs x (Stage.mem_exprs.mpr (.inr (.inr (.inr (.inl hx)))))
  have horder : ∀ o ∈ s.orderBy, o.expr.Lowers N := fun o ho =>
    hexprs o.expr (Stage.mem_exprs.mpr (.inr (.inr (.inr (.inr (List.mem_map_of_mem ho))))))
  refine hsource.bind fun ss₁ r₁ _ h₁ => ?_
  refine (ensures_filter hfilter h₁).bind fun ss₂ r₂ _ h₂ => ?_
  refine (ensures_columns hcolumns hN h₂).bind fun ss₃ r₃ _ h₃ => ?_
  refine (ensures_grouping hgrouping h₃).bind fun ss₄ r₄ _ h₄ => ?_
  refine (ensures_order horder h₄).bind fun ss₅ r₅ _ h₅ => ?_
  rw [← List.append_nil s.limitSteps] at h₅
  exact ensures_limit h₅

mutual

theorem ensures_stage : ∀ (s : Stage), (∀ x ∈ s.exprs, x.Lowers N) →
    (∀ t : Stage, t.Within s → ∀ name ∈ Column.names t.columns, N name) →
    ∀ ss, Ensures N ss s.lower fun ss' r => s.Stands ss' [] r
  | ⟨source, filter, columns, projected, grouping, orderBy, limit, element, projector⟩, hexprs, hN, ss => by
    refine ensures_clauses hexprs (hN _ .self) (ensures_source source (fun x hx => hexprs x ?_) ?_ _ rfl ss)
    · exact Stage.mem_exprs.mpr (.inl hx)
    · rintro inner rfl t ht
      exact hN t (.inner rfl ht)

theorem ensures_source : ∀ (source : Source), (∀ x ∈ source.exprs, x.Lowers N) →
    (∀ inner, source = .stage inner → ∀ t : Stage, t.Within inner → ∀ name ∈ Column.names t.columns, N name) →
    ∀ s : Stage, s.source = source → ∀ ss, Ensures N ss source.lower fun ss' r => s.Stands ss' s.steps r
  | .base name, _, _, s, hs, ss => by
    rw [Source.lower]
    have hload : Ensures N ss (Lower.emit (.load name)) fun ss' n => s.Stands ss' s.steps ⟨n, none⟩ := by
      refine .emit ⟨List.forall_mem_nil _, List.forall_mem_nil _, List.forall_mem_nil _⟩ ⟨by simp, ?_, ?_⟩
      · intro b hb
        cases hb
      · exact .load hs (by simp)
    exact hload.bind fun ss' n _ hn => .pure hn
  | .stage inner, hexprs, hN, s, hs, ss => by
    rw [Source.lower]
    rw [Source.exprs] at hexprs
    exact (ensures_stage inner hexprs (hN inner rfl) ss).imp fun ss' r hr => ⟨hr.number, hr.bag, .inner hs hr.laidOut⟩

end

theorem lowers_of_namesIn (hvalue : N "value") (hN : e.NamesIn N) : e.Lowers N := by
  induction e using Expr.childInduction with
  | h e ih =>
    have hchildren : ∀ c ∈ e.children, c.Lowers N := fun c hc => ih c hc (Expr.Throughout.child hN hc)
    refine lowers_of_children hN hvalue hchildren ?_
    rintro s type rfl ss
    have hstage := ensures_stage s hchildren ((hN _ .self).2 s rfl) ss
    exact hstage.imp fun ss' r hr => ⟨hr.number, hr.laidOut⟩

/-- The statements of a script fit where they stand, and the stage is laid out among them. -/
theorem script_fits {script : Script} (hvalue : N "value") (hexprs : ∀ x ∈ s.exprs, x.NamesIn N)
    (hN : ∀ t : Stage, t.Within s → ∀ name ∈ Column.names t.columns, N name) (h : s.script = .ok script) :
    Statement.AllFit N script.statements ∧ s.LaidOut script.statements [] script.result := by
  unfold Stage.script at h
  cases hrun : s.lower.run [] with
  | error err =>
    rw [hrun] at h
    cases h
  | ok a =>
    obtain ⟨r, statements⟩ := a
    rw [hrun] at h
    cases h
    have hlowers : ∀ x ∈ s.exprs, x.Lowers N := fun x hx => lowers_of_namesIn hvalue (hexprs x hx)
    obtain ⟨-, hfit, hstands⟩ := ensures_stage s hlowers hN [] r statements hrun
    exact ⟨hfit fun n st hn => by simp at hn, hstands.laidOut⟩

/-- The statements of a script fit where they stand, and they take the stage from its source to its result. -/
theorem script_laid_out {script : Script} (hvalue : N "value") (hexprs : ∀ x ∈ s.exprs, x.NamesIn N)
    (hN : ∀ t : Stage, t.Within s → ∀ name ∈ Column.names t.columns, N name) (h : s.script = .ok script) :
    Statement.AllFit N script.statements ∧ s.Leaves script.statements script.result := by
  obtain ⟨hfit, hlaid⟩ := script_fits hvalue hexprs hN h
  exact ⟨hfit, hlaid.reaches⟩

/-! ### Scalars in a script -/

/-- The scalar of the stage `t` stands in a clause of a stage, of a stage that it reads, or of the stage of a scalar that
does. The columns of a stage that is not projected are no clause. -/
inductive Stage.WrittenIn (t : Stage) : Stage → Prop where
  | clause {s : Stage} {c : Step} {x : Expr} {type : DataType} (hc : c ∈ s.steps) (hx : x ∈ c.exprs)
    (h : Expr.Has (.scalar t type) x) : Stage.WrittenIn t s
  | inner {s inner : Stage} (hs : s.source = .stage inner) (h : Stage.WrittenIn t inner) : Stage.WrittenIn t s
  | held {s u : Stage} {c : Step} {x : Expr} {type : DataType} (hc : c ∈ s.steps) (hx : x ∈ c.exprs)
    (hu : Expr.Has (.scalar u type) x) (h : Stage.WrittenIn t u) : Stage.WrittenIn t s

namespace Stage.LaidOut

variable {rest : List Step} {r : Nat}

/-- A clause that is not left to run has its statement, which reads the scalars of the clause. -/
theorem ran (h : s.LaidOut ss rest r) {c : Step} (hc : c ∈ s.steps) :
    c ∈ rest ∨ ∃ st ∈ ss, ∀ x ∈ c.exprs, ∀ u type, Expr.Has (.scalar u type) x →
      ∃ m, u.LaidOut ss [] m ∧ (⟨some m, u.scalarColumn⟩ : Reference) ∈ st.references := by
  induction h with
  | load => exact .inl hc
  | inner => exact .inl hc
  | @step s d rest r n st number _ hn _ _ hscalars hreads ih =>
    rcases ih hc with hmem | hran
    · rcases List.mem_cons.mp hmem with rfl | hmem
      · refine .inr ⟨st, List.mem_of_getElem? hn, fun x hx u type hhas => ?_⟩
        exact ⟨number u, hscalars x hx u type hhas, hreads x hx u type hhas⟩
      · exact .inl hmem
    · exact .inr hran

theorem source (h : s.LaidOut ss rest r) {inner : Stage} (hs : s.source = .stage inner) :
    ∃ m, inner.LaidOut ss [] m := by
  induction h with
  | load hbase => rw [hbase] at hs; cases hs
  | inner hinner h =>
    rw [hinner] at hs
    cases hs
    exact ⟨_, h⟩
  | step _ _ _ _ _ _ _ ih => exact ih hs

/-- Every scalar that is written is read, by its column, from the relation that its stage leaves. -/
theorem reads (h : s.LaidOut ss [] r) (ht : t.WrittenIn s) :
    ∃ m, t.Leaves ss m ∧ ∃ st ∈ ss, (⟨some m, t.scalarColumn⟩ : Reference) ∈ st.references := by
  induction ht generalizing r with
  | clause hc hx hhas =>
    obtain ⟨st, hst, hread⟩ := (h.ran hc).resolve_left List.not_mem_nil
    obtain ⟨m, hlaid, href⟩ := hread _ hx t _ hhas
    exact ⟨m, hlaid.reaches, st, hst, href⟩
  | inner hs _ ih =>
    obtain ⟨m, hm⟩ := h.source hs
    exact ih hm
  | held hc hx hu _ ih =>
    obtain ⟨st, -, hread⟩ := (h.ran hc).resolve_left List.not_mem_nil
    obtain ⟨m, hlaid, -⟩ := hread _ hx _ _ hu
    exact ih hlaid

end Stage.LaidOut

end PigChain
