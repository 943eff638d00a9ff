import PigChain.Expr.Basic
import Mathlib.Data.List.Sort

/-!
# The rows of a stage

A stage stands for a list of rows: the rows of its source, those kept by its filter, mapped through its columns
if it is projected, grouped, sorted by its orderings with ties left in place, and cut to its limit. Logic, null
tests and choices are three-valued and fixed here. Arithmetic, comparisons, conversions and the functions of texts
and bags are those of an engine, and so is the order of data; nothing is asked of an engine but that its order
is total and transitive. A scalar is the first field of the first row of its stage.
-/

namespace PigChain

/-! ### Data -/

/-- What a field of a row holds. -/
inductive Datum where
  | null
  | bool (value : Bool)
  | int (value : Int)
  | float (value : Double)
  | text (value : String)
  | date (value : DateTime)
  /-- The first part of a tuple and the others. -/
  | pair (first rest : Datum)
  deriving DecidableEq

namespace Datum

def tuple (parts : List Datum) : Datum := parts.foldr .pair .null

def isTrue (d : Datum) : Bool := d = .bool true

def not : Datum → Datum
  | .bool b => .bool !b
  | _ => .null

/-- Conjunction: false if one side is, null if a side is missing otherwise. -/
def and : Datum → Datum → Datum
  | .bool true, .bool true => .bool true
  | .bool false, _ => .bool false
  | _, .bool false => .bool false
  | _, _ => .null

def or (x y : Datum) : Datum := (x.not.and y.not).not

/-- The second datum if the first is missing. -/
def orElse (x y : Datum) : Datum := if x = .null then y else x

/-- A choice whose test is missing is missing itself. -/
def choose : Datum → Datum → Datum → Datum
  | .bool true, x, _ => x
  | .bool false, _, y => y
  | _, _, _ => .null

@[simp] theorem isTrue_and (x y : Datum) : (x.and y).isTrue = (x.isTrue && y.isTrue) := by
  unfold Datum.and
  split <;> simp_all [isTrue]

end Datum

/-- A row: its fields in order, and the rows of its bag if it is a group. -/
structure Row where
  fields : List (String × Datum)
  bag : List Row := []

namespace Row

/-- The first field of a name. -/
def get (r : Row) (name : String) : Datum := (r.fields.lookup name).getD .null

/-- The data of a column of the bag; the empty name stands for whole rows. -/
def bagColumn (r : Row) (name : String) : List Datum :=
  r.bag.map fun x => if name = "" then .tuple (x.fields.map Prod.snd) else x.get name

end Row

def Value.datum : Value → Datum
  | .null => .null
  | .bool b => .bool b
  | .int n => .int n.toInt
  | .float x => .float x
  | .string s => .text s
  | .dateTime t => .date t
  | .source _ => .null

/-- The rows of every named source. -/
abbrev Content := String → List Row

/-- What is computed outside this library. -/
structure Engine where
  negate : Datum → Datum
  convert : DataType → Datum → Datum
  /-- Arithmetic and comparisons; the type tells the sum of numbers from that of texts. -/
  operate : BinaryOp → DataType → Datum → Datum → Datum
  method : String → Datum → List Datum → Datum
  aggregate : String → List Datum → Datum
  /-- The order in which rows are sorted. -/
  le : Datum → Datum → Bool
  le_total : ∀ x y, (le x y || le y x) = true
  le_trans : ∀ x y z, le x y = true → le y z = true → le x z = true

namespace Engine

def unary (E : Engine) (op : UnaryOp) (t : DataType) (x : Datum) : Datum :=
  match op with
  | .not => x.not
  | .negate => E.negate x
  | .convert => E.convert t x

def binary (E : Engine) (op : BinaryOp) (t : DataType) (x y : Datum) : Datum :=
  match op with
  | .and => x.and y
  | .or => x.or y
  | .coalesce => x.orElse y
  | op => E.operate op t x y

/-- The order of data in a direction. -/
def directed (E : Engine) : Direction → Datum → Datum → Bool
  | .ascending, x, y => E.le x y
  | .descending, x, y => E.le y x

end Engine

/-! ### Groups -/

/-- The key of a group: the only key by itself, several as a tuple. -/
def keyDatum : List Datum → Datum
  | [d] => d
  | ds => .tuple ds

/-- One row for each key, in the order of its first row. -/
def groupBy (key : Row → Datum) (rows : List Row) : List Row :=
  (rows.map key).eraseDups.map fun k => ⟨[("group", k)], rows.filter fun r => key r = k⟩

/-- All rows in one group; no rows make no group. -/
def groupAll (rows : List Row) : List Row :=
  if rows.isEmpty then [] else [⟨[("group", .text "all")], rows⟩]

/-! ### Expressions and stages -/

mutual

/-- The datum of an expression over a row. -/
def Expr.eval (E : Engine) (db : Content) : Expr → Row → Datum
  | .constant v _, _ => v.datum
  | .column name .row _, r => r.get name
  | .unary op x t, r => E.unary op t (x.eval E db r)
  | .binary op x y t, r => E.binary op t (x.eval E db r) (y.eval E db r)
  | .conditional c x y _, r => (c.eval E db r).choose (x.eval E db r) (y.eval E db r)
  | .isNull x, r => .bool (x.eval E db r = .null)
  | .call none function [.column name .group _] _, r => E.aggregate function (r.bagColumn name)
  | .call (some x) method args _, r => E.method method (x.eval E db r) (Expr.evalList E db args r)
  | .scalar s _, _ => ((s.rows E db).head?.bind fun r => r.fields.head?.map Prod.snd).getD .null
  | _, _ => .null

def Expr.evalList (E : Engine) (db : Content) : List Expr → Row → List Datum
  | [], _ => []
  | x :: xs, r => x.eval E db r :: Expr.evalList E db xs r

/-- The fields that columns make of a row. -/
def Column.evalList (E : Engine) (db : Content) : List Column → Row → List (String × Datum)
  | [], _ => []
  | ⟨name, x⟩ :: cs, r => (name, x.eval E db r) :: Column.evalList E db cs r

/-- Whether a row may stand before another: by the first key, and by the others where it ties. -/
def Ordering.precedes (E : Engine) (db : Content) : List Ordering → Row → Row → Bool
  | [], _, _ => true
  | ⟨x, d⟩ :: os, r, r' =>
    E.directed d (x.eval E db r) (x.eval E db r') &&
      (!E.directed d (x.eval E db r') (x.eval E db r) || Ordering.precedes E db os r r')

/-- The rows that a stage outputs. -/
def Stage.rows (E : Engine) (db : Content) : Stage → List Row
  | ⟨source, filter, columns, projected, grouping, orderBy, limit, _, _⟩ =>
    let rows := source.rows E db
    let rows := Stage.filterRows E db filter rows
    let rows := if projected then rows.map fun r => ⟨Column.evalList E db columns r, []⟩ else rows
    let rows := Stage.groupRows E db grouping rows
    let rows := rows.insertionSort fun r r' => Ordering.precedes E db orderBy r r' = true
    match limit with
    | none => rows
    | some count => rows.take count.toNat

def Source.rows (E : Engine) (db : Content) : Source → List Row
  | .base name => db name
  | .stage inner => inner.rows E db

def Stage.filterRows (E : Engine) (db : Content) : Option Expr → List Row → List Row
  | none, rows => rows
  | some p, rows => rows.filter fun r => (p.eval E db r).isTrue

def Stage.groupRows (E : Engine) (db : Content) : Option Grouping → List Row → List Row
  | none, rows => rows
  | some .all, rows => groupAll rows
  | some (.keys keys), rows => groupBy (fun r => keyDatum (Expr.evalList E db keys r)) rows

end

/-! ### Clauses one by one -/

section

variable (E : Engine) (db : Content)

/-- The row that columns make of a row. It has no bag. -/
def Column.image (columns : List Column) (r : Row) : Row := ⟨Column.evalList E db columns r, []⟩

/-- Rows sorted by keys; rows that tie keep their places. -/
def sortRows (orderBy : List Ordering) (rows : List Row) : List Row :=
  rows.insertionSort fun r r' => Ordering.precedes E db orderBy r r' = true

/-- At most as many rows as a limit allows. -/
def limitRows (limit : Option UInt64) (rows : List Row) : List Row :=
  match limit with
  | none => rows
  | some count => rows.take count.toNat

namespace Stage

/-- The rows that the filter of a stage lets through. -/
def kept (s : Stage) : List Row := filterRows E db s.filter (s.source.rows E db)

/-- What a stage makes of an input row before rows are grouped. -/
def image (s : Stage) (r : Row) : Row := if s.projected then Column.image E db s.columns r else r

theorem rows_eq (s : Stage) :
    s.rows E db = limitRows s.limit
      (sortRows E db s.orderBy (groupRows E db s.grouping ((s.kept E db).map (s.image E db)))) := by
  obtain ⟨source, filter, columns, projected, grouping, orderBy, limit, element, projector⟩ := s
  cases projected with
  | true => rfl
  | false =>
    have himage : (image E db ⟨source, filter, columns, false, grouping, orderBy, limit, element, projector⟩)
        = id := rfl
    rw [himage, List.map_id]
    rfl

/-- The rows of a stage without grouping and limit. -/
theorem rows_eq_sort {s : Stage} (hg : s.grouping = none) (hl : s.limit = none) :
    s.rows E db = sortRows E db s.orderBy ((s.kept E db).map (s.image E db)) := by
  rw [rows_eq, hg, hl]
  rfl

end Stage

@[simp] theorem sortRows_nil (rows : List Row) : sortRows E db [] rows = rows := by
  unfold sortRows
  induction rows with
  | nil => rfl
  | cons r rows ih =>
    rw [List.insertionSort_cons, ih]
    cases rows <;> simp [List.orderedInsert, Ordering.precedes]

end

end PigChain
