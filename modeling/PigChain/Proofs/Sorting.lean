import PigChain.Proofs.Meaning

/-!
# Sorting rows

The order given by a list of keys is total and transitive, so sorting with ties left in place is a function of
the keys alone. It commutes with dropping rows, and with mapping rows if the keys of the image are the keys
of the row.
-/

namespace PigChain

/-! ### The order of rows -/

namespace Engine

variable (E : Engine)

theorem directed_total (d : Direction) (x y : Datum) : E.directed d x y = true ∨ E.directed d y x = true := by
  have htotal := E.le_total x y
  rw [Bool.or_eq_true] at htotal
  cases d with
  | ascending => exact htotal
  | descending => exact htotal.symm

theorem directed_trans {d : Direction} {x y z : Datum} (hxy : E.directed d x y = true)
    (hyz : E.directed d y z = true) : E.directed d x z = true := by
  cases d with
  | ascending => exact E.le_trans x y z hxy hyz
  | descending => exact E.le_trans z y x hyz hxy

end Engine

namespace Ordering

variable {E : Engine} {db : Content}

theorem precedes_cons {x : Expr} {d : Direction} {os : List Ordering} {r r' : Row} :
    precedes E db (⟨x, d⟩ :: os) r r' = true ↔
      E.directed d (x.eval E db r) (x.eval E db r') = true ∧
        (E.directed d (x.eval E db r') (x.eval E db r) = true → precedes E db os r r' = true) := by
  rw [precedes, Bool.and_eq_true, Bool.or_eq_true, Bool.not_eq_true']
  cases E.directed d (x.eval E db r') (x.eval E db r) <;> simp

theorem precedes_total (os : List Ordering) (r r' : Row) :
    precedes E db os r r' = true ∨ precedes E db os r' r = true := by
  induction os with
  | nil => exact .inl rfl
  | cons o os ih =>
    obtain ⟨x, d⟩ := o
    rw [precedes_cons, precedes_cons]
    rcases E.directed_total d (x.eval E db r) (x.eval E db r') with h | h
    · by_cases h' : E.directed d (x.eval E db r') (x.eval E db r) = true
      · rcases ih with hos | hos
        · exact .inl ⟨h, fun _ => hos⟩
        · exact .inr ⟨h', fun _ => hos⟩
      · exact .inl ⟨h, fun h'' => absurd h'' h'⟩
    · by_cases h' : E.directed d (x.eval E db r) (x.eval E db r') = true
      · rcases ih with hos | hos
        · exact .inl ⟨h', fun _ => hos⟩
        · exact .inr ⟨h, fun _ => hos⟩
      · exact .inr ⟨h, fun h'' => absurd h'' h'⟩

theorem precedes_trans {os : List Ordering} {a b c : Row} (hab : precedes E db os a b = true)
    (hbc : precedes E db os b c = true) : precedes E db os a c = true := by
  induction os with
  | nil => rfl
  | cons o os ih =>
    obtain ⟨x, d⟩ := o
    rw [precedes_cons] at hab hbc ⊢
    refine ⟨E.directed_trans hab.1 hbc.1, fun hca => ?_⟩
    -- The rows tie on the first key, so each pair of them does.
    have hba : E.directed d (x.eval E db b) (x.eval E db a) = true := E.directed_trans hbc.1 hca
    have hcb : E.directed d (x.eval E db c) (x.eval E db b) = true := E.directed_trans hca hab.1
    exact ih (hab.2 hba) (hbc.2 hcb)

end Ordering

/-! ### Sorting against the other clauses -/

section

variable {α : Type} {le : α → α → Prop} [DecidableRel le]

/-- Dropping members before or after one is put in its place. -/
theorem filter_orderedInsert_of_sorted (htrans : ∀ a b c, le a b → le b c → le a c) (p : α → Bool) (a : α)
    {l : List α} (hl : l.Pairwise le) :
    (l.orderedInsert le a).filter p =
      if p a then (l.filter p).orderedInsert le a else l.filter p := by
  induction l with
  | nil => cases hp : p a <;> simp [hp]
  | cons b l ih =>
    obtain ⟨hb, hl⟩ := List.pairwise_cons.mp hl
    by_cases hab : le a b
    · rw [List.orderedInsert_cons_of_le le l hab, List.filter_cons]
      -- `a` stands before `b` and so before all that are left of the sorted list.
      have hfront : ∀ c ∈ (b :: l).filter p, le a c := by
        intro c hc
        rcases List.mem_cons.mp (List.mem_of_mem_filter hc) with rfl | hc
        · exact hab
        · exact htrans a b c hab (hb c hc)
      cases hp : p a with
      | false => rfl
      | true =>
        simp only [if_true]
        cases hf : (b :: l).filter p with
        | nil => rfl
        | cons c cs =>
          rw [hf] at hfront
          rw [List.orderedInsert_cons_of_le le cs (hfront c List.mem_cons_self)]
    · rw [List.orderedInsert_of_not_le le l hab, List.filter_cons, ih hl]
      cases hp : p a <;> cases hq : p b <;> simp [hq, hab]

theorem filter_insertionSort_comm (htotal : ∀ a b, le a b ∨ le b a)
    (htrans : ∀ a b c, le a b → le b c → le a c) (p : α → Bool) (l : List α) :
    (l.insertionSort le).filter p = (l.filter p).insertionSort le := by
  have : Std.Total le := ⟨htotal⟩
  have : IsTrans α le := ⟨htrans⟩
  induction l with
  | nil => rfl
  | cons a l ih =>
    rw [List.insertionSort_cons,
      filter_orderedInsert_of_sorted htrans p a (List.pairwise_insertionSort le l), ih]
    cases hp : p a <;> simp [hp]

end

section

variable {E : Engine} {db : Content}

/-- The rows that are kept have the same order whether they are chosen before or after sorting. -/
theorem sortRows_filter (os : List Ordering) (p : Row → Bool) (rows : List Row) :
    sortRows E db os (rows.filter p) = (sortRows E db os rows).filter p :=
  (filter_insertionSort_comm (Ordering.precedes_total os)
    (fun _ _ _ => Ordering.precedes_trans) p rows).symm

/-- Rows may be mapped before they are sorted if their images have the same keys. -/
theorem sortRows_map {os os' : List Ordering} {f : Row → Row} {rows : List Row}
    (h : ∀ r ∈ rows, ∀ r' ∈ rows,
      Ordering.precedes E db os' (f r) (f r') = Ordering.precedes E db os r r') :
    sortRows E db os' (rows.map f) = (sortRows E db os rows).map f := by
  unfold sortRows
  refine (List.map_insertionSort _ _ f rows ?_).symm
  intro a ha b hb
  rw [h a ha b hb]

end

end PigChain
