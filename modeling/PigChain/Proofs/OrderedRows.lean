import PigChain.Proofs.FilterRows
import PigChain.Proofs.Scoping

/-!
# Ordering the rows of a stage

A key is sorted by after the columns and the grouping of a stage and before its limit. A stage without a limit takes a
new key beside the ones it has, or in their place. A limited stage is wrapped, so that the limit chooses among the rows in
their old order, and the keys that are kept read the same fields of the rows of the new stage. In both cases the rows
stay the same rows, and rows that tie by the kept keys are told apart by the new one.
-/

namespace PigChain

variable {L : Value → Prop} {base : List String} {nested : Expr → BindM Stage} {s s' : Stage} {E : Engine}
  {db : Content}

/-! ### Sorted rows -/

/-- The last key decides between rows that tie by all others. -/
theorem precedes_append_singleton {os : List Ordering} {x : Expr} {d : Direction} {r r' : Row} :
    Ordering.precedes E db (os ++ [⟨x, d⟩]) r r' = true ↔
      Ordering.precedes E db os r r' = true ∧
        (Ordering.precedes E db os r' r = true → E.directed d (x.eval E db r) (x.eval E db r') = true) := by
  induction os with
  | nil =>
    have hnil : ∀ a b, Ordering.precedes E db [] a b = true := fun a b => by rw [Ordering.precedes]
    rw [List.nil_append, Ordering.precedes_cons]
    simp [hnil]
  | cons o os ih =>
    obtain ⟨y, dy⟩ := o
    rw [List.cons_append, Ordering.precedes_cons, Ordering.precedes_cons, Ordering.precedes_cons, ih]
    constructor
    · rintro ⟨hfirst, hrest⟩
      exact ⟨⟨hfirst, fun htie => (hrest htie).1⟩, fun hback => (hrest hback.1).2 (hback.2 hfirst)⟩
    · rintro ⟨⟨hfirst, hrest⟩, hlast⟩
      exact ⟨hfirst, fun htie => ⟨hrest htie, fun hback => hlast ⟨htie, fun _ => hback⟩⟩⟩

theorem sortRows_perm (os : List Ordering) (rows : List Row) : (sortRows E db os rows).Perm rows :=
  List.perm_insertionSort _ rows

theorem sortRows_pairwise (os : List Ordering) (rows : List Row) :
    (sortRows E db os rows).Pairwise fun r r' => Ordering.precedes E db os r r' = true := by
  have : Std.Total fun r r' => Ordering.precedes E db os r r' = true := ⟨Ordering.precedes_total os⟩
  have : IsTrans Row fun r r' => Ordering.precedes E db os r r' = true :=
    ⟨fun _ _ _ hab hbc => Ordering.precedes_trans hab hbc⟩
  exact List.pairwise_insertionSort _ rows

theorem Stage.toOrder_limit (s : Stage) : s.toOrder.limit = none := by
  unfold Stage.toOrder Stage.openIf
  split
  · exact s.wrapped_limit
  · next h => simpa using h

/-- Without a limit, other keys only move rows. -/
theorem rows_withOrderBy (E : Engine) (db : Content) (hl : s.limit = none) (os : List Ordering) :
    (({ s with orderBy := os } : Stage).rows E db).Perm (s.rows E db) ∧
      (({ s with orderBy := os } : Stage).rows E db).Pairwise fun r r' => Ordering.precedes E db os r r' = true := by
  let unsorted := Stage.groupRows E db s.grouping ((s.kept E db).map (s.image E db))
  have hold : s.rows E db = sortRows E db s.orderBy unsorted := by
    rw [Stage.rows_eq, hl]
    rfl
  have hnew : ({ s with orderBy := os } : Stage).rows E db = sortRows E db os unsorted := by
    rw [Stage.rows_eq]
    show limitRows s.limit (sortRows E db os unsorted) = sortRows E db os unsorted
    rw [hl]
    rfl
  rw [hold, hnew]
  exact ⟨(sortRows_perm os unsorted).trans (sortRows_perm s.orderBy unsorted).symm, sortRows_pairwise os unsorted⟩

/-! ### Keys -/

/-- The field of the rows of a stage that a key reads: a field by its name, the key of a group, or the only column of
rows that are bare values. -/
inductive Stage.KeyField (s : Stage) : Expr → String → Prop where
  | field {p : Parameter} {t type : DataType} {name : String} (h : s.element.isGrouping = false) :
    Stage.KeyField s (.lambda [p] (.member (some (.parameter p.name t)) name type)) name
  | key {p : Parameter} {t type : DataType} (h : s.element.isGrouping = true) :
    Stage.KeyField s (.lambda [p] (.member (some (.parameter p.name t)) "Key" type)) "group"
  | value {p : Parameter} {t : DataType} {c : Column} (h : s.isValue = true) (hc : s.columns = [c]) :
    Stage.KeyField s (.lambda [p] (.parameter p.name t)) c.name

theorem fieldColumn_name {name : String} {declared : DataType} {e : Expr} (hg : s.element.isGrouping = false)
    (h : fieldColumn s name declared = .ok e) : ∃ type, e = .field name type := by
  rcases fieldColumn_eq_ok h with ⟨key, element, he, -⟩ | ⟨-, c, -, rfl⟩ | ⟨-, fields, f, -, -, rfl⟩ | ⟨-, -, -, rfl⟩
  · rw [he] at hg
    cases hg
  · exact ⟨_, rfl⟩
  · exact ⟨_, rfl⟩
  · exact ⟨_, rfl⟩

theorem fieldColumn_key {declared : DataType} {e : Expr} (hg : s.element.isGrouping = true)
    (h : fieldColumn s "Key" declared = .ok e) : ∃ type, e = .field "group" type := by
  unfold fieldColumn at h
  cases he : s.element with
  | grouping key element =>
    rw [he] at h
    cases h
    exact ⟨key, rfl⟩
  | _ => rw [he] at hg; cases hg

/-- A field of the row is bound to its column, which the later passes leave as it is. -/
theorem readBody_field {row name : String} {t type : DataType} {e : Expr}
    (h : readBody s row (.member (some (.parameter row t)) name type) = .ok e) : fieldColumn s name type = .ok e := by
  have hrun : (rowReader s row).run (.member (some (.parameter row t)) name type) = fieldColumn s name type :=
    Editor.run_of_replace _ (by intro w; simp only [rowReader, isRow_self, if_true])
  rw [readBody, hrun, except_do_eq_ok] at h
  obtain ⟨x, hx, h⟩ := h
  obtain ⟨n, t', rfl⟩ := fieldColumn_isColumn hx
  cases h
  exact hx

theorem readBody_row {row : String} {t : DataType} {e : Expr} (h : readBody s row (.parameter row t) = .ok e) :
    rowColumn s = .ok e := by
  have hrun : (rowReader s row).run (.parameter row t) = rowColumn s :=
    Editor.run_of_replace _ (by intro w; simp only [rowReader, if_true])
  rw [readBody, hrun, except_do_eq_ok] at h
  obtain ⟨x, hx, h⟩ := h
  obtain ⟨n, t', rfl⟩ := rowColumn_isColumn hx
  cases h
  exact hx

/-- A key is bound to the column of the field that it reads, which the rows of the stage have. -/
theorem Stage.KeyField.bound {key : Expr} {field : String} {p : Parameter} {body : Expr} {bound : BoundBody}
    (hs : s.Placed L base) (hkey : s.KeyField key field) (hlambda : key = .lambda [p] body)
    (h : (bindBody nested s p.name body).outcome = .ok bound) :
    (∃ type, bound.expr = .field field type) ∧ field ∈ s.fields base := by
  cases hkey with
  | field hg =>
    cases hlambda
    have hcolumn := readBody_field (bindBody_flat_eq_ok (L := L) hs.noted .field h).1
    obtain ⟨type, htype⟩ := fieldColumn_name hg hcolumn
    obtain ⟨n, t, hn, hmem⟩ := fieldColumn_field hs hcolumn
    rw [htype] at hn
    cases hn
    exact ⟨⟨type, htype⟩, hmem⟩
  | key hg =>
    cases hlambda
    have hcolumn := readBody_field (bindBody_flat_eq_ok (L := L) hs.noted .field h).1
    exact ⟨fieldColumn_key hg hcolumn, (hs.group hg).1⟩
  | @value q t c hv hc =>
    cases hlambda
    have hcolumn := readBody_row (bindBody_flat_eq_ok (L := L) hs.noted .row h).1
    obtain ⟨n, t', hn, hmem⟩ := rowColumn_field hs hcolumn
    rw [rowColumn, if_pos hv, hc] at hcolumn
    rw [← Except.ok.inj hcolumn] at hn ⊢
    cases hn
    exact ⟨⟨_, rfl⟩, hmem⟩

theorem Stage.KeyField.flat {key : Expr} {field : String} (h : s.KeyField key field) : FlatLambda L key := by
  intro p body hlambda
  cases h with
  | field => cases hlambda; exact .field
  | key => cases hlambda; exact .field
  | value => cases hlambda; exact .row

/-! ### The rows of an ordering -/

theorem rows_bindOrder {key : Expr} {direction : Direction} {after : Bool} {field : String} (hs : s.Placed L base)
    (hkey : s.KeyField key field) (h : (bindOrder nested s key direction after).outcome = .ok s') :
    field ∈ s.fields base ∧ ∀ E db, (s'.rows E db).Perm (s.rows E db) ∧
      (s'.rows E db).Pairwise fun r r' =>
        Ordering.precedes E db (if after then s.orderBy else []) r r' = true ∧
          (Ordering.precedes E db (if after then s.orderBy else []) r' r = true →
            E.directed direction (r.get field) (r'.get field) = true) := by
  obtain ⟨p, body, opened, hlambda, hopened, -, rfl⟩ := bindOrder_eq_ok h
  -- The key is bound against the new stage, if there is one, by the expression that it has over the old one.
  obtain ⟨bound, hbound, hexpr⟩ := exists_bound_of_map_eq
    (bindBody_openIf hs.toRegular (hkey.flat (L := L) p body hlambda)) hopened
  obtain ⟨⟨type, hcolumn⟩, hmem⟩ := hkey.bound hs hlambda hbound
  refine ⟨hmem, fun E db => ?_⟩
  have hopen : s.toOrder.rows E db = s.rows E db := rows_openIf hs.toRegular _
  let keyed : Stage := if s.toOrder.projected then s.toOrder else s.toOrder.noteColumns opened.noted
  have hkeyed : keyed.rows E db = s.rows E db ∧ keyed.limit = none := by
    cases hp : s.toOrder.projected with
    | true =>
      have hsame : keyed = s.toOrder := if_pos hp
      rw [hsame]
      exact ⟨hopen, s.toOrder_limit⟩
    | false =>
      have hnoted : keyed = s.toOrder.noteColumns opened.noted := if_neg (by rw [hp]; exact Bool.false_ne_true)
      obtain ⟨added, -, heq⟩ := s.toOrder.noteColumns_eq opened.noted
      refine ⟨by rw [hnoted, rows_noteColumns hp, hopen], ?_⟩
      rw [hnoted, heq]
      exact s.toOrder_limit
  obtain ⟨hperm, hsorted⟩ := rows_withOrderBy E db hkeyed.2
    ((if after then s.orderBy else []) ++ [⟨opened.expr, direction⟩])
  rw [hkeyed.1] at hperm
  refine ⟨hperm, hsorted.imp fun hprecedes => ?_⟩
  rw [precedes_append_singleton, ← hexpr, hcolumn, Expr.field, Expr.eval, Expr.eval] at hprecedes
  exact hprecedes

/-- An ordering of a stage of a flat chain by a field that its rows have leaves the same rows, so a limit that was set
before still chooses the same ones. They are sorted by the field, or, if the key comes after others, by the keys of the
stage and by the field where those tie. -/
theorem ordering_sorts_rows {chain key : Expr} {b : Bound} {direction : Direction} {after : Bool} {field : String}
    (hc : FlatChain anyValue chain) (hb : chain.bound.outcome = .ok b) (hkey : b.stage.KeyField key field)
    (h : (bindOrder nested b.stage key direction after).outcome = .ok s') :
    field ∈ b.stage.fields chain.sourceFields ∧ ∀ E db, (s'.rows E db).Perm (b.stage.rows E db) ∧
      (after = false → (s'.rows E db).Pairwise fun r r' =>
        E.directed direction (r.get field) (r'.get field) = true) ∧
      (after = true → (s'.rows E db).Pairwise fun r r' =>
        Ordering.precedes E db b.stage.orderBy r r' = true ∧
          (Ordering.precedes E db b.stage.orderBy r' r = true →
            E.directed direction (r.get field) (r'.get field) = true)) := by
  rw [bound_eq_bindWith] at hb
  obtain ⟨hmem, hrows⟩ := rows_bindOrder (placed_bindWith hc hb) hkey h
  refine ⟨hmem, fun E db => ?_⟩
  obtain ⟨hperm, hsorted⟩ := hrows E db
  refine ⟨hperm, fun hfirst => ?_, fun hafter => ?_⟩
  · subst hfirst
    exact hsorted.imp fun hprecedes => hprecedes.2 (by rw [if_neg Bool.false_ne_true, Ordering.precedes])
  · subst hafter
    exact hsorted

/-! ### A key after a limit -/

/-- The first three people by name. -/
def threePeople : Expr :=
  .call none "Take"
    [.call none "OrderBy" [.source "people" personType, .lambda [⟨"p", personType⟩] (person.get "Name")]
      (.query personType), .lit (.int 3)]
    (.query personType)

theorem flatChain_threePeople : FlatChain anyValue threePeople := by
  refine .step (.step (.source (by decide)) (.orderBy ?_)) ⟨?_, ?_, ?_, ?_, ?_⟩
  · rintro _ _ ⟨⟩
    exact .field
  · rintro - _ ⟨⟩ _ _ ⟨⟩
  · exact fun hm => absurd hm (by decide)
  · exact fun hm => absurd hm (by decide)
  · exact fun hm => absurd hm (by decide)
  · exact fun hm => absurd hm (by decide)

/-- The age of a person, as a key. -/
def ageKey : Expr := .lambda [⟨"p", personType⟩] (person.get "Age")

/-- The three people are the same; those of one name come out the oldest first. -/
theorem ordering_sorts_rows_threePeople :
    ∃ b s', FlatChain anyValue threePeople ∧ threePeople.bound.outcome = .ok b ∧ b.stage.limit = some 3 ∧
      b.stage.KeyField ageKey "Age" ∧ (bindOrder unnested b.stage ageKey .descending true).outcome = .ok s' ∧
      "Age" ∈ b.stage.fields threePeople.sourceFields ∧ ∀ E db, (s'.rows E db).Perm (b.stage.rows E db) ∧
        (s'.rows E db).Pairwise fun r r' =>
          Ordering.precedes E db b.stage.orderBy r r' = true ∧
            (Ordering.precedes E db b.stage.orderBy r' r = true →
              E.directed .descending (r.get "Age") (r'.get "Age") = true) := by
  have hok : (threePeople.bound.outcome.bind fun b =>
      if b.stage.limit = some 3 ∧ b.stage.element.isGrouping = false then
        (bindOrder unnested b.stage ageKey .descending true).outcome
      else .error .noColumn).isOk = true := by decide +kernel
  obtain ⟨s', hs'⟩ := except_isOk hok
  obtain ⟨b, hb, h⟩ := except_bind_eq_ok.mp hs'
  split at h
  · next hstage =>
    have hkey : b.stage.KeyField ageKey "Age" := .field hstage.2
    obtain ⟨hmem, hrows⟩ := ordering_sorts_rows flatChain_threePeople hb hkey h
    exact ⟨b, s', flatChain_threePeople, hb, hstage.1, hkey, h, hmem,
      fun E db => ⟨(hrows E db).1, (hrows E db).2.2 rfl⟩⟩
  · cases h

end PigChain
