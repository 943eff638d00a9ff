import PigChain.DataType
import PigChain.Expr.Kind

/-!
# Phrases of a script

How the tokens of an expression are grouped. From the loosest to the tightest the levels are: 0 the arguments of a call,
1 `OR`, 2 `AND`, 3 `NOT`, 4 comparisons and null tests, 5 sums, 6 products, 7 signs and casts, 8 primaries. Operators of
one level group to the left. The grammar is a relation between tokens and phrases; that no tokens have two readings is
shown by a parser that finds every reading.
-/

namespace PigChain

/-- An expression as it is read: literals, fields, operators and calls, without types. -/
inductive Phrase where
  | null
  | bool (b : Bool)
  | int (n : Int)
  | text (s : String)
  | field (name : String)
  | not (x : Phrase)
  | negate (x : Phrase)
  | cast (type : DataType) (x : Phrase)
  | isNull (x : Phrase)
  | operation (op : BinaryOp) (x y : Phrase)
  | choose (test ifTrue ifFalse : Phrase)
  | call (function : String) (args : Phrase)
  /-- Arguments before the last one, and the last one. -/
  | pair (x y : Phrase)

inductive Token where
  | name (word : String)
  | number (n : Nat)
  | text (s : String)
  | bool (b : Bool)
  | null
  | not
  | is
  | type (t : DataType)
  | operator (op : BinaryOp)
  | opening
  | closing
  | comma
  | question
  | colon
  deriving DecidableEq

/-- The level of an operator that stands between its operands. -/
def BinaryOp.level? : BinaryOp → Option Nat
  | .or => some 1
  | .and => some 2
  | .equal | .notEqual | .lessThan | .lessThanOrEqual | .greaterThan | .greaterThanOrEqual => some 4
  | .add | .subtract => some 5
  | .multiply | .divide | .modulo => some 6
  | .coalesce => none

namespace Token

/-- A token that is a phrase by itself. -/
def atom? : Token → Option Phrase
  | .null => some .null
  | .bool b => some (.bool b)
  | .number n => some (.int n)
  | .text s => some (.text s)
  | .name word => some (.field word)
  | _ => none

/-- A token between two phrases: its level and what it makes of them. -/
def joins? : Token → Option (Nat × (Phrase → Phrase → Phrase))
  | .comma => some (0, .pair)
  | .operator op => op.level?.map fun l => (l, .operation op)
  | _ => none

def isNumber : Token → Bool
  | .number _ => true
  | _ => false

/-- Whether a phrase that is read at a level may be over before this token. -/
def ends (l : Nat) : Token → Bool
  | .opening => false
  | .is => 4 < l
  | t => match t.joins? with
    | some j => j.1 < l
    | none => true

theorem joins?_level {t : Token} {j : Nat × (Phrase → Phrase → Phrase)} (h : t.joins? = some j) :
    j.1 ≤ 6 ∧ j.1 ≠ 3 := by
  cases t with
  | comma => cases h; simp
  | operator op => cases op <;> cases h <;> simp
  | _ => cases h

theorem ends_of_joins? {t : Token} {j : Nat × (Phrase → Phrase → Phrase)} {l : Nat} (h : t.joins? = some j) :
    t.ends l = decide (j.1 < l) := by
  cases t with
  | comma => cases h; rfl
  | operator op => simp only [ends, h]
  | _ => cases h

theorem ends_mono {t : Token} {k l : Nat} (h : t.ends k = true) (hkl : k ≤ l) : t.ends l = true := by
  cases hj : t.joins? with
  | some j =>
    rw [ends_of_joins? hj, decide_eq_true_eq] at h ⊢
    omega
  | none =>
    cases t with
    | opening => cases h
    | is =>
      simp only [ends, decide_eq_true_eq] at h ⊢
      omega
    | _ => simp only [ends, hj]

end Token

/-! ### The grammar -/

/-- Tokens that are read at a level as a phrase. -/
inductive Parses : Nat → List Token → Phrase → Prop where
  | atom {t : Token} {x : Phrase} (h : t.atom? = some x) : Parses 8 [t] x
  | group {ts : List Token} {x : Phrase} (hx : Parses 1 ts x) : Parses 8 (.opening :: ts ++ [.closing]) x
  | choose {ts us vs : List Token} {x y z : Phrase} (hx : Parses 1 ts x) (hy : Parses 1 us y) (hz : Parses 1 vs z) :
    Parses 8 (.opening :: ts ++ .question :: us ++ .colon :: vs ++ [.closing]) (.choose x y z)
  | call {function : String} {ts : List Token} {x : Phrase} (hx : Parses 0 ts x) :
    Parses 8 (.name function :: .opening :: ts ++ [.closing]) (.call function x)
  /-- A sign before a number belongs to it. -/
  | negative (n : Nat) : Parses 7 [.operator .subtract, .number n] (.int (-n))
  | negate {ts : List Token} {x : Phrase} (hx : Parses 7 ts x) (hts : ∀ t ∈ ts.head?, t.isNumber = false) :
    Parses 7 (.operator .subtract :: ts) (.negate x)
  | cast {type : DataType} {ts : List Token} {x : Phrase} (hx : Parses 7 ts x) :
    Parses 7 (.opening :: .type type :: .closing :: ts) (.cast type x)
  | isNull {ts : List Token} {x : Phrase} (hx : Parses 4 ts x) : Parses 4 (ts ++ [.is, .null]) (.isNull x)
  | isNotNull {ts : List Token} {x : Phrase} (hx : Parses 4 ts x) :
    Parses 4 (ts ++ [.is, .not, .null]) (.not (.isNull x))
  | not {ts : List Token} {x : Phrase} (hx : Parses 3 ts x) : Parses 3 (.not :: ts) (.not x)
  | join {t : Token} {j : Nat × (Phrase → Phrase → Phrase)} {ts us : List Token} {x y : Phrase}
    (ht : t.joins? = some j) (hx : Parses j.1 ts x) (hy : Parses (j.1 + 1) us y) : Parses j.1 (ts ++ t :: us) (j.2 x y)
  | loosen {l : Nat} {ts : List Token} {x : Phrase} (hx : Parses (l + 1) ts x) : Parses l ts x

variable {k l : Nat} {ts rest : List Token} {x y : Phrase}

theorem Parses.mono (h : Parses l ts x) (hkl : k ≤ l) : Parses k ts x := by
  induction l with
  | zero =>
    rw [Nat.le_zero.mp hkl]
    exact h
  | succ l ih =>
    rcases Nat.lt_or_ge l k with hlt | hge
    · rw [Nat.le_antisymm hkl hlt]
      exact h
    · exact ih h.loosen hge

/-! ### Finding a reading -/

/-- A phrase and the tokens after it, up to and without the token that must come next. -/
def Phrase.upTo (t : Token) (r : Option (Phrase × List Token)) : Option (Phrase × List Token) :=
  r.bind fun r =>
    match r.2 with
    | u :: ts => if u = t then some (r.1, ts) else none
    | [] => none

/-- The test that follows `IS`. -/
def Phrase.nullTest (x : Phrase) : List Token → Option (Phrase × List Token)
  | .null :: ts => some (.isNull x, ts)
  | .not :: .null :: ts => some (.not (.isNull x), ts)
  | _ => none

/-- A phrase with fewer than `n` tokens after it. -/
def Phrase.within (n : Nat) (r : Option (Phrase × List Token)) :
    Option { r : Phrase × List Token // r.2.length < n } :=
  r.bind fun r => if h : r.2.length < n then some ⟨r, h⟩ else none

mutual

/-- Reads a phrase of a level as far as it goes. -/
def Phrase.parse (l : Nat) (ts : List Token) : Option (Phrase × List Token) := do
  let r ← Phrase.within ts.length (Phrase.parseFirst ts)
  Phrase.parseRest l r.1.1 r.1.2
termination_by (ts.length, 1)
decreasing_by
  · exact .right _ (by decide)
  · exact .left _ _ r.2

/-- Reads what comes before the first operator that stands between phrases. -/
def Phrase.parseFirst (ts : List Token) : Option (Phrase × List Token) :=
  match ts with
  | .not :: ts => do
    let r ← Phrase.parse 3 ts
    some (.not r.1, r.2)
  | .operator .subtract :: .number n :: ts => some (.int (-n), ts)
  | .operator .subtract :: ts => do
    let r ← Phrase.parse 7 ts
    some (.negate r.1, r.2)
  | .opening :: .type t :: .closing :: ts => do
    let r ← Phrase.parse 7 ts
    some (.cast t r.1, r.2)
  | .opening :: ts => do
    let r ← Phrase.within (ts.length + 1) (Phrase.parse 1 ts)
    Phrase.parseGroup r.1.1 r.1.2
  | .name function :: .opening :: ts => do
    let r ← Phrase.upTo .closing (Phrase.parse 0 ts)
    some (.call function r.1, r.2)
  | t :: ts => t.atom?.map fun x => (x, ts)
  | [] => none
termination_by (ts.length, 0)
decreasing_by
  · exact .left _ _ (by simp)
  · exact .left _ _ (by simp)
  · exact .left _ _ (by simp only [List.length_cons]; omega)
  · exact .left _ _ (by simp)
  · exact .left _ _ r.2
  · exact .left _ _ (by simp only [List.length_cons]; omega)

/-- Reads the rest of a group after its first phrase. -/
def Phrase.parseGroup (x : Phrase) (ts : List Token) : Option (Phrase × List Token) :=
  match ts with
  | .question :: ts => do
    let y ← Phrase.within (ts.length + 1) (Phrase.upTo .colon (Phrase.parse 1 ts))
    let z ← Phrase.upTo .closing (Phrase.parse 1 y.1.2)
    some (.choose x y.1.1 z.1, z.2)
  | ts => Phrase.upTo .closing (some (x, ts))
termination_by (ts.length, 0)
decreasing_by
  · exact .left _ _ (by simp)
  · exact .left _ _ y.2

/-- Extends a phrase by the operators of a level, or tighter ones, that follow it. -/
def Phrase.parseRest (l : Nat) (x : Phrase) (ts : List Token) : Option (Phrase × List Token) :=
  match ts with
  | .is :: ts =>
    if l ≤ 4 then do
      let r ← Phrase.within (ts.length + 1) (Phrase.nullTest x ts)
      Phrase.parseRest l r.1.1 r.1.2
    else some (x, .is :: ts)
  | t :: ts =>
    match t.joins? with
    | some j =>
      if l ≤ j.1 then do
        let r ← Phrase.within (ts.length + 1) (Phrase.parse (j.1 + 1) ts)
        Phrase.parseRest l (j.2 x r.1.1) r.1.2
      else some (x, t :: ts)
    | none => some (x, t :: ts)
  | [] => some (x, [])
termination_by (ts.length, 0)
decreasing_by
  · exact .left _ _ r.2
  · exact .left _ _ (by simp)
  · exact .left _ _ r.2

end

/-- A phrase that is read at a level may be over before these tokens. -/
def Ends (l : Nat) (rest : List Token) : Prop := ∀ t ∈ rest.head?, t.ends l = true

theorem ends_cons {t : Token} (h : t.ends l = true) : Ends l (t :: rest) := by
  intro u hu
  cases hu
  exact h

theorem Ends.mono (h : Ends k rest) (hkl : k ≤ l) : Ends l rest := fun t ht => Token.ends_mono (h t ht) hkl

/-- No token stands between phrases at the level of `NOT`, or at one tighter than products. -/
theorem Ends.lower (h : Ends (l + 1) rest) (hl : l = 3 ∨ 7 ≤ l) : Ends l rest := by
  intro t ht
  have hends := h t ht
  cases hj : t.joins? with
  | some j =>
    have hlevel := Token.joins?_level hj
    rw [Token.ends_of_joins? hj, decide_eq_true_eq] at hends ⊢
    omega
  | none =>
    cases t with
    | opening => cases hends
    | is =>
      simp only [Token.ends, decide_eq_true_eq] at hends ⊢
      omega
    | _ => simp only [Token.ends, hj]

namespace Phrase

theorem upTo_some (t : Token) : upTo t (some (x, t :: rest)) = some (x, rest) := if_pos rfl

theorem within_some {n : Nat} (h : rest.length < n) : within n (some (x, rest)) = some ⟨(x, rest), h⟩ := dif_pos h

theorem parseRest_of_ends (h : Ends l rest) : parseRest l x rest = some (x, rest) := by
  cases rest with
  | nil => rw [parseRest]
  | cons t rest =>
    have hends := h t rfl
    cases hj : t.joins? with
    | some j =>
      rw [Token.ends_of_joins? hj, decide_eq_true_eq] at hends
      rw [parseRest]
      · simp only [hj, if_neg (Nat.not_le.mpr hends)]
      · rintro rfl
        cases hj
    | none =>
      by_cases his : t = .is
      · subst his
        rw [parseRest, if_neg]
        simp only [Token.ends, decide_eq_true_eq] at hends
        omega
      · rw [parseRest]
        · simp only [hj]
        · exact his

theorem parseFirst_atom {t : Token} (ht : t.atom? = some x) (hrest : Ends l rest) :
    parseFirst (t :: rest) = some (x, rest) := by
  cases t with
  | name word =>
    cases rest with
    | nil => simp [parseFirst, ht]
    | cons u rest =>
      cases u with
      | opening => cases hrest .opening rfl
      | _ => simp [parseFirst, ht]
  | null | bool | number | text => simp [parseFirst, ht]
  | _ => cases ht

theorem parseFirst_negate (hts : ∀ t ∈ ts.head?, t.isNumber = false) :
    parseFirst (.operator .subtract :: ts) = parse 7 ts >>= fun r => some (.negate r.1, r.2) := by
  cases ts with
  | nil => rw [parseFirst]; simp
  | cons t ts =>
    rw [parseFirst]
    rintro n ts' ⟨⟩
    cases hts _ rfl

theorem parseFirst_group (hts : ∀ t ∈ ts.head?, ∀ type, t ≠ .type type) (h : parse 1 ts = some (x, rest))
    (hlength : rest.length < ts.length + 1) : parseFirst (.opening :: ts) = parseGroup x rest := by
  rw [parseFirst]
  · rw [h, within_some hlength]
    rfl
  · rintro type ts' rfl
    exact hts _ rfl type rfl

theorem parse_of_first (h : parseFirst ts = some (x, rest)) (hlength : rest.length < ts.length) :
    parse l ts = parseRest l x rest := by
  rw [parse, h, within_some hlength]
  rfl

theorem parseRest_join {t : Token} {j : Nat × (Phrase → Phrase → Phrase)} (ht : t.joins? = some j) (hl : l ≤ j.1)
    (h : parse (j.1 + 1) ts = some (y, rest)) (hlength : rest.length < ts.length + 1) :
    parseRest l x (t :: ts) = parseRest l (j.2 x y) rest := by
  rw [parseRest]
  · simp only [ht, if_pos hl, h, within_some hlength]
    rfl
  · rintro rfl
    cases ht

theorem parseRest_nullTest (hl : l ≤ 4) (h : nullTest x ts = some (y, rest)) (hlength : rest.length < ts.length + 1) :
    parseRest l x (.is :: ts) = parseRest l y rest := by
  rw [parseRest, if_pos hl, h, within_some hlength]
  rfl

end Phrase

theorem Parses.head (h : Parses l ts x) : ∃ t us, ts = t :: us ∧ ∀ type, t ≠ .type type := by
  induction h with
  | @atom t x h =>
    refine ⟨t, [], rfl, ?_⟩
    rintro type rfl
    cases h
  | group | choose | cast => exact ⟨.opening, _, rfl, by simp⟩
  | call => exact ⟨.name _, _, rfl, by simp⟩
  | negative | negate => exact ⟨.operator .subtract, _, rfl, by simp⟩
  | not => exact ⟨.not, _, rfl, by simp⟩
  | isNull _ ih | isNotNull _ ih | join _ _ _ ih _ =>
    obtain ⟨t, us, rfl, ht⟩ := ih
    exact ⟨t, _, rfl, ht⟩
  | loosen _ ih => exact ih

theorem Parses.head_append (h : Parses l ts x) : ∀ t ∈ (ts ++ rest).head?, ∀ type, t ≠ .type type := by
  obtain ⟨t, us, rfl, ht⟩ := h.head
  intro u hu
  cases hu
  exact ht

/-- The phrase is found whatever follows its tokens, and is then extended by what follows. -/
def Found (l : Nat) (ts : List Token) (x : Phrase) : Prop :=
  ∀ (k : Nat) (rest : List Token), k ≤ l → Ends (l + 1) rest →
    Phrase.parse k (ts ++ rest) = Phrase.parseRest k x rest

theorem Found.exact (h : Found l ts x) (hrest : Ends l rest) : Phrase.parse l (ts ++ rest) = some (x, rest) :=
  (h l rest (Nat.le_refl l) (hrest.mono (Nat.le_succ l))).trans (Phrase.parseRest_of_ends hrest)

/-- A phrase that is read before the first operator between phrases is found. -/
theorem found_of_first (hts : ts ≠ [])
    (h : ∀ rest, Ends (l + 1) rest → Phrase.parseFirst (ts ++ rest) = some (x, rest)) : Found l ts x := by
  intro k rest hk hrest
  apply Phrase.parse_of_first (h rest hrest)
  have hpos := List.length_pos_iff.mpr hts
  rw [List.length_append]
  omega

theorem length_lt_append (ts rest : List Token) : rest.length < (ts ++ rest).length + 1 := by
  rw [List.length_append]
  omega

theorem found_of_parses (h : Parses l ts x) : Found l ts x := by
  -- The first phrase is found before the operator that follows it, and the operator then extends it: operators group to
  -- the left, so it is the phrase on the left whose induction hypothesis leaves the rest open.
  induction h with
  | atom h => exact found_of_first (by simp) fun rest hrest => Phrase.parseFirst_atom h hrest
  | @group ts x hx ih =>
    apply found_of_first (by simp)
    intro rest hrest
    have hparse : Phrase.parse 1 (ts ++ .closing :: rest) = some (x, .closing :: rest) := ih.exact (ends_cons rfl)
    simp only [List.cons_append, List.append_assoc, List.nil_append]
    rw [Phrase.parseFirst_group hx.head_append hparse (length_lt_append _ _), Phrase.parseGroup, Phrase.upTo_some]
    simp
  | @choose ts us vs x y z hx hy hz ihx ihy ihz =>
    apply found_of_first (by simp)
    intro rest hrest
    have hlast : Phrase.parse 1 (vs ++ .closing :: rest) = some (z, .closing :: rest) := ihz.exact (ends_cons rfl)
    simp only [List.cons_append, List.append_assoc, List.nil_append]
    rw [Phrase.parseFirst_group hx.head_append (ihx.exact (ends_cons rfl)) (length_lt_append _ _), Phrase.parseGroup,
      ihy.exact (ends_cons rfl), Phrase.upTo_some, Phrase.within_some (by simp only [List.length_cons, List.length_append]; omega)]
    simp only [Option.bind_eq_bind, Option.bind_some, hlast, Phrase.upTo_some]
  | @call function ts x hx ih =>
    apply found_of_first (by simp)
    intro rest hrest
    simp only [List.cons_append, List.append_assoc, List.nil_append]
    rw [Phrase.parseFirst, ih.exact (ends_cons rfl), Phrase.upTo_some]
    rfl
  | negative n =>
    apply found_of_first (by simp)
    intro rest hrest
    rw [List.cons_append, List.singleton_append, Phrase.parseFirst]
  | @negate ts x hx hts ih =>
    apply found_of_first (by simp)
    intro rest hrest
    have hhead : ∀ t ∈ (ts ++ rest).head?, t.isNumber = false := by
      obtain ⟨t, us, rfl, -⟩ := hx.head
      exact hts
    rw [List.cons_append, Phrase.parseFirst_negate hhead, ih.exact (hrest.lower (.inr (Nat.le_refl 7)))]
    rfl
  | cast hx ih =>
    apply found_of_first (by simp)
    intro rest hrest
    simp only [List.cons_append]
    rw [Phrase.parseFirst, ih.exact (hrest.lower (.inr (Nat.le_refl 7)))]
    rfl
  | isNull hx ih =>
    intro k rest hk hrest
    simp only [List.append_assoc, List.cons_append, List.nil_append]
    rw [ih k _ hk (ends_cons rfl), Phrase.parseRest_nullTest hk rfl (by simp only [List.length_cons]; omega)]
  | isNotNull hx ih =>
    intro k rest hk hrest
    simp only [List.append_assoc, List.cons_append, List.nil_append]
    rw [ih k _ hk (ends_cons rfl), Phrase.parseRest_nullTest hk rfl (by simp only [List.length_cons]; omega)]
  | not hx ih =>
    apply found_of_first (by simp)
    intro rest hrest
    rw [List.cons_append, Phrase.parseFirst, ih.exact (hrest.lower (.inl rfl))]
    rfl
  | @join t j ts us x y ht hx hy ihx ihy =>
    intro k rest hk hrest
    have hends : t.ends (j.1 + 1) = true := by
      rw [Token.ends_of_joins? ht]
      exact decide_eq_true (Nat.lt_succ_self _)
    simp only [List.append_assoc, List.cons_append]
    rw [ihx k _ hk (ends_cons hends), Phrase.parseRest_join ht hk (ihy.exact hrest) (length_lt_append _ _)]
  | loosen hx ih =>
    intro k rest hk hrest
    exact ih k rest (Nat.le_succ_of_le hk) (hrest.mono (Nat.le_succ _))

/-- No tokens have two readings. -/
theorem parses_unique (hx : Parses l ts x) (hy : Parses l ts y) : x = y := by
  have hend : Ends l [] := by
    intro t ht
    cases ht
  have hparse := (found_of_parses hx).exact hend
  rw [(found_of_parses hy).exact hend] at hparse
  cases hparse
  rfl

end PigChain
