import PigChain.Mart.Cache
import PigChain.Proofs.CanonicalUrl

/-!
# Shared addresses

Main statement: in whatever state calls have left the cache, an address taken through it is the address that is
read from the text, its canonical spelling leads to the same instance, and two addresses taken without a clearing
in between are one instance exactly if their canonical spellings are equal.
-/

namespace PigChain

/-- What may be asked of a cache. -/
inductive CacheCall where
  | create (text : String)
  | clear

namespace UrlCache

def step (c : UrlCache) : CacheCall → UrlCache
  | .create text => (c.create text).2
  | .clear => c.clear

/-- The cache after some calls. -/
def after (c : UrlCache) (calls : List CacheCall) : UrlCache := calls.foldl step c

theorem get?_insert (c : UrlCache) (spelling key : String) (e : SharedUrl) :
    (c.insert spelling e).get? key = if key = spelling then some e else c.get? key := by
  by_cases h : key = spelling
  · simp [get?, insert, h]
  · simp [get?, insert, h, List.lookup_cons, beq_eq_false_iff_ne.mpr h]

/-- Every spelling leads to the address that it reads as, and every canonical spelling to the one instance. -/
structure Sound (c : UrlCache) : Prop where
  reads : ∀ {key e}, c.get? key = some e → MartUrl.parse key = .ok e.url
  canonical : ∀ {key e}, c.get? key = some e → c.get? e.url.canonical = some e
  numbered : ∀ {key e}, c.get? key = some e → e.instanceId < c.next
  distinct : ∀ {k l e f}, c.get? k = some e → c.get? l = some f → e.instanceId = f.instanceId → e = f

theorem sound_of_empty {c : UrlCache} (h : c.entries = []) : Sound c := by
  have hnone (key : String) : c.get? key = none := by simp [get?, h]
  constructor <;> simp [hnone]

/-- What one cache knows, the other knows too. -/
def Within (c d : UrlCache) : Prop := ∀ key e, c.get? key = some e → d.get? key = some e

section
variable {c : UrlCache} {e f : SharedUrl} {text : String} {u : MartUrl}

theorem Sound.eq_of_canonical_eq {k l : String} (hc : Sound c) (he : c.get? k = some e) (hf : c.get? l = some f)
    (h : e.url.canonical = f.url.canonical) : e = f := by
  have hcanonical := hc.canonical he
  rw [h, hc.canonical hf] at hcanonical
  exact (Option.some.inj hcanonical).symm

/-! ### One more spelling -/

theorem within_insert (hc : Sound c) (hread : MartUrl.parse text = .ok e.url)
    (he : c.get? e.url.canonical = some e) : Within c (c.insert text e) := by
  intro key f hf
  rw [get?_insert]
  split
  · next hkey =>
    have hurl : f.url = e.url := Except.ok.inj ((hc.reads (hkey ▸ hf)).symm.trans hread)
    rw [hc.eq_of_canonical_eq he hf (by rw [hurl])]
  · exact hf

theorem sound_insert (hc : Sound c) (hread : MartUrl.parse text = .ok e.url)
    (he : c.get? e.url.canonical = some e) : Sound (c.insert text e) := by
  have hold {key : String} {f : SharedUrl} (hf : (c.insert text e).get? key = some f) :
      MartUrl.parse key = .ok f.url ∧ ∃ k, c.get? k = some f := by
    rw [get?_insert] at hf
    split at hf
    · next hkey =>
      cases hf
      exact ⟨hkey ▸ hread, _, he⟩
    · exact ⟨hc.reads hf, _, hf⟩
  constructor
  · intro key f hf
    exact (hold hf).1
  · intro key f hf
    obtain ⟨-, k, hk⟩ := hold hf
    exact within_insert hc hread he _ f (hc.canonical hk)
  · intro key f hf
    obtain ⟨-, k, hk⟩ := hold hf
    exact hc.numbered hk
  · intro k l f g hf hg hid
    obtain ⟨-, k, hk⟩ := hold hf
    obtain ⟨-, l, hl⟩ := hold hg
    exact hc.distinct hk hl hid

/-! ### A new instance -/

/-- The cache with a new instance under its canonical spelling. -/
def fresh (c : UrlCache) (u : MartUrl) : UrlCache := { c.insert u.canonical ⟨u, c.next⟩ with next := c.next + 1 }

theorem get?_fresh (c : UrlCache) (u : MartUrl) (key : String) :
    (c.fresh u).get? key = if key = u.canonical then some ⟨u, c.next⟩ else c.get? key :=
  get?_insert c u.canonical key ⟨u, c.next⟩

theorem within_fresh (hnone : c.get? u.canonical = none) : Within c (c.fresh u) := by
  intro key f hf
  have hkey : key ≠ u.canonical := by
    rintro rfl
    rw [hnone] at hf
    cases hf
  rw [get?_fresh, if_neg hkey, hf]

theorem sound_fresh (hc : Sound c) (hread : MartUrl.parse u.canonical = .ok u) (hnone : c.get? u.canonical = none) :
    Sound (c.fresh u) := by
  have hold {key : String} {f : SharedUrl} (hf : (c.fresh u).get? key = some f) :
      key = u.canonical ∧ f = ⟨u, c.next⟩ ∨ c.get? key = some f := by
    rw [get?_fresh] at hf
    split at hf
    · next hkey => exact .inl ⟨hkey, (Option.some.inj hf).symm⟩
    · exact .inr hf
  constructor
  · intro key f hf
    rcases hold hf with ⟨rfl, rfl⟩ | hf
    · exact hread
    · exact hc.reads hf
  · intro key f hf
    rcases hold hf with ⟨rfl, rfl⟩ | hf
    · simp [get?_fresh]
    · exact within_fresh hnone _ f (hc.canonical hf)
  · intro key f hf
    rcases hold hf with ⟨rfl, rfl⟩ | hf
    · exact Nat.lt_succ_self c.next
    · exact Nat.lt_succ_of_lt (hc.numbered hf)
  · intro k l f g hf hg hid
    rcases hold hf with ⟨rfl, rfl⟩ | hf <;> rcases hold hg with ⟨rfl, rfl⟩ | hg
    · rfl
    · exact absurd hid (Nat.ne_of_gt (hc.numbered hg))
    · exact absurd hid (Nat.ne_of_lt (hc.numbered hf))
    · exact hc.distinct hf hg hid

/-! ### One call -/

/-- What an address taken through a cache is, and what it leaves behind. -/
structure Created (c : UrlCache) (text : String) (r : Except MartUrlError SharedUrl × UrlCache) : Prop where
  sound : Sound r.2
  within : Within c r.2
  url : r.1.map SharedUrl.url = MartUrl.parse text
  kept : ∀ e, r.1 = .ok e → r.2.get? text = some e
  refused : ∀ err, MartUrl.parse text = .error err → r.2 = c

theorem intern_spec (hc : Sound c) (hread : MartUrl.parse u.canonical = .ok u) :
    Sound (c.intern u).2 ∧ Within c (c.intern u).2 ∧ (c.intern u).1.url = u ∧
      (c.intern u).2.get? u.canonical = some (c.intern u).1 := by
  cases hget : c.get? u.canonical with
  | some e =>
    have hintern : c.intern u = (e, c) := by simp only [intern, hget]
    have hurl : e.url = u := Except.ok.inj ((hc.reads hget).symm.trans hread)
    rw [hintern]
    exact ⟨hc, fun _ _ h => h, hurl, hget⟩
  | none =>
    have hintern : c.intern u = (⟨u, c.next⟩, c.fresh u) := by simp only [intern, hget, fresh]
    rw [hintern]
    exact ⟨sound_fresh hc hread hget, within_fresh hget, rfl, by simp [get?_fresh]⟩

theorem create_spec (hc : Sound c) (text : String) : Created c text (c.create text) := by
  cases hget : c.get? text with
  | some e =>
    have hcreate : c.create text = (.ok e, c) := by simp only [create, hget]
    have hread := hc.reads hget
    rw [hcreate]
    refine ⟨hc, fun _ _ h => h, hread.symm, fun f hf => ?_, fun err herr => ?_⟩
    · cases hf
      exact hget
    · cases hread.symm.trans herr
  | none =>
    cases hread : MartUrl.parse text with
    | error err =>
      have hcreate : c.create text = (.error err, c) := by simp only [create, hget, hread]
      rw [hcreate]
      refine ⟨hc, fun _ _ h => h, ?_, fun f hf => ?_, fun _ _ => rfl⟩
      · rw [hread]
        rfl
      · cases hf
    | ok u =>
      have hcreate : c.create text = (.ok (c.intern u).1, (c.intern u).2.insert text (c.intern u).1) := by
        simp only [create, hget, hread]
      obtain ⟨hsound, hwithin, hurl, hfound⟩ := intern_spec hc (MartUrl.parse_canonical hread)
      generalize c.intern u = r at *
      subst hurl
      rw [hcreate]
      refine ⟨sound_insert hsound hread hfound, ?_, ?_, fun f hf => ?_, fun err herr => ?_⟩
      · exact fun key f h => within_insert hsound hread hfound key f (hwithin key f h)
      · rw [hread]
        rfl
      · cases hf
        simp [get?_insert]
      · cases hread.symm.trans herr

theorem sound_after (hc : Sound c) (calls : List CacheCall) : Sound (c.after calls) := by
  induction calls generalizing c with
  | nil => exact hc
  | cons call calls ih =>
    refine ih ?_
    cases call with
    | create text => exact (create_spec hc text).sound
    | clear => exact sound_of_empty rfl

/-- Without a clearing nothing is forgotten. -/
theorem within_after (hc : Sound c) {calls : List CacheCall} (h : .clear ∉ calls) : Within c (c.after calls) := by
  induction calls generalizing c with
  | nil => exact fun _ _ h => h
  | cons call calls ih =>
    rw [List.mem_cons, not_or] at h
    cases call with
    | create text =>
      have hcreated := create_spec hc text
      exact fun key e hget => ih hcreated.sound h.2 key e (hcreated.within key e hget)
    | clear => exact absurd rfl h.1

end

end UrlCache

theorem shared_urls_follow_canonical_spelling (calls : List CacheCall) :
    let c := UrlCache.after {} calls
    (∀ text, (c.create text).1.map SharedUrl.url = MartUrl.parse text ∧
      ∀ err, MartUrl.parse text = .error err → (c.create text).2 = c) ∧
    (∀ key e, c.get? key = some e → c.get? e.url.canonical = some e) ∧
    ∀ first x between second y, .clear ∉ between → (c.create first).1 = .ok x →
      (((c.create first).2.after between).create second).1 = .ok y →
      (x.instanceId = y.instanceId ↔ x.url.canonical = y.url.canonical) := by
  intro c
  have hc : c.Sound := UrlCache.sound_after (UrlCache.sound_of_empty rfl) calls
  refine ⟨fun text => ?_, fun key e => hc.canonical, ?_⟩
  · have hcreated := UrlCache.create_spec hc text
    exact ⟨hcreated.url, hcreated.refused⟩
  · intro first x between second y hclear hx hy
    have hfirst := UrlCache.create_spec hc first
    have hbetween := UrlCache.sound_after hfirst.sound between
    have hsecond := UrlCache.create_spec hbetween second
    -- In the last cache both instances are known: the first one was never forgotten.
    have hx' := hsecond.within _ x (UrlCache.within_after hfirst.sound hclear _ x (hfirst.kept x hx))
    have hy' := hsecond.kept y hy
    constructor
    · intro hid
      rw [hsecond.sound.distinct hx' hy' hid]
    · intro hcanonical
      rw [hsecond.sound.eq_of_canonical_eq hx' hy' hcanonical]

theorem shared_urls_follow_canonical_spelling_sales :
    let c := UrlCache.after {} [.create "edgespring://server", .clear]
    let first := c.create "http://SERVER/?EdgeMart=sales"
    let second := (first.2.after [.create "edgespring://"]).create "edgespring://server:8000?edgemart=sales"
    ∃ x y, first.1 = .ok x ∧ second.1 = .ok y ∧ x.instanceId = y.instanceId := by
  intro c first second
  have hx : first.1 = .ok ⟨⟨"server", 8000, [("edgemart", "sales")]⟩, 1⟩ := by decide +kernel
  have hy : second.1.map SharedUrl.url = .ok ⟨"server", 8000, [("edgemart", "sales")]⟩ := by decide +kernel
  obtain ⟨y, hy, hurl⟩ := except_map_eq_ok.mp hy
  refine ⟨_, y, hx, hy, ?_⟩
  have hsame := (shared_urls_follow_canonical_spelling [.create "edgespring://server", .clear]).2.2 _ _
    [.create "edgespring://"] _ y (by simp) hx hy
  exact hsame.mpr (by rw [hurl])

end PigChain
