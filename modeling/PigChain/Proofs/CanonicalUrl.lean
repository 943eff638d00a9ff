import Mathlib.Data.List.TakeWhile
import PigChain.Proofs.HostText
import PigChain.Proofs.Outcome

/-!
# Canonical spellings

Main statement: the canonical spelling of an address that was read is itself read, as the same address. What
is read has a host that reads back, in lower case, a port of two bytes and pairs in order; and a text that is
put together from such parts is taken apart at the same places.
-/

namespace PigChain

namespace Url

/-! ### The parts of an authority -/

/-- The text before the path. -/
def authorityText (scheme : String) (cs : List Char) : List Char :=
  cs.takeWhile fun c => !endsAuthority (webPorts.lookup scheme).isSome c

/-- The host of a scheme. -/
def readHost (scheme : String) (text : List Char) : Except UrlFault String :=
  if (webPorts.lookup scheme).isSome then (if text.isEmpty then .error .emptyHost else webHost text)
  else plainHost text

theorem withAuthority_eq (scheme : String) (cs : List Char) : withAuthority scheme cs =
    let authority := authorityText scheme cs
    let rest := cs.drop authority.length
    let place := splitUser authority
    let parts := splitHost false place.2
    if (place.1 = some [] && place.2.isEmpty && !rest.isEmpty) = true then .error .emptyHost
    else (readHost scheme parts.1).bind fun host =>
      if (host.isEmpty && !parts.2.isEmpty) = true then .error .emptyHost
      else (readPort (parts.2.drop 1)).bind fun port =>
        if (host.isEmpty && (place.1.map namesUser).getD false) = true then .error .emptyHost
        else .ok ⟨scheme, if host.isEmpty then none else some host,
          if port = webPorts.lookup scheme then none else port, splitQuery rest⟩ := by
  unfold withAuthority readHost authorityText
  cases (webPorts.lookup scheme) <;> rfl

/-- What reading an authority asks for, and what it gives. -/
theorem withAuthority_eq_ok {scheme : String} {cs : List Char} {u : Url} : withAuthority scheme cs = .ok u ↔
    let authority := authorityText scheme cs
    let rest := cs.drop authority.length
    let place := splitUser authority
    let parts := splitHost false place.2
    (place.1 = some [] && place.2.isEmpty && !rest.isEmpty) = false ∧
      ∃ host port, readHost scheme parts.1 = .ok host ∧ (host.isEmpty && !parts.2.isEmpty) = false ∧
        readPort (parts.2.drop 1) = .ok port ∧ (host.isEmpty && (place.1.map namesUser).getD false) = false ∧
        u = ⟨scheme, if host.isEmpty then none else some host, if port = webPorts.lookup scheme then none else port,
          splitQuery rest⟩ := by
  have hguard {α : Type} {p : Bool} {e : UrlFault} {x : Except UrlFault α} {a : α} :
      (if p = true then Except.error e else x) = .ok a ↔ p = false ∧ x = .ok a := by
    cases p <;> simp
  rw [withAuthority_eq]
  simp only [hguard, except_bind_eq_ok, Except.ok.injEq]
  constructor
  · rintro ⟨hplace, host, hhost, hempty, port, hport, hnamed, rfl⟩
    exact ⟨hplace, host, port, hhost, hempty, hport, hnamed, rfl⟩
  · rintro ⟨hplace, host, port, hhost, hempty, hport, hnamed, rfl⟩
    exact ⟨hplace, host, hhost, hempty, port, hport, hnamed, rfl⟩

theorem isHost_readHost {scheme : String} {text : List Char} {host : String} (h : readHost scheme text = .ok host) :
    IsHost host.toList := by
  unfold readHost at h
  split at h
  · split at h
    · cases h
    · exact isHost_webHost h
  · exact isHost_plainHost h

theorem readPort_le {cs : List Char} {port : Nat} (h : readPort cs = .ok (some port)) : port ≤ 65535 := by
  have hlimit {n : Nat} {digits : List Char}
      (h : (if n > 65535 then (.error .port : Except UrlFault (Option Nat))
        else .ok (if digits.isEmpty then none else some n)) = .ok (some port)) : port ≤ 65535 := by
    split at h
    · cases h
    · split at h
      · cases h
      · cases h
        omega
  simp only [readPort] at h
  split at h
  · exact hlimit h
  · exact hlimit h
  · cases h

/-- A host that reads back and a port of two bytes, if they are given. -/
structure Leads (u : Url) : Prop where
  isHost : ∀ host ∈ u.host, IsHost host.toList
  host_ne : ∀ host ∈ u.host, host.isEmpty = false
  port_le : ∀ port ∈ u.port, port ≤ 65535

theorem leads_withAuthority {scheme : String} {cs : List Char} {u : Url} (h : withAuthority scheme cs = .ok u) :
    Leads u := by
  obtain ⟨-, host, port, hhost, -, hport, -, rfl⟩ := withAuthority_eq_ok.mp h
  have hgiven {name : String} (hname : name ∈ if host.isEmpty then none else some host) :
      name = host ∧ host.isEmpty = false := by
    split at hname
    · cases hname
    · next hne => exact ⟨(Option.mem_some.mp hname).symm, by simpa using hne⟩
  constructor
  · intro name hname
    rw [(hgiven hname).1]
    exact isHost_readHost hhost
  · intro name hname
    rw [(hgiven hname).1]
    exact (hgiven hname).2
  · intro n hn
    simp only [Option.mem_def] at hn
    split at hn
    · cases hn
    · exact readPort_le (hn ▸ hport)

theorem file_scheme {cs : List Char} {u : Url} (h : file cs = .ok u) : u.scheme = "file" := by
  unfold file at h
  split at h
  · dsimp only at h
    split at h
    · obtain ⟨host, -, h⟩ := except_do_eq_ok.mp h
      cases h
      rfl
    · cases h
      rfl
  · cases h
    rfl

theorem leads_parse {text : String} {u : Url} (h : parse text = .ok u) (hfile : u.scheme ≠ "file") : Leads u := by
  unfold parse at h
  split at h
  · cases h
  · split at h
    · exact absurd (file_scheme h) hfile
    · split at h
      · exact leads_withAuthority h
      · split at h
        · exact leads_withAuthority h
        · cases h
          constructor <;> simp

/-! ### Texts that no cleaning changes -/

/-- Printable ASCII but for the space. -/
def isVisible (c : Char) : Bool := 32 < c.toNat && c.toNat < 127

theorem isVisible_iff {c : Char} : isVisible c = true ↔ 32 < c.toNat ∧ c.toNat < 127 := by
  simp [isVisible]

theorem cleaned_of_visible {cs : List Char} (h : ∀ c ∈ cs, isVisible c = true) : cleaned cs = cs := by
  have hkeep (ds : List Char) (hds : ∀ c ∈ ds, isVisible c = true) :
      ds.dropWhile (fun c => decide (c.toNat ≤ 32)) = ds := by
    cases ds with
    | nil => rfl
    | cons c ds =>
      have := isVisible_iff.mp (hds c List.mem_cons_self)
      simp [Nat.not_le.mpr this.1]
  unfold cleaned
  simp only
  rw [hkeep cs h, hkeep cs.reverse fun c hc => h c (List.mem_reverse.mp hc), List.reverse_reverse]
  refine List.filter_eq_self.mpr fun c hc => ?_
  have hc := isVisible_iff.mp (h c hc)
  simp only [Bool.and_eq_true, bne_iff_ne]
  refine ⟨⟨?_, ?_⟩, ?_⟩ <;> rintro rfl <;> simp at hc

/-! ### Texts put together -/

theorem foldl_toDigits (n : Nat) : (Nat.toDigits 10 n).foldl (fun n c => n * 10 + (c.toNat - 48)) 0 = n := by
  have hfold : (fun n (c : Char) => n * 10 + (c.toNat - 48)) = fun n c => 10 * n + (c.toNat - '0'.toNat) := by
    funext n c
    rw [Nat.mul_comm]
    rfl
  rw [hfold, ← Nat.ofDigitChars_eq_foldl, Nat.ofDigitChars_ten_toDigits]

theorem isDigit_toDigits {n : Nat} {c : Char} (h : c ∈ Nat.toDigits 10 n) : c.isDigit = true :=
  Nat.isDigit_of_mem_toDigits (by omega) (by omega) h

theorem readPort_toDigits {n : Nat} (h : n ≤ 65535) : readPort (Nat.toDigits 10 n) = .ok (some n) := by
  have hdigits : (Nat.toDigits 10 n).takeWhile Char.isDigit = Nat.toDigits 10 n :=
    List.takeWhile_eq_self_iff.mpr fun c hc => isDigit_toDigits hc
  have hlimit : ¬n > 65535 := by omega
  simp [readPort, hdigits, foldl_toDigits, hlimit]

theorem splitUser_of_notMem {cs : List Char} (h : '@' ∉ cs) : splitUser cs = (none, cs) := by
  have hall : cs.reverse.takeWhile (· != '@') = cs.reverse :=
    List.takeWhile_eq_self_iff.mpr fun c hc => by simpa using ne_of_mem_of_not_mem (List.mem_reverse.mp hc) h
  simp [splitUser, hall]

theorem splitQuery_question {query : String} (h : '#' ∉ query.toList) :
    splitQuery ('?' :: query.toList) = some query := by
  have hall : query.toList.takeWhile (· != '#') = query.toList :=
    List.takeWhile_eq_self_iff.mpr fun c hc => by simpa using ne_of_mem_of_not_mem hc h
  simp [splitQuery, hall]

/-- The characters of a host with a port end no authority and name no user. -/
theorem place_chars {host : List Char} (hhost : IsHost host) {port : Nat} {c : Char}
    (hc : c ∈ host ++ ':' :: Nat.toDigits 10 port) : isVisible c = true ∧ ¬c ∈ ['/', '?', '#', '@'] := by
  rw [List.mem_append, List.mem_cons] at hc
  rcases hc with hc | rfl | hc
  · obtain ⟨hlow, hhigh, hfree⟩ := hhost.chars hc
    exact ⟨isVisible_iff.mpr ⟨hlow, hhigh⟩, hfree⟩
  · decide
  · have hdigit : c.isAlphanum = true := by simp [Char.isAlphanum, isDigit_toDigits hc]
    have hchar := isHostChar_of_isAlphanum hdigit
    obtain ⟨hlow, hhigh, hfree⟩ := IsHost.chars (.name (by simpa using hchar)) (List.mem_singleton_self c)
    exact ⟨isVisible_iff.mpr ⟨hlow, hhigh⟩, hfree⟩

/-- Host and port before a query or the end, of a scheme that takes hosts as they stand. -/
theorem withAuthority_place {scheme : String} (hscheme : webPorts.lookup scheme = none) {host : List Char}
    (hhost : IsHost host) (hne : host ≠ []) {port : Nat} (hport : port ≤ 65535) {rest : List Char}
    (hrest : ∀ c ∈ rest.head?, c = '?') :
    withAuthority scheme (host ++ ':' :: Nat.toDigits 10 port ++ rest) =
      .ok ⟨scheme, some (String.ofList host), some port, splitQuery rest⟩ := by
  have hauthority : authorityText scheme (host ++ ':' :: Nat.toDigits 10 port ++ rest) =
      host ++ ':' :: Nat.toDigits 10 port := by
    have hplace : ∀ c ∈ host ++ ':' :: Nat.toDigits 10 port, (!endsAuthority false c) = true := fun c hc => by
      have hfree := (place_chars hhost hc).2
      simp only [List.mem_cons, List.not_mem_nil, or_false, not_or] at hfree
      simp [endsAuthority, hfree]
    have hstop : rest.takeWhile (fun c => !endsAuthority false c) = [] := by
      cases rest with
      | nil => rfl
      | cons c rest =>
        obtain rfl := hrest c rfl
        rfl
    rw [authorityText, hscheme]
    simp only [Option.isSome_none]
    rw [List.takeWhile_append_of_pos hplace, hstop, List.append_nil]
  have huser : splitUser (host ++ ':' :: Nat.toDigits 10 port) = (none, host ++ ':' :: Nat.toDigits 10 port) :=
    splitUser_of_notMem fun h => (place_chars hhost h).2 (by decide)
  have hread : readHost scheme host = .ok (String.ofList host) := by
    simp [readHost, hscheme, plainHost_of_isHost hhost]
  have hname : (String.ofList host).isEmpty = false := by
    simpa using hne
  rw [withAuthority_eq_ok]
  simp only [hauthority, huser, splitHost_of_isHost hhost, List.drop_left]
  refine ⟨by simp, String.ofList host, some port, hread, by simp [hname], ?_, by simp [hname], ?_⟩
  · exact readPort_toDigits hport
  · simp [hname, hscheme]

end Url

theorem Text.isBlank_of_visible {c : Char} (h : Url.isVisible c = true) : Text.isBlank c = false := by
  have hc := Url.isVisible_iff.mp h
  simp [Text.isBlank]
  omega

theorem Text.trim_of_visible {s : String} (h : ∀ c ∈ s.toList, Url.isVisible c = true) : Text.trim s = s := by
  have hkeep (cs : List Char) (hcs : ∀ c ∈ cs, Url.isVisible c = true) : Text.trimStart cs = cs := by
    cases cs with
    | nil => rfl
    | cons c cs => simp [Text.trimStart, Text.isBlank_of_visible (hcs c List.mem_cons_self)]
  rw [Text.trim, Text.trimChars, hkeep _ h, hkeep _ fun c hc => h c (List.mem_reverse.mp hc), List.reverse_reverse,
    String.ofList_toList]

/-! ### Addresses of marts -/

namespace MartUrl

/-- An address as it is read: all its parts in their one form. -/
structure IsCanonical (u : MartUrl) : Prop where
  isHost : Url.IsHost u.host.toList
  host_ne_nil : u.host.toList ≠ []
  lower_host : lower u.host = u.host
  port_le : u.port ≤ 65535
  normalise_pairs : normalise u.pairs = u.pairs

theorem toLower_toLower (c : Char) : c.toLower.toLower = c.toLower := by
  by_cases hc : c.toNat < 128
  · exact ascii_cases (P := fun c => c.toLower.toLower = c.toLower) (by decide +kernel) hc
  · have hsame : c.toLower = c := by
      unfold Char.toLower
      rw [dif_neg]
      rintro ⟨-, hle⟩
      have : c.toNat ≤ 90 := hle
      omega
    rw [hsame, hsame]

theorem lower_lower (s : String) : lower (lower s) = lower s := by
  have hcomp : Char.toLower ∘ Char.toLower = Char.toLower := funext toLower_toLower
  rw [lower, lower, String.toList_ofList, List.map_map, hcomp]

/-- Pairs with their names in lower case. -/
def lowered (pairs : List Form.Pair) : List Form.Pair := pairs.map fun p => (lower p.1, p.2)

/-- Whether a pair may come before another. -/
def inOrder (a b : Form.Pair) : Bool := decide (a.1 ≤ b.1)

theorem normalise_eq (pairs : List Form.Pair) : normalise pairs = (lowered pairs).mergeSort inOrder := rfl

theorem inOrder_trans (a b c : Form.Pair) (hab : inOrder a b = true) (hbc : inOrder b c = true) :
    inOrder a c = true := by
  simp only [inOrder, decide_eq_true_eq] at hab hbc ⊢
  exact String.le_trans hab hbc

theorem inOrder_total (a b : Form.Pair) : (inOrder a b || inOrder b a) = true := by
  simpa [inOrder] using String.le_total a.1 b.1

theorem pairwise_normalise (pairs : List Form.Pair) : (normalise pairs).Pairwise fun a b => inOrder a b = true := by
  rw [normalise_eq]
  exact List.pairwise_mergeSort inOrder_trans inOrder_total _

theorem normalise_normalise (pairs : List Form.Pair) : normalise (normalise pairs) = normalise pairs := by
  have hsame : ∀ p ∈ normalise pairs, (lower p.1, p.2) = p := fun p hp => by
    obtain ⟨q, -, rfl⟩ := List.mem_map.mp (List.mem_mergeSort.mp hp)
    simp [lower_lower]
  have hkeys : lowered (normalise pairs) = normalise pairs := by
    rw [lowered, List.map_congr_left hsame, List.map_id']
  rw [normalise_eq, hkeys, List.mergeSort_of_pairwise (pairwise_normalise pairs)]

theorem parse_eq_ok {text : String} {u : MartUrl} : parse text = .ok u ↔
    ∃ v host, Url.parse (Text.trim text) = .ok v ∧ v.scheme ∈ schemes ∧ v.host = some host ∧
      u = ⟨lower host, v.port.getD defaultPort, normalise v.pairs⟩ := by
  unfold parse
  cases Url.parse (Text.trim text) with
  | error fault => simp
  | ok v =>
    by_cases hscheme : v.scheme ∈ schemes
    · cases hhost : v.host with
      | none => simp [hscheme, hhost]
      | some host => simp [hscheme, hhost, eq_comm]
    · simp [hscheme]

theorem isCanonical_of_parse {text : String} {u : MartUrl} (h : parse text = .ok u) : IsCanonical u := by
  obtain ⟨v, host, hv, hscheme, hhost, rfl⟩ := parse_eq_ok.mp h
  have hfile : v.scheme ≠ "file" := fun heq => by
    rw [heq] at hscheme
    exact absurd hscheme (by decide)
  have hleads := Url.leads_parse hv hfile
  refine ⟨?_, ?_, lower_lower host, ?_, normalise_normalise _⟩
  · simpa [lower] using (hleads.isHost host hhost).lower
  · simpa [lower] using hleads.host_ne host hhost
  · cases hport : v.port with
    | none => simp [defaultPort]
    | some port => simpa using hleads.port_le port hport

/-- The text of the query with its question mark. -/
def queryText (u : MartUrl) : List Char := if u.pairs.isEmpty then [] else '?' :: (Form.write u.pairs).toList

theorem toList_canonical (u : MartUrl) : u.canonical.toList =
    "edgespring://".toList ++ (u.host.toList ++ ':' :: Nat.toDigits 10 u.port ++ u.queryText) := by
  have hport : (toString u.port).toList = Nat.toDigits 10 u.port := Nat.toList_repr
  -- The equation of `canonical` is costly to state, its body is not.
  delta canonical
  simp only [queryText, String.toList_append, hport]
  split <;> simp

theorem pairs_queryText (u : MartUrl) : ((Url.splitQuery u.queryText).map Form.read).getD [] = u.pairs := by
  unfold queryText
  split
  · next h => simpa [Url.splitQuery] using (List.isEmpty_iff.mp h).symm
  · have hhash : '#' ∉ (Form.write u.pairs).toList := fun h => (Form.write_chars h).2.2 rfl
    simp [Url.splitQuery_question hhash, Form.read_write]

theorem isVisible_canonical {u : MartUrl} (h : Url.IsHost u.host.toList) {c : Char} (hc : c ∈ u.canonical.toList) :
    Url.isVisible c = true := by
  rw [toList_canonical, List.mem_append, List.mem_append] at hc
  rcases hc with hc | hc | hc
  · have hscheme : "edgespring://".toList.all Url.isVisible = true := by decide
    exact List.all_eq_true.mp hscheme c hc
  · exact (Url.place_chars h hc).1
  · unfold queryText at hc
    split at hc
    · cases hc
    · rcases List.mem_cons.mp hc with rfl | hc
      · decide
      · obtain ⟨hlow, hhigh, -⟩ := Form.write_chars hc
        exact Url.isVisible_iff.mpr ⟨hlow, hhigh⟩

theorem url_canonical {u : MartUrl} (hhost : Url.IsHost u.host.toList) (hne : u.host.toList ≠ [])
    (hport : u.port ≤ 65535) :
    Url.parse u.canonical = .ok ⟨"edgespring", some u.host, some u.port, Url.splitQuery u.queryText⟩ := by
  have hquery : ∀ c ∈ u.queryText.head?, c = '?' := by
    unfold queryText
    split <;> simp
  have hscheme (rest : List Char) : Url.splitScheme? ("edgespring://".toList ++ rest) =
    some ("edgespring", '/' :: '/' :: rest) := rfl
  have hplace : Url.withAuthority "edgespring" _ = _ :=
    Url.withAuthority_place rfl hhost hne hport hquery
  rw [String.ofList_toList] at hplace
  have hfile : ("edgespring" = "file") = False := by decide
  have hweb : (Url.webPorts.lookup "edgespring").isSome = false := by decide
  rw [Url.parse, Url.cleaned_of_visible fun c hc => isVisible_canonical hhost hc, toList_canonical, hscheme]
  simp only [hfile, hweb, if_false, Bool.false_eq_true]
  exact hplace

/-- What is spelled with pairs in any order is read with the pairs in their one order. -/
theorem parse_spelling {u : MartUrl} (hhost : Url.IsHost u.host.toList) (hne : u.host.toList ≠ [])
    (hlower : lower u.host = u.host) (hport : u.port ≤ 65535) :
    parse u.canonical = .ok ⟨u.host, u.port, normalise u.pairs⟩ := by
  have htrim : Text.trim u.canonical = u.canonical := Text.trim_of_visible fun c hc => isVisible_canonical hhost hc
  rw [parse, htrim, url_canonical hhost hne hport]
  simp only [Url.pairs, pairs_queryText, hlower, Option.getD_some]
  rfl

/-- The canonical spelling of an address is read as that address. -/
theorem parse_canonical {text : String} {u : MartUrl} (h : parse text = .ok u) : parse u.canonical = .ok u := by
  have hu := isCanonical_of_parse h
  rw [parse_spelling hu.isHost hu.host_ne_nil hu.lower_host hu.port_le, hu.normalise_pairs]

end MartUrl

end PigChain
