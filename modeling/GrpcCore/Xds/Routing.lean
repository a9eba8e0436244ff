import GrpcCore.Hpack.Basic
import Mathlib.Data.List.TakeWhile

/-!
# The virtual host of a domain

`XdsRouting::FindVirtualHostForDomain` (`xds_routing.cc`) goes through the domain patterns of all
virtual hosts once. It skips a pattern that cannot be better than the best match so far, by its kind
and then by its length, and stops at an exact match. `findVirtualHostForDomain_spec` says that it
finds the first virtual host with a pattern that is best among all patterns that match.

Strings are bytes. `DomainMatch` makes string views from C strings, which end at the first NUL
(`cString`).
-/

namespace GrpcCore.XdsRouting

open List

/-! ## Patterns -/

inductive MatchType where
  | exactMatch
  | suffixMatch
  | prefixMatch
  | universeMatch
  | invalidMatch
  deriving DecidableEq

def MatchType.value : MatchType → Nat
  | .exactMatch => 0
  | .suffixMatch => 1
  | .prefixMatch => 2
  | .universeMatch => 3
  | .invalidMatch => 4

def star : UInt8 := 0x2a

def tolower (c : UInt8) : UInt8 := if 65 ≤ c.toNat ∧ c.toNat ≤ 90 then c + 32 else c

def lower (s : Bytes) : Bytes := s.map tolower

def cString (s : Bytes) : Bytes := s.takeWhile (· ≠ 0)

def domainMatch (matchType : MatchType) (domainPattern expectedHostName : Bytes) : Bool :=
  let domainPattern := lower domainPattern
  let expectedHostName := lower expectedHostName
  match matchType with
  | .exactMatch => domainPattern = expectedHostName
  | .suffixMatch =>
    if expectedHostName.length < domainPattern.length then false
    else
      let patternSuffix := cString (domainPattern.drop 1)
      patternSuffix = cString
        (expectedHostName.drop (expectedHostName.length - patternSuffix.length))
  | .prefixMatch =>
    if expectedHostName.length < domainPattern.length then false
    else
      let patternPrefix := domainPattern.take (domainPattern.length - 1)
      patternPrefix = expectedHostName.take patternPrefix.length
  | .universeMatch => true
  | .invalidMatch => false

def domainPatternMatchType (domainPattern : Bytes) : MatchType :=
  if domainPattern = [] then .invalidMatch
  else if star ∉ domainPattern then .exactMatch
  else if domainPattern = [star] then .universeMatch
  else if domainPattern.head? = some star then .suffixMatch
  else if domainPattern.getLast? = some star then .prefixMatch
  else .invalidMatch

/-! ## The scan -/

/-- The local variables of `FindVirtualHostForDomain`. -/
structure Best where
  targetIndex : Option Nat := none
  bestMatchType : MatchType := .invalidMatch
  longestMatch : Nat := 0

/-- The inner loop, over the patterns of a virtual host; `none` when the assertion fails. -/
def scanDomains (domain : Bytes) (i : Nat) : List Bytes → Best → Option Best
  | [], b => some b
  | domainPattern :: domains, b =>
    let matchType := domainPatternMatchType domainPattern
    if matchType = .invalidMatch then none
    else if b.bestMatchType.value < matchType.value then scanDomains domain i domains b
    else if matchType = b.bestMatchType ∧ domainPattern.length ≤ b.longestMatch then
      scanDomains domain i domains b
    else if domainMatch matchType domainPattern domain = false then scanDomains domain i domains b
    else if matchType = .exactMatch then some ⟨some i, matchType, domainPattern.length⟩
    else scanDomains domain i domains ⟨some i, matchType, domainPattern.length⟩

/-- The outer loop, over the virtual hosts. -/
def scanVirtualHosts (domain : Bytes) : Nat → List (List Bytes) → Best → Option Best
  | _, [], b => some b
  | i, domains :: vhosts, b =>
    (scanDomains domain i domains b).bind fun b =>
      if b.bestMatchType = .exactMatch then some b else scanVirtualHosts domain (i + 1) vhosts b

def findVirtualHostForDomain (vhosts : List (List Bytes)) (domain : Bytes) : Option (Option Nat) :=
  (scanVirtualHosts domain 0 vhosts {}).map (·.targetIndex)

/-! ## The best match -/

/-- The pattern matches the domain: an asterisk in front or at the end stands for at least one
character, the pattern that is only an asterisk for anything. -/
def Matches (p domain : Bytes) : Prop :=
  match domainPatternMatchType p with
  | .exactMatch => lower p = lower domain
  | .suffixMatch => ∃ front rest, front ≠ [] ∧ domain = front ++ rest ∧ lower rest = lower p.tail
  | .prefixMatch => ∃ rest back, back ≠ [] ∧ domain = rest ++ back ∧ lower rest = lower p.dropLast
  | .universeMatch => True
  | .invalidMatch => False

/-- The pattern is of a better kind, or of the same kind and at least as long. -/
def Precedes (p q : Bytes) : Prop :=
  (domainPatternMatchType p).value < (domainPatternMatchType q).value ∨
    (domainPatternMatchType p).value = (domainPatternMatchType q).value ∧ q.length ≤ p.length

/-- The pattern matches, and precedes every pattern that matches. -/
def IsBest (vhosts : List (List Bytes)) (domain p : Bytes) : Prop :=
  Matches p domain ∧ ∀ domains ∈ vhosts, ∀ q ∈ domains, Matches q domain → Precedes p q

variable {domain p q : Bytes} {b b' : Best} {i : Nat}

theorem MatchType.value_inj {s t : MatchType} : s.value = t.value ↔ s = t := by
  cases s <;> cases t <;> simp [MatchType.value]

theorem Precedes.trans {r : Bytes} (h : Precedes p q) (h' : Precedes q r) : Precedes p r := by
  unfold Precedes at *
  omega

theorem precedes_total (p q : Bytes) : Precedes p q ∨ Precedes q p := by
  unfold Precedes
  omega

/-! ## What `DomainMatch` decides -/

theorem cString_eq_self {s : Bytes} (h : 0 ∉ s) : cString s = s := by
  rw [cString, takeWhile_eq_self_iff]
  intro c hc
  exact decide_eq_true fun hzero => h (hzero ▸ hc)

theorem tolower_ne_zero {c : UInt8} (hc : c ≠ 0) : tolower c ≠ 0 := by
  unfold tolower
  split
  · next h =>
    intro hzero
    have hnat := congrArg UInt8.toNat hzero
    simp only [UInt8.toNat_add, UInt8.reduceToNat] at hnat
    omega
  · exact hc

theorem zero_not_mem_lower {s : Bytes} (h : 0 ∉ s) : 0 ∉ lower s := by
  intro hmem
  obtain ⟨c, hc, heq⟩ := mem_map.1 hmem
  exact tolower_ne_zero (fun hzero => h (hzero ▸ hc)) heq

theorem length_lower (s : Bytes) : (lower s).length = s.length := length_map _

/-- What an asterisk in front matches. -/
theorem exists_front_iff (t : Bytes) :
    (∃ front rest, front ≠ [] ∧ domain = front ++ rest ∧ lower rest = lower t) ↔
      t.length + 1 ≤ domain.length ∧ lower t = (lower domain).drop (domain.length - t.length) := by
  constructor
  · rintro ⟨front, rest, hfront, rfl, heq⟩
    have hlength : rest.length = t.length := by rw [← length_lower, heq, length_lower]
    have hpos := length_pos_iff.2 hfront
    rw [length_append]
    refine ⟨by omega, ?_⟩
    have hdrop : front.length + rest.length - t.length = (front.map tolower).length := by
      rw [length_map]
      omega
    rw [hdrop, lower.eq_1 (front ++ rest), map_append, drop_left]
    exact heq.symm
  · rintro ⟨hlength, heq⟩
    refine ⟨domain.take (domain.length - t.length), domain.drop (domain.length - t.length), ?_,
      (take_append_drop _ _).symm, by rw [lower, map_drop]; exact heq.symm⟩
    refine length_pos_iff.1 ?_
    rw [length_take]
    omega

/-- What an asterisk at the end matches. -/
theorem exists_back_iff (t : Bytes) :
    (∃ rest back, back ≠ [] ∧ domain = rest ++ back ∧ lower rest = lower t) ↔
      t.length + 1 ≤ domain.length ∧ lower t = (lower domain).take t.length := by
  constructor
  · rintro ⟨rest, back, hback, rfl, heq⟩
    have hlength : rest.length = t.length := by rw [← length_lower, heq, length_lower]
    have hpos := length_pos_iff.2 hback
    rw [length_append]
    refine ⟨by omega, ?_⟩
    have htake : t.length = (rest.map tolower).length := by rw [length_map, hlength]
    rw [htake, lower.eq_1 (rest ++ back), map_append, take_left]
    exact heq.symm
  · rintro ⟨hlength, heq⟩
    refine ⟨domain.take t.length, domain.drop t.length, ?_,
      (take_append_drop _ _).symm, by rw [lower, map_take]; exact heq.symm⟩
    refine length_pos_iff.1 ?_
    rw [length_drop]
    omega

/-- Without NUL bytes `DomainMatch` decides whether the pattern matches. -/
theorem domainMatch_iff (hne : p ≠ []) (hp : 0 ∉ p) (hdomain : 0 ∉ domain) :
    domainMatch (domainPatternMatchType p) p domain = true ↔ Matches p domain := by
  have hpos := length_pos_iff.2 hne
  unfold domainMatch Matches
  cases domainPatternMatchType p with
  | exactMatch => simp only [decide_eq_true_eq]
  | universeMatch => simp
  | invalidMatch => simp
  | suffixMatch =>
    have hpattern : cString ((lower p).drop 1) = lower p.tail := by
      rw [cString_eq_self fun h => zero_not_mem_lower hp (mem_of_mem_drop h), drop_one,
        lower, lower, map_tail]
    have hhost (n : Nat) : cString ((lower domain).drop n) = (lower domain).drop n :=
      cString_eq_self fun h => zero_not_mem_lower hdomain (mem_of_mem_drop h)
    simp only [hpattern, hhost, length_lower, exists_front_iff, length_tail]
    split
    · next h => simp; omega
    · next h => simp; omega
  | prefixMatch =>
    have hpattern : (lower p).take (p.length - 1) = lower p.dropLast := by
      rw [← length_lower, ← dropLast_eq_take, lower, lower, map_dropLast]
    simp only [hpattern, length_lower, exists_back_iff, length_dropLast]
    split
    · next h => simp; omega
    · next h => simp; omega

/-! ## What the scan keeps -/

/-- Among the patterns seen, each with the index of its virtual host, `p` is a best match, and none
of a virtual host before `i` is as good. -/
structure Chosen (domain : Bytes) (seen : List (Nat × Bytes)) (i : Nat) (p : Bytes) : Prop where
  mem : (i, p) ∈ seen
  isMatch : Matches p domain
  best : ∀ e ∈ seen, Matches e.2 domain → Precedes p e.2
  first : ∀ e ∈ seen, e.1 < i → Matches e.2 domain → ¬ Precedes e.2 p

/-- The variables describe the choice among the patterns seen. -/
inductive Kept (domain : Bytes) (seen : List (Nat × Bytes)) : Best → Prop
  | unmatched {longestMatch : Nat} : (∀ e ∈ seen, ¬ Matches e.2 domain) →
      Kept domain seen ⟨none, .invalidMatch, longestMatch⟩
  | chosen {i : Nat} {p : Bytes} : Chosen domain seen i p →
      Kept domain seen ⟨some i, domainPatternMatchType p, p.length⟩

/-- The pattern is skipped by its kind or its length. -/
def Best.Beats (b : Best) (p : Bytes) : Prop :=
  b.bestMatchType.value < (domainPatternMatchType p).value ∨
    domainPatternMatchType p = b.bestMatchType ∧ p.length ≤ b.longestMatch

variable {seen : List (Nat × Bytes)}

theorem value_lt_of_ne_invalid {t : MatchType} (h : t ≠ .invalidMatch) :
    t.value < MatchType.invalidMatch.value := by
  cases t <;> simp_all [MatchType.value]

theorem beats_iff :
    Best.Beats ⟨some i, domainPatternMatchType q, q.length⟩ p ↔ Precedes q p := by
  unfold Best.Beats Precedes
  rw [← MatchType.value_inj]
  dsimp only
  omega

/-- The choice stays if what follows is not better. -/
theorem Chosen.append (h : Chosen domain seen i p) {rest : List (Nat × Bytes)}
    (hbest : ∀ e ∈ rest, Matches e.2 domain → Precedes p e.2)
    (hlater : ∀ e ∈ rest, ∀ e' ∈ seen, e'.1 ≤ e.1) : Chosen domain (seen ++ rest) i p where
  mem := mem_append_left _ h.mem
  isMatch := h.isMatch
  best := by
    intro e he hmatch
    rcases mem_append.1 he with he | he
    · exact h.best e he hmatch
    · exact hbest e he hmatch
  first := by
    intro e he hlt hmatch
    rcases mem_append.1 he with he | he
    · exact h.first e he hlt hmatch
    · exact absurd (hlater e he _ h.mem) (Nat.not_le.2 hlt)

/-- A pattern that is skipped changes nothing. -/
theorem Kept.skip (h : Kept domain seen b) (hi : ∀ e ∈ seen, e.1 ≤ i)
    (hp : domainPatternMatchType p ≠ .invalidMatch) (hworse : Matches p domain → b.Beats p) :
    Kept domain (seen ++ [(i, p)]) b := by
  cases h with
  | unmatched hnone =>
    refine .unmatched fun e he hmatch => ?_
    rcases mem_append.1 he with he | he
    · exact hnone e he hmatch
    · rw [mem_singleton.1 he] at hmatch
      rcases hworse hmatch with hlt | ⟨heq, -⟩
      · exact absurd hlt (Nat.lt_asymm (value_lt_of_ne_invalid hp))
      · exact hp heq
  | chosen hchosen =>
    refine .chosen (hchosen.append (fun e he hmatch => ?_) (fun e he => ?_))
    · obtain rfl := mem_singleton.1 he
      exact beats_iff.1 (hworse hmatch)
    · obtain rfl := mem_singleton.1 he
      exact hi

/-- A pattern that matches and is not skipped is the new choice. -/
theorem Kept.choose (h : Kept domain seen b) (hmatch : Matches p domain) (hbetter : ¬ b.Beats p) :
    Kept domain (seen ++ [(i, p)]) ⟨some i, domainPatternMatchType p, p.length⟩ := by
  -- nothing seen that matches is as good as `p`
  have hstrict : ∀ e ∈ seen, Matches e.2 domain → ¬ Precedes e.2 p := by
    intro e he hmatch' hprecedes
    cases h with
    | unmatched hnone => exact hnone e he hmatch'
    | chosen hchosen =>
      exact hbetter (beats_iff.2 ((hchosen.best e he hmatch').trans hprecedes))
  refine .chosen ⟨by simp, hmatch, fun e he hmatch' => ?_, fun e he hlt hmatch' => ?_⟩
  · rcases mem_append.1 he with he | he
    · exact (precedes_total p e.2).resolve_right (hstrict e he hmatch')
    · obtain rfl := mem_singleton.1 he
      exact Or.inr ⟨rfl, Nat.le_refl _⟩
  · rcases mem_append.1 he with he | he
    · exact hstrict e he hmatch'
    · obtain rfl := mem_singleton.1 he
      exact absurd hlt (Nat.lt_irrefl _)

theorem length_of_exact (hkind : domainPatternMatchType p = .exactMatch) (h : Matches p domain) :
    p.length = domain.length := by
  rw [Matches, hkind] at h
  rw [← length_lower p, h, length_lower]

/-- After an exact match the rest does not matter. -/
theorem Kept.append_of_exact (h : Kept domain seen b) (hexact : b.bestMatchType = .exactMatch)
    (rest : List (Nat × Bytes)) (hrest : ∀ e ∈ rest, ∀ e' ∈ seen, e'.1 ≤ e.1) :
    Kept domain (seen ++ rest) b := by
  cases h with
  | unmatched => cases hexact
  | chosen hchosen =>
    refine .chosen (hchosen.append (fun e he hmatch => ?_) hrest)
    by_cases hexact' : domainPatternMatchType e.2 = .exactMatch
    · refine Or.inr ⟨congrArg _ (hexact.trans hexact'.symm), ?_⟩
      rw [length_of_exact hexact hchosen.isMatch, length_of_exact hexact' hmatch]
    · refine Or.inl ?_
      cases hkind' : domainPatternMatchType e.2 <;> simp_all [MatchType.value]

/-- A pattern that the scan may be given. -/
def Valid (p : Bytes) : Prop := domainPatternMatchType p ≠ .invalidMatch ∧ 0 ∉ p

theorem Valid.ne_nil (h : Valid p) : p ≠ [] := by
  rintro rfl
  exact h.1 rfl

/-- The inner loop, by induction on the patterns. -/
theorem scanDomains_kept (hdomain : 0 ∉ domain) :
    ∀ (domains : List Bytes) (seen : List (Nat × Bytes)) (b : Best), (∀ p ∈ domains, Valid p) →
      (∀ e ∈ seen, e.1 ≤ i) → Kept domain seen b →
      ∃ b', scanDomains domain i domains b = some b' ∧
        Kept domain (seen ++ domains.map fun p => (i, p)) b'
  | [], seen, b, _, _, h => ⟨b, rfl, by simpa using h⟩
  | p :: domains, seen, b, hvalid, hi, h => by
    obtain ⟨hp, hdomains⟩ := forall_mem_cons.1 hvalid
    have hi' : ∀ e ∈ seen ++ [(i, p)], e.1 ≤ i := by
      intro e he
      rcases mem_append.1 he with he | he
      · exact hi e he
      · rw [mem_singleton.1 he]
    -- the rest of the loop after this pattern
    have hloop (b₁ : Best) (h₁ : Kept domain (seen ++ [(i, p)]) b₁) :
        ∃ b', scanDomains domain i domains b₁ = some b' ∧
          Kept domain (seen ++ (p :: domains).map fun p => (i, p)) b' := by
      obtain ⟨b', heq, h'⟩ := scanDomains_kept hdomain domains _ b₁ hdomains hi' h₁
      exact ⟨b', heq, by simpa using h'⟩
    have hskip (hworse : Matches p domain → b.Beats p) := hloop b (h.skip hi hp.1 hworse)
    rw [scanDomains]
    simp only [if_neg hp.1]
    split
    · next hlt => exact hskip fun _ => Or.inl hlt
    · next hlt =>
      split
      · next heq => exact hskip fun _ => Or.inr heq
      · next hne =>
        split
        · next hmatch =>
          refine hskip fun hmatches => ?_
          rw [(domainMatch_iff hp.ne_nil hp.2 hdomain).2 hmatches] at hmatch
          cases hmatch
        · next hmatch =>
          have hmatches := (domainMatch_iff hp.ne_nil hp.2 hdomain).1 (by simpa using hmatch)
          have h₁ := h.choose (i := i) hmatches fun hbeats => hbeats.elim hlt hne
          split
          · next hexact =>
            refine ⟨_, rfl, ?_⟩
            have hall := h₁.append_of_exact hexact
              (domains.map fun p => (i, p)) fun e he e' he' => by
              obtain ⟨q, -, rfl⟩ := mem_map.1 he
              exact hi' e' he'
            simpa using hall
          · exact hloop _ h₁

/-- The patterns of the virtual hosts, each with the index of its virtual host. -/
def entries : Nat → List (List Bytes) → List (Nat × Bytes)
  | _, [] => []
  | i, domains :: vhosts => domains.map (fun p => (i, p)) ++ entries (i + 1) vhosts

theorem mem_entries {j : Nat} :
    ∀ {i : Nat} {vhosts : List (List Bytes)},
      (j, q) ∈ entries i vhosts ↔ ∃ k domains, j = i + k ∧ vhosts[k]? = some domains ∧ q ∈ domains
  | _, [] => by simp [entries]
  | i, domains :: vhosts => by
    rw [entries, mem_append, mem_entries]
    constructor
    · rintro (h | ⟨k, domains', rfl, hk, hq⟩)
      · obtain ⟨_, hq, heq⟩ := mem_map.1 h
        cases heq
        exact ⟨0, domains, rfl, rfl, hq⟩
      · exact ⟨k + 1, domains', by omega, hk, hq⟩
    · rintro ⟨_ | k, domains', rfl, hk, hq⟩
      · cases hk
        exact Or.inl (mem_map.2 ⟨q, hq, rfl⟩)
      · exact Or.inr ⟨k, domains', by omega, hk, hq⟩

/-- The outer loop, by induction on the virtual hosts. -/
theorem scanVirtualHosts_kept (hdomain : 0 ∉ domain) :
    ∀ (vhosts : List (List Bytes)) (i : Nat) (seen : List (Nat × Bytes)) (b : Best),
      (∀ domains ∈ vhosts, ∀ p ∈ domains, Valid p) → (∀ e ∈ seen, e.1 ≤ i) → Kept domain seen b →
      ∃ b', scanVirtualHosts domain i vhosts b = some b' ∧ Kept domain (seen ++ entries i vhosts) b'
  | [], i, seen, b, _, _, h => ⟨b, rfl, by simpa [entries] using h⟩
  | domains :: vhosts, i, seen, b, hvalid, hi, h => by
    obtain ⟨hdomains, hvhosts⟩ := forall_mem_cons.1 hvalid
    obtain ⟨b₁, heq, h₁⟩ := scanDomains_kept hdomain domains seen b hdomains hi h
    have hi' : ∀ e ∈ seen ++ domains.map (fun p => (i, p)), e.1 ≤ i := by
      intro e he
      rcases mem_append.1 he with he | he
      · exact hi e he
      · obtain ⟨q, -, rfl⟩ := mem_map.1 he
        exact Nat.le_refl _
    rw [scanVirtualHosts, heq, Option.bind_some, entries, ← append_assoc]
    split
    · next hexact =>
      refine ⟨b₁, rfl, h₁.append_of_exact hexact _ fun e he e' he' => ?_⟩
      obtain ⟨k, _, hk, -⟩ := mem_entries.1 he
      have hle := hi' e' he'
      omega
    · exact scanVirtualHosts_kept hdomain vhosts (i + 1) _ b₁ hvhosts
        (fun e he => Nat.le_succ_of_le (hi' e he)) h₁

/-- For patterns that are valid, and without NUL bytes, the search finds nothing exactly when no
pattern matches, and otherwise the first virtual host that has a best pattern. -/
theorem findVirtualHostForDomain_spec (vhosts : List (List Bytes)) (domain : Bytes)
    (hdomain : 0 ∉ domain) (hvalid : ∀ domains ∈ vhosts, ∀ p ∈ domains, Valid p) :
    ∃ found, findVirtualHostForDomain vhosts domain = some found ∧
      (found = none ↔ ∀ domains ∈ vhosts, ∀ p ∈ domains, ¬ Matches p domain) ∧
      ∀ i, found = some i →
        (∃ domains p, vhosts[i]? = some domains ∧ p ∈ domains ∧ IsBest vhosts domain p) ∧
        ∀ j < i, ∀ domains, vhosts[j]? = some domains → ∀ q ∈ domains,
          ¬ IsBest vhosts domain q := by
  obtain ⟨b, heq, h⟩ := scanVirtualHosts_kept hdomain vhosts 0 [] {} hvalid (by simp)
    (.unmatched (by simp))
  have hmem {domains : List Bytes} {q : Bytes} (hd : domains ∈ vhosts) (hq : q ∈ domains) :
      ∃ k, (k, q) ∈ entries 0 vhosts := by
    obtain ⟨k, hk⟩ := getElem?_of_mem hd
    exact ⟨k, mem_entries.2 ⟨k, domains, by omega, hk, hq⟩⟩
  rw [nil_append] at h
  refine ⟨b.targetIndex, by rw [findVirtualHostForDomain, heq]; rfl, ?_⟩
  cases h with
  | unmatched hnone =>
    refine ⟨iff_of_true rfl fun domains hd q hq => ?_, nofun⟩
    obtain ⟨k, hk⟩ := hmem hd hq
    exact hnone _ hk
  | @chosen i p hchosen =>
    obtain ⟨k, domains, hik, hk, hp⟩ := mem_entries.1 hchosen.mem
    obtain rfl : i = k := by omega
    refine ⟨iff_of_false (by simp) fun hnone =>
      hnone domains (mem_of_getElem? hk) p hp hchosen.isMatch, ?_⟩
    rintro _ ⟨⟩
    refine ⟨⟨domains, p, hk, hp, hchosen.isMatch, fun domains' hd q hq hmatch => ?_⟩, ?_⟩
    · obtain ⟨k, hk⟩ := hmem hd hq
      exact hchosen.best _ hk hmatch
    · intro j hj domains' hj' q hq hbest
      exact hchosen.first (j, q) (mem_entries.2 ⟨j, domains', by omega, hj', hq⟩) hj hbest.1
        (hbest.2 domains (mem_of_getElem? hk) p hp hchosen.isMatch)

/-- `a.b` with the patterns `*`, `*.b` and `A.B`: the second virtual host. -/
theorem findVirtualHostForDomain_spec_of_exact :
    ∃ found, findVirtualHostForDomain [[[0x2a], [0x2a, 0x2e, 0x62]], [[0x41, 0x2e, 0x42]]]
        [0x61, 0x2e, 0x62] = some found ∧ found = some 1 := by
  obtain ⟨found, heq, -⟩ := findVirtualHostForDomain_spec
    [[[0x2a], [0x2a, 0x2e, 0x62]], [[0x41, 0x2e, 0x42]]] [0x61, 0x2e, 0x62] (by decide)
    (by simp [Valid, domainPatternMatchType, star])
  refine ⟨found, heq, ?_⟩
  exact Option.some_inj.1 (heq.symm.trans (by decide))

end GrpcCore.XdsRouting
