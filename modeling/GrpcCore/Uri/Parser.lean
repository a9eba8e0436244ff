import Mathlib.Data.List.TakeWhile
import GrpcCore.Hpack.Basic

/-!
# URIs

`URI::Parse`, `URI::Create` and `URI::ToString` of `uri_parser.cc`. Parsing splits a text into its
components and then decodes the percent-encoded characters of each; writing encodes again, with a
set of allowed characters for each component, and leaves out empty components with their delimiters.

A URI with an empty authority and a path that begins with two slashes is written without an
authority, and the path is then taken for one. This is the only way to lose a URI on the way through
its text (`parse_toString_iff`). Texts are bytes.
-/

namespace GrpcCore.Uri

open List

/-! ## Characters -/

/-- `absl::ascii_isalnum`. -/
def isAlnum (c : UInt8) : Bool :=
  (48 ≤ c.toNat && c.toNat ≤ 57) || (65 ≤ c.toNat && c.toNat ≤ 90) ||
    (97 ≤ c.toNat && c.toNat ≤ 122)

def isAlpha (c : UInt8) : Bool := (65 ≤ c.toNat && c.toNat ≤ 90) || (97 ≤ c.toNat && c.toNat ≤ 122)

def isSubDelimChar (c : UInt8) : Bool := c ∈ ascii "!$&'()*+,;="

def isUnreservedChar (c : UInt8) : Bool := isAlnum c || c ∈ ascii "-._~"

def isSchemeChar (c : UInt8) : Bool := isAlnum c || c ∈ ascii "+-."

def isAuthorityChar (c : UInt8) : Bool := isUnreservedChar c || isSubDelimChar c || c ∈ ascii ":[]@"

def isPChar (c : UInt8) : Bool := isUnreservedChar c || isSubDelimChar c || c ∈ ascii ":@"

def isPathChar (c : UInt8) : Bool := isPChar c || c == 0x2f

def isQueryOrFragmentChar (c : UInt8) : Bool := isPChar c || c == 0x2f || c == 0x3f

def isQueryKeyOrValueChar (c : UInt8) : Bool := c != 0x26 && c != 0x3d && isQueryOrFragmentChar c

def isQueryOrFragmentString (s : Bytes) : Bool := s.all fun c =>
    isQueryOrFragmentChar c || c == 0x25

/-! ## Percent encoding -/

def hexDigit (n : Nat) : UInt8 := UInt8.ofNat (if n < 10 then 48 + n else 55 + n)

def hexValue (c : UInt8) : Option Nat :=
  if 48 ≤ c.toNat ∧ c.toNat ≤ 57 then some (c.toNat - 48)
  else if 65 ≤ c.toNat ∧ c.toNat ≤ 70 then some (c.toNat - 55)
  else if 97 ≤ c.toNat ∧ c.toNat ≤ 102 then some (c.toNat - 87)
  else none

/-- A character, encoded if it is not allowed. -/
def encodeChar (isAllowedChar : UInt8 → Bool) (c : UInt8) : Bytes :=
  if isAllowedChar c then [c] else [0x25, hexDigit (c.toNat / 16), hexDigit (c.toNat % 16)]

def percentEncode (isAllowedChar : UInt8 → Bool) (s : Bytes) : Bytes :=
  s.flatMap (encodeChar isAllowedChar)

/-- The character of a valid triplet. `CUnescape` takes the hexadecimal digits after `\x`, and its
result has one character only if both are digits. -/
def unescape (a b : UInt8) : Option UInt8 :=
  (hexValue a).bind fun x => (hexValue b).map fun y => UInt8.ofNat (16 * x + y)

def percentDecode : Bytes → Bytes
  | c :: a :: b :: s =>
    if c = 0x25 then
      match unescape a b with
      | some d => d :: percentDecode s
      | none => c :: percentDecode (a :: b :: s)
    else c :: percentDecode (a :: b :: s)
  | s => s

/-! ## `Parse` -/

structure QueryParam where
  key : Bytes
  value : Bytes
  deriving DecidableEq

/-- `URI`. The map of the query parameters is computed from their list. -/
structure URI where
  scheme : Bytes
  authority : Bytes
  path : Bytes
  queryParameterPairs : List QueryParam
  fragment : Bytes
  deriving DecidableEq

def makeInvalidURIStatus (partName : String) (uri : Bytes) (extra : String) : Bytes :=
  ascii "Could not parse '" ++ ascii partName ++ ascii "' from uri '" ++ uri ++ ascii "'. " ++
    ascii extra

/-- The text before the first of the characters, and the text from there on. -/
def splitBefore (stops s : Bytes) : Bytes × Bytes :=
  (s.takeWhile (· ∉ stops), s.dropWhile (· ∉ stops))

/-- Parse the scheme; also the text after the colon. -/
def parseScheme (uriText : Bytes) : Except Bytes (Bytes × Bytes) :=
  match splitBefore [0x3a] uriText with
  | (_, []) | ([], _) => .error (makeInvalidURIStatus "scheme" uriText "Scheme not found.")
  | (c :: cs, _ :: remaining) =>
    if (c :: cs).all isSchemeChar = false then
      .error (makeInvalidURIStatus "scheme" uriText "Scheme contains invalid characters.")
    else if isAlpha c = false then
      .error (makeInvalidURIStatus "scheme" uriText
        "Scheme must begin with an alpha character [A-Za-z].")
    else .ok (c :: cs, remaining)

/-- Parse the authority, after two slashes. -/
def parseAuthority : Bytes → Bytes × Bytes
  | 0x2f :: 0x2f :: remaining =>
    let (authority, remaining) := splitBefore [0x2f, 0x3f, 0x23] remaining
    (percentDecode authority, remaining)
  | remaining => ([], remaining)

def parsePath (remaining : Bytes) : Bytes × Bytes :=
  let (path, remaining) := splitBefore [0x3f, 0x23] remaining
  (percentDecode path, remaining)

/-- Parse one of the query parameters; one without a key is left out. -/
def parseQueryParam (param : Bytes) : Option QueryParam :=
  match splitBefore [0x3d] param with
  | ([], _) => none
  | (key, value) => some ⟨percentDecode key, percentDecode (value.drop 1)⟩

/-- Parse the query, after a question mark. -/
def parseQuery (uriText : Bytes) : Bytes → Except Bytes (List QueryParam × Bytes)
  | 0x3f :: remaining =>
    let (tmpQuery, remaining) := splitBefore [0x23] remaining
    if tmpQuery = [] then .error (makeInvalidURIStatus "query" uriText "Invalid query string.")
    else if isQueryOrFragmentString tmpQuery = false then
      .error (makeInvalidURIStatus "query string" uriText
        "Query string contains invalid characters.")
    else .ok ((tmpQuery.splitOn 0x26).filterMap parseQueryParam, remaining)
  | remaining => .ok ([], remaining)

/-- Parse the fragment, after a number sign. -/
def parseFragment (uriText : Bytes) : Bytes → Except Bytes Bytes
  | 0x23 :: remaining =>
    if isQueryOrFragmentString remaining = false then
      .error (makeInvalidURIStatus "fragment" uriText "Fragment contains invalid characters.")
    else .ok (percentDecode remaining)
  | _ => .ok []

def parse (uriText : Bytes) : Except Bytes URI := do
  let (scheme, remaining) ← parseScheme uriText
  let (authority, remaining) := parseAuthority remaining
  let (path, remaining) := parsePath remaining
  let (queryParameterPairs, remaining) ← parseQuery uriText remaining
  let fragment ← parseFragment uriText remaining
  return { scheme, authority, path, queryParameterPairs, fragment }

/-! ## `ToString` -/

/-- `QueryParameterFormatter`. -/
def formatQueryParam (q : QueryParam) : Bytes :=
  percentEncode isQueryKeyOrValueChar q.key ++ 0x3d :: percentEncode isQueryKeyOrValueChar q.value

def joinQueryParams (qs : List QueryParam) : Bytes := [0x26].intercalate (qs.map formatQueryParam)

namespace URI

def authorityText (u : URI) : Bytes :=
  if u.authority = [] then [] else 0x2f :: 0x2f :: percentEncode isAuthorityChar u.authority

def queryText (u : URI) : Bytes :=
  if u.queryParameterPairs = [] then []
  else 0x3f :: joinQueryParams u.queryParameterPairs

def fragmentText (u : URI) : Bytes :=
  if u.fragment = [] then [] else 0x23 :: percentEncode isQueryOrFragmentChar u.fragment

def toString (u : URI) : Bytes :=
  percentEncode isSchemeChar u.scheme ++ 0x3a ::
    (u.authorityText ++ (percentEncode isPathChar u.path ++ (u.queryText ++ u.fragmentText)))

end URI

/-! ## Percent encoding, read back -/

theorem isAlnum_hexDigit : ∀ n < 16, isAlnum (hexDigit n) = true := by decide

theorem hexValue_hexDigit : ∀ n < 16, hexValue (hexDigit n) = some n := by decide

theorem unescape_hexDigit (c : UInt8) :
    unescape (hexDigit (c.toNat / 16)) (hexDigit (c.toNat % 16)) = some c := by
  have hc := c.toNat_lt
  have hvalue : 16 * (c.toNat / 16) + c.toNat % 16 = c.toNat := by omega
  rw [unescape, hexValue_hexDigit (c.toNat / 16) (by omega), Option.bind_some,
    hexValue_hexDigit (c.toNat % 16) (by omega), Option.map_some, hvalue, UInt8.ofNat_toNat]

/-- What each of the sets of allowed characters has: the digits of an encoded character are allowed,
the percent sign is not. -/
structure Encodable (isAllowedChar : UInt8 → Bool) : Prop where
  alnum : ∀ c, isAlnum c = true → isAllowedChar c = true
  percent : isAllowedChar 0x25 = false

theorem encodable_authority : Encodable isAuthorityChar :=
  ⟨fun c hc => by simp [isAuthorityChar, isUnreservedChar, hc], by decide⟩

theorem encodable_path : Encodable isPathChar :=
  ⟨fun c hc => by simp [isPathChar, isPChar, isUnreservedChar, hc], by decide⟩

theorem encodable_fragment : Encodable isQueryOrFragmentChar :=
  ⟨fun c hc => by simp [isQueryOrFragmentChar, isPChar, isUnreservedChar, hc], by decide⟩

theorem encodable_query : Encodable isQueryKeyOrValueChar := by
  refine ⟨fun c hc => ?_, by decide⟩
  have hne : c ≠ 0x26 ∧ c ≠ 0x3d := by
    constructor <;> rintro rfl <;> exact absurd hc (by decide)
  simp [isQueryKeyOrValueChar, encodable_fragment.alnum c hc, hne]

theorem percentDecode_cons_of_ne {c : UInt8} (h : c ≠ 0x25) (s : Bytes) :
    percentDecode (c :: s) = c :: percentDecode s := by
  match s with
  | [] => rfl
  | [_] => rfl
  | _ :: _ :: _ => simp only [percentDecode, if_neg h]

theorem percentDecode_ne_nil {s : Bytes} (h : s ≠ []) : percentDecode s ≠ [] := by
  match s with
  | [_] => simp [percentDecode]
  | [_, _] => simp [percentDecode]
  | c :: a :: b :: s =>
    simp only [percentDecode]
    split
    · split <;> simp
    · simp

section Encode

variable {allowed : UInt8 → Bool} (henc : Encodable allowed)
include henc

theorem percentDecode_encodeChar (c : UInt8) (s : Bytes) :
    percentDecode (encodeChar allowed c ++ s) = c :: percentDecode s := by
  by_cases hc : allowed c = true
  · have hne : c ≠ 0x25 := by rintro rfl; simp [henc.percent] at hc
    simpa [encodeChar, hc] using percentDecode_cons_of_ne hne s
  · simp [encodeChar, hc, percentDecode, unescape_hexDigit]

theorem percentDecode_percentEncode (s : Bytes) : percentDecode (percentEncode allowed s) = s := by
  induction s with
  | nil => rfl
  | cons c s ih =>
    rw [percentEncode, flatMap_cons, percentDecode_encodeChar henc]
    exact congrArg (c :: ·) ih

theorem mem_percentEncode {s : Bytes} {c : UInt8} (h : c ∈ percentEncode allowed s) :
    allowed c = true ∨ c = 0x25 := by
  obtain ⟨d, -, hd⟩ := mem_flatMap.1 h
  by_cases had : allowed d = true
  · simp only [encodeChar, had, if_true, mem_singleton] at hd
    exact .inl (hd ▸ had)
  · have hlt := d.toNat_lt
    simp only [encodeChar, had, Bool.false_eq_true, if_false, mem_cons, not_mem_nil,
      or_false] at hd
    obtain rfl | rfl | rfl := hd
    · exact .inr rfl
    · exact .inl (henc.alnum _ (isAlnum_hexDigit _ (by omega)))
    · exact .inl (henc.alnum _ (isAlnum_hexDigit _ (by omega)))

theorem notMem_percentEncode {s : Bytes} {c : UInt8} (hc : allowed c = false) (hne : c ≠ 0x25) :
    c ∉ percentEncode allowed s := by
  intro hmem
  obtain h | h := mem_percentEncode henc hmem
  · simp [hc] at h
  · exact hne h

theorem percentEncode_avoids (stops : Bytes)
    (hstops : (stops.all fun c => !allowed c && c != 0x25) = true) (s : Bytes) :
    ∀ c ∈ percentEncode allowed s, c ∉ stops := by
  intro c hc hstop
  have hdelimiter := all_eq_true.1 hstops c hstop
  simp only [Bool.and_eq_true, Bool.not_eq_true', bne_iff_ne] at hdelimiter
  exact notMem_percentEncode henc hdelimiter.1 hdelimiter.2 hc

end Encode

theorem percentEncode_of_all {allowed : UInt8 → Bool} {s : Bytes} (h : s.all allowed = true) :
    percentEncode allowed s = s := by
  induction s with
  | nil => rfl
  | cons c s ih =>
    rw [all_cons, Bool.and_eq_true] at h
    rw [percentEncode, flatMap_cons, encodeChar, if_pos h.1]
    exact congrArg (c :: ·) (ih h.2)

/-! ## Splitting, undone -/

theorem splitBefore_append {stops a b : Bytes} (ha : ∀ c ∈ a, c ∉ stops)
    (hb : ∀ c ∈ b.head?, c ∈ stops) : splitBefore stops (a ++ b) = (a, b) := by
  have hstop : ∀ c ∈ a, decide (c ∉ stops) = true := fun c hc => by simpa using ha c hc
  rw [splitBefore, takeWhile_append_of_pos hstop, dropWhile_append_of_pos hstop]
  match b with
  | [] => simp
  | c :: b =>
    have hc : c ∈ stops := hb c rfl
    simp [hc]

theorem splitBefore_spec {stops s a b : Bytes} (h : splitBefore stops s = (a, b)) :
    s = a ++ b ∧ (∀ c ∈ a, c ∉ stops) ∧ ∀ c ∈ b.head?, c ∈ stops := by
  rw [splitBefore, Prod.mk.injEq] at h
  obtain ⟨rfl, rfl⟩ := h
  refine ⟨(takeWhile_append_dropWhile ..).symm, fun c hc => ?_, fun c hc => ?_⟩
  · simpa using mem_takeWhile_imp hc
  · have hhead := head?_dropWhile_not (fun c => decide (c ∉ stops)) s
    rw [Option.mem_def.1 hc] at hhead
    simpa using hhead

theorem mem_intercalate {x c : UInt8} {ls : List Bytes} (h : c ∈ [x].intercalate ls) :
    c = x ∨ ∃ l ∈ ls, c ∈ l := by
  induction ls with
  | nil => simp at h
  | cons l ls ih =>
    match ls with
    | [] => exact .inr ⟨l, mem_cons_self, by simpa using h⟩
    | l' :: ls =>
      rw [intercalate_cons_cons, mem_append, mem_append, mem_singleton] at h
      obtain (h | h) | h := h
      · exact .inr ⟨l, mem_cons_self, h⟩
      · exact .inl h
      · exact (ih h).imp_right fun ⟨m, hm, hc⟩ => ⟨m, mem_cons_of_mem _ hm, hc⟩

/-! ## What `Parse` returns -/

def IsScheme (s : Bytes) : Prop := s.all isSchemeChar = true ∧ ∃ c ∈ s.head?, isAlpha c = true

/-- What holds of a URI that `Parse` returns. After an authority the path begins with a slash, as
`Create` demands. -/
structure URI.WellFormed (u : URI) : Prop where
  scheme : IsScheme u.scheme
  path : u.authority ≠ [] → ∀ c ∈ u.path.head?, c = 0x2f
  keys : ∀ q ∈ u.queryParameterPairs, q.key ≠ []

theorem parse_eq_ok_iff {t : Bytes} {u : URI} :
    parse t = .ok u ↔ ∃ afterScheme afterAuthority afterPath afterQuery,
      parseScheme t = .ok (u.scheme, afterScheme) ∧
      parseAuthority afterScheme = (u.authority, afterAuthority) ∧
      parsePath afterAuthority = (u.path, afterPath) ∧
      parseQuery t afterPath = .ok (u.queryParameterPairs, afterQuery) ∧
      parseFragment t afterQuery = .ok u.fragment := by
  constructor
  · intro h
    simp only [parse, bind, Except.bind, pure, Except.pure] at h
    split at h
    · cases h
    rename_i sr hscheme
    split at h
    · cases h
    rename_i qr hquery
    split at h
    · cases h
    rename_i f hfragment
    cases h
    exact ⟨_, _, _, _, hscheme, rfl, rfl, hquery, hfragment⟩
  · rintro ⟨r₁, r₂, r₃, r₄, hscheme, hauthority, hpath, hquery, hfragment⟩
    simp only [parse, bind, Except.bind, pure, Except.pure, hscheme, hauthority, hpath, hquery,
      hfragment]

theorem isScheme_of_parseScheme {t s r : Bytes} (h : parseScheme t = .ok (s, r)) : IsScheme s := by
  unfold parseScheme at h
  split at h
  · cases h
  · cases h
  · split at h
    · cases h
    rename_i hchars
    split at h
    · cases h
    rename_i c cs _ _ _ halpha
    cases h
    exact ⟨by simpa using hchars, c, rfl, by simpa using halpha⟩

theorem head?_of_parseAuthority {t a r : Bytes} (h : parseAuthority t = (a, r)) (ha : a ≠ []) :
    ∀ c ∈ r.head?, c ∈ [0x2f, 0x3f, 0x23] := by
  unfold parseAuthority at h
  split at h
  · cases h
    exact (splitBefore_spec rfl).2.2
  · cases h
    exact absurd rfl ha

theorem head?_of_parsePath {t p r : Bytes} (h : parsePath t = (p, r))
    (ht : ∀ c ∈ t.head?, c ∈ [0x2f, 0x3f, 0x23]) : ∀ c ∈ p.head?, c = 0x2f := by
  rcases hraw : splitBefore [0x3f, 0x23] t with ⟨raw, rest⟩
  obtain ⟨rfl, hbefore, -⟩ := splitBefore_spec hraw
  simp only [parsePath, hraw, Prod.mk.injEq] at h
  obtain ⟨rfl, -⟩ := h
  match raw with
  | [] => simp [percentDecode]
  | c :: raw =>
    have hstop := ht c rfl
    have hnot := hbefore c mem_cons_self
    have hc : c = 0x2f := by
      simp only [mem_cons, not_mem_nil, or_false] at hstop hnot
      exact hstop.resolve_right hnot
    subst hc
    rw [percentDecode_cons_of_ne (by decide)]
    simp

theorem key_ne_nil_of_parseQueryParam {t : Bytes} {q : QueryParam}
    (h : parseQueryParam t = some q) : q.key ≠ [] := by
  unfold parseQueryParam at h
  split at h
  · cases h
  · rename_i key value hkey _
    cases h
    exact percentDecode_ne_nil hkey

theorem keys_of_parseQuery {t s r : Bytes} {qs : List QueryParam}
    (h : parseQuery t s = .ok (qs, r)) : ∀ q ∈ qs, q.key ≠ [] := by
  unfold parseQuery at h
  split at h
  · dsimp only at h
    split at h
    · cases h
    split at h
    · cases h
    cases h
    intro q hq
    obtain ⟨param, -, hparam⟩ := mem_filterMap.1 hq
    exact key_ne_nil_of_parseQueryParam hparam
  · cases h
    simp

theorem parse_wellFormed {t : Bytes} {u : URI} (h : parse t = .ok u) : u.WellFormed := by
  obtain ⟨_, _, _, _, hscheme, hauthority, hpath, hquery, -⟩ := parse_eq_ok_iff.1 h
  exact {
    scheme := isScheme_of_parseScheme hscheme
    path := fun ha => head?_of_parsePath hpath (head?_of_parseAuthority hauthority ha)
    keys := keys_of_parseQuery hquery }

/-! ## What `ToString` writes, read back -/

theorem parseScheme_append {s : Bytes} (h : IsScheme s) (r : Bytes) :
    parseScheme (s ++ 0x3a :: r) = .ok (s, r) := by
  obtain ⟨hchars, c, hc, halpha⟩ := h
  have hcolon : ∀ c ∈ s, c ∉ [(0x3a : UInt8)] := by
    intro c hc hmem
    rw [mem_singleton.1 hmem] at hc
    exact absurd (all_eq_true.1 hchars _ hc) (by decide)
  rw [parseScheme, splitBefore_append hcolon (by simp)]
  match s with
  | c :: s =>
    cases hc
    simp [hchars, halpha]

theorem parseAuthority_of_not_prefix {t : Bytes} (h : ¬ [0x2f, 0x2f] <+: t) :
    parseAuthority t = ([], t) := by
  unfold parseAuthority
  split
  · exact absurd (prefix_append [0x2f, 0x2f] _) h
  · rfl

theorem parseAuthority_written {a r : Bytes} (hr : ∀ c ∈ r.head?, c ∈ [0x2f, 0x3f, 0x23]) :
    parseAuthority (0x2f :: 0x2f :: (percentEncode isAuthorityChar a ++ r)) = (a, r) := by
  have havoid := percentEncode_avoids encodable_authority [0x2f, 0x3f, 0x23] (by decide) a
  simp only [parseAuthority, splitBefore_append havoid hr,
    percentDecode_percentEncode encodable_authority]

theorem parsePath_written {p r : Bytes} (hr : ∀ c ∈ r.head?, c ∈ [0x3f, 0x23]) :
    parsePath (percentEncode isPathChar p ++ r) = (p, r) := by
  have havoid := percentEncode_avoids encodable_path [0x3f, 0x23] (by decide) p
  simp only [parsePath, splitBefore_append havoid hr, percentDecode_percentEncode encodable_path]

theorem parseQueryParam_written {q : QueryParam} (hkey : q.key ≠ []) :
    parseQueryParam (formatQueryParam q) = some q := by
  have havoid := percentEncode_avoids encodable_query [0x3d] (by decide) q.key
  have hne : percentEncode isQueryKeyOrValueChar q.key ≠ [] := by
    intro hnil
    have := percentDecode_percentEncode encodable_query q.key
    rw [hnil] at this
    exact hkey this.symm
  rw [parseQueryParam, formatQueryParam, splitBefore_append havoid (by simp)]
  split
  · rename_i heq
    exact absurd (congrArg Prod.fst heq) hne
  · rename_i heq
    cases heq
    simp [percentDecode_percentEncode encodable_query]

theorem mem_formatQueryParam {q : QueryParam} {c : UInt8} (h : c ∈ formatQueryParam q) :
    isQueryKeyOrValueChar c = true ∨ c = 0x25 ∨ c = 0x3d := by
  rw [formatQueryParam, mem_append, mem_cons] at h
  obtain h | h | h := h
  · exact (mem_percentEncode encodable_query h).imp_right .inl
  · exact .inr (.inr h)
  · exact (mem_percentEncode encodable_query h).imp_right .inl

theorem head?_fragmentText (u : URI) : ∀ c ∈ u.fragmentText.head?, c = 0x23 := by
  unfold URI.fragmentText
  split <;> simp

theorem head?_queryText (u : URI) : ∀ c ∈ (u.queryText ++ u.fragmentText).head?,
    c ∈ [0x3f, 0x23] := by
  unfold URI.queryText
  split
  · simpa using fun c hc => Or.inr (head?_fragmentText u c hc)
  · simp

section Query

variable (qs : List QueryParam)

theorem mem_joinQueryParams {c : UInt8} (h : c ∈ joinQueryParams qs) :
    isQueryOrFragmentChar c = true ∨ c = 0x25 := by
  obtain rfl | ⟨l, hl, hc⟩ := mem_intercalate h
  · exact .inl (by decide)
  · obtain ⟨q, -, rfl⟩ := mem_map.1 hl
    obtain hallowed | rfl | rfl := mem_formatQueryParam hc
    · simp only [isQueryKeyOrValueChar, Bool.and_eq_true] at hallowed
      exact .inl hallowed.2
    · exact .inr rfl
    · exact .inl (by decide)

theorem splitOn_joinQueryParams (hne : qs ≠ []) :
    (joinQueryParams qs).splitOn 0x26 = qs.map formatQueryParam := by
  refine splitOn_intercalate 0x26 ?_ (by simpa using hne)
  intro l hl hmem
  obtain ⟨q, -, rfl⟩ := mem_map.1 hl
  exact absurd (mem_formatQueryParam hmem) (by decide)

theorem joinQueryParams_ne_nil (hne : qs ≠ []) : joinQueryParams qs ≠ [] := by
  intro hnil
  have hsplit := splitOn_joinQueryParams qs hne
  rw [hnil] at hsplit
  have hmem : ([] : Bytes) ∈ qs.map formatQueryParam := by rw [← hsplit]; simp
  obtain ⟨q, -, hq⟩ := mem_map.1 hmem
  simp [formatQueryParam] at hq

theorem filterMap_parseQueryParam (hkeys : ∀ q ∈ qs, q.key ≠ []) :
    (qs.map formatQueryParam).filterMap parseQueryParam = qs := by
  rw [filterMap_map]
  refine (filterMap_congr fun q hq => ?_).trans filterMap_some
  exact parseQueryParam_written (hkeys q hq)

end Query

theorem parseQuery_written (t : Bytes) {u : URI} (hkeys : ∀ q ∈ u.queryParameterPairs, q.key ≠ []) :
    parseQuery t (u.queryText ++ u.fragmentText) = .ok (u.queryParameterPairs, u.fragmentText) := by
  have hhead := head?_fragmentText u
  by_cases hne : u.queryParameterPairs = []
  · rw [URI.queryText, if_pos hne, nil_append, hne]
    unfold parseQuery
    split
    · rename_i heq
      rw [heq] at hhead
      exact absurd (hhead _ rfl) (by decide)
    · rfl
  · have hchars : isQueryOrFragmentString (joinQueryParams u.queryParameterPairs) = true := by
      rw [isQueryOrFragmentString, all_eq_true]
      intro c hc
      simpa using mem_joinQueryParams _ hc
    have havoid : ∀ c ∈ joinQueryParams u.queryParameterPairs, c ∉ [(0x23 : UInt8)] := by
      intro c hc hmem
      rw [mem_singleton.1 hmem] at hc
      exact absurd (mem_joinQueryParams _ hc) (by decide)
    rw [URI.queryText, if_neg hne, cons_append]
    simp only [parseQuery]
    rw [splitBefore_append havoid (by simpa using hhead)]
    simp [joinQueryParams_ne_nil _ hne, hchars, splitOn_joinQueryParams _ hne,
      filterMap_parseQueryParam _ hkeys]

theorem parseFragment_written (t : Bytes) (u : URI) :
    parseFragment t u.fragmentText = .ok u.fragment := by
  by_cases hnil : u.fragment = []
  · rw [URI.fragmentText, if_pos hnil, hnil]
    rfl
  · have hchars : isQueryOrFragmentString (percentEncode isQueryOrFragmentChar u.fragment) =
        true := by
      rw [isQueryOrFragmentString, all_eq_true]
      intro c hc
      simpa using mem_percentEncode encodable_fragment hc
    rw [URI.fragmentText, if_neg hnil]
    simp [parseFragment, hchars, percentDecode_percentEncode encodable_fragment]

theorem parse_written {u : URI} (hu : u.WellFormed) {t a p : Bytes}
    (h : parseAuthority t = (a, percentEncode isPathChar p ++ (u.queryText ++ u.fragmentText))) :
    parse (percentEncode isSchemeChar u.scheme ++ 0x3a :: t) =
      .ok { u with authority := a, path := p } := by
  rw [percentEncode_of_all hu.scheme.1]
  exact parse_eq_ok_iff.2 ⟨_, _, _, _, parseScheme_append hu.scheme t, h,
    parsePath_written (head?_queryText u), parseQuery_written _ hu.keys, parseFragment_written _ u⟩

theorem encodeChar_slash : encodeChar isPathChar 0x2f = [0x2f] := by decide

theorem cons_append_encodeChar_iff {c : UInt8} {s r : Bytes} :
    [0x2f] ++ s = encodeChar isPathChar c ++ r ↔ c = 0x2f ∧ s = r := by
  by_cases hc : c = 0x2f
  · subst hc
    simp [encodeChar_slash]
  · by_cases hallowed : isPathChar c = true
    · simp [encodeChar, hallowed, hc, eq_comm]
    · simp [encodeChar, hallowed, hc]

/-- The path begins with two slashes if its text does. -/
theorem prefix_of_prefix_percentEncode {p r : Bytes} (hr : ∀ c ∈ r.head?, c ∈ [0x3f, 0x23])
    (h : [0x2f, 0x2f] <+: percentEncode isPathChar p ++ r) : [0x2f, 0x2f] <+: p := by
  obtain ⟨s, hs⟩ := h
  have hslash : ∀ s : Bytes, [0x2f] ++ s ≠ r := by
    rintro s rfl
    exact absurd (hr 0x2f rfl) (by decide)
  match p with
  | [] => exact absurd hs (hslash _)
  | [c] =>
    rw [percentEncode, flatMap_cons, append_assoc] at hs
    exact absurd (cons_append_encodeChar_iff.1 hs).2 (hslash s)
  | c :: d :: p =>
    rw [percentEncode, flatMap_cons, flatMap_cons, append_assoc,
      append_assoc] at hs
    obtain ⟨rfl, htail⟩ := cons_append_encodeChar_iff.1 hs
    obtain ⟨rfl, -⟩ := cons_append_encodeChar_iff.1 htail
    exact prefix_append [0x2f, 0x2f] p

section RoundTrip

variable {u : URI}

theorem parse_toString_of_authority (hu : u.WellFormed) (ha : u.authority ≠ []) :
    parse u.toString = .ok u := by
  rw [URI.toString, URI.authorityText, if_neg ha]
  refine parse_written hu (parseAuthority_written fun c hc => ?_)
  have hpath := hu.path ha
  match hp : u.path with
  | [] =>
    rw [hp] at hc
    exact mem_cons_of_mem _ (head?_queryText u c hc)
  | d :: p =>
    obtain rfl : d = 0x2f := hpath d (by rw [hp]; rfl)
    rw [hp, percentEncode, flatMap_cons, encodeChar_slash] at hc
    cases hc
    exact mem_cons_self

theorem parse_toString_of_not_prefix (hu : u.WellFormed) (ha : u.authority = [])
    (hslash : ¬ [0x2f, 0x2f] <+: u.path) : parse u.toString = .ok u := by
  rw [URI.toString, URI.authorityText, if_pos ha, nil_append]
  have hpath := parseAuthority_of_not_prefix
    (mt (prefix_of_prefix_percentEncode (head?_queryText u)) hslash)
  rw [parse_written hu hpath, ← ha]

/-- With two slashes in front, the path is taken for an authority; if that is empty again, the path
has lost the two slashes. -/
theorem parse_toString_ne_of_prefix (hu : u.WellFormed) (ha : u.authority = [])
    (hslash : [0x2f, 0x2f] <+: u.path) : parse u.toString ≠ .ok u := by
  intro h
  obtain ⟨p, hp⟩ := hslash
  obtain ⟨r₁, r₂, r₃, r₄, hscheme, hauthority, hpath, -, -⟩ := parse_eq_ok_iff.1 h
  have htext : u.toString = u.scheme ++ 0x3a :: 0x2f :: 0x2f ::
      (percentEncode isPathChar p ++ (u.queryText ++ u.fragmentText)) := by
    rw [URI.toString, URI.authorityText, if_pos ha, percentEncode_of_all hu.scheme.1, ← hp]
    rfl
  rw [htext, parseScheme_append hu.scheme] at hscheme
  cases hscheme
  rcases hraw : splitBefore [0x2f, 0x3f, 0x23]
    (percentEncode isPathChar p ++ (u.queryText ++ u.fragmentText)) with ⟨raw, rest⟩
  simp only [parseAuthority, hraw, Prod.mk.injEq] at hauthority
  obtain ⟨hempty, rfl⟩ := hauthority
  have hnil : raw = [] := by
    by_contra hne
    exact percentDecode_ne_nil hne (hempty.trans ha)
  have hrest := (splitBefore_spec hraw).1
  rw [hnil, nil_append] at hrest
  rw [← hrest, parsePath_written (head?_queryText u)] at hpath
  have hlength := congrArg List.length (hp.trans (congrArg Prod.fst hpath).symm)
  simp at hlength
  omega

theorem URI.WellFormed.parse_iff (hu : u.WellFormed) :
    parse u.toString = .ok u ↔ ¬ (u.authority = [] ∧ [0x2f, 0x2f] <+: u.path) := by
  by_cases ha : u.authority = []
  · by_cases hslash : [0x2f, 0x2f] <+: u.path
    · simp [ha, hslash, parse_toString_ne_of_prefix hu ha hslash]
    · simp [hslash, parse_toString_of_not_prefix hu ha hslash]
  · simp [ha, parse_toString_of_authority hu ha]

/-- A URI that `Parse` has returned comes back from its text, unless its authority is empty and its
path begins with two slashes. -/
theorem parse_toString_iff {s : Bytes} (h : parse s = .ok u) :
    parse u.toString = .ok u ↔ ¬ (u.authority = [] ∧ [0x2f, 0x2f] <+: u.path) :=
  (parse_wellFormed h).parse_iff

end RoundTrip

/-- A URI with every component, and characters that are written encoded. -/
def sampleURI : URI where
  scheme := ascii "xds"
  authority := ascii "a/b"
  path := ascii "/p?"
  queryParameterPairs := [⟨ascii "k=", ascii "v&"⟩, ⟨ascii "l", []⟩]
  fragment := ascii "#f"

theorem parse_toString_sampleURI :
    parse (ascii "xds://a%2fb/p%3F?k%3D=v%26&=m&l#%23f") = .ok sampleURI ∧
      parse sampleURI.toString = .ok sampleURI := by
  have hparse : parse (ascii "xds://a%2fb/p%3F?k%3D=v%26&=m&l#%23f") = .ok sampleURI := by decide
  exact ⟨hparse, (parse_toString_iff hparse).2 (by decide)⟩

/-- `x:////a` has an empty authority and the path `//a`. Its text is `x://a`, with the authority `a`
and an empty path. -/
theorem parse_toString_loses_path :
    ∃ u, parse (ascii "x:////a") = .ok u ∧ u.authority = [] ∧ u.path = ascii "//a" ∧
      u.toString = ascii "x://a" ∧
      parse u.toString = .ok { u with authority := ascii "a", path := [] } ∧
      parse u.toString ≠ .ok u :=
  ⟨⟨ascii "x", [], ascii "//a", [], []⟩, by decide⟩

/-! ## URIs from components -/

/-- `URI::Create`. -/
def create (scheme authority path : Bytes) (queryParameterPairs : List QueryParam)
    (fragment : Bytes) : Except Bytes URI :=
  if authority ≠ [] ∧ path ≠ [] ∧ path.head? ≠ some 0x2f then
    .error (ascii "if authority is present, path must start with a '/'")
  else .ok ⟨scheme, authority, path, queryParameterPairs, fragment⟩

/-- `Create` does not look at the scheme and the keys: whatever the components are, a URI that it
has made comes back from its text exactly if `Parse` accepts the scheme, no key is empty, and the
path is not taken for an authority. -/
theorem parse_toString_create_iff {scheme authority path fragment : Bytes}
    {params : List QueryParam} {u : URI}
    (h : create scheme authority path params fragment = .ok u) :
    parse u.toString = .ok u ↔ IsScheme scheme ∧ (∀ q ∈ params, q.key ≠ []) ∧
      ¬ (authority = [] ∧ [0x2f, 0x2f] <+: path) := by
  unfold create at h
  split_ifs at h with hslash
  obtain rfl := Except.ok.inj h
  constructor
  · intro hparse
    have hu := parse_wellFormed hparse
    exact ⟨hu.scheme, hu.keys, hu.parse_iff.1 hparse⟩
  · rintro ⟨hscheme, hkeys, hpath⟩
    have hu : URI.WellFormed ⟨scheme, authority, path, params, fragment⟩ := by
      refine ⟨hscheme, fun ha c hc => ?_, hkeys⟩
      by_contra hne
      refine hslash ⟨ha, ?_, ?_⟩
      · rintro rfl
        cases hc
      · rw [Option.mem_def.1 hc, ne_eq, Option.some.injEq]
        exact hne
    exact hu.parse_iff.2 hpath

theorem parse_toString_create_iff_percent : ∃ u,
    create (ascii "xds") (ascii "a/b") (ascii "/%") [⟨ascii "k", ascii "&"⟩] [] = .ok u ∧
      parse u.toString = .ok u := by
  have h : create (ascii "xds") (ascii "a/b") (ascii "/%") [⟨ascii "k", ascii "&"⟩] [] = .ok _ :=
    rfl
  exact ⟨_, h, (parse_toString_create_iff h).2
    ⟨⟨by decide, _, rfl, by decide⟩, by decide, by decide⟩⟩

end GrpcCore.Uri
