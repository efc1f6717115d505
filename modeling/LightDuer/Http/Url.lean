import LightDuer.Lib.Bytes
import LightDuer.Lib.Text

/-!
# Parsing a url

`http_client_parse_url` looks for each delimiter in all the rest of the url: the colon of the port
may be one of the path, and the fragment may begin before the path does. Then the path has a
negative length, and where that is minus one the check of its size wraps. Of a relative url the
fragment is looked for in the host, which is not there.

## The function

The source keeps pointers into the url and computes lengths as their differences. Here they are
positions, `strchr` and `strstr` give them, and a difference is taken in the type the source has for
it: the length of the path is an `int` that is compared with a `size_t`, so -1 becomes the largest
size, passes the check with one added, and is copied. `CStr` is a string that an `int` can hold the
size of, which is what the caller allocates the path by.

## Two questions

Memory: `parseUrl_safe_iff` says for every url, flag and earlier parts when the parser searches
`NULL` or copies past the end of a buffer.

Meaning: a `Url` is given by its components, with the conditions that make its text have only one
reading; `parse_eq` says what the parser makes of such a text, and `parse_correct_iff` that these
are the components exactly where the first colon behind the scheme is that of the port. The two
together are the condition of the claim: not relative, no fragment right before the path, no other
colon.
-/

set_option autoImplicit false

namespace LightDuer
namespace Http

open Lib

/-! ## The function -/

/-- `HC_SCHEME_LEN_MAX` -/
def hcSchemeLenMax : Nat := 8
/-- `HC_HOST_LEN_MAX` -/
def hcHostLenMax : Nat := 255

/-- What a url is parsed into. -/
structure UrlParts where
  scheme : List UInt8
  host : List UInt8
  port : Nat
  path : List UInt8
deriving DecidableEq, Repr

inductive UrlResult where
  | ok | parse
  /-- a search in a string that is `NULL` -/
  | nullPointer
  /-- a copy past the end of a buffer -/
  | outside
deriving DecidableEq, Repr

/-- `memmove` of a number of octets to a buffer of `size` octets, and the NUL behind them. -/
def copyString (size : Nat) (src : List UInt8) (count : Nat) : Option (List UInt8) :=
  if count + 1 ≤ size then some (src.take count) else none

/-- `://` -/
def schemeEnd : List UInt8 := [58, 47, 47]

/-- The path, which begins at an offset in the host, up to the fragment. -/
def parsePath (host : Option (List UInt8)) (path pathLen : Nat) (parts : UrlParts) :
    UrlResult × UrlParts :=
  match host with
  | none => (.nullPointer, parts)
  | some host =>
    let rPathLen :=
      match strchr 35 host with
      | some fragment => subU32 fragment path
      | none => host.length - path
    if pathLen < u32 (rPathLen + 1) then (.parse, parts)
    else
      match copyString pathLen (host.drop path) rPathLen with
      | none => (.outside, parts)
      | some path => (.ok, { parts with path })

/-- The port, and the place of its colon. -/
def parsePort (host : List UInt8) : Option (Nat × Nat) :=
  match strchr 58 host with
  | some colon => (scanShort (host.drop (colon + 1))).map (colon, ·)
  | none => some (0, 0)

/-- `http_client_parse_url`, with `path_len` the size of the buffer for the path. -/
def httpClientParseUrl (url : List UInt8) (pathLen : Nat) (isRelativeUrl : Bool)
    (parts : UrlParts) : UrlResult × UrlParts :=
  if isRelativeUrl then parsePath none 0 pathLen parts
  else
    match strstr schemeEnd url with
    | none => (.parse, parts)
    | some schemeLen =>
      if hcSchemeLenMax < schemeLen + 1 then (.parse, parts)
      else
        match copyString hcSchemeLenMax url schemeLen with
        | none => (.outside, parts)
        | some scheme =>
          let parts := { parts with scheme }
          let host := url.drop (schemeLen + 3)
          match parsePort host with
          | none => (.parse, parts)
          | some (rHostLen, port) =>
            let parts := { parts with port }
            match strchr 47 host with
            | none => (.parse, parts)
            | some path =>
              let rHostLen := if rHostLen = 0 then path else rHostLen
              if hcHostLenMax < rHostLen then (.parse, parts)
              else
                match copyString (hcHostLenMax + 1) host rHostLen with
                | none => (.outside, parts)
                | some hostName =>
                  parsePath (some host) path pathLen { parts with host := hostName }

/-- A string, as long as the `int` holds in which its size is kept. -/
structure CStr where
  text : List UInt8
  fits : text.length + 1 < 2 ^ 31

/-- The call of `http_client_connect`. -/
def parseUrl (url : CStr) (isRelativeUrl : Bool) (parts : UrlParts) : UrlResult × UrlParts :=
  httpClientParseUrl url.text (url.text.length + 1) isRelativeUrl parts

/-- No search in `NULL` and no copy past the end of a buffer. -/
def UrlResult.Safe (res : UrlResult) : Prop := res = .ok ∨ res = .parse

/-! ## Memory -/

/-- The length of the host, with the path at an offset in it. -/
def hostLen (host : List UInt8) (path : Nat) : Nat :=
  match strchr 58 host with
  | some 0 | none => path
  | some colon => colon

/-- A url whose scheme, port and host are accepted, and in which the first `#` behind the scheme
    stands right before the first `/`. -/
def FragmentBeforePath (url : List UInt8) : Prop :=
  ∃ schemeLen fragment, strstr schemeEnd url = some schemeLen ∧ schemeLen < hcSchemeLenMax ∧
    (parsePort (url.drop (schemeLen + 3))).isSome ∧
    strchr 35 (url.drop (schemeLen + 3)) = some fragment ∧
    strchr 47 (url.drop (schemeLen + 3)) = some (fragment + 1) ∧
    hostLen (url.drop (schemeLen + 3)) (fragment + 1) ≤ hcHostLenMax

theorem strchr_lt {b : UInt8} {s : List UInt8} {n : Nat} (h : strchr b s = some n) :
    n < s.length := by
  obtain ⟨before, after, rfl, -, rfl⟩ := strchr_parts h
  simp

theorem hostLen_of_parsePort {host : List UInt8} {rHostLen port path : Nat}
    (h : parsePort host = some (rHostLen, port)) :
    (if rHostLen = 0 then path else rHostLen) = hostLen host path := by
  rw [parsePort] at h
  rw [hostLen]
  cases hcolon : strchr 58 host with
  | none =>
    rw [hcolon] at h
    obtain ⟨rfl, -⟩ := Prod.mk.inj (Option.some.inj h)
    rfl
  | some colon =>
    rw [hcolon] at h
    obtain ⟨_, -, hsame⟩ := Option.map_eq_some_iff.mp h
    obtain ⟨rfl, -⟩ := Prod.mk.inj hsame
    cases colon with
    | zero => rfl
    | succ colon => rfl

/-- **The path** is copied out of its buffer if and only if its length is minus one. A length
    below that is a size that, with one added, is still too large, and is refused; minus one
    becomes zero. -/
theorem parsePath_safe_iff {host : List UInt8} {path pathLen : Nat} {parts : UrlParts}
    (hpath : path < host.length) (hsize : host.length + 1 ≤ pathLen) (hfits : pathLen < 2 ^ 31) :
    (parsePath (some host) path pathLen parts).1.Safe ↔
      ¬ ∃ fragment, strchr 35 host = some fragment ∧ path = fragment + 1 := by
  rw [parsePath]
  cases hfragment : strchr 35 host with
  | none =>
    simp only
    rw [u32_of_lt (by omega), if_neg (by omega), copyString, if_pos (by omega)]
    exact ⟨fun _ => by simp, fun _ => .inl rfl⟩
  | some fragment =>
    have hlt := strchr_lt hfragment
    simp only
    by_cases hle : path ≤ fragment
    · rw [subU32_of_le hle, u32_of_lt (by omega), if_neg (by omega), copyString, if_pos (by omega)]
      refine ⟨fun _ => ?_, fun _ => .inl rfl⟩
      rintro ⟨fragment', heq, rfl⟩
      obtain rfl := Option.some.inj heq
      omega
    · have hsub : subU32 fragment path = fragment + 2 ^ 32 - path := if_neg hle
      rw [hsub]
      by_cases hone : path = fragment + 1
      -- the length is minus one, and with the NUL it is zero
      · have hzero : u32 (fragment + 2 ^ 32 - path + 1) = 0 := by
          rw [u32, show fragment + 2 ^ 32 - path + 1 = 2 ^ 32 by omega, Nat.mod_self]
        rw [hzero, if_neg (by omega), copyString, if_neg (by omega)]
        refine iff_of_false ?_ fun hnot => hnot ⟨fragment, rfl, hone⟩
        rintro (h | h) <;> cases h
      · rw [u32_of_lt (by omega), if_pos (by omega)]
        refine ⟨fun _ => ?_, fun _ => .inr rfl⟩
        rintro ⟨fragment', heq, rfl⟩
        obtain rfl := Option.some.inj heq
        exact hone rfl

/-- **Memory safety**: no relative url, and no fragment right before the path. Nothing else goes
    wrong, for a text of any octets, also one that is no url at all. -/
theorem parseUrl_safe_iff (url : CStr) (isRelativeUrl : Bool) (parts : UrlParts) :
    (parseUrl url isRelativeUrl parts).1.Safe ↔
      isRelativeUrl = false ∧ ¬FragmentBeforePath url.text := by
  have hfits := url.fits
  rw [parseUrl, httpClientParseUrl]
  cases isRelativeUrl with
  | true =>
    refine iff_of_false ?_ (by simp)
    rintro (h | h) <;> cases h
  | false =>
    simp only [Bool.false_eq_true, if_false, true_and]
    have hsafe {p : UrlParts} (hnot : ¬FragmentBeforePath url.text) :
        ((.parse, p) : UrlResult × UrlParts).1.Safe ↔ ¬FragmentBeforePath url.text :=
      iff_of_true (.inr rfl) hnot
    cases hscheme : strstr schemeEnd url.text with
    | none =>
      refine hsafe ?_
      rintro ⟨n, f, hn, -⟩
      rw [hscheme] at hn
      cases hn
    | some schemeLen =>
      simp only
      have hunique {n : Nat} (hn : strstr schemeEnd url.text = some n) : n = schemeLen :=
        Option.some.inj (hn.symm.trans hscheme)
      split
      · refine hsafe ?_
        rintro ⟨n, f, hn, hlen, -⟩
        obtain rfl := hunique hn
        omega
      · rename_i hlen
        rw [copyString, if_pos (by omega)]
        simp only
        cases hport : parsePort (url.text.drop (schemeLen + 3)) with
        | none =>
          refine hsafe ?_
          rintro ⟨n, f, hn, -, hsome, -⟩
          obtain rfl := hunique hn
          rw [hport] at hsome
          cases hsome
        | some port =>
          obtain ⟨rHostLen, port⟩ := port
          simp only
          cases hpath : strchr 47 (url.text.drop (schemeLen + 3)) with
          | none =>
            refine hsafe ?_
            rintro ⟨n, f, hn, -, -, -, hslash, -⟩
            obtain rfl := hunique hn
            rw [hpath] at hslash
            cases hslash
          | some path =>
            simp only [hostLen_of_parsePort hport]
            split
            · refine hsafe ?_
              rintro ⟨n, f, hn, -, -, -, hslash, hle⟩
              obtain rfl := hunique hn
              obtain rfl := Option.some.inj (hpath.symm.trans hslash)
              omega
            · rename_i hle
              rw [copyString, if_pos (by omega)]
              simp only
              have hlt := strchr_lt hpath
              have hdrop : (url.text.drop (schemeLen + 3)).length ≤ url.text.length := by
                rw [List.length_drop]
                omega
              rw [parsePath_safe_iff hlt (by omega) hfits, not_iff_not]
              constructor
              · rintro ⟨f, hf, rfl⟩
                exact ⟨schemeLen, f, hscheme, by omega, by rw [hport]; rfl, hf, hpath, by omega⟩
              · rintro ⟨n, f, hn, -, -, hf, hslash, -⟩
                obtain rfl := hunique hn
                exact ⟨f, hf, Option.some.inj (hpath.symm.trans hslash)⟩

/-! ## Lengths -/

theorem copyString_length {size count : Nat} {src copy : List UInt8}
    (h : copyString size src count = some copy) : copy.length ≤ src.length := by
  rw [copyString] at h
  split at h
  · rw [← Option.some.inj h, List.length_take]
    exact Nat.min_le_right _ _
  · cases h

theorem parsePath_length {host : List UInt8} {path pathLen : Nat} {parts parts' : UrlParts}
    (h : parsePath (some host) path pathLen parts = (.ok, parts')) :
    parts'.path.length ≤ host.length := by
  rw [parsePath] at h
  generalize (match strchr 35 host with
    | some fragment => subU32 fragment path
    | none => host.length - path) = rPathLen at h
  by_cases hsmall : pathLen < u32 (rPathLen + 1)
  · rw [if_pos hsmall] at h
    cases h
  · rw [if_neg hsmall] at h
    cases hcopy : copyString pathLen (host.drop path) rPathLen with
    | none =>
      rw [hcopy] at h
      cases h
    | some path' =>
      rw [hcopy] at h
      obtain rfl := (Prod.mk.inj h).2
      refine Nat.le_trans (copyString_length hcopy) ?_
      rw [List.length_drop]
      exact Nat.sub_le _ _

/-- **The path of an absolute url** is shorter than the url. -/
theorem parseUrl_length {url : List UInt8} {pathLen : Nat} {parts parts' : UrlParts}
    (h : httpClientParseUrl url pathLen false parts = (.ok, parts')) :
    parts'.path.length < url.length := by
  rw [httpClientParseUrl, if_neg (by simp)] at h
  cases hscheme : strstr schemeEnd url with
  | none =>
    rw [hscheme] at h
    cases h
  | some schemeLen =>
    have hhost : (url.drop (schemeLen + 3)).length < url.length := by
      obtain ⟨before, after, rfl, rfl⟩ := strstr_parts hscheme
      simp only [schemeEnd, List.length_append, List.length_drop, List.length_cons, List.length_nil]
      omega
    rw [hscheme] at h
    simp only at h
    by_cases hlong : hcSchemeLenMax < schemeLen + 1
    · rw [if_pos hlong] at h
      cases h
    · rw [if_neg hlong] at h
      rcases hcopy : copyString hcSchemeLenMax url schemeLen with _ | scheme
      · rw [hcopy] at h
        cases h
      · rcases hport : parsePort (url.drop (schemeLen + 3)) with _ | ⟨rHostLen, port⟩
        · simp only [hcopy, hport] at h
          cases h
        · rcases hpath : strchr 47 (url.drop (schemeLen + 3)) with _ | path
          · simp only [hcopy, hport, hpath] at h
            cases h
          · simp only [hcopy, hport, hpath] at h
            generalize (if rHostLen = 0 then path else rHostLen) = len at h
            by_cases hlen : hcHostLenMax < len
            · rw [if_pos hlen] at h
              cases h
            · rw [if_neg hlen] at h
              rcases hname : copyString (hcHostLenMax + 1) (url.drop (schemeLen + 3)) len with
                _ | hostName
              · rw [hname] at h
                cases h
              · rw [hname] at h
                exact Nat.lt_of_le_of_lt (parsePath_length h) hhost

/-! ## Well-formed urls -/

/-- A url `scheme://host[:port]/path[?query][#fragment]`. The path is what is behind its slash,
    and the port is its numeral. -/
structure Url where
  scheme : List UInt8
  host : List UInt8
  port : Option (List UInt8)
  path : List UInt8
  query : Option (List UInt8)
  fragment : Option (List UInt8)
  scheme_len : scheme.length ≤ 7
  scheme_plain : ¬schemeEnd <:+: scheme
  host_len : host.length ≤ 255
  host_plain : 58 ∉ host ∧ 47 ∉ host ∧ 35 ∉ host
  port_numeral : ∀ ds ∈ port, IsNumeral decDigit? ds ∧ numeral decDigit? 10 ds < 2 ^ 16
  path_plain : 35 ∉ path
  query_plain : ∀ q ∈ query, 35 ∉ q

namespace Url

variable (u : Url)

def portText : List UInt8 := u.port.elim [] (58 :: ·)

/-- The path and the query, as a request names them. -/
def target : List UInt8 := 47 :: u.path ++ u.query.elim [] (63 :: ·)

def fragmentText : List UInt8 := u.fragment.elim [] (35 :: ·)

def text : List UInt8 :=
  u.scheme ++ schemeEnd ++ (u.host ++ u.portText ++ (u.target ++ u.fragmentText))

def parts : UrlParts where
  scheme := u.scheme
  host := u.host
  port := u.port.elim 0 (numeral decDigit? 10)
  path := u.target

/-- The first colon behind the scheme is that of the port, with a host before it, or there is
    none. -/
def ColonOfPort : Prop :=
  (u.port.isSome ∧ u.host ≠ []) ∨ (u.port = none ∧ 58 ∉ u.target ++ u.fragmentText)

variable {u}

theorem target_plain : 35 ∉ u.target := by
  have hquery := u.query_plain
  rw [target]
  cases hq : u.query with
  | none => simpa using u.path_plain
  | some q =>
    have := hquery q hq
    simp [u.path_plain, this]

end Url

/-- The end of the scheme does not begin inside it. -/
theorem strstr_schemeEnd {scheme : List UInt8} (h : ¬schemeEnd <:+: scheme) (rest : List UInt8) :
    strstr schemeEnd (scheme ++ schemeEnd ++ rest) = some scheme.length := by
  induction scheme with
  | nil => simp [strstr, schemeEnd]
  | cons b scheme ih =>
    have hrest : ¬schemeEnd <:+: scheme := fun hin =>
      h (hin.trans (List.suffix_cons b scheme).isInfix)
    have hfirst : ¬schemeEnd <+: b :: (scheme ++ schemeEnd ++ rest) := by
      intro hprefix
      -- it would reach into the real one, and a slash stands where that has its colon
      rcases scheme with _ | ⟨c, _ | ⟨d, scheme⟩⟩
      · simp [schemeEnd] at hprefix
      · simp [schemeEnd] at hprefix
      · simp only [schemeEnd, List.cons_append, List.cons_prefix_cons] at hprefix
        obtain ⟨rfl, rfl, rfl, -⟩ := hprefix
        exact h ⟨[], scheme, rfl⟩
    rw [List.cons_append, List.cons_append, strstr, if_neg hfirst, ih hrest, Option.map_some,
      List.length_cons]

namespace Url

variable {u : Url}

/-- What is behind the scheme. -/
def authority (u : Url) : List UInt8 := u.host ++ u.portText ++ (u.target ++ u.fragmentText)

theorem digit_plain {b c : UInt8} (hb : (decDigit? b).isSome) (hc : decDigit? c = none) :
    b ≠ c := by
  rintro rfl
  rw [hc] at hb
  cases hb

theorem portText_plain : 47 ∉ u.portText ∧ 35 ∉ u.portText := by
  have hnumeral := u.port_numeral
  rw [portText]
  cases hp : u.port with
  | none => simp
  | some ds =>
    have hds := (hnumeral ds hp).1.2
    refine ⟨fun hmem => ?_, fun hmem => ?_⟩
    · rcases List.mem_cons.mp hmem with h | h
      · cases h
      · exact digit_plain (hds 47 h) (by decide) rfl
    · rcases List.mem_cons.mp hmem with h | h
      · cases h
      · exact digit_plain (hds 35 h) (by decide) rfl

theorem strchr_slash : strchr 47 u.authority = some (u.host.length + u.portText.length) := by
  have hplain : 47 ∉ u.host ++ u.portText := by simp [u.host_plain.2.1, portText_plain.1]
  rw [authority, target, List.cons_append, List.cons_append, strchr_append_cons hplain,
    List.length_append]

/-- The path, from the slash on. -/
theorem parsePath_authority {pathLen : Nat} (hsize : u.authority.length + 1 ≤ pathLen)
    (parts : UrlParts) :
    parsePath (some u.authority) (u.host.length + u.portText.length) pathLen parts =
      (.ok, { parts with path := u.target }) := by
  have hplain : 35 ∉ u.host ++ u.portText ++ u.target := by
    simp [u.host_plain.2.2, portText_plain.2, target_plain]
  have hlen : u.authority.length =
      u.host.length + u.portText.length + (u.target.length + u.fragmentText.length) := by
    rw [authority, List.length_append, List.length_append, List.length_append]
  have hdrop : u.authority.drop (u.host.length + u.portText.length) =
      u.target ++ u.fragmentText := by
    rw [authority, ← List.length_append, List.drop_left]
  have hpath : (match strchr 35 u.authority with
      | some fragment => subU32 fragment (u.host.length + u.portText.length)
      | none => u.authority.length - (u.host.length + u.portText.length)) = u.target.length := by
    rw [authority, ← List.append_assoc] at *
    cases hf : u.fragment with
    | none =>
      have hnil : u.fragmentText = [] := by rw [fragmentText, hf]; rfl
      rw [hnil, List.append_nil] at hlen ⊢
      rw [strchr_eq_none hplain]
      simp only
      rw [hlen, List.length_nil]
      omega
    | some f =>
      have hcons : u.fragmentText = 35 :: f := by rw [fragmentText, hf]; rfl
      rw [hcons, strchr_append_cons hplain]
      simp only [List.length_append]
      rw [subU32_of_le (by omega)]
      omega
  rw [parsePath, hpath]
  have hwrap : u32 (u.target.length + 1) ≤ u.target.length + 1 := by
    rw [u32]
    exact Nat.mod_le _ _
  rw [if_neg (by omega), copyString, if_pos (by omega), hdrop, List.take_left]

/-- **The parser on a well-formed url**, with what it takes for the port. All of what it does there
    is on the right: how much of the authority it takes for the host, which error a port that is no
    number gives, and which a host that is too long. -/
theorem parse_eq (u : Url) (parts : UrlParts) :
    httpClientParseUrl u.text (u.text.length + 1) false parts =
      match parsePort u.authority with
      | none => (.parse, { parts with scheme := u.scheme })
      | some (rHostLen, port) =>
        if hcHostLenMax <
            (if rHostLen = 0 then u.host.length + u.portText.length else rHostLen) then
          (.parse, { parts with scheme := u.scheme, port })
        else
          (.ok, ⟨u.scheme, u.authority.take
            (if rHostLen = 0 then u.host.length + u.portText.length else rHostLen),
            port, u.target⟩) := by
  have htext : u.text = u.scheme ++ schemeEnd ++ u.authority := rfl
  have hdrop : u.text.drop (u.scheme.length + 3) = u.authority := by
    have hlen : u.scheme.length + 3 = (u.scheme ++ schemeEnd).length := by simp [schemeEnd]
    rw [htext, hlen, List.drop_left]
  have htake : u.text.take u.scheme.length = u.scheme := by
    rw [htext, List.append_assoc, List.take_left]
  have hlen : u.text.length = u.scheme.length + 3 + u.authority.length := by
    rw [htext, List.length_append, List.length_append]
    rfl
  have hscheme := u.scheme_len
  rw [httpClientParseUrl, if_neg (by simp), htext, strstr_schemeEnd u.scheme_plain, ← htext]
  simp only
  rw [if_neg (by simp only [hcSchemeLenMax]; omega), copyString,
    if_pos (by simp only [hcSchemeLenMax]; omega), hdrop, htake]
  simp only
  cases parsePort u.authority with
  | none => rfl
  | some port =>
    obtain ⟨rHostLen, port⟩ := port
    simp only [strchr_slash]
    generalize (if rHostLen = 0 then u.host.length + u.portText.length else rHostLen) = len
    split
    · rfl
    · rename_i hle
      rw [copyString, if_pos (by omega)]
      simp only
      rw [parsePath_authority (by omega)]

theorem portText_of_port {ds : List UInt8} (hp : u.port = some ds) : u.portText = 58 :: ds := by
  rw [portText, hp]
  rfl

theorem authority_of_no_port (hp : u.port = none) :
    u.authority = u.host ++ (u.target ++ u.fragmentText) := by
  have hport : u.portText = [] := by rw [portText, hp]; rfl
  rw [authority, hport, List.append_nil]

/-- The port of a url that has one is scanned up to the path. -/
theorem parsePort_of_port {ds : List UInt8} (hp : u.port = some ds) :
    parsePort u.authority = some (u.host.length, numeral decDigit? 10 ds) := by
  obtain ⟨hnumeral, hlt⟩ := u.port_numeral ds hp
  have hauthority : u.authority = u.host ++ 58 :: (ds ++ (u.target ++ u.fragmentText)) := by
    rw [authority, portText_of_port hp, List.append_assoc, List.cons_append]
  have hcolon : strchr 58 u.authority = some u.host.length := by
    rw [hauthority]
    exact strchr_append_cons u.host_plain.1 _
  have hdrop : u.authority.drop (u.host.length + 1) = ds ++ (u.target ++ u.fragmentText) := by
    rw [hauthority, ← List.drop_drop, List.drop_left]
    rfl
  have hrest : ∀ b ∈ (u.target ++ u.fragmentText).head?, decDigit? b = none := by
    intro b hb
    rw [target, List.cons_append, List.cons_append, List.head?_cons] at hb
    obtain rfl := Option.some.inj hb
    rfl
  rw [parsePort, hcolon]
  simp only [hdrop, scanShort_numeral hnumeral hrest hlt, Option.map_some]

/-- Without a port, a colon behind the host is taken for one, and the host reaches up to it. -/
theorem parse_late_colon (hp : u.port = none) (hcolon : 58 ∈ u.target ++ u.fragmentText)
    (old : UrlParts) :
    httpClientParseUrl u.text (u.text.length + 1) false old ≠ (.ok, u.parts) := by
  have hauthority := authority_of_no_port hp
  obtain ⟨before, after, hsplit, hbefore⟩ := List.eq_append_cons_of_mem hcolon
  have hne : before ≠ [] := by
    rintro rfl
    rw [target, List.cons_append, List.cons_append, List.nil_append] at hsplit
    exact absurd (List.cons.inj hsplit).1 (by decide)
  have hpos : 0 < before.length := List.length_pos_of_ne_nil hne
  have hfirst : strchr 58 u.authority = some (u.host.length + before.length) := by
    rw [hauthority, hsplit, strchr_append_of_notMem u.host_plain.1, strchr_append_cons hbefore]
    rfl
  intro heq
  rw [parse_eq, parsePort, hfirst] at heq
  simp only at heq
  cases hscan : scanShort (u.authority.drop (u.host.length + before.length + 1)) with
  | none =>
    rw [hscan] at heq
    cases heq
  | some port =>
    rw [hscan, Option.map_some] at heq
    have hlong : u.host.length + before.length ≠ 0 := by omega
    simp only [if_neg hlong] at heq
    split at heq
    · cases heq
    · have hname := congrArg (fun r => r.2.host.length) heq
      simp only [parts, List.length_take, hauthority, hsplit, List.length_append] at hname
      omega

/-- **The exact urls**: the parser gives the components of a well-formed url if and only if the
    first colon behind the scheme is that of its port, with a host before it, or there is none. To
    the parser any colon is one of a port. -/
theorem parse_correct_iff (u : Url) (old : UrlParts) :
    httpClientParseUrl u.text (u.text.length + 1) false old = (.ok, u.parts) ↔ u.ColonOfPort := by
  have hhost : u.host.length ≤ hcHostLenMax := u.host_len
  rw [ColonOfPort]
  cases hp : u.port with
  | some ds =>
    have hport := portText_of_port hp
    rw [parse_eq, parsePort_of_port hp]
    simp only [Option.isSome_some, true_and, reduceCtorEq, false_and, or_false]
    cases hh : u.host with
    | nil =>
      -- the length is taken for none, and the host begins with the colon
      have hauthority : u.authority = 58 :: (ds ++ (u.target ++ u.fragmentText)) := by
        rw [authority, hh, hport]
        rfl
      rw [List.length_nil, if_pos rfl, hport, List.length_cons, hauthority]
      refine iff_of_false (fun heq => ?_) (by simp)
      split at heq
      · cases heq
      · have hname := congrArg (fun r => r.2.host) heq
        simp only [parts, hh, Nat.zero_add, List.take_succ_cons] at hname
        cases hname
    | cons b host =>
      have hne : (b :: host).length ≠ 0 := Nat.succ_ne_zero _
      rw [hh] at hhost
      rw [if_neg hne, if_neg (by omega), authority, hh, List.append_assoc, List.take_left]
      exact iff_of_true (by rw [parts, hh, hp]; rfl) (by simp)
  | none =>
    simp only [Option.isSome_none, Bool.false_eq_true, false_and, true_and, false_or]
    by_cases hcolon : 58 ∈ u.target ++ u.fragmentText
    · exact iff_of_false (parse_late_colon hp hcolon old) (not_not_intro hcolon)
    · have hport : u.portText = [] := by rw [portText, hp]; rfl
      have hfirst : strchr 58 u.authority = none := by
        rw [authority_of_no_port hp]
        refine strchr_eq_none ?_
        simp only [List.mem_append, not_or] at hcolon ⊢
        exact ⟨u.host_plain.1, hcolon⟩
      rw [parse_eq, parsePort, hfirst, hport, List.length_nil, Nat.add_zero]
      simp only [if_true]
      rw [if_neg (by omega), authority_of_no_port hp, List.take_left]
      exact iff_of_true (by rw [parts, hp]; rfl) hcolon

end Url

/-- **Parsing is safe and correct** for the urls that are not relative, whose fragment does not
    begin right before the path, and whose first colon is that of the port. -/
theorem parseUrl_correct_iff (old : UrlParts) :
    (∀ (url : CStr) (isRelativeUrl : Bool), (parseUrl url isRelativeUrl old).1.Safe ↔
      isRelativeUrl = false ∧ ¬FragmentBeforePath url.text) ∧
    ∀ u : Url, httpClientParseUrl u.text (u.text.length + 1) false old = (.ok, u.parts) ↔
      u.ColonOfPort :=
  ⟨fun url isRelativeUrl => parseUrl_safe_iff url isRelativeUrl old,
    fun u => u.parse_correct_iff old⟩

/-- `http://h/a:1` -/
def colonUrl : Url where
  scheme := ascii "http"
  host := ascii "h"
  port := none
  path := ascii "a:1"
  query := none
  fragment := none
  scheme_len := by decide
  scheme_plain := by decide
  host_len := by decide
  host_plain := by decide
  port_numeral := nofun
  path_plain := by decide
  query_plain := nofun

/-- A relative url, a fragment right before the path, and a colon in the path. -/
theorem parseUrl_wrong :
    (parseUrl ⟨ascii "/a", by decide⟩ true ⟨[], [], 0, []⟩).1 = .nullPointer ∧
    (parseUrl ⟨ascii "http://h#/", by decide⟩ false ⟨[], [], 0, []⟩).1 = .outside ∧
    colonUrl.text = ascii "http://h/a:1" ∧ colonUrl.parts.host = ascii "h" ∧
    httpClientParseUrl colonUrl.text (colonUrl.text.length + 1) false ⟨[], [], 0, []⟩ =
      (.ok, ⟨ascii "http", ascii "h/a", 1, ascii "/a:1"⟩) := by
  decide +kernel

end Http
end LightDuer
