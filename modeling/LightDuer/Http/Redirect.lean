import LightDuer.Http.Connect
import LightDuer.Http.Url

/-!
# Relative redirections

What `http_client_connect` does with a `Location`: where it asks next, if it gets that far. A
location with an `h` in front passes for an absolute url; any other one is parsed as a relative url,
and that parse does not come back.

## The pieces

`passHead` is the head of a round, where the url is parsed, and `redirect` what comes of a location:
`http_client_parse_redirect_location`, and the head of the next round. They carry the variables that
the source keeps from round to round, the url, `is_relative_url` and the parts of the url before,
because these are what a relative url is to be resolved against. The rest of the client is modelled
elsewhere with the outcome of the parse as a parameter, and `request_eq_pass` connects the two: a
request of the whole loop is such a head with the url parsed by `Http.Url`.

## The result

`resolve` is what a location should lead to, a path from the root in the place of the path before it
and any other one behind it. No redirection to a relative location is followed there, in any state
and for any location: with an `h` in front it is parsed as a url of its own, which leads to a
shorter path than the one it should, and without one `p_host` stays `NULL` in the parser and is
searched. That a chain never gets anywhere then follows from its first link.
-/

set_option autoImplicit false

namespace LightDuer
namespace Http

open Lib

/-- The variables of `http_client_connect` that a redirection goes by. -/
structure Target where
  url : List UInt8
  isRelativeUrl : Bool
  parts : UrlParts

/-- `http_client_parse_redirect_location`: the result, `is_relative_url`, and the location that is
    left. It looks for a slash at the NUL of the path, so one is always put in between. -/
def parseRedirectLocation (path : List UInt8) (isRelativeUrl : Bool) (c : HttpClient) :
    HttpResult × Bool × HttpClient :=
  match c.location with
  | none => (.parse, isRelativeUrl, c)
  | some location =>
    if location.head? = some 104 then (.ok, false, c)
    else if location.head? = some 47 then (.ok, true, c)
    else
      match c.malloc with
      | (false, c) => (.parse, true, c)
      | (true, c) =>
        (.ok, true, { c with location := some (path ++ [47] ++ location.take hcChunkSize) })

/-- How a pass of the loop goes on. -/
inductive Pass where
  /-- it connects to a host and a port, and asks for a path -/
  | request (host : List UInt8) (port : Nat) (path : List UInt8)
  | ends (res : HttpResult)
  | crash (res : UrlResult)
deriving DecidableEq, Repr

/-- The head of a pass: the url is parsed. -/
def passHead (t : Target) (c : HttpClient) : Pass × Target × HttpClient :=
  match c.malloc with
  | (false, c) => (.ends .failed, t, c)
  | (true, c) =>
    match httpClientParseUrl t.url (t.url.length + 1) t.isRelativeUrl t.parts with
    | (.ok, parts) =>
      let parts := if parts.port = 0 then { parts with port := 80 } else parts
      (.request parts.host parts.port parts.path, { t with parts }, c)
    | (.parse, parts) => (.ends .failed, { t with parts }, c)
    | (res, parts) => (.crash res, { t with parts }, c)

/-- What comes of a redirection. -/
def redirect (t : Target) (c : HttpClient) : Pass × Target × HttpClient :=
  match parseRedirectLocation t.parts.path t.isRelativeUrl c with
  | (.ok, isRelativeUrl, c) =>
    passHead { t with url := c.location.getD [], isRelativeUrl } c
  | (res, isRelativeUrl, c) => (.ends res, { t with isRelativeUrl }, c)

/-- The result and the memory are those of the model of the whole loop. -/
theorem parseRedirectLocation_result (path : List UInt8) (isRelativeUrl : Bool) (c : HttpClient) :
    (parseRedirectLocation path isRelativeUrl c).1 = (httpClientParseRedirectLocation c).1 ∧
      (parseRedirectLocation path isRelativeUrl c).2.2.mallocs =
        (httpClientParseRedirectLocation c).2.mallocs := by
  rw [parseRedirectLocation, httpClientParseRedirectLocation]
  cases c.location with
  | none => exact ⟨rfl, rfl⟩
  | some location =>
    simp only
    by_cases hh : location.head? = some 104
    · rw [if_pos hh, if_pos (.inl hh)]
      exact ⟨rfl, rfl⟩
    · rw [if_neg hh]
      by_cases hslash : location.head? = some 47
      · rw [if_pos hslash, if_pos (.inr hslash)]
        exact ⟨rfl, rfl⟩
      · rw [if_neg hslash, if_neg (by simp [hh, hslash])]
        rcases c.malloc with ⟨ok, c₁⟩
        cases ok <;> exact ⟨rfl, rfl⟩

/-- What the url of a pass is parsed into, as the model of the whole loop is told it. -/
def Target.answer (t : Target) : Option (List UInt8 × List UInt8) :=
  match httpClientParseUrl t.url (t.url.length + 1) t.isRelativeUrl t.parts with
  | (.ok, parts) => some (parts.host, parts.path)
  | _ => none

/-- A connection for the url of a pass. -/
def Conn.For (t : Target) (conn : Conn) : Prop := conn.parseUrl = t.answer

/-- What follows the head of a pass in the model of the whole loop. -/
def passTail (conn : Conn) : Pass × Target × HttpClient → HttpResult × HttpClient
  | (.request host _ path, _, c) =>
    if conn.connect < 0 then (.conn, c)
    else
      let c := { c with sock := conn.reply (rangeStart c), sends := conn.sends, sent := [] }
      match httpClientSendRequest .get c host path with
      | (.ok, c) =>
        match httpClientSendHeaders hcChunkSize c.customHeaders c with
        | (.ok, c) => httpClientRecvRspAndParse c hcRspChunkSize
        | (res, c) => (res, c)
      | (res, c) => (res, c)
  | (.ends res, _, c) => (res, c)
  | (.crash _, _, c) => (.failed, c)

/-- **A request of the whole loop is a pass with its url parsed**, where the next connection is one
    for that url and the parse comes back. -/
theorem request_eq_pass {t : Target} {c : HttpClient} (hconn : (c.conns.headD .refused).For t)
    (hback : ∀ res, (passHead t { c with conns := c.conns.tail }).1 ≠ .crash res) :
    request c =
      passTail (c.conns.headD .refused) (passHead t { c with conns := c.conns.tail }) := by
  rw [Conn.For, Target.answer] at hconn
  rw [passHead] at hback ⊢
  rw [request]
  rcases hm : HttpClient.malloc { c with conns := c.conns.tail } with ⟨ok, c₁⟩
  rw [hm] at hback
  cases ok with
  | false => rfl
  | true =>
    rcases hparse : httpClientParseUrl t.url (t.url.length + 1) t.isRelativeUrl t.parts with
      ⟨res, parts⟩
    rw [hparse] at hconn
    simp only [hparse] at hback ⊢
    cases res with
    | ok =>
      -- the default port changes neither the host nor the path
      have hhost : (if parts.port = 0 then { parts with port := 80 } else parts).host =
          parts.host := by
        split <;> rfl
      have hpath : (if parts.port = 0 then { parts with port := 80 } else parts).path =
          parts.path := by
        split <;> rfl
      simp only [hconn, passTail, hhost, hpath]
      all_goals rfl
    | parse => simp only [hconn, passTail]
    | _ => exact absurd rfl (hback _)

/-! ## Where a redirection should go -/

/-- A path from the root replaces the one before; another one is joined to it by one slash. -/
def resolve (path location : List UInt8) : List UInt8 :=
  if location.head? = some 47 then location
  else if path.getLast? = some 47 then path ++ location
  else path ++ [47] ++ location

/-- Every redirection of a chain asks the same host and port for the resolved path. Between two of
    them the client may be changed by the response. -/
def Follows (t : Target) (c : HttpClient) : List (List UInt8) → Prop
  | [] => True
  | location :: rest =>
      (redirect t { c with location := some location }).1 =
          .request t.parts.host t.parts.port (resolve t.parts.path location) ∧
        ∃ c', Follows (redirect t { c with location := some location }).2.1 c' rest

/-! ## Where it goes -/

theorem resolve_length (path location : List UInt8) :
    location.length ≤ (resolve path location).length := by
  rw [resolve]
  split
  · exact Nat.le_refl _
  · split
    · rw [List.length_append]
      omega
    · rw [List.length_append]
      omega

/-- A parse of a location as an absolute url does not resolve it. -/
theorem passHead_absolute {t : Target} (hrel : t.isRelativeUrl = false) (c : HttpClient)
    (host : List UInt8) (port : Nat) (path : List UInt8) :
    (passHead t c).1 ≠ .request host port (resolve path t.url) := by
  rw [passHead, hrel]
  rcases c.malloc with ⟨ok, c₁⟩
  cases ok with
  | false => simp
  | true =>
    simp only
    rcases hparse : httpClientParseUrl t.url (t.url.length + 1) false t.parts with ⟨res, parts⟩
    cases res with
    | ok =>
      have hshort := parseUrl_length hparse
      intro heq
      have hpath : parts.path = resolve path t.url := by
        have hinj := (Pass.request.inj heq).2.2
        split at hinj <;> exact hinj
      have hlong := resolve_length path t.url
      rw [← hpath] at hlong
      omega
    | _ => simp

/-- A parse of a relative url does not come back. -/
theorem passHead_relative {t : Target} (hrel : t.isRelativeUrl = true) (c : HttpClient) :
    (passHead t c).1 = .ends .failed ∨ (passHead t c).1 = .crash .nullPointer := by
  rw [passHead, hrel]
  rcases c.malloc with ⟨ok, c₁⟩
  cases ok with
  | false => exact .inl rfl
  | true => exact .inr rfl

/-- **No redirection to a relative location** is followed to where it leads, whatever the url before
    it and in whichever state. A location with an `h` in front is taken for an absolute one, any
    other ends in the search of a host that is `NULL`. -/
theorem redirect_never (t : Target) (c : HttpClient) (location : List UInt8) :
    (redirect t { c with location := some location }).1 ≠
      .request t.parts.host t.parts.port (resolve t.parts.path location) := by
  rw [redirect, parseRedirectLocation]
  simp only
  by_cases hh : location.head? = some 104
  · rw [if_pos hh]
    exact passHead_absolute rfl _ _ _ _
  · rw [if_neg hh]
    have hnot {t' : Target} (hrel : t'.isRelativeUrl = true) (c' : HttpClient) :
        (passHead t' c').1 ≠
          .request t.parts.host t.parts.port (resolve t.parts.path location) := by
      intro heq
      rcases passHead_relative hrel c' with h | h
      · rw [h] at heq
        cases heq
      · rw [h] at heq
        cases heq
    by_cases hslash : location.head? = some 47
    · rw [if_pos hslash]
      exact hnot rfl _
    · rw [if_neg hslash]
      rcases HttpClient.malloc { c with location := some location } with ⟨ok, c₁⟩
      cases ok with
      | false => simp
      | true => exact hnot rfl _

/-- **No chain of redirections** is followed as it should: already the first one goes astray. -/
theorem redirects_never (t : Target) (c : HttpClient) (location : List UInt8)
    (rest : List (List UInt8)) : ¬Follows t c (location :: rest) :=
  fun h => redirect_never t c location h.1

/-- The request for `http://h/a` has been answered. -/
def askedForA : Target :=
  ⟨ascii "http://h/a", false, ⟨ascii "http", ascii "h", 80, ascii "/a"⟩⟩

/-- A location from the root, one beside the path, and one that begins with an `h`. -/
theorem redirect_astray :
    (redirect askedForA { newClient 1 with location := some (ascii "/b") }).1 =
        .crash .nullPointer ∧
      (redirect askedForA { newClient 1 with location := some (ascii "b") }).1 =
        .crash .nullPointer ∧
      (redirect askedForA { newClient 1 with location := some (ascii "home") }).1 =
        .ends .failed ∧
      resolve (ascii "/a") (ascii "b") = ascii "/a/b" ∧
      ¬Follows askedForA (newClient 1) [ascii "/b"] := by
  refine ⟨by decide +kernel, by decide +kernel, by decide +kernel, by decide +kernel, fun h => ?_⟩
  exact redirect_never _ _ _ h.1

end Http
end LightDuer
