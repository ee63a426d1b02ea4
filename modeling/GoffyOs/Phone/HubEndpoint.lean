import GoffyOs.Kotlin.JsonText
import GoffyOs.Kotlin.Strings

/-!
# The endpoint of a Hub (`HubEndpoint.kt`)

An endpoint is a URL that `java.net.URI` reads, which is a parameter here. The URLs that are made of it are
left out.
-/

namespace GoffyPhone

open Kotlin

/-- What is asked of a `java.net.URI`. -/
structure EndpointUri where
  scheme : Option Str
  userInfo : Option Str
  host : Option Str
  path : Option Str
  rawPath : Option Str
  query : Option Str
  fragment : Option Str

structure HubEndpoint where
  webSocketUrl : Str
  isLoopback : Bool

namespace HubEndpoint

def maxEndpointLength : ℕ := 2048
def hubPath : Str := lit "/ws/v1"

/-- `host.removePrefix("[").removeSuffix("]")`, in small letters. -/
def bareHost (host : Str) : Str :=
  let host := lowercase host
  let host := if host.head? = some 0x5b then host.tail else host
  if host.getLast? = some 0x5d then host.dropLast else host

/-- `HubEndpoint.create`; an error is the message of a `HubConfigurationException`. `URI(endpoint)` is a
parameter, and `none` is a `URISyntaxException`. -/
def create (parseUri : Str → Option EndpointUri) (endpoint : Str) (allowInsecureLoopback : Bool) :
    Except Str HubEndpoint := do
  if endpoint = [] ∨ maxEndpointLength < endpoint.length then
    throw (lit "Hub endpoint must be 1..2048 characters.")
  let some uri := parseUri endpoint
    | throw (lit "Hub endpoint must be a valid absolute WebSocket URL.")
  let some scheme := uri.scheme
    | throw (lit "Hub endpoint must be a valid absolute WebSocket URL.")
  if uri.userInfo ≠ none ∨ uri.query ≠ none ∨ uri.fragment ≠ none then
    throw (lit "Hub endpoint must not include user info, a query string, or a fragment.")
  if uri.path ≠ some hubPath ∨ uri.rawPath ≠ some hubPath then
    throw (lit "Hub endpoint path must be exactly /ws/v1.")
  let some host := uri.host
    | throw (lit "Hub endpoint must include a host.")
  let isLoopbackHost := bareHost host = lit "localhost" ∨ bareHost host = lit "127.0.0.1"
  if lowercase scheme = lit "wss" then
    return ⟨endpoint, isLoopbackHost⟩
  if lowercase scheme = lit "ws" then
    if ¬ isLoopbackHost then
      throw (lit "Hub endpoint must use wss for non-loopback hosts.")
    if allowInsecureLoopback = false then
      throw (lit "Insecure loopback Hub endpoints are disabled.")
    return ⟨endpoint, isLoopbackHost⟩
  throw (lit "Hub endpoint must use ws or wss.")

/-- What a URL consists of that has a host and this path, and no more: `java.net.URI` reads no host with
other characters than letters, digits, brackets and signs of ASCII. -/
def UriIsPlain (parseUri : Str → Option EndpointUri) : Prop :=
  ∀ s uri, parseUri s = some uri → uri.scheme ≠ none → uri.host ≠ none → uri.userInfo = none →
    uri.query = none → uri.fragment = none → uri.rawPath = some hubPath → Plain s

variable {parseUri : Str → Option EndpointUri} {endpoint : Str} {allowInsecureLoopback : Bool} {e : HubEndpoint}

theorem create_length (h : create parseUri endpoint allowInsecureLoopback = .ok e) :
    endpoint.length ≤ maxEndpointLength := by
  rw [create] at h
  obtain ⟨hlength, -⟩ := Checks.throw_bind_eq_ok.1 h
  exact not_lt.1 (not_or.1 hlength).2

theorem create_plain (huri : UriIsPlain parseUri)
    (h : create parseUri endpoint allowInsecureLoopback = .ok e) : Plain endpoint := by
  rw [create] at h
  obtain ⟨-, h⟩ := Checks.throw_bind_eq_ok.1 h
  cases hparse : parseUri endpoint with
  | none =>
    rw [hparse] at h
    cases h
  | some uri =>
    rw [hparse] at h
    dsimp only at h
    cases hscheme : uri.scheme with
    | none =>
      rw [hscheme] at h
      cases h
    | some scheme =>
      rw [hscheme] at h
      dsimp only at h
      obtain ⟨hparts, h⟩ := Checks.throw_bind_eq_ok.1 h
      obtain ⟨hpath, h⟩ := Checks.throw_bind_eq_ok.1 h
      rw [not_or, not_or, not_not, not_not, not_not] at hparts
      rw [not_or, not_not, not_not] at hpath
      cases hhost : uri.host with
      | none =>
        rw [hhost] at h
        cases h
      | some host =>
        exact huri endpoint uri hparse (by rw [hscheme]; exact Option.some_ne_none _)
          (by rw [hhost]; exact Option.some_ne_none _) hparts.1 hparts.2.1 hparts.2.2 hpath.2

end HubEndpoint

end GoffyPhone
