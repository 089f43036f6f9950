/-
# Rustee.TrustedProxy.Forwarded -- decoding the forwarded headers

`rustee-middleware/src/trusted_proxy/forwarded.rs`: RFC 7239 `Forwarded` and the
`X-Forwarded-*` family.  `Result<_, ()>` is `Option`.  A header value is a list of bytes that
becomes text only when all of them are visible ASCII; `IpAddr::from_str` and the parser of
`http::uri::Authority` are parameters.
-/
import Rustee.Foundation.Chars
import Rustee.TrustedProxy.Policy

namespace Rustee.TrustedProxy

open Rustee.Foundation

set_option autoImplicit false

/-! ## Headers -/

abbrev HeaderValue := List UInt8

abbrev HeaderMap := List (String × HeaderValue)

def forwardedName : String := "forwarded"

def xForwardedFor : String := "x-forwarded-for"

def xForwardedHost : String := "x-forwarded-host"

def xForwardedProto : String := "x-forwarded-proto"

def maxForwardedHeaderBytes : Nat := 2048

def HeaderMap.getAll (headers : HeaderMap) (name : String) : List HeaderValue :=
  (headers.filter (·.1 = name)).map (·.2)

/-- `single_header`: two values of one name are an error. -/
def singleHeader (headers : HeaderMap) (name : String) : Option (Option HeaderValue) :=
  match headers.getAll name with
  | [] => some none
  | [value] => some (some value)
  | _ => none

def isVisible (byte : UInt8) : Bool := (32 ≤ byte && byte < 127) || byte == 9

def charOf (byte : UInt8) : Char := Char.ofNat byte.toNat

/-- `HeaderValue::to_str`. -/
def HeaderValue.toStr (value : HeaderValue) : Option Text :=
  if value.all isVisible then some (value.map charOf) else none

def boundedHeaderText (value : HeaderValue) : Option Text :=
  (HeaderValue.toStr value).filter fun text => decide (text.length ≤ maxForwardedHeaderBytes)

/-! ## Parsers -/

/-- The parsers of other crates. -/
structure NetText where
  ipAddr : Text → Option IpAddr
  isAuthority : Text → Bool

structure ForwardedContext where
  clientIp : IpAddr
  scheme : Option Text
  host : Option Text
  deriving DecidableEq, Repr

/-- The locals of `parse_forwarded_element`. -/
structure ForwardedItems where
  clientIp : Option IpAddr
  scheme : Option Text
  host : Option Text
  deriving DecidableEq, Repr

structure ForwardedElement where
  clientIp : IpAddr
  scheme : Option Text
  host : Option Text
  deriving DecidableEq, Repr

section

variable (net : NetText)

/-- One `name=value` item.  A name that was there before, or that is not known, is an error. -/
def readItem (items : ForwardedItems) (item : Text) : Option ForwardedItems := do
  let (name, value) ← Text.splitOnce '=' item.trim
  if value.isEmpty || value.any (fun c => c = ' ' || c = '"') then none
  else if name.toAsciiLowercase = "for".toList ∧ items.clientIp.isNone then
    (net.ipAddr value).map fun address => { items with clientIp := some address }
  else if name.toAsciiLowercase = "proto".toList ∧ items.scheme.isNone ∧
      (value = "http".toList ∨ value = "https".toList) then
    some { items with scheme := some value }
  else if name.toAsciiLowercase = "host".toList ∧ items.host.isNone ∧
      '@' ∉ value ∧ net.isAuthority value = true then
    some { items with host := some value }
  else none

def parseForwardedElement (value : Text) : Option ForwardedElement := do
  let items ← (value.splitOn ';').foldlM (readItem net) ⟨none, none, none⟩
  let clientIp ← items.clientIp
  some ⟨clientIp, items.scheme, items.host⟩

/-- The walk both families make from the right, over the elements in that order. -/
def selectClient {α : Type} (policy : TrustedProxyPolicy) (ip : α → IpAddr) :
    Nat → List α → Option α
  | _, [] => none
  | trustedHops, element :: rest =>
    if trustedHops < policy.forwardedChainHops ∧ policy.trusts (ip element) = true then
      selectClient policy ip (trustedHops + 1) rest
    else some element

def parseForwarded (policy : TrustedProxyPolicy) (value : HeaderValue) :
    Option ForwardedContext := do
  let text ← boundedHeaderText value
  let elements ← (text.splitOn ',').mapM fun element => parseForwardedElement net (Text.trim element)
  if elements.isEmpty || policy.forwardedChainHops + 1 < elements.length then none
  else if elements.dropLast.any (fun element => element.scheme.isSome || element.host.isSome) then
    none
  else
    let edge ← elements.getLast?
    let client ← selectClient policy ForwardedElement.clientIp 0 elements.reverse
    some ⟨client.clientIp, edge.scheme, edge.host⟩

def parseForwardedHeaders (policy : TrustedProxyPolicy) (headers : HeaderMap) :
    Option (Option ForwardedContext) := do
  match ← singleHeader headers forwardedName with
  | none => some none
  | some value => (parseForwarded net policy value).map some

def selectClientIp (policy : TrustedProxyPolicy) (clients : List IpAddr) : Option IpAddr :=
  selectClient policy id 0 clients.reverse

def parseXForwardedScheme (value : HeaderValue) : Option Text :=
  (boundedHeaderText value).filter fun text => text = "http".toList ∨ text = "https".toList

def parseXForwardedHost (value : HeaderValue) : Option Text :=
  (boundedHeaderText value).filter fun text =>
    !text.any (fun c => c = ',' || c = ' ' || c = '"' || c = '@') && net.isAuthority text

/-- `Option::map(..).transpose()?`: an absent header stays absent, a bad one is an error. -/
def parsed {α β : Type} (parse : α → Option β) : Option α → Option (Option β)
  | none => some none
  | some value => (parse value).map some

/-- The addresses of an `X-Forwarded-For` value and the one they are about. -/
def parseXForwardedClient (policy : TrustedProxyPolicy) (value : HeaderValue) : Option IpAddr := do
  let text ← boundedHeaderText value
  let clients ← (text.splitOn ',').mapM fun client => net.ipAddr (Text.trim client)
  if clients.isEmpty || policy.forwardedChainHops + 1 < clients.length then none
  else selectClientIp policy clients

def parseXForwardedHeaders (policy : TrustedProxyPolicy) (headers : HeaderMap) :
    Option (Option ForwardedContext) := do
  let client ← singleHeader headers xForwardedFor
  let scheme ← singleHeader headers xForwardedProto
  let host ← singleHeader headers xForwardedHost
  match client with
  | none => if scheme.isNone && host.isNone then some none else none
  | some client =>
    let clientIp ← parseXForwardedClient net policy client
    let scheme ← parsed parseXForwardedScheme scheme
    let host ← parsed (parseXForwardedHost net) host
    some (some ⟨clientIp, scheme, host⟩)

/-! ## The layer -/

inductive TrustedProxyHeaderFamily where
  | forwarded
  | xForwarded
  deriving DecidableEq, Repr

/-- A request, as far as the layer reads and writes it. -/
structure Request where
  /-- The address in `ConnectionInfo`. -/
  peer : Option IpAddr
  headers : HeaderMap
  /-- The `ForwardedContext` among the extensions. -/
  context : Option ForwardedContext
  deriving DecidableEq, Repr

inductive Reply where
  /-- 500, `connection_info_missing`. -/
  | connectionInfoMissing
  /-- 400, `invalid_forwarded_header`. -/
  | invalidForwardedHeader
  /-- The inner service is called. -/
  | inner (request : Request)
  deriving DecidableEq, Repr

/-- `TrustedProxy::call`. -/
def call (policy : TrustedProxyPolicy) (family : TrustedProxyHeaderFamily) (request : Request) :
    Reply :=
  match request.peer with
  | none => .connectionInfoMissing
  | some peer =>
    if policy.trusts peer then
      let context := match family with
        | .forwarded => parseForwardedHeaders net policy request.headers
        | .xForwarded => parseXForwardedHeaders net policy request.headers
      match context with
      | some (some context) => .inner { request with context := some context }
      | some none => .inner request
      | none => .invalidForwardedHeader
    else .inner request

end

end Rustee.TrustedProxy
