/-
# Rustee.TrustedProxy.AntiSpoofing -- what a client wrote before the proxies does not count

A peer outside the policy adds nothing to a request.  Behind a trusted peer the header value
is whatever the client sent, a comma, and what the infrastructure appended: the client's own
address and the addresses of the proxies it passed.  The parsers read every element and count
them, so a client's text can get a request rejected; but the walk starts at the right and
stops at the first untrusted address, which is the one the infrastructure wrote
(`selectClient_stops`), and a chain that is not too long leaves it enough hops to get there.
-/
import Rustee.TrustedProxy.Forwarded

namespace Rustee.TrustedProxy

open Rustee.Foundation

set_option autoImplicit false

/-! ## Header values -/

def comma : UInt8 := 44

/-- Elements joined as a proxy appends them. -/
def chainOf (elements : List HeaderValue) : HeaderValue := [comma].intercalate elements

theorem charOf_injective : Function.Injective charOf := by
  intro one other same
  have code (byte : UInt8) : (charOf byte).toNat = byte.toNat := by
    have small : byte.toNat < 256 := byte.toNat_lt
    have valid : byte.toNat.isValidChar := .inl (by omega)
    rw [charOf, Char.ofNat, dif_pos valid]
    rfl
  have codes := congrArg Char.toNat same
  rw [code, code] at codes
  exact UInt8.toNat_inj.1 codes

@[simp] theorem charOf_comma : charOf comma = ',' := by decide

theorem boundedHeaderText_eq_some {value : HeaderValue} {text : Text} :
    boundedHeaderText value = some text ↔ value.all isVisible = true ∧
      value.length ≤ maxForwardedHeaderBytes ∧ text = value.map charOf := by
  unfold boundedHeaderText HeaderValue.toStr
  constructor
  · intro reads
    obtain ⟨reads, short⟩ := Option.filter_eq_some_iff.1 reads
    split at reads
    · rename_i visible
      cases reads
      exact ⟨visible, by simpa using short, rfl⟩
    · cases reads
  · rintro ⟨visible, short, rfl⟩
    simp [visible, short]

/-- What is appended to a text that passes is a text that passes. -/
theorem boundedHeaderText_append {front back : HeaderValue} {text : Text}
    (reads : boundedHeaderText (front ++ comma :: back) = some text) :
    text = front.map charOf ++ ',' :: back.map charOf ∧
      boundedHeaderText back = some (back.map charOf) := by
  obtain ⟨visible, short, rfl⟩ := boundedHeaderText_eq_some.1 reads
  refine ⟨by simp, boundedHeaderText_eq_some.2 ⟨?_, ?_, rfl⟩⟩
  · simp only [List.all_append, List.all_cons, Bool.and_eq_true] at visible
    exact visible.2.2
  · simp only [List.length_append, List.length_cons] at short
    omega

/-- The pieces of a joined chain are its elements. -/
theorem splitOn_chainOf {elements : List HeaderValue} (nonempty : elements ≠ [])
    (separate : ∀ element ∈ elements, comma ∉ element) :
    ((chainOf elements).map charOf).splitOn ',' = elements.map (List.map charOf) := by
  rw [chainOf, map_intercalate, List.map_singleton, charOf_comma]
  apply List.splitOn_intercalate
  · intro piece member inside
    obtain ⟨element, isElement, rfl⟩ := List.mem_map.1 member
    obtain ⟨byte, inElement, isComma⟩ := List.mem_map.1 inside
    rw [← charOf_comma] at isComma
    exact separate element isElement (charOf_injective isComma ▸ inElement)
  · simpa using nonempty

/-! ## The walk -/

section

variable {α : Type} {policy : TrustedProxyPolicy} {ip : α → IpAddr}

/-- **The walk stops at the first untrusted address**, while it has hops left. -/
theorem selectClient_stops {hops rest : List α} {client : α}
    (trusted : ∀ hop ∈ hops, policy.trusts (ip hop) = true)
    (untrusted : policy.trusts (ip client) = false) (walked : Nat)
    (enough : walked + hops.length ≤ policy.forwardedChainHops) :
    selectClient policy ip walked (hops ++ client :: rest) = some client := by
  induction hops generalizing walked with
  | nil => simp [selectClient, untrusted]
  | cons hop others ih =>
    simp only [List.length_cons] at enough
    have more : walked < policy.forwardedChainHops := by omega
    have isTrusted := trusted hop List.mem_cons_self
    rw [List.cons_append, selectClient, if_pos ⟨more, isTrusted⟩]
    apply ih
    · intro other member
      exact trusted other (List.mem_cons_of_mem hop member)
    · omega

/-- In a chain that is not too long, what stands before the client does not matter. -/
theorem selectClient_chain (front : List α) {hops : List α} {client : α}
    (trusted : ∀ hop ∈ hops, policy.trusts (ip hop) = true)
    (untrusted : policy.trusts (ip client) = false)
    (short : (front ++ client :: hops).length ≤ policy.forwardedChainHops + 1) :
    selectClient policy ip 0 (front ++ client :: hops).reverse = some client := by
  simp only [List.length_append, List.length_cons] at short
  have order : (front ++ client :: hops).reverse = hops.reverse ++ client :: front.reverse := by
    simp
  rw [order]
  apply selectClient_stops _ untrusted 0
  · rw [List.length_reverse]
    omega
  · intro hop member
    exact trusted hop (List.mem_reverse.1 member)

end

/-! ## What the infrastructure appended -/

variable {net : NetText} {policy : TrustedProxyPolicy}

/-- The address an element of a chain is about. -/
def elementAddress (net : NetText) (family : TrustedProxyHeaderFamily) (element : HeaderValue) :
    Option IpAddr :=
  match family with
  | .forwarded =>
    (parseForwardedElement net (Text.trim (element.map charOf))).map ForwardedElement.clientIp
  | .xForwarded => net.ipAddr (Text.trim (element.map charOf))

/-- The elements are those of an untrusted client and of the trusted proxies behind it. -/
structure Appended (net : NetText) (policy : TrustedProxyPolicy)
    (family : TrustedProxyHeaderFamily) (first : HeaderValue) (rest : List HeaderValue)
    (client : IpAddr) : Prop where
  separate : ∀ element ∈ first :: rest, comma ∉ element
  isClient : elementAddress net family first = some client
  untrusted : policy.trusts client = false
  hops : ∀ element ∈ rest, ∃ hop, elementAddress net family element = some hop ∧
    policy.trusts hop = true

/-- The elements a chain reads to: the client, then the proxies. -/
theorem Appended.read {α : Type} {family : TrustedProxyHeaderFamily} {first : HeaderValue}
    {rest : List HeaderValue} {client : IpAddr}
    (appended : Appended net policy family first rest client) {parse : Text → Option α}
    (ip : α → IpAddr) {results : List α}
    (addresses : ∀ element, elementAddress net family element =
      (parse (element.map charOf)).map ip)
    (reads : (((chainOf (first :: rest)).map charOf).splitOn ',').mapM parse = some results) :
    ∃ head hops, results = head :: hops ∧ ip head = client ∧
      ∀ hop ∈ hops, policy.trusts (ip hop) = true := by
  rw [splitOn_chainOf (List.cons_ne_nil first rest) appended.separate, mapM_eq_some_iff,
    List.forall₂_map_left_iff] at reads
  cases reads with
  | cons isHead isRest =>
    rename_i head hops
    refine ⟨head, hops, rfl, ?_, ?_⟩
    · have same := appended.isClient
      rw [addresses, isHead] at same
      exact Option.some.inj same
    · intro hop member
      obtain ⟨element, isElement, isHop⟩ := exists_of_forall₂ isRest member
      obtain ⟨address, isAddress, trusted⟩ := appended.hops element isElement
      rw [addresses, isHop] at isAddress
      rw [Option.some.inj isAddress]
      exact trusted

/-! ## The two families -/

section

variable {front first : HeaderValue} {rest : List HeaderValue} {client : IpAddr}

theorem parseForwarded_eq_some {value : HeaderValue} {context : ForwardedContext} :
    parseForwarded net policy value = some context ↔ ∃ text elements edge chosen,
      boundedHeaderText value = some text ∧
      (text.splitOn ',').mapM (fun element => parseForwardedElement net (Text.trim element)) =
        some elements ∧
      elements.length ≤ policy.forwardedChainHops + 1 ∧
      elements.dropLast.any (fun element => element.scheme.isSome || element.host.isSome) = false ∧
      elements.getLast? = some edge ∧
      selectClient policy ForwardedElement.clientIp 0 elements.reverse = some chosen ∧
      context = ⟨chosen.clientIp, edge.scheme, edge.host⟩ := by
  constructor
  · intro accepted
    obtain ⟨text, isText, accepted⟩ := Option.bind_eq_some_iff.1 accepted
    obtain ⟨elements, isElements, accepted⟩ := Option.bind_eq_some_iff.1 accepted
    split at accepted
    · cases accepted
    · rename_i counted
      split at accepted
      · cases accepted
      · rename_i bare
        obtain ⟨edge, isEdge, accepted⟩ := Option.bind_eq_some_iff.1 accepted
        obtain ⟨chosen, isChosen, accepted⟩ := Option.bind_eq_some_iff.1 accepted
        refine ⟨text, elements, edge, chosen, isText, isElements, ?_, by simpa using bare, isEdge,
          isChosen, (Option.some.inj accepted).symm⟩
        simp only [Bool.or_eq_true, decide_eq_true_eq, not_or] at counted
        omega
  · rintro ⟨text, elements, edge, chosen, isText, isElements, short, bare, isEdge, isChosen, rfl⟩
    have nonempty : elements.isEmpty = false := by
      cases elements with
      | nil => cases isEdge
      | cons => rfl
    have counted : decide (policy.forwardedChainHops + 1 < elements.length) = false := by
      simpa using short
    simp only [parseForwarded, isText, isElements, nonempty, counted, bare, isEdge, isChosen,
      Option.bind_eq_bind, Option.bind_some, Bool.or_self, Bool.false_eq_true, if_false]

/-- **`Forwarded`**: a value that is accepted says what was appended to it. -/
theorem parseForwarded_appended (appended : Appended net policy .forwarded first rest client)
    {context : ForwardedContext}
    (accepted : parseForwarded net policy (front ++ comma :: chainOf (first :: rest)) =
      some context) :
    parseForwarded net policy (chainOf (first :: rest)) = some context ∧
      context.clientIp = client := by
  obtain ⟨text, elements, edge, chosen, isText, isElements, short, bare, isEdge, isChosen, rfl⟩ :=
    parseForwarded_eq_some.1 accepted
  obtain ⟨rfl, isBack⟩ := boundedHeaderText_append isText
  rw [List.splitOn_append_cons_self] at isElements
  obtain ⟨before, results, rfl, -, isResults⟩ := mapM_append_eq_some isElements
  obtain ⟨head, hops, rfl, isClient, trusted⟩ :=
    appended.read ForwardedElement.clientIp (fun _ => rfl) isResults
  have untrusted : policy.trusts head.clientIp = false := isClient ▸ appended.untrusted
  have chosenHead : chosen = head := by
    have stops := selectClient_chain before trusted untrusted short
    rw [isChosen] at stops
    exact Option.some.inj stops
  subst chosenHead
  refine ⟨parseForwarded_eq_some.2 ⟨_, chosen :: hops, edge, chosen, isBack, isResults, ?_, ?_, ?_,
    ?_, rfl⟩, isClient⟩
  · rw [List.length_append] at short
    omega
  · rw [List.dropLast_append_of_ne_nil (List.cons_ne_nil _ _), List.any_append,
      Bool.or_eq_false_iff] at bare
    exact bare.2
  · rwa [List.getLast?_append_of_ne_nil _ (List.cons_ne_nil _ _)] at isEdge
  · apply selectClient_chain [] trusted untrusted
    rw [List.length_append] at short
    rw [List.nil_append]
    omega

/-- **`X-Forwarded-For`**: a value that is accepted names the client that was appended. -/
theorem parseXForwardedClient_appended
    (appended : Appended net policy .xForwarded first rest client) {address : IpAddr}
    (accepted : parseXForwardedClient net policy (front ++ comma :: chainOf (first :: rest)) =
      some address) :
    parseXForwardedClient net policy (chainOf (first :: rest)) = some address ∧
      address = client := by
  obtain ⟨text, isText, accepted⟩ := Option.bind_eq_some_iff.1 accepted
  obtain ⟨clients, isClients, accepted⟩ := Option.bind_eq_some_iff.1 accepted
  split at accepted
  · cases accepted
  rename_i counted
  simp only [Bool.or_eq_true, decide_eq_true_eq, not_or, Nat.not_lt] at counted
  have short := counted.2
  obtain ⟨rfl, isBack⟩ := boundedHeaderText_append isText
  rw [List.splitOn_append_cons_self] at isClients
  obtain ⟨before, results, rfl, -, isResults⟩ := mapM_append_eq_some isClients
  obtain ⟨head, hops, rfl, isClient, trusted⟩ := appended.read id (by simp [elementAddress]) isResults
  have untrusted : policy.trusts (id head) = false := isClient ▸ appended.untrusted
  have isHead : address = head := by
    have stops := selectClient_chain before trusted untrusted short
    rw [selectClientIp, stops] at accepted
    exact (Option.some.inj accepted).symm
  rw [List.length_append] at short
  have fits : (head :: hops).length ≤ policy.forwardedChainHops + 1 := by omega
  have alone := selectClient_chain [] trusted untrusted fits
  have notLong : decide (policy.forwardedChainHops + 1 < (head :: hops).length) = false := by
    simpa using fits
  refine ⟨?_, isHead.trans isClient⟩
  simp only [parseXForwardedClient, isBack, isResults, selectClientIp, List.isEmpty_cons, notLong,
    Option.bind_eq_bind, Option.bind_some, Bool.or_self, Bool.false_eq_true, if_false]
  rw [isHead]
  exact alone

end

/-! ## The layer -/

/-- The header that carries the chain. -/
def chainHeader : TrustedProxyHeaderFamily → String
  | .forwarded => forwardedName
  | .xForwarded => xForwardedFor

/-- The headers with another value under one name. -/
def HeaderMap.replace (headers : HeaderMap) (name : String) (value : HeaderValue) : HeaderMap :=
  headers.map fun header => if header.1 = name then (name, value) else header

/-- The request as it is without the client's own text. -/
def Request.withChain (request : Request) (family : TrustedProxyHeaderFamily)
    (value : HeaderValue) : Request :=
  { request with headers := HeaderMap.replace request.headers (chainHeader family) value }

theorem getAll_replace_self (headers : HeaderMap) (name : String) (value : HeaderValue) :
    (HeaderMap.replace headers name value).getAll name =
      (headers.getAll name).map fun _ => value := by
  induction headers with
  | nil => rfl
  | cons header rest ih =>
    simp only [HeaderMap.replace, HeaderMap.getAll, List.map_cons] at ih ⊢
    by_cases same : header.1 = name
    · simp [same, ih]
    · simp [same, ih]

theorem getAll_replace_of_ne (headers : HeaderMap) {name other : String} (value : HeaderValue)
    (different : other ≠ name) :
    (HeaderMap.replace headers name value).getAll other = headers.getAll other := by
  induction headers with
  | nil => rfl
  | cons header rest ih =>
    simp only [HeaderMap.replace, HeaderMap.getAll, List.map_cons] at ih ⊢
    by_cases same : header.1 = name
    · simp [same, different.symm, ih]
    · by_cases isOther : header.1 = other
      · simp [isOther, different, ih]
      · simp [same, isOther, ih]

section

variable {headers : HeaderMap} {front first : HeaderValue} {rest : List HeaderValue}
  {client : IpAddr} {context : Option ForwardedContext}

theorem parseForwardedHeaders_appended (appended : Appended net policy .forwarded first rest client)
    (single : headers.getAll forwardedName = [front ++ comma :: chainOf (first :: rest)])
    (accepted : parseForwardedHeaders net policy headers = some context) :
    parseForwardedHeaders net policy
        (HeaderMap.replace headers forwardedName (chainOf (first :: rest))) = some context ∧
      ∃ forwarded, context = some forwarded ∧ forwarded.clientIp = client := by
  simp only [parseForwardedHeaders, singleHeader, single, Option.bind_eq_bind, Option.bind_some,
    Option.map_eq_some_iff] at accepted
  obtain ⟨forwarded, accepted, rfl⟩ := accepted
  obtain ⟨alone, isClient⟩ := parseForwarded_appended appended accepted
  refine ⟨?_, forwarded, rfl, isClient⟩
  simp [parseForwardedHeaders, singleHeader, getAll_replace_self, single, alone]

theorem parseXForwardedHeaders_appended
    (appended : Appended net policy .xForwarded first rest client)
    (single : headers.getAll xForwardedFor = [front ++ comma :: chainOf (first :: rest)])
    (accepted : parseXForwardedHeaders net policy headers = some context) :
    parseXForwardedHeaders net policy
        (HeaderMap.replace headers xForwardedFor (chainOf (first :: rest))) = some context ∧
      ∃ forwarded, context = some forwarded ∧ forwarded.clientIp = client := by
  have isFor : singleHeader headers xForwardedFor =
      some (some (front ++ comma :: chainOf (first :: rest))) := by simp [singleHeader, single]
  have aloneFor : singleHeader (HeaderMap.replace headers xForwardedFor (chainOf (first :: rest)))
      xForwardedFor = some (some (chainOf (first :: rest))) := by
    simp [singleHeader, getAll_replace_self, single]
  have others {name : String} (different : name ≠ xForwardedFor) :
      singleHeader (HeaderMap.replace headers xForwardedFor (chainOf (first :: rest))) name =
        singleHeader headers name := by
    simp only [singleHeader, getAll_replace_of_ne headers _ different]
  rw [parseXForwardedHeaders, isFor] at accepted
  obtain ⟨_, isClient, accepted⟩ := Option.bind_eq_some_iff.1 accepted
  cases isClient
  obtain ⟨scheme, isScheme, accepted⟩ := Option.bind_eq_some_iff.1 accepted
  obtain ⟨host, isHost, accepted⟩ := Option.bind_eq_some_iff.1 accepted
  obtain ⟨address, isAddress, accepted⟩ := Option.bind_eq_some_iff.1 accepted
  obtain ⟨parsedScheme, isParsedScheme, accepted⟩ := Option.bind_eq_some_iff.1 accepted
  obtain ⟨parsedHost, isParsedHost, accepted⟩ := Option.bind_eq_some_iff.1 accepted
  cases accepted
  obtain ⟨alone, isClient⟩ := parseXForwardedClient_appended appended isAddress
  refine ⟨?_, _, rfl, isClient⟩
  rw [parseXForwardedHeaders, aloneFor, others (by decide), others (by decide), isScheme, isHost]
  simp only [Option.bind_eq_bind, Option.bind_some, alone, isParsedScheme, isParsedHost]

end

/-- The parser of a family. -/
def parseHeaders (net : NetText) (policy : TrustedProxyPolicy) (family : TrustedProxyHeaderFamily)
    (headers : HeaderMap) : Option (Option ForwardedContext) :=
  match family with
  | .forwarded => parseForwardedHeaders net policy headers
  | .xForwarded => parseXForwardedHeaders net policy headers

theorem call_of_trusted {family : TrustedProxyHeaderFamily} {request : Request} {peer : IpAddr}
    (isPeer : request.peer = some peer) (trusted : policy.trusts peer = true) :
    call net policy family request = match parseHeaders net policy family request.headers with
      | some (some context) => .inner { request with context := some context }
      | some none => .inner request
      | none => .invalidForwardedHeader := by
  unfold call
  rw [isPeer]
  refine (if_pos trusted).trans ?_
  cases family <;> rfl

/-- **A client cannot forge its address.**  A request from an untrusted peer reaches the inner
service as it came.  A request from a trusted peer, whose chain is any text of the client's, a
comma and what the infrastructure appended, is rejected or gets exactly the context of what was
appended. -/
theorem client_text_ignored (net : NetText) (policy : TrustedProxyPolicy)
    (family : TrustedProxyHeaderFamily) (request : Request) (peer : IpAddr)
    (isPeer : request.peer = some peer) :
    (policy.trusts peer = false → call net policy family request = .inner request) ∧
    (policy.trusts peer = true → ∀ front first rest client,
      request.headers.getAll (chainHeader family) = [front ++ comma :: chainOf (first :: rest)] →
      Appended net policy family first rest client →
      call net policy family request = .invalidForwardedHeader ∨
      ∃ context, context.clientIp = client ∧
        call net policy family request = .inner { request with context := some context } ∧
        call net policy family (request.withChain family (chainOf (first :: rest))) =
          .inner { request.withChain family (chainOf (first :: rest)) with
            context := some context }) := by
  constructor
  · intro untrusted
    simp [call, isPeer, untrusted]
  · intro trusted front first rest client single appended
    have isPeerAlone : (request.withChain family (chainOf (first :: rest))).peer = some peer :=
      isPeer
    rw [call_of_trusted isPeer trusted, call_of_trusted isPeerAlone trusted]
    cases accepted : parseHeaders net policy family request.headers with
    | none => exact .inl rfl
    | some context =>
      right
      have alone : parseHeaders net policy family
          (request.withChain family (chainOf (first :: rest))).headers = some context ∧
          ∃ forwarded, context = some forwarded ∧ forwarded.clientIp = client := by
        cases family with
        | forwarded => exact parseForwardedHeaders_appended appended single accepted
        | xForwarded => exact parseXForwardedHeaders_appended appended single accepted
      obtain ⟨same, forwarded, rfl, isClient⟩ := alone
      rw [same]
      exact ⟨forwarded, isClient, rfl, rfl⟩

/-! ## A forged address behind two proxies -/

def bytesOf (text : String) : HeaderValue := text.toList.map fun c => c.toNat.toUInt8

def octet (text : Text) : Option (BitVec 8) :=
  if text ≠ [] ∧ text.all Char.isDigit = true ∧ (text.foldl (fun n c => 10 * n + c.toNat - 48) 0) < 256
  then some (BitVec.ofNat 8 (text.foldl (fun n c => 10 * n + c.toNat - 48) 0)) else none

/-- Dotted quads for addresses, and every text for an authority. -/
def dottedQuads : NetText where
  ipAddr text :=
    match (text.splitOn '.').mapM octet with
    | some [a, b, c, d] => some (.v4 (a ++ b ++ c ++ d))
    | _ => none
  isAuthority _ := true

/-- `10.0.0.0/8`, with two hops. -/
def privateNetwork : TrustedProxyPolicy where
  networks := [⟨.v4 0x0a000000#32, 8, by decide, by decide⟩]
  forwardedChainHops := 2
  nonempty := by decide
  bounded := by decide
  hops_le := by decide

def forgedRequest : Request where
  peer := some (.v4 0x0a000001#32)
  headers := [("forwarded",
    bytesOf "for=192.0.2.1,for=203.0.113.9,for=10.0.0.5;proto=https;host=shop.example")]
  context := none

/-- The client wrote `for=192.0.2.1`, and the application sees `203.0.113.9`. -/
theorem client_text_ignored_forged :
    ∃ context, context.clientIp = .v4 0xcb007109#32 ∧
      call dottedQuads privateNetwork .forwarded forgedRequest =
        .inner { forgedRequest with context := some context } := by
  have appended : Appended dottedQuads privateNetwork .forwarded (bytesOf "for=203.0.113.9")
      [bytesOf "for=10.0.0.5;proto=https;host=shop.example"] (.v4 0xcb007109#32) := by
    refine ⟨by decide +kernel, by decide +kernel, by decide +kernel, ?_⟩
    intro element member
    obtain rfl := List.mem_singleton.1 member
    exact ⟨.v4 0x0a000005#32, by decide +kernel, by decide +kernel⟩
  rcases (client_text_ignored dottedQuads privateNetwork .forwarded forgedRequest
    (.v4 0x0a000001#32) rfl).2 (by decide +kernel) (bytesOf "for=192.0.2.1") _ _ _
    (by decide +kernel) appended with rejected | ⟨context, isClient, accepted, -⟩
  · exact absurd rejected (by decide +kernel)
  · exact ⟨context, isClient, accepted⟩

end Rustee.TrustedProxy
