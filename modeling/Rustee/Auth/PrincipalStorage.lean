/-
# Rustee.Auth.PrincipalStorage -- the size of a stored principal

A principal is written by `serde_json`, kept by `PostgreSQL` as `jsonb` and read back from the text
of that.  Both texts hold the same strings with the same escapes; `jsonb` puts a space after every
comma and colon, and the shorter names first.

Admission bounds every string and every set, and an escape takes at most six bytes for one, so
neither text reaches the limit that registration and authentication test (`stored_principal_fits`).
-/
import Rustee.Auth.Credential
import Rustee.Auth.Principal
import Rustee.Foundation.Text
import Mathlib.Data.Finset.Sort
import Mathlib.Data.String.Basic
import Mathlib.Algebra.Order.BigOperators.Group.List
import Mathlib.Algebra.Order.Ring.Nat
import Mathlib.Algebra.Group.Action.Defs

namespace Rustee.Auth

open Rustee.Foundation

set_option autoImplicit false

/-! ## Documents -/

inductive Field where
  | null
  | text (value : String)
  | texts (values : List String)
  deriving DecidableEq

/-- An object of strings, lists of strings and nulls, whose names differ. -/
structure Document where
  fields : List (String × Field)
  distinct : (fields.map Prod.fst).Nodup

/-- What stands between the items of a list, and between a name and its value. -/
structure Style where
  comma : String
  colon : String

/-- `serde_json::to_string`. -/
def Style.compact : Style := ⟨",", ":"⟩

/-- `jsonb::text`. -/
def Style.jsonb : Style := ⟨", ", ": "⟩

def joined (separator : String) : List String → String
  | [] => ""
  | [item] => item
  | item :: rest => item ++ (separator ++ joined separator rest)

namespace Style

variable (style : Style)

def field : Field → String
  | .null => "null"
  | .text value => jsonString value
  | .texts values => "[" ++ (joined style.comma (values.map jsonString) ++ "]")

def member (entry : String × Field) : String :=
  jsonString entry.1 ++ (style.colon ++ style.field entry.2)

def render (document : Document) : String :=
  "\x7b" ++ (joined style.comma (document.fields.map style.member) ++ "\x7d")

end Style

/-- The order in which `jsonb` keeps names: by length, then by their bytes. -/
def jsonbLe (one other : String × Field) : Bool :=
  byteLen one.1 < byteLen other.1 ∨ byteLen one.1 = byteLen other.1 ∧ one.1 ≤ other.1

def Document.ordered (document : Document) : Document where
  fields := document.fields.insertionSort (jsonbLe · ·)
  distinct := ((List.perm_insertionSort _ _).map Prod.fst).nodup_iff.2 document.distinct

/-- A string with a NUL, which `jsonb` refuses. -/
def Field.containsNul : Field → Bool
  | .null => false
  | .text value => Foundation.containsNul value
  | .texts values => values.any Foundation.containsNul

/-! ## Principals as documents -/

namespace AuthorizationSet

/-- A `BTreeSet` in its order. -/
def toList (values : AuthorizationSet) : List String :=
  (values.1.image fun value : AuthorizationValue => value.1).sort

end AuthorizationSet

def Field.ofOption (value : Option Identifier) : Field := value.elim .null fun value => .text value.1

def Principal.document (principal : Principal) : Document where
  fields := [("subject", .text principal.subject.1), ("issuer", .ofOption principal.issuer),
    ("tenant", .ofOption principal.tenant), ("scopes", .texts principal.scopes.toList),
    ("roles", .texts principal.roles.toList), ("permissions", .texts principal.permissions.toList)]
  distinct := by
    simp only [List.map_cons, List.map_nil]
    decide

structure SerializedPrincipal where
  subject : String
  issuer : Option String
  tenant : Option String
  scopes : List String
  roles : List String
  permissions : List String

namespace SerializedPrincipal

/-- The field of that name. -/
def lookup (document : Document) (name : String) : Option Field :=
  (document.fields.find? fun entry => entry.1 = name).map Prod.snd

def asText : Field → Option String
  | .text value => some value
  | _ => none

def asTexts : Field → Option (List String)
  | .texts values => some values
  | _ => none

/-- `Option<String>` with a default. -/
def optionalText : Option Field → Option (Option String)
  | none | some .null => some none
  | some field => (asText field).map some

/-- The derived `Deserialize`. -/
def ofDocument (document : Document) : Option SerializedPrincipal := do
  let subject ← (lookup document "subject").bind asText
  let issuer ← optionalText (lookup document "issuer")
  let tenant ← optionalText (lookup document "tenant")
  let scopes ← (lookup document "scopes").bind asTexts
  let roles ← (lookup document "roles").elim (some []) asTexts
  let permissions ← (lookup document "permissions").elim (some []) asTexts
  some ⟨subject, issuer, tenant, scopes, roles, permissions⟩

end SerializedPrincipal

/-- `Principal::from_serialized`; the sets of the serialized form are in order and without
repetitions. -/
def Principal.fromSerialized (serialized : SerializedPrincipal) : Except PrincipalError Principal := do
  let principal ← new serialized.subject
  let principal ← serialized.issuer.elim (.ok principal) principal.withIssuer
  let principal ← serialized.tenant.elim (.ok principal) principal.withTenant
  let principal ← serialized.scopes.toFinset.sort.foldlM withScope principal
  let principal ← serialized.roles.toFinset.sort.foldlM withRole principal
  serialized.permissions.toFinset.sort.foldlM withPermission principal

/-- The codec of the store, given how a text is read as a document. -/
def principalCodec (read : String → Option Document) : PrincipalCodec Principal where
  serialize principal := some (Style.compact.render principal.document)
  stored text := do
    let document ← read text
    if document.fields.any fun entry => entry.2.containsNul then none
    else some (Style.jsonb.render document.ordered)
  parse text := do
    let document ← read text
    let serialized ← SerializedPrincipal.ofDocument document
    (Principal.fromSerialized serialized).toOption

/-! ## Sizes -/

theorem byteLen_joined_le (separator : String) (items : List String) :
    byteLen (joined separator items) ≤ (items.map fun item => byteLen item + byteLen separator).sum := by
  induction items with
  | nil => exact Nat.le_refl 0
  | cons item rest ih =>
    cases rest with
    | nil =>
      rw [joined, List.map_singleton, List.sum_singleton]
      exact Nat.le_add_right ..
    | cons next rest =>
      rw [joined, byteLen_append, byteLen_append, List.map_cons, List.sum_cons]
      · omega
      · exact List.cons_ne_nil next rest

/-- More than a field takes in either style. -/
def Field.size : Field → Nat
  | .null => 4
  | .text value => 6 * byteLen value + 2
  | .texts values => (values.map fun value => 6 * byteLen value + 4).sum + 2

def Document.size (document : Document) : Nat :=
  (document.fields.map fun entry => 6 * byteLen entry.1 + entry.2.size + 6).sum + 2

/-- No separator has more than two bytes. -/
def Style.Narrow (style : Style) : Prop := byteLen style.comma ≤ 2 ∧ byteLen style.colon ≤ 2

theorem Style.byteLen_field_le {style : Style} (narrow : style.Narrow) (field : Field) :
    byteLen (style.field field) ≤ field.size := by
  cases field with
  | null => exact Nat.le_refl 4
  | text value => exact byteLen_jsonString_le value
  | texts values =>
    have items := byteLen_joined_le style.comma (values.map jsonString)
    have each : ((values.map jsonString).map fun item => byteLen item + byteLen style.comma).sum ≤
        (values.map fun value => 6 * byteLen value + 4).sum := by
      rw [List.map_map]
      refine List.sum_le_sum fun value _ => ?_
      have quoted := byteLen_jsonString_le value
      have comma := narrow.1
      rw [Function.comp_apply]
      omega
    have brackets : byteLen "[" = 1 ∧ byteLen "]" = 1 := ⟨rfl, rfl⟩
    rw [Style.field, byteLen_append, byteLen_append, brackets.1, brackets.2, Field.size]
    omega

theorem Style.byteLen_render_le {style : Style} (narrow : style.Narrow) (document : Document) :
    byteLen (style.render document) ≤ document.size := by
  have items := byteLen_joined_le style.comma (document.fields.map style.member)
  have each : ((document.fields.map style.member).map fun item => byteLen item + byteLen style.comma).sum ≤
      (document.fields.map fun entry => 6 * byteLen entry.1 + entry.2.size + 6).sum := by
    rw [List.map_map]
    refine List.sum_le_sum fun entry _ => ?_
    have name := byteLen_jsonString_le entry.1
    have value := byteLen_field_le narrow entry.2
    have separators := narrow
    rw [Function.comp_apply, member, byteLen_append, byteLen_append]
    unfold Narrow at separators
    omega
  have braces : byteLen "\x7b" = 1 ∧ byteLen "\x7d" = 1 := ⟨rfl, rfl⟩
  rw [render, byteLen_append, byteLen_append, braces.1, braces.2, Document.size]
  omega

theorem Document.perm_ordered (document : Document) : document.ordered.fields.Perm document.fields :=
  List.perm_insertionSort ..

theorem Document.size_ordered (document : Document) : document.ordered.size = document.size := by
  rw [size, size, (document.perm_ordered.map _).sum_eq]

theorem Field.size_ofOption_le (value : Option Identifier) :
    (Field.ofOption value).size ≤ 6 * maxPrincipalIdentifierBytes + 2 := by
  cases value with
  | none => decide
  | some value =>
    have bound := value.2.2
    exact Nat.add_le_add_right (Nat.mul_le_mul_left 6 bound) 2

theorem AuthorizationSet.mem_toList {values : AuthorizationSet} {text : String} :
    text ∈ values.toList ↔ ∃ value ∈ values.1, value.1 = text := by
  rw [toList, Finset.mem_sort, Finset.mem_image]

theorem AuthorizationSet.size_toList_le (values : AuthorizationSet) :
    (Field.texts values.toList).size ≤
      maxPrincipalAuthorizationValues * (6 * maxPrincipalAuthorizationValueBytes + 4) + 2 := by
  have count : values.toList.length ≤ maxPrincipalAuthorizationValues := by
    rw [toList, Finset.length_sort]
    exact Finset.card_image_le.trans values.2
  have each : ∀ n ∈ values.toList.map fun value => 6 * byteLen value + 4,
      n ≤ 6 * maxPrincipalAuthorizationValueBytes + 4 := by
    rw [List.forall_mem_map]
    intro text member
    obtain ⟨value, -, rfl⟩ := mem_toList.1 member
    exact Nat.add_le_add_right (Nat.mul_le_mul_left 6 value.2.2) 4
  have total := List.sum_le_card_nsmul _ _ each
  rw [List.length_map, smul_eq_mul] at total
  exact Nat.add_le_add_right (total.trans (Nat.mul_le_mul_right _ count)) 2

theorem Principal.size_document_le (principal : Principal) :
    principal.document.size ≤ maxSerializedPrincipalBytes := by
  have subject : 6 * byteLen principal.subject.1 + 2 ≤ 6 * maxPrincipalIdentifierBytes + 2 :=
    Nat.add_le_add_right (Nat.mul_le_mul_left 6 principal.subject.2.2) 2
  have issuer := Field.size_ofOption_le principal.issuer
  have tenant := Field.size_ofOption_le principal.tenant
  have scopes := principal.scopes.size_toList_le
  have roles := principal.roles.size_toList_le
  have permissions := principal.permissions.size_toList_le
  have names : byteLen "subject" = 7 ∧ byteLen "issuer" = 6 ∧ byteLen "tenant" = 6 ∧
      byteLen "scopes" = 6 ∧ byteLen "roles" = 5 ∧ byteLen "permissions" = 11 := by decide
  simp only [Document.size, document, List.map_cons, List.map_nil, List.sum_cons, List.sum_nil, names]
  simp only [Field.size, maxPrincipalIdentifierBytes, maxPrincipalAuthorizationValues,
    maxPrincipalAuthorizationValueBytes, maxSerializedPrincipalBytes] at *
  omega

/-! ## Reading back -/

theorem lookup_eq_some {document : Document} {name : String} {field : Field} :
    SerializedPrincipal.lookup document name = some field ↔ (name, field) ∈ document.fields := by
  have found {other : Field} (isField : SerializedPrincipal.lookup document name = some other) :
      (name, other) ∈ document.fields := by
    obtain ⟨⟨name', _⟩, isEntry, rfl⟩ := Option.map_eq_some_iff.1 isField
    obtain rfl : name' = name := by simpa using List.find?_some isEntry
    exact List.mem_of_find?_eq_some isEntry
  refine ⟨found, fun member => ?_⟩
  cases here : SerializedPrincipal.lookup document name with
  | none =>
    rw [SerializedPrincipal.lookup, Option.map_eq_none_iff, List.find?_eq_none] at here
    exact absurd (decide_eq_true rfl) (here _ member)
  | some other =>
    have same := List.inj_on_of_nodup_map document.distinct (found here) member rfl
    rw [(Prod.mk.inj same).2]

/-- The names differ, so where a field stands does not matter. -/
theorem lookup_ordered (document : Document) (name : String) :
    SerializedPrincipal.lookup document.ordered name = SerializedPrincipal.lookup document name := by
  ext field
  rw [lookup_eq_some, lookup_eq_some, document.perm_ordered.mem_iff]

theorem ofDocument_document (principal : Principal) :
    SerializedPrincipal.ofDocument principal.document.ordered =
      some ⟨principal.subject.1, principal.issuer.map fun issuer => issuer.1,
        principal.tenant.map fun tenant => tenant.1, principal.scopes.toList, principal.roles.toList,
        principal.permissions.toList⟩ := by
  have field (name : String) (field : Field) (member : (name, field) ∈ principal.document.fields) :
      SerializedPrincipal.lookup principal.document.ordered name = some field := by
    rw [lookup_ordered, lookup_eq_some]
    exact member
  have optional (value : Option Identifier) :
      SerializedPrincipal.optionalText (some (.ofOption value)) = some (value.map fun value => value.1) := by
    cases value <;> rfl
  rw [SerializedPrincipal.ofDocument, field "subject" _ (.head _),
    field "issuer" _ (.tail _ (.head _)), field "tenant" _ (.tail _ (.tail _ (.head _))),
    field "scopes" _ (.tail _ (.tail _ (.tail _ (.head _)))),
    field "roles" _ (.tail _ (.tail _ (.tail _ (.tail _ (.head _))))),
    field "permissions" _ (.tail _ (.tail _ (.tail _ (.tail _ (.tail _ (.head _)))))), optional, optional]
  rfl

theorem ensureText_of_admitted {maxBytes : Nat} (value : AdmittedText maxBytes) (field : String) :
    ensureText value.1 field maxBytes = .ok value := by
  rw [ensureText, dif_neg (by rw [value.2.1]; exact Bool.false_ne_true),
    dif_neg (Nat.not_lt.2 value.2.2)]
  rfl

/-- A value of a set can be added to any part of it. -/
theorem insertAuthorizationValue_of_subset {values whole : AuthorizationSet} (part : values.1 ⊆ whole.1)
    {value : AuthorizationValue} (member : value ∈ whole.1) (field : String) :
    ∃ more : AuthorizationSet, insertAuthorizationValue values value.1 field = .ok more ∧
      more.1 = insert value values.1 := by
  have room : ¬ (value ∉ values.1 ∧ values.1.card = maxPrincipalAuthorizationValues) := by
    rintro ⟨absent, full⟩
    have below := Finset.card_le_card (Finset.insert_subset member part)
    have few := whole.2
    rw [Finset.card_insert_of_notMem absent] at below
    omega
  refine ⟨⟨insert value values.1, card_insert_le_of_room values.2 room⟩, ?_, rfl⟩
  rw [insertAuthorizationValue, ensureText_of_admitted]
  exact dif_neg room

/-- Values of a set, added to a part of it one after the other. -/
theorem foldlM_insertAuthorizationValue {values whole : AuthorizationSet} (part : values.1 ⊆ whole.1)
    {texts : List String} (each : ∀ text ∈ texts, text ∈ whole.toList) (field : String) :
    ∃ result : AuthorizationSet,
      texts.foldlM (fun values text => insertAuthorizationValue values text field) values = .ok result ∧
      values.1 ⊆ result.1 ∧ result.1 ⊆ whole.1 ∧
      ∀ value ∈ whole.1, value.1 ∈ texts → value ∈ result.1 := by
  induction texts generalizing values with
  | nil => exact ⟨values, rfl, subset_rfl, part, fun _ _ member => (nomatch member)⟩
  | cons text rest ih =>
    obtain ⟨first, others⟩ := List.forall_mem_cons.1 each
    obtain ⟨value, member, rfl⟩ := AuthorizationSet.mem_toList.1 first
    obtain ⟨more, inserted, isMore⟩ := insertAuthorizationValue_of_subset part member field
    obtain ⟨result, folded, grown, bounded, has⟩ :=
      @ih more (isMore ▸ Finset.insert_subset member part) others
    rw [isMore] at grown
    refine ⟨result, ?_, (Finset.subset_insert ..).trans grown, bounded, fun other isOther among => ?_⟩
    · rw [List.foldlM_cons, inserted]
      exact folded
    · rcases List.mem_cons.1 among with same | among
      · obtain rfl : other = value := Subtype.ext same
        exact grown (Finset.mem_insert_self ..)
      · exact has other isOther among

/-- A set is restored from its texts. -/
theorem foldlM_toList (whole : AuthorizationSet) (field : String) :
    whole.toList.toFinset.sort.foldlM (fun values text => insertAuthorizationValue values text field)
      Principal.noValues = .ok whole := by
  have each : ∀ text ∈ whole.toList.toFinset.sort, text ∈ whole.toList := by simp
  obtain ⟨result, folded, -, bounded, has⟩ :=
    @foldlM_insertAuthorizationValue Principal.noValues whole (Finset.empty_subset _) _ each field
  have all : whole.1 ⊆ result.1 := fun value member =>
    has value member (by simpa using AuthorizationSet.mem_toList.2 ⟨value, member, rfl⟩)
  rw [folded, Subtype.ext (bounded.antisymm all)]

/-- Adding to one of the sets of a principal. -/
theorem foldlM_field {set : Principal → AuthorizationSet → Principal} {get : Principal → AuthorizationSet}
    {field : String} {step : Principal → String → Except PrincipalError Principal}
    (isStep : ∀ principal text,
      step principal text = (insertAuthorizationValue (get principal) text field).map (set principal))
    (get_set : ∀ principal values, get (set principal values) = values)
    (set_set : ∀ principal values more, set (set principal values) more = set principal more)
    (set_get : ∀ principal, set principal (get principal) = principal) (principal : Principal)
    (texts : List String) :
    texts.foldlM step principal =
      (texts.foldlM (fun values text => insertAuthorizationValue values text field) (get principal)).map
        (set principal) := by
  induction texts generalizing principal with
  | nil => exact congrArg Except.ok (set_get principal).symm
  | cons text rest ih =>
    rw [List.foldlM_cons, List.foldlM_cons, isStep]
    cases insertAuthorizationValue (get principal) text field with
    | error error => rfl
    | ok values =>
      have next := ih (set principal values)
      rw [get_set] at next
      exact next.trans (congrArg (Except.map · _) (funext fun more => set_set principal values more))

theorem fromSerialized_document (principal : Principal) :
    Principal.fromSerialized ⟨principal.subject.1, principal.issuer.map fun issuer => issuer.1,
      principal.tenant.map fun tenant => tenant.1, principal.scopes.toList, principal.roles.toList,
      principal.permissions.toList⟩ = .ok principal := by
  obtain ⟨subject, issuer, tenant, scopes, roles, permissions⟩ := principal
  have new : Principal.new subject.1 =
      .ok ⟨subject, none, none, Principal.noValues, Principal.noValues, Principal.noValues⟩ := by
    rw [Principal.new, validateIdentifier, ensureText_of_admitted]
    rfl
  refine bind_eq_ok.2 ⟨_, new, bind_eq_ok.2
    ⟨⟨subject, issuer, none, Principal.noValues, Principal.noValues, Principal.noValues⟩, ?_, bind_eq_ok.2
    ⟨⟨subject, issuer, tenant, Principal.noValues, Principal.noValues, Principal.noValues⟩, ?_, bind_eq_ok.2
    ⟨⟨subject, issuer, tenant, scopes, Principal.noValues, Principal.noValues⟩, ?_, bind_eq_ok.2
    ⟨⟨subject, issuer, tenant, scopes, roles, Principal.noValues⟩, ?_, ?_⟩⟩⟩⟩⟩
  · cases issuer with
    | none => rfl
    | some issuer =>
      rw [Option.map_some, Option.elim_some, Principal.withIssuer, validateIdentifier, ensureText_of_admitted]
      rfl
  · cases tenant with
    | none => rfl
    | some tenant =>
      rw [Option.map_some, Option.elim_some, Principal.withTenant, validateIdentifier, ensureText_of_admitted]
      rfl
  · rw [@foldlM_field (fun principal scopes => { principal with scopes }) (·.scopes) "scopes"
      Principal.withScope (fun _ _ => rfl) (fun _ _ => rfl) (fun _ _ _ => rfl) (fun _ => rfl),
      foldlM_toList]
    rfl
  · rw [@foldlM_field (fun principal roles => { principal with roles }) (·.roles) "roles"
      Principal.withRole (fun _ _ => rfl) (fun _ _ => rfl) (fun _ _ _ => rfl) (fun _ => rfl),
      foldlM_toList]
    rfl
  · rw [@foldlM_field (fun principal permissions => { principal with permissions }) (·.permissions)
      "permissions" Principal.withPermission (fun _ _ => rfl) (fun _ _ => rfl) (fun _ _ _ => rfl)
      (fun _ => rfl), foldlM_toList]
    rfl

/-- The two texts of a principal are read as what they were written from. -/
def ReadsBack (read : String → Option Document) (document : Document) : Prop :=
  read (Style.compact.render document) = some document ∧
    read (Style.jsonb.render document.ordered) = some document.ordered

/-- **A stored principal fits**, and a credential gives it back. -/
theorem stored_principal_fits (principal : Principal) :
    byteLen (Style.compact.render principal.document) ≤ maxSerializedPrincipalBytes ∧
    byteLen (Style.jsonb.render principal.document.ordered) ≤ maxSerializedPrincipalBytes ∧
    ∀ read, ReadsBack read principal.document → ∀ fingerprint expiresAt registration row,
      registrationStorage (principalCodec read) ⟨fingerprint, principal, expiresAt⟩ = .ok registration →
      newCredential (principalCodec read) registration = some row →
      (∀ now, row.eligible now = (row.isActive && row.unexpired now)) ∧
        (principalCodec read).parse row.principal = some principal := by
  have compact := (@Style.byteLen_render_le .compact ⟨by decide, by decide⟩
    principal.document).trans principal.size_document_le
  have jsonb := (@Style.byteLen_render_le .jsonb ⟨by decide, by decide⟩
    principal.document.ordered).trans (principal.document.size_ordered ▸ principal.size_document_le)
  refine ⟨compact, jsonb, ?_⟩
  rintro read ⟨readsCompact, readsJsonb⟩ fingerprint expiresAt registration row accepted inserted
  have isText : registration.principal = Style.compact.render principal.document := by
    simp only [registrationStorage, principalCodec] at accepted
    rw [if_neg (Nat.not_lt.2 compact)] at accepted
    split at accepted
    · cases accepted
    · cases accepted
      rfl
  obtain ⟨text, isStored, isRow⟩ := Option.bind_eq_some_iff.1 inserted
  rw [isText] at isStored
  simp only [principalCodec, readsCompact, Option.bind_eq_bind, Option.bind_some] at isStored
  split_ifs at isStored
  split_ifs at isRow
  cases isStored
  cases isRow
  refine ⟨fun now => ?_, ?_⟩
  · rw [Credential.eligible, decide_eq_true jsonb, Bool.and_true]
  · simp only [principalCodec, readsJsonb, Option.bind_eq_bind, Option.bind_some, ofDocument_document,
      fromSerialized_document]
    rfl

/-! A principal with a value of each kind, and with characters that are escaped. -/

def oneValue (value : AuthorizationValue) : AuthorizationSet :=
  ⟨{value}, by rw [Finset.card_singleton]; decide⟩

theorem toList_oneValue (value : AuthorizationValue) :
    AuthorizationSet.toList (oneValue value) = [value.1] := by
  simp [AuthorizationSet.toList, oneValue]

def alice : Principal where
  subject := ⟨"alice \"al\"", by decide⟩
  issuer := some ⟨"https://login.example", by decide⟩
  tenant := none
  scopes := oneValue ⟨"mail:read", by decide⟩
  roles := oneValue ⟨"editor", by decide⟩
  permissions := oneValue ⟨"docs\\*\n", by decide⟩

def aliceDocument : Document where
  fields := [("subject", .text "alice \"al\""), ("issuer", .text "https://login.example"),
    ("tenant", .null), ("scopes", .texts ["mail:read"]), ("roles", .texts ["editor"]),
    ("permissions", .texts ["docs\\*\n"])]
  distinct := by decide

theorem document_alice : alice.document = aliceDocument := by
  have scopes : alice.scopes.toList = ["mail:read"] := toList_oneValue _
  have roles : alice.roles.toList = ["editor"] := toList_oneValue _
  have permissions : alice.permissions.toList = ["docs\\*\n"] := toList_oneValue _
  simp only [Principal.document, scopes, roles, permissions]
  rfl

/-- A reader of the two texts. -/
def readAlice (text : String) : Option Document :=
  if text = Style.compact.render aliceDocument then some aliceDocument
  else if text = Style.jsonb.render aliceDocument.ordered then some aliceDocument.ordered
  else none

theorem readsBack_alice : ReadsBack readAlice alice.document := by
  have differ : Style.jsonb.render aliceDocument.ordered ≠ Style.compact.render aliceDocument := by
    decide +kernel
  rw [document_alice]
  exact ⟨if_pos rfl, (if_neg differ).trans (if_pos rfl)⟩

theorem stored_principal_fits_alice :
    ∃ row, newCredential (principalCodec readAlice)
        ⟨0, Style.compact.render aliceDocument, none⟩ = some row ∧
      (principalCodec readAlice).parse row.principal = some alice := by
  obtain ⟨compact, jsonb, restored⟩ := stored_principal_fits alice
  have reads := readsBack_alice
  have accepted : registrationStorage (principalCodec readAlice) ⟨0, alice, none⟩ =
      .ok ⟨0, Style.compact.render alice.document, none⟩ := by
    simp only [registrationStorage, principalCodec]
    rw [if_neg (Nat.not_lt.2 compact)]
    rfl
  have clean : (aliceDocument.fields.any fun entry => entry.2.containsNul) = false := by decide +kernel
  rw [document_alice] at jsonb reads accepted
  have inserted : newCredential (principalCodec readAlice)
      ⟨0, Style.compact.render aliceDocument, none⟩ =
      some ⟨0, Style.jsonb.render aliceDocument.ordered, .active, none, none, 0⟩ := by
    simp [newCredential, principalCodec, reads.1, clean, jsonb]
  exact ⟨_, inserted, (restored _ readsBack_alice 0 none _ _ accepted inserted).2⟩

end Rustee.Auth
