/-
# Rustee.McpOAuth.SecretCipher -- sealed OAuth records

`rustee-ai-mcp-oauth-redis/src/crypto.rs`: a record is written as JSON into a bounded buffer,
encrypted under the active key of a ring, and put into an envelope as base64.  The associated data
name the purpose and the key of the record.

The cipher is a parameter.  `Ideal` is what is asked of it, and only for the key, the nonce and the
associated data of the sealing at hand: no other ones open the ciphertext.  Of `serde_json` it is
asked that it reads what it has written.  Whether the record is then accepted is up to its reader,
and for a transaction up to the clock (`AdmittedAt`).
-/
import Rustee.Envelope.Carrier
import Rustee.Foundation.Base64
import Rustee.Foundation.JsonWriter
import Rustee.McpOAuth.Records
import Mathlib.Data.Vector.Defs

namespace Rustee.McpOAuth

open Rustee.Foundation

set_option autoImplicit false

def envelopeVersion : UInt8 := 1

def maxKeyIdBytes : Nat := 128

def maxEncryptedPlaintextBytes : Nat := 64 * 1024

def maxEncodedCiphertextBytes : Nat := 96 * 1024

def maxSerializedEnvelopeBytes : Nat := 128 * 1024

/-! ## Key rings -/

/-- `byte.is_ascii_alphanumeric() || b"-_.".contains(&byte)`. -/
def isKeyIdByte (byte : UInt8) : Bool :=
  (48 ≤ byte && byte ≤ 57) || (65 ≤ byte && byte ≤ 90) || (97 ≤ byte && byte ≤ 122) ||
    byte == 45 || byte == 95 || byte == 46

def validKeyId (keyId : String) : Bool :=
  !keyId.isEmpty && decide (byteLen keyId ≤ maxKeyIdBytes) && (utf8 keyId).all isKeyIdByte

abbrev Key : Type := List.Vector UInt8 32

abbrev Nonce : Type := List.Vector UInt8 12

/-- The active key is always one of the keys, and `new` and `with_retired_key` check the ids. -/
structure McpOAuthSecretKeyRing where
  activeKeyId : String
  keys : String → Option Key
  active : (keys activeKeyId).isSome = true
  valid : ∀ keyId, (keys keyId).isSome = true → validKeyId keyId = true

namespace McpOAuthSecretKeyRing

def activeKey (ring : McpOAuthSecretKeyRing) : Key := (ring.keys ring.activeKeyId).get ring.active

def decryptionKey (ring : McpOAuthSecretKeyRing) (keyId : String) : Option Key := ring.keys keyId

end McpOAuthSecretKeyRing

/-! ## Ciphers and records -/

/-- `AES_256_GCM` with a tag of sixteen bytes behind the ciphertext; the data after the nonce are
the associated ones. -/
structure Aead where
  sealInPlaceAppendTag : Key → Nonce → Bytes → Bytes → Option Bytes
  openInPlace : Key → Nonce → Bytes → Bytes → Option Bytes
  length_seal : ∀ {key nonce aad plaintext ciphertext},
    sealInPlaceAppendTag key nonce aad plaintext = some ciphertext →
      ciphertext.length = plaintext.length + 16

/-- What is sealed under these opens under these, to what it was, and under no others. -/
def Aead.Ideal (aead : Aead) (key : Key) (nonce : Nonce) (aad : Bytes) : Prop :=
  ∀ plaintext ciphertext, aead.sealInPlaceAppendTag key nonce aad plaintext = some ciphertext →
    ∀ key' nonce' aad' plaintext', aead.openInPlace key' nonce' aad' ciphertext = some plaintext' ↔
      key' = key ∧ nonce' = nonce ∧ aad' = aad ∧ plaintext' = plaintext

/-- A type that is stored: its `Serialize`, and its `Deserialize` at a time of the clock.  No value of
the types that are stored refuses to be serialized. -/
structure RecordType (α : Type) where
  toJson : α → Json
  fromJson : UInt64 → Json → Option α

inductive McpOAuthSecretCipherError where
  | randomnessUnavailable
  | payloadTooLarge
  | serializationRejected
  | envelopeRejected
  | keyUnavailable
  | authenticationRejected
  | deserializationRejected
  deriving DecidableEq, Repr

/-- What the records use of `serde_json`. -/
structure Serde where
  floats : JsonWriter.FloatPrinter
  fromSlice : Bytes → Option Json

def boundedPlaintext {α : Type} (serde : Serde) (type : RecordType α) (value : α) :
    Except McpOAuthSecretCipherError Bytes :=
  match Envelope.writeBounded maxEncryptedPlaintextBytes []
      (JsonWriter.writes serde.floats (type.toJson value)) with
  | none => .error .payloadTooLarge
  | some bytes => .ok bytes

inductive Purpose where
  | transaction
  | token
  deriving DecidableEq, Repr

/-- `TRANSACTION_PURPOSE` and `TOKEN_PURPOSE`. -/
def Purpose.text : Purpose → String
  | .transaction => "transaction"
  | .token => "token"

def associatedData (purpose : Purpose) (key : String) : Bytes :=
  utf8 ("rustee:mcp-oauth:v" ++ Nat.repr envelopeVersion.toNat ++ ":" ++ purpose.text ++ ":" ++ key)

structure EncryptedEnvelope where
  version : UInt8
  keyId : String
  nonce : String
  ciphertext : String

/-- The envelope as it is stored. -/
def EncryptedEnvelope.json (envelope : EncryptedEnvelope) : Json :=
  .object [("version", .number (.posInt envelope.version.toUInt64)), ("key_id", .string envelope.keyId),
    ("nonce", .string envelope.nonce), ("ciphertext", .string envelope.ciphertext)]

/-- `McpOAuthSecretCipher`: a ring, and the libraries it is used with. -/
structure McpOAuthSecretCipher where
  keyRing : McpOAuthSecretKeyRing
  aead : Aead
  serde : Serde

namespace McpOAuthSecretCipher

variable {α : Type} (cipher : McpOAuthSecretCipher) (type : RecordType α) (purpose : Purpose)
  (recordKey : String)

/-- `seal`, with the nonce that `SystemRandom` fills in, if it does. -/
def seal_ (random : Option Nonce) (value : α) : Except McpOAuthSecretCipherError EncryptedEnvelope := do
  let plaintext ← boundedPlaintext cipher.serde type value
  let nonce ← random.elim (.error .randomnessUnavailable) .ok
  let ciphertext ← (cipher.aead.sealInPlaceAppendTag cipher.keyRing.activeKey nonce
    (associatedData purpose recordKey) plaintext).elim (.error .authenticationRejected) .ok
  if ciphertext.length > maxEncryptedPlaintextBytes + 16 then .error .payloadTooLarge
  else
    .ok {
      version := envelopeVersion
      keyId := cipher.keyRing.activeKeyId
      nonce := String.ofList (Base64.encode nonce.toList)
      ciphertext := String.ofList (Base64.encode ciphertext) }

/-- `[u8; NONCE_LEN]` from a vector. -/
def nonceOf (bytes : Bytes) : Option Nonce :=
  if length : bytes.length = 12 then some ⟨bytes, length⟩ else none

/-- `open`, at a time of the clock. -/
def open_ (now : UInt64) (envelope : EncryptedEnvelope) : Except McpOAuthSecretCipherError α := do
  if envelope.version ≠ envelopeVersion ∨ ¬ validKeyId envelope.keyId ∨ byteLen envelope.nonce > 64 ∨
      byteLen envelope.ciphertext > maxEncodedCiphertextBytes then
    .error .envelopeRejected
  else
    let nonce ← (Base64.decode envelope.nonce.toList).elim (.error .envelopeRejected) .ok
    let nonce ← (nonceOf nonce).elim (.error .envelopeRejected) .ok
    let ciphertext ← (Base64.decode envelope.ciphertext.toList).elim (.error .envelopeRejected) .ok
    if ciphertext.length > maxEncryptedPlaintextBytes + 16 then .error .envelopeRejected
    else
      let material ← (cipher.keyRing.decryptionKey envelope.keyId).elim (.error .keyUnavailable) .ok
      let plaintext ← (cipher.aead.openInPlace material nonce (associatedData purpose recordKey)
        ciphertext).elim (.error .authenticationRejected) .ok
      ((cipher.serde.fromSlice plaintext).bind (type.fromJson now)).elim
        (.error .deserializationRejected) .ok

end McpOAuthSecretCipher

/-! ## The two records -/

section

variable {Url : Type} {api : UrlApi Url}

/-- What is stored for a purpose. -/
def Stored (api : UrlApi Url) : Purpose → Type
  | .transaction => McpOAuthPendingAuthorization api
  | .token => McpOAuthTokenSecrets api

def recordType (api : UrlApi Url) : (kind : Purpose) → RecordType (Stored api kind)
  | .transaction => ⟨McpOAuthPendingAuthorization.toJson, McpOAuthPendingAuthorization.fromJson⟩
  | .token => ⟨McpOAuthTokenSecrets.toJson, fun _ => McpOAuthTokenSecrets.fromJson⟩

/-- The reader accepts the record at that time: a transaction that expires within an hour, or has
expired, and any tokens. -/
def AdmittedAt (now : UInt64) : (kind : Purpose) → Stored api kind → Prop
  | .transaction, value =>
    (show McpOAuthPendingAuthorization api from value).expiresAtUnixSeconds.toNat ≤
      now.toNat + maxTransactionTtlSeconds
  | .token, _ => True

theorem validExpiry_iff {now expiry : UInt64} :
    validExpiry now expiry = true ↔ expiry.toNat ≤ now.toNat + maxTransactionTtlSeconds := by
  unfold validExpiry checkedSub
  split_ifs with ahead
  · rw [Option.all_some, decide_eq_true_iff]
    omega
  · refine iff_of_true rfl ?_
    omega

theorem fromJson_of_admitted {now : UInt64} {kind : Purpose} {value : Stored api kind}
    (admitted : AdmittedAt now kind value) :
    (recordType api kind).fromJson now ((recordType api kind).toJson value) = some value := by
  cases kind with
  | transaction =>
    exact (McpOAuthPendingAuthorization.pending_fromJson now _).trans (if_pos (validExpiry_iff.2 admitted))
  | token => exact McpOAuthTokenSecrets.secrets_fromJson _

theorem fromJson_of_not_admitted {now : UInt64} {kind : Purpose} {value : Stored api kind}
    (refused : ¬AdmittedAt now kind value) :
    (recordType api kind).fromJson now ((recordType api kind).toJson value) = none := by
  cases kind with
  | transaction =>
    exact (McpOAuthPendingAuthorization.pending_fromJson now _).trans
      (if_neg (mt validExpiry_iff.1 refused))
  | token => exact absurd trivial refused

end

/-! ## The associated data -/

/-- The purposes hold no colon, so the first one behind them ends them. -/
theorem associatedData_inj {purpose purpose' : Purpose} {key key' : String}
    (same : associatedData purpose key = associatedData purpose' key') :
    purpose = purpose' ∧ key = key' := by
  have texts := utf8_injective same
  simp only [String.append_assoc, String.append_right_inj] at texts
  have chars := congrArg String.toList texts
  simp only [String.toList_append] at chars
  have noColon (purpose : Purpose) : ':' ∉ purpose.text.toList := by cases purpose <;> decide +kernel
  obtain ⟨purposes, keys⟩ := append_separator_inj (noColon _) (noColon _) chars
  refine ⟨?_, String.toList_inj.1 keys⟩
  revert purposes
  cases purpose <;> cases purpose' <;> decide +kernel

/-! ## The envelope -/

/-- What a sealing has made. -/
structure SealedRecord {α : Type} (cipher : McpOAuthSecretCipher) (type : RecordType α) (purpose : Purpose)
    (recordKey : String) (nonce : Nonce) (value : α) (envelope : EncryptedEnvelope)
    (plaintext ciphertext : Bytes) : Prop where
  written : plaintext = JsonWriter.text cipher.serde.floats (type.toJson value)
  encrypted : cipher.aead.sealInPlaceAppendTag cipher.keyRing.activeKey nonce
    (associatedData purpose recordKey) plaintext = some ciphertext
  small : ciphertext.length ≤ maxEncryptedPlaintextBytes + 16
  isEnvelope : envelope = ⟨envelopeVersion, cipher.keyRing.activeKeyId,
    String.ofList (Base64.encode nonce.toList), String.ofList (Base64.encode ciphertext)⟩

/-- A value that is there, or an error. -/
theorem elim_eq_ok {ε α : Type} {x : Option α} {error : ε} {a : α} :
    x.elim (.error error) Except.ok = .ok a ↔ x = some a := by
  cases x <;> simp

namespace McpOAuthSecretCipher

variable {α : Type} {cipher : McpOAuthSecretCipher} {type : RecordType α} {purpose : Purpose}
  {recordKey : String} {envelope : EncryptedEnvelope}

theorem sealed_of_seal {random : Option Nonce} {value : α}
    (ok : cipher.seal_ type purpose recordKey random value = .ok envelope) :
    ∃ nonce plaintext ciphertext, random = some nonce ∧
      SealedRecord cipher type purpose recordKey nonce value envelope plaintext ciphertext := by
  obtain ⟨plaintext, isPlaintext, ok⟩ := bind_eq_ok.1 ok
  obtain ⟨nonce, isNonce, ok⟩ := bind_eq_ok.1 ok
  obtain ⟨ciphertext, isCiphertext, ok⟩ := bind_eq_ok.1 ok
  split_ifs at ok with large
  cases ok
  have written : plaintext = JsonWriter.text cipher.serde.floats (type.toJson value) := by
    unfold boundedPlaintext at isPlaintext
    split at isPlaintext
    · cases isPlaintext
    · rename_i wrote
      cases isPlaintext
      exact (Envelope.writeBounded_eq_some (Nat.zero_le _) wrote).1
  exact ⟨nonce, plaintext, ciphertext, elim_eq_ok.1 isNonce, written, elim_eq_ok.1 isCiphertext,
    Nat.le_of_not_lt large, rfl⟩

/-- A value whose text fits is sealed. -/
theorem exists_seal {value : α} {nonce : Nonce} {ciphertext : Bytes}
    (fits : (JsonWriter.text cipher.serde.floats (type.toJson value)).length ≤ maxEncryptedPlaintextBytes)
    (encrypted : cipher.aead.sealInPlaceAppendTag cipher.keyRing.activeKey nonce
      (associatedData purpose recordKey) (JsonWriter.text cipher.serde.floats (type.toJson value)) =
        some ciphertext) :
    ∃ envelope, cipher.seal_ type purpose recordKey (some nonce) value = .ok envelope := by
  have isPlaintext : boundedPlaintext cipher.serde type value =
      .ok (JsonWriter.text cipher.serde.floats (type.toJson value)) := by
    have wrote : Envelope.writeBounded maxEncryptedPlaintextBytes []
        (JsonWriter.writes cipher.serde.floats (type.toJson value)) =
          some (JsonWriter.text cipher.serde.floats (type.toJson value)) :=
      Envelope.writeBounded_of_fits (by simpa [JsonWriter.text] using fits)
    simp only [boundedPlaintext, wrote]
  have small : ¬ ciphertext.length > maxEncryptedPlaintextBytes + 16 := by
    rw [cipher.aead.length_seal encrypted]
    omega
  exact ⟨⟨envelopeVersion, cipher.keyRing.activeKeyId, String.ofList (Base64.encode nonce.toList),
      String.ofList (Base64.encode ciphertext)⟩, bind_eq_ok.2 ⟨_, isPlaintext, bind_eq_ok.2
    ⟨nonce, rfl, bind_eq_ok.2 ⟨ciphertext, elim_eq_ok.2 encrypted, if_neg small⟩⟩⟩⟩

/-- What an envelope that was opened has been read from. -/
theorem open_eq_ok {now : UInt64} {value : α}
    (ok : cipher.open_ type purpose recordKey now envelope = .ok value) :
    ∃ nonce ciphertext material plaintext,
      Base64.decode envelope.nonce.toList = some nonce.toList ∧
      Base64.decode envelope.ciphertext.toList = some ciphertext ∧
      cipher.aead.openInPlace material nonce (associatedData purpose recordKey) ciphertext =
        some plaintext := by
  unfold open_ at ok
  split_ifs at ok with rejected
  obtain ⟨bytes, isBytes, ok⟩ := bind_eq_ok.1 ok
  obtain ⟨nonce, isNonce, ok⟩ := bind_eq_ok.1 ok
  obtain ⟨ciphertext, isCiphertext, ok⟩ := bind_eq_ok.1 ok
  split_ifs at ok with large
  obtain ⟨material, -, ok⟩ := bind_eq_ok.1 ok
  obtain ⟨plaintext, isPlaintext, ok⟩ := bind_eq_ok.1 ok
  rw [elim_eq_ok, nonceOf] at isNonce
  split_ifs at isNonce with length
  cases isNonce
  exact ⟨⟨bytes, length⟩, ciphertext, material, plaintext, elim_eq_ok.1 isBytes,
    elim_eq_ok.1 isCiphertext, elim_eq_ok.1 isPlaintext⟩

end McpOAuthSecretCipher

/-! ## Sizes -/

theorem utf8_encode_plain (data : Bytes) :
    ∀ byte ∈ utf8 (String.ofList (Base64.encode data)), JsonWriter.escape byte = none := by
  have plain : (Base64.alphabet.all fun c => (String.utf8EncodeChar c).all fun byte =>
      (JsonWriter.escape byte).isNone) = true := by
    decide +kernel
  simp only [List.all_eq_true, Option.isNone_iff_eq_none] at plain
  intro byte member
  rw [JsonWriter.utf8_eq_bytes, String.toList_ofList, Text.bytes, List.mem_flatMap] at member
  obtain ⟨c, isChar, isByte⟩ := member
  exact plain c (Base64.encode_mem data c isChar) byte isByte

theorem byteLen_encode (data : Bytes) :
    byteLen (String.ofList (Base64.encode data)) = (4 * data.length + 2) / 3 := by
  have one : (Base64.alphabet.all fun c => c.utf8Size == 1) = true := by decide +kernel
  simp only [List.all_eq_true, beq_iff_eq] at one
  rw [byteLen_ofList fun c member => one c (Base64.encode_mem data c member), Base64.length_encode]

theorem escape_isKeyIdByte {byte : UInt8} (isKeyId : isKeyIdByte byte = true) :
    JsonWriter.escape byte = none := by
  have all : ∀ n : Fin 256, isKeyIdByte (UInt8.ofNat n) = true →
      JsonWriter.escape (UInt8.ofNat n) = none := by decide +kernel
  have same : UInt8.ofNat byte.toNat = byte := UInt8.ofNat_toNat
  simpa [same, isKeyId] using all ⟨byte.toNat, byte.toNat_lt⟩

theorem McpOAuthSecretKeyRing.valid_activeKeyId (ring : McpOAuthSecretKeyRing) :
    byteLen ring.activeKeyId ≤ maxKeyIdBytes ∧
      ∀ byte ∈ utf8 ring.activeKeyId, JsonWriter.escape byte = none := by
  have valid := ring.valid ring.activeKeyId ring.active
  simp only [validKeyId, Bool.and_eq_true, decide_eq_true_eq, List.all_eq_true] at valid
  exact ⟨valid.1.2, fun byte member => escape_isKeyIdByte (valid.2 byte member)⟩

theorem length_json (floats : JsonWriter.FloatPrinter) (envelope : EncryptedEnvelope) :
    (JsonWriter.text floats envelope.json).length =
      (Nat.repr envelope.version.toNat).toList.length +
        (JsonWriter.stringWrites envelope.keyId).flatten.length +
      (JsonWriter.stringWrites envelope.nonce).flatten.length +
      (JsonWriter.stringWrites envelope.ciphertext).flatten.length + 45 := by
  have names : (JsonWriter.stringWrites "version").flatten.length = 9 ∧
      (JsonWriter.stringWrites "key_id").flatten.length = 8 ∧
      (JsonWriter.stringWrites "nonce").flatten.length = 7 ∧
      (JsonWriter.stringWrites "ciphertext").flatten.length = 12 := by decide +kernel
  have digits : (ascii (Nat.repr envelope.version.toUInt64.toNat)).length =
      (Nat.repr envelope.version.toNat).toList.length := by
    rw [ascii, List.length_map, UInt8.toNat_toUInt64]
  simp only [JsonWriter.text, EncryptedEnvelope.json, JsonWriter.writes, JsonWriter.fieldsWrites,
    JsonWriter.separator, JsonWriter.numberText, Bool.false_eq_true, if_true, if_false,
    List.flatten_cons, List.flatten_nil, List.flatten_append, List.length_append, List.length_cons,
    List.length_nil, names, digits]
  omega

namespace McpOAuthSecretCipher

variable {α : Type} {cipher : McpOAuthSecretCipher} {type : RecordType α} {purpose : Purpose}
  {recordKey : String} {nonce : Nonce} {value : α} {envelope : EncryptedEnvelope}
  {plaintext ciphertext : Bytes}

/-- The record, with its base64 and the texts around it, stays below the bound. -/
theorem length_sealed
    (made : SealedRecord cipher type purpose recordKey nonce value envelope plaintext ciphertext)
    (floats : JsonWriter.FloatPrinter) :
    (JsonWriter.text floats envelope.json).length ≤ maxSerializedEnvelopeBytes := by
  obtain ⟨shortId, plainId⟩ := cipher.keyRing.valid_activeKeyId
  have small := made.small
  have nonceBytes : nonce.toList.length = 12 := nonce.toList_length
  have version : (Nat.repr envelopeVersion.toNat).toList.length = 1 := by decide +kernel
  rw [length_json, made.isEnvelope, JsonWriter.length_stringWrites_of_plain plainId,
    JsonWriter.length_stringWrites_of_plain (utf8_encode_plain _),
    JsonWriter.length_stringWrites_of_plain (utf8_encode_plain _), byteLen_encode, byteLen_encode,
    nonceBytes, version]
  simp only [maxKeyIdBytes, maxEncryptedPlaintextBytes, maxSerializedEnvelopeBytes] at *
  omega

theorem open_sealed
    (made : SealedRecord cipher type purpose recordKey nonce value envelope plaintext ciphertext)
    (ideal : cipher.aead.Ideal cipher.keyRing.activeKey nonce (associatedData purpose recordKey))
    (reads : cipher.serde.fromSlice plaintext = some (type.toJson value))
    {ring : McpOAuthSecretKeyRing}
    (kept : ring.decryptionKey cipher.keyRing.activeKeyId = some cipher.keyRing.activeKey)
    (now : UInt64) :
    open_ ⟨ring, cipher.aead, cipher.serde⟩ type purpose recordKey now envelope =
      (type.fromJson now (type.toJson value)).elim (.error .deserializationRejected) .ok := by
  have opened := (ideal plaintext ciphertext made.encrypted _ _ _ plaintext).2 ⟨rfl, rfl, rfl, rfl⟩
  have small := made.small
  have nonceBytes : nonce.toList.length = 12 := nonce.toList_length
  have isNonce : nonceOf nonce.toList = some nonce := dif_pos nonceBytes
  have accepted : ¬ (envelopeVersion ≠ envelopeVersion ∨ ¬ validKeyId cipher.keyRing.activeKeyId ∨
      byteLen (String.ofList (Base64.encode nonce.toList)) > 64 ∨
      byteLen (String.ofList (Base64.encode ciphertext)) > maxEncodedCiphertextBytes) := by
    have valid := cipher.keyRing.valid _ cipher.keyRing.active
    rw [byteLen_encode, byteLen_encode, nonceBytes]
    simp only [maxEncryptedPlaintextBytes, maxEncodedCiphertextBytes] at *
    simp only [ne_eq, not_true_eq_false, valid, false_or]
    omega
  rw [made.isEnvelope, open_, if_neg accepted]
  have decoded (data : Bytes) :
      Base64.decode (String.ofList (Base64.encode data)).toList = some data := by
    rw [String.toList_ofList, Base64.decode_encode]
  simp only [decoded, isNonce, kept, opened, reads, Option.elim_some, Option.bind_some,
    if_neg (Nat.not_lt.2 small), bind, Except.bind]

/-- **What was sealed is read back, and only in its place.**  A ring that still has the key opens the
envelope to the value, if its reader accepts it at that time; a transaction that expires more than an
hour after the time of the opening is refused. -/
theorem sealed_record_opens {Url : Type} (api : UrlApi Url) (serde : Serde) (kind purpose : Purpose)
    (recordKey : String) (value : Stored api kind) (aead : Aead) (ring : McpOAuthSecretKeyRing)
    (random : Option Nonce) (envelope : EncryptedEnvelope)
    (ok : seal_ ⟨ring, aead, serde⟩ (recordType api kind) purpose recordKey random value = .ok envelope)
    (ideal : ∀ nonce ∈ random, aead.Ideal ring.activeKey nonce (associatedData purpose recordKey))
    (reads : serde.fromSlice (JsonWriter.text serde.floats ((recordType api kind).toJson value)) =
      some ((recordType api kind).toJson value)) :
    (∀ (later : McpOAuthSecretKeyRing) (now : UInt64),
      later.decryptionKey ring.activeKeyId = some ring.activeKey →
      (AdmittedAt now kind value →
        open_ ⟨later, aead, serde⟩ (recordType api kind) purpose recordKey now envelope = .ok value) ∧
      (¬AdmittedAt now kind value →
        open_ ⟨later, aead, serde⟩ (recordType api kind) purpose recordKey now envelope =
          .error .deserializationRejected)) ∧
    (∀ floats, (JsonWriter.text floats envelope.json).length ≤ maxSerializedEnvelopeBytes) ∧
    ∀ (kind' : Purpose) (later : McpOAuthSecretKeyRing) (now : UInt64) (purpose' : Purpose)
      (recordKey' : String), (purpose', recordKey') ≠ (purpose, recordKey) →
      ∃ error, open_ ⟨later, aead, serde⟩ (recordType api kind') purpose' recordKey' now envelope =
        .error error := by
  obtain ⟨nonce, plaintext, ciphertext, isNonce, made⟩ := sealed_of_seal ok
  have ideal := ideal nonce isNonce
  refine ⟨fun later now kept => ?_, length_sealed made, ?_⟩
  · have opened := open_sealed made ideal (by rw [made.written, reads]) kept now
    constructor
    · intro admitted
      rw [fromJson_of_admitted admitted] at opened
      exact opened
    · intro refused
      rw [fromJson_of_not_admitted refused] at opened
      exact opened
  · intro kind' later now purpose' recordKey' different
    cases opened : open_ ⟨later, aead, serde⟩ (recordType api kind') purpose' recordKey' now envelope with
    | error error => exact ⟨error, rfl⟩
    | ok value' =>
      obtain ⟨nonce', ciphertext', material, plaintext', -, isCiphertext, decrypted⟩ := open_eq_ok opened
      rw [made.isEnvelope, String.toList_ofList, Base64.decode_encode] at isCiphertext
      cases isCiphertext
      obtain ⟨-, -, sameData, -⟩ := (ideal plaintext ciphertext made.encrypted _ _ _ _).1 decrypted
      obtain ⟨rfl, rfl⟩ := associatedData_inj sameData
      exact absurd rfl different

/-! A cipher that knows one key, one nonce and one record, and a transaction of an hour. -/

def oneKey : Key := ⟨List.replicate 32 7, rfl⟩

def oneNonce : Nonce := ⟨List.replicate 12 0, rfl⟩

def oneRecord : Aead where
  sealInPlaceAppendTag _ _ _ plaintext := some (plaintext ++ List.replicate 16 0)
  openInPlace key nonce aad ciphertext :=
    if key = oneKey ∧ nonce = oneNonce ∧ aad = associatedData .transaction "alice" then
      some (ciphertext.take (ciphertext.length - 16))
    else none
  length_seal sealed := by
    cases sealed
    rw [List.length_append, List.length_replicate]

theorem ideal_oneRecord : oneRecord.Ideal oneKey oneNonce (associatedData .transaction "alice") := by
  intro plaintext ciphertext sealed key nonce aad plaintext'
  cases sealed
  simp only [oneRecord, List.length_append, List.length_replicate, Nat.add_sub_cancel,
    List.take_left, Option.ite_none_right_eq_some, Option.some.injEq, and_assoc]
  tauto

def oneRing : McpOAuthSecretKeyRing where
  activeKeyId := "2026"
  keys keyId := if keyId = "2026" then some oneKey else none
  active := rfl
  valid keyId present := by
    by_cases same : keyId = "2026"
    · rw [same]
      decide +kernel
    · rw [if_neg same] at present
      cases present

inductive TwoUrls where
  | tokenEndpoint
  | resource
  deriving DecidableEq

def twoUrls : UrlApi TwoUrls where
  parse text :=
    if text = "https://idp.example/token" then some .tokenEndpoint
    else if text = "https://mcp.example/" then some .resource
    else none
  asStr
    | .tokenEndpoint => "https://idp.example/token"
    | .resource => "https://mcp.example/"
  scheme _ := "https"
  host
    | .tokenEndpoint => some (.domain "idp.example")
    | .resource => some (.domain "mcp.example")
  username _ := ""
  password _ := none
  query _ := none
  fragment _ := none
  parse_asStr url := by cases url <;> decide +kernel

/-- Begun at 1790000000 for an hour. -/
def hourLong : McpOAuthPendingAuthorization twoUrls where
  state := "0123456789abcdef0123456789abcdef0123456789abcdef"
  codeVerifier := "fedcba9876543210fedcba9876543210fedcba9876543210"
  tokenEndpoint := .tokenEndpoint
  resource := .resource
  expiresAtUnixSeconds := 1790003600
  valid := by decide +kernel

/-- No record has a float. -/
def noFloats : JsonWriter.FloatPrinter where
  text _ := ascii "0.0"
  numeral _ _ := @JsonNumeral.parts [] (ascii "0") (ascii ".0") [] (.inl rfl) rfl (.digits rfl) .none

/-- Reads the text of one document. -/
def readsOnly (json : Json) : Serde where
  floats := noFloats
  fromSlice bytes := if bytes = JsonWriter.text noFloats json then some json else none

theorem readsOnly_fromSlice (json : Json) :
    (readsOnly json).fromSlice (JsonWriter.text (readsOnly json).floats json) = some json := if_pos rfl

def hourLongSerde : Serde := readsOnly hourLong.toJson

theorem seal_hourLong : ∃ envelope, seal_ ⟨oneRing, oneRecord, hourLongSerde⟩ (recordType twoUrls .transaction)
    .transaction "alice" (some oneNonce) hourLong = .ok envelope :=
  exists_seal (by decide +kernel) rfl

/-- It is read back within the hour. -/
theorem sealed_record_opens_hourLong : ∃ envelope,
    seal_ ⟨oneRing, oneRecord, hourLongSerde⟩ (recordType twoUrls .transaction) .transaction "alice"
        (some oneNonce) hourLong = .ok envelope ∧
      open_ ⟨oneRing, oneRecord, hourLongSerde⟩ (recordType twoUrls .transaction) .transaction "alice"
        1790000000 envelope = .ok hourLong := by
  obtain ⟨envelope, sealed⟩ := seal_hourLong
  have opens := sealed_record_opens twoUrls hourLongSerde .transaction .transaction "alice" hourLong
    oneRecord oneRing (some oneNonce) envelope sealed (by rintro nonce ⟨⟩; exact ideal_oneRecord)
    (readsOnly_fromSlice _)
  have admitted : @AdmittedAt _ twoUrls 1790000000 .transaction hourLong :=
    show 1790003600 ≤ 1790000000 + 60 * 60 by decide
  exact ⟨envelope, sealed, (opens.1 oneRing 1790000000 rfl).1 admitted⟩

/-- Where the clock is a second behind, it is not. -/
theorem early_clock_refuses : ∃ envelope,
    seal_ ⟨oneRing, oneRecord, hourLongSerde⟩ (recordType twoUrls .transaction) .transaction "alice"
        (some oneNonce) hourLong = .ok envelope ∧
      oneRing.decryptionKey "2026" = some oneKey ∧
      open_ ⟨oneRing, oneRecord, hourLongSerde⟩ (recordType twoUrls .transaction) .transaction "alice"
        1789999999 envelope = .error .deserializationRejected := by
  obtain ⟨envelope, sealed⟩ := seal_hourLong
  obtain ⟨nonce, plaintext, ciphertext, ⟨⟩, made⟩ := sealed_of_seal sealed
  have reads : hourLongSerde.fromSlice plaintext = some hourLong.toJson := by
    rw [made.written]
    exact readsOnly_fromSlice hourLong.toJson
  have opened := open_sealed made ideal_oneRecord reads
    (show oneRing.decryptionKey oneRing.activeKeyId = some oneKey from rfl) 1789999999
  have refused : ¬@AdmittedAt _ twoUrls 1789999999 .transaction hourLong :=
    show ¬1790003600 ≤ 1789999999 + 60 * 60 by decide
  have unread := fromJson_of_not_admitted refused
  exact ⟨envelope, sealed, rfl, opened.trans (congrArg (Option.elim · _ _) unread)⟩

end McpOAuthSecretCipher

end Rustee.McpOAuth
