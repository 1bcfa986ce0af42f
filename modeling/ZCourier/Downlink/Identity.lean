import ZCourier.Downlink.Message

/-!
# Message identity

The fingerprint that makes a resubmitted message recognisable, after
`internal/downlink/identity.go`. SHA-256 is a parameter (`Sha256`). Read
`identity_input_inj` first: the hashed encoding determines the client, the device, the
message type, the acknowledgement flag and the digest of the body.
-/

namespace ZCourier.Downlink

open Go

/-- The hash function of `crypto/sha256`: digests have `sha256.Size` bytes. -/
class Sha256 where
  sum256 : Bytes → Bytes
  length_sum256 : ∀ data, (sum256 data).length = 32

/-- A stand-in for the hash that can be evaluated: a polynomial in the bytes, modulo `2 ^ 256`. -/
@[reducible] def Sha256.polynomial : Sha256 where
  sum256 data :=
    let value := data.foldl (fun acc byte => acc * 257 + byte.toNat + 1) 0
    (List.range 32).map fun i => UInt8.ofNat (value / 256 ^ i)
  length_sum256 := by simp

/-- `binary.BigEndian.PutUint32`. -/
def putUint32 (n : Nat) : Bytes :=
  [UInt8.ofNat (n / 2 ^ 24), UInt8.ofNat (n / 2 ^ 16), UInt8.ofNat (n / 2 ^ 8), UInt8.ofNat n]

/-- `messageIdentityDomain`. -/
def messageIdentityDomain : GoString := ascii "z-courier-downlink-identity-v1"

/-- What `writeIdentityBytes` writes: the length modulo `2 ^ 32` and the bytes. -/
def identityBytes (value : Bytes) : Bytes :=
  putUint32 value.length ++ value

/-- The content of a byte slice; nil is empty. -/
def bodyBytes (body : Option Bytes) : Bytes :=
  body.getD []

/-- The five fields that identify a message, apart from its id. -/
structure Identity where
  clientID : GoString
  deviceID : GoString
  msgID : UInt32
  ackRequired : Bool
  body : Bytes
  deriving DecidableEq

def Message.identity (message : Message) : Identity :=
  ⟨message.clientID, message.deviceID, message.msgID, message.ackRequired, bodyBytes message.body⟩

def PushRequest.identity (req : PushRequest) : Identity :=
  ⟨req.clientID, req.deviceID, req.msgID, req.ackRequired, bodyBytes req.body⟩

/-- The variable-length fields are shorter than `2 ^ 32` bytes. -/
def Identity.Fits (identity : Identity) : Prop :=
  identity.clientID.length < 2 ^ 32 ∧ identity.deviceID.length < 2 ^ 32

variable [Sha256]

/-- The bytes `messageIdentityFingerprint` hashes. -/
def identityInput (identity : Identity) : Bytes :=
  identityBytes messageIdentityDomain ++ identityBytes identity.clientID ++
    identityBytes identity.deviceID ++ putUint32 identity.msgID.toNat ++
    [if identity.ackRequired then 1 else 0] ++ Sha256.sum256 identity.body

/-- `messageIdentityFingerprint`. -/
def messageIdentityFingerprint (message : Message) : Bytes :=
  Sha256.sum256 (identityInput message.identity)

/-- `identityFingerprint`: the stored fingerprint if it has the right size. -/
def identityFingerprint (message : Message) : Bytes :=
  if message.identityFingerprint.length = 32 then message.identityFingerprint
  else messageIdentityFingerprint message

/-- `messagesHaveSameIdentity`. -/
def messagesHaveSameIdentity (left right : Message) : Bool :=
  identityFingerprint left = identityFingerprint right

/-- The digests on which SHA-256 is assumed injective: those of the identity encoding and of
the body. -/
def hashedInputs (identity : Identity) : Set Bytes :=
  {identityInput identity, identity.body}

omit [Sha256] in
theorem put_uint32_inj {m n : Nat} (hm : m < 2 ^ 32) (hn : n < 2 ^ 32)
    (h : putUint32 m = putUint32 n) : m = n := by
  simp only [putUint32, List.cons.injEq, and_true, ← UInt8.toNat_inj, UInt8.toNat_ofNat'] at h
  omega

omit [Sha256] in
theorem identity_bytes_append_inj {a b x y : Bytes} (ha : a.length < 2 ^ 32)
    (hb : b.length < 2 ^ 32) (h : identityBytes a ++ x = identityBytes b ++ y) :
    a = b ∧ x = y := by
  simp only [identityBytes, List.append_assoc] at h
  obtain ⟨hsize, hrest⟩ := List.append_inj h rfl
  have hlength := put_uint32_inj ha hb hsize
  exact List.append_inj hrest hlength

theorem identity_input_inj {a b : Identity} (ha : a.Fits) (hb : b.Fits)
    (h : identityInput a = identityInput b) :
    a.clientID = b.clientID ∧ a.deviceID = b.deviceID ∧ a.msgID = b.msgID ∧
      a.ackRequired = b.ackRequired ∧ Sha256.sum256 a.body = Sha256.sum256 b.body := by
  simp only [identityInput, List.append_assoc] at h
  obtain ⟨-, h⟩ := identity_bytes_append_inj (by decide) (by decide) h
  obtain ⟨hclient, h⟩ := identity_bytes_append_inj ha.1 hb.1 h
  obtain ⟨hdevice, h⟩ := identity_bytes_append_inj ha.2 hb.2 h
  obtain ⟨hmsg, h⟩ := List.append_inj h rfl
  obtain ⟨hack, hbody⟩ := List.append_inj h rfl
  refine ⟨hclient, hdevice, ?_, ?_, hbody⟩
  · exact UInt32.toNat_inj.mp
      (put_uint32_inj a.msgID.toNat_lt_size b.msgID.toNat_lt_size hmsg)
  · revert hack
    cases a.ackRequired <;> cases b.ackRequired <;> simp

theorem fingerprint_inj {a b : Message} {inputs : Set Bytes}
    (hinj : Set.InjOn Sha256.sum256 inputs) (ha : a.identity.Fits) (hb : b.identity.Fits)
    (hina : hashedInputs a.identity ⊆ inputs) (hinb : hashedInputs b.identity ⊆ inputs) :
    messageIdentityFingerprint a = messageIdentityFingerprint b ↔ a.identity = b.identity := by
  constructor
  · intro h
    have hinput := hinj (hina (by simp [hashedInputs])) (hinb (by simp [hashedInputs])) h
    obtain ⟨hclient, hdevice, hmsg, hack, hbody⟩ := identity_input_inj ha hb hinput
    have hbody := hinj (hina (by simp [hashedInputs])) (hinb (by simp [hashedInputs])) hbody
    revert hclient hdevice hmsg hack hbody
    cases a.identity
    cases b.identity
    simp_all
  · intro h
    rw [messageIdentityFingerprint, messageIdentityFingerprint, h]

@[simp] theorem length_fingerprint (message : Message) :
    (messageIdentityFingerprint message).length = 32 :=
  Sha256.length_sum256 _

end ZCourier.Downlink
