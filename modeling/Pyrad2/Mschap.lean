import Pyrad2.Tools

/-!
# MS-CHAPv2

The responses of MS-CHAPv2, to both sides of a challenge. MD4, SHA-1 and DES are arbitrary functions
here, and of the password only its NT hash is used.
-/

namespace Pyrad2

/-- The digests and the cipher of MS-CHAPv2. -/
structure Mschap where
  md4 : Bytes → Bytes
  sha1 : Bytes → Bytes
  /-- `_des_encrypt(key7, plaintext8)` -/
  desEncrypt : Bytes → Bytes → Bytes

namespace Mschap

/-- A code unit, little endian. -/
def codeUnit (n : ℕ) : Bytes := [UInt8.ofNat (n % 256), UInt8.ofNat (n / 256)]

/-- `str.encode("utf-16-le")` -/
def utf16le (s : String) : Bytes :=
  s.toList.flatMap fun c ↦
    if c.toNat < 0x10000 then codeUnit c.toNat
    else codeUnit (0xD800 + (c.toNat - 0x10000) / 0x400) ++
      codeUnit (0xDC00 + (c.toNat - 0x10000) % 0x400)

/-- The upper-case hexadecimal digits of a byte, as bytes. -/
def hexUpper (b : UInt8) : Bytes :=
  (Tools.hexByte b).map fun c ↦ UInt8.ofNat c.toUpper.toNat

variable (X : Mschap)

/-- `nt_password_hash(password)` -/
def ntPasswordHash (password : String) : Bytes := X.md4 (utf16le password)

/-- The error for a byte string that does not have the length that is asked for. -/
def badLength (what : String) (length : ℕ) (value : Bytes) : Exn :=
  .valueError (what ++ " must be " ++ toString length ++ " bytes, got " ++ toString value.length)

/-- `hash_nt_password_hash(password_hash)` -/
def hashNtPasswordHash (passwordHash : Bytes) : Except Exn Bytes :=
  if passwordHash.length ≠ 16 then .error (badLength "NT password hash" 16 passwordHash)
  else .ok (X.md4 passwordHash)

/-- `challenge_hash(peer_challenge, authenticator_challenge, user_name)` -/
def challengeHash (peerChallenge authenticatorChallenge userName : Bytes) : Except Exn Bytes := do
  if peerChallenge.length ≠ 16 then throw (badLength "Peer challenge" 16 peerChallenge)
  if authenticatorChallenge.length ≠ 16 then
    throw (badLength "Authenticator challenge" 16 authenticatorChallenge)
  return (X.sha1 (peerChallenge ++ authenticatorChallenge ++ userName)).take 8

/-- `challenge_response(challenge8, password_hash)` -/
def challengeResponse (challenge8 passwordHash : Bytes) : Except Exn Bytes := do
  if challenge8.length ≠ 8 then throw (badLength "Challenge" 8 challenge8)
  if passwordHash.length ≠ 16 then throw (badLength "Password hash" 16 passwordHash)
  let z := passwordHash ++ List.replicate 5 0
  return X.desEncrypt (z.take 7) challenge8 ++ X.desEncrypt ((z.drop 7).take 7) challenge8 ++
    X.desEncrypt ((z.drop 14).take 7) challenge8

/-- `generate_nt_response(authenticator_challenge, peer_challenge, user_name, password)` -/
def generateNtResponse (authenticatorChallenge peerChallenge userName : Bytes)
    (password : String) : Except Exn Bytes := do
  let challenge ← X.challengeHash peerChallenge authenticatorChallenge userName
  X.challengeResponse challenge (X.ntPasswordHash password)

/-- `_AUTH_RESPONSE_MAGIC_1` -/
def authResponseMagic1 : Bytes := Tools.utf8 "Magic server to client signing constant"

/-- `_AUTH_RESPONSE_MAGIC_2` -/
def authResponseMagic2 : Bytes := Tools.utf8 "Pad to make it do more than one iteration"

/-- The bytes `S=`, which mark an authenticator response. -/
def responseMarker : Bytes := [0x53, 0x3D]

/-- `generate_authenticator_response(...)` -/
def generateAuthenticatorResponse (password : String)
    (ntResponse peerChallenge authenticatorChallenge userName : Bytes) : Except Exn Bytes := do
  if ntResponse.length ≠ 24 then throw (badLength "NT response" 24 ntResponse)
  let passwordHashHash ← X.hashNtPasswordHash (X.ntPasswordHash password)
  let inner := X.sha1 (passwordHashHash ++ ntResponse ++ authResponseMagic1)
  let serverChallenge ← X.challengeHash peerChallenge authenticatorChallenge userName
  let final := X.sha1 (inner ++ serverChallenge ++ authResponseMagic2)
  return responseMarker ++ final.flatMap hexUpper

/-- `received[received.find(b"S="):]`, or nothing where the marker is not found. -/
def fromMarker : Bytes → Option Bytes
  | [] => none
  | b :: rest => if responseMarker <+: b :: rest then some (b :: rest) else fromMarker rest

/-- `verify_authenticator_response(...)` -/
def verifyAuthenticatorResponse (password : String)
    (ntResponse peerChallenge authenticatorChallenge userName received : Bytes) :
    Except Exn Bool := do
  let expected ← X.generateAuthenticatorResponse password ntResponse peerChallenge
    authenticatorChallenge userName
  match fromMarker received with
  | none => return false
  | some response => return response.take 42 = expected

/-! ### The password enters through its hash -/

variable {X} {password password' : String}

theorem generateNtResponse_congr (h : X.ntPasswordHash password' = X.ntPasswordHash password)
    (authenticatorChallenge peerChallenge userName : Bytes) :
    X.generateNtResponse authenticatorChallenge peerChallenge userName password' =
      X.generateNtResponse authenticatorChallenge peerChallenge userName password := by
  rw [generateNtResponse, generateNtResponse, h]

theorem verifyAuthenticatorResponse_congr
    (h : X.ntPasswordHash password' = X.ntPasswordHash password)
    (ntResponse peerChallenge authenticatorChallenge userName received : Bytes) :
    X.verifyAuthenticatorResponse password' ntResponse peerChallenge authenticatorChallenge
        userName received =
      X.verifyAuthenticatorResponse password ntResponse peerChallenge authenticatorChallenge
        userName received := by
  rw [verifyAuthenticatorResponse, verifyAuthenticatorResponse, generateAuthenticatorResponse,
    generateAuthenticatorResponse, h]

/-! ### The digests -/

/-- The digests have the lengths of MD4 and of SHA-1. -/
structure DigestLengths (X : Mschap) : Prop where
  md4 : ∀ b, (X.md4 b).length = 16
  sha1 : ∀ b, (X.sha1 b).length = 20

/-- Digests and a cipher that give zeros. -/
def zero : Mschap where
  md4 := fun _ ↦ List.replicate 16 0
  sha1 := fun _ ↦ List.replicate 20 0
  desEncrypt := fun _ _ ↦ List.replicate 8 0

theorem digestLengths_zero : zero.DigestLengths := ⟨fun _ ↦ rfl, fun _ ↦ rfl⟩

/-- Challenges of 16 bytes have a response. -/
theorem exists_generateNtResponse (hsha1 : ∀ b, 8 ≤ (X.sha1 b).length)
    (hhash : (X.ntPasswordHash password).length = 16)
    {authenticatorChallenge peerChallenge : Bytes} (hauth : authenticatorChallenge.length = 16)
    (hpeer : peerChallenge.length = 16) (userName : Bytes) :
    ∃ ntResponse, X.generateNtResponse authenticatorChallenge peerChallenge userName password =
      .ok ntResponse := by
  have hchallenge : X.challengeHash peerChallenge authenticatorChallenge userName =
      .ok ((X.sha1 (peerChallenge ++ authenticatorChallenge ++ userName)).take 8) := by
    rw [challengeHash, if_neg (by simp [hpeer]), if_neg (by simp [hauth])]
    rfl
  rw [generateNtResponse, hchallenge, Except.bind_of_ok, challengeResponse,
    if_neg (by simp [hsha1]), if_neg (by simp [hhash])]
  exact ⟨_, rfl⟩

/-- A response rests on a hash of 16 bytes. -/
theorem length_ntPasswordHash_of_generateNtResponse
    {authenticatorChallenge peerChallenge userName ntResponse : Bytes}
    (h : X.generateNtResponse authenticatorChallenge peerChallenge userName password =
      .ok ntResponse) : (X.ntPasswordHash password).length = 16 := by
  obtain ⟨challenge, -, h⟩ := Except.bind_eq_ok_iff.1 h
  rw [challengeResponse] at h
  split at h
  · cases h
  split at h
  · cases h
  case isFalse hhash => exact not_not.1 hhash

end Mschap

end Pyrad2
