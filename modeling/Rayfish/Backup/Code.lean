import Rayfish.Backup.Restore
import Rayfish.Lib.Base58
import Mathlib.Data.FinEnum
import Mathlib.Data.Set.Finite.List

/-!
# Backup codes

Backups of an identity as base58 texts (`keybackup.rs`): `enc1` holds the key and `enc2` the
key, the certificate and the networks, both encrypted under a password; `opb1` is what
`enc2` encrypts, for a password manager. The encoder of `enc2` bounds the plaintext, which
keeps its codes below the decoder's bound on the text. The encoder of `opb1` bounds
nothing: a code of more than 393212 bytes is handed out and refused by the decoder
(`onepassword_backup_lost`). `backup_restores_iff` has the exact condition.

MessagePack, Argon2 and the AEAD are parameters that round-trip.
-/

namespace Rayfish

open Lib

variable {Signature Rest Ledger : Type}

structure BackupPayload (Signature Rest : Type) where
  secretKey : BitVec 256
  deviceCert : Option (SignedCert Signature)
  networks : List (NetworkFile Rest)
  deriving DecidableEq

/-- `rmp_serde` at `BackupPayload`. -/
structure PayloadCodec (Signature Rest : Type) where
  encode : BackupPayload Signature Rest → Option Bytes
  decode : Bytes → Option (BackupPayload Signature Rest)
  decode_encode : ∀ {payload bytes}, encode payload = some bytes → decode bytes = some payload

/-- Argon2 and XChaCha20Poly1305. -/
structure PasswordCipher where
  derive : List Char → Bytes → Option Bytes
  encrypt : (key nonce plaintext : Bytes) → Option Bytes
  decrypt : (key nonce ciphertext : Bytes) → Option Bytes
  decrypt_encrypt : ∀ {key nonce plaintext ciphertext},
    encrypt key nonce plaintext = some ciphertext → decrypt key nonce ciphertext = some plaintext
  length_encrypt : ∀ {key nonce plaintext ciphertext},
    encrypt key nonce plaintext = some ciphertext → ciphertext.length = plaintext.length + 16

inductive BackupError where
  | emptyPassword
  | backupTooLarge
  | keyDerivation
  | encryption
  | encode
  | loadCertificate
  | certificateOfAnotherIdentity
  | codeTooLarge
  | base58 (error : Base58Error)
  | tooShort
  | unknownFormat
  | wrongLength (len : Nat)
  | storedInOnepassword
  | invalidContents
  | invalidLength
  | passwordRequired
  | decryption
  | invalidKeyData
  | invalidCertificate
  | certificateOfAnotherDevice

namespace Backup

def magicV1 : Bytes := [0x65, 0x6e, 0x63, 0x31]

def magicV2 : Bytes := [0x65, 0x6e, 0x63, 0x32]

def magicOnepassword : Bytes := [0x6f, 0x70, 0x62, 0x31]

def saltLen : Nat := 16

def nonceLen : Nat := 24

/-- A key and the tag. -/
def ciphertextLen : Nat := 32 + 16

def blobLen : Nat := 4 + saltLen + nonceLen + ciphertextLen

def maxPlaintextLen : Nat := 256 * 1024

def maxCodeLen : Nat := 512 * 1024

end Backup

open Backup

section

variable (derivePublic : BitVec 256 → EndpointId) (verify : SignedCert Signature → Bool)
  (codec : PayloadCodec Signature Rest) (cipher : PasswordCipher)

def SecretKey.fromBytes (bytes : BitVec 256) : SecretKey := ⟨bytes, derivePublic bytes⟩

/-! ## Encoding -/

def encryptBytes (magic plaintext : Bytes) (password : List Char) (salt : Vector UInt8 saltLen)
    (nonce : Vector UInt8 nonceLen) : Except BackupError (List Char) :=
  if password = [] then .error .emptyPassword
  else if plaintext.length > maxPlaintextLen then .error .backupTooLarge
  else
    match cipher.derive password salt.toList with
    | none => .error .keyDerivation
    | some derived =>
      match cipher.encrypt derived nonce.toList plaintext with
      | none => .error .encryption
      | some ciphertext =>
        .ok (bs58Encode (magic ++ (salt.toList ++ (nonce.toList ++ ciphertext))))

section

variable (dir : DataDir Signature Rest Ledger)

/-- The identity on disk. A device without one makes `fresh`. -/
def currentKey (fresh : BitVec 256) : SecretKey :=
  SecretKey.fromBytes derivePublic ((dir.secretKey.map SecretKey.bytes).getD fresh)

def currentPayload (fresh : BitVec 256) : Except BackupError (BackupPayload Signature Rest) :=
  let key := currentKey derivePublic dir fresh
  match dir.loadDeviceCert verify with
  | .error _ => .error .loadCertificate
  | .ok deviceCert =>
    if deviceCert.any fun cert => cert.deviceKey != key.publicKey then
      .error .certificateOfAnotherIdentity
    else .ok ⟨key.bytes, deviceCert, dir.config.load⟩

def encodePayload (payload : BackupPayload Signature Rest) : Except BackupError Bytes :=
  match codec.encode payload with
  | some bytes => .ok bytes
  | none => .error .encode

def backupCurrentIdentity (fresh : BitVec 256)
    (password : List Char) (salt : Vector UInt8 saltLen) (nonce : Vector UInt8 nonceLen) :
    Except BackupError (List Char) := do
  let payload ← currentPayload derivePublic verify dir fresh
  let plaintext ← encodePayload codec payload
  encryptBytes cipher magicV2 plaintext password salt nonce

def backupCurrentIdentityForOnepassword
    (fresh : BitVec 256) : Except BackupError (List Char) := do
  let payload ← currentPayload derivePublic verify dir fresh
  let bytes ← encodePayload codec payload
  return bs58Encode (magicOnepassword ++ bytes)

end

/-! ## Decoding -/

def restoredPayload (payload : BackupPayload Signature Rest) :
    Except BackupError (RestoredBackup verify Rest) :=
  let key := SecretKey.fromBytes derivePublic payload.secretKey
  if verified : ∀ cert ∈ payload.deviceCert, verify cert = true then
    if bound : ∀ cert ∈ payload.deviceCert, cert.deviceKey = key.publicKey then
      .ok ⟨key, payload.deviceCert, payload.networks, verified, bound⟩
    else .error .certificateOfAnotherDevice
  else .error .invalidCertificate

def decodePayload (bytes : Bytes) : Except BackupError (BackupPayload Signature Rest) :=
  match codec.decode bytes with
  | some payload => .ok payload
  | none => .error .invalidContents

/-- What is encrypted in `enc1` and `enc2`. -/
def openBlob (blob : Bytes) (password : Option (List Char)) : Except BackupError Bytes :=
  if blob.length < 4 + saltLen + nonceLen + 16 ∨
      blob.length > 4 + saltLen + nonceLen + maxPlaintextLen + 16 then .error .invalidLength
  else
    match password with
    | none => .error .passwordRequired
    | some password =>
      match cipher.derive password ((blob.drop 4).take saltLen) with
      | none => .error .keyDerivation
      | some derived =>
        match cipher.decrypt derived ((blob.drop (4 + saltLen)).take nonceLen)
            (blob.drop (4 + saltLen + nonceLen)) with
        | none => .error .decryption
        | some plaintext => .ok plaintext

def decryptBlob (blob : Bytes) (password : Option (List Char)) :
    Except BackupError (RestoredBackup verify Rest) :=
  if blob.length < 4 then .error .tooShort
  else if blob.take 4 = magicV1 then
    if blob.length ≠ blobLen then .error (.wrongLength blob.length)
    else do
      let plaintext ← openBlob cipher blob password
      if plaintext.length = 32 then
        restoredPayload derivePublic verify ⟨BitVec.ofNat 256 (beNat plaintext), none, []⟩
      else .error .invalidKeyData
  else if blob.take 4 = magicV2 then do
    let plaintext ← openBlob cipher blob password
    let payload ← decodePayload codec plaintext
    restoredPayload derivePublic verify payload
  else if blob.take 4 = magicOnepassword then
    if password.isSome then .error .storedInOnepassword
    else do
      let payload ← decodePayload codec (blob.drop 4)
      restoredPayload derivePublic verify payload
  else .error .unknownFormat

def decryptBackupInner (code : List Char) (password : Option (List Char)) :
    Except BackupError (RestoredBackup verify Rest) :=
  if utf8Len code > Backup.maxCodeLen then .error .codeTooLarge
  else
    match bs58Decode (trim code) with
    | .error error => .error (.base58 error)
    | .ok blob => decryptBlob derivePublic verify codec cipher blob password

def decryptBackup (code password : List Char) : Except BackupError (RestoredBackup verify Rest) :=
  decryptBackupInner derivePublic verify codec cipher code (some password)

def decryptOnepasswordBackup (code : List Char) : Except BackupError (RestoredBackup verify Rest) :=
  decryptBackupInner derivePublic verify codec cipher code none

/-! ## The round trip -/

variable {derivePublic verify codec cipher}

/-- The backup holds what is on disk. -/
structure Restores (derivePublic : BitVec 256 → EndpointId) (dir : DataDir Signature Rest Ledger)
    (fresh : BitVec 256) (restored : RestoredBackup verify Rest) : Prop where
  secretKey : restored.secretKey = currentKey derivePublic dir fresh
  deviceCert : restored.deviceCert = dir.deviceCert
  networks : restored.networks = dir.config.load

variable {payload : BackupPayload Signature Rest}

variable {dir : DataDir Signature Rest Ledger} {fresh : BitVec 256} {plaintext bytes : Bytes}
  {salt : Vector UInt8 saltLen} {nonce : Vector UInt8 nonceLen}

/-- What was loaded passes the checks of a restore. -/
theorem restoredPayload_current
    (loaded : currentPayload derivePublic verify dir fresh = .ok payload) :
    ∃ restored, restoredPayload derivePublic verify payload = .ok restored ∧
      Restores derivePublic dir fresh restored := by
  unfold currentPayload at loaded
  dsimp only at loaded
  split at loaded
  · cases loaded
  next deviceCert cert =>
  split at loaded
  · cases loaded
  next own =>
  obtain ⟨verified, rfl⟩ := RestoredBackup.loadDeviceCert_ok.mp cert
  obtain rfl := Except.ok.inj loaded
  have bound : ∀ cert ∈ dir.deviceCert,
      cert.deviceKey = (currentKey derivePublic dir fresh).publicKey := by
    intro cert held
    rw [held] at own
    simpa using own
  refine ⟨⟨currentKey derivePublic dir fresh, dir.deviceCert, dir.config.load, verified, bound⟩,
    ?_, rfl, rfl, rfl⟩
  unfold restoredPayload
  rw [dif_pos verified]
  exact dif_pos bound

/-- A pasted code is refused for its length, or read as the bytes it was made from. -/
theorem decryptBackupInner_pasted (blob : Bytes) (front : ∀ c ∈ before, isWhitespace c = true)
    (back : ∀ c ∈ after, isWhitespace c = true) (password : Option (List Char)) :
    decryptBackupInner derivePublic verify codec cipher (before ++ bs58Encode blob ++ after)
        password =
      if utf8Len (before ++ bs58Encode blob ++ after) > Backup.maxCodeLen then .error .codeTooLarge
      else decryptBlob derivePublic verify codec cipher blob password := by
  unfold decryptBackupInner
  rw [trim_surrounded (fun c member => (plain_of_mem_bs58Encode member).1) front back,
    bs58Decode_bs58Encode]

theorem decryptBlob_onepassword (bytes : Bytes) :
    decryptBlob derivePublic verify codec cipher (magicOnepassword ++ bytes) none =
      decodePayload codec bytes >>= restoredPayload derivePublic verify := by
  rfl

/-- The bytes of an `enc2` code. -/
theorem length_v2Blob
    (encrypted : cipher.encrypt derived nonce.toList plaintext = some ciphertext) :
    (magicV2 ++ (salt.toList ++ (nonce.toList ++ ciphertext))).length =
      4 + saltLen + nonceLen + plaintext.length + 16 := by
  simp only [List.length_append, Vector.length_toList, cipher.length_encrypt encrypted]
  rw [show magicV2.length = 4 from rfl]
  omega

theorem decryptBlob_v2 (short : plaintext.length ≤ maxPlaintextLen)
    (derives : cipher.derive password salt.toList = some derived)
    (encrypted : cipher.encrypt derived nonce.toList plaintext = some ciphertext) :
    decryptBlob derivePublic verify codec cipher
        (magicV2 ++ (salt.toList ++ (nonce.toList ++ ciphertext))) (some password) =
      decodePayload codec plaintext >>= restoredPayload derivePublic verify := by
  have salted : salt.toList.length = saltLen := Vector.length_toList
  have nonced : nonce.toList.length = nonceLen := Vector.length_toList
  have sized := @length_v2Blob cipher _ salt _ _ _ encrypted
  have magic : (magicV2 ++ (salt.toList ++ (nonce.toList ++ ciphertext))).take 4 = magicV2 := rfl
  have tail : (magicV2 ++ (salt.toList ++ (nonce.toList ++ ciphertext))).drop 4 =
      salt.toList ++ (nonce.toList ++ ciphertext) := rfl
  generalize magicV2 ++ (salt.toList ++ (nonce.toList ++ ciphertext)) = blob at sized magic tail ⊢
  have opened : openBlob cipher blob (some password) = .ok plaintext := by
    have saltPart : (blob.drop 4).take saltLen = salt.toList := by
      rw [tail, List.take_left' salted]
    have rest : blob.drop (4 + saltLen) = nonce.toList ++ ciphertext := by
      rw [← List.drop_drop, tail, List.drop_left' salted]
    have body : blob.drop (4 + saltLen + nonceLen) = ciphertext := by
      rw [← List.drop_drop, rest, List.drop_left' nonced]
    unfold openBlob
    rw [if_neg (by omega), saltPart, rest, body, List.take_left' nonced]
    dsimp only
    rw [derives]
    dsimp only
    rw [cipher.decrypt_encrypt encrypted]
  unfold decryptBlob
  rw [if_neg (by omega), magic, opened]
  rfl

theorem encodePayload_ok (encoded : encodePayload codec payload = .ok bytes) :
    decodePayload codec bytes = .ok payload := by
  unfold encodePayload at encoded
  split at encoded
  · next written found =>
    obtain rfl := Except.ok.inj encoded
    rw [decodePayload, codec.decode_encode found]
  · cases encoded

theorem encryptBytes_ok
    (encrypted : encryptBytes cipher magic plaintext password salt nonce = .ok code) :
    plaintext.length ≤ maxPlaintextLen ∧ ∃ derived ciphertext,
      cipher.derive password salt.toList = some derived ∧
      cipher.encrypt derived nonce.toList plaintext = some ciphertext ∧
      code = bs58Encode (magic ++ (salt.toList ++ (nonce.toList ++ ciphertext))) := by
  unfold encryptBytes at encrypted
  split at encrypted
  · cases encrypted
  split at encrypted
  · cases encrypted
  next short =>
  split at encrypted
  · cases encrypted
  next derived derives =>
  split at encrypted
  · cases encrypted
  next ciphertext encrypts =>
  exact ⟨Nat.not_lt.mp short, derived, ciphertext, derives, encrypts,
    (Except.ok.inj encrypted).symm⟩

/-- A decoder that bounds the text and then reads back what was encoded. -/
theorem restores_iff (loaded : currentPayload derivePublic verify dir fresh = .ok payload)
    (encoded : encodePayload codec payload = .ok bytes)
    (read : decryptBlob derivePublic verify codec cipher blob password =
      decodePayload codec bytes >>= restoredPayload derivePublic verify)
    (front : ∀ c ∈ before, isWhitespace c = true) (back : ∀ c ∈ after, isWhitespace c = true) :
    (∃ restored, decryptBackupInner derivePublic verify codec cipher
        (before ++ bs58Encode blob ++ after) password = .ok restored ∧
      Restores derivePublic dir fresh restored) ↔
      utf8Len (before ++ bs58Encode blob ++ after) ≤ Backup.maxCodeLen := by
  rw [decryptBackupInner_pasted blob front back]
  constructor
  · rintro ⟨restored, ok, -⟩
    by_contra long
    rw [if_pos (Nat.not_le.mp long)] at ok
    cases ok
  · intro short
    obtain ⟨restored, passed, restores⟩ := restoredPayload_current loaded
    refine ⟨restored, ?_, restores⟩
    rw [if_neg (Nat.not_lt.mpr short), read, encodePayload_ok encoded]
    exact passed

/-- A code that is handed out and pasted with any whitespace around it is restored exactly if
the pasted text is within the decoder's bound. A password backup alone always is. -/
theorem backup_restores_iff (dir : DataDir Signature Rest Ledger) (fresh : BitVec 256) :
    (∀ password salt nonce code,
      backupCurrentIdentity derivePublic verify codec cipher dir fresh password salt nonce =
          .ok code →
        code.length ≤ 393306 ∧ ∀ before after, (∀ c ∈ before, isWhitespace c = true) →
          (∀ c ∈ after, isWhitespace c = true) →
          ((∃ restored, decryptBackup derivePublic verify codec cipher
              (before ++ code ++ after) password = .ok restored ∧
            Restores derivePublic dir fresh restored) ↔
            utf8Len (before ++ code ++ after) ≤ Backup.maxCodeLen)) ∧
    ∀ code, backupCurrentIdentityForOnepassword derivePublic verify codec dir fresh = .ok code →
      ∀ before after, (∀ c ∈ before, isWhitespace c = true) →
        (∀ c ∈ after, isWhitespace c = true) →
        ((∃ restored, decryptOnepasswordBackup derivePublic verify codec cipher
            (before ++ code ++ after) = .ok restored ∧
          Restores derivePublic dir fresh restored) ↔
          utf8Len (before ++ code ++ after) ≤ Backup.maxCodeLen) := by
  constructor
  · intro password salt nonce code handed
    obtain ⟨payload, loaded, handed⟩ := bind_ok_iff.mp handed
    obtain ⟨plaintext, encoded, handed⟩ := bind_ok_iff.mp handed
    obtain ⟨short, derived, ciphertext, derives, encrypted, rfl⟩ := encryptBytes_ok handed
    constructor
    · refine length_bs58Encode_le (k := 131102) (by decide) ?_
      calc (magicV2 ++ (salt.toList ++ (nonce.toList ++ ciphertext))).length
          = 4 + saltLen + nonceLen + plaintext.length + 16 := length_v2Blob encrypted
        _ ≤ 4 + saltLen + nonceLen + maxPlaintextLen + 16 :=
          Nat.add_le_add_right (Nat.add_le_add_left short _) 16
    · intro before after front back
      exact restores_iff loaded encoded (decryptBlob_v2 short derives encrypted) front back
  · intro code handed before after front back
    obtain ⟨payload, loaded, handed⟩ := bind_ok_iff.mp handed
    obtain ⟨bytes, encoded, handed⟩ := bind_ok_iff.mp handed
    obtain rfl := Except.ok.inj handed
    exact restores_iff loaded encoded (decryptBlob_onepassword bytes) front back

/-- A payload of more than 393212 bytes is handed out for 1Password and cannot be read back. -/
theorem onepassword_refused (loaded : currentPayload derivePublic verify dir fresh = .ok payload)
    (encoded : codec.encode payload = some bytes) (long : 393212 < bytes.length) :
    ∃ code, backupCurrentIdentityForOnepassword derivePublic verify codec dir fresh = .ok code ∧
      decryptOnepasswordBackup derivePublic verify codec cipher code = .error .codeTooLarge := by
  have handed : encodePayload codec payload = .ok bytes := by rw [encodePayload, encoded]
  refine ⟨bs58Encode (magicOnepassword ++ bytes), ?_, ?_⟩
  · exact bind_ok_iff.mpr ⟨payload, loaded, bind_ok_iff.mpr ⟨bytes, handed, rfl⟩⟩
  · have sized : Backup.maxCodeLen < (bs58Encode (magicOnepassword ++ bytes)).length := by
      refine lt_length_bs58Encode (k := 131072) (by decide) ?_
      calc 3 * 131072 < 4 + bytes.length := by omega
        _ = magicOnepassword.length + bytes.length := rfl
        _ = (magicOnepassword ++ bytes).length := List.length_append.symm
    have ascii := utf8Len_eq_length fun c (member : c ∈ bs58Encode (magicOnepassword ++ bytes)) =>
      (plain_of_mem_bs58Encode member).2
    unfold decryptOnepasswordBackup decryptBackupInner
    rw [ascii]
    exact if_pos sized

end

/-- A tag of sixteen zeros. -/
def plainCipher : PasswordCipher where
  derive _ _ := some []
  encrypt _ _ plaintext := some (plaintext ++ List.replicate 16 0)
  decrypt _ _ ciphertext := some (ciphertext.take (ciphertext.length - 16))
  decrypt_encrypt := by
    rintro _ _ plaintext _ ⟨⟩
    simp
  length_encrypt := by
    rintro _ _ plaintext _ ⟨⟩
    simp

/-- A device with a certificate and one network, whose config has the content `content`. -/
def deviceWith (content : Nat) : DataDir Unit Nat Unit where
  secretKey := some oldKey
  deviceCert := some ⟨⟨9, 1, 0⟩, ()⟩
  config :=
    { networks := Finmap.singleton "home".toList ⟨"home".toList, some 7, none, content⟩
      invites := ∅
      firewall := ⟨.deny, .allow, false, false, []⟩
      intent := none
      destroyed := ∅ }

def devicePayload (content : Nat) : BackupPayload Unit Nat :=
  ⟨oldKey.bytes, (deviceWith content).deviceCert, (deviceWith content).config.load⟩

/-- Writes the payload of one device, as the bytes `written`. -/
def deviceCodec (written : Bytes) : PayloadCodec Unit Nat where
  encode payload := if payload = devicePayload 0 then some written else none
  decode _ := some (devicePayload 0)
  decode_encode encoded := by
    obtain ⟨rfl, -⟩ := Option.ite_none_right_eq_some.mp encoded
    rfl

/-- Both codes of the device are restored from a paste. -/
theorem device_backup_restored :
    let codec := deviceCodec [1, 2, 3]
    let salt := Vector.replicate saltLen 0
    let nonce := Vector.replicate nonceLen 0
    (∃ code restored, backupCurrentIdentity id (fun _ => true) codec plainCipher (deviceWith 0) 0
        ['p'] salt nonce = .ok code ∧
      decryptBackup id (fun _ => true) codec plainCipher ([' '] ++ code ++ ['\n']) ['p'] =
        .ok restored ∧ Restores id (deviceWith 0) 0 restored) ∧
    ∃ code restored,
      backupCurrentIdentityForOnepassword id (fun _ => true) codec (deviceWith 0) 0 = .ok code ∧
      decryptOnepasswordBackup id (fun _ => true) codec plainCipher ([' '] ++ code ++ ['\n']) =
        .ok restored ∧ Restores id (deviceWith 0) 0 restored := by
  intro codec salt nonce
  have blank : ∀ c ∈ [' '], isWhitespace c = true := List.forall_mem_singleton.mpr (by decide)
  have newline : ∀ c ∈ ['\n'], isWhitespace c = true := List.forall_mem_singleton.mpr (by decide)
  obtain ⟨code, handed, short⟩ : ∃ code, backupCurrentIdentity id (fun _ => true) codec plainCipher
      (deviceWith 0) 0 ['p'] salt nonce = .ok code ∧
        utf8Len ([' '] ++ code ++ ['\n']) ≤ Backup.maxCodeLen := ⟨_, rfl, by decide +kernel⟩
  obtain ⟨code', handed', short'⟩ : ∃ code, backupCurrentIdentityForOnepassword id (fun _ => true)
      codec (deviceWith 0) 0 = .ok code ∧
        utf8Len ([' '] ++ code ++ ['\n']) ≤ Backup.maxCodeLen := ⟨_, rfl, by decide +kernel⟩
  obtain ⟨restored, read, same⟩ := (((backup_restores_iff (deviceWith 0) 0).1 _ _ _ _ handed).2
    [' '] ['\n'] blank newline).mpr short
  obtain ⟨restored', read', same'⟩ := ((backup_restores_iff (deviceWith 0) 0).2 _ handed'
    [' '] ['\n'] blank newline).mpr short'
  exact ⟨⟨code, restored, handed, read, same⟩, code', restored', handed', read', same'⟩

/-- However payloads are written as bytes, some network is too large for a 1Password backup. -/
theorem onepassword_backup_lost :
    ∀ (codec : PayloadCodec Unit Nat) (cipher : PasswordCipher),
      (∀ payload, (codec.encode payload).isSome) → ∃ content code,
        backupCurrentIdentityForOnepassword id (fun _ => true) codec (deviceWith content) 0 =
          .ok code ∧
        decryptOnepasswordBackup id (fun _ => true) codec cipher code = .error .codeTooLarge := by
  intro codec cipher total
  have loaded : ∀ content,
      currentPayload id (fun _ => true) (deviceWith content) 0 = .ok (devicePayload content) :=
    fun content => rfl
  have distinct : Function.Injective devicePayload := by
    intro content other same
    have loads : [(⟨"home".toList, some 7, none, content⟩ : NetworkFile Nat)] =
        [⟨"home".toList, some 7, none, other⟩] := congrArg BackupPayload.networks same
    cases loads
    rfl
  -- only finitely many byte strings are short, and different payloads have different ones
  obtain ⟨content, long⟩ : ∃ content, ∀ bytes, codec.encode (devicePayload content) = some bytes →
      393212 < bytes.length := by
    by_contra none
    push Not at none
    choose bytes encoded short using none
    have injective : Function.Injective bytes := by
      intro content other same
      refine distinct (Option.some.inj ?_)
      rw [← codec.decode_encode (encoded content), same, codec.decode_encode (encoded other)]
    exact Set.infinite_of_injective_forall_mem injective short (List.finite_length_le UInt8 393212)
  obtain ⟨bytes, encoded⟩ := Option.isSome_iff_exists.mp (total (devicePayload content))
  exact ⟨content, onepassword_refused (loaded content) encoded (long bytes encoded)⟩

theorem bulky_backup_lost :
    let codec := deviceCodec (List.replicate 393213 0)
    ∃ code, backupCurrentIdentityForOnepassword id (fun _ => true) codec (deviceWith 0) 0 =
        .ok code ∧
      decryptOnepasswordBackup id (fun _ => true) codec plainCipher code =
        .error .codeTooLarge := by
  have encoded (written : Bytes) :
      (deviceCodec written).encode (devicePayload 0) = some written := by simp [deviceCodec]
  refine onepassword_refused rfl (encoded _) ?_
  rw [List.length_replicate]
  decide

end Rayfish
