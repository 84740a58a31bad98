import SafeMigrate.Validation
import Mathlib.Data.List.Basic

/-! The cache file: its encryption envelope, its compressed and versioned payload,
and the limits on both. Compression, the binary codec and the cipher are
parameters, and so is the cache with its check. -/

namespace SafeMigrate

open Validation

abbrev Bytes := List UInt8

/-- The layouts that ever were. Those before the fifth carry nothing any more. -/
inductive DbCacheVersioned (γ : Type)
  | v1
  | v2
  | v3
  | v4
  | v5 (cache : γ)
  | v6 (cache : γ)
  | v7 (cache : γ)
  | v8 (cache : γ)
  | v9 (cache : γ)
  | v10 (cache : γ)
  | v11 (cache : γ)

inductive DecodeError
  | limitExceeded
  | other (detail : String)

structure CacheLibraries (γ : Type) where
  compress : Bytes → Bytes
  /-- What comes out before the stream ends, and whether it ends as it should. -/
  decompress : Bytes → Bytes × Bool
  /-- The pieces that the encoder writes. -/
  encode : DbCacheVersioned γ → List Bytes
  /-- The value that the bytes start with, and the bytes after it. -/
  decode : Bytes → Except DecodeError (DbCacheVersioned γ × Bytes)
  encrypt : Bytes → Bytes → Bytes → Option Bytes
  decrypt : Bytes → Bytes → Bytes → Option Bytes
  validateSemantics : γ → Except String Unit

def cacheFormatVersion : Nat := 11

/-- `SMCACHE11` -/
def cacheMagic : Bytes := [83, 77, 67, 65, 67, 72, 69, 49, 49]

/-- `SMENC001` -/
def encryptedCacheMagic : Bytes := [83, 77, 69, 78, 67, 48, 48, 49]

def nonceLength : Nat := 24

def mebibyte : Nat := 1024 * 1024

def maxCacheFileBytes : Nat := 64 * mebibyte

def maxCacheDecodeBytes : Nat := 256 * mebibyte

namespace DbCacheVersioned

variable {γ : Type}

def current (cache : γ) : DbCacheVersioned γ := .v11 cache

def formatVersion : DbCacheVersioned γ → Nat
  | v1 => 1
  | v2 => 2
  | v3 => 3
  | v4 => 4
  | v5 _ => 5
  | v6 _ => 6
  | v7 _ => 7
  | v8 _ => 8
  | v9 _ => 9
  | v10 _ => 10
  | v11 _ => 11

def intoCache (validateSemantics : γ → Except String Unit) : DbCacheVersioned γ → Except String γ
  | v11 cache => do
    validateSemantics cache
    pure cache
  | _ => .error "This cache format is unsupported. Run `safe-migrate sync` to rebuild it."

end DbCacheVersioned

section Keys

def hexNibble (byte : UInt8) : Except String UInt8 :=
  if 48 ≤ byte ∧ byte ≤ 57 then .ok (byte - 48)
  else if 97 ≤ byte ∧ byte ≤ 102 then .ok (byte - 97 + 10)
  else if 65 ≤ byte ∧ byte ≤ 70 then .ok (byte - 65 + 10)
  else .error "Cache encryption key must contain only hexadecimal characters"

def hexPairs : Bytes → Except String Bytes
  | high :: low :: rest => do
    let high ← hexNibble high
    let low ← hexNibble low
    let key ← hexPairs rest
    pure ((high <<< 4 ||| low) :: key)
  | _ => .ok []

def decodeHexKey (input : Bytes) : Except String Bytes :=
  if input.length ≠ 64 then
    .error "Cache encryption key must be exactly 64 hexadecimal characters"
  else hexPairs input

/-- The environment variable, without the blanks around its value. -/
def cipherFromEnvironment (cacheKeyEnv : Option Bytes) : Except String Bytes :=
  match cacheKeyEnv with
  | none => .error "SAFE_MIGRATE_CACHE_KEY must contain a 64-character hexadecimal key when cache_encryption is enabled"
  | some rawKey => decodeHexKey rawKey

end Keys

/-- Whether the configuration asks for encryption, with the key of the
environment, or a caller supplies a key. -/
inductive CacheProtection
  | configured (cacheEncryption : Bool) (cacheKeyEnv : Option Bytes)
  | withKey (key : Bytes)

def CacheProtection.encrypts : CacheProtection → Bool
  | configured cacheEncryption _ => cacheEncryption
  | withKey _ => true

/-- The key to write and to read with, where encryption is asked for. -/
def CacheProtection.cipherKey : CacheProtection → Except String Bytes
  | configured _ cacheKeyEnv => cipherFromEnvironment cacheKeyEnv
  | withKey key => .ok key

def isEncryptedCacheBytes (bytes : Bytes) : Bool := encryptedCacheMagic.isPrefixOf bytes

def CacheProtection.reportsEncrypted (content : Bytes) : CacheProtection → Bool
  | configured _ _ => isEncryptedCacheBytes content
  | withKey _ => true

namespace CacheLibraries

variable {γ : Type} (lib : CacheLibraries γ)

section Protect

def encryptCacheBytes (nonce bytes key : Bytes) : Except String Bytes :=
  match lib.encrypt key nonce bytes with
  | some ciphertext => .ok (encryptedCacheMagic ++ nonce ++ ciphertext)
  | none => .error "Failed to encrypt cache payload"

def protectCacheBytes (nonce bytes : Bytes) : CacheProtection → Except String Bytes
  | .configured cacheEncryption cacheKeyEnv =>
    if cacheEncryption then do
      let key ← cipherFromEnvironment cacheKeyEnv
      lib.encryptCacheBytes nonce bytes key
    else .ok bytes
  | .withKey key => lib.encryptCacheBytes nonce bytes key

def decryptCacheBytes (bytes key : Bytes) : Except String Bytes :=
  let nonceEnd := encryptedCacheMagic.length + nonceLength
  if bytes.length ≤ nonceEnd then .error "Encrypted cache file is truncated"
  else match lib.decrypt key ((bytes.take nonceEnd).drop encryptedCacheMagic.length)
      (bytes.drop nonceEnd) with
    | some decrypted => .ok decrypted
    | none => .error "Failed to decrypt cache: key is incorrect or the file was modified"

def unprotectCacheBytes (bytes : Bytes) : CacheProtection → Except String Bytes
  | .configured cacheEncryption cacheKeyEnv =>
    if !isEncryptedCacheBytes bytes then
      if cacheEncryption then
        .error "Cache file is not encrypted, but cache_encryption = true. Run `safe-migrate sync` to create an encrypted cache."
      else .ok bytes
    else if !cacheEncryption then
      .error "Cache file is encrypted. Set cache_encryption = true and provide SAFE_MIGRATE_CACHE_KEY to read it."
    else do
      let key ← cipherFromEnvironment cacheKeyEnv
      lib.decryptCacheBytes bytes key
  | .withKey key =>
    if !isEncryptedCacheBytes bytes then
      .error "Cache file is not encrypted, but an encryption key was provided"
    else lib.decryptCacheBytes bytes key

end Protect

end CacheLibraries

/-- Bounds the bytes that go into the encoder, not what comes out of it. -/
structure SizeLimitedWriter where
  inner : Bytes
  bytesWritten : Nat
  maxBytes : Nat
  limitExceeded : Bool

namespace SizeLimitedWriter

def new (maxBytes : Nat) : SizeLimitedWriter := ⟨[], 0, maxBytes, false⟩

def write (w : SizeLimitedWriter) (bytes : Bytes) : SizeLimitedWriter :=
  if bytes.length > w.maxBytes - w.bytesWritten then { w with limitExceeded := true }
  else { w with inner := w.inner ++ bytes, bytesWritten := w.bytesWritten + bytes.length }

/-- The encoder stops at the first piece that is refused. -/
def writePieces (w : SizeLimitedWriter) : List Bytes → SizeLimitedWriter
  | [] => w
  | bytes :: pieces =>
    let w := w.write bytes
    if w.limitExceeded then w else writePieces w pieces

end SizeLimitedWriter

namespace CacheLibraries

variable {γ : Type} (lib : CacheLibraries γ)

def decodedSizeLimit (maxBytes : Nat) : String :=
  "Cache payload exceeds the " ++ toString (maxBytes / mebibyte) ++ " MiB decoded-size limit"

/-- `write_cache_with_protection_and_limits`, up to the bytes that it installs. -/
def cacheBytes (protection : CacheProtection) (nonce : Bytes) (maxFileBytes maxDecodeBytes : Nat)
    (cache : γ) : Except String Bytes :=
  match lib.validateSemantics cache with
  | .error _ => .error "Refusing to write a semantically invalid cache baseline"
  | .ok () =>
    let encoder := (SizeLimitedWriter.new maxDecodeBytes).write cacheMagic
    if encoder.limitExceeded then .error (decodedSizeLimit maxDecodeBytes)
    else
      let encoder := encoder.writePieces (lib.encode (.current cache))
      if encoder.limitExceeded then .error (decodedSizeLimit maxDecodeBytes)
      else do
        let bytes ← lib.protectCacheBytes nonce (lib.compress encoder.inner) protection
        if bytes.length > maxFileBytes then
          .error ("Cache payload exceeds the " ++ toString (maxFileBytes / mebibyte) ++
            " MiB encoded-size limit")
        else .ok bytes

/-- `write_cache` and `write_cache_with_key`. -/
def writeCache (protection : CacheProtection) (nonce : Bytes) (cache : γ) : Except String Bytes :=
  lib.cacheBytes protection nonce maxCacheFileBytes maxCacheDecodeBytes cache

def decodeDetail : DecodeError → String
  | .limitExceeded =>
    "exceeds the " ++ toString (maxCacheDecodeBytes / mebibyte) ++ " MiB decoded-size limit"
  | .other detail => detail

/-- No more is read of the stream than shows that it is too long. A stream that
breaks off is noticed where its end is reached. -/
def decodeCachePayload (path : String) (decrypted : Bytes) (encrypted : Bool) :
    Except String (γ × Nat × Bool) := do
  let stream := lib.decompress decrypted
  let visible := stream.1.take (maxCacheDecodeBytes + 1)
  let broken := !stream.2 && decide (stream.1.length ≤ maxCacheDecodeBytes)
  let header := visible.take cacheMagic.length
  ensure (¬(header.length < cacheMagic.length ∧ (broken = true ∨ header <+: cacheMagic)))
    (path ++ " is truncated or corrupted")
  ensure (header = cacheMagic)
    (path ++ " uses an unsupported cache format; run `safe-migrate sync`")
  match lib.decode (visible.drop cacheMagic.length) with
  | .error error => .error (path ++ " is corrupted (bincode): " ++ decodeDetail error)
  | .ok (versioned, rest) => do
    ensure (broken = false) (path ++ " is corrupted while decompressing")
    ensure (visible.length ≤ maxCacheDecodeBytes) (path ++ " exceeds the " ++
      toString (maxCacheDecodeBytes / mebibyte) ++ " MiB decoded-size limit")
    ensure (rest = []) (path ++ " contains trailing payload data")
    ensure (versioned.formatVersion = cacheFormatVersion)
      (path ++ " has a mismatched cache format header")
    let cache ← versioned.intoCache lib.validateSemantics
    pure (cache, versioned.formatVersion, encrypted)

/-- `decode_cache` and `decode_cache_with_key`, on the content of the file. -/
def decodeCache (path : String) (protection : CacheProtection) (content : Bytes) :
    Except String (γ × Nat × Bool) :=
  if content.length > maxCacheFileBytes then
    .error ("failed to read " ++ path ++ ": Cache file '" ++ path ++ "' exceeds the " ++
      toString (maxCacheFileBytes / mebibyte) ++ " MiB encoded-size limit")
  else match lib.unprotectCacheBytes content protection with
    | .error detail => .error ("failed to unlock " ++ path ++ ": " ++ detail)
    | .ok decrypted => lib.decodeCachePayload path decrypted (protection.reportsEncrypted content)

end CacheLibraries

namespace SizeLimitedWriter

/-- What has gone in is counted, and is within the limit. -/
structure Counted (w : SizeLimitedWriter) : Prop where
  count : w.bytesWritten = w.inner.length
  bound : w.inner.length ≤ w.maxBytes

theorem Counted.write {w : SizeLimitedWriter} (h : w.Counted) (bytes : Bytes) :
    (w.write bytes).Counted := by
  unfold SizeLimitedWriter.write
  have hcount := h.count
  have hbound := h.bound
  split
  · exact ⟨hcount, hbound⟩
  · refine ⟨?_, ?_⟩ <;> simp <;> omega

/-- Nothing goes in beyond the limit, and without a refusal everything does. -/
theorem writePieces_spec {w : SizeLimitedWriter} (pieces : List Bytes) (h : w.Counted)
    (hw : w.limitExceeded = false) :
    (w.writePieces pieces).Counted ∧ (w.writePieces pieces).maxBytes = w.maxBytes ∧
      ((w.writePieces pieces).limitExceeded = false →
        (w.writePieces pieces).inner = w.inner ++ pieces.flatten) := by
  induction pieces generalizing w with
  | nil => exact ⟨h, rfl, fun _ => by simp [writePieces]⟩
  | cons bytes pieces ih =>
    have hmax : (w.write bytes).maxBytes = w.maxBytes := by
      unfold SizeLimitedWriter.write
      split <;> rfl
    rw [writePieces]
    by_cases hexceeded : (w.write bytes).limitExceeded = true
    · simp [hexceeded, h.write bytes, hmax]
    · have hfits : (w.write bytes).inner = w.inner ++ bytes := by
        unfold SizeLimitedWriter.write at hexceeded ⊢
        split at hexceeded
        · exact absurd rfl hexceeded
        · rename_i hroom
          rw [if_neg hroom]
      obtain ⟨hcounted, hkept, hall⟩ := ih (h.write bytes) (Bool.not_eq_true _ ▸ hexceeded)
      rw [if_neg hexceeded]
      refine ⟨hcounted, hkept.trans hmax, fun hdone => ?_⟩
      rw [hall hdone, hfits, List.flatten_cons, List.append_assoc]

end SizeLimitedWriter

namespace CacheLibraries

variable {γ : Type} {lib : CacheLibraries γ}

/-- What the libraries are documented to do. Every compressed stream starts with
the number of its format, and every ciphertext carries its tag. -/
structure Lawful (lib : CacheLibraries γ) : Prop where
  decompress_compress : ∀ bytes, lib.decompress (lib.compress bytes) = (bytes, true)
  compress_magic : ∀ bytes, isEncryptedCacheBytes (lib.compress bytes) = false
  decrypt_encrypt : ∀ key nonce bytes ciphertext, lib.encrypt key nonce bytes = some ciphertext →
    ciphertext ≠ [] ∧ lib.decrypt key nonce ciphertext = some bytes

section Load

theorem intoCache_ok {versioned : DbCacheVersioned γ} {cache : γ} :
    versioned.intoCache lib.validateSemantics = .ok cache ↔
      versioned = .v11 cache ∧ lib.validateSemantics cache = .ok () := by
  cases versioned with
  | v11 held =>
    unfold DbCacheVersioned.intoCache
    rw [exceptBind_ok]
    constructor
    · rintro ⟨⟨⟩, hvalid, heq⟩
      obtain rfl := Except.ok.inj heq
      exact ⟨rfl, hvalid⟩
    · rintro ⟨heq, hvalid⟩
      obtain rfl := DbCacheVersioned.v11.inj heq
      exact ⟨(), hvalid, rfl⟩
  | _ => simp [DbCacheVersioned.intoCache]

/-- A payload that is loaded is a whole one: the mark of this version, one valid
cache, and nothing after it, all within the limit. -/
theorem decodeCachePayload_ok {path : String} {decrypted : Bytes} {encrypted : Bool} {cache : γ}
    {version : Nat} {flag : Bool} :
    lib.decodeCachePayload path decrypted encrypted = .ok (cache, version, flag) ↔
      ∃ body, lib.decompress decrypted = (cacheMagic ++ body, true) ∧
        (cacheMagic ++ body).length ≤ maxCacheDecodeBytes ∧
        lib.decode body = .ok (.v11 cache, []) ∧ lib.validateSemantics cache = .ok () ∧
        version = cacheFormatVersion ∧ flag = encrypted := by
  unfold decodeCachePayload
  rcases hstream : lib.decompress decrypted with ⟨output, clean⟩
  dsimp only
  rw [ensure_bind_ok, ensure_bind_ok]
  constructor
  · rintro ⟨-, hheader, h⟩
    obtain ⟨body, hbody⟩ : cacheMagic <+: output :=
      (hheader ▸ List.take_prefix _ _).trans (List.take_prefix _ _)
    cases hdecode : lib.decode ((output.take (maxCacheDecodeBytes + 1)).drop cacheMagic.length) with
    | error error =>
      rw [hdecode] at h
      cases h
    | ok decoded =>
      obtain ⟨versioned, rest⟩ := decoded
      rw [hdecode] at h
      dsimp only at h
      rw [ensure_bind_ok, ensure_bind_ok, ensure_bind_ok, ensure_bind_ok, exceptBind_ok] at h
      obtain ⟨hbroken, hlength, rfl, hversion, held, hinto, heq⟩ := h
      obtain ⟨rfl, hvalid⟩ := intoCache_ok.mp hinto
      obtain ⟨rfl, hrest⟩ := Prod.mk.inj (Except.ok.inj heq)
      obtain ⟨rfl, rfl⟩ := Prod.mk.inj hrest
      have hshort : output.length ≤ maxCacheDecodeBytes := by
        rw [List.length_take] at hlength
        omega
      have htake : output.take (maxCacheDecodeBytes + 1) = output :=
        List.take_of_length_le (Nat.le_succ_of_le hshort)
      rw [htake, ← hbody, List.drop_left] at hdecode
      have hclean : clean = true := by simpa [hshort] using hbroken
      exact ⟨body, by rw [hbody, hclean], hbody ▸ hshort, hdecode, hvalid, rfl, rfl⟩
  · rintro ⟨body, hwhole, hlength, hdecode, hvalid, rfl, rfl⟩
    obtain ⟨rfl, rfl⟩ := Prod.mk.inj hwhole
    have htake : (cacheMagic ++ body).take (maxCacheDecodeBytes + 1) = cacheMagic ++ body :=
      List.take_of_length_le (Nat.le_succ_of_le hlength)
    rw [htake, List.take_left, List.drop_left, hdecode]
    dsimp only
    rw [ensure_bind_ok, ensure_bind_ok, ensure_bind_ok, ensure_bind_ok, exceptBind_ok]
    refine ⟨fun hshort => absurd hshort.1 (Nat.lt_irrefl _), rfl, by simp, hlength, rfl, rfl, cache,
      intoCache_ok.mpr ⟨rfl, hvalid⟩, rfl⟩

theorem unprotect_ok {protection : CacheProtection} {content decrypted : Bytes}
    (h : lib.unprotectCacheBytes content protection = .ok decrypted) :
    protection.reportsEncrypted content = protection.encrypts := by
  cases protection with
  | withKey key => rfl
  | configured cacheEncryption cacheKeyEnv =>
    unfold unprotectCacheBytes at h
    cases hencrypted : isEncryptedCacheBytes content <;> cases cacheEncryption <;>
      simp [hencrypted, CacheProtection.encrypts, CacheProtection.reportsEncrypted] at h ⊢

theorem loaded_iff {path : String} {protection : CacheProtection} {content : Bytes} {cache : γ}
    {version : Nat} {encrypted : Bool} :
    lib.decodeCache path protection content = .ok (cache, version, encrypted) ↔
      content.length ≤ maxCacheFileBytes ∧
        ∃ decrypted body, lib.unprotectCacheBytes content protection = .ok decrypted ∧
          lib.decompress decrypted = (cacheMagic ++ body, true) ∧
          (cacheMagic ++ body).length ≤ maxCacheDecodeBytes ∧
          lib.decode body = .ok (.v11 cache, []) ∧ lib.validateSemantics cache = .ok () ∧
          version = cacheFormatVersion ∧ encrypted = protection.encrypts := by
  unfold decodeCache
  by_cases hlength : content.length > maxCacheFileBytes
  · rw [if_pos hlength]
    exact iff_of_false (by simp) fun h => Nat.not_lt.mpr h.1 hlength
  · rw [if_neg hlength, and_iff_right (Nat.not_lt.mp hlength)]
    cases hprotect : lib.unprotectCacheBytes content protection with
    | error detail => simp
    | ok decrypted =>
      dsimp only
      rw [decodeCachePayload_ok, unprotect_ok hprotect]
      simp

/-- Plain content where no encryption is asked for, and else the mark, a nonce and
what the key deciphers. -/
def Unprotects (lib : CacheLibraries γ) (protection : CacheProtection) (content decrypted : Bytes) :
    Prop :=
  if protection.encrypts then
    ∃ key nonce ciphertext, protection.cipherKey = .ok key ∧ nonce.length = nonceLength ∧
      ciphertext ≠ [] ∧ content = encryptedCacheMagic ++ nonce ++ ciphertext ∧
      lib.decrypt key nonce ciphertext = some decrypted
  else isEncryptedCacheBytes content = false ∧ decrypted = content

theorem decryptCacheBytes_ok {content key decrypted : Bytes}
    (hmarked : isEncryptedCacheBytes content = true) :
    lib.decryptCacheBytes content key = .ok decrypted ↔
      ∃ nonce ciphertext, nonce.length = nonceLength ∧ ciphertext ≠ [] ∧
        content = encryptedCacheMagic ++ nonce ++ ciphertext ∧
        lib.decrypt key nonce ciphertext = some decrypted := by
  obtain ⟨body, rfl⟩ := List.isPrefixOf_iff_prefix.mp hmarked
  unfold decryptCacheBytes
  dsimp only
  rw [List.length_append, List.take_length_add_append, List.drop_left, List.drop_length_add_append]
  split
  · next hshort =>
    refine iff_of_false (by simp) ?_
    rintro ⟨nonce, ciphertext, hnonce, hne, hbody, -⟩
    rw [List.append_assoc] at hbody
    obtain rfl := List.append_cancel_left hbody
    have hpos := List.length_pos_of_ne_nil hne
    rw [List.length_append, hnonce] at hshort
    omega
  · next hlong =>
    constructor
    · intro hdecrypt
      split at hdecrypt
      · next held hheld =>
        obtain rfl := Except.ok.inj hdecrypt
        refine ⟨body.take nonceLength, body.drop nonceLength, ?_, ?_, ?_, hheld⟩
        · rw [List.length_take]
          omega
        · rw [← List.length_pos_iff, List.length_drop]
          omega
        · rw [List.append_assoc, List.take_append_drop]
      · cases hdecrypt
    · rintro ⟨nonce, ciphertext, hnonce, -, hbody, hdecrypt⟩
      rw [List.append_assoc] at hbody
      obtain rfl := List.append_cancel_left hbody
      rw [← hnonce, List.take_left, List.drop_left, hdecrypt]

theorem unprotectCacheBytes_ok {protection : CacheProtection} {content decrypted : Bytes} :
    lib.unprotectCacheBytes content protection = .ok decrypted ↔
      lib.Unprotects protection content decrypted := by
  have hmarked (key nonce ciphertext : Bytes)
      (h : content = encryptedCacheMagic ++ nonce ++ ciphertext) :
      isEncryptedCacheBytes content = true := by
    rw [h, List.append_assoc, isEncryptedCacheBytes, List.isPrefixOf_iff_prefix]
    exact List.prefix_append _ _
  unfold Unprotects
  cases protection with
  | withKey key =>
    cases hcontent : isEncryptedCacheBytes content with
    | false =>
      refine iff_of_false (by simp [unprotectCacheBytes, hcontent]) ?_
      rintro ⟨_, nonce, ciphertext, -, -, -, h, -⟩
      exact absurd (hmarked key nonce ciphertext h) (by simp [hcontent])
    | true =>
      simp [unprotectCacheBytes, hcontent, CacheProtection.encrypts, CacheProtection.cipherKey,
        decryptCacheBytes_ok hcontent]
  | configured cacheEncryption cacheKeyEnv =>
    cases cacheEncryption with
    | false =>
      cases hcontent : isEncryptedCacheBytes content <;>
        simp [unprotectCacheBytes, hcontent, CacheProtection.encrypts, eq_comm]
    | true =>
      cases hcontent : isEncryptedCacheBytes content with
      | false =>
        refine iff_of_false (by simp [unprotectCacheBytes, hcontent]) ?_
        rintro ⟨key, nonce, ciphertext, -, -, -, h, -⟩
        exact absurd (hmarked key nonce ciphertext h) (by simp [hcontent])
      | true =>
        simp only [unprotectCacheBytes, hcontent, CacheProtection.encrypts,
          CacheProtection.cipherKey, Bool.not_true, Bool.false_eq_true, if_false, if_true,
          exceptBind_ok, decryptCacheBytes_ok hcontent, exists_and_left]

/-- Exactly what is loaded from a file: a protection that fits, within both limits,
the mark of this version, and one valid cache with nothing after it. -/
theorem decodeCache_ok (lib : CacheLibraries γ) (path : String) (protection : CacheProtection)
    (content : Bytes) (cache : γ) (version : Nat) (encrypted : Bool) :
    lib.decodeCache path protection content = .ok (cache, version, encrypted) ↔
      content.length ≤ maxCacheFileBytes ∧
        ∃ decrypted body, lib.Unprotects protection content decrypted ∧
          lib.decompress decrypted = (cacheMagic ++ body, true) ∧
          (cacheMagic ++ body).length ≤ maxCacheDecodeBytes ∧
          lib.decode body = .ok (.v11 cache, []) ∧ lib.validateSemantics cache = .ok () ∧
          version = cacheFormatVersion ∧ encrypted = protection.encrypts := by
  simp only [loaded_iff, unprotectCacheBytes_ok]

end Load

section Write

theorem cacheBytes_ok {protection : CacheProtection} {nonce : Bytes}
    {maxFileBytes maxDecodeBytes : Nat} {cache : γ} {content : Bytes}
    (h : lib.cacheBytes protection nonce maxFileBytes maxDecodeBytes cache = .ok content) :
    lib.validateSemantics cache = .ok () ∧ content.length ≤ maxFileBytes ∧
      (cacheMagic ++ (lib.encode (.current cache)).flatten).length ≤ maxDecodeBytes ∧
      lib.protectCacheBytes nonce
        (lib.compress (cacheMagic ++ (lib.encode (.current cache)).flatten)) protection =
          .ok content := by
  unfold cacheBytes at h
  cases hvalid : lib.validateSemantics cache with
  | error error =>
    rw [hvalid] at h
    cases h
  | ok =>
    rw [hvalid] at h
    dsimp only at h
    have hstart : (SizeLimitedWriter.new maxDecodeBytes).Counted := ⟨rfl, Nat.zero_le _⟩
    by_cases hheader : ((SizeLimitedWriter.new maxDecodeBytes).write cacheMagic).limitExceeded = true
    · rw [if_pos hheader] at h
      cases h
    rw [if_neg hheader] at h
    obtain ⟨hcounted, hmax, hall⟩ := SizeLimitedWriter.writePieces_spec
      (lib.encode (.current cache)) (hstart.write cacheMagic)
      (Bool.not_eq_true _ ▸ hheader)
    by_cases hbody : (((SizeLimitedWriter.new maxDecodeBytes).write cacheMagic).writePieces
        (lib.encode (.current cache))).limitExceeded = true
    · rw [if_pos hbody] at h
      cases h
    rw [if_neg hbody] at h
    obtain ⟨bytes, hprotect, hsize⟩ := exceptBind_ok.mp h
    split at hsize
    · cases hsize
    · rename_i hfits
      obtain rfl := Except.ok.inj hsize
      have hinner := hall (Bool.not_eq_true _ ▸ hbody)
      have hwritten : ((SizeLimitedWriter.new maxDecodeBytes).write cacheMagic).inner = cacheMagic ∧
          ((SizeLimitedWriter.new maxDecodeBytes).write cacheMagic).maxBytes = maxDecodeBytes := by
        unfold SizeLimitedWriter.write at hheader ⊢
        split at hheader
        · exact absurd rfl hheader
        · rename_i hroom
          rw [if_neg hroom]
          exact ⟨rfl, rfl⟩
      rw [hwritten.1] at hinner
      refine ⟨rfl, Nat.not_lt.mp hfits, ?_, ?_⟩
      · rw [← hinner]
        exact Nat.le_trans hcounted.bound (Nat.le_of_eq (hmax.trans hwritten.2))
      · rw [← hinner]
        exact hprotect

theorem unprotect_protect (h : lib.Lawful) {protection : CacheProtection} {nonce bytes content : Bytes}
    (hnonce : nonce.length = nonceLength)
    (hprotect : lib.protectCacheBytes nonce (lib.compress bytes) protection = .ok content) :
    lib.unprotectCacheBytes content protection = .ok (lib.compress bytes) ∧
      isEncryptedCacheBytes content = protection.encrypts := by
  have hkey (key : Bytes)
      (hencrypt : lib.encryptCacheBytes nonce (lib.compress bytes) key = .ok content) :
      lib.decryptCacheBytes content key = .ok (lib.compress bytes) ∧
        isEncryptedCacheBytes content = true := by
    unfold encryptCacheBytes at hencrypt
    split at hencrypt
    · rename_i ciphertext hciphertext
      obtain rfl := Except.ok.inj hencrypt
      obtain ⟨hne, hdecrypt⟩ := h.decrypt_encrypt _ _ _ _ hciphertext
      have hpos := List.length_pos_of_ne_nil hne
      have hhead : (encryptedCacheMagic ++ nonce).length =
          encryptedCacheMagic.length + nonceLength := by
        rw [List.length_append, hnonce]
      refine ⟨?_, ?_⟩
      · unfold decryptCacheBytes
        dsimp only
        rw [if_neg (by rw [List.length_append, hhead]; omega), ← hhead, List.take_left,
          List.drop_left, List.drop_left, hdecrypt]
      · unfold isEncryptedCacheBytes
        rw [List.append_assoc, List.isPrefixOf_iff_prefix]
        exact List.prefix_append _ _
    · cases hencrypt
  cases protection with
  | withKey key =>
    obtain ⟨hdecrypt, hencrypted⟩ := hkey key hprotect
    simp [unprotectCacheBytes, CacheProtection.encrypts, hencrypted, hdecrypt]
  | configured cacheEncryption cacheKeyEnv =>
    cases cacheEncryption with
    | false =>
      obtain rfl := Except.ok.inj hprotect
      simp [unprotectCacheBytes, CacheProtection.encrypts, h.compress_magic]
    | true =>
      obtain ⟨key, hkeyEnv, hencrypt⟩ := exceptBind_ok.mp hprotect
      obtain ⟨hdecrypt, hencrypted⟩ := hkey key hencrypt
      refine ⟨?_, hencrypted⟩
      unfold unprotectCacheBytes
      simp only [hencrypted, Bool.not_true, Bool.false_eq_true, if_false]
      exact exceptBind_ok.mpr ⟨key, hkeyEnv, hdecrypt⟩

theorem load_written (h : lib.Lawful) {protection : CacheProtection} {nonce content : Bytes}
    {cache : γ} (hnonce : nonce.length = nonceLength)
    (hreads : lib.decode (lib.encode (.current cache)).flatten = .ok (.current cache, []))
    (hwrite : lib.writeCache protection nonce cache = .ok content) (path : String) :
    lib.decodeCache path protection content =
        .ok (cache, cacheFormatVersion, protection.encrypts) ∧
      isEncryptedCacheBytes content = protection.encrypts := by
  obtain ⟨hvalid, hfits, hlength, hprotect⟩ := cacheBytes_ok hwrite
  obtain ⟨hunprotect, hencrypted⟩ := unprotect_protect h hnonce hprotect
  exact ⟨loaded_iff.mpr ⟨hfits, _, _, hunprotect, h.decompress_compress _, hlength, hreads, hvalid,
    rfl, rfl⟩, hencrypted⟩

/-- A cache that is written is loaded again with the same protection, and with no
protection that differs in whether it encrypts. -/
theorem written_cache_is_loaded (h : lib.Lawful) {protection : CacheProtection}
    {nonce content : Bytes} {cache : γ} (hnonce : nonce.length = nonceLength)
    (hreads : lib.decode (lib.encode (.current cache)).flatten = .ok (.current cache, []))
    (hwrite : lib.writeCache protection nonce cache = .ok content) (path : String) :
    lib.decodeCache path protection content =
        .ok (cache, cacheFormatVersion, protection.encrypts) ∧
      ∀ other result, lib.decodeCache path other content = .ok result →
        other.encrypts = protection.encrypts := by
  obtain ⟨hload, hencrypted⟩ := load_written h hnonce hreads hwrite path
  refine ⟨hload, fun other result hother => ?_⟩
  obtain ⟨found, version, flag⟩ := result
  obtain ⟨-, decrypted, -, hunprotect, -⟩ := loaded_iff.mp hother
  rw [← unprotect_ok hunprotect, ← hencrypted]
  cases other with
  | configured cacheEncryption cacheKeyEnv => rfl
  | withKey key =>
    unfold unprotectCacheBytes at hunprotect
    cases hmarked : isEncryptedCacheBytes content with
    | true => rfl
    | false => simp [hmarked] at hunprotect

/-- Bytes for a cache, stored behind the first byte of a compressed stream. -/
def storedLibraries : CacheLibraries Bytes where
  compress bytes := 40 :: bytes
  decompress
    | 40 :: bytes => (bytes, true)
    | _ => ([], false)
  encode
    | .v11 cache => [[10], cache]
    | _ => []
  decode
    | 10 :: cache => .ok (.v11 cache, [])
    | _ => .error (.other "unexpected variant")
  encrypt key nonce bytes := some (key ++ nonce ++ bytes ++ [1])
  decrypt key nonce ciphertext :=
    if (key ++ nonce).isPrefixOf ciphertext then
      some ((ciphertext.drop (key ++ nonce).length).dropLast)
    else none
  validateSemantics cache := if cache = [] then .error "empty" else .ok ()

theorem storedLibraries_lawful : storedLibraries.Lawful where
  decompress_compress _ := rfl
  compress_magic _ := rfl
  decrypt_encrypt key nonce bytes ciphertext h := by
    obtain rfl := Option.some.inj h
    have hprefix : (key ++ nonce).isPrefixOf (key ++ nonce ++ bytes ++ [1]) = true := by
      rw [List.append_assoc (key ++ nonce), List.isPrefixOf_iff_prefix]
      exact List.prefix_append _ _
    refine ⟨by simp, ?_⟩
    unfold storedLibraries
    dsimp only
    rw [if_pos hprefix, List.append_assoc (key ++ nonce), List.drop_left, List.dropLast_concat]

def storedKey : Bytes := List.replicate 32 5

def storedNonce : Bytes := List.replicate nonceLength 7

def storedContent : Bytes :=
  encryptedCacheMagic ++ storedNonce ++ (storedKey ++ storedNonce ++
    (40 :: (cacheMagic ++ [10, 1, 2])) ++ [1])

theorem written_cache_is_loaded_stored :
    storedLibraries.decodeCache "cache" (.withKey storedKey) storedContent =
        .ok ([1, 2], cacheFormatVersion, true) ∧
      ∀ other result, storedLibraries.decodeCache "cache" other storedContent = .ok result →
        other.encrypts = true :=
  written_cache_is_loaded storedLibraries_lawful (by decide) (by rfl)
    (show storedLibraries.writeCache (.withKey storedKey) storedNonce [1, 2] = .ok _ from rfl)
    "cache"

end Write

end CacheLibraries

end SafeMigrate
