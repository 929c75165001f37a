import Utls.Lib.Bytes

/-!
# Symmetric ciphers

Stream ciphers, block ciphers in a chaining mode, authenticated encryption and message
authentication codes, each with the laws that a protocol relies on: decryption inverts encryption,
and the lengths are known.  No secrecy or unforgeability is stated.

A cipher that keeps a state (the position in the key stream, the last block) gets it as an argument
and returns the next one.  Both ends of a connection start with the same state, and the laws say
that they end with the same state.
-/

namespace Wire

/-- A stream cipher. -/
structure Stream (σ : Type) where
  xorKeyStream : σ → Bytes → Bytes × σ
  length_xor : ∀ k b, (xorKeyStream k b).1.length = b.length
  xor_append : ∀ k a b, xorKeyStream k (a ++ b) =
    ((xorKeyStream k a).1 ++ (xorKeyStream (xorKeyStream k a).2 b).1,
      (xorKeyStream (xorKeyStream k a).2 b).2)
  xor_xor : ∀ k b, xorKeyStream k (xorKeyStream k b).1 = (b, (xorKeyStream k b).2)

/-- A block cipher in a chaining mode, on strings of whole blocks.  A padding length is one byte, so
that a block has at most 256 bytes. -/
structure BlockMode (τ : Type) where
  blockSize : Nat
  blockSize_pos : 0 < blockSize
  blockSize_le : blockSize ≤ 256
  encryptBlocks : τ → Bytes → Bytes × τ
  decryptBlocks : τ → Bytes → Bytes × τ
  setIV : τ → Bytes → τ
  length_encrypt : ∀ k b, blockSize ∣ b.length → (encryptBlocks k b).1.length = b.length
  decrypt_encrypt : ∀ k b, blockSize ∣ b.length →
    decryptBlocks k (encryptBlocks k b).1 = (b, (encryptBlocks k b).2)

/-- Authenticated encryption with additional data. -/
structure Aead where
  explicitNonceLen : Nat
  overhead : Nat
  sealBytes : (nonce additionalData plaintext : Bytes) → Bytes
  openBytes : (nonce additionalData ciphertext : Bytes) → Option Bytes
  length_seal : ∀ nonce ad p, (sealBytes nonce ad p).length = p.length + overhead
  open_seal : ∀ nonce ad p, openBytes nonce ad (sealBytes nonce ad p) = some p

/-- A message authentication code.  The bound on the size keeps the lengths of records within the
range of a signed 32-bit integer. -/
structure Mac where
  size : Nat
  size_lt : size < 2 ^ 30
  tag : Bytes → Bytes
  length_tag : ∀ b, (tag b).length = size

end Wire
