import Utls.Types

/-!
# Compressed certificates

`decompressCert` opens the decompressor of the server's algorithm and reads the certificate message
with one call of `Read`, into a buffer of the announced length.  A reader may hand over its stream
in chunks of any size.  So the length check compares the announced length with the first chunk, and
it is right exactly for the readers whose first chunk tells the two lengths apart
(`decompressCert_iff`).
-/

namespace Utls

open Wire List

/-! ## Readers -/

/-- An error of `Read`. -/
inductive ReadErr where
  | eof
  | other (msg : String)
  deriving DecidableEq

/-- The decompressors: a reader for compressed bytes, and `Read` into a buffer of the given length,
with the bytes read, the error and the reader after the call. -/
structure Decompressors (σ : Type) where
  brotli : Bytes → σ
  zlib : Bytes → Except String σ
  zstd : Bytes → Except String σ
  read : σ → Nat → (Bytes × Option ReadErr) × σ

variable {σ Cert : Type}

/-- The reader hands over exactly `stream`, as the contract of `io.Reader` has it: each call of
`Read` gives at most as many of the next bytes as the buffer holds, possibly none, and the end of
the file is reported with the last of them or later. -/
def Decompressors.Delivers (d : Decompressors σ) (reader : σ) (stream : Bytes) : Prop :=
  ∃ I : σ → Bytes → Prop, I reader stream ∧ ∀ r rest, I r rest → ∀ len,
    (d.read r len).1.1.length ≤ len ∧ (d.read r len).1.1 <+: rest ∧
      ((d.read r len).1.2 = none ∨ (d.read r len).1.2 = some .eof ∧ (d.read r len).1.1 = rest) ∧
      I (d.read r len).2 (rest.drop (d.read r len).1.1.length)

/-! ## The message -/

/-- A `utlsCompressedCertificateMsg`. -/
structure CompressedCertificateMsg where
  algorithm : UInt16
  uncompressedLength : Nat
  compressedCertificateMessage : Bytes

/-- A failure with the alert `bad_certificate`. -/
def badCertificate (msg : String) : Err := .alert "bad_certificate" msg

/-- The `switch` over the algorithms, with the code points of brotli, zlib and zstd. -/
def Decompressors.newReader (d : Decompressors σ) (m : CompressedCertificateMsg) : Except Err σ :=
  match m.algorithm with
  | 2 => .ok (d.brotli m.compressedCertificateMessage)
  | 1 => (d.zlib m.compressedCertificateMessage).mapError fun e =>
      badCertificate ("failed to open zlib reader: " ++ e)
  | 3 => (d.zstd m.compressedCertificateMessage).mapError fun e =>
      badCertificate ("failed to open zstd reader: " ++ e)
  | alg => .error (badCertificate ("unsupported algorithm (" ++ toString alg ++ ")"))

/-- A certificate message of type 11 with its length field, parsed by `unmarshal`. -/
def parseCertificate (unmarshal : Bytes → Option Cert) (len : Nat) (body : Bytes) :
    Except Err Cert :=
  match unmarshal (11 :: (u24 len ++ body)) with
  | some cert => .ok cert
  | none => .error (.alert "unexpected_message" "")

/-- The error for `n` bytes read of `len`. -/
def lengthMismatch (n len : Nat) : Err :=
  badCertificate ("decompressed len (" ++ toString n ++ ") does not match specified len (" ++
    toString len ++ ")")

/-- `decompressCert` for the advertised algorithms `algs`. -/
def decompressCert (d : Decompressors σ) (unmarshal : Bytes → Option Cert) (algs : List UInt16)
    (m : CompressedCertificateMsg) : Except Err Cert :=
  if m.algorithm ∉ algs then
    .error (badCertificate ("unadvertised algorithm (" ++ toString m.algorithm ++ ")"))
  else do
    let decompressed ← d.newReader m
    let ((body, err), _) := d.read decompressed m.uncompressedLength
    match err with
    | some (.other e) => .error (badCertificate e)
    | _ =>
      if body.length < m.uncompressedLength then
        .error (lengthMismatch body.length m.uncompressedLength)
      else parseCertificate unmarshal m.uncompressedLength body

/-! ## The length check -/

/-- Parsing never fails with `bad_certificate`. -/
lemma parseCertificate_ne_bad (unmarshal : Bytes → Option Cert) (len : Nat) (body : Bytes)
    (msg : String) : parseCertificate unmarshal len body ≠ .error (badCertificate msg) := by
  unfold parseCertificate badCertificate
  split <;> simp

variable {d : Decompressors σ} (unmarshal : Bytes → Option Cert) {algs : List UInt16}
  {m : CompressedCertificateMsg} {reader : σ} {stream : Bytes}

/-- What is decompressed depends on the first chunk only: one that fills the buffer is parsed, a
shorter one is refused. -/
lemma decompressCert_of_delivers (hadv : m.algorithm ∈ algs) (hopen : d.newReader m = .ok reader)
    (hread : d.Delivers reader stream) :
    let first := (d.read reader m.uncompressedLength).1.1
    (first.length = m.uncompressedLength → decompressCert d unmarshal algs m =
        parseCertificate unmarshal m.uncompressedLength first) ∧
      (first.length ≠ m.uncompressedLength →
        ∃ msg, decompressCert d unmarshal algs m = .error (badCertificate msg)) := by
  intro first
  obtain ⟨I, hI, hstep⟩ := hread
  obtain ⟨hle, -, herr, -⟩ := hstep _ _ hI m.uncompressedLength
  have hrun : decompressCert d unmarshal algs m =
      if first.length < m.uncompressedLength then
        .error (lengthMismatch first.length m.uncompressedLength)
      else parseCertificate unmarshal m.uncompressedLength first := by
    rcases herr with h | ⟨h, -⟩ <;>
      simp [decompressCert, hadv, hopen, first, h, bind, Except.bind]
  constructor <;> intro h
  · rw [hrun, if_neg (Nat.not_lt.mpr h.ge)]
  · exact ⟨_, hrun.trans (if_pos (Nat.lt_of_le_of_ne hle h))⟩

/-- The stream is parsed if it has the announced length and refused with `bad_certificate` otherwise,
exactly if the first `Read` fills the buffer of the announced length just for a stream of that
length. -/
theorem decompressCert_iff (hadv : m.algorithm ∈ algs) (hopen : d.newReader m = .ok reader)
    (hread : d.Delivers reader stream) :
    ((stream.length = m.uncompressedLength → decompressCert d unmarshal algs m =
        parseCertificate unmarshal m.uncompressedLength stream) ∧
      (stream.length ≠ m.uncompressedLength →
        ∃ msg, decompressCert d unmarshal algs m = .error (badCertificate msg))) ↔
    ((d.read reader m.uncompressedLength).1.1.length = m.uncompressedLength ↔
      stream.length = m.uncompressedLength) := by
  have hpre : (d.read reader m.uncompressedLength).1.1 <+: stream := by
    obtain ⟨I, hI, hstep⟩ := hread
    exact (hstep _ _ hI _).2.1
  obtain ⟨hfull, hshort⟩ := decompressCert_of_delivers unmarshal hadv hopen hread
  constructor
  · rintro ⟨heq, hne⟩
    constructor
    · intro h
      by_contra hlen
      obtain ⟨msg, hbad⟩ := hne hlen
      exact parseCertificate_ne_bad _ _ _ _ ((hfull h).symm.trans hbad)
    · intro hlen
      by_contra h
      obtain ⟨msg, hbad⟩ := hshort h
      exact parseCertificate_ne_bad _ _ _ _ ((heq hlen).symm.trans hbad)
  · intro hiff
    refine ⟨fun hlen => ?_, fun hlen => hshort (mt hiff.mp hlen)⟩
    -- a prefix as long as the stream is the stream
    have hall := hpre.eq_of_length ((hiff.mpr hlen).trans hlen.symm)
    exact (hfull (hiff.mpr hlen)).trans (by rw [hall])

/-! ## Readers that keep the chunks of their source -/

/-- Readers that give one of `chunks` at a call, or as much of it as the buffer holds. -/
def chunked (chunks : List Bytes) : Decompressors (List Bytes) where
  brotli _ := chunks
  zlib _ := .ok chunks
  zstd _ := .ok chunks
  read
    | [], _ => (([], some .eof), [])
    | c :: cs, len => ((c.take len, none), c.drop len :: cs)

lemma chunked_delivers (chunks : List Bytes) : (chunked chunks).Delivers chunks chunks.flatten := by
  refine ⟨fun r rest => r.flatten = rest, rfl, ?_⟩
  rintro r - rfl len
  cases r with
  | nil => simp [chunked]
  | cons c cs =>
    refine ⟨length_take_le .., ( take_prefix ..).trans (prefix_append ..), .inl rfl, ?_⟩
    show c.drop len ++ cs.flatten = _
    rcases Nat.le_total c.length len with h | h
    · simp [chunked, take_of_length_le h, drop_of_length_le h]
    · simp [chunked, Nat.min_eq_left h, drop_append_of_le_length h]

/-- A stream in one chunk of the announced length is parsed. -/
theorem decompressCert_single_chunk :
    decompressCert (chunked [[7, 9]]) some [2] ⟨2, 2, []⟩ = parseCertificate some 2 [7, 9] :=
  ((decompressCert_iff some (by simp) rfl (chunked_delivers [[7, 9]])).mpr (by decide)).1 rfl

/-- A zlib stream of the announced length that comes in two chunks is refused. -/
theorem decompressCert_refuses :
    (chunked [[7], [9]]).Delivers [[7], [9]] [7, 9] ∧
      (chunked [[7], [9]]).newReader ⟨1, 2, []⟩ = .ok [[7], [9]] ∧
      decompressCert (chunked [[7], [9]]) some [1] ⟨1, 2, []⟩ = .error (lengthMismatch 1 2) :=
  ⟨chunked_delivers [[7], [9]], rfl, rfl⟩

end Utls
