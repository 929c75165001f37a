import Utls.EchSent
import Utls.InnerHello

/-!
# The additional data of the sealed inner hello

The additional data is what a server gets from `Hello.Raw` by putting zeros in the place of the
payload: the bytes in front of the payload and behind it are the same in both hellos
(`seal_associated_data`).  This takes an inner hello whose first binder has the length of the binder
that is put in its place before sealing.
-/

namespace Utls

open Wire Exec List Option

/-! ## The payload in the bytes of a hello -/

variable {exts : List Ext} {i : Nat}

lemma extensionBlock_set (parseIP : GoString → Bool) (hi : i < exts.length) (e : Ext) :
    extensionBlock parseIP (exts.set i e) = vec16 ((exts.take i).flatMap (fun e => e.wire parseIP) ++
      (e.wire parseIP ++ (exts.drop (i + 1)).flatMap fun e => e.wire parseIP)) := by
  have hne : (exts.set i e).length ≠ 0 := by
    rw [length_set]
    omega
  rw [extensionBlock, if_neg hne, set_eq_take_append_cons_drop, if_pos hi, flatMap_append,
    flatMap_cons]

/-- All ECH extensions of one length stand between the same bytes. -/
lemma exists_around_data (parseIP : GoString → Bool) (h : ClientHelloMsg)
    (hi : i < exts.length) (n : Nat) :
    ∃ pre post : Bytes, 4 ≤ pre.length ∧ ∀ data : Bytes, data.length = n →
      clientHelloEncoding parseIP h (exts.set i (.generic extensionEncryptedClientHello data)) =
        pre ++ (data ++ post) := by
  set before := (exts.take i).flatMap fun e => e.wire parseIP
  set behind := (exts.drop (i + 1)).flatMap fun e => e.wire parseIP
  set size := before.length + (4 + n + behind.length) with hsize
  refine ⟨1 :: (u24 ((helloHeader h).length + (2 + size)) ++ (helloHeader h ++ (u16 size ++ (before ++
    (u16 extensionEncryptedClientHello.toNat ++ u16 n))))), behind, by simp, fun data hn => ?_⟩
  have hwire : (Ext.generic extensionEncryptedClientHello data).wire parseIP =
      u16 extensionEncryptedClientHello.toNat ++ (u16 n ++ data) := by
    rw [← hn]
    rfl
  have hlen : (before ++ ((u16 extensionEncryptedClientHello.toNat ++ (u16 n ++ data)) ++
      behind)).length = size := by
    simp only [length_append, length_u16, hn, hsize]
    omega
  have hblock : extensionBlock parseIP (exts.set i (.generic extensionEncryptedClientHello data)) =
      u16 size ++ (before ++ ((u16 extensionEncryptedClientHello.toNat ++ (u16 n ++ data)) ++
        behind)) := by
    rw [extensionBlock_set parseIP hi, hwire, vec16, hlen]
  rw [clientHelloEncoding, hblock, length_append, length_append, length_u16, hlen]
  simp only [append_assoc, cons_append]

/-- The bytes of the outer extension in front of the payload depend on its length only. -/
lemma outerECHExt_eq_some {ech : EchClientContext} {useKey : Bool} {payload data : Bytes}
    (h : outerECHExt ech useKey payload = some data) :
    data = 0 :: (u16 ech.kdfID.toNat ++ (u16 ech.aeadID.toNat ++ (ech.config.configID ::
      (vec16 (if useKey then ech.encapsulatedKey else []) ++ u16 payload.length)))) ++ payload := by
  obtain ⟨k, hk, h⟩ := bind_eq_some_iff.mp h
  obtain ⟨p, hp, rfl⟩ := map_eq_some_iff.mp h
  obtain ⟨-, rfl⟩ := lp16_eq_some.mp hk
  obtain ⟨-, rfl⟩ := lp16_eq_some.mp hp
  simp only [vec16, cons_append, append_assoc]

/-- All payloads of one length stand between the same bytes. -/
lemma exists_around_payload (parseIP : GoString → Bool) (h : ClientHelloMsg)
    (hi : i < exts.length) (ech : EchClientContext) (useKey : Bool) (n : Nat) :
    ∃ pre post : Bytes, 4 ≤ pre.length ∧ ∀ payload data, payload.length = n →
      outerECHExt ech useKey payload = some data →
        clientHelloEncoding parseIP h (exts.set i (.generic extensionEncryptedClientHello data)) =
          pre ++ (payload ++ post) := by
  set front := 0 :: (u16 ech.kdfID.toNat ++ (u16 ech.aeadID.toNat ++ (ech.config.configID ::
    (vec16 (if useKey then ech.encapsulatedKey else []) ++ u16 n))))
  obtain ⟨pre, post, hpre, hdata⟩ := exists_around_data parseIP h hi (front.length + n)
  refine ⟨pre ++ front, post, ?_, fun payload data hn hext => ?_⟩
  · rw [length_append]
    omega
  · have hsplit : data = front ++ payload := by
      rw [outerECHExt_eq_some hext, hn]
    rw [hdata data (by rw [hsplit, length_append, hn]), hsplit]
    simp only [append_assoc]

/-! ## Sealing -/

section Deps

variable (d : Deps)

/-- When the outer extension has been computed, the inner hello has been sealed once, with
`Hello.Raw` as additional data, without its header and with zeros in the place of the payload; and
the list of extensions is as before. -/
theorem seal_associated_data {inner : ClientHelloMsg} {ech ctx : EchClientContext} {useKey : Bool}
    {outerExts : List UInt16} {pskExt : Option UtlsPreSharedKeyExtension} {c c' : UConn}
    (h : computeAndUpdateOuterECHExtensionWithOuterExts d inner ech useKey outerExts pskExt c =
      .ok ctx c') (ht : c.Tidy) (hr : c.hello.random.length = 32) (hb : BinderSized c inner) :
    ∃ i payload pre post, echIndex c.exts = some i ∧
      SealedAt d c' i useKey ctx ech.hpkeContext.seqNum payload ∧
      c'.raw = pre ++ (payload ++ post) ∧ 4 ≤ pre.length ∧
      payload = d.hpkeSeal ctx.aeadID ctx.hpkeContext.secret ech.hpkeContext.seqNum
        ((pre ++ (List.replicate payload.length 0 ++ post)).drop 4) ctx.encodedInnerHello ∧
      ctx.hpkeContext.seqNum = ech.hpkeContext.seqNum + 1 ∧ c'.extensions = c.extensions := by
  obtain ⟨i, payload, hi, hkeys, hstep, hsealed, -⟩ := computeOuterECH_ok d h ht.extensions
    ht.regularExts hr hb
  have hlt : i < c'.exts.length := by
    rw [UConn.exts, length_map, hstep.extensions]
    exact echIndex_lt hi
  obtain ⟨pre, post, hpre, haround⟩ :=
    exists_around_payload d.parseIP c'.hello hlt ctx useKey payload.length
  obtain ⟨data, hdata, hraw⟩ := hsealed.raw
  obtain ⟨zeroed, hzeroed, hpayload⟩ := hsealed.sealed
  have hseq : ctx.hpkeContext.seqNum = ech.hpkeContext.seqNum + 1 :=
    congrArg (fun x => x.2.1.seqNum) hkeys
  refine ⟨i, payload, pre, post, hi, hsealed, ?_, hpre, ?_, hseq, hstep.extensions⟩
  · rw [UConn.raw, hraw, getD_some, haround payload data rfl hdata]
  · rw [haround _ zeroed (length_replicate ..) hzeroed] at hpayload
    exact hpayload

end Deps

/-- The context of the client for its ECH configuration. -/
def sampleEchContext : EchClientContext where
  config :=
    { raw := []
      version := extensionEncryptedClientHello
      length := 20
      configID := 7
      kemID := 0x20
      publicKey := [9]
      symmetricCipherSuite := [⟨1, 1⟩]
      maxNameLength := 0
      publicName := [97, 98, 46, 99]
      extensions := [] }
  hpkeContext := ⟨[1], 0⟩
  encapsulatedKey := [1]
  kdfID := 1
  aeadID := 1

/-- An inner hello without a pre-shared key is sealed. -/
theorem seal_associated_data_without_psk :
    ∃ ctx c' i payload pre post, computeAndUpdateOuterECHExtensionWithOuterExts .sample sampleInner
        sampleEchContext true [] none echClient = .ok ctx c' ∧
      echIndex echClient.exts = some i ∧
      SealedAt .sample c' i true ctx sampleEchContext.hpkeContext.seqNum payload ∧
      c'.raw = pre ++ (payload ++ post) ∧ 4 ≤ pre.length ∧
      payload = Deps.sample.hpkeSeal ctx.aeadID ctx.hpkeContext.secret
        sampleEchContext.hpkeContext.seqNum
        ((pre ++ (List.replicate payload.length 0 ++ post)).drop 4) ctx.encodedInnerHello ∧
      ctx.hpkeContext.seqNum = sampleEchContext.hpkeContext.seqNum + 1 ∧
      c'.extensions = echClient.extensions := by
  obtain ⟨ctx, c', h, -⟩ := exists_eq_ok_of_returnsWith (show returnsWith (fun _ _ => true)
    (computeAndUpdateOuterECHExtensionWithOuterExts .sample sampleInner sampleEchContext true [] none
      echClient) = true by decide +kernel)
  have hb : BinderSized echClient sampleInner := fun _ _ _ hids => absurd rfl hids
  obtain ⟨i, payload, pre, post, hseal⟩ := seal_associated_data .sample h fresh_echClient.sound.tidy
    (by decide +kernel) hb
  exact ⟨ctx, c', i, payload, pre, post, h, hseal⟩

/-- An environment in which the ciphertext ends in the length of the additional data. -/
def Deps.showingAad : Deps :=
  { Deps.sample with
    hpkeSeal := fun _ _ _ aad pt => pt ++ (u16 aad.length ++ List.replicate 14 0)
    hpkeSeal_length := fun _ _ _ _ pt => by simp
    hpkeOpen_seal := fun _ _ _ _ pt => by
      change some _ = _
      simp }

/-- An inner hello with a pre-shared key and a binder of one byte. -/
def shortBinderInner : ClientHelloMsg :=
  { sampleInner with pskIdentities := [⟨[5], 0⟩], pskBinders := [[0]] }

/-- The client with a key for binders. -/
def binderClient : UConn :=
  { echClient with
    pskCipherSuite := cipherSuiteTLS13ByID 0x1301
    pskBinderKey := [1] }

/-- The hello that was sent has another payload than the one that its own bytes, with zeros in the
place of the payload, are the additional data of. -/
def payloadDiffers (ctx : EchClientContext) (c : UConn) (i : Nat) : Bool :=
  match outerECHExt ctx true
      (ctx.encodedInnerHello ++ (u16 (c.raw.length - 4) ++ List.replicate 14 0)) with
  | some data => decide (c.hello.original ≠ some (clientHelloEncoding Deps.sample.parseIP c.hello
      (c.exts.set i (.generic extensionEncryptedClientHello data))))
  | none => true

lemma not_sealedAt_of_payloadDiffers {c : UConn} {ctx : EchClientContext} {n : Nat}
    {payload : Bytes} (hi : i < c.exts.length) (h : payloadDiffers ctx c i = true) :
    ¬SealedAt .showingAad c i true ctx n payload := by
  rintro ⟨⟨data, hdata, hraw⟩, ⟨zeroed, hzeroed, hpayload⟩⟩
  obtain ⟨pre, post, hpre, haround⟩ :=
    exists_around_payload Deps.showingAad.parseIP c.hello hi ctx true payload.length
  have hlen : ((clientHelloEncoding Deps.showingAad.parseIP c.hello
      (c.exts.set i (.generic extensionEncryptedClientHello zeroed))).drop 4).length =
        c.raw.length - 4 := by
    rw [UConn.raw, hraw, getD_some, haround _ data rfl hdata,
      haround _ zeroed (length_replicate ..) hzeroed]
    simp
  have hpayload : payload = ctx.encodedInnerHello ++ (u16 (c.raw.length - 4) ++
      replicate 14 0) := by
    rw [← hlen]
    exact hpayload
  rw [payloadDiffers, ← hpayload, hdata] at h
  exact of_decide_eq_true h hraw

/-- A binder of one byte is replaced by one of 32 bytes, and the payload gets longer than the zeros
in the additional data. -/
theorem seal_associated_data_short_binder :
    ∃ ctx c', computeAndUpdateOuterECHExtensionWithOuterExts .showingAad shortBinderInner
        sampleEchContext true [] none binderClient = .ok ctx c' ∧
      ∀ i payload, echIndex binderClient.exts = some i →
        ¬SealedAt .showingAad c' i true ctx sampleEchContext.hpkeContext.seqNum payload := by
  obtain ⟨ctx, c', h, htest⟩ := exists_eq_ok_of_returnsWith (show returnsWith
    (fun ctx c' => decide (2 < c'.exts.length) && payloadDiffers ctx c' 2)
    (computeAndUpdateOuterECHExtensionWithOuterExts .showingAad shortBinderInner sampleEchContext true
      [] none binderClient) = true by decide +kernel)
  rw [Bool.and_eq_true, decide_eq_true_eq] at htest
  refine ⟨ctx, c', h, fun i payload hi => ?_⟩
  have hi2 : echIndex binderClient.exts = some 2 := by decide +kernel
  obtain rfl : i = 2 := some.inj (hi.symm.trans hi2)
  exact not_sealedAt_of_payloadDiffers htest.1 htest.2

end Utls
