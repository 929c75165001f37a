import Utls.Build

/-!
# The binders at the end of the hello

A pre-shared key extension is the last extension, and its binders are its last field, so they are
the last bytes of the hello.  `encoding_psk` splits the encoding there; `patchBuiltHello_current`
says that patching the binders keeps `Hello.Raw` the encoding of the fields and extensions.
-/

namespace Utls

open Wire Exec List

/-! ## Splitting the encoding -/

/-- The extensions in front of the binders: the other extensions, and the pre-shared key extension
up to its identities, if its binders take `n` bytes. -/
def pskFront (parseIP : GoString → Bool) (pre : List Ext) (identities : List PskIdentity)
    (n : Nat) :
    Bytes :=
  (pre.flatMap fun e => e.wire parseIP) ++ (u16 extensionPreSharedKey.toNat ++
    (u16 (2 + ((pskIdentityBytes identities).length + (2 + n))) ++
      vec16 (pskIdentityBytes identities)))

/-- The hello in front of the binders, if these take `n` bytes. -/
def helloFront (parseIP : GoString → Bool) (h : ClientHelloMsg) (pre : List Ext)
    (identities : List PskIdentity) (n : Nat) : Bytes :=
  let front := pskFront parseIP pre identities n
  1 :: (u24 ((helloHeader h).length + (2 + (front.length + (2 + n)))) ++
    (helloHeader h ++ (u16 (front.length + (2 + n)) ++ front)))

lemma pskWire_eq {identities : List PskIdentity} {binders : List Bytes} (hi : identities ≠ [])
    (hb : binders ≠ []) :
    pskWire identities binders = extFrame extensionPreSharedKey
      (vec16 (pskIdentityBytes identities) ++ vec16 (pskBinderBytes binders)) := by
  unfold pskWire
  rw [if_neg]
  simp [hi, hb]

/-- The encoding of a hello that ends in a pre-shared key extension. -/
theorem encoding_psk {parseIP : GoString → Bool} {h : ClientHelloMsg} {pre : List Ext}
    {e : UtlsPreSharedKeyExtension} (hi : e.identities ≠ []) (hb : e.binders ≠ []) :
    clientHelloEncoding parseIP h (pre ++ [.utlsPreSharedKey e]) =
      helloFront parseIP h pre e.identities (pskBinderBytes e.binders).length ++
        vec16 (pskBinderBytes e.binders) := by
  have hwire : (pre ++ [Ext.utlsPreSharedKey e]).flatMap (fun e => e.wire parseIP) =
      pskFront parseIP pre e.identities (pskBinderBytes e.binders).length ++
        vec16 (pskBinderBytes e.binders) := by
    have hpsk : (Ext.utlsPreSharedKey e).wire parseIP = _ := pskWire_eq hi hb
    rw [flatMap_append, flatMap_cons, flatMap_nil, append_nil, hpsk, extFrame, pskFront]
    simp only [vec16, append_assoc, length_append, length_u16]
  have hblock : extensionBlock parseIP (pre ++ [Ext.utlsPreSharedKey e]) =
      vec16 (pskFront parseIP pre e.identities (pskBinderBytes e.binders).length ++
        vec16 (pskBinderBytes e.binders)) := by
    rw [extensionBlock, if_neg (by simp), hwire]
  rw [clientHelloEncoding, hblock, helloFront]
  simp only [vec16, length_append, length_u16, append_assoc, cons_append]

/-- The binders of a single pre-shared key. -/
lemma pskBinderBytes_singleton (b : Bytes) : pskBinderBytes [b] = vec8 b := by
  simp [pskBinderBytes]

lemma bindersSize_eq (binders : List Bytes) :
    bindersSize binders = (vec16 (pskBinderBytes binders)).length := by
  rw [length_vec16, length_pskBinderBytes, bindersSize]
  congr 2
  apply map_congr_left
  intro b _
  omega

/-- A hello that ends in one binder, with another binder of the same length written over its
end. -/
lemma encoding_patched {parseIP : GoString → Bool} {h : ClientHelloMsg} {pre : List Ext}
    {e : UtlsPreSharedKeyExtension} {b b' raw : Bytes} (hi : e.identities ≠ [])
    (hb : e.binders = [b]) (hlen : b.length = b'.length)
    (hraw : raw = clientHelloEncoding parseIP h (pre ++ [.utlsPreSharedKey e])) :
    raw.take (raw.length - bindersSize e.binders) ++ vec16 (vec8 b') =
      clientHelloEncoding parseIP h (pre ++ [.utlsPreSharedKey { e with binders := [b'] }]) := by
  -- the hello up to the binders only depends on their length
  have hsame : (pskBinderBytes e.binders).length = (pskBinderBytes [b']).length := by
    rw [hb, pskBinderBytes_singleton, pskBinderBytes_singleton, length_vec8, length_vec8, hlen]
  have hbne : e.binders ≠ [] := by
    rw [hb]
    simp
  have hfront : raw.take (raw.length - bindersSize e.binders) =
      helloFront parseIP h pre e.identities (pskBinderBytes e.binders).length := by
    rw [hraw, encoding_psk hi hbne, bindersSize_eq, length_append, Nat.add_sub_cancel, take_left]
  have hnew : ({ e with binders := [b'] } : UtlsPreSharedKeyExtension).identities ≠ [] := hi
  rw [hfront, hsame, encoding_psk hnew (by simp), ← pskBinderBytes_singleton b']

/-! ## Patching -/

section Deps

variable (d : Deps)

/-- What `writeBinders` does when it returns: nothing, or it replaces the only binder by one of the
same length and writes it over the end of the hello. -/
lemma writeBinders_eq_ok {r : Ref} {e : UtlsPreSharedKeyExtension} {c c' : UConn} {u : Unit}
    (h : writeBinders d r e c = .ok u c') :
    c' = c ∨ ∃ suite b, e.cipherSuite = some suite ∧ e.binders = [b] ∧
      bindersSize e.binders ≤ c.raw.length ∧
      b.length = (pskBinder d suite e.binderKey
        (c.raw.take (c.raw.length - bindersSize e.binders))).length ∧
      c' = (c.store r (.utlsPreSharedKey { e with
          binders := [pskBinder d suite e.binderKey
            (c.raw.take (c.raw.length - bindersSize e.binders))] })).setRaw
        (c.raw.take (c.raw.length - bindersSize e.binders) ++ vec16 (vec8 (pskBinder d suite
          e.binderKey (c.raw.take (c.raw.length - bindersSize e.binders))))) := by
  obtain ⟨_, _, h0, h1⟩ := bind_eq_ok.mp h
  cases h0
  obtain ⟨_, _, h0, h2⟩ := bind_eq_ok.mp h1
  obtain ⟨hs, rfl⟩ := assert_eq_ok.mp h0
  obtain ⟨_, _, h0, h3⟩ := bind_eq_ok.mp h2
  obtain ⟨hl, rfl⟩ := assert_eq_ok.mp h0
  obtain ⟨suite, hsuite⟩ := Option.isSome_iff_exists.mp hs
  have hget : e.cipherSuite.getD ⟨0, .sha256⟩ = suite := by rw [hsuite]; rfl
  simp only [hget] at h3
  split_ifs at h3 with hb
  · right
    cases h3
    obtain ⟨b, hbs⟩ : ∃ b, e.binders = [b] := by
      have := congrArg List.length hb
      simp only [length_map, length_singleton] at this
      exact length_eq_one_iff.mp this
    refine ⟨suite, b, hsuite, hbs, hl, ?_, rfl⟩
    have hb' : e.binders.map List.length = [b.length] := by rw [hbs]; rfl
    rw [hb] at hb'
    exact (singleton_inj.mp hb').symm
  · left
    cases h3
    rfl

/-- The pre-shared key extension at `r` is the last of the list and occurs nowhere else. -/
def UConn.EndsIn (c : UConn) (r : Ref) : Prop :=
  ∃ pre, c.extensions = pre ++ [r] ∧ r ∉ pre

/-- Storing the last extension changes only the last extension. -/
lemma UConn.EndsIn.exts_store {c : UConn} {r : Ref} (h : c.EndsIn r) (e : Ext) :
    ∃ pre, c.exts = pre ++ [c.heap r] ∧ (c.store r e).exts = pre ++ [e] := by
  obtain ⟨pre, hext, hr⟩ := h
  refine ⟨pre.map c.heap, ?_, ?_⟩
  · simp [UConn.exts, hext]
  · simp only [UConn.exts, UConn.store_extensions, UConn.store_heap, hext, map_append,
      map_cons, map_nil, Function.update_self, append_cancel_right_eq]
    apply map_congr_left
    intro r' hr'
    exact Function.update_of_ne (fun h => hr (by rw [← h]; exact hr')) _ _

/-- Writing binders keeps a hello current that ends in the pre-shared key extension. -/
lemma writeBinders_current {r : Ref} {e : UtlsPreSharedKeyExtension} {c c' : UConn} {u : Unit}
    (h : writeBinders d r e c = .ok u c') (he : c.heap r = .utlsPreSharedKey e) (hend : c.EndsIn r)
    (hi : e.identities.length = e.binders.length) (hc : c.Current d) : c'.Current d := by
  rcases writeBinders_eq_ok d h with rfl | ⟨suite, b, -, hb, -, hlen, rfl⟩
  · exact hc
  · have hine : e.identities ≠ [] := by
      intro hnil
      rw [hnil, hb] at hi
      cases hi
    set P := c.raw.take (c.raw.length - bindersSize e.binders)
    set b' := pskBinder d suite e.binderKey P
    obtain ⟨pre, hexts, hexts'⟩ :=
      hend.exts_store (.utlsPreSharedKey { e with binders := [b'] })
    rw [he] at hexts
    have hraw : c.raw = clientHelloEncoding d.parseIP c.hello (pre ++ [.utlsPreSharedKey e]) := by
      rw [UConn.raw, hc, hexts, Option.getD_some]
    unfold UConn.Current
    change some (P ++ vec16 (vec8 b')) = some (clientHelloEncoding d.parseIP c.hello
      (c.store r (.utlsPreSharedKey { e with binders := [b'] })).exts)
    rw [hexts', encoding_patched hine hb hlen hraw]

end Deps

end Utls
