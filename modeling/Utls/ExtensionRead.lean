import Utls.Lib.Buffer
import Utls.ExtensionWrite

/-!
# Encoders that fill a buffer

`Ext.wire` gives the bytes of an extension.  The `Read` methods write them by index into the buffer
they are handed, and this file follows them position by position for the extensions with a list or
a few fixed fields.  Each method is shown to leave exactly the bytes of the extension at the front of
the buffer, the rest of it untouched, and to return their number (`filled`).
-/

namespace Utls

open Wire List

/-! ## The methods -/

/-- Stores a list of sixteen-bit values from the position `i` on. -/
def putU16s (b : Bytes) (i : Nat) (l : List UInt16) : Bytes :=
  putEach (fun b i x => putU16 b i x.toNat) (fun _ => 2) b i l

/-- Stores names, each behind its length. -/
def putNames (b : Bytes) (i : Nat) (l : List GoString) : Bytes :=
  putEach (fun b i s => copyAt (b.set i (UInt8.ofNat s.length)) (i + 1) s) (fun s => 1 + s.length)
    b i l

/-- `Read` of the extensions whose body is a vector with a two-byte length; `fill` stores the `n` bytes
of its content. -/
def readVec16 (id : UInt16) (n : Nat) (fill : Bytes → Nat → Bytes) (b : Bytes) :
    Except Err (Nat × Bytes) :=
  if b.length < 6 + n then .error .shortBuffer
  else
    let b := putU16 b 0 id.toNat
    let b := putU16 b 2 (2 + n)
    let b := putU16 b 4 n
    .ok (6 + n, fill b 6)

/-- `Read` of the extensions whose body is a vector with a one-byte length; `msg` is the error of the
methods that check the length. -/
def readVec8 (id : UInt16) (n : Nat) (fill : Bytes → Nat → Bytes) (msg : Option String) (b : Bytes) :
    Except Err (Nat × Bytes) :=
  if b.length < 5 + n then .error .shortBuffer
  else match msg.filter fun _ => n > 255 with
    | some msg => .error (.text msg)
    | none =>
      let b := putU16 b 0 id.toNat
      let b := putU16 b 2 (1 + n)
      let b := b.set 4 (UInt8.ofNat n)
      .ok (5 + n, fill b 5)

/-- `Read` of the extensions with a two-byte vector of sixteen-bit values. -/
def readU16Vector16 (id : UInt16) (l : List UInt16) : Bytes → Except Err (Nat × Bytes) :=
  readVec16 id (2 * l.length) (putU16s · · l)

/-- `Read` of the extensions with a one-byte vector of sixteen-bit values. -/
def readU16Vector8 (id : UInt16) (l : List UInt16) (msg : String) :
    Bytes → Except Err (Nat × Bytes) :=
  readVec8 id (2 * l.length) (putU16s · · l) msg

/-- `SupportedPointsExtension.Read`. -/
def readPoints (l : Bytes) : Bytes → Except Err (Nat × Bytes) :=
  readVec8 extensionSupportedPoints l.length (putEach (fun b i x => b.set i x) (fun _ => 1) · · l) none

/-- `PSKKeyExchangeModesExtension.Read`. -/
def readModes (modes : Bytes) : Bytes → Except Err (Nat × Bytes) :=
  readVec8 extensionPSKModes modes.length
    (fun b i => if modes.length > 0 then copyAt b i modes else b) "too many PSK Key Exchange modes"

/-- `Read` of the protocol lists.  Both lengths are stored behind the loop that adds them up. -/
def readProtocols (id : UInt16) (protos : List GoString) (b : Bytes) : Except Err (Nat × Bytes) :=
  let len := 2 + 2 + 2 + (protos.map fun s => 1 + s.length).sum
  if b.length < len then .error .shortBuffer
  else
    let b := putU16 b 0 id.toNat
    let b := putNames b 6 protos
    let stringsLength := (protos.map fun s => 1 + s.length).sum
    let b := putU16 b 4 stringsLength
    .ok (len, putU16 b 2 (stringsLength + 2))

/-- The loop of `TrustAnchorsExtension.Read` over the identifiers, on the part of the buffer behind the
lengths; `none` is the panic of a buffer that is too short for them. -/
def putAnchors : Bytes → List Bytes → Option Bytes
  | body, [] => some body
  | body, ta :: rest =>
    if 1 + ta.length ≤ body.length then
      (putAnchors (body.drop (1 + ta.length)) rest).map fun after => vec8 ta ++ after
    else none

/-- `TrustAnchorsExtension.Read`; `none` is a panic. -/
def TrustAnchorsExtension.readInto (e : TrustAnchorsExtension) (b : Bytes) :
    Option (Except Err (Nat × Bytes)) :=
  if b.length < e.len then some (.error .shortBuffer)
  else if e.len - 6 > 0xffff - 2 then
    some (.error (.text "tls: trust_anchors list does not fit a uint16 length"))
  else
    let listLen := (e.list.map fun ta => 1 + ta.length).sum
    (putAnchors (b.drop 6) e.list).map fun body =>
      .ok (e.len, u16 utlsExtensionTrustAnchors.toNat ++ (u16 (listLen + 2) ++
        (u16 listLen ++ body)))

/-- `FakeRecordSizeLimitExtension.Read`. -/
def readRecordSizeLimit (limit : UInt16) (b : Bytes) : Except Err (Nat × Bytes) :=
  if b.length < 6 then .error .shortBuffer
  else
    let b := putU16 b 0 fakeRecordSizeLimit.toNat
    let b := (b.set 2 0).set 3 2
    .ok (6, putU16 b 4 limit.toNat)

/-- `FakeTokenBindingExtension.Read`. -/
def readTokenBindingInto (major minor : UInt8) (params b : Bytes) : Except Err (Nat × Bytes) :=
  let len := 2 + 2 + 2 + 1 + params.length
  if b.length < len then .error .shortBuffer
  else
    let dataLen := len - 4
    let b := putU16 b 0 fakeExtensionTokenBinding.toNat
    let b := putU16 b 2 dataLen
    let b := ((b.set 4 major).set 5 minor).set 6 (UInt8.ofNat params.length)
    .ok (len, if params.length > 0 then copyAt b 7 params else b)

/-! ## What the methods leave in the buffer -/

lemma putU16s_mid (l : List UInt16) (p a r : Bytes) (ha : a.length = 2 * l.length) :
    putU16s (p ++ (a ++ r)) p.length l = p ++ (u16s l ++ r) := by
  apply putEach_mid fun x : UInt16 => u16 x.toNat
  · intro p a r x hx
    exact putU16_mid hx x.toNat
  · intro x
    rfl
  · rw [ha]
    exact (length_u16s l).symm

lemma putNames_mid (l : List GoString) (p a r : Bytes) (ha : a.length = (protocolNames l).length) :
    putNames (p ++ (a ++ r)) p.length l = p ++ (protocolNames l ++ r) := by
  apply putEach_mid vec8
  · intro p a r s hs
    obtain ⟨x, a, rfl⟩ : ∃ x t, a = x :: t := by
      apply exists_cons_of_length_pos
      rw [hs, length_vec8]
      omega
    have hroom : a.length = s.length := by
      rw [length_cons, length_vec8] at hs
      omega
    have h := copyAt_mid (p := p ++ [UInt8.ofNat s.length]) (r := r) hroom
    rw [length_append, length_singleton] at h
    rw [cons_append, set_mid, vec8]
    simpa only [append_assoc, cons_append, nil_append, u8] using h
  · intro s
    exact (length_vec8 s).symm
  · exact ha

lemma putBytes_mid (l p a r : Bytes) (ha : a.length = l.length) :
    putEach (fun b i x => b.set i x) (fun _ => 1) (p ++ (a ++ r)) p.length l = p ++ (l ++ r) := by
  have hput : ∀ (p a r : Bytes) (x : UInt8), a.length = [x].length →
      (p ++ (a ++ r)).set p.length x = p ++ ([x] ++ r) := by
    intro p a r x hx
    obtain ⟨y, rfl⟩ := length_eq_one_iff.mp hx
    exact set_mid y x
  have h := putEach_mid _ hput (fun _ => rfl) l p a r (by simpa using ha)
  rwa [flatMap_singleton'] at h

variable {b r : Bytes} {n : Nat} {e : Ext}

/-- A buffer with room for `n` bytes, cut behind them. -/
lemma exists_room (h : n ≤ b.length) : ∃ a r, a.length = n ∧ b = a ++ r :=
  ⟨b.take n, b.drop n, by rw [length_take]; omega, (take_append_drop n b).symm⟩

/-- The buffer of an extension cut at its fields: the type, the length of the body, a field of
`k` bytes, `n` bytes of content, and the rest. -/
lemma exists_fields {k : Nat} (h : 4 + k + n ≤ b.length) :
    ∃ a c d v r, a.length = 2 ∧ c.length = 2 ∧ d.length = k ∧ v.length = n ∧
      b = a ++ (c ++ (d ++ (v ++ r))) ∧ b.drop (4 + k + n) = r := by
  obtain ⟨a, r1, ha, rfl⟩ := exists_room (b := b) (n := 2) (by omega)
  obtain ⟨c, r2, hc, rfl⟩ := exists_room (b := r1) (n := 2) (by simp at h; omega)
  obtain ⟨d, r3, hd, rfl⟩ := exists_room (b := r2) (n := k) (by simp at h; omega)
  obtain ⟨v, r, hv, rfl⟩ := exists_room (b := r3) (n := n) (by simp at h; omega)
  refine ⟨a, c, d, v, r, ha, hc, hd, hv, rfl, ?_⟩
  have hlen : (a ++ (c ++ (d ++ v))).length = 4 + k + n := by simp [ha, hc, hd, hv]; omega
  rw [← hlen]
  simp only [← append_assoc, drop_left]

/-- The type and the body length are written over the first four bytes. -/
lemma putU16_type_length {a c : Bytes} (ha : a.length = 2) (hc : c.length = 2) (id n : Nat) :
    putU16 (putU16 (a ++ (c ++ r)) 0 id) 2 n = u16 id ++ (u16 n ++ r) := by
  have h0 : putU16 (a ++ (c ++ r)) 0 id = u16 id ++ (c ++ r) := putU16_mid (p := []) ha id
  rw [h0]
  exact putU16_mid (p := u16 id) hc n

/-- What a method that filled the buffer returns: the number of bytes and the buffer. -/
def filled (w b : Bytes) : Nat × Bytes := (w.length, w ++ b.drop w.length)

lemma filled_eq {w : Bytes} (hn : w.length = n) (hr : b.drop n = r) : filled w b = (n, w ++ r) := by
  rw [filled, hn, hr]

section Vectors

variable (id : UInt16) {n : Nat} {fill : Bytes → Nat → Bytes} (content b : Bytes)

/-- A body that is a vector with a two-byte length, whose content `fill` stores at its position. -/
lemma readVec16_eq (hn : content.length = n) (hfill : ∀ p a r, a.length = content.length →
      fill (p ++ (a ++ r)) p.length = p ++ (content ++ r)) :
    readVec16 id n fill b =
      if b.length < 6 + n then .error .shortBuffer
      else .ok (filled (extFrame id (vec16 content)) b) := by
  subst hn
  dsimp only [readVec16]
  split_ifs with hshort
  · rfl
  · obtain ⟨a, c, d, v, r, ha, hc, hd, hv, rfl, hr⟩ :=
      exists_fields (b := b) (k := 2) (n := content.length) (by omega)
    have h4 (x y z : Nat) : putU16 (u16 x ++ (u16 y ++ (d ++ (v ++ r)))) 4 z =
        u16 x ++ (u16 y ++ (u16 z ++ (v ++ r))) := putU16_mid (p := u16 x ++ u16 y) hd z
    have h6 (x y z : Nat) : fill (u16 x ++ (u16 y ++ (u16 z ++ (v ++ r)))) 6 =
        u16 x ++ (u16 y ++ (u16 z ++ (content ++ r))) := hfill (u16 x ++ (u16 y ++ u16 z)) v r hv
    rw [putU16_type_length ha hc, h4, h6, filled_eq (n := 4 + 2 + content.length) (by simp; omega) hr]
    simp only [extFrame, vec16, append_assoc, length_append, length_u16]

/-- A body that is a vector with a one-byte length. -/
lemma readVec8_eq (msg : Option String) (hn : content.length = n)
    (hfill : ∀ p a r, a.length = content.length →
      fill (p ++ (a ++ r)) p.length = p ++ (content ++ r)) :
    readVec8 id n fill msg b =
      if b.length < 5 + n then .error .shortBuffer
      else match msg.filter fun _ => n > 255 with
        | some msg => .error (.text msg)
        | none => .ok (filled (extFrame id (vec8 content)) b) := by
  subst hn
  unfold readVec8
  split_ifs with hshort
  · rfl
  · cases msg.filter fun _ => content.length > 255 with
    | some msg => rfl
    | none =>
      obtain ⟨a, c, d, v, r, ha, hc, hd, hv, rfl, hr⟩ :=
        exists_fields (b := b) (k := 1) (n := content.length) (by omega)
      obtain ⟨d, rfl⟩ := length_eq_one_iff.mp hd
      have h4 (x y : Nat) (z : UInt8) : (u16 x ++ (u16 y ++ ([d] ++ (v ++ r)))).set 4 z =
          u16 x ++ (u16 y ++ ([z] ++ (v ++ r))) := set_mid (p := u16 x ++ u16 y) d z
      have h5 (x y : Nat) (z : UInt8) : fill (u16 x ++ (u16 y ++ ([z] ++ (v ++ r)))) 5 =
          u16 x ++ (u16 y ++ ([z] ++ (content ++ r))) := hfill (u16 x ++ (u16 y ++ [z])) v r hv
      dsimp only
      rw [putU16_type_length ha hc, h4, h5,
        filled_eq (n := 4 + 1 + content.length) (by simp; omega) hr]
      simp only [extFrame, vec16, vec8, u8, append_assoc, length_append, length_singleton]

end Vectors

lemma readU16Vector16_eq (id : UInt16) (l : List UInt16) (b : Bytes) :
    readU16Vector16 id l b =
      if b.length < 6 + 2 * l.length then .error .shortBuffer
      else .ok (filled (extFrame id (vec16 (u16s l))) b) :=
  readVec16_eq id _ b (length_u16s l) fun p a r ha => putU16s_mid l p a r (ha.trans (length_u16s l))

lemma readU16Vector8_eq (id : UInt16) (l : List UInt16) (msg : String) (b : Bytes) :
    readU16Vector8 id l msg b =
      if b.length < 5 + 2 * l.length then .error .shortBuffer
      else if 2 * l.length > 255 then .error (.text msg)
      else .ok (filled (extFrame id (vec8 (u16s l))) b) := by
  rw [readU16Vector8, readVec8_eq id _ b msg (length_u16s l) fun p a r ha =>
    putU16s_mid l p a r (ha.trans (length_u16s l)), Option.filter_some]
  split_ifs <;> simp_all

lemma readPoints_eq (l b : Bytes) :
    readPoints l b =
      if b.length < 5 + l.length then .error .shortBuffer
      else .ok (filled (extFrame extensionSupportedPoints (vec8 l)) b) :=
  readVec8_eq _ l b none rfl (putBytes_mid l)

lemma readModes_eq (l b : Bytes) :
    readModes l b =
      if b.length < 5 + l.length then .error .shortBuffer
      else if l.length > 255 then .error (.text "too many PSK Key Exchange modes")
      else .ok (filled (extFrame extensionPSKModes (vec8 l)) b) := by
  rw [readModes, readVec8_eq _ l b _ rfl fun p a r ha => ?_, Option.filter_some]
  · split_ifs <;> simp_all
  · split_ifs with hpos
    · exact copyAt_mid ha
    · rw [← copyAt_mid ha, copyAt_nil (length_eq_zero_iff.mp (by omega))]

/-- The type, the names and then the two lengths, whatever was in the buffer. -/
lemma putNames_lengths {a c d v : Bytes} (l : List GoString) (ha : a.length = 2) (hc : c.length = 2)
    (hd : d.length = 2) (hv : v.length = (protocolNames l).length) (id x y : Nat) :
    putU16 (putU16 (putNames (putU16 (a ++ (c ++ (d ++ (v ++ r)))) 0 id) 6 l) 4 x) 2 y =
        u16 id ++ (u16 y ++ (u16 x ++ (protocolNames l ++ r))) ∧
      putU16 (putU16 (putNames (putU16 (a ++ (c ++ (d ++ (v ++ r)))) 0 id) 6 l) 2 y) 4 x =
        u16 id ++ (u16 y ++ (u16 x ++ (protocolNames l ++ r))) := by
  obtain ⟨c0, c1, rfl⟩ := length_eq_two.mp hc
  obtain ⟨d0, d1, rfl⟩ := length_eq_two.mp hd
  have h0 : putU16 (a ++ ([c0, c1] ++ ([d0, d1] ++ (v ++ r)))) 0 id =
      u16 id ++ ([c0, c1] ++ ([d0, d1] ++ (v ++ r))) := putU16_mid (p := []) ha id
  have h6 : putNames (u16 id ++ ([c0, c1] ++ ([d0, d1] ++ (v ++ r)))) 6 l =
      u16 id ++ ([c0, c1] ++ ([d0, d1] ++ (protocolNames l ++ r))) :=
    putNames_mid l (u16 id ++ ([c0, c1] ++ [d0, d1])) v r hv
  rw [h0, h6]
  exact ⟨rfl, rfl⟩

lemma readProtocols_eq (id : UInt16) (l : List GoString) (b : Bytes) :
    readProtocols id l b =
      if b.length < 6 + (l.map fun s => 1 + s.length).sum then .error .shortBuffer
      else .ok (filled (extFrame id (vec16 (protocolNames l))) b) := by
  dsimp only [readProtocols]
  split_ifs with hshort
  · rfl
  · have hnames := length_protocolNames l
    have hlen : (extFrame id (vec16 (protocolNames l))).length =
        4 + 2 + (l.map fun s => 1 + s.length).sum := by
      simp only [length_extFrame, length_vec16, hnames]
      omega
    obtain ⟨a, c, d, v, r, ha, hc, hd, hv, rfl, hr⟩ :=
      exists_fields (b := b) (k := 2) (n := (l.map fun s => 1 + s.length).sum) (by omega)
    rw [(putNames_lengths l ha hc hd (hv.trans hnames.symm) _ _ _).1, filled_eq hlen hr]
    simp only [extFrame, vec16, hnames, append_assoc, length_append, length_u16, Nat.add_comm 2]

lemma putAnchors_eq (l : List Bytes) (body : Bytes) :
    putAnchors body l = if body.length < (protocolNames l).length then none
      else some (protocolNames l ++ body.drop (protocolNames l).length) := by
  induction l generalizing body with
  | nil => rfl
  | cons ta l ih =>
    have hsize : (protocolNames (ta :: l)).length = 1 + ta.length + (protocolNames l).length := by
      simp [protocolNames]
    rw [putAnchors, ih, hsize, length_drop]
    by_cases hta : 1 + ta.length ≤ body.length
    · by_cases hl : body.length - (1 + ta.length) < (protocolNames l).length
      · rw [if_pos hta, if_pos hl, if_pos (by omega)]
        rfl
      · rw [if_pos hta, if_neg hl, if_neg (by omega), Option.map_some, drop_drop, ← append_assoc]
        rfl
    · rw [if_neg hta, if_pos (by omega)]

/-- The order is written whatever `Len` has counted. -/
lemma TrustAnchorsExtension.readInto_eq (e : TrustAnchorsExtension) {w : Bytes}
    (hw : extFrame utlsExtensionTrustAnchors (vec16 (protocolNames e.list)) = w) (b : Bytes) :
    e.readInto b =
      if b.length < e.len then some (.error .shortBuffer)
      else if e.len - 6 > 0xffff - 2 then
        some (.error (.text "tls: trust_anchors list does not fit a uint16 length"))
      else if b.length < w.length then none else some (.ok (e.len, w ++ b.drop w.length)) := by
  have hlen : w.length = 6 + (protocolNames e.list).length := by
    rw [← hw, length_extFrame, length_vec16]
    omega
  dsimp only [readInto]
  rw [putAnchors_eq, ← length_protocolNames, length_drop, hlen]
  split_ifs with hshort hmany hroom hroom' hroom'
  · rfl
  · rfl
  · rfl
  · omega
  · rw [len] at hshort
    omega
  · rw [Option.map_some, drop_drop, ← hw]
    simp only [extFrame, vec16, append_assoc, length_append, length_u16, Nat.add_comm 2]

lemma readRecordSizeLimit_eq (limit : UInt16) (b : Bytes) :
    readRecordSizeLimit limit b =
      if b.length < 6 then .error .shortBuffer
      else .ok (filled (extFrame fakeRecordSizeLimit (u16 limit.toNat)) b) := by
  dsimp only [readRecordSizeLimit]
  split_ifs with hshort
  · rfl
  · obtain ⟨a, c, d, v, r, ha, hc, hd, hv, rfl, hr⟩ :=
      exists_fields (b := b) (k := 2) (n := 0) (by omega)
    obtain ⟨c0, c1, rfl⟩ := length_eq_two.mp hc
    obtain ⟨d0, d1, rfl⟩ := length_eq_two.mp hd
    obtain rfl := length_eq_zero_iff.mp hv
    have h0 : putU16 (a ++ ([c0, c1] ++ ([d0, d1] ++ ([] ++ r)))) 0 fakeRecordSizeLimit.toNat =
        u16 fakeRecordSizeLimit.toNat ++ ([c0, c1] ++ ([d0, d1] ++ r)) := putU16_mid (p := []) ha _
    have h4 (x y : Nat) : putU16 (((u16 x ++ ([c0, c1] ++ ([d0, d1] ++ r))).set 2 0).set 3 2) 4 y =
        u16 x ++ ([0, 2] ++ (u16 y ++ r)) := rfl
    rw [h0, h4, filled_eq (n := 4 + 2 + 0) rfl hr]
    have hbody : u16 2 = [0, 2] := by decide
    rw [extFrame, vec16, length_u16, hbody]
    rfl

lemma readTokenBindingInto_eq (major minor : UInt8) (l b : Bytes) :
    readTokenBindingInto major minor l b =
      if b.length < 7 + l.length then .error .shortBuffer
      else .ok (filled (extFrame fakeExtensionTokenBinding (major :: minor :: vec8 l)) b) := by
  dsimp only [readTokenBindingInto]
  split_ifs with hshort hpos
  · rfl
  all_goals
    have hlen : (extFrame fakeExtensionTokenBinding (major :: minor :: vec8 l)).length =
        4 + 3 + l.length := by
      simp only [length_extFrame, length_vec8, length_cons]
      omega
    obtain ⟨a, c, d, v, r, ha, hc, hd, hv, rfl, hr⟩ :=
      exists_fields (b := b) (k := 3) (n := l.length) (by omega)
    obtain ⟨d0, d1, d2, rfl⟩ := length_eq_three.mp hd
    have h4 (x y : Nat) (z : UInt8) :
        (((u16 x ++ (u16 y ++ ([d0, d1, d2] ++ (v ++ r)))).set 4 major).set 5 minor).set 6 z =
          u16 x ++ (u16 y ++ ([major, minor, z] ++ (v ++ r))) := rfl
    have hframe : extFrame fakeExtensionTokenBinding (major :: minor :: vec8 l) ++ r =
        u16 fakeExtensionTokenBinding.toNat ++ (u16 (2 + 2 + 2 + 1 + l.length - 4) ++
          ([major, minor, UInt8.ofNat l.length] ++ (l ++ r))) := by
      have hbody : (major :: minor :: vec8 l).length = 2 + 2 + 2 + 1 + l.length - 4 := by
        simp only [length_cons, length_vec8]
        omega
      simp only [extFrame, vec16, hbody, append_assoc]
      rfl
    rw [putU16_type_length ha hc, h4, filled_eq hlen hr, hframe]
  · have h7 (x y : Nat) (z : UInt8) :
        copyAt (u16 x ++ (u16 y ++ ([major, minor, z] ++ (v ++ r)))) 7 l =
          u16 x ++ (u16 y ++ ([major, minor, z] ++ (l ++ r))) :=
      copyAt_mid (p := u16 x ++ (u16 y ++ [major, minor, z])) hv
    rw [h7]
  · obtain rfl : l = [] := length_eq_zero_iff.mp (by omega)
    rw [length_eq_zero_iff.mp hv]

end Utls
