import Utls.Lib.Coalesce
import Utls.Lib.Slices

/-!
# The event queue of a QUIC connection

The handshake of a QUIC connection appends events to a slice of slots, and the user takes them with
`NextEvent`, which reads the slot at an index, zeroes it and moves the index on; a drained queue
starts over.  `quicWriteCryptoData` does not append an event if the last slot holds handshake data
of the same level: it appends to the data of that slot, in its array if there is room.

`History` is a queue with the events that were taken from it and those that were produced.  The
invariant `Rep` says that the slots behind the index are zero, that no two events share an array,
and that the events taken and those still queued are the produced ones, with neighbouring writes of
one level merged unless the first had been taken when the second was made.
-/

namespace Utls

open Wire Slices Coalesce List Option

/-- `QUICEncryptionLevel`. -/
inductive QUICEncryptionLevel where
  | initial
  | early
  | handshake
  | application
  deriving DecidableEq, Repr

/-- `QUICEventKind`. -/
inductive QUICEventKind where
  | noEvent
  | setReadSecret
  | setWriteSecret
  | writeData
  | transportParameters
  | transportParametersRequired
  | rejectedEarlyData
  | handshakeDone
  | resumeSession
  | storeSession
  deriving DecidableEq, Repr

/-- `QUICEvent`; the default is the zero value.  A session is known by its pointer. -/
structure QUICEvent where
  kind : QUICEventKind := .noEvent
  level : QUICEncryptionLevel := .initial
  data : Option Slice := none
  suite : UInt16 := 0
  sessionState : Option Nat := none
  deriving DecidableEq, Repr

/-- `QUICEvent{}`. -/
def QUICEvent.zero : QUICEvent := {}

/-- The queue of `quicState`, with the arrays that the data of its events is in. -/
structure QuicQueue where
  mem : Memory
  events : List QUICEvent
  nextEvent : Nat
  waitingForDrain : Bool

namespace QuicQueue

/-- The queue of a new connection. -/
def new : QuicQueue where
  mem := ⟨fun _ => [], 0⟩
  events := []
  nextEvent := 0
  waitingForDrain := false

variable (q : QuicQueue)

/-- `append(c.quic.events, e)`. -/
def pushEvent (e : QUICEvent) : QuicQueue := { q with events := q.events ++ [e] }

variable (spare : Nat → Nat)

/-- Appends an event with data.  The slice that a producer hands over has an array of its own. -/
def pushData (e : QUICEvent) (data : Bytes) : QuicQueue :=
  { q with mem := (q.mem.alloc spare data).2 }.pushEvent
    { e with data := some (q.mem.alloc spare data).1 }

def quicSetReadSecret (level : QUICEncryptionLevel) (suite : UInt16) (secret : Bytes) : QuicQueue :=
  q.pushData spare { kind := .setReadSecret, level := level, suite := suite } secret

def quicSetWriteSecret (level : QUICEncryptionLevel) (suite : UInt16)
    (secret : Bytes) : QuicQueue :=
  q.pushData spare { kind := .setWriteSecret, level := level, suite := suite } secret

/-- The last slot if it holds handshake data of the given level. -/
def openSlot (level : QUICEncryptionLevel) : Option QUICEvent :=
  q.events.getLast?.filter fun last => last.kind = .writeData ∧ last.level = level

/-- `last.Data = append(last.Data, data...)` for the last slot. -/
def appendToLast (data : Bytes) : QuicQueue :=
  match q.events.getLast? with
  | none => q
  | some last =>
    { q with
      mem := (q.mem.append spare last.data data).2
      events := q.events.dropLast ++ [{ last with data := (q.mem.append spare last.data data).1 }] }

/-- `quicWriteCryptoData`. -/
def quicWriteCryptoData (level : QUICEncryptionLevel) (data : Bytes) : QuicQueue :=
  match q.openSlot level with
  | some _ => q.appendToLast spare data
  | none => (q.pushEvent { kind := .writeData, level := level }).appendToLast spare data

/-- The event of `quicResumeSession`; the handshake then waits until the queue is drained. -/
def quicResumeSession (session : Nat) : QuicQueue :=
  { q.pushEvent { kind := .resumeSession, sessionState := some session } with
    waitingForDrain := true }

def quicStoreSession (session : Nat) : QuicQueue :=
  q.pushEvent { kind := .storeSession, sessionState := some session }

def quicSetTransportParameters (params : Bytes) : QuicQueue :=
  q.pushData spare { kind := .transportParameters } params

/-- The event of `quicGetTransportParameters` if there are no parameters yet. -/
def quicRequireTransportParameters : QuicQueue :=
  q.pushEvent { kind := .transportParametersRequired }

def quicHandshakeComplete : QuicQueue := q.pushEvent { kind := .handshakeDone }

def quicRejectedEarlyData : QuicQueue := q.pushEvent { kind := .rejectedEarlyData }

end QuicQueue

/-! ## Producers -/

/-- A call of the handshake that produces an event. -/
inductive QuicProducer where
  | setReadSecret (level : QUICEncryptionLevel) (suite : UInt16) (secret : Bytes)
  | setWriteSecret (level : QUICEncryptionLevel) (suite : UInt16) (secret : Bytes)
  | writeCryptoData (level : QUICEncryptionLevel) (data : Bytes)
  | resumeSession (session : Nat)
  | storeSession (session : Nat)
  | setTransportParameters (params : Bytes)
  | requireTransportParameters
  | handshakeComplete
  | rejectedEarlyData
  deriving DecidableEq, Repr

/-- An event with the bytes of its data. -/
structure EventValue where
  kind : QUICEventKind
  level : QUICEncryptionLevel := .initial
  data : Bytes := []
  suite : UInt16 := 0
  sessionState : Option Nat := none
  deriving DecidableEq, Repr

/-- What an event shows to the user while the arrays are as in `m`. -/
def QUICEvent.value (m : Memory) (e : QUICEvent) : EventValue where
  kind := e.kind
  level := e.level
  data := m.read e.data
  suite := e.suite
  sessionState := e.sessionState

/-- What a producer has to say. -/
def QuicProducer.value : QuicProducer → EventValue
  | setReadSecret level suite secret => ⟨.setReadSecret, level, secret, suite, none⟩
  | setWriteSecret level suite secret => ⟨.setWriteSecret, level, secret, suite, none⟩
  | writeCryptoData level data => ⟨.writeData, level, data, 0, none⟩
  | resumeSession session => ⟨.resumeSession, .initial, [], 0, some session⟩
  | storeSession session => ⟨.storeSession, .initial, [], 0, some session⟩
  | setTransportParameters params => ⟨.transportParameters, .initial, params, 0, none⟩
  | requireTransportParameters => ⟨.transportParametersRequired, .initial, [], 0, none⟩
  | handshakeComplete => ⟨.handshakeDone, .initial, [], 0, none⟩
  | rejectedEarlyData => ⟨.rejectedEarlyData, .initial, [], 0, none⟩

/-- Handshake data of one level is merged. -/
def mergeEvents (a b : EventValue) : Option EventValue :=
  if a.kind = .writeData ∧ b.kind = .writeData ∧ a.level = b.level then
    some { a with data := a.data ++ b.data }
  else none

section Queue

variable (spare : Nat → Nat)

/-- What a producer does to the queue. -/
def QuicProducer.run (q : QuicQueue) : QuicProducer → QuicQueue
  | setReadSecret level suite secret => q.quicSetReadSecret spare level suite secret
  | setWriteSecret level suite secret => q.quicSetWriteSecret spare level suite secret
  | writeCryptoData level data => q.quicWriteCryptoData spare level data
  | resumeSession session => q.quicResumeSession session
  | storeSession session => q.quicStoreSession session
  | setTransportParameters params => q.quicSetTransportParameters spare params
  | requireTransportParameters => q.quicRequireTransportParameters
  | handshakeComplete => q.quicHandshakeComplete
  | rejectedEarlyData => q.quicRejectedEarlyData

/-! ## The consumer -/

namespace QuicQueue

/-- The first statement of `NextEvent`: it writes over the data of the slot in front of the
index. -/
def scribble (q : QuicQueue) : QuicQueue :=
  match q.events[q.nextEvent - 1]? with
  | some last =>
    match last.data with
    | some s =>
      if q.nextEvent > 0 ∧ s.len > 0 then
        { q with mem := q.mem.write s.arr ((q.mem.arrays s.arr).set 0 0) }
      else q
    | none => q
  | none => q

/-- `NextEvent` lets the handshake run on if the queue is drained and the handshake waits for it. -/
def mustResume (q : QuicQueue) : Bool := q.events.length ≤ q.nextEvent && q.waitingForDrain

def clearDrain (q : QuicQueue) : QuicQueue := { q with waitingForDrain := false }

/-- The end of `NextEvent`: takes the event at the index, or starts the drained queue over. -/
def takeEvent (q : QuicQueue) : QUICEvent × QuicQueue :=
  match q.events[q.nextEvent]? with
  | none => (.zero, { q with events := [], nextEvent := 0 })
  | some e => (e, { q with events := q.events.set q.nextEvent .zero, nextEvent := q.nextEvent + 1 })

/-- `NextEvent`; `during` is what the handshake does if it is resumed. -/
def nextEventCall (q : QuicQueue) (during : List QuicProducer) : QUICEvent × QuicQueue :=
  let q := q.scribble
  if q.mustResume then (during.foldl (QuicProducer.run spare) q.clearDrain).takeEvent
  else q.takeEvent

end QuicQueue

/-! ## Histories -/

/-- A queue, the events that were taken from it, and those that were produced; the flag of a
produced event says that every event before it had been taken when it was produced. -/
structure History where
  queue : QuicQueue
  returned : List QUICEvent
  produced : List (EventValue × Bool)

namespace History

def new : History := ⟨.new, [], []⟩

/-- A step of the handshake. -/
def produce (h : History) (p : QuicProducer) : History where
  queue := p.run spare h.queue
  returned := h.returned
  produced := h.produced ++ [(p.value, decide (h.queue.events.length ≤ h.queue.nextEvent))]

/-- What the handshake does during a call of `NextEvent`. -/
def resumed (h : History) (during : List QuicProducer) : History :=
  if h.queue.scribble.mustResume then
    during.foldl (produce spare) { h with queue := h.queue.scribble.clearDrain }
  else { h with queue := h.queue.scribble }

/-- What a call of `NextEvent` returns; the event of kind `QUICNoEvent` is none. -/
def take (h : History) (call : QUICEvent × QuicQueue) : History where
  queue := call.2
  returned := if call.1.kind = .noEvent then h.returned else h.returned ++ [call.1]
  produced := h.produced

/-- A call of `NextEvent`. -/
def next (h : History) (during : List QuicProducer) : History :=
  (h.resumed spare during).take (h.queue.nextEventCall spare during)

end History

/-- A step of either side. -/
inductive QuicStep where
  | produce (p : QuicProducer)
  | next (during : List QuicProducer)

def QuicStep.run (h : History) : QuicStep → History
  | produce p => h.produce spare p
  | next during => h.next spare during

/-- The events that are still queued. -/
def History.queued (h : History) : List QUICEvent := h.queue.events.drop h.queue.nextEvent

/-- The events taken so far followed by those still queued, with their bytes as they are now. -/
def History.values (h : History) : List EventValue :=
  (h.returned ++ h.queued).map (QUICEvent.value h.queue.mem)

/-- The handshake data of an event at a level. -/
def EventValue.bytesAt (level : QUICEncryptionLevel) (v : EventValue) : Bytes :=
  if v.kind = .writeData ∧ v.level = level then v.data else []

/-- The steps of an interleaving, one after the other. -/
def runSteps (h : History) (steps : List QuicStep) : History := steps.foldl (QuicStep.run spare) h

end Queue

/-! ## The invariant -/

lemma lawful_mergeEvents : Lawful mergeEvents where
  assoc := by
    intro a b c ab bc hab hbc
    rw [mergeEvents, ite_none_right_eq_some] at hab hbc
    obtain ⟨⟨ha, hb, hl⟩, hab⟩ := hab
    obtain ⟨⟨-, hc, hl'⟩, hbc⟩ := hbc
    cases hab
    cases hbc
    exact ⟨{ a with data := a.data ++ b.data ++ c.data }, by simp [mergeEvents, ha, hc, hl, hl'],
      by simp [mergeEvents, ha, hb, hl]⟩
  none_left := by
    intro a b c bc hbc hab
    rw [mergeEvents, ite_none_right_eq_some] at hbc
    obtain ⟨⟨hb, -, -⟩, hbc⟩ := hbc
    cases hbc
    rw [mergeEvents, ite_eq_right_iff] at hab ⊢
    intro h
    exact absurd (hab h) (by simp)

/-- The slots behind the index are zero and the others are `queue`; the events that were taken and
those of the queue have arrays of their own, and together they are what was produced. -/
structure History.Rep (h : History) (queue : List QUICEvent) : Prop where
  events : h.queue.events = List.replicate h.queue.nextEvent .zero ++ queue
  kinds : ∀ e ∈ queue, e.kind ≠ .noEvent
  owns : h.queue.mem.Owns ((h.returned ++ queue).map QUICEvent.data)
  log : (h.returned ++ queue).map (QUICEvent.value h.queue.mem) = assemble mergeEvents h.produced

/-- The history goes on from `h` to `h'`: what was taken stays taken, and its bytes do not
change. -/
structure History.Extends (h h' : History) : Prop where
  returned : h.returned <+: h'.returned
  values : ∀ e ∈ h.returned, e.value h'.queue.mem = e.value h.queue.mem

namespace History

variable {h h' h'' : History} {queue : List QUICEvent}

lemma Extends.refl (h : History) : h.Extends h := ⟨prefix_rfl, fun _ _ => rfl⟩

lemma Extends.trans (h1 : h.Extends h') (h2 : h'.Extends h'') : h.Extends h'' where
  returned := h1.returned.trans h2.returned
  values e he := (h2.values e (h1.returned.subset he)).trans (h1.values e he)

/-- The invariant still holds in `h'`, which goes on from `h`. -/
def Advances (h h' : History) : Prop := (∃ queue, h'.Rep queue) ∧ h.Extends h'

lemma rep_new : new.Rep [] where
  events := rfl
  kinds := by simp
  owns := Memory.owns_nil
  log := rfl

lemma map_value_congr {m m' : Memory} {l : List QUICEvent}
    (hread : ∀ t ∈ l.map QUICEvent.data, m'.read t = m.read t) :
    l.map (QUICEvent.value m') = l.map (QUICEvent.value m) := by
  refine map_congr_left fun e he => ?_
  rw [QUICEvent.value, QUICEvent.value, hread _ (List.mem_map_of_mem he)]

lemma Rep.drained_iff (hrep : h.Rep queue) :
    h.queue.events.length ≤ h.queue.nextEvent ↔ queue = [] := by
  rw [hrep.events, length_append, length_replicate, ← length_eq_zero_iff]
  omega

/-- An event that is not merged into the last one is put behind the queue. -/
lemma Rep.push (hrep : h.Rep queue) {m : Memory} {e : QUICEvent} {v : EventValue}
    {q : QuicQueue} (hq : q.mem = m) (hevents : q.events = h.queue.events ++ [e])
    (hnext : q.nextEvent = h.queue.nextEvent) (hkind : e.kind ≠ .noEvent)
    (howns : m.Owns ((h.returned ++ queue).map QUICEvent.data ++ [e.data]))
    (hread : ∀ t ∈ (h.returned ++ queue).map QUICEvent.data, m.read t = h.queue.mem.read t)
    (hvalue : e.value m = v)
    (hlast : ∀ last, queue.getLast? = some last → mergeEvents (last.value h.queue.mem) v = none) :
    h.Advances
      ⟨q, h.returned, h.produced ++ [(v, decide (h.queue.events.length ≤ h.queue.nextEvent))]⟩ := by
  subst hq
  refine ⟨⟨queue ++ [e], ?_, ?_, ?_, ?_⟩, prefix_rfl, fun e' he' => ?_⟩
  · rw [hevents, hnext, hrep.events, append_assoc]
  · intro e' he'
    rcases mem_append.mp he' with he' | he'
    · exact hrep.kinds e' he'
    · rw [mem_singleton.mp he']
      exact hkind
  · rw [← append_assoc, map_append]
    exact howns
  · rw [← append_assoc, map_append, map_value_congr hread, hrep.log, assemble_concat]
    rcases eq_nil_or_concat queue with hnil | ⟨queue', last, hcat⟩
    · rw [pushSealed, if_pos (decide_eq_true (hrep.drained_iff.mpr hnil))]
      simp [hvalue]
    · rw [concat_eq_append] at hcat
      have hopen : ¬ h.queue.events.length ≤ h.queue.nextEvent := by
        rw [hrep.drained_iff, hcat]
        simp
      have hnone := hlast last (by rw [hcat, getLast?_concat])
      rw [pushSealed, if_neg (by simpa using hopen), ← hrep.log, hcat, ← append_assoc,
        map_append, push_append (by simp), map_singleton, push_singleton_none hnone]
      simp [hvalue]
  · rw [QUICEvent.value, QUICEvent.value, hread _ (List.mem_map_of_mem (mem_append_left _ he'))]

end History

/-! ## Steps of the handshake -/

section Steps

variable {spare : Nat → Nat}

lemma mergeEvents_of_kind {v : EventValue} (hv : v.kind ≠ .writeData) (a : EventValue) :
    mergeEvents a v = none := by
  rw [mergeEvents, if_neg]
  rintro ⟨-, h, -⟩
  exact hv h

lemma QuicQueue.appendToLast_concat {q : QuicQueue} {l : List QUICEvent} {e : QUICEvent}
    (hq : q.events = l ++ [e]) (data : Bytes) :
    q.appendToLast spare data =
      { q with
        mem := (q.mem.append spare e.data data).2
        events := l ++ [{ e with data := (q.mem.append spare e.data data).1 }] } := by
  rw [QuicQueue.appendToLast, hq, getLast?_concat]
  simp

namespace History

variable {h h' : History} {queue : List QUICEvent}

/-- An event without data. -/
lemma Rep.pushEvent (hrep : h.Rep queue) {q : QuicQueue} {e : QUICEvent} {v : EventValue}
    (hmem : q.mem = h.queue.mem) (hevents : q.events = h.queue.events ++ [e])
    (hnext : q.nextEvent = h.queue.nextEvent) (hkind : e.kind ≠ .noEvent) (hdata : e.data = none)
    (hvalue : e.value h.queue.mem = v) (hv : v.kind ≠ .writeData) :
    h.Advances
      ⟨q, h.returned, h.produced ++ [(v, decide (h.queue.events.length ≤ h.queue.nextEvent))]⟩ := by
  refine hrep.push hmem hevents hnext hkind ?_ (fun _ _ => rfl) hvalue
    fun last _ => mergeEvents_of_kind hv _
  rw [hdata]
  exact hrep.owns.concat_none

/-- An event with data of its own. -/
lemma Rep.pushData (hrep : h.Rep queue) {e : QUICEvent} {data : Bytes} {v : EventValue}
    (hkind : e.kind ≠ .noEvent) (hvalue : ∀ m : Memory, ∀ s, m.read s = data →
      { e with data := s }.value m = v) (hv : v.kind ≠ .writeData) :
    h.Advances ⟨h.queue.pushData spare e data, h.returned,
      h.produced ++ [(v, decide (h.queue.events.length ≤ h.queue.nextEvent))]⟩ := by
  obtain ⟨howns, hread, hnew⟩ := Memory.owns_alloc spare hrep.owns data
  exact hrep.push rfl rfl rfl hkind howns hread (hvalue _ _ hnew)
    fun last _ => mergeEvents_of_kind hv _

/-- Handshake data that starts an event. -/
lemma Rep.pushWrite (hrep : h.Rep queue) {level : QUICEncryptionLevel} (data : Bytes)
    (hlast : ∀ last, queue.getLast? = some last → ¬ (last.kind = .writeData ∧ last.level = level)) :
    h.Advances
      ⟨(h.queue.pushEvent { kind := .writeData, level := level }).appendToLast spare data,
      h.returned, h.produced ++ [(⟨.writeData, level, data, 0, none⟩,
        decide (h.queue.events.length ≤ h.queue.nextEvent))]⟩ := by
  obtain ⟨howns, hread, hnew⟩ := Memory.owns_append spare hrep.owns.concat_none data
  rw [QuicQueue.appendToLast_concat rfl]
  refine hrep.push rfl rfl rfl nofun howns hread ?_ fun last hl => ?_
  · exact congrArg (fun b => (⟨.writeData, level, b, 0, none⟩ : EventValue)) hnew
  · rw [mergeEvents, if_neg]
    rintro ⟨hk, -, hlev⟩
    exact hlast last hl ⟨hk, hlev⟩

/-- Handshake data that is merged into the last event. -/
lemma Rep.mergeWrite {level : QUICEncryptionLevel} {e : QUICEvent} (hrep : h.Rep (queue ++ [e]))
    (hk : e.kind = .writeData) (hl : e.level = level) (data : Bytes) :
    h.Advances ⟨h.queue.appendToLast spare data, h.returned,
      h.produced ++ [(⟨.writeData, level, data, 0, none⟩,
        decide (h.queue.events.length ≤ h.queue.nextEvent))]⟩ := by
  have howns0 := hrep.owns
  rw [← append_assoc, map_append, map_singleton] at howns0
  obtain ⟨howns, hread, hnew⟩ := Memory.owns_append spare howns0 data
  have hevents : h.queue.events =
      (replicate h.queue.nextEvent .zero ++ queue) ++ [e] := by
    rw [hrep.events, append_assoc]
  rw [QuicQueue.appendToLast_concat hevents]
  refine ⟨⟨queue ++ [{ e with data := (h.queue.mem.append spare e.data data).1 }],
    ?_, ?_, ?_, ?_⟩, prefix_rfl, fun e' he' => ?_⟩
  · exact append_assoc _ _ _
  · intro e' he'
    rcases mem_append.mp he' with he' | he'
    · exact hrep.kinds e' (mem_append_left _ he')
    · rw [mem_singleton.mp he']
      exact hrep.kinds e (by simp)
  · rw [← append_assoc, map_append]
    exact howns
  · have hopen : ¬ h.queue.events.length ≤ h.queue.nextEvent := by
      rw [hrep.drained_iff]
      simp
    have hmerge : mergeEvents (e.value h.queue.mem) ⟨.writeData, level, data, 0, none⟩ =
        some ({ e with data := (h.queue.mem.append spare e.data data).1 }.value
          (h.queue.mem.append spare e.data data).2) := by
      rw [mergeEvents, if_pos ⟨hk, rfl, hl⟩, QUICEvent.value, QUICEvent.value, hnew]
    have hvalues : assemble mergeEvents h.produced =
        (h.returned ++ queue).map (QUICEvent.value h.queue.mem) ++ [e.value h.queue.mem] := by
      rw [← hrep.log, ← append_assoc, map_append, map_singleton]
    rw [assemble_concat, pushSealed, if_neg (by simpa using hopen), hvalues,
      push_append (cons_ne_nil _ _), push_singleton_some hmerge, ← map_value_congr hread]
    dsimp only
    rw [← append_assoc, map_append, map_singleton]
  · rw [QUICEvent.value, QUICEvent.value, hread _ (List.mem_map_of_mem (mem_append_left _ he'))]

/-- `quicWriteCryptoData` merges into the last slot exactly if that slot is still queued. -/
lemma Rep.write (hrep : h.Rep queue) (level : QUICEncryptionLevel) (data : Bytes) :
    h.Advances ⟨h.queue.quicWriteCryptoData spare level data, h.returned,
      h.produced ++ [(⟨.writeData, level, data, 0, none⟩,
        decide (h.queue.events.length ≤ h.queue.nextEvent))]⟩ := by
  rw [QuicQueue.quicWriteCryptoData]
  cases hslot : h.queue.openSlot level with
  | none =>
    refine hrep.pushWrite data fun last hlast hopen => ?_
    obtain ⟨l, rfl⟩ := getLast?_eq_some_iff.mp hlast
    rw [QuicQueue.openSlot, hrep.events, ← append_assoc, getLast?_concat,
      filter_some, if_pos (decide_eq_true hopen)] at hslot
    cases hslot
  | some last =>
    obtain ⟨hlast, hopen⟩ := filter_eq_some_iff.mp hslot
    obtain ⟨hk, hl⟩ := of_decide_eq_true hopen
    rcases eq_nil_or_concat queue with rfl | ⟨queue', e, rfl⟩
    · -- the last slot has been taken, so it is zero
      rw [hrep.events, append_nil] at hlast
      have hzero := eq_of_mem_replicate (mem_of_getLast? hlast)
      rw [hzero] at hk
      cases hk
    · rw [concat_eq_append] at hrep
      rw [hrep.events, ← append_assoc, getLast?_concat] at hlast
      cases hlast
      exact hrep.mergeWrite hk hl data

/-- A step of the handshake keeps the invariant and does not touch what was taken. -/
lemma Rep.produce (hrep : h.Rep queue) (p : QuicProducer) : h.Advances (h.produce spare p) := by
  cases p with
  | setReadSecret level suite secret =>
    exact hrep.pushData nofun (fun m s hs => by rw [QUICEvent.value, hs]; rfl) nofun
  | setWriteSecret level suite secret =>
    exact hrep.pushData nofun (fun m s hs => by rw [QUICEvent.value, hs]; rfl) nofun
  | writeCryptoData level data => exact hrep.write level data
  | resumeSession session => exact hrep.pushEvent rfl rfl rfl nofun rfl rfl nofun
  | storeSession session => exact hrep.pushEvent rfl rfl rfl nofun rfl rfl nofun
  | setTransportParameters params =>
    exact hrep.pushData nofun (fun m s hs => by rw [QUICEvent.value, hs]; rfl) nofun
  | requireTransportParameters =>
    exact hrep.pushEvent rfl rfl rfl nofun rfl rfl nofun
  | handshakeComplete => exact hrep.pushEvent rfl rfl rfl nofun rfl rfl nofun
  | rejectedEarlyData => exact hrep.pushEvent rfl rfl rfl nofun rfl rfl nofun

end History

end Steps

/-! ## Steps of the user -/

section Runs

variable {spare : Nat → Nat}

namespace History

variable {h h' h'' : History} {queue : List QUICEvent}

lemma Advances.trans (h1 : h.Advances h') (h2 : h'.Advances h'') : h.Advances h'' :=
  ⟨h2.1, h1.2.trans h2.2⟩

/-- The slot in front of the index is zero, so nothing is written over. -/
lemma Rep.scribble_eq (hrep : h.Rep queue) : h.queue.scribble = h.queue := by
  rw [QuicQueue.scribble]
  by_cases hn : h.queue.nextEvent = 0
  · simp only [hn, gt_iff_lt, lt_self_iff_false, false_and, if_false]
    split
    · split <;> rfl
    · rfl
  · have hslot : h.queue.events[h.queue.nextEvent - 1]? = some .zero := by
      rw [hrep.events, getElem?_append_left (by rw [length_replicate]; omega),
        getElem?_replicate, if_pos (by omega)]
    rw [hslot]
    rfl

lemma Rep.take (hrep : h.Rep queue) : h.Advances (h.take h.queue.takeEvent) := by
  cases queue with
  | nil =>
    have hslot : h.queue.events[h.queue.nextEvent]? = none := by
      rw [hrep.events]
      simp
    have htake : h.queue.takeEvent = (.zero, { h.queue with events := [], nextEvent := 0 }) := by
      rw [QuicQueue.takeEvent, hslot]
    refine ⟨⟨[], ?_⟩, ?_⟩
    · simp only [History.take, htake, QUICEvent.zero, if_true]
      exact ⟨rfl, by simp, hrep.owns, hrep.log⟩
    · simp only [History.take, htake, QUICEvent.zero, if_true]
      exact ⟨prefix_rfl, fun _ _ => rfl⟩
  | cons e rest =>
    have hslot : h.queue.events[h.queue.nextEvent]? = some e := by
      rw [hrep.events]
      simp
    have htake : h.queue.takeEvent = (e, { h.queue with
        events := h.queue.events.set h.queue.nextEvent .zero
        nextEvent := h.queue.nextEvent + 1 }) := by
      rw [QuicQueue.takeEvent, hslot]
    have hkind : ¬ e.kind = .noEvent := hrep.kinds e (mem_cons_self ..)
    have hsplit : h.returned ++ e :: rest = (h.returned ++ [e]) ++ rest := by simp
    refine ⟨⟨rest, ?_⟩, ?_⟩
    · simp only [History.take, htake, if_neg hkind]
      refine ⟨?_, fun e' he' => hrep.kinds e' (mem_cons_of_mem _ he'), ?_, ?_⟩
      · simp [hrep.events, replicate_succ']
      · exact hsplit ▸ hrep.owns
      · exact hsplit ▸ hrep.log
    · simp only [History.take, htake, if_neg hkind]
      exact ⟨prefix_append _ _, fun _ _ => rfl⟩

lemma foldl_produce (during : List QuicProducer) :
    ∀ {h : History} {queue : List QUICEvent}, h.Rep queue →
      h.Advances (during.foldl (History.produce spare) h) := by
  induction during with
  | nil => exact fun hrep => ⟨⟨_, hrep⟩, .refl _⟩
  | cons p during ih =>
    intro h queue hrep
    have hstep : h.Advances (h.produce spare p) := hrep.produce p
    obtain ⟨queue', hrep'⟩ := hstep.1
    exact hstep.trans (ih hrep')

/-- The event is taken from the queue that the handshake leaves. -/
lemma nextEventCall_eq (h : History) (during : List QuicProducer) :
    h.queue.nextEventCall spare during = (h.resumed spare during).queue.takeEvent := by
  have hfold : ∀ (l : List QuicProducer) (h : History),
      (l.foldl (History.produce spare) h).queue = l.foldl (QuicProducer.run spare) h.queue := by
    intro l
    induction l with
    | nil => exact fun _ => rfl
    | cons p l ih => exact fun h => ih _
  rw [QuicQueue.nextEventCall, resumed]
  split_ifs
  · rw [hfold]
  · rfl

lemma Rep.next (hrep : h.Rep queue) (during : List QuicProducer) :
    h.Advances (h.next spare during) := by
  have hresumed : h.Advances (h.resumed spare during) := by
    rw [resumed, hrep.scribble_eq]
    split_ifs
    · have hclear : h.Advances { h with queue := h.queue.clearDrain } :=
        ⟨⟨queue, hrep.events, hrep.kinds, hrep.owns, hrep.log⟩, prefix_rfl, fun _ _ => rfl⟩
      obtain ⟨queue1, hrep1⟩ := hclear.1
      exact hclear.trans (foldl_produce during hrep1)
    · exact ⟨⟨queue, hrep⟩, .refl h⟩
  obtain ⟨queue', hrep'⟩ := hresumed.1
  rw [History.next, nextEventCall_eq]
  exact hresumed.trans hrep'.take

lemma Rep.step (hrep : h.Rep queue) (s : QuicStep) : h.Advances (s.run spare h) := by
  cases s with
  | produce p => exact hrep.produce p
  | next during => exact hrep.next during

/-- Every interleaving keeps the invariant and leaves alone what was taken. -/
lemma Rep.run (steps : List QuicStep) :
    ∀ {h : History} {queue : List QUICEvent}, h.Rep queue → h.Advances (runSteps spare h steps) := by
  induction steps with
  | nil => exact fun hrep => ⟨⟨_, hrep⟩, .refl _⟩
  | cons s steps ih =>
    intro h queue hrep
    have hstep : h.Advances (s.run spare h) := hrep.step s
    obtain ⟨queue', hrep'⟩ := hstep.1
    exact hstep.trans (ih hrep')

end History

lemma bytesAt_mergeEvents {level : QUICEncryptionLevel} {a b c : EventValue}
    (h : mergeEvents a b = some c) : c.bytesAt level = a.bytesAt level ++ b.bytesAt level := by
  rw [mergeEvents, ite_none_right_eq_some] at h
  obtain ⟨⟨ha, hb, hl⟩, hc⟩ := h
  cases hc
  simp only [EventValue.bytesAt, ha, hb, hl, true_and]
  split_ifs <;> simp

lemma History.Rep.values_eq {h : History} {queue : List QUICEvent} (hrep : h.Rep queue) :
    h.values = assemble mergeEvents h.produced := by
  have hqueued : h.queued = queue := by
    rw [History.queued, hrep.events, drop_left' length_replicate]
  rw [History.values, hqueued, hrep.log]

/-- Over every interleaving, the events taken so far followed by those still queued are the produced
events in their order, with neighbouring writes of one level merged unless everything before the
second had been taken when it was made.  The bytes of each level are those that were written, and
whatever happens later, an event that was taken keeps its bytes. -/
theorem quic_events_preserved (spare : Nat → Nat) (steps : List QuicStep) :
    (runSteps spare .new steps).values =
        assemble mergeEvents (runSteps spare .new steps).produced ∧
      coalesce mergeEvents (runSteps spare .new steps).values =
        coalesce mergeEvents ((runSteps spare .new steps).produced.map Prod.fst) ∧
      (∀ level, (runSteps spare .new steps).values.flatMap (EventValue.bytesAt level) =
        (runSteps spare .new steps).produced.flatMap fun e => e.1.bytesAt level) ∧
      ∀ more, (runSteps spare .new steps).Extends (runSteps spare .new (steps ++ more)) := by
  obtain ⟨⟨queue, hrep⟩, -⟩ : History.new.Advances (runSteps spare .new steps) :=
    History.Rep.run steps History.rep_new
  refine ⟨hrep.values_eq, ?_, fun level => ?_, fun more => ?_⟩
  · rw [hrep.values_eq, coalesce_assemble lawful_mergeEvents]
  · rw [hrep.values_eq, flatMap_assemble bytesAt_mergeEvents]
  · rw [runSteps, runSteps, foldl_append]
    exact (History.Rep.run more hrep).2

/-- A write that follows the first one after that was taken is an event of its own. -/
theorem quic_events_not_coalesced :
    (runSteps (fun _ => 0) .new [.produce (.writeCryptoData .initial [1]), .next [],
        .produce (.writeCryptoData .initial [2])]).values ≠
      coalesce mergeEvents ((runSteps (fun _ => 0) .new
        [.produce (.writeCryptoData .initial [1]), .next [],
          .produce (.writeCryptoData .initial [2])]).produced.map Prod.fst) := by
  decide

end Runs

end Utls
