import LightDuer.Lib.Base64
import LightDuer.Lib.Bytes
import LightDuer.Lib.Transition

/-!
# Voice sessions

`lightduer_voice.c`: `duer_voice_start`, `duer_voice_send` and `duer_voice_stop`. The packets of the
encoder are packed into a buffer that is reported as a segment when the next packet does not fit.
The buffer, the number of the next segment and the topic are three variables, and each is set at a
time of its own: the number where a segment with `eof` is sent, the buffer where it is flushed, the
topic at a start. What the encoder makes of the data is given with each call.

## What is reported

A segment carries its topic and its number, and its data in base 64; `Segment.bytes` decodes them.
Reported segments and the packets of each session are recorded, so that a session's packets can be
compared with what the cloud gets under its topic. A packet is never empty and fits the buffer,
which is what the encoder's callback gives.

## Separated sessions

`State.Separated` is the property of a run: under each topic the segments are numbered from 0
without a gap, `eof` comes last, and a session that has been stopped has its `eof` and exactly its
own packets there. No segment is longer than what the buffer of `duer_send_content` takes.

Within a session the invariant is `State.InSession`: the segments so far and the buffer together are
the packets so far, and the number is the number of segments. Between sessions buffer and number are
back at their beginning, which a stop leaves behind; a start that is not preceded by a stop finds
neither. `sessions_separated` therefore guards the starts, and shows that each other start can be
followed by a stop after which the sessions are mixed up. For the first 2³¹ starts the topic is a
new one without a guard.
-/

set_option autoImplicit false

namespace LightDuer
namespace Voice

open Lib

/-- `O_BUFFER_LEN` -/
def oBufferLen : Nat := 800
/-- `I_BUFFER_LEN` -/
def iBufferLen : Nat := (oBufferLen - 1) / 4 * 3

/-- What the encoder hands to `duer_speex_encoded_callback`. -/
structure Packet where
  bytes : List UInt8
  ne_nil : bytes ≠ []
  fits : bytes.length ≤ iBufferLen

/-- What packets hold, one after the other. -/
def contents (packets : List Packet) : List UInt8 := packets.flatMap Packet.bytes

/-- `duer_voice_mode` -/
inductive Mode where
  | default | chineseToEnglish | englishToChinese
deriving DecidableEq, Repr

/-- A `duer_voice` object that is reported. -/
structure Segment where
  id : Nat
  segment : Int
  rate : Int
  channel : Nat
  eof : Bool
  translate : Option String
  /-- `voice_data` -/
  voiceData : Option (List UInt8)
deriving DecidableEq, Repr

def Segment.bytes (s : Segment) : List UInt8 := (s.voiceData.bind Base64.decode).getD []

/-- A session that has been stopped: its topic, and what its own encoder produced. -/
structure Stopped where
  id : Nat
  packets : List Packet

/-- The variables of the module, with what has been reported. -/
structure State where
  /-- the first `_size` octets of `_data` -/
  data : List UInt8
  samplerate : Int
  topicId : Nat
  /-- `_speex` is not `NULL`. -/
  speex : Bool
  sid : Int
  mode : Mode
  reported : List Segment
  /-- by the encoder that was created last -/
  produced : List Packet
  stopped : List Stopped

/-- Before the first call. -/
def State.init (v : State) : Prop :=
  v.data = [] ∧ v.topicId = 0 ∧ v.speex = false ∧ v.sid = 0 ∧ v.reported = [] ∧ v.stopped = []

/-- `mbedtls_base64_encode` -/
def mbedtlsBase64Encode (dlen : Nat) (src : List UInt8) : Option (List UInt8) :=
  if src = [] then some []
  else if dlen < (src.length / 3 + if src.length % 3 ≠ 0 then 1 else 0) * 4 + 1 then none
  else some (Base64.encode src)

/-- the field `translate` -/
def Mode.translate : Mode → Option String
  | .chineseToEnglish => some "c2e"
  | .englishToChinese => some "e2c"
  | .default => none

namespace State

def report (v : State) (voiceData : Option (List UInt8)) (eof : Bool) : State :=
  { v with
    sid := int32 (v.sid + 1)
    reported := v.reported ++
      [{ id := v.topicId, segment := v.sid, rate := v.samplerate, channel := 1, eof
         translate := v.mode.translate, voiceData }] }

/-- `duer_send_content` -/
def sendContent (v : State) (data : List UInt8) (eof : Bool) : State :=
  let eof := eof || data.isEmpty
  let v :=
    if data = [] then v.report none eof
    else
      match mbedtlsBase64Encode oBufferLen data with
      | none => v
      | some text => v.report (some text) eof
  if eof then { v with sid := 0 } else v

/-- `duer_speex_encoded_callback` -/
def speexEncodedCallback (v : State) (packet : Packet) : State :=
  let v :=
    if iBufferLen < v.data.length + packet.bytes.length then
      { v.sendContent v.data false with data := [] }
    else v
  { v with data := v.data ++ packet.bytes, produced := v.produced ++ [packet] }

/-- `duer_speex_encode`, with what the encoder makes of the data. -/
def speexEncode (v : State) (packets : List Packet) : State :=
  if v.speex = true then packets.foldl speexEncodedCallback v else v

/-- `_topic_id` after `duer_increase_topic_id`; `lock` tells whether the mutex is taken. -/
def increaseTopicId (v : State) (lock : Bool) (random : Nat) : Nat :=
  if lock = false then v.topicId
  else
    let topicId := if v.topicId = 0 then 10000 + random % 100000 else v.topicId
    (topicId &&& 0x7fffffff) + 1

/-- `duer_voice_start_internal`. There are encoders for two rates; `created` tells whether one can
    be had. -/
def startInternal (v : State) (what : Int) (created lock : Bool) (random : Nat) : State :=
  { v with
    samplerate := what
    speex := created && (what = 8000 || what = 16000)
    produced := []
    topicId := v.increaseTopicId lock random }

/-- `duer_voice_send_internal`, on data that are not `NULL`. -/
def sendInternal (v : State) (packets : List Packet) : State := v.speexEncode packets

/-- `duer_voice_stop_internal` -/
def stopInternal (v : State) (flushed : List Packet) : State :=
  if v.speex = true then
    let v := v.speexEncode flushed
    let v := if v.data ≠ [] then v.sendContent v.data false else v
    let v := v.sendContent [] true
    { v with data := [], speex := false, stopped := v.stopped ++ [⟨v.topicId, v.produced⟩] }
  else v

end State

/-! ## Runs -/

inductive Call where
  | start (samplerate : Int) (created lock : Bool) (random : Nat)
  | send (packets : List Packet)
  | stop (flushed : List Packet)

def State.call (v : State) : Call → State
  | .start samplerate created lock random => v.startInternal samplerate created lock random
  | .send packets => v.sendInternal packets
  | .stop flushed => v.stopInternal flushed

def State.step (v : State) (c : Call) : Option State := some (v.call c)

/-- What has been reported under a topic. -/
def State.under (v : State) (id : Nat) : List Segment := v.reported.filter (·.id = id)

structure State.Separated (v : State) : Prop where
  numbered : ∀ id, (v.under id).map Segment.segment = (List.range (v.under id).length).map Int.ofNat
  last : ∀ id pre s post, v.under id = pre ++ s :: post → s.eof = true → post = []
  ended : ∀ x ∈ v.stopped, ∃ s ∈ v.under x.id, s.eof = true
  packets : ∀ x ∈ v.stopped, (v.under x.id).flatMap Segment.bytes = contents x.packets
  short : ∀ s ∈ v.reported, s.bytes.length ≤ iBufferLen

/-- A start finds the buffer empty and the numbering at its beginning, and comes to a topic nothing
    has been reported under; a session has fewer packets than there are numbers for segments. -/
def State.Guard (v : State) : Call → Prop
  | .start _ _ lock random =>
    v.data = [] ∧ v.sid = 0 ∧ v.under (v.increaseTopicId lock random) = []
  | .send packets | .stop packets =>
    v.speex = true → v.produced.length + packets.length < 2 ^ 31

/-! ## Reporting a segment -/

section Report

variable {v : State} {data : List UInt8} {voiceData : Option (List UInt8)} {eof : Bool}

/-- Where the buffer of `duer_send_content` is large enough, data are reported. -/
theorem State.sendContent_data (hne : data ≠ []) (hle : data.length ≤ iBufferLen) :
    v.sendContent data false = v.report (some (Base64.encode data)) false := by
  have hencode : mbedtlsBase64Encode oBufferLen data = some (Base64.encode data) := by
    have hlen : data.length ≤ 597 := hle
    have hcap : oBufferLen = 800 := rfl
    unfold mbedtlsBase64Encode
    rw [if_neg hne, if_neg (by split_ifs <;> omega)]
  have hempty : data.isEmpty = false := by simpa using hne
  simp [State.sendContent, hne, hempty, hencode]

theorem State.sendContent_end : v.sendContent [] true = { v.report none true with sid := 0 } := by
  simp [State.sendContent]

/-- The segment that is reported. -/
def State.next (v : State) (voiceData : Option (List UInt8)) (eof : Bool) : Segment :=
  { id := v.topicId, segment := v.sid, rate := v.samplerate, channel := 1, eof
    translate := v.mode.translate, voiceData }

theorem State.report_reported :
    (v.report voiceData eof).reported = v.reported ++ [v.next voiceData eof] := rfl

theorem State.report_under_self :
    (v.report voiceData eof).under v.topicId = v.under v.topicId ++ [v.next voiceData eof] := by
  simp [State.under, State.report_reported, State.next]

theorem State.report_under_other {id : Nat} (h : id ≠ v.topicId) :
    (v.report voiceData eof).under id = v.under id := by
  simp [State.under, State.report_reported, State.next, h.symm]

@[simp] theorem State.next_bytes_encode :
    (v.next (some (Base64.encode data)) eof).bytes = data := by
  simp [State.next, Segment.bytes, Base64.decode_encode]

@[simp] theorem State.next_bytes_none : (v.next none eof).bytes = [] := rfl

structure State.Open (v : State) : Prop where
  sid : v.sid = ((v.under v.topicId).length : Int)
  noEof : ∀ s ∈ v.under v.topicId, s.eof = false
  packed : (v.under v.topicId).flatMap Segment.bytes ++ v.data = contents v.produced
  other : ∀ x ∈ v.stopped, x.id ≠ v.topicId
  count : (v.under v.topicId).length + (if v.data = [] then 0 else 1) ≤ v.produced.length
  fits : v.data.length ≤ iBufferLen

/-- Another segment of the session in progress. -/
theorem State.Separated.report (h : v.Separated) (ho : v.Open)
    (voiceData : Option (List UInt8)) (eof : Bool)
    (hshort : (v.next voiceData eof).bytes.length ≤ iBufferLen) :
    (v.report voiceData eof).Separated where
  numbered := by
    intro id
    by_cases hid : id = v.topicId
    · subst hid
      rw [State.report_under_self]
      have hlast : (v.next voiceData eof).segment = Int.ofNat (v.under v.topicId).length := ho.sid
      simp [h.numbered, List.range_succ, hlast]
    · rw [State.report_under_other hid]
      exact h.numbered id
  last := by
    intro id pre s post hsplit heof
    by_cases hid : id = v.topicId
    · subst hid
      rw [State.report_under_self] at hsplit
      rcases List.eq_nil_or_concat' post with rfl | ⟨post, t, rfl⟩
      · rfl
      · -- a segment before the last one is one from before
        have hbefore : v.under v.topicId = pre ++ s :: post := by
          have hconcat :
              v.under v.topicId ++ [v.next voiceData eof] = (pre ++ s :: post) ++ [t] := by
            simpa using hsplit
          exact (List.append_inj' hconcat rfl).1
        have hnot := ho.noEof s (by simp [hbefore])
        exact absurd (hnot.symm.trans heof) (by simp)
    · rw [State.report_under_other hid] at hsplit
      exact h.last id pre s post hsplit heof
  ended := by
    intro x hx
    rw [State.report_under_other (ho.other x hx)]
    exact h.ended x hx
  packets := by
    intro x hx
    rw [State.report_under_other (ho.other x hx)]
    exact h.packets x hx
  short := by
    intro s hs
    rw [State.report_reported] at hs
    rcases List.mem_append.mp hs with hs | hs
    · exact h.short s hs
    · rwa [List.mem_singleton.mp hs]

/-- The state once what is in the buffer has been reported. -/
def State.flushed (v : State) : State :=
  { v.report (some (Base64.encode v.data)) false with data := [] }

theorem State.flushed_under :
    v.flushed.under v.topicId =
      v.under v.topicId ++ [v.next (some (Base64.encode v.data)) false] :=
  State.report_under_self

theorem State.Open.flushed (h : v.Open) (hne : v.data ≠ []) (hcount : v.produced.length < 2 ^ 31) :
    v.flushed.Open := by
  have hlen : (v.under v.topicId).length + 1 ≤ v.produced.length := by
    have hle := h.count
    rwa [if_neg hne] at hle
  have hlength : (v.flushed.under v.topicId).length = (v.under v.topicId).length + 1 := by
    simp [State.flushed_under]
  refine ⟨?_, ?_, ?_, h.other, ?_, by simp [State.flushed]⟩
  · have hnext : v.sid + 1 = (((v.under v.topicId).length + 1 : Nat) : Int) := by
      rw [h.sid]
      rfl
    show int32 (v.sid + 1) = ((v.flushed.under v.topicId).length : Int)
    rw [hnext, int32_of_lt (by omega), hlength]
  · intro s hs
    have hs' : s ∈ v.under v.topicId ++ [v.next (some (Base64.encode v.data)) false] :=
      State.flushed_under ▸ hs
    rcases List.mem_append.mp hs' with hold | hnew
    · exact h.noEof s hold
    · rw [List.mem_singleton.mp hnew]
      rfl
  · show (v.flushed.under v.topicId).flatMap Segment.bytes ++ [] = contents v.produced
    rw [State.flushed_under]
    simpa using h.packed
  · show (v.flushed.under v.topicId).length + 0 ≤ v.produced.length
    omega

end Report

/-! ## The session in progress -/

section Session

variable {v : State}

/-- What holds while the encoder is there. -/
structure State.InSession (v : State) : Prop where
  separated : v.Separated
  content : ∀ s ∈ v.reported, s.eof = false → s.bytes ≠ []
  progress : v.Open

theorem State.InSession.flushed (h : v.InSession) (hne : v.data ≠ [])
    (hcount : v.produced.length < 2 ^ 31) : v.flushed.InSession := by
  refine ⟨?_, ?_, h.progress.flushed hne hcount⟩
  · have hsep := h.separated.report h.progress (some (Base64.encode v.data)) false
      (by simpa using h.progress.fits)
    exact ⟨hsep.numbered, hsep.last, hsep.ended, hsep.packets, hsep.short⟩
  · intro s hs heof
    rcases List.mem_append.mp hs with hold | hnew
    · exact h.content s hold heof
    · rw [List.mem_singleton.mp hnew]
      exact State.next_bytes_encode.symm ▸ hne

/-- The packet is put behind what is in the buffer. -/
def State.packed (v : State) (packet : Packet) : State :=
  { v with data := v.data ++ packet.bytes, produced := v.produced ++ [packet] }

theorem State.InSession.packed (h : v.InSession) (packet : Packet)
    (hfits : v.data.length + packet.bytes.length ≤ iBufferLen)
    (hcount : (v.under v.topicId).length ≤ v.produced.length) : (v.packed packet).InSession := by
  have hsep := h.separated
  refine ⟨⟨hsep.numbered, hsep.last, hsep.ended, hsep.packets, hsep.short⟩, h.content, ?_⟩
  refine ⟨h.progress.sid, h.progress.noEof, ?_, h.progress.other, ?_, ?_⟩
  · show (v.under v.topicId).flatMap Segment.bytes ++ (v.data ++ packet.bytes) =
      contents (v.produced ++ [packet])
    rw [← List.append_assoc, h.progress.packed]
    simp [contents]
  · show (v.under v.topicId).length + (if v.data ++ packet.bytes = [] then 0 else 1) ≤
      (v.produced ++ [packet]).length
    simp [packet.ne_nil, hcount]
  · simpa [State.packed] using hfits

/-- **A packet of the encoder** goes into the buffer, or into an empty one after that has been
    reported. What a session has produced is what has been reported and what is in the buffer, in
    this order. -/
theorem State.InSession.callback (h : v.InSession) (hcount : v.produced.length < 2 ^ 31)
    (packet : Packet) :
    (v.speexEncodedCallback packet).InSession ∧
      (v.speexEncodedCallback packet).speex = v.speex ∧
      (v.speexEncodedCallback packet).produced = v.produced ++ [packet] := by
  have hle := h.progress.count
  unfold State.speexEncodedCallback
  by_cases hfull : iBufferLen < v.data.length + packet.bytes.length
  · have hne : v.data ≠ [] := by
      intro hnil
      have hpacket := packet.fits
      simp only [hnil, List.length_nil] at hfull
      omega
    rw [if_pos hfull, State.sendContent_data hne h.progress.fits]
    have hflushed := h.flushed hne hcount
    have hempty : v.flushed.data = [] := rfl
    have hpacked := hflushed.packed packet (by simpa [hempty] using packet.fits)
      (by simpa [hempty] using hflushed.progress.count)
    exact ⟨hpacked, rfl, rfl⟩
  · rw [if_neg hfull]
    exact ⟨h.packed packet (by omega) (by omega), rfl, rfl⟩

theorem State.InSession.encode (h : v.InSession) (hspeex : v.speex = true) {packets : List Packet}
    (hcount : v.produced.length + packets.length < 2 ^ 31) :
    (v.speexEncode packets).InSession ∧ (v.speexEncode packets).speex = true ∧
      (v.speexEncode packets).produced = v.produced ++ packets := by
  unfold State.speexEncode
  rw [if_pos hspeex]
  induction packets generalizing v with
  | nil => exact ⟨h, hspeex, by simp⟩
  | cons packet packets ih =>
    simp only [List.length_cons] at hcount
    obtain ⟨hnext, hstill, hproduced⟩ := h.callback (by omega) packet
    obtain ⟨hend, hspeex', hall⟩ := ih hnext (hstill.trans hspeex)
      (by rw [hproduced, List.length_append, List.length_singleton]; omega)
    exact ⟨hend, hspeex', by rw [List.foldl_cons, hall, hproduced]; simp⟩

def State.closed (v : State) : State :=
  { v.report none true with
    sid := 0, data := [], speex := false, stopped := v.stopped ++ [⟨v.topicId, v.produced⟩] }

theorem State.stopInternal_eq (hspeex : v.speex = true) (flushed : List Packet) :
    v.stopInternal flushed =
      (if (v.speexEncode flushed).data ≠ [] then
        (v.speexEncode flushed).sendContent (v.speexEncode flushed).data false
      else v.speexEncode flushed).closed := by
  unfold State.stopInternal
  rw [if_pos hspeex]
  simp only [State.sendContent_end]
  rfl

structure State.Inv (v : State) : Prop where
  separated : v.Separated
  content : ∀ s ∈ v.reported, s.eof = false → s.bytes ≠ []
  idle : v.speex = false → v.data = [] ∧ v.sid = 0
  progress : v.speex = true → v.Open

/-- A session is closed when its buffer has been reported. -/
theorem State.InSession.closed (h : v.InSession) (hdata : v.data = []) : v.closed.Inv := by
  have hsep := h.separated.report h.progress none true (by simp)
  have hself : v.closed.under v.topicId = v.under v.topicId ++ [v.next none true] :=
    State.report_under_self
  refine ⟨⟨hsep.numbered, hsep.last, ?_, ?_, hsep.short⟩, ?_, fun _ => ⟨rfl, rfl⟩, fun hs => ?_⟩
  · intro x hx
    rcases List.mem_append.mp hx with hold | hnew
    · exact hsep.ended x hold
    · rw [List.mem_singleton.mp hnew]
      exact ⟨v.next none true, by simp [hself], rfl⟩
  · intro x hx
    rcases List.mem_append.mp hx with hold | hnew
    · exact hsep.packets x hold
    · rw [List.mem_singleton.mp hnew]
      show (v.closed.under v.topicId).flatMap Segment.bytes = contents v.produced
      rw [hself, ← h.progress.packed, hdata]
      simp
  · intro s hs heof
    rcases List.mem_append.mp hs with hold | hnew
    · exact h.content s hold heof
    · rw [List.mem_singleton.mp hnew] at heof
      exact absurd heof Bool.true_eq_false.mp
  · exact absurd hs Bool.false_eq_true.mp

end Session

/-! ## Every run -/

section Runs

variable {v v' : State} {c : Call}

theorem State.Inv.of_init (h : v.init) : v.Inv := by
  obtain ⟨hdata, -, hspeex, hsid, hreported, hstopped⟩ := h
  have hunder : ∀ id, v.under id = [] := by
    intro id
    simp [State.under, hreported]
  refine ⟨⟨?_, ?_, ?_, ?_, ?_⟩, ?_, fun _ => ⟨hdata, hsid⟩, fun hs => ?_⟩
  · intro id
    simp [hunder]
  · intro id pre s post hsplit
    simp [hunder] at hsplit
  · simp [hstopped]
  · simp [hstopped]
  · simp [hreported]
  · simp [hreported]
  · exact absurd (hspeex.symm.trans hs) (by simp)

theorem State.Inv.inSession (h : v.Inv) (hspeex : v.speex = true) : v.InSession :=
  ⟨h.separated, h.content, h.progress hspeex⟩

theorem State.Inv.start (h : v.Inv) {what : Int} {created lock : Bool} {random : Nat}
    (hguard : v.Guard (.start what created lock random)) :
    (v.startInternal what created lock random).Inv := by
  obtain ⟨hdata, hsid, hunused⟩ := hguard
  have hsep := h.separated
  refine ⟨⟨hsep.numbered, hsep.last, hsep.ended, hsep.packets, hsep.short⟩, h.content,
    fun _ => ⟨hdata, hsid⟩, fun _ => ?_⟩
  have hunder : (v.startInternal what created lock random).under
      (v.startInternal what created lock random).topicId = [] := hunused
  refine ⟨?_, ?_, ?_, ?_, ?_, ?_⟩
  · rw [hunder]
    exact hsid
  · simp [hunder]
  · rw [hunder]
    exact hdata
  · -- a session that has been stopped has reported a segment
    intro x hx heq
    have hid : x.id = v.increaseTopicId lock random := heq
    obtain ⟨s, hs, -⟩ := hsep.ended x hx
    rw [hid, hunused] at hs
    exact absurd hs (by simp)
  · rw [hunder]
    show 0 + (if v.data = [] then 0 else 1) ≤ 0
    simp [hdata]
  · show v.data.length ≤ iBufferLen
    simp [hdata]

theorem State.Inv.send (h : v.Inv) {packets : List Packet}
    (hguard : v.Guard (.send packets)) : (v.sendInternal packets).Inv := by
  unfold State.sendInternal
  cases hspeex : v.speex with
  | true =>
    obtain ⟨hnext, hstill, -⟩ := (h.inSession hspeex).encode hspeex (hguard hspeex)
    exact ⟨hnext.separated, hnext.content, fun hs => absurd (hstill.symm.trans hs) (by simp),
      fun _ => hnext.progress⟩
  | false =>
    have hsame : v.speexEncode packets = v := by simp [State.speexEncode, hspeex]
    rwa [hsame]

theorem State.Inv.stop (h : v.Inv) {flushed : List Packet}
    (hguard : v.Guard (.stop flushed)) : (v.stopInternal flushed).Inv := by
  cases hspeex : v.speex with
  | true =>
    obtain ⟨hnext, -, hproduced⟩ := (h.inSession hspeex).encode hspeex (hguard hspeex)
    have hcount : (v.speexEncode flushed).produced.length < 2 ^ 31 := by
      rw [hproduced, List.length_append]
      exact hguard hspeex
    rw [State.stopInternal_eq hspeex]
    by_cases hne : (v.speexEncode flushed).data ≠ []
    · rw [if_pos hne, State.sendContent_data hne hnext.progress.fits]
      exact (hnext.flushed hne hcount).closed rfl
    · rw [if_neg hne]
      exact hnext.closed (not_not.mp hne)
  | false =>
    have hsame : v.stopInternal flushed = v := by simp [State.stopInternal, hspeex]
    rwa [hsame]

/-- **A guarded call** keeps what holds in guarded runs. -/
theorem State.Inv.step (h : v.Inv) (hguard : v.Guard c) (hs : v.step c = some v') : v'.Inv := by
  obtain rfl := Option.some.inj hs
  cases c with
  | start what created lock random => exact h.start hguard
  | send packets => exact h.send hguard
  | stop flushed => exact h.stop hguard

/-- A session that has produced nothing is stopped, and something was left from before. -/
theorem State.not_separated_stop (hcontent : ∀ s ∈ v.reported, s.eof = false → s.bytes ≠ [])
    (hspeex : v.speex = true) (hproduced : v.produced = []) (hfits : v.data.length ≤ iBufferLen)
    (hleft : ¬(v.data = [] ∧ v.sid = 0 ∧ v.under v.topicId = [])) :
    ¬(v.stopInternal []).Separated := by
  intro hsep
  have hsame : v.speexEncode [] = v := by simp [State.speexEncode]
  rw [State.stopInternal_eq hspeex, hsame] at hsep
  by_cases hdata : v.data = []
  · rw [if_neg (not_not.mpr hdata)] at hsep
    have hself : v.closed.under v.topicId = v.under v.topicId ++ [v.next none true] :=
      State.report_under_self
    have hnothing : (v.closed.under v.topicId).flatMap Segment.bytes = contents v.produced :=
      hsep.packets ⟨v.topicId, v.produced⟩ (by simp [State.closed])
    rw [hself, hproduced] at hnothing
    -- what has been reported under the topic is empty, so it has ended it
    have hunder : v.under v.topicId = [] := by
      rcases List.eq_nil_or_concat' (v.under v.topicId) with hnil | ⟨before, s, hconcat⟩
      · exact hnil
      · have hs : s ∈ v.under v.topicId := by simp [hconcat]
        have hbytes : s.bytes = [] := by
          have hall : ∀ t ∈ v.under v.topicId, t.bytes = [] := by
            simpa [contents, List.flatMap_eq_nil_iff] using hnothing
          exact hall s hs
        have heof : s.eof = true := by
          by_contra hne
          exact hcontent s (List.mem_filter.mp hs).1 (by simpa using hne) hbytes
        have hsplit : v.closed.under v.topicId = before ++ s :: [v.next none true] := by
          rw [hself, hconcat, List.append_assoc]
          rfl
        exact absurd (hsep.last _ _ _ _ hsplit heof) (by simp)
    have hnumber := hsep.numbered v.topicId
    rw [hself, hunder] at hnumber
    exact hleft ⟨hdata, by simpa [State.next] using hnumber, hunder⟩
  · rw [if_pos hdata, State.sendContent_data hdata hfits] at hsep
    have hself : v.flushed.closed.under v.topicId =
        v.flushed.under v.topicId ++ [v.flushed.next none true] :=
      State.report_under_self (v := v.flushed)
    have hnothing : (v.flushed.closed.under v.topicId).flatMap Segment.bytes =
        contents v.produced :=
      hsep.packets ⟨v.topicId, v.produced⟩ (by simp [State.closed, State.report])
    rw [hself, State.flushed_under, hproduced] at hnothing
    have hempty : (∀ s ∈ v.under v.topicId, s.bytes = []) ∧ v.data = [] := by
      simpa [contents, List.flatMap_eq_nil_iff] using hnothing
    exact hdata hempty.2

/-- **Any other start** leads to sessions that are not separated: a stop after it reports what was
    left in the buffer, or with a number or a topic from before. -/
theorem State.Inv.start_leads (h : v.Inv) {what : Int} {created lock : Bool} {random : Nat}
    (hguard : ¬v.Guard (.start what created lock random)) :
    ∃ calls v', runFrom State.step (v.startInternal what created lock random) calls = some v' ∧
      ¬v'.Separated := by
  have hfits : v.data.length ≤ iBufferLen := by
    cases hspeex : v.speex with
    | true => exact (h.progress hspeex).fits
    | false => simp [(h.idle hspeex).1]
  cases hnew : (v.startInternal what created lock random).speex with
  | true =>
    exact ⟨[.stop []], _, rfl, State.not_separated_stop h.content hnew rfl hfits hguard⟩
  | false =>
    -- the encoder is had at the next start, which leaves the topic
    exact ⟨[.start 8000 true false 0, .stop []], _, rfl,
      State.not_separated_stop h.content rfl rfl hfits hguard⟩

end Runs

/-! ## Topics -/

section Topics

variable {v v' v'' : State}

/-- Nothing is reported but under the topic there is. -/
structure State.Reports (v v' : State) : Prop where
  topicId : v'.topicId = v.topicId
  reported : ∀ s ∈ v'.reported, s ∈ v.reported ∨ s.id = v.topicId

theorem State.Reports.refl (v : State) : v.Reports v := ⟨rfl, fun _ => .inl⟩

theorem State.Reports.trans (h : v.Reports v') (h' : v'.Reports v'') : v.Reports v'' where
  topicId := h'.topicId.trans h.topicId
  reported := by
    intro s hs
    rcases h'.reported s hs with hold | hnew
    · exact h.reported s hold
    · exact .inr (hnew.trans h.topicId)

theorem State.reports_report (voiceData : Option (List UInt8)) (eof : Bool) :
    v.Reports (v.report voiceData eof) where
  topicId := rfl
  reported := by
    intro s hs
    rcases List.mem_append.mp hs with hold | hnew
    · exact .inl hold
    · exact .inr (by rw [List.mem_singleton.mp hnew])

theorem State.reports_sendContent (data : List UInt8) (eof : Bool) :
    v.Reports (v.sendContent data eof) := by
  have hsent : ∀ w : State, v.Reports w →
      v.Reports (if (eof || data.isEmpty) = true then { w with sid := 0 } else w) := by
    intro w hw
    split
    · exact ⟨hw.topicId, hw.reported⟩
    · exact hw
  unfold State.sendContent
  apply hsent
  split
  · exact State.reports_report _ _
  · split
    · exact .refl v
    · exact State.reports_report _ _

theorem State.reports_callback (packet : Packet) : v.Reports (v.speexEncodedCallback packet) := by
  unfold State.speexEncodedCallback
  split
  · have hsent := State.reports_sendContent (v := v) v.data false
    exact ⟨hsent.topicId, hsent.reported⟩
  · exact ⟨rfl, fun _ => .inl⟩

theorem State.reports_encode (packets : List Packet) : v.Reports (v.speexEncode packets) := by
  have hfold : ∀ w : State, w.Reports (packets.foldl State.speexEncodedCallback w) := by
    induction packets with
    | nil => exact State.Reports.refl
    | cons packet packets ih => exact fun w => (State.reports_callback packet).trans (ih _)
  unfold State.speexEncode
  split
  · exact hfold v
  · exact .refl v

theorem State.reports_stop (flushed : List Packet) : v.Reports (v.stopInternal flushed) := by
  unfold State.stopInternal
  split
  · have hencode : v.Reports (v.speexEncode flushed) := State.reports_encode flushed
    have hdata : v.Reports (if (v.speexEncode flushed).data ≠ [] then
        (v.speexEncode flushed).sendContent (v.speexEncode flushed).data false
      else v.speexEncode flushed) := by
      split
      · exact hencode.trans (State.reports_sendContent _ _)
      · exact hencode
    have hend := hdata.trans (State.reports_sendContent [] true)
    exact ⟨hend.topicId, hend.reported⟩
  · exact .refl v

/-- The `k`-th topic, where they begin at `base`. -/
def topic (base k : Nat) : Nat := (base + k) % 2 ^ 31 + 1

theorem topic_ne {base j k : Nat} (hlt : j < k) (hfew : k < j + 2 ^ 31) :
    topic base j ≠ topic base k := by
  unfold topic
  omega

theorem topic_next (base k : Nat) : (topic base k &&& 0x7fffffff) + 1 = topic base (k + 1) := by
  have hmask : topic base k &&& 0x7fffffff = topic base k % 2 ^ 31 :=
    Nat.and_two_pow_sub_one_eq_mod (topic base k) 31
  rw [hmask, topic, topic]
  omega

/-- After `k` starts, all of which have taken the mutex. -/
structure State.Topics (v : State) (k : Nat) : Prop where
  before : k = 0 → v.topicId = 0 ∧ v.speex = false ∧ v.reported = []
  after : 0 < k → ∃ base, v.topicId = topic base k ∧
    ∀ s ∈ v.reported, ∃ j, 0 < j ∧ j ≤ k ∧ s.id = topic base j

variable {k : Nat}

theorem State.Topics.of_init (h : v.init) : v.Topics 0 := by
  obtain ⟨-, htopic, hspeex, -, hreported, -⟩ := h
  exact ⟨fun _ => ⟨htopic, hspeex, hreported⟩, fun hpos => absurd hpos (by simp)⟩

theorem State.Topics.reports (h : v.Topics k) (hrep : v.Reports v')
    (hsame : v.speex = false → v' = v) : v'.Topics k where
  before := by
    intro hk
    rw [hsame (h.before hk).2.1]
    exact h.before hk
  after := by
    intro hpos
    obtain ⟨base, htopic, hids⟩ := h.after hpos
    refine ⟨base, hrep.topicId.trans htopic, ?_⟩
    intro s hs
    rcases hrep.reported s hs with hold | hnew
    · exact hids s hold
    · exact ⟨k, hpos, Nat.le_refl k, hnew.trans htopic⟩

theorem State.increaseTopicId_topic {base : Nat} (h : v.topicId = topic base k) (random : Nat) :
    v.increaseTopicId true random = topic base (k + 1) := by
  have hne : v.topicId ≠ 0 := by
    rw [h]
    exact Nat.succ_ne_zero _
  simp only [State.increaseTopicId, hne, if_false, Bool.true_eq_false]
  rw [h, topic_next]

theorem State.Topics.start (h : v.Topics k) (what : Int) (created : Bool) (random : Nat) :
    (v.startInternal what created true random).Topics (k + 1) where
  before := fun hk => absurd hk (by simp)
  after := by
    intro _
    rcases Nat.eq_zero_or_pos k with rfl | hpos
    · obtain ⟨htopic, -, hreported⟩ := h.before rfl
      refine ⟨9999 + random % 100000, ?_, by simp [State.startInternal, hreported]⟩
      have hmask : (10000 + random % 100000) &&& 0x7fffffff = (10000 + random % 100000) % 2 ^ 31 :=
        Nat.and_two_pow_sub_one_eq_mod _ 31
      show v.increaseTopicId true random = _
      simp only [State.increaseTopicId, htopic, if_true, hmask, topic, Bool.true_eq_false, if_false]
      omega
    · obtain ⟨base, htopic, hids⟩ := h.after hpos
      refine ⟨base, State.increaseTopicId_topic htopic random, ?_⟩
      intro s hs
      obtain ⟨j, hj, hle, hid⟩ := hids s hs
      exact ⟨j, hj, Nat.le_succ_of_le hle, hid⟩

def Call.starts : Call → Nat
  | .start .. => 1
  | _ => 0

def Call.Locks : Call → Prop
  | .start _ _ lock _ => lock = true
  | _ => True

theorem State.Topics.run {calls : List Call} (h : v.Topics k) (hlock : ∀ c ∈ calls, c.Locks)
    (hrun : runFrom State.step v calls = some v') :
    v'.Topics (k + (calls.map Call.starts).sum) := by
  induction calls generalizing v k with
  | nil =>
    obtain rfl : v = v' := by simpa [runFrom] using hrun
    exact h
  | cons c calls ih =>
    have hrest : runFrom State.step (v.call c) calls = some v' := hrun
    have hnext : (v.call c).Topics (k + c.starts) := by
      cases c with
      | start what created lock random =>
        obtain rfl : lock = true := hlock _ List.mem_cons_self
        exact h.start what created random
      | send packets =>
        exact h.reports (State.reports_encode packets) fun hs => by
          simp [State.call, State.sendInternal, State.speexEncode, hs]
      | stop flushed =>
        exact h.reports (State.reports_stop flushed) fun hs => by
          simp [State.call, State.stopInternal, hs]
    have hend := ih hnext (fun c hc => hlock c (List.mem_cons_of_mem _ hc)) hrest
    rwa [List.map_cons, List.sum_cons, ← Nat.add_assoc]

/-- **The topic of a start is a new one** for the first 2^31 starts, if each takes the mutex. -/
theorem topic_unused {v₀ : State} {calls : List Call} (hinit : v₀.init)
    (hrun : runFrom State.step v₀ calls = some v) (hlock : ∀ c ∈ calls, c.Locks)
    (hfew : (calls.map Call.starts).sum < 2 ^ 31) (random : Nat) :
    v.under (v.increaseTopicId true random) = [] := by
  have htopics := (State.Topics.of_init hinit).run hlock hrun
  rw [Nat.zero_add] at htopics
  rw [State.under, List.filter_eq_nil_iff]
  intro s hs
  rcases Nat.eq_zero_or_pos (calls.map Call.starts).sum with hzero | hpos
  · rw [(htopics.before hzero).2.2] at hs
    exact absurd hs (by simp)
  · obtain ⟨base, htopic, hids⟩ := htopics.after hpos
    obtain ⟨j, hj, hle, hid⟩ := hids s hs
    rw [State.increaseTopicId_topic htopic random, hid]
    have hne : topic base j ≠ topic base ((calls.map Call.starts).sum + 1) :=
      topic_ne (Nat.lt_succ_of_le hle) (by omega)
    simpa using hne

end Topics

/-- **Voice sessions are separated** in every run in which a start finds the buffer empty and the
    numbering at its beginning, which a stop leaves behind, and comes to a topic of its own. Any
    other start can be followed by a stop after which they are not. Of the other calls it is only
    asked that a session has fewer packets than an `int` counts. -/
theorem sessions_separated {v : State} (h : ReachableBy State.init State.step State.Guard v) :
    v.Separated ∧ ∀ what created lock random, ¬v.Guard (.start what created lock random) →
      ∃ calls v', runFrom State.step (v.startInternal what created lock random) calls = some v' ∧
        ¬v'.Separated := by
  have hinv : v.Inv := h.invariant State.Inv State.Inv.of_init fun hinv hguard hs =>
    hinv.step hguard hs
  exact ⟨hinv.separated, fun _ _ _ _ hguard => hinv.start_leads hguard⟩

def State.initial : State :=
  { data := [], samplerate := 8000, topicId := 0, speex := false, sid := 0, mode := .default
    reported := [], produced := [], stopped := [] }

def Packet.single (b : UInt8) : Packet := ⟨[b], by simp, show 1 ≤ iBufferLen by decide⟩

def Packet.full : Packet := ⟨List.replicate iBufferLen 0, by decide, by simp⟩

def twoSessions : List Call :=
  [.start 8000 true true 0, .send [.single 1, .single 2], .stop [.single 3],
    .start 8000 true true 0, .send [.single 4], .stop []]

theorem sessions_separated_two :
    ∃ v, runFrom State.step State.initial twoSessions = some v ∧
      v.reported.map Segment.id = [10001, 10001, 10002, 10002] ∧ v.Separated := by
  refine ⟨_, rfl, by decide +kernel, (sessions_separated ?_).1⟩
  refine ReachableBy.of_runFrom twoSessions (.start ⟨rfl, rfl, rfl, rfl, rfl, rfl⟩) ?_ rfl
  exact ⟨⟨rfl, rfl, rfl⟩, fun _ => by decide, fun _ => by decide, ⟨rfl, rfl, by decide +kernel⟩,
    fun _ => by decide, fun _ => by decide, trivial⟩

/-- A start without a stop before it: a packet of the first session is reported under the topic of
    the second, and its numbering goes on. -/
theorem sessions_mixed :
    ∃ v, runFrom State.step State.initial
        [.start 8000 true true 0, .send [.full, .single 1], .start 8000 true true 0, .stop []] =
        some v ∧
      (v.under 10002).map Segment.segment = [1, 2] ∧
      (v.under 10002).flatMap Segment.bytes = [1] ∧
      v.stopped.map (fun x => (x.id, contents x.packets)) = [(10002, [])] ∧ ¬v.Separated := by
  refine ⟨_, rfl, by decide +kernel, by decide +kernel, by decide +kernel, ?_⟩
  intro hsep
  exact absurd (hsep.numbered 10002) (by decide +kernel)

end Voice
end LightDuer
