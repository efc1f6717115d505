import LightDuer.Net.Transport

/-!
# The socket adapters

`bcasoc_send` and `bcasoc_recv` of `baidu_ca_socket_adp.c`, on Linux and on FreeRTOS. A call waits
with `select` and then moves octets between the caller and the socket, as many as the socket likes.
All but `bcasoc_recv` on Linux report the size of the request where the socket moved anything. A run
is a list of calls; what each moved is kept beside what it reported.

## The two ports

The functions differ in few places, and these are parameters by `Port`: what `bcasoc_recv` returns,
and whether a send that would block is noted in `is_send_block`. The wait and the call of the socket
are the same. What `select` comes to is given with the call; its failure is not tested for by the
source, which looks at the set that was passed in, and counts as `set`.

## Reports and counts

Sizes are 32-bit `size_t` and what a socket returns is an `int`, so a socket moves fewer than 2^31
octets at once, while a size from 2^31 on becomes a negative report. `Sent.Proper` and
`Received.Proper` say of a call what its report is of its result, and hold of every call; whether
octets are accounted for is then a matter of arithmetic on one call (`accounted_iff`), and of a run
if it is of each call.

`Accounted` has four parts because the report is used in several ways: as a number of octets, as a
sign that a frame was sent, and as the length of what the caller then takes for data received. The
last is what shifts a stream: a caller that is told of octets that did not come reads what was in
its buffer before.
-/

set_option autoImplicit false

namespace LightDuer
namespace Net

open Lib

inductive Port where
  | linux | freeRtos
deriving DecidableEq, Repr

/-- What `select` comes to. A failed `select` leaves the set alone, which counts as `set`. -/
inductive Select where
  /-- `FD_ISSET` -/
  | set
  | timeout
  /-- `EINTR` -/
  | interrupted
  | failed
deriving DecidableEq, Repr

/-- `bcasoc_t`, and the `bcasoc_check_data` events posted for it. -/
structure Bcasoc where
  /-- `fd != -1` -/
  connected : Bool
  /-- on FreeRTOS -/
  isSendBlock : Bool
  checks : Nat
deriving DecidableEq, Repr

/-- Octets whose number is a 32-bit `size_t`. -/
structure Block where
  bytes : List UInt8
  fits : bytes.length < 2 ^ 32

/-- How many octets a socket moves that is ready for a number of them; their number is an `int`. -/
def moved (ready : Option Nat) (size : Nat) : Nat := min (ready.getD 0) (min size (2 ^ 31 - 1))

/-- What the `send` or `recv` of the socket returns. -/
def socketResult (ready : Option Nat) (count : Nat) : Int := if ready.isSome then count else -1

structure Sent where
  frame : Block
  /-- the octets the socket has accepted -/
  accepted : List UInt8
  /-- `rs` at the end -/
  rs : Int
  /-- what the call returns -/
  report : Int

structure Received where
  /-- what was in the caller's buffer -/
  data : Block
  /-- the octets the socket has stored in front -/
  stored : List UInt8
  rs : Int
  report : Int

/-- `rs > 0 ? size : rs`, as an `int` -/
def sizeOr (size : Nat) (rs : Int) : Int := if 0 < rs then int32 size else rs

/-- `bcasoc_send` -/
def bcasocSend (port : Port) (soc : Bcasoc) (data : Block) (select : Select) (ready : Option Nat) :
    Sent × Bcasoc :=
  if soc.connected = false then (⟨data, [], duerErrFailed, duerErrFailed⟩, soc)
  else
    let size := data.bytes.length
    let (accepted, rs, soc) :=
      match select with
      | .set => (data.bytes.take (moved ready size), socketResult ready (moved ready size), soc)
      | .timeout =>
        match port with
        | .linux => ([], duerErrTransTimeout, soc)
        | .freeRtos => ([], duerErrTransWouldBlock, { soc with isSendBlock := true })
      | .interrupted => ([], -1, soc)
      | .failed => ([], duerErrTransInternalError, soc)
    (⟨data, accepted, rs, sizeOr size rs⟩, soc)

/-- The wait of `bcasoc_recv` and the `recv` of the socket: the octets stored, and `rs`. -/
def recvOctets (select : Select) (ready : Option Nat) (size : Nat) (arriving : List UInt8) :
    List UInt8 × Int :=
  match select with
  | .set =>
    let stored := arriving.take (moved ready size)
    (stored, socketResult ready stored.length)
  | .timeout => ([], duerErrTransWouldBlock)
  | .interrupted => ([], -1)
  | .failed => ([], duerErrTransInternalError)

/-- `bcasoc_recv`, with the octets that have arrived. -/
def bcasocRecv (port : Port) (soc : Bcasoc) (data : Block) (select : Select) (ready : Option Nat)
    (arriving : List UInt8) : Received × Bcasoc × List UInt8 :=
  if soc.connected = false then (⟨data, [], duerErrFailed, duerErrFailed⟩, soc, arriving)
  else
    let size := data.bytes.length
    let (stored, rs) := recvOctets select ready size arriving
    match port with
    | .linux =>
      (⟨data, stored, rs, rs⟩, if 0 < rs then { soc with checks := soc.checks + 1 } else soc,
        arriving.drop stored.length)
    | .freeRtos =>
      (⟨data, stored, rs, sizeOr size rs⟩, { soc with checks := soc.checks + 1 },
        arriving.drop stored.length)

/-- What the caller takes for the data received: so many octets of its buffer. -/
def Received.returned (r : Received) : List UInt8 :=
  (r.stored ++ r.data.bytes.drop r.stored.length).take r.report.toNat

/-- `duer_coap_nsdl_tx` reports the frame as sent: `retval` is not negative. -/
def Sent.Reported (s : Sent) : Prop := 0 ≤ s.report

/-! ## Runs -/

inductive Call where
  | send (data : Block) (select : Select) (ready : Option Nat)
  | recv (data : Block) (select : Select) (ready : Option Nat)

/-- A socket, what is still to arrive on it, and the calls so far. -/
structure Traffic where
  port : Port
  soc : Bcasoc
  arriving : List UInt8
  sent : List Sent
  received : List Received

def Traffic.call (t : Traffic) : Call → Traffic
  | .send data select ready =>
    let (s, soc) := bcasocSend t.port t.soc data select ready
    { t with soc, sent := t.sent ++ [s] }
  | .recv data select ready =>
    let (r, soc, arriving) := bcasocRecv t.port t.soc data select ready t.arriving
    { t with soc, arriving, received := t.received ++ [r] }

def Traffic.run (port : Port) (soc : Bcasoc) (arriving : List UInt8) (calls : List Call) :
    Traffic :=
  calls.foldl Traffic.call ⟨port, soc, arriving, [], []⟩

/-- **Every octet is accounted for**: each call reports the number it moved, a frame reported as
    sent was accepted as a whole, and the data returned are the octets that arrived. It compares
    what the calls have returned with what the socket has really done, and is asked of whole runs,
    so an octet lost in one call cannot be made up for in another. -/
structure Accounted (arrived : List UInt8) (t : Traffic) : Prop where
  sends : ∀ s ∈ t.sent, s.report.toNat = s.accepted.length
  frames : ∀ s ∈ t.sent, s.Reported → s.accepted = s.frame.bytes
  receives : ∀ r ∈ t.received, r.report.toNat = r.stored.length
  stream : t.received.flatMap Received.returned ++ t.arriving = arrived

/-- The socket takes a frame whole or fails, and on FreeRTOS it fills the request or gives
    nothing. -/
structure Whole (t : Traffic) : Prop where
  sends : ∀ s ∈ t.sent, s.rs < 0 ∨ s.rs = s.frame.bytes.length
  receives : t.port = .freeRtos → ∀ r ∈ t.received, r.rs ≤ 0 ∨ r.rs = r.data.bytes.length

/-! ## A call -/

theorem sizeOr_of_nonpos {size : Nat} {rs : Int} (h : rs ≤ 0) : sizeOr size rs = rs :=
  if_neg (by omega)

/-- The size is a report of the count only where it is the count. -/
theorem sizeOr_toNat_iff {size count : Nat} (hpos : 0 < count) (hcount : count ≤ size)
    (hint : count < 2 ^ 31) (hsize : size < 2 ^ 32) :
    (sizeOr size count).toNat = count ↔ count = size := by
  rw [sizeOr, if_pos (by omega)]
  by_cases hsmall : size < 2 ^ 31
  · rw [int32_of_lt hsmall]
    omega
  · have hneg : int32 size = (size : Int) - 2 ^ 32 := by
      rw [int32, Int.bmod_def, Int.emod_eq_of_lt (by omega) (by omega), if_neg (by omega)]
      rfl
    rw [hneg]
    omega

structure Sent.Proper (s : Sent) : Prop where
  report : s.report = sizeOr s.frame.bytes.length s.rs
  accepted : s.accepted = s.frame.bytes.take s.rs.toNat
  rs_le : s.rs ≤ s.frame.bytes.length
  rs_lt : s.rs < 2 ^ 31

structure Received.Proper (port : Port) (r : Received) : Prop where
  report : r.report = match port with
    | .linux => r.rs
    | .freeRtos => sizeOr r.data.bytes.length r.rs
  stored : r.stored.length = r.rs.toNat
  rs_le : r.rs ≤ r.data.bytes.length
  rs_lt : r.rs < 2 ^ 31

theorem bcasocSend_proper (port : Port) (soc : Bcasoc) (data : Block) (select : Select)
    (ready : Option Nat) : (bcasocSend port soc data select ready).1.Proper := by
  have hfailed {rs : Int} (hrs : rs < 0) :
      (⟨data, [], rs, sizeOr data.bytes.length rs⟩ : Sent).Proper :=
    ⟨rfl, by simp [Int.toNat_of_nonpos (Int.le_of_lt hrs)], by simp only; omega,
      by simp only; omega⟩
  unfold bcasocSend
  split
  · exact hfailed (show duerErrFailed < 0 by decide)
  · cases select with
    | set =>
      cases ready with
      | none =>
        exact ⟨rfl, by simp [moved, socketResult], by simp [socketResult], by simp [socketResult]⟩
      | some n =>
        have hle : moved (some n) data.bytes.length ≤ data.bytes.length ∧
            moved (some n) data.bytes.length ≤ 2 ^ 31 - 1 := by
          simp only [moved]
          omega
        refine ⟨rfl, rfl, ?_, ?_⟩
        · simp only [socketResult, Option.isSome_some, if_true]
          omega
        · simp only [socketResult, Option.isSome_some, if_true]
          omega
    | timeout =>
      cases port with
      | linux => exact hfailed (by decide)
      | freeRtos => exact hfailed (by decide)
    | interrupted => exact hfailed (by decide)
    | failed => exact hfailed (by decide)

/-- The socket fails, or stores a piece of what has arrived. -/
theorem recvOctets_cases (select : Select) (ready : Option Nat) (size : Nat)
    (arriving : List UInt8) :
    ∃ stored rs, recvOctets select ready size arriving = (stored, rs) ∧ stored <+: arriving ∧
      (stored = [] ∧ rs < 0 ∨ rs = stored.length) ∧ stored.length ≤ size ∧
      stored.length < 2 ^ 31 := by
  cases select with
  | set =>
    refine ⟨_, _, rfl, List.take_prefix _ _, ?_, ?_, ?_⟩
    · cases ready with
      | none => exact .inl ⟨by simp [moved], by simp [socketResult]⟩
      | some n => exact .inr (by simp [socketResult])
    · simp only [List.length_take, moved]
      omega
    · simp only [List.length_take, moved]
      omega
  | timeout => exact ⟨[], _, rfl, List.nil_prefix, .inl ⟨rfl, by decide⟩, Nat.zero_le _, by simp⟩
  | interrupted =>
    exact ⟨[], _, rfl, List.nil_prefix, .inl ⟨rfl, by decide⟩, Nat.zero_le _, by simp⟩
  | failed => exact ⟨[], _, rfl, List.nil_prefix, .inl ⟨rfl, by decide⟩, Nat.zero_le _, by simp⟩

theorem bcasocRecv_proper (port : Port) (soc : Bcasoc) (data : Block) (select : Select)
    (ready : Option Nat) (arriving : List UInt8) :
    (bcasocRecv port soc data select ready arriving).1.Proper port ∧
      (bcasocRecv port soc data select ready arriving).1.stored ++
        (bcasocRecv port soc data select ready arriving).2.2 = arriving := by
  unfold bcasocRecv
  split
  · refine ⟨?_, rfl⟩
    cases port with
    | linux => exact ⟨rfl, rfl, by simp only [duerErrFailed]; omega, by simp [duerErrFailed]⟩
    | freeRtos => exact ⟨rfl, rfl, by simp only [duerErrFailed]; omega, by simp [duerErrFailed]⟩
  · obtain ⟨stored, rs, hcall, ⟨rest, hrest⟩, hrs, hsize, hint⟩ :=
      recvOctets_cases select ready data.bytes.length arriving
    have hstored : stored.length = rs.toNat := by
      rcases hrs with ⟨rfl, hneg⟩ | rfl
      · exact (Int.toNat_of_nonpos (Int.le_of_lt hneg)).symm
      · rfl
    have hdrop : stored ++ arriving.drop stored.length = arriving := by
      rw [← hrest, List.drop_left]
    simp only [hcall]
    cases port with
    | linux => exact ⟨⟨rfl, hstored, by simp only; omega, by simp only; omega⟩, hdrop⟩
    | freeRtos => exact ⟨⟨rfl, hstored, by simp only; omega, by simp only; omega⟩, hdrop⟩

/-! ## What a proper call accounts for -/

theorem Sent.Proper.accounted_iff {s : Sent} (h : s.Proper) :
    (s.report.toNat = s.accepted.length ∧ (s.Reported → s.accepted = s.frame.bytes)) ↔
      s.rs < 0 ∨ s.rs = s.frame.bytes.length := by
  have hfits := s.frame.fits
  have hle := h.rs_le
  have hlt := h.rs_lt
  rw [Sent.Reported, h.report, h.accepted, List.length_take]
  rcases Int.lt_trichotomy s.rs 0 with hneg | hzero | hpos
  -- an error
  · rw [sizeOr_of_nonpos (by omega)]
    exact iff_of_true ⟨by omega, fun hnot => by omega⟩ (.inl hneg)
  · rw [hzero, sizeOr_of_nonpos (by omega)]
    simp only [Int.toNat_zero, Nat.zero_min, List.take_zero, Int.le_refl, forall_const, true_and,
      Int.lt_irrefl, false_or]
    constructor
    · intro hnil
      rw [← hnil]
      rfl
    · intro hlen
      exact (List.eq_nil_of_length_eq_zero (by omega)).symm
  -- octets were moved
  · obtain ⟨count, hcount⟩ : ∃ count : Nat, s.rs = count := ⟨s.rs.toNat, by omega⟩
    rw [hcount] at hpos hle hlt ⊢
    have hiff : (sizeOr s.frame.bytes.length count).toNat = count ↔
        count = s.frame.bytes.length :=
      sizeOr_toNat_iff (by omega) (by omega) (by omega) hfits
    rw [Int.toNat_natCast, Nat.min_eq_left (by omega), hiff]
    constructor
    · rintro ⟨heq, -⟩
      exact .inr (by omega)
    · rintro (hnot | heq)
      · omega
      · refine ⟨by omega, fun _ => List.take_of_length_le (by omega)⟩

theorem Received.Proper.accounted_iff {port : Port} {r : Received} (h : r.Proper port) :
    r.report.toNat = r.stored.length ↔
      (port = .freeRtos → r.rs ≤ 0 ∨ r.rs = r.data.bytes.length) := by
  have hfits := r.data.fits
  have hle := h.rs_le
  have hlt := h.rs_lt
  rw [h.report, h.stored]
  cases port with
  | linux => simp
  | freeRtos =>
    simp only [forall_const]
    by_cases hpos : 0 < r.rs
    · obtain ⟨count, hcount⟩ : ∃ count : Nat, r.rs = count := ⟨r.rs.toNat, by omega⟩
      rw [hcount] at hpos hle hlt ⊢
      rw [Int.toNat_natCast, sizeOr_toNat_iff (by omega) (by omega) (by omega) hfits]
      omega
    · rw [sizeOr_of_nonpos (by omega)]
      exact iff_of_true rfl (.inl (by omega))

/-- Where the count is right the data returned are the octets stored. -/
theorem Received.returned_of_count {r : Received} (h : r.report.toNat = r.stored.length) :
    r.returned = r.stored := by
  rw [Received.returned, h, List.take_left]

/-! ## Runs -/

structure Traffic.Proper (arrived : List UInt8) (t : Traffic) : Prop where
  sent : ∀ s ∈ t.sent, s.Proper
  received : ∀ r ∈ t.received, r.Proper t.port
  stream : t.received.flatMap Received.stored ++ t.arriving = arrived

theorem Traffic.Proper.call {arrived : List UInt8} {t : Traffic} (h : t.Proper arrived)
    (c : Call) : (t.call c).Proper arrived := by
  cases c with
  | send data select ready =>
    refine ⟨fun s hs => ?_, h.received, h.stream⟩
    rcases List.mem_append.mp hs with hs | hs
    · exact h.sent s hs
    · obtain rfl := List.mem_singleton.mp hs
      exact bcasocSend_proper _ _ _ _ _
  | recv data select ready =>
    obtain ⟨hproper, hstream⟩ := bcasocRecv_proper t.port t.soc data select ready t.arriving
    refine ⟨h.sent, fun r hr => ?_, ?_⟩
    · rcases List.mem_append.mp hr with hr | hr
      · exact h.received r hr
      · obtain rfl := List.mem_singleton.mp hr
        exact hproper
    · have hbefore := h.stream
      rw [← hstream, ← List.append_assoc] at hbefore
      rw [← hbefore]
      simp [Traffic.call]

theorem Traffic.run_proper (port : Port) (soc : Bcasoc) (arriving : List UInt8)
    (calls : List Call) : (Traffic.run port soc arriving calls).Proper arriving := by
  have hrun : ∀ (calls : List Call) (t : Traffic), t.Proper arriving →
      (calls.foldl Traffic.call t).Proper arriving := by
    intro calls
    induction calls with
    | nil => exact fun t h => h
    | cons c calls ih => exact fun t h => ih (t.call c) (h.call c)
  exact hrun calls _ ⟨by simp, by simp, rfl⟩

/-- **The adapters account for every octet** of a run if and only if the socket takes each frame
    whole or not at all and, on FreeRTOS, fills each request or gives nothing. A socket promises
    neither of the two, so the condition is about luck and not about the caller. -/
theorem adapters_account_iff (port : Port) (soc : Bcasoc) (arriving : List UInt8)
    (calls : List Call) :
    Accounted arriving (Traffic.run port soc arriving calls) ↔
      Whole (Traffic.run port soc arriving calls) := by
  have hproper := Traffic.run_proper port soc arriving calls
  generalize Traffic.run port soc arriving calls = t at hproper
  constructor
  · intro h
    refine ⟨fun s hs => ?_, fun hport r hr => ?_⟩
    · exact (hproper.sent s hs).accounted_iff.mp ⟨h.sends s hs, h.frames s hs⟩
    · exact (hproper.received r hr).accounted_iff.mp (h.receives r hr) hport
  · intro h
    have hcounts : ∀ r ∈ t.received, r.report.toNat = r.stored.length := fun r hr =>
      (hproper.received r hr).accounted_iff.mpr fun hport => h.receives hport r hr
    refine ⟨fun s hs => ?_, fun s hs => ?_, hcounts, ?_⟩
    · exact ((hproper.sent s hs).accounted_iff.mpr (h.sends s hs)).1
    · exact ((hproper.sent s hs).accounted_iff.mpr (h.sends s hs)).2
    · rw [← hproper.stream]
      congr 1
      exact List.flatMap_congr fun r hr => Received.returned_of_count (hcounts r hr)

def shortSend : Traffic :=
  .run .linux ⟨true, false, 0⟩ [] [.send ⟨[1, 2, 3], by decide⟩ .set (some 2)]

/-- A request for three octets, of which one has arrived. -/
def shortRecv : Traffic :=
  .run .freeRtos ⟨true, false, 0⟩ [7] [.recv ⟨[0, 0, 0], by decide⟩ .set (some 3)]

/-- The frame is reported as sent, and the request as filled. -/
theorem adapters_short :
    shortSend.sent.map (fun s => (s.report.toNat, s.accepted)) = [(3, [1, 2])] ∧
    ¬Accounted [] shortSend ∧
    shortRecv.received.flatMap Received.returned = [7, 0, 0] ∧ ¬Accounted [7] shortRecv := by
  have hsent : shortSend.sent.map (fun s => (s.report.toNat, s.accepted)) = [(3, [1, 2])] := by
    decide +kernel
  have hreceived : shortRecv.received.flatMap Received.returned = [7, 0, 0] := by decide +kernel
  refine ⟨hsent, fun h => ?_, hreceived, fun h => ?_⟩
  · have hcounts : ∀ p ∈ shortSend.sent.map (fun s => (s.report.toNat, s.accepted)),
        p.1 = p.2.length := by
      intro p hp
      obtain ⟨s, hs, rfl⟩ := List.mem_map.mp hp
      exact h.sends s hs
    rw [hsent] at hcounts
    exact absurd (hcounts (3, [1, 2]) List.mem_cons_self) (by decide)
  · have hlen := congrArg List.length h.stream
    rw [List.length_append, hreceived] at hlen
    simp only [List.length_cons, List.length_nil] at hlen
    omega

end Net
end LightDuer
