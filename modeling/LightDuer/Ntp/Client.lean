import LightDuer.Lib.Bytes
import LightDuer.Lib.Loop
import Mathlib.Data.Nat.Find

/-!
# The time from a server

`duer_ntp_client` sends one packet and receives until something has come, or it has waited too long.
What `duer_trans_recv` returns is a sequence, an error or a datagram at a time, and so is the clock;
the arithmetic of `double` is a parameter. An overflow of a signed counter is undefined.

## What is parametric, and why

The time that is computed is a matter of `double` operations, of which nothing is needed but that
they are functions: whether a time comes from a complete reply does not depend on what it is. So
`Doubles` has the operations and no laws, and the counterexample is run with those of the machine. A
datagram is at most as long as the buffer, as `duer_trans_recv` was asked for no more; what is
behind its octets are the zeros the buffer was cleared to.

## The loop

The client goes on as long as the result is negative, adding 500 to `wait_time` each time and
comparing it with the timeout. `Reached` says of a call that it is made, in terms of the results
before it alone: each was an error, and left time to wait. `Whole` says of a result that it is a
reply of at least 48 octets, or an error at which the counter is still in the range of an `int`; a
timeout of about 2^31 takes it out of there.

The loop ends for any results, since an `int` cannot wait for ever (`exists_not_passes`), and
`settles_of_passes` leads every run to the first call that is not passed. What comes of that call
decides: a short datagram is a success like any other.
-/

set_option autoImplicit false

namespace LightDuer
namespace Ntp

open Lib

/-! ## The code -/

/-- `NtpTime` -/
structure NtpTime where
  coarse : Nat
  fine : Nat
deriving DecidableEq, Repr

/-- `DuerTime` -/
structure DuerTime where
  sec : Nat
  usec : Nat
deriving DecidableEq, Repr

/-- The arithmetic of `double`, and the conversions from integers and to a `uint32_t`. -/
structure Doubles (δ : Type) where
  ofInt : Int → δ
  add : δ → δ → δ
  sub : δ → δ → δ
  mul : δ → δ → δ
  div : δ → δ → δ
  toU32 : δ → Nat

/-- `JAN_1970` -/
def jan1970 : Nat := 0x83aa7e80

/-- `NTPFRAC` -/
def ntpfrac (x : Nat) : Nat := u32 (4294 * x + u32 (1981 * x) / 2 ^ 11)

/-- `USEC` -/
def usec (x : Nat) : Nat := subU32 (x / 2 ^ 12) (u32 (759 * (u32 (x / 2 ^ 10 + 32768) / 2 ^ 16)))

/-- `ntp_get_current_time`, at this timestamp. -/
def ntpGetCurrentTime (ts : Nat) : NtpTime := ⟨ts / 1000, ntpfrac (ts % 1000 * 1000)⟩

section Code

variable {δ : Type} (double : Doubles δ)

/-- `1.e6` -/
def Doubles.million : δ := double.ofInt 1000000

/-- `ntp_diff` -/
def ntpDiff (start stop : NtpTime) : δ :=
  let a := int32 ((stop.coarse : Int) - start.coarse)
  let carry := decide (stop.fine < start.fine)
  let a := if carry then int32 (a - 1) else a
  let b := if carry then 2 ^ 32 - 1 - (start.fine - stop.fine) else stop.fine - start.fine
  double.add (double.mul (double.ofInt a) double.million)
    (double.mul (double.ofInt b) (double.div double.million (double.ofInt 4294967296)))

/-- `ntp_set_time` -/
def ntpSetTime (newTime : NtpTime) (adjustTime : δ) : DuerTime :=
  let sec := subU32 newTime.coarse jan1970
  let usec := double.toU32 (double.add (double.ofInt (usec newTime.fine)) adjustTime)
  if 999999 < usec then
    ⟨u32 (sec + 1), double.toU32 (double.sub (double.ofInt usec) double.million)⟩
  else ⟨sec, usec⟩

/-- `duer_ntohl(data[i])` -/
def word (data : List UInt8) (i : Nat) : Nat := ofBe32 (data.drop (4 * i))

/-- `ntp_rfc1305_calc_set`, less the fields that only the log shows. -/
def ntpRfc1305CalcSet (data : List UInt8) (arrival : NtpTime) : Int × DuerTime :=
  let orgtime := ⟨word data 6, word data 7⟩
  let rectime := ⟨word data 8, word data 9⟩
  let xmttime := ⟨word data 10, word data 11⟩
  let elTime := ntpDiff double orgtime arrival
  let stTime := ntpDiff double rectime xmttime
  let adjustTime := double.div (double.sub elTime stTime) (double.ofInt 2)
  (0, ntpSetTime double xmttime adjustTime)

/-- The packet of `ntp_send_packet`. -/
def ntpPacket (ts : Nat) : List UInt8 :=
  let timeSent := ntpGetCurrentTime ts
  be32 0x1b0004fa ++ be32 (2 ^ 16) ++ be32 (2 ^ 16) ++ List.replicate 28 0 ++
    be32 timeSent.coarse ++ be32 timeSent.fine

/-- `sizeof(incoming_data)` -/
abbrev incomingSize : Nat := 1300

/-- What `duer_trans_recv` puts into `incoming_data`. -/
structure Datagram where
  bytes : List UInt8
  le : bytes.length ≤ incomingSize

/-- What `duer_trans_recv` returns: an error, which is negative, or the length of a datagram. -/
inductive Recv where
  | failed (n : Nat)
  | received (d : Datagram)

namespace Recv

def ret : Recv → Int
  | failed n => Int.negSucc n
  | received d => d.bytes.length

end Recv

theorem Datagram.le_buffer (d : Datagram) : 0 + d.bytes.length ≤ incomingSize := by
  rw [Nat.zero_add]
  exact d.le

/-- `incoming_data`, zeros before the datagram came. -/
def incomingData (d : Datagram) : List UInt8 :=
  ((Buffer.fill incomingSize 0).write 0 d.bytes d.le_buffer).bytes

/-- How a call ends: what it returns, what it has put into `result_time`, and how often it has
    called `duer_trans_recv`. -/
inductive Outcome where
  | returned (ret : Int) (resultTime : Option DuerTime) (recvs : Nat)
  | overflow

variable (recv : Nat → Recv) (clock : Nat → Nat)

/-- The loop of `duer_ntp_client`, before the call `i` of `duer_trans_recv`. -/
def recvLoop (timeout : Int) : Nat → Nat → Int → Option Outcome
  | 0, _, _ => none
  | fuel + 1, i, waitTime =>
    match recv i with
    | .failed n =>
        let waitTime := waitTime + 500
        if 2 ^ 31 ≤ waitTime then some .overflow
        else if timeout < waitTime then some (.returned (Recv.failed n).ret none (i + 1))
        else recvLoop timeout fuel (i + 1) waitTime
    | .received d =>
        let r := ntpRfc1305CalcSet double (incomingData d) (ntpGetCurrentTime (clock i))
        some (.returned r.1 (some r.2) (i + 1))

/-- `duer_ntp_client`: `send` is what `duer_trans_send` returns for the packet. -/
def duerNtpClient (ts : Nat) (send : List UInt8 → Int) (timeout : Int) (fuel : Nat) :
    Option Outcome :=
  if send (ntpPacket ts) ≠ 48 then some (.returned (-1) none 0)
  else
    let timeout := if timeout = 0 then 2000 else timeout
    recvLoop double recv clock timeout fuel 0 0

end Code

/-! ## What is promised -/

section Promise

variable {δ : Type} (double : Doubles δ) (recv : Nat → Recv) (clock : Nat → Nat)

/-- **A time comes from a complete reply**: one of the datagrams that were received has all 48
    octets, and the time is that of its octets alone. A reply that is shorter leaves octets of the
    request in the buffer, and these must not be taken for a time. -/
def Complete : Outcome → Prop
  | .returned ret resultTime recvs => ret = 0 → ∃ i d, i < recvs ∧ recv i = .received d ∧
      48 ≤ d.bytes.length ∧
        resultTime = some (ntpRfc1305CalcSet double d.bytes (ntpGetCurrentTime (clock i))).2
  | .overflow => False

/-- Before the call `i`, each call has failed and left time to wait. -/
def Reached (timeout : Int) (i : Nat) : Prop :=
  ∀ j < i, (∃ n, recv j = .failed n) ∧ 500 * ((j : Int) + 1) ≤ timeout

/-- What a call returns is an error with a time to wait that an `int` holds, or a whole reply. -/
def Whole (i : Nat) : Prop :=
  match recv i with
  | .failed _ => 500 * ((i : Int) + 1) < 2 ^ 31
  | .received d => 48 ≤ d.bytes.length

end Promise

/-! ## What is read -/

/-- In a whole reply, each word is one of the reply. -/
theorem word_incomingData {d : Datagram} (h : 48 ≤ d.bytes.length) {i : Nat} (hi : i < 12) :
    word (incomingData d) i = word d.bytes i := by
  have hdata : incomingData d =
      d.bytes ++ (Buffer.fill incomingSize 0).bytes.drop (0 + d.bytes.length) := rfl
  rw [word, word, hdata, List.drop_append_of_le_length (by omega)]
  exact ofBe32_append (by rw [List.length_drop]; omega) _

theorem calcSet_incomingData {δ : Type} (double : Doubles δ) {d : Datagram}
    (h : 48 ≤ d.bytes.length) (arrival : NtpTime) :
    ntpRfc1305CalcSet double (incomingData d) arrival =
      ntpRfc1305CalcSet double d.bytes arrival := by
  have hword : ∀ i, i < 12 → word (incomingData d) i = word d.bytes i :=
    fun i hi => word_incomingData h hi
  simp only [ntpRfc1305CalcSet, hword 6 (by decide), hword 7 (by decide), hword 8 (by decide),
    hword 9 (by decide), hword 10 (by decide), hword 11 (by decide)]

/-! ## The loop -/

section Loop

variable {δ : Type} {double : Doubles δ} {recv : Nat → Recv} {clock : Nat → Nat} {timeout : Int}

/-- The call `i` fails, and the loop goes on. -/
def Passes (recv : Nat → Recv) (timeout : Int) (i : Nat) : Prop :=
  (∃ n, recv i = .failed n) ∧ 500 * ((i : Int) + 1) ≤ timeout ∧ 500 * ((i : Int) + 1) < 2 ^ 31

/-- The loop after `i` calls that have failed. -/
def loopAt (double : Doubles δ) (recv : Nat → Recv) (clock : Nat → Nat) (timeout : Int)
    (fuel i : Nat) : Option Outcome :=
  recvLoop double recv clock timeout fuel i (500 * i)

theorem loopAt_round {i : Nat} (h : Passes recv timeout i) :
    Round (loopAt double recv clock timeout) i (i + 1) := by
  intro fuel
  obtain ⟨⟨n, hn⟩, htime, hlt⟩ := h
  have hwait : 500 * (i : Int) + 500 = 500 * ((i : Int) + 1) := by omega
  rw [loopAt, recvLoop, hn]
  simp only [hwait]
  rw [if_neg (by omega), if_neg (by omega)]
  rfl

theorem loopAt_received {i : Nat} {d : Datagram} (h : recv i = .received d) :
    Settles (fun fuel => loopAt double recv clock timeout fuel i) (some (.returned 0
      (some (ntpRfc1305CalcSet double (incomingData d) (ntpGetCurrentTime (clock i))).2)
      (i + 1))) := by
  refine .of_succ (.of_forall fun fuel => ?_)
  rw [loopAt, recvLoop, h]
  rfl

theorem loopAt_overflow {i n : Nat} (h : recv i = .failed n)
    (hover : 2 ^ 31 ≤ 500 * ((i : Int) + 1)) :
    Settles (fun fuel => loopAt double recv clock timeout fuel i) (some .overflow) := by
  refine .of_succ (.of_forall fun fuel => ?_)
  rw [loopAt, recvLoop, h]
  exact if_pos (by omega)

theorem loopAt_late {i n : Nat} (h : recv i = .failed n) (hlt : 500 * ((i : Int) + 1) < 2 ^ 31)
    (hlate : timeout < 500 * ((i : Int) + 1)) :
    Settles (fun fuel => loopAt double recv clock timeout fuel i)
      (some (.returned (Int.negSucc n) none (i + 1))) := by
  refine .of_succ (.of_forall fun fuel => ?_)
  rw [loopAt, recvLoop, h]
  exact (if_neg (by omega)).trans (if_pos (by omega))

/-- What comes of the loop is what comes of it after the calls that it passes. -/
theorem settles_of_passes {N : Nat} {r : Option Outcome} (h : ∀ j < N, Passes recv timeout j)
    (hr : Settles (fun fuel => loopAt double recv clock timeout fuel N) r) :
    Settles (fun fuel => loopAt double recv clock timeout fuel 0) r := by
  induction N with
  | zero => exact hr
  | succ N ih =>
    have hround : Round (loopAt double recv clock timeout) N (N + 1) :=
      loopAt_round (h N (Nat.lt_succ_self N))
    exact ih (fun j hj => h j (Nat.lt_succ_of_lt hj)) (hround.settles hr)

/-- Some call is not passed: an `int` cannot wait for ever. -/
theorem exists_not_passes (recv : Nat → Recv) (timeout : Int) :
    ∃ N, ¬Passes recv timeout N ∧ ∀ j < N, Passes recv timeout j := by
  classical
  have hex : ∃ N, ¬Passes recv timeout N := ⟨4294968, fun h => absurd h.2.2 (by decide)⟩
  exact ⟨Nat.find hex, Nat.find_spec hex, fun j hj => Classical.not_not.mp (Nat.find_min hex hj)⟩

/-- Where the loop ends at the call `N`, it reaches whole results if it ends with one. -/
theorem reached_whole {N : Nat} (hpasses : ∀ j < N, Passes recv timeout j)
    (hlast : ∀ n, recv N = .failed n → timeout < 500 * ((N : Int) + 1)) :
    (∀ i, Reached recv timeout i → Whole recv i) ↔ Whole recv N := by
  constructor
  · exact fun h => h N fun j hj => ⟨(hpasses j hj).1, (hpasses j hj).2.1⟩
  · intro hN i hi
    rcases Nat.lt_trichotomy i N with hlt | rfl | hgt
    · obtain ⟨⟨n, hn⟩, -, hwait⟩ := hpasses i hlt
      rw [Whole, hn]
      exact hwait
    · exact hN
    · -- a call behind the last one is not reached
      obtain ⟨⟨n, hn⟩, htime⟩ := hi N hgt
      have hlate := hlast n hn
      omega

/-- **The loop ends**, with a complete reply or an error where all that it reaches is whole. What it
    has waited is an `int` that grows with every round, so one number of rounds is enough whatever
    is received. -/
theorem loop_ends (double : Doubles δ) (recv : Nat → Recv) (clock : Nat → Nat) (timeout : Int) :
    ∃ r, Settles (fun fuel => loopAt double recv clock timeout fuel 0) (some r) ∧
      (Complete double recv clock r ↔ ∀ i, Reached recv timeout i → Whole recv i) := by
  obtain ⟨N, hnot, hpasses⟩ := exists_not_passes recv timeout
  cases hrecv : recv N with
  | received d =>
    refine ⟨_, settles_of_passes hpasses (loopAt_received hrecv), ?_⟩
    rw [reached_whole hpasses fun n hn => absurd (hrecv.symm.trans hn) (by simp), Whole, hrecv]
    constructor
    · intro hcomplete
      obtain ⟨i, d', hi, hd', hwhole, -⟩ := hcomplete rfl
      -- in front of `N` nothing was received
      rcases Nat.lt_or_eq_of_le (Nat.le_of_lt_succ hi) with hlt | rfl
      · obtain ⟨⟨n, hn⟩, -⟩ := hpasses i hlt
        exact absurd (hn.symm.trans hd') (by simp)
      · obtain rfl := Recv.received.inj (hrecv.symm.trans hd')
        exact hwhole
    · intro hwhole _
      exact ⟨N, d, Nat.lt_succ_self N, hrecv, hwhole, by rw [calcSet_incomingData double hwhole]⟩
  | failed n =>
    by_cases hover : 2 ^ 31 ≤ 500 * ((N : Int) + 1)
    · refine ⟨_, settles_of_passes hpasses (loopAt_overflow hrecv hover), iff_of_false id ?_⟩
      intro hall
      have hwhole := hall N fun j hj => ⟨(hpasses j hj).1, (hpasses j hj).2.1⟩
      rw [Whole, hrecv] at hwhole
      exact absurd hwhole (Int.not_lt.mpr hover)
    · have hlate : timeout < 500 * ((N : Int) + 1) := by
        by_contra htime
        exact hnot ⟨⟨n, hrecv⟩, by omega, by omega⟩
      refine ⟨_, settles_of_passes hpasses (loopAt_late hrecv (by omega) hlate), iff_of_true ?_ ?_⟩
      · exact fun hzero => absurd hzero (by simp)
      · rw [reached_whole hpasses fun _ _ => hlate, Whole, hrecv]
        exact Int.not_le.mp hover

end Loop

/-- **A time comes only from a complete reply** in a call of `duer_ntp_client` exactly where the
    packet was not sent, or each result that the loop reaches is whole. -/
theorem complete_iff {δ : Type} (double : Doubles δ) (recv : Nat → Recv) (clock : Nat → Nat)
    (ts : Nat) (send : List UInt8 → Int) (timeout : Int) :
    (∃ r, Settles (duerNtpClient double recv clock ts send timeout) (some r) ∧
        Complete double recv clock r) ↔
      send (ntpPacket ts) ≠ 48 ∨
        ∀ i, Reached recv (if timeout = 0 then 2000 else timeout) i → Whole recv i := by
  by_cases hsent : send (ntpPacket ts) = 48
  · obtain ⟨r, hr, hcomplete⟩ :=
      loop_ends double recv clock (if timeout = 0 then 2000 else timeout)
    have hclient : Settles (duerNtpClient double recv clock ts send timeout) (some r) := by
      obtain ⟨M, hM⟩ := hr
      refine ⟨M, fun fuel hfuel => ?_⟩
      rw [duerNtpClient, if_neg (not_not.mpr hsent)]
      exact hM fuel hfuel
    refine Iff.trans ⟨?_, fun h => ⟨r, hclient, h⟩⟩ (hcomplete.trans (by simp [hsent]))
    rintro ⟨r', hr', h⟩
    obtain rfl := Option.some.inj (hclient.unique hr')
    exact h
  · refine iff_of_true ⟨.returned (-1) none 0, ?_, fun hzero => absurd hzero (by decide)⟩
      (.inl hsent)
    exact .of_forall fun fuel => if_pos hsent

/-- Four octets of a reply. -/
def shortReply : List UInt8 := [0x24, 1, 0, 0xe9]

theorem shortReply_le : shortReply.length ≤ incomingSize := by decide

/-- The arithmetic of the machine. -/
def machine : Doubles Float :=
  ⟨Float.ofInt, Float.add, Float.sub, Float.mul, Float.div, fun x => x.toUInt32.toNat⟩

/-- They make a time. -/
theorem not_complete_short :
    ∃ time, Settles (duerNtpClient machine (fun _ => .received ⟨shortReply, shortReply_le⟩)
        (fun _ => 0) 0 (fun _ => 48) 0) (some (.returned 0 (some time) 1)) ∧
      ¬Complete machine (fun _ => .received ⟨shortReply, shortReply_le⟩) (fun _ => 0)
        (.returned 0 (some time) 1) := by
  refine ⟨_, .of_succ (.of_forall fun fuel => rfl), ?_⟩
  intro hcomplete
  obtain ⟨i, d, -, hd, hwhole, -⟩ := hcomplete rfl
  obtain rfl := Recv.received.inj hd
  exact absurd hwhole (by decide)

end Ntp
end LightDuer
