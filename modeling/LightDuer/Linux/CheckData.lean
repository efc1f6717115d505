import LightDuer.Lib.Transition
import LightDuer.Linux.Layers

/-!
# Waking up for received data on Linux

Two threads receive on a started connection. The socket thread runs `bcasoc_check_data` events: each
blocks in `select` until the socket is readable and then posts one data-available event
(`duer_data_available`). The engine thread runs these: each is one call of `duer_coap_recv`, which
receives one message at most, and each successful `recv` of it on the socket posts the next
`bcasoc_check_data` event (`bcasoc_timer_expired` in `bcasoc_recv`). Octets that the TLS layer has
decrypted already wake nobody up.

The model follows a connection as long as it is started: the socket does not fail, posting an event
does not fail, and the CoAP library accepts the messages it is handed.

## Who wakes whom

`FrameLeft` in a `Quiet` state is what must not be: a complete frame is there, in the socket or in
the layer above it, and nothing is going to read it before more arrives. The invariant says where
the next wake-up comes from. Either one is on its way, since a `bcasoc_check_data` event is queued
or in `select`, or a data-available event is queued for what the socket has; or an event runs that
has yet to read the socket, and its `recv` will post the next.

## What the guard is for

A wake-up looks at the socket only. What a record has left in the layer above it is read by the same
event or by nobody, so the guard asks that an event reads the record it is in to its end
(`ReadsOut`). Over plain TCP there are no records, and every event does. Over TLS two frames in one
record are enough: the second waits until something else arrives (`left_behind`).
-/

set_option autoImplicit false

namespace LightDuer
namespace Linux

open Lib Net

/-! ## The two threads -/

/-- Where the engine thread is in `duer_coap_recv`: it receives the header of a message, or a
    message of that many octets. -/
inductive Phase where
  | header
  | body (size : Nat)
deriving DecidableEq, Repr

/-- How many octets it asks for. -/
def Phase.size : Phase → Nat
  | .header => duerSizeofTcpheader
  | .body size => size

/-- What follows the receive call that has given these octets. -/
def Phase.next : Phase → List UInt8 → Option Phase
  | .header, got =>
      let size := ofBe32 (got.drop 4)
      if got.length ≠ 8 ∨ ofBe32 got ≠ duerCoapTcpHdr ∨ duerBufferSize < size then none
      else some (.body size)
  | .body _, _ => none

/-- What it hands to the CoAP library. -/
def Phase.message : Phase → List UInt8 → Option (List UInt8)
  | .header, _ => none
  | .body _, got => if got = [] then none else some got

structure Sys (σ : Type) where
  /-- octets received by the kernel and not yet read -/
  sock : List UInt8
  /-- the transport above the socket -/
  layer : σ
  /-- `bcasoc_check_data` events in the queue of the socket thread -/
  checks : Nat
  /-- the socket thread is in `select` -/
  selecting : Bool
  /-- data-available events in the queue of the engine thread -/
  available : Nat
  /-- the data-available event that is running -/
  run : Option Phase
  /-- the messages handed to the CoAP library -/
  handed : List (List UInt8)

inductive Act where
  /-- octets arrive -/
  | arrive (octets : List UInt8)
  /-- the socket thread takes an event and enters `select` -/
  | select
  /-- `select` returns -/
  | readable
  /-- the engine thread takes an event -/
  | take
  /-- a `recv` on the socket brings `n` octets; after a record without octets the receive call may
      return -/
  | recv (n : Nat) (returns : Bool)
  /-- a `recv` on the socket brings none, and the receive call returns -/
  | recvNone
  /-- the receive call returns with octets of the transport -/
  | give

variable {σ : Type} (layer : Layer σ)

/-- One step of a thread or of the network. -/
def step (s : Sys σ) : Act → Option (Sys σ)
  | .arrive octets => some { s with sock := s.sock ++ octets }
  | .select =>
      if 0 < s.checks ∧ s.selecting = false then
        some { s with checks := s.checks - 1, selecting := true }
      else none
  | .readable =>
      if s.selecting = true ∧ s.sock ≠ [] then
        some { s with selecting := false, available := s.available + 1 }
      else none
  | .take =>
      if s.run = none ∧ 0 < s.available then
        some { s with available := s.available - 1, run := some .header }
      else none
  | .recv n returns =>
      match s.run with
      | none => none
      | some phase =>
        if layer.inHand s.layer = [] ∧ 0 < n ∧ n ≤ layer.want s.layer phase.size ∧
            n ≤ s.sock.length then
          let after := layer.fetch s.layer (s.sock.take n)
          if returns = true ∧ layer.blank after = false then none
          else some { s with
            sock := s.sock.drop n, layer := after, checks := s.checks + 1
            run := if returns then none else some phase }
        else none
  | .recvNone =>
      match s.run with
      | none => none
      | some phase =>
        if layer.inHand s.layer = [] ∧ (s.sock = [] ∨ layer.want s.layer phase.size = 0) then
          some { s with run := none }
        else none
  | .give =>
      match s.run with
      | none => none
      | some phase =>
        if layer.inHand s.layer = [] then none
        else
          let got := (layer.inHand s.layer).take phase.size
          some { s with
            layer := layer.give s.layer phase.size
            run := phase.next got
            handed := s.handed ++ (phase.message got).toList }

namespace Sys

variable {layer : Layer σ} (s : Sys σ)

/-- A wake-up is on its way: a `bcasoc_check_data` event is queued or in `select`, or a
    data-available event is queued for the octets in the socket. -/
def Armed : Prop := 0 < s.checks ∨ s.selecting = true ∨ (0 < s.available ∧ s.sock ≠ [])

/-- A started connection between two events: nothing decrypted is left over, and a wake-up is on
    its way, as `bcasoc_connect` has posted one and each `recv` since posts another. -/
def Started (layer : Layer σ) (s : Sys σ) : Prop :=
  s.run = none ∧ layer.inHand s.layer = [] ∧ s.Armed

/-- No data-available event is queued or running, and every `bcasoc_check_data` event is blocked in
    `select` on an empty socket. -/
def Quiet : Prop :=
  s.available = 0 ∧ s.run = none ∧ (0 < s.checks → s.selecting = true) ∧
    (s.selecting = true → s.sock = [])

/-- A complete frame has not been processed, in the socket or in the layer above it. -/
def FrameLeft (layer : Layer σ) (s : Sys σ) : Prop :=
  ∃ (before message after : List UInt8), layer.unread s.layer s.sock =
    before ++ (be32 duerCoapTcpHdr ++ be32 message.length ++ message) ++ after

end Sys

/-- A data-available event that ends with this step leaves nothing of the current record behind: the
    receive call asks for all that is left of it. -/
def ReadsOut (s : Sys σ) (a : Act) : Prop :=
  a = .give → ∀ phase, s.run = some phase →
    phase.next ((layer.inHand s.layer).take phase.size) = none →
    (layer.inHand s.layer).length ≤ phase.size

/-! ## The invariant -/

/-- While an event runs that has not read the socket yet, this one will; at any other time a wake-up
    is on its way. Between two events nothing decrypted is left over. -/
structure Sys.Inv (layer : Layer σ) (s : Sys σ) : Prop where
  armed : s.Armed ∨ (s.sock ≠ [] ∧ s.run = some .header ∧ layer.inHand s.layer = [])
  readOut : s.run = none → layer.inHand s.layer = []

section Inv

variable {layer : Layer σ} {s s' : Sys σ}

theorem Sys.Inv.started (h : Sys.Started layer s) : s.Inv layer :=
  ⟨.inl h.2.2, fun _ => h.2.1⟩

theorem Sys.Inv.arrive (hi : s.Inv layer) (octets : List UInt8) :
    Sys.Inv layer { s with sock := s.sock ++ octets } := by
  have hsock (h : s.sock ≠ []) : s.sock ++ octets ≠ [] := by
    intro hnil
    exact h (List.append_eq_nil_iff.mp hnil).1
  refine ⟨?_, hi.readOut⟩
  rcases hi.armed with (h | h | ⟨h, hne⟩) | ⟨hne, hrun, hhand⟩
  · exact .inl (.inl h)
  · exact .inl (.inr (.inl h))
  · exact .inl (.inr (.inr ⟨h, hsock hne⟩))
  · exact .inr ⟨hsock hne, hrun, hhand⟩

/-- A `recv` that brings octets posts the next event. -/
theorem Sys.Inv.of_recv {phase : Phase} {sock : List UInt8} {after : σ}
    {returns : Bool} (hblank : returns = true → layer.inHand after = []) :
    Sys.Inv layer { s with
      sock, layer := after, checks := s.checks + 1
      run := if returns then none else some phase } := by
  refine ⟨.inl (.inl (Nat.succ_pos _)), fun hrun => hblank ?_⟩
  cases returns with
  | true => rfl
  | false => exact absurd hrun (by simp)

/-- **One step keeps the invariant**, where an event that ends leaves nothing behind. Arrivals
    cannot hurt it; a `select` that returns hands its wake-up on to the data-available event that it
    posts; and a `recv` posts the next one. -/
theorem Sys.Inv.step {a : Act} (hi : s.Inv layer) (hg : ReadsOut layer s a)
    (h : Linux.step layer s a = some s') : s'.Inv layer := by
  cases a with
  | arrive octets =>
    obtain rfl := Option.some.inj h
    exact hi.arrive octets
  | select =>
    simp only [Linux.step] at h
    split at h
    · obtain rfl := Option.some.inj h
      exact ⟨.inl (.inr (.inl rfl)), hi.readOut⟩
    · exact absurd h (by simp)
  | readable =>
    simp only [Linux.step] at h
    split at h
    · rename_i he
      obtain rfl := Option.some.inj h
      exact ⟨.inl (.inr (.inr ⟨Nat.succ_pos _, he.2⟩)), hi.readOut⟩
    · exact absurd h (by simp)
  | take =>
    simp only [Linux.step] at h
    split at h
    · rename_i he
      obtain rfl := Option.some.inj h
      obtain ⟨hrun, hpos⟩ := he
      refine ⟨?_, fun hrun => absurd hrun (by simp)⟩
      rcases hi.armed with (h | h | ⟨-, hne⟩) | ⟨-, hheader, -⟩
      · exact .inl (.inl h)
      · exact .inl (.inr (.inl h))
      · exact .inr ⟨hne, rfl, hi.readOut hrun⟩
      · exact absurd (hrun.symm.trans hheader) (by simp)
    · exact absurd h (by simp)
  | recv n returns =>
    simp only [Linux.step] at h
    split at h
    · exact absurd h (by simp)
    · split at h
      · split at h
        · exact absurd h (by simp)
        · rename_i hret
          obtain rfl := Option.some.inj h
          refine .of_recv fun hreturns => layer.inHand_of_blank _ ?_
          by_contra hblank
          exact hret ⟨hreturns, Bool.eq_false_iff.mpr hblank⟩
      · exact absurd h (by simp)
  | recvNone =>
    simp only [Linux.step] at h
    split at h
    · exact absurd h (by simp)
    · rename_i phase hrun
      split at h
      · rename_i he
        obtain rfl := Option.some.inj h
        obtain ⟨hhand, hnone⟩ := he
        refine ⟨.inl ?_, fun _ => hhand⟩
        rcases hi.armed with harmed | ⟨hne, hheader, -⟩
        · exact harmed
        · -- the socket has octets, and the header is asked for
          obtain rfl := Option.some.inj (hrun.symm.trans hheader)
          have hwant := layer.want_pos s.layer duerSizeofTcpheader (by decide)
          rcases hnone with hnil | hzero
          · exact absurd hnil hne
          · exact absurd hzero (Nat.ne_of_gt hwant)
      · exact absurd h (by simp)
  | give =>
    simp only [Linux.step] at h
    split at h
    · exact absurd h (by simp)
    · rename_i phase hrun
      split at h
      · exact absurd h (by simp)
      · rename_i hhand
        obtain rfl := Option.some.inj h
        refine ⟨.inl ?_, fun hends => ?_⟩
        · rcases hi.armed with harmed | ⟨-, -, hnil⟩
          · exact harmed
          · exact absurd hnil hhand
        · have hle := hg rfl phase hrun hends
          rw [layer.inHand_give, List.drop_eq_nil_of_le hle]

/-- With the invariant, nothing is unread in a quiet state. -/
theorem Sys.Inv.unread (hi : s.Inv layer) (hq : s.Quiet) : layer.unread s.layer s.sock = [] := by
  obtain ⟨hnone, hrun, hchecks, hempty⟩ := hq
  have hselecting : s.selecting = true := by
    rcases hi.armed with (h | h | ⟨h, -⟩) | ⟨-, hheader, -⟩
    · exact hchecks h
    · exact h
    · omega
    · exact absurd (hrun.symm.trans hheader) (by simp)
  rw [hempty hselecting, layer.unread_nil, hi.readOut hrun]

end Inv

/-! ## Runs -/

/-- In a run whose events leave nothing behind, nothing is unread in a quiet state. -/
theorem quiet_unread {s : Sys σ}
    (h : ReachableBy (Sys.Started layer) (step layer) (ReadsOut layer) s) (hq : s.Quiet) :
    layer.unread s.layer s.sock = [] :=
  (h.invariant (Sys.Inv layer) .started fun hi hg hs => hi.step hg hs).unread hq

theorem not_frameLeft_of_unread {s : Sys σ} (h : layer.unread s.layer s.sock = []) :
    ¬ s.FrameLeft layer := by
  rintro ⟨before, message, after, hunread⟩
  have hlen := congrArg List.length (h.symm.trans hunread)
  simp only [List.length_append, List.length_nil, be32_length] at hlen
  omega

/-- **No received message is left waiting**, over plain TCP or TLS and in every order of steps, as
    long as each data-available event reads the record it is in to its end. The layer between socket
    and messages is a parameter, so the theorem is one for both. -/
theorem no_frame_left {s : Sys σ}
    (h : ReachableBy (Sys.Started layer) (step layer) (ReadsOut layer) s) (hq : s.Quiet) :
    ¬ s.FrameLeft layer :=
  not_frameLeft_of_unread layer (quiet_unread layer h hq)

/-! ### Plain TCP -/

/-- What a `recv` has brought is no more than the call in which it was made asks for. -/
structure Taken (s : Sys (List UInt8)) : Prop where
  idle : s.run = none → s.layer = []
  running : ∀ phase, s.run = some phase → s.layer.length ≤ phase.size

theorem Taken.readsOut {s : Sys (List UInt8)} (h : Taken s) (a : Act) : ReadsOut plain s a :=
  fun _ phase hrun _ => h.running phase hrun

theorem Taken.step {s s' : Sys (List UInt8)} {a : Act} (ht : Taken s)
    (h : Linux.step plain s a = some s') : Taken s' := by
  cases a with
  | arrive octets =>
    obtain rfl := Option.some.inj h
    exact ⟨ht.idle, ht.running⟩
  | select =>
    simp only [Linux.step] at h
    split at h
    · obtain rfl := Option.some.inj h
      exact ⟨ht.idle, ht.running⟩
    · exact absurd h (by simp)
  | readable =>
    simp only [Linux.step] at h
    split at h
    · obtain rfl := Option.some.inj h
      exact ⟨ht.idle, ht.running⟩
    · exact absurd h (by simp)
  | take =>
    simp only [Linux.step] at h
    split at h
    · rename_i he
      obtain rfl := Option.some.inj h
      refine ⟨fun hrun => absurd hrun (by simp), fun phase _ => ?_⟩
      rw [ht.idle he.1]
      exact Nat.zero_le _
    · exact absurd h (by simp)
  | recv n returns =>
    simp only [Linux.step] at h
    split at h
    · exact absurd h (by simp)
    · rename_i phase hrun
      split at h
      · rename_i he
        obtain ⟨hhand, -, hwant, -⟩ := he
        split at h
        · exact absurd h (by simp)
        · rename_i hret
          obtain rfl := Option.some.inj h
          cases returns with
          | true => exact absurd ⟨rfl, rfl⟩ hret
          | false =>
            refine ⟨fun hrun => absurd hrun (by simp), fun phase' hrun' => ?_⟩
            obtain rfl := Option.some.inj hrun'
            have hnil : s.layer = [] := hhand
            have hle : n ≤ phase.size := hwant
            show (s.layer ++ s.sock.take n).length ≤ phase.size
            rw [hnil, List.nil_append, List.length_take]
            omega
      · exact absurd h (by simp)
  | recvNone =>
    simp only [Linux.step] at h
    split at h
    · exact absurd h (by simp)
    · split at h
      · rename_i he
        obtain rfl := Option.some.inj h
        exact ⟨fun _ => he.1, fun phase hrun => absurd hrun (by simp)⟩
      · exact absurd h (by simp)
  | give =>
    simp only [Linux.step] at h
    split at h
    · exact absurd h (by simp)
    · rename_i phase hrun
      split at h
      · exact absurd h (by simp)
      · obtain rfl := Option.some.inj h
        have hnil : s.layer.drop phase.size = [] :=
          List.drop_eq_nil_of_le (ht.running phase hrun)
        refine ⟨fun _ => hnil, fun phase' _ => ?_⟩
        show (s.layer.drop phase.size).length ≤ phase'.size
        rw [hnil]
        exact Nat.zero_le _

/-- Over plain TCP every event reads what it has received. -/
theorem plain_readsOut {s : Sys (List UInt8)}
    (h : Reachable (Sys.Started plain) (step plain) s) :
    ReachableBy (Sys.Started plain) (step plain) (ReadsOut plain) s ∧ Taken s := by
  induction h with
  | start hs => exact ⟨.start hs, fun _ => hs.2.1, fun phase hrun => by simp [hs.1] at hrun⟩
  | next _ _ hs ih => exact ⟨ih.1.next (ih.2.readsOut _) hs, ih.2.step hs⟩

/-- **Over plain TCP no received message is left waiting**, in any run: there are no records, and
    what a `recv` brings is no more than the call asks for. -/
theorem plain_no_frame_left {s : Sys (List UInt8)}
    (h : Reachable (Sys.Started plain) (step plain) s) (hq : s.Quiet) : ¬ s.FrameLeft plain :=
  not_frameLeft_of_unread plain (quiet_unread plain (plain_readsOut h).1 hq)

/-! ### TLS -/

/-- Where an event ends with a frame left of the record, nothing in the socket and no other event
    queued, the frame stays there until more arrives: at most the socket thread has yet to block. -/
theorem left_behind {s : Sys σ} (hrun : s.run = none) (havailable : s.available = 0)
    (hsock : s.sock = []) (hleft : s.FrameLeft layer) :
    ∃ as s', runFrom (step layer) s as = some s' ∧ s'.Quiet ∧ s'.FrameLeft layer := by
  by_cases hblock : 0 < s.checks ∧ s.selecting = false
  · refine ⟨[.select], { s with checks := s.checks - 1, selecting := true }, ?_, ?_, hleft⟩
    · simp only [runFrom, step, if_pos hblock]
      rfl
    · exact ⟨havailable, hrun, fun _ => rfl, fun _ => hsock⟩
  · refine ⟨[], s, rfl, ⟨havailable, hrun, fun hpos => ?_, fun _ => hsock⟩, hleft⟩
    by_contra hselecting
    exact hblock ⟨hpos, by simpa using hselecting⟩

/-- A connection over TLS after `bcasoc_connect`, with a cipher suite that does not encrypt. -/
def connected : Sys TlsState where
  sock := []
  layer := ⟨[], [], unfinished_nil⟩
  checks := 1
  selecting := false
  available := 0
  run := none
  handed := []

/-- Its records. -/
def clear : Layer TlsState := tls fun record => record.drop 5

theorem connected_started : connected.Started clear := ⟨rfl, rfl, .inl (by decide)⟩

/-- A record of application data. -/
def record (data : List UInt8) : List UInt8 := [23, 3, 3, 0, UInt8.ofNat data.length] ++ data

/-- The frame of a message of one octet. -/
def frameOf (octet : UInt8) : List UInt8 := be32 duerCoapTcpHdr ++ be32 1 ++ [octet]

/-- The same connection in a data-available event, with `current` left of a record. -/
def reading (current : List UInt8) (run : Option Phase) (handed : List (List UInt8)) :
    Sys TlsState where
  sock := []
  layer := ⟨current, [], unfinished_nil⟩
  checks := 2
  selecting := false
  available := 0
  run := run
  handed := handed

/-- A record of one frame. -/
theorem no_frame_left_one_record :
    ∃ s, ReachableBy (Sys.Started clear) (step clear) (ReadsOut clear) s ∧ s.handed = [[1]] ∧
      s.Quiet ∧ ¬ s.FrameLeft clear := by
  have h₁ : ReachableBy (Sys.Started clear) (step clear) (ReadsOut clear)
      (reading (frameOf 1) (some .header) []) := by
    refine ReachableBy.of_runFrom [.arrive (record (frameOf 1)), .select, .readable, .take,
      .recv 5 false, .recv 9 false] (.start connected_started) ?_ rfl
    exact ⟨nofun, nofun, nofun, nofun, nofun, nofun, trivial⟩
  have h₂ : ReachableBy (Sys.Started clear) (step clear) (ReadsOut clear)
      (reading [1] (some (.body 1)) []) := by
    refine h₁.next (a := .give) (fun _ phase hphase hends => ?_) rfl
    obtain rfl := Option.some.inj hphase
    exact absurd hends (by decide)
  have h₃ : ReachableBy (Sys.Started clear) (step clear) (ReadsOut clear)
      (reading [] none [[1]]) := by
    refine h₂.next (a := .give) (fun _ phase hphase _ => ?_) rfl
    obtain rfl := Option.some.inj hphase
    exact Nat.le_refl 1
  have h₄ := h₃.next (a := .select) nofun rfl
  have hquiet : Sys.Quiet { reading [] none [[1]] with checks := 1, selecting := true } :=
    ⟨rfl, rfl, fun _ => rfl, fun _ => rfl⟩
  exact ⟨_, h₄, rfl, hquiet, no_frame_left clear h₄ hquiet⟩

/-- **Two frames in one record**: the first is handed over, the second is left in the TLS layer with
    no data-available event to come, and the socket thread blocked on an empty socket. -/
theorem frame_left_in_record :
    ∃ s, Reachable (Sys.Started clear) (step clear) s ∧ s.handed = [[1]] ∧ s.Quiet ∧
      s.FrameLeft clear := by
  obtain ⟨s, hrun, hhanded, hquiet, hleft⟩ : ∃ s, runFrom (step clear) connected
      [.arrive (record (frameOf 1 ++ frameOf 2)), .select, .readable, .take,
        .recv 5 false, .recv 18 false, .give, .give, .select] = some s ∧
      s.handed = [[1]] ∧ s.Quiet ∧ s.FrameLeft clear :=
    ⟨_, rfl, rfl, ⟨rfl, rfl, fun _ => rfl, fun _ => rfl⟩, [], [2], [], rfl⟩
  exact ⟨s, reachable_of_runFrom _ (.start connected_started) hrun, hhanded, hquiet, hleft⟩

end Linux
end LightDuer
