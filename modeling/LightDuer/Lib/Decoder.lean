import Mathlib.Data.List.Basic
import Mathlib.Tactic.Common

/-!
# Streaming decoders

A decoder that is called again and again with the input at hand and a window for its output, as the
inflate of zlib is. It takes some of the input, fills some of the window and gives a code; `Streams`
says when it is a correct one: what it has written is fixed by what it has been fed, however the
input was cut and however small the windows were.

## Why a structure of laws

A program that uses such a decoder is correct for any that keeps its contract, so the decoder is a
parameter and the contract its hypotheses. `Decoder` has what holds by the types alone: a call
leaves a suffix of its input and does not write behind its window. `Streams` is the contract proper.
It is stated with a relation `Rep` between a state and its history, since the state of a real
decoder holds input that it has taken and not used, and output that it has no room for.

The last clause is the one that loops depend on. A call that does not fill its window has taken all
of the input and has nothing more to give; a caller that goes on exactly while the window is full
therefore gets everything. `run_room` and `run_full` are the two cases in the form in which an
induction over the calls uses them.

`Valid` are the inputs that the contract speaks of. It is closed under prefixes, so that the input
may be stopped anywhere; on other inputs nothing is promised.
-/

set_option autoImplicit false

namespace Lib

/-- What a call of a decoder gives: its code, the input left, the output, the next state. -/
structure Decoded (State α β : Type) where
  ret : Int
  rest : List α
  out : List β
  state : State

/-- A decoder from `α` to `β`. What it leaves of an input is the end of it, and it never writes more
    than the window has room for; these two hold of every call, also on input that it refuses. -/
structure Decoder (α β : Type) where
  State : Type
  init : State
  /-- A call with the input at hand and the size of the window. -/
  run : State → List α → Nat → Decoded State α β
  rest_suffix : ∀ st input avail, (run st input avail).rest <:+ input
  out_le : ∀ st input avail, (run st input avail).out.length ≤ avail

namespace Decoder

variable {α β : Type}

/-- A correct streaming decoder. On the inputs in `Valid`, which may be stopped anywhere,
    `data` is what they decode to, `Rep st fed emitted` says that `st` has been fed and has
    emitted so much, and no call gives a `failed` code. A call takes a part of the input. It
    leaves room in the window only if it has taken all of it and has nothing more to emit. -/
structure Streams (d : Decoder α β) (failed : Int → Prop) (Valid : List α → Prop)
    (data : List α → List β) (Rep : d.State → List α → List β → Prop) : Prop where
  valid_of_part : ∀ {a b}, a <+: b → Valid b → Valid a
  data_nil : data [] = []
  data_mono : ∀ {a b}, a <+: b → Valid b → data a <+: data b
  init : Rep d.init [] []
  emitted_part : ∀ {st fed emitted}, Rep st fed emitted → Valid fed → emitted <+: data fed
  run : ∀ {st fed emitted input avail}, Rep st fed emitted → Valid (fed ++ input) → 0 < avail →
    ∃ used, input = used ++ (d.run st input avail).rest ∧
      Rep (d.run st input avail).state (fed ++ used) (emitted ++ (d.run st input avail).out) ∧
      ¬failed (d.run st input avail).ret ∧
      ((d.run st input avail).out.length < avail →
        (d.run st input avail).rest = [] ∧
          emitted ++ (d.run st input avail).out = data (fed ++ used))

namespace Streams

variable {d : Decoder α β} {failed : Int → Prop} {Valid : List α → Prop}
  {data : List α → List β} {Rep : d.State → List α → List β → Prop}

/-- What has been emitted is a part of what the input decodes to. -/
theorem emitted_part_data (h : d.Streams failed Valid data Rep) {st : d.State}
    {fed more : List α} {emitted : List β} (hrep : Rep st fed emitted)
    (hvalid : Valid (fed ++ more)) : emitted <+: data (fed ++ more) := by
  have hpre : fed <+: fed ++ more := List.prefix_append fed more
  exact (h.emitted_part hrep (h.valid_of_part hpre hvalid)).trans (h.data_mono hpre hvalid)

/-- A call that fills its window: it can be repeated with the input left. -/
theorem run_full (h : d.Streams failed Valid data Rep) {st : d.State} {fed input : List α}
    {emitted : List β} {avail : Nat} (hrep : Rep st fed emitted)
    (hvalid : Valid (fed ++ input)) (havail : 0 < avail) :
    ∃ used, fed ++ input = (fed ++ used) ++ (d.run st input avail).rest ∧
      Rep (d.run st input avail).state (fed ++ used)
        (emitted ++ (d.run st input avail).out) := by
  obtain ⟨used, hused, hrep', -, -⟩ := h.run hrep hvalid havail
  refine ⟨used, ?_, hrep'⟩
  rw [List.append_assoc, ← hused]

/-- A call that leaves room has decoded all of the input. -/
theorem run_room (h : d.Streams failed Valid data Rep) {st : d.State} {fed input : List α}
    {emitted : List β} {avail : Nat} (hrep : Rep st fed emitted)
    (hvalid : Valid (fed ++ input)) (hroom : (d.run st input avail).out.length < avail) :
    emitted ++ (d.run st input avail).out = data (fed ++ input) ∧
      Rep (d.run st input avail).state (fed ++ input) (data (fed ++ input)) := by
  obtain ⟨used, hused, hrep', -, hdone⟩ := h.run hrep hvalid (Nat.zero_lt_of_lt hroom)
  obtain ⟨hrest, hall⟩ := hdone hroom
  rw [hrest, List.append_nil] at hused
  subst hused
  exact ⟨hall, hall ▸ hrep'⟩

theorem run_not_failed (h : d.Streams failed Valid data Rep) {st : d.State}
    {fed input : List α} {emitted : List β} {avail : Nat} (hrep : Rep st fed emitted)
    (hvalid : Valid (fed ++ input)) (havail : 0 < avail) :
    ¬failed (d.run st input avail).ret := by
  obtain ⟨-, -, -, hret, -⟩ := h.run hrep hvalid havail
  exact hret

end Streams

end Decoder

end Lib
