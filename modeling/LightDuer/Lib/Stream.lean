import LightDuer.Lib.Bytes

/-!
# Segmented byte streams

A stream socket hands out the bytes of one stream in pieces of its own choosing: each call blocks,
fails, or gives at least one and at most the requested number of the next bytes. A `Source` carries
what is still to come and one result per future call, so quantifying over all sources quantifies
over all segmentations.

A result that is a count says how many octets the call may give. It is cut to what was asked for and
to what there is, and a call that is left with none blocks; so every list of results is a behaviour
of a socket, and no hypothesis has to exclude an impossible one. `recv_cases` is all that most
proofs need to know of a call.

## Progress

`Enough` says that the results to come grant as many octets as the stream still has, at one octet
for each at least. It is the hypothesis of a statement that everything arrives in the end, kept by
every call that asks for something (`Enough.recv`), and `Enough.stream_eq_nil` is what it comes to:
when no result is left, the stream has been taken whole.

## Framing

The second half is about items on the stream: `within len items n` are the items that lie wholly
inside its first `n` octets, the reference against which a receiver is judged. A receiver that has
handed over exactly these has lost none, made none up and handed over none before it was complete.
-/

set_option autoImplicit false

namespace Lib

/-- Why a receive call gave nothing. -/
inductive RecvError where
  | wouldBlock | closed | failed
deriving DecidableEq, Repr

/-- A byte stream together with what each future receive call does: an error, or up to
    that many octets. -/
structure Source where
  stream : List UInt8
  results : List (Except RecvError Nat)

namespace Source

/-- One receive call. A count is cut to what was asked for and to what there is; where that
    leaves nothing, and where no result is left, the call would block. -/
def recv (src : Source) (size : Nat) : Except RecvError (List UInt8) × Source :=
  match src.results with
  | [] => (.error .wouldBlock, src)
  | .error e :: rest => (.error e, { src with results := rest })
  | .ok k :: rest =>
      let n := min k (min size src.stream.length)
      if n = 0 then (.error .wouldBlock, { src with results := rest })
      else (.ok (src.stream.take n), { stream := src.stream.drop n, results := rest })

/-- **What one call can do**: give nothing and leave the stream alone, or split a non-empty piece of
    at most the requested size off it. Where the cuts fall is up to the results that the stream has;
    nothing else is known of them. -/
theorem recv_cases (src : Source) (size : Nat) :
    (∃ e, src.recv size = (.error e, { src with results := src.results.tail })) ∨
    (∃ got rest, got ≠ [] ∧ got.length ≤ size ∧ src.stream = got ++ rest ∧
      src.recv size = (.ok got, { stream := rest, results := src.results.tail })) := by
  obtain ⟨stream, results⟩ := src
  cases results with
  | nil => exact .inl ⟨.wouldBlock, rfl⟩
  | cons r rest =>
    cases r with
    | error e => exact .inl ⟨e, rfl⟩
    | ok k =>
      by_cases hn : min k (min size stream.length) = 0
      · exact .inl ⟨.wouldBlock, by simp [recv, hn]⟩
      · refine .inr ⟨stream.take (min k (min size stream.length)),
          stream.drop (min k (min size stream.length)), ?_, ?_, ?_, ?_⟩
        · intro hnil
          have hlen := congrArg List.length hnil
          simp only [List.length_take, List.length_nil] at hlen
          omega
        · simp only [List.length_take]
          omega
        · exact (List.take_append_drop _ _).symm
        · simp only [recv, if_neg hn, List.tail_cons]

/-- A call whose result grants octets, of a stream that has some. -/
theorem recv_grant {src : Source} {k size : Nat} {rest : List (Except RecvError Nat)}
    (hr : src.results = .ok k :: rest) (hn : min k (min size src.stream.length) ≠ 0) :
    src.recv size = (.ok (src.stream.take (min k (min size src.stream.length))),
      { stream := src.stream.drop (min k (min size src.stream.length)), results := rest }) := by
  simp only [recv, hr, if_neg hn]

/-- How many octets a result lets through. -/
def granted : Except RecvError Nat → Nat
  | .error _ => 0
  | .ok k => k

/-- A result that gives nothing. -/
def idle (r : Except RecvError Nat) : Bool := granted r == 0

theorem recv_idle {src : Source} (h : ∀ r ∈ src.results.head?, idle r = true) (size : Nat) :
    ∃ e, src.recv size = (.error e, { src with results := src.results.tail }) := by
  obtain ⟨stream, results⟩ := src
  cases results with
  | nil => exact ⟨.wouldBlock, rfl⟩
  | cons r rest =>
    cases r with
    | error e => exact ⟨e, rfl⟩
    | ok k =>
      obtain rfl : k = 0 := by simpa [idle, granted] using h
      exact ⟨.wouldBlock, by simp [recv]⟩

/-- A next result that is not idle grants octets. -/
theorem exists_grant {results : List (Except RecvError Nat)}
    (h : ¬ ∀ r ∈ results.head?, idle r = true) : ∃ k rest, results = .ok k :: rest ∧ 0 < k := by
  cases results with
  | nil => exact absurd (by simp) h
  | cons r rest =>
    cases r with
    | error e => exact absurd (by simp [idle, granted]) h
    | ok k => exact ⟨k, rest, rfl, Nat.pos_of_ne_zero (by simpa [idle, granted] using h)⟩

theorem recv_results (src : Source) (size : Nat) :
    (src.recv size).2.results = src.results.tail := by
  rcases src.recv_cases size with ⟨e, he⟩ | ⟨got, rest, -, -, -, hrecv⟩
  · rw [he]
  · rw [hrecv]

/-! ### Progress -/

/-- How many of the results to come give at least one octet when there is one. -/
def grants : List (Except RecvError Nat) → Nat
  | [] => 0
  | .error _ :: rest => grants rest
  | .ok k :: rest => (if 0 < k then 1 else 0) + grants rest

/-- The results to come suffice for the rest of the stream. -/
def Enough (src : Source) : Prop :=
  src.stream.length ≤ grants src.results

theorem Enough.recv {src : Source} {size : Nat} (hsize : 0 < size) (h : src.Enough) :
    (src.recv size).2.Enough := by
  obtain ⟨stream, results⟩ := src
  cases results with
  | nil => exact h
  | cons r rest =>
    cases r with
    | error e => exact h
    | ok k =>
      simp only [Enough, grants] at h
      simp only [Source.recv, Enough]
      split
      · rename_i hn
        split at h <;> simp only <;> omega
      · simp only [List.length_drop]
        split at h <;> omega

/-- One or more receive calls for at least one octet each. -/
inductive Advance : Source → Source → Prop where
  | one {src : Source} {size : Nat} : 0 < size → Advance src (src.recv size).2
  | more {src mid : Source} {size : Nat} : Advance src mid → 0 < size →
      Advance src (mid.recv size).2

theorem Advance.enough {src src' : Source} (h : Advance src src') (he : src.Enough) :
    src'.Enough := by
  induction h with
  | one hsize => exact he.recv hsize
  | more _ hsize ih => exact ih.recv hsize

theorem Advance.results_length {src src' : Source} (h : Advance src src') :
    src'.results.length ≤ src.results.length - 1 := by
  induction h with
  | one _ => exact Nat.le_of_eq (by rw [recv_results, List.length_tail])
  | more _ _ ih =>
    rw [recv_results, List.length_tail]
    omega

/-- With enough grants and no result left, the stream has been taken whole. -/
theorem Enough.stream_eq_nil {src : Source} (h : src.Enough) (hr : src.results = []) :
    src.stream = [] := by
  rw [Enough, hr] at h
  exact List.eq_nil_of_length_eq_zero (Nat.le_zero.mp h)

end Source

/-! ## Items inside a prefix of the stream -/

/-- The items that lie wholly inside the first `n` octets, when each item takes `len` of it. -/
def within {α : Type} (len : α → Nat) : List α → Nat → List α
  | [], _ => []
  | x :: xs, n => if len x ≤ n then x :: within len xs (n - len x) else []

section within

variable {α : Type} (len : α → Nat)

/-- Octets up to inside the first remaining item: exactly the items before it. -/
theorem within_append {done : List α} {x : α} {rest : List α} {held : Nat} (h : held < len x) :
    within len (done ++ x :: rest) ((done.map len).sum + held) = done := by
  induction done with
  | nil => simp [within]; omega
  | cons d ds ih =>
    simp only [List.cons_append, within, List.map_cons, List.sum_cons]
    rw [if_pos (by omega)]
    congr 1
    rwa [show len d + (ds.map len).sum + held - len d = (ds.map len).sum + held by omega]

/-- All octets: all items. -/
theorem within_all (items : List α) : within len items (items.map len).sum = items := by
  induction items with
  | nil => rfl
  | cons x xs ih =>
    simp only [within, List.map_cons, List.sum_cons, Nat.add_sub_cancel_left, ih]
    rw [if_pos (by omega)]

end within

end Lib
