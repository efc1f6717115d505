import LightDuer.Lib.Bytes

/-!
# Cutting a sequence into frames

`frames n` are the complete frames of `n` items a sequence starts with and `rest n` is what they
leave. A framer that is fed piece by piece keeps the rest and goes on from it: `frames_append` and
`rest_append` say that the cuts of the feed do not show.

Both are defined by arithmetic on the length and not by recursion, so that they can be evaluated and
compared with code that counts. The recursion is given back by `frame_induction`: a sequence is
shorter than a frame, or it is a frame in front of a sequence. With `frames_frame_append` and
`rest_frame_append`, which say what either function does in the second case, an induction never
looks at a quotient.

## What the results are for

* `flatten_frames_append_rest`: no item is lost, repeated or moved.
* `frames_rest_append`: a framer in the state `rest n xs` that is fed `ys` gives the frames of `xs
  ++ ys` that it has not given yet, and comes to the state `rest n (xs ++ ys)`. This is the step of
  every proof by induction over the pieces that are fed.
* `padded`: the end of the feed, where the last frame is filled up. Its frames have the sequence and
  fewer than `n` items behind it (`flatten_padded`).

A frame length of zero is excluded where it matters, by `0 < n`.
-/

set_option autoImplicit false

namespace Lib
namespace Framing

variable {α : Type} {n : Nat}

/-- The complete frames of `n` items. -/
def frames (n : Nat) (xs : List α) : List (List α) :=
  (List.range (xs.length / n)).map fun i => (xs.drop (n * i)).take n

/-- What the complete frames leave. -/
def rest (n : Nat) (xs : List α) : List α := xs.drop (n * (xs.length / n))

/-- A frame that is filled up. -/
def pad (n : Nat) (a : α) (xs : List α) : List α := xs ++ List.replicate (n - xs.length) a

/-- All frames, with the last one filled up if it is not complete. -/
def padded (n : Nat) (a : α) (xs : List α) : List (List α) :=
  frames n xs ++ if rest n xs = [] then [] else [pad n a (rest n xs)]

theorem frames_of_lt {xs : List α} (h : xs.length < n) : frames n xs = [] := by
  simp [frames, Nat.div_eq_of_lt h]

theorem rest_of_lt {xs : List α} (h : xs.length < n) : rest n xs = xs := by
  simp [rest, Nat.div_eq_of_lt h]

@[simp] theorem frames_nil : frames n ([] : List α) = [] := by
  simp [frames]

@[simp] theorem rest_nil : rest n ([] : List α) = [] := by
  simp [rest]

/-- The first frame. -/
theorem frames_frame_append (hn : 0 < n) {f : List α} (hf : f.length = n) (xs : List α) :
    frames n (f ++ xs) = f :: frames n xs := by
  have hlen : (f ++ xs).length / n = xs.length / n + 1 := by
    rw [List.length_append, hf, Nat.add_comm, Nat.add_div_right _ hn]
  have hnext : ∀ i, (f ++ xs).drop (n * (i + 1)) = xs.drop (n * i) := by
    intro i
    rw [Nat.mul_succ, Nat.add_comm, ← List.drop_drop, List.drop_left' hf]
  rw [frames, hlen, List.range_succ_eq_map, List.map_cons, List.map_map]
  congr 1
  · rw [Nat.mul_zero, List.drop_zero, List.take_left' hf]
  · apply List.map_congr_left
    intro i _
    rw [Function.comp_apply, hnext]

theorem frames_of_length_eq (hn : 0 < n) {f : List α} (hf : f.length = n) : frames n f = [f] := by
  have h := frames_frame_append hn hf []
  rwa [List.append_nil, frames_nil] at h

theorem rest_frame_append (hn : 0 < n) {f : List α} (hf : f.length = n) (xs : List α) :
    rest n (f ++ xs) = rest n xs := by
  have hlen : (f ++ xs).length / n = xs.length / n + 1 := by
    rw [List.length_append, hf, Nat.add_comm, Nat.add_div_right _ hn]
  rw [rest, hlen, Nat.mul_succ, Nat.add_comm, ← List.drop_drop, List.drop_left' hf, rest]

theorem rest_length (n : Nat) (xs : List α) : (rest n xs).length = xs.length % n := by
  rw [rest, List.length_drop]
  have h := Nat.div_add_mod xs.length n
  omega

theorem rest_length_lt (hn : 0 < n) (xs : List α) : (rest n xs).length < n := by
  rw [rest_length]
  exact Nat.mod_lt _ hn

/-- A sequence is shorter than a frame, or a frame and a sequence. -/
theorem frame_induction (hn : 0 < n) {motive : List α → Prop}
    (short : ∀ xs, xs.length < n → motive xs)
    (frame : ∀ f xs, f.length = n → motive xs → motive (f ++ xs)) (xs : List α) : motive xs := by
  induction hlen : xs.length using Nat.strongRecOn generalizing xs with
  | ind k ih =>
    by_cases hk : xs.length < n
    · exact short xs hk
    · rw [← List.take_append_drop n xs]
      apply frame
      · rw [List.length_take]
        omega
      · refine ih (xs.drop n).length ?_ _ rfl
        rw [List.length_drop]
        omega

/-- No item is lost, repeated or moved. -/
theorem flatten_frames_append_rest (hn : 0 < n) (xs : List α) :
    (frames n xs).flatten ++ rest n xs = xs := by
  induction xs using frame_induction hn with
  | short xs h =>
    rw [frames_of_lt h, rest_of_lt h]
    rfl
  | frame f xs hf ih =>
    rw [frames_frame_append hn hf, rest_frame_append hn hf, List.flatten_cons, List.append_assoc,
      ih]

theorem length_of_mem_frames (hn : 0 < n) {f xs : List α} (h : f ∈ frames n xs) : f.length = n := by
  induction xs using frame_induction hn with
  | short xs hlt =>
    rw [frames_of_lt hlt] at h
    exact absurd h List.not_mem_nil
  | frame g xs hg ih =>
    rw [frames_frame_append hn hg] at h
    rcases List.mem_cons.mp h with rfl | hmem
    · exact hg
    · exact ih hmem

theorem length_of_mem_padded (hn : 0 < n) {a : α} {f xs : List α} (h : f ∈ padded n a xs) :
    f.length = n := by
  rcases List.mem_append.mp h with hmem | hmem
  · exact length_of_mem_frames hn hmem
  · split at hmem
    · exact absurd hmem List.not_mem_nil
    · rw [List.mem_singleton.mp hmem, pad, List.length_append, List.length_replicate]
      have hlt := rest_length_lt hn xs
      omega

/-- The frames have the sequence, and fewer than `n` items behind it. -/
theorem flatten_padded (hn : 0 < n) (a : α) (xs : List α) :
    ∃ k, k < n ∧ (padded n a xs).flatten = xs ++ List.replicate k a := by
  have hflat := flatten_frames_append_rest hn xs
  rw [padded, List.flatten_append]
  by_cases hrest : rest n xs = []
  · refine ⟨0, hn, ?_⟩
    rw [hrest, List.append_nil] at hflat
    rw [if_pos hrest, hflat]
    rfl
  · have hpos := List.length_pos_iff.mpr hrest
    refine ⟨n - (rest n xs).length, by omega, ?_⟩
    rw [if_neg hrest, List.flatten_singleton, pad, ← List.append_assoc, hflat]

/-- **A sequence that comes in two pieces**: the second is cut with the rest of the first before
    it. A program that keeps the rest between calls therefore cuts a sequence as it would in one
    piece. -/
theorem frames_rest_append (hn : 0 < n) (xs ys : List α) :
    frames n (xs ++ ys) = frames n xs ++ frames n (rest n xs ++ ys) ∧
      rest n (xs ++ ys) = rest n (rest n xs ++ ys) := by
  induction xs using frame_induction hn with
  | short xs h =>
    rw [frames_of_lt h, rest_of_lt h]
    exact ⟨rfl, rfl⟩
  | frame f xs hf ih =>
    rw [List.append_assoc, frames_frame_append hn hf, frames_frame_append hn hf,
      rest_frame_append hn hf, rest_frame_append hn hf, ih.1, ih.2]
    exact ⟨rfl, rfl⟩

theorem frames_append (hn : 0 < n) (xs ys : List α) :
    frames n (xs ++ ys) = frames n xs ++ frames n (rest n xs ++ ys) :=
  (frames_rest_append hn xs ys).1

theorem rest_append (hn : 0 < n) (xs ys : List α) :
    rest n (xs ++ ys) = rest n (rest n xs ++ ys) :=
  (frames_rest_append hn xs ys).2

end Framing
end Lib
