import LightDuer.Lib.Text
import LightDuer.Ota.Unpack

/-!
# Inflating a stored block

What zlib's inflate does with one compressed stream whose first block is stored and whose later
blocks are empty: two octets of the zlib header and five of the block, the octets stored, and a rest
that gives no output. Any other input is a data error.

The development takes inflate as a parameter, with the laws of a streaming decompressor. This is one
decoder that has them, simple enough to be run, and it does what inflate does on the streams the
examples use. `storedInflate_streams` proves the laws: on every part of its stream the output is
what the input taken so far stands for, however the stream is cut into calls and however much room
each output buffer has.

The package at the end is a header of zeros, meta data with one module of five octets, and the
module, all stored. Empty blocks can be put behind it without a change of what it says, so there are
packages of any length, also of those at which a counter of 32 bits wraps.
-/

set_option autoImplicit false

namespace LightDuer
namespace Ota

open Lib

/-- The octets in front of the stored ones. -/
def storedOffset : Nat := 7

section Stored

variable (whole : List UInt8) (size : Nat)

/-- The number of octets output once `pos` octets of the stream are taken. -/
def storedOut (pos : Nat) : Nat := min (pos - storedOffset) size

/-- What is stored. -/
def storedData : List UInt8 := (whole.drop storedOffset).take size

/-- What is taken of an input: all of it, if the output has room. -/
def storedUsed (pos : Nat) (input : List UInt8) (avail : Nat) : Nat :=
  if storedOut size (pos + input.length) - storedOut size pos ≤ avail then input.length
  else (storedOffset - pos) + avail

def storedRun (pos : Nat) (input : List UInt8) (avail : Nat) : Decoded Nat UInt8 UInt8 :=
  if input <+: whole.drop pos then
    let used := storedUsed size pos input avail
    { ret := if pos + used = whole.length then zStreamEnd else if used = 0 then -5 else 0
      rest := input.drop used
      out := ((storedData whole size).drop (storedOut size pos)).take
        (storedOut size (pos + used) - storedOut size pos)
      state := pos + used }
  else ⟨zDataError, input, [], pos⟩

theorem storedOut_used (pos : Nat) (input : List UInt8) (avail : Nat) :
    storedOut size (pos + storedUsed size pos input avail) - storedOut size pos ≤ avail := by
  unfold storedUsed storedOut
  split <;> omega

/-- inflate on the stream `whole`, which stores `size` octets. -/
def storedInflate : Decoder UInt8 UInt8 where
  State := Nat
  init := 0
  run := storedRun whole size
  rest_suffix pos input avail := by
    unfold storedRun
    split
    · exact List.drop_suffix _ _
    · exact List.suffix_refl _
  out_le pos input avail := by
    unfold storedRun
    split
    · exact Nat.le_trans (List.length_take_le _ _) (storedOut_used size pos input avail)
    · exact Nat.zero_le _

/-- What a part of the stream decodes to. -/
def storedDecode (fed : List UInt8) : List UInt8 := (fed.drop storedOffset).take size

variable {whole size}

theorem storedDecode_part {fed : List UInt8} (h : fed <+: whole) :
    storedDecode size fed = (storedData whole size).take (storedOut size fed.length) := by
  rw [storedDecode, storedData, storedOut, List.take_take, List.prefix_iff_eq_take.mp h,
    List.drop_take, List.take_take, List.length_take, Nat.min_eq_left h.length_le]
  congr 1
  omega

/-- What a call outputs is what the input it takes adds. -/
theorem storedDecode_append {fed used : List UInt8} (h : fed ++ used <+: whole) :
    storedDecode size (fed ++ used) = storedDecode size fed ++
      ((storedData whole size).drop (storedOut size fed.length)).take
        (storedOut size (fed.length + used.length) - storedOut size fed.length) := by
  rw [storedDecode_part h, storedDecode_part ((List.prefix_append _ _).trans h),
    List.length_append, ← List.take_add, Nat.add_sub_cancel']
  unfold storedOut
  omega

/-- **It is a correct streaming decompressor** on the parts of its stream: it never fails there,
    and takes and gives octets in order. So a law that is asked of inflate is one that some
    decoder has. -/
theorem storedInflate_streams (hsize : storedOffset + size ≤ whole.length) :
    (storedInflate whole size).Streams InflateFailed (· <+: whole) (storedDecode size)
      (fun pos fed emitted => fed.length = pos ∧ emitted = storedDecode size fed) where
  valid_of_part hab hb := hab.trans hb
  data_nil := by simp [storedDecode]
  data_mono := by
    intro a b hab _
    obtain ⟨rest, hrest⟩ := drop_isPrefix storedOffset hab
    rw [storedDecode, storedDecode, ← hrest, List.take_append]
    exact List.prefix_append _ _
  init := ⟨rfl, by simp [storedDecode]⟩
  emitted_part := by
    rintro pos fed emitted ⟨-, rfl⟩ -
    exact List.prefix_refl _
  run := by
    rintro pos fed emitted input avail ⟨rfl, rfl⟩ hvalid havail
    have hinput : input <+: whole.drop fed.length := by
      obtain ⟨rest, rfl⟩ := hvalid
      exact ⟨rest, by rw [List.append_assoc, List.drop_left]⟩
    have hlen := hvalid.length_le
    rw [List.length_append] at hlen
    generalize hused : storedUsed size fed.length input avail = used
    have hle : used ≤ input.length := by
      rw [← hused]
      unfold storedUsed storedOut
      split <;> omega
    have htake : (input.take used).length = used := by rw [List.length_take]; omega
    have hpart : fed ++ input.take used <+: whole :=
      (List.prefix_append_right_inj fed |>.mpr ( List.take_prefix _ _)).trans hvalid
    show ∃ taken, input = taken ++ (storedRun whole size fed.length input avail).rest ∧ _
    simp only [storedInflate, storedRun, if_pos hinput, hused]
    refine ⟨input.take used, (List.take_append_drop _ _).symm, ⟨?_, ?_⟩, ?_, fun hroom => ?_⟩
    · rw [List.length_append, htake]
    · rw [storedDecode_append hpart, htake]
    · split
      · decide
      · split <;> decide
    · have hall : used = input.length := by
        rw [List.length_take, List.length_drop, storedData, List.length_take,
          List.length_drop] at hroom
        by_cases hfit : storedOut size (fed.length + input.length) -
            storedOut size fed.length ≤ avail
        · rw [← hused, storedUsed, if_pos hfit]
        · rw [storedUsed, if_neg hfit] at hused
          unfold storedOut at hroom hfit
          omega
      refine ⟨by rw [hall, List.drop_length], ?_⟩
      rw [storedDecode_append hpart, htake]

end Stored

/-! ## A package -/

/-- Meta data with one module of five octets. -/
def sampleMetaData : List UInt8 :=
  ascii "\x7b\"inst_and_uninst_info\":\x7b\"module_list\":[" ++
    ascii "\x7b\"name\":\"a\",\"size\":\"5\",\"version\":\"1\"\x7d]\x7d\x7d"

def sampleParseMetaData (_ : List UInt8) (_ : Bool) : Option PackageMetaData :=
  some ⟨[], [⟨ascii "a", 5, ascii "1"⟩]⟩

/-- The meta data and the module, stored, with `empties` empty blocks behind. -/
def sampleStream (empties : Nat) : List UInt8 :=
  [0x18, 0x19, 0x00, 85, 0, 170, 255] ++ (sampleMetaData ++ ascii "hello") ++
    (List.replicate empties [0, 0, 0, 255, 255]).flatten ++
    [1, 0, 0, 255, 255, 0x25, 0x56, 0x1d, 0x74]

def samplePackage (empties : Nat) : List UInt8 :=
  List.replicate metaSizeOffset 0 ++ [80, 0, 0, 0, 0, 0, 0, 0] ++ sampleStream empties

theorem sampleStream_length (empties : Nat) :
    (sampleStream empties).length = 101 + 5 * empties := by
  have hmeta : sampleMetaData.length = 80 := by decide +kernel
  have hmodule : (ascii "hello").length = 5 := by decide
  simp only [sampleStream, List.length_append, hmeta, hmodule, List.length_flatten,
    List.map_replicate, List.sum_replicate_nat, List.length_cons, List.length_nil]
  omega

theorem samplePackage_length (empties : Nat) :
    (samplePackage empties).length = 381 + 5 * empties := by
  rw [samplePackage, List.length_append, sampleStream_length]
  simp only [metaSizeOffset, List.length_append, List.length_replicate, List.length_cons,
    List.length_nil]
  omega

theorem samplePackage_drop (empties : Nat) :
    (samplePackage empties).drop pckHeaderSz = sampleStream empties :=
  List.drop_left' (by rw [List.length_append, List.length_replicate]; rfl)

end Ota
end LightDuer
