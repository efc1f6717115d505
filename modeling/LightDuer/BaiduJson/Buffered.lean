import LightDuer.BaiduJson.RoundTrip

/-!
# Printing into a buffer

`baidu_json_PrintBuffered` (`baidu_json.c`) prints a tree into one buffer, which grows. It prints
what is printed without one (`printBuffered_eq`).

Nothing is computed before it is written here: every function asks `ensure` for room, writes behind
what is there, and leaves a NUL, and its caller finds the end of what has been written by looking
for the NUL (`update`). Two things can go wrong, and they are not the same (`Failure`):

* **undefined behaviour**: to write behind the buffer, to look for the end of a string that does not
  end in it, or to ask for a size that is no `int`;
* **no memory**: `malloc` gives `NULL`. Then `ensure` frees the buffer and forgets it, and from
  there on every function gives `NULL` without asking for memory again: the loops of `print_array`
  and `print_object` do not look at what `print_value` returns, but the next thing each of them does
  is to ask `ensure` for room. So a refusal ends the printing, and `NULL` is what comes of it.

The first must not happen whatever `malloc` does, the second only where it refuses. The proof does
not mix the two. `Printbuffer.At` and `Printbuffer.Wrote` are what holds of the buffer between two
calls, and everything about them is proved for a `malloc` that grants all (`Malloc.Granting`).
`Cut` then says that another `malloc` only cuts the same run short.
-/

set_option autoImplicit false

namespace LightDuer
namespace BaiduJson

open Lib
open Ota (Json CString)

/-! ## The buffer -/

/-- Why there is no text. -/
inductive Failure
  /-- `malloc` has given `NULL`, and so does the printer -/
  | noMemory
  | undefined
deriving DecidableEq

/-- What `malloc` gives: so many octets, whatever they are, or `NULL`; also for no octets. -/
structure Malloc where
  mem : Nat → Option (List UInt8)
  length_mem : ∀ n, ∀ octets ∈ mem n, octets.length = n

/-- `malloc` never gives `NULL`, not for a size of 0 either. -/
def Malloc.Granting (m : Malloc) : Prop := ∀ n, (m.mem n).isSome

/-- `printbuffer`; its `length` is that of `buffer`, which is not `NULL`. -/
structure Printbuffer where
  buffer : List UInt8
  offset : Nat

/-- `pow2gt` -/
def pow2gt (x : Nat) : Nat :=
  let x := x - 1
  let x := x ||| x >>> 1
  let x := x ||| x >>> 2
  let x := x ||| x >>> 4
  let x := x ||| x >>> 8
  let x := x ||| x >>> 16
  x + 1

section Buffer

variable (m : Malloc)

/-- `ensure` -/
def Printbuffer.ensure (p : Printbuffer) (needed : Nat) : Except Failure Printbuffer :=
  let needed := needed + p.offset
  if needed ≤ p.buffer.length then .ok p
  -- behind the last power of two that is an `int`
  else if 2 ^ 30 < needed then .error .undefined
  else
    match m.mem (pow2gt needed) with
    | none => .error .noMemory
    | some newbuffer => .ok { p with buffer := p.buffer ++ newbuffer.drop p.buffer.length }

/-- Octets written to where `ensure` points. -/
def Printbuffer.put (p : Printbuffer) (needed : Nat) (octets : List UInt8) :
    Except Failure Printbuffer := do
  let p ← p.ensure m needed
  if p.offset + octets.length ≤ p.buffer.length then
    .ok { p with
      buffer := p.buffer.take p.offset ++ octets ++ p.buffer.drop (p.offset + octets.length) }
  else .error .undefined

/-- `p->offset += len` -/
def Printbuffer.advance (p : Printbuffer) (len : Nat) : Printbuffer :=
  { p with offset := p.offset + len }

/-- `p->offset = update(p)` -/
def Printbuffer.update (p : Printbuffer) : Except Failure Printbuffer :=
  let str := p.buffer.drop p.offset
  if 0 ∈ str then .ok (p.advance (cString str).length) else .error .undefined

/-! ## Values -/

/-- `print_string_ptr` with a buffer -/
def Printbuffer.printStringPtr (p : Printbuffer) (str : CString) : Except Failure Printbuffer :=
  if str.bytes.any escaped then
    p.put m ((str.bytes.map fun c => 1 + escapeSize c).sum + 3)
      (34 :: str.bytes.flatMap printChar ++ [34, 0])
  else p.put m (str.strlen + 3) (34 :: str.bytes ++ [34, 0])

variable (D : Doubles) (fmt : Bool)

/-- `print_number` with a buffer -/
def Printbuffer.printNumber (p : Printbuffer) (valueint : Int) (d : Option ℚ) :
    Except Failure Printbuffer :=
  if d = some 0 then p.put m 2 [48, 0]
  else if isInt D valueint d then p.put m 21 (printInt valueint ++ [0])
  else p.put m 64 (D.write d ++ [0])

/-- The tabs in front of a member. -/
def Printbuffer.indent (p : Printbuffer) (depth : Nat) : Except Failure Printbuffer :=
  if fmt then (p.put m depth (tabs depth)).map (·.advance depth) else .ok p

/-- Two octets if the text is formatted, and one if it is not. -/
def oneOrTwo : Nat := if fmt then 2 else 1

mutual

/-- `print_value` with a buffer, and where the pointer is that it gives. -/
def Printbuffer.printValue : Nat → Json → Printbuffer → Except Failure (Printbuffer × Nat)
  | _, .null, p => (p.put m 5 (ascii "null" ++ [0])).map (·, p.offset)
  | _, .bool false, p => (p.put m 6 (ascii "false" ++ [0])).map (·, p.offset)
  | _, .bool true, p => (p.put m 5 (ascii "true" ++ [0])).map (·, p.offset)
  | _, .number valueint valuedouble, p =>
      (p.printNumber m D valueint valuedouble).map (·, p.offset)
  | _, .string s, p => (p.printStringPtr m s).map (·, p.offset)
  | _, .array [], p => (p.put m 3 (ascii "[]" ++ [0])).map (·, p.offset)
  | depth, .array (item :: items), p => do
      let i := p.offset
      let p ← p.put m 1 [91]
      let p ← Printbuffer.printItems (depth + 1) (item :: items) (p.advance 1)
      let p ← p.put m 2 [93, 0]
      .ok (p, i)
  | depth, .object [], p =>
      (p.put m (if fmt then depth + 4 else 3)
        (123 :: whenFmt fmt (10 :: tabs depth) ++ [125, 0])).map (·, p.offset)
  | depth, .object (item :: items), p => do
      let i := p.offset
      let p ← p.put m (oneOrTwo fmt + 1) (123 :: whenFmt fmt [10] ++ [0])
      let p ← Printbuffer.printMembers (depth + 1) (item :: items) (p.advance (oneOrTwo fmt))
      let p ← p.put m (if fmt then depth + 2 else 2) (whenFmt fmt (tabs depth) ++ [125, 0])
      -- the tabs in front of the brace are counted in `i`
      .ok (p, if fmt then depth else i)

/-- The loop of `print_array` with a buffer. -/
def Printbuffer.printItems : Nat → List Json → Printbuffer → Except Failure Printbuffer
  | _, [], p => .ok p
  | depth, item :: items, p => do
      let (p, _) ← Printbuffer.printValue depth item p
      let p ← p.update
      if items.isEmpty then .ok p
      else
        let p ← p.put m (oneOrTwo fmt + 1) (44 :: whenFmt fmt [32] ++ [0])
        Printbuffer.printItems depth items (p.advance (oneOrTwo fmt))

/-- The loop of `print_object` with a buffer. -/
def Printbuffer.printMembers :
    Nat → List (CString × Json) → Printbuffer → Except Failure Printbuffer
  | _, [], p => .ok p
  | depth, (name, item) :: items, p => do
      let p ← p.indent m fmt depth
      let p ← p.printStringPtr m name
      let p ← p.update
      let p ← p.put m (oneOrTwo fmt) (58 :: whenFmt fmt [9])
      let (p, _) ← Printbuffer.printValue depth item (p.advance (oneOrTwo fmt))
      let p ← p.update
      let len := (if fmt then 1 else 0) + if items.isEmpty then 0 else 1
      let p ← p.put m (len + 1) ((if items.isEmpty then [] else [44]) ++ whenFmt fmt [10] ++ [0])
      Printbuffer.printMembers depth items (p.advance len)

end

/-- `baidu_json_PrintBuffered` -/
def printBuffered (item : Json) (prebuffer : Nat) (fmt : Bool) : Except Failure (List UInt8) :=
  match m.mem prebuffer with
  | none => .error .noMemory
  | some buffer => do
      let (p, out) ← Printbuffer.printValue m D fmt 0 item ⟨buffer, 0⟩
      .ok (cString (p.buffer.drop out))

end Buffer

/-! ## What is in the buffer -/

section Written

variable {m : Malloc} {p : Printbuffer} {head text : List UInt8}

theorem ok_bind {α β : Type} (a : α) (f : α → Except Failure β) : (Except.ok a >>= f) = f a := rfl

theorem ok_map {α β : Type} (f : α → β) (a : α) :
    (Except.ok a : Except Failure α).map f = .ok (f a) := rfl

variable (hm : m.Granting)

theorem le_pow2gt (x : Nat) : x ≤ pow2gt x := by
  have hor : ∀ (y k : Nat), y ≤ y ||| y >>> k := fun y k => Nat.left_le_or
  have hle := (((hor (x - 1) 1).trans (hor _ 2)).trans (hor _ 4)).trans ((hor _ 8).trans (hor _ 16))
  exact Nat.le_add_of_sub_le hle

/-- So much has been written, and the buffer goes on behind it. -/
structure Printbuffer.At (p : Printbuffer) (head : List UInt8) : Prop where
  offset : p.offset = head.length
  buffer : head <+: p.buffer

/-- A text is written behind what has been, with its NUL; the offset is somewhere in it. -/
structure Printbuffer.Wrote (p : Printbuffer) (head text : List UInt8) : Prop where
  offset : ∃ k ≤ text.length, p.offset = head.length + k
  buffer : head ++ text ++ [0] <+: p.buffer

include hm

/-- Where there is room, or can be, the octets are behind the others. -/
theorem Printbuffer.At.put (h : p.At head) {needed : Nat} (octets : List UInt8)
    (hlen : octets.length ≤ needed) (hmax : head.length + needed ≤ 2 ^ 30) :
    ∃ p', p.put m needed octets = .ok p' ∧ p'.offset = head.length ∧
      head ++ octets <+: p'.buffer := by
  obtain ⟨p₁, hensure, hat, hroom⟩ : ∃ p₁, p.ensure m needed = .ok p₁ ∧ p₁.At head ∧
      head.length + needed ≤ p₁.buffer.length := by
    rw [Printbuffer.ensure, h.offset, Nat.add_comm needed]
    split
    next hle => exact ⟨p, rfl, h, hle⟩
    next hgt =>
      obtain ⟨newbuffer, hmem⟩ := Option.isSome_iff_exists.mp (hm (pow2gt (head.length + needed)))
      have hlength := m.length_mem _ newbuffer hmem
      have hpow := le_pow2gt (head.length + needed)
      rw [if_neg (Nat.not_lt.mpr hmax), hmem]
      refine ⟨_, rfl, ⟨h.offset.symm ▸ rfl, h.buffer.trans (List.prefix_append _ _)⟩, ?_⟩
      rw [List.length_append, List.length_drop, hlength]
      omega
  have htake : p₁.buffer.take head.length = head := (List.prefix_iff_eq_take.mp hat.buffer).symm
  refine ⟨⟨head ++ octets ++ p₁.buffer.drop (head.length + octets.length), head.length⟩, ?_, rfl,
    List.prefix_append _ _⟩
  rw [Printbuffer.put, hensure, ok_bind, hat.offset,
    if_pos (by omega), htake]

theorem Printbuffer.At.put_advance (h : p.At head) {needed : Nat} (text tail : List UInt8)
    (hlen : (text ++ tail).length ≤ needed) (hmax : head.length + needed ≤ 2 ^ 30) :
    ∃ p', p.put m needed (text ++ tail) = .ok p' ∧ (p'.advance text.length).At (head ++ text) := by
  obtain ⟨p', hput, hoffset, hbuffer⟩ := h.put hm (text ++ tail) hlen hmax
  refine ⟨p', hput, ?_, ?_⟩
  · rw [Printbuffer.advance, hoffset, List.length_append]
  · rw [← List.append_assoc] at hbuffer
    exact (List.prefix_append _ _).trans hbuffer

theorem Printbuffer.At.put_wrote (h : p.At head) {needed : Nat} (hlen : text.length < needed)
    (hmax : head.length + needed ≤ 2 ^ 30) :
    ∃ p', p.put m needed (text ++ [0]) = .ok p' ∧ p'.Wrote head text := by
  obtain ⟨p', hput, hoffset, hbuffer⟩ := h.put hm (text ++ [0])
    (by rw [List.length_append, List.length_singleton]; exact hlen) hmax
  rw [← List.append_assoc] at hbuffer
  exact ⟨p', hput, ⟨0, Nat.zero_le _, hoffset⟩, hbuffer⟩

/-- The end of a text of which a part has been written before. -/
theorem Printbuffer.At.put_last (h : p.At (head ++ text)) {needed : Nat} (last : List UInt8)
    (hlen : last.length < needed) (hmax : (head ++ text).length + needed ≤ 2 ^ 30) :
    ∃ p', p.put m needed (last ++ [0]) = .ok p' ∧ p'.Wrote head (text ++ last) := by
  obtain ⟨p', hput, hoffset, hbuffer⟩ := h.put hm (last ++ [0])
    (by rw [List.length_append, List.length_singleton]; exact hlen) hmax
  refine ⟨p', hput, ⟨text.length, ?_, ?_⟩, ?_⟩
  · rw [List.length_append]
    exact Nat.le_add_right _ _
  · rw [hoffset, List.length_append]
  · simpa only [List.append_assoc] using hbuffer

omit hm in
/-- The end of a text is found from anywhere in it. -/
theorem Printbuffer.Wrote.update (h : p.Wrote head text) (hnul : 0 ∉ text) :
    ∃ p', p.update = .ok p' ∧ p'.At (head ++ text) := by
  obtain ⟨k, hk, hoffset⟩ := h.offset
  obtain ⟨tail, hbuffer⟩ := h.buffer
  have hdrop : p.buffer.drop p.offset = text.drop k ++ 0 :: tail := by
    rw [hoffset, ← hbuffer, ← List.drop_drop, List.append_assoc, List.append_assoc,
      List.drop_left, List.drop_append_of_le_length hk]
    rfl
  have hstr : cString (text.drop k ++ 0 :: tail) = text.drop k := by
    have hcut : cString (0 :: tail) = [] := rfl
    rw [cString_append_of_notMem fun hmem => hnul (List.mem_of_mem_drop hmem), hcut,
      List.append_nil]
  refine ⟨p.advance (text.length - k), ?_, ?_, ?_⟩
  · rw [Printbuffer.update, hdrop, if_pos (List.mem_append_right _ List.mem_cons_self), hstr,
      List.length_drop]
  · have hlen : p.offset + (text.length - k) = (head ++ text).length := by
      rw [hoffset, List.length_append]
      omega
    exact hlen
  · have hprefix : head ++ text <+: p.buffer := by
      rw [← hbuffer]
      exact (List.prefix_append _ _).trans (List.prefix_append _ _)
    exact hprefix

end Written

/-! ## No NUL is printed -/

section NoNul

variable {D : Doubles} {fmt : Bool} {depth : Nat}

theorem zero_notMem_nameText (s : CString) : 0 ∉ nameText s := by
  have hchar : ∀ c, c ≠ 0 → 0 ∉ printChar c :=
    forall_octet (P := fun c => c ≠ 0 → 0 ∉ printChar c) (by decide +kernel)
  have hbytes : 0 ∉ s.bytes.flatMap printChar := by
    intro hmem
    obtain ⟨c, hc, hzero⟩ := List.mem_flatMap.mp hmem
    exact hchar c (fun heq => s.noNul (heq ▸ hc)) hzero
  simp [nameText, hbytes]

theorem zero_notMem_printInt (n : Int) : 0 ∉ printInt n := by
  have hdecimal : 0 ∉ decimal n.natAbs := fun hmem =>
    absurd (isDigit_decimal n.natAbs 0 hmem) (by decide)
  rw [printInt]
  split
  · simp [hdecimal]
  · exact hdecimal

theorem zero_notMem_whenFmt {text : List UInt8} (h : 0 ∉ text) : 0 ∉ whenFmt fmt text :=
  fun hmem => forall_mem_whenFmt (P := (· ≠ 0)) (fun _ hc => ne_of_mem_of_not_mem hc h) 0 hmem rfl

theorem zero_notMem_tabs (n : Nat) : 0 ∉ tabs n := fun hmem =>
  forall_mem_tabs (P := (· ≠ 0)) (by decide) n 0 hmem rfl

theorem zero_notMem_composeArray {entries : List (List UInt8)} (h : ∀ entry ∈ entries, 0 ∉ entry) :
    0 ∉ composeArray fmt entries := by
  induction entries with
  | nil => exact List.not_mem_nil
  | cons entry entries ih =>
    obtain ⟨hentry, hentries⟩ := List.forall_mem_cons.mp h
    have hspace : 0 ∉ whenFmt fmt [32] := zero_notMem_whenFmt (by decide)
    rw [composeArray]
    split
    · simp [hentry, ih hentries]
    · simp [hentry, ih hentries, hspace]

theorem zero_notMem_composeObject {entries : List (List UInt8 × List UInt8)}
    (h : ∀ entry ∈ entries, 0 ∉ entry.1 ∧ 0 ∉ entry.2) : 0 ∉ composeObject fmt depth entries := by
  induction entries with
  | nil => exact List.not_mem_nil
  | cons entry entries ih =>
    obtain ⟨name, entry⟩ := entry
    obtain ⟨⟨hname, hentry⟩, hentries⟩ := List.forall_mem_cons.mp h
    have htabs : 0 ∉ whenFmt fmt (tabs depth) := zero_notMem_whenFmt (zero_notMem_tabs depth)
    have htab : 0 ∉ whenFmt fmt [9] := zero_notMem_whenFmt (by decide)
    have hnewline : 0 ∉ whenFmt fmt [10] := zero_notMem_whenFmt (by decide)
    rw [composeObject]
    split
    · simp [hname, hentry, ih hentries, htabs, htab, hnewline]
    · simp [hname, hentry, ih hentries, htabs, htab, hnewline]

end NoNul

/-! ## Values in the buffer -/

section Values

variable {m : Malloc} {D : Doubles} {fmt : Bool} {depth : Nat} {p : Printbuffer} {head : List UInt8}
  (hm : m.Granting)

theorem oneOrTwo_eq (fmt : Bool) (c d : UInt8) : oneOrTwo fmt = (c :: whenFmt fmt [d]).length := by
  cases fmt
  · rfl
  · rfl

include hm

theorem Printbuffer.At.printStringPtr (h : p.At head) {s : CString}
    (hmax : head.length + (nameText s).length < 2 ^ 30) :
    ∃ p', p.printStringPtr m s = .ok p' ∧ p'.Wrote head (nameText s) := by
  have hoctets : 34 :: s.bytes.flatMap printChar ++ [34, 0] = nameText s ++ [0] := by
    simp [nameText]
  have hlength : (s.bytes.map fun c => 1 + escapeSize c).sum + 3 = (nameText s).length + 1 := by
    rw [← length_flatMap_printChar, nameText]
    simp only [List.length_append, List.length_cons, List.length_nil]
  rw [Printbuffer.printStringPtr]
  cases hany : s.bytes.any escaped with
  | true =>
    rw [if_pos rfl, hoctets, hlength]
    exact h.put_wrote hm (Nat.lt_succ_self _) hmax
  | false =>
    have hplain := flatMap_printChar hany
    rw [hplain] at hoctets
    have hstrlen : s.strlen + 3 = (nameText s).length + 1 := by
      rw [nameText, hplain]
      simp only [List.length_append, List.length_cons, List.length_nil, CString.strlen]
    rw [if_neg Bool.false_ne_true, hoctets, hstrlen]
    exact h.put_wrote hm (Nat.lt_succ_self _) hmax

omit hm in
/-- A value is printed into the buffer as the text, wherever the buffer stands and has not become
    too large for an `int`. -/
structure Prints (m : Malloc) (D : Doubles) (fmt : Bool) (depth : Nat) (v : Json)
    (text : List UInt8) : Prop where
  noNul : 0 ∉ text
  prints : ∀ {p : Printbuffer} {head : List UInt8}, p.At head →
    head.length + text.length + 64 ≤ 2 ^ 30 →
      ∃ p' out, Printbuffer.printValue m D fmt depth v p = .ok (p', out) ∧
        p'.Wrote head text ∧ (out = head.length ∨ out = depth)

theorem Printbuffer.At.printItems {text : Json → List UInt8} {items : List Json}
    (hitems : ∀ item ∈ items, Prints m D fmt depth item (text item)) (h : p.At head)
    (hmax : head.length + (composeArray fmt (items.map text)).length + 64 ≤ 2 ^ 30) :
    ∃ p', Printbuffer.printItems m D fmt depth items p = .ok p' ∧
      p'.At (head ++ composeArray fmt (items.map text)) := by
  induction items generalizing p head with
  | nil =>
    exact ⟨p, by rw [Printbuffer.printItems], by rwa [List.map_nil, composeArray, List.append_nil]⟩
  | cons item items ih =>
    obtain ⟨hitem, hitems⟩ := List.forall_mem_cons.mp hitems
    rw [List.map_cons, composeArray] at hmax ⊢
    simp only [List.length_append] at hmax
    obtain ⟨p₁, out, hvalue, hwrote, -⟩ := hitem.prints h (by omega)
    obtain ⟨p₂, hupdate, hat⟩ := hwrote.update hitem.noNul
    rw [Printbuffer.printItems, hvalue]
    simp only [ok_bind, hupdate]
    by_cases hlast : items = []
    · subst hlast
      refine ⟨p₂, rfl, ?_⟩
      simpa [composeArray] using hat
    · have hmore : items.map text ≠ [] := by simpa using hlast
      have hisEmpty : ¬items.isEmpty = true := by simpa using hlast
      rw [if_neg hmore] at hmax ⊢
      rw [List.length_cons] at hmax
      have hlen : (44 :: whenFmt fmt [32] ++ [0]).length ≤ oneOrTwo fmt + 1 := by
        rw [oneOrTwo_eq fmt 44 32, List.length_append, List.length_singleton]
      obtain ⟨p₃, hput, hat⟩ := hat.put_advance hm (44 :: whenFmt fmt [32]) [0] hlen (by
        rw [oneOrTwo_eq fmt 44 32, List.length_append, List.length_cons]
        omega)
      rw [← oneOrTwo_eq fmt 44 32] at hat
      obtain ⟨p₄, hrest, hat⟩ := ih hitems hat (by
        simp only [List.length_append, List.length_cons]
        omega)
      refine ⟨p₄, ?_, ?_⟩
      · rw [if_neg hisEmpty, hput, ok_bind, hrest]
      · simpa only [List.append_assoc] using hat

theorem Printbuffer.At.indent (fmt : Bool) (depth : Nat) (h : p.At head)
    (hmax : head.length + (whenFmt fmt (tabs depth)).length ≤ 2 ^ 30) :
    ∃ p', p.indent m fmt depth = .ok p' ∧ p'.At (head ++ whenFmt fmt (tabs depth)) := by
  rw [Printbuffer.indent]
  cases fmt with
  | false => exact ⟨p, rfl, by rwa [whenFmt, if_neg Bool.false_ne_true, List.append_nil]⟩
  | true =>
    have htabs : (tabs depth).length = depth := List.length_replicate
    rw [whenFmt, if_pos rfl, htabs] at hmax
    obtain ⟨p', hput, hat⟩ := h.put_advance hm (tabs depth) []
      (show _ ≤ depth by rw [List.append_nil, htabs]) hmax
    rw [List.append_nil] at hput
    rw [htabs] at hat
    exact ⟨p'.advance depth, by rw [if_pos rfl, hput, ok_map], hat⟩

theorem Printbuffer.At.printMembers {text : Json → List UInt8} {items : List (CString × Json)}
    (hitems : ∀ item ∈ items, Prints m D fmt depth item.2 (text item.2)) (h : p.At head)
    (hmax : head.length + (composeObject fmt depth
      (items.map fun item => (nameText item.1, text item.2))).length + 64 ≤ 2 ^ 30) :
    ∃ p', Printbuffer.printMembers m D fmt depth items p = .ok p' ∧
      p'.At (head ++ composeObject fmt depth
        (items.map fun item => (nameText item.1, text item.2))) := by
  induction items generalizing p head with
  | nil =>
    exact ⟨p, by rw [Printbuffer.printMembers], by
      rwa [List.map_nil, composeObject, List.append_nil]⟩
  | cons item items ih =>
    obtain ⟨name, item⟩ := item
    obtain ⟨hitem, hitems⟩ := List.forall_mem_cons.mp hitems
    rw [List.map_cons, composeObject] at hmax ⊢
    simp only [List.length_append, List.length_cons] at hmax
    have htwo := oneOrTwo_eq fmt 58 9
    have htwo' := htwo
    rw [List.length_cons] at htwo'
    -- the name behind its tabs, and the colon
    obtain ⟨p₁, hindent, hat⟩ := h.indent hm fmt depth (by omega)
    obtain ⟨p₂, hname, hwrote⟩ := hat.printStringPtr hm (s := name) (by
      rw [List.length_append]
      omega)
    obtain ⟨p₃, hupdate, hat⟩ := hwrote.update (zero_notMem_nameText name)
    obtain ⟨p₄, hcolon, hat⟩ := hat.put_advance hm (58 :: whenFmt fmt [9]) []
      (show _ ≤ oneOrTwo fmt by rw [List.append_nil, htwo]) (by
        simp only [List.length_append]
        omega)
    rw [List.append_nil] at hcolon
    rw [← htwo] at hat
    -- the value
    obtain ⟨p₅, out, hvalue, hwrote, -⟩ := hitem.prints hat (by
      simp only [List.length_append, List.length_cons]
      omega)
    obtain ⟨p₆, hupdate', hat⟩ := hwrote.update hitem.noNul
    -- what is between this member and the next
    have hcomma : (if (items.map fun item => (nameText item.1, text item.2)) = [] then []
        else [(44 : UInt8)]) = if items.isEmpty then [] else [44] := by
      cases items with
      | nil => rfl
      | cons item items => rfl
    rw [hcomma] at hmax ⊢
    have hlen : (if fmt then 1 else 0) + (if items.isEmpty then 0 else 1) =
        ((if items.isEmpty then [] else [44]) ++ whenFmt fmt [10]).length := by
      cases fmt <;> cases items.isEmpty <;> rfl
    have hlen' := hlen
    rw [List.length_append] at hlen'
    obtain ⟨p₇, hput, hat⟩ := hat.put_advance hm
      ((if items.isEmpty then [] else [44]) ++ whenFmt fmt [10]) [0]
      (show _ ≤ (if fmt then 1 else 0) + (if items.isEmpty then 0 else 1) + 1 by
        rw [hlen, List.length_append, List.length_singleton]) (by
        simp only [List.length_append, List.length_cons]
        omega)
    rw [← hlen] at hat
    obtain ⟨p₈, hrest, hat⟩ := ih hitems hat (by
      simp only [List.length_append, List.length_cons]
      omega)
    refine ⟨p₈, ?_, ?_⟩
    · rw [Printbuffer.printMembers, hindent]
      simp only [ok_bind, hname, hupdate, hcolon, hvalue, hupdate',
        hput, hrest]
    · simpa only [List.append_assoc, List.cons_append] using hat

/-- A value that is printed by one call of `ensure`. -/
theorem Prints.of_put {v : Json} {text : List UInt8} {needed : Nat} (hnul : 0 ∉ text)
    (hlt : text.length < needed) (hle : needed ≤ text.length + 64)
    (hprint : ∀ p, Printbuffer.printValue m D fmt depth v p =
      (p.put m needed (text ++ [0])).map (·, p.offset)) : Prints m D fmt depth v text where
  noNul := hnul
  prints {p head} h hmax := by
    obtain ⟨p', hput, hwrote⟩ := h.put_wrote hm hlt (show head.length + needed ≤ 2 ^ 30 by
      omega)
    exact ⟨p', p.offset, by rw [hprint, hput, ok_map], hwrote, .inl h.offset⟩

theorem Prints.null : Prints m D fmt depth .null (ascii "null") :=
  .of_put hm (by decide) (show (ascii "null").length < 5 by decide) (by decide) fun p => by
    rw [Printbuffer.printValue]

theorem Prints.bool (b : Bool) :
    Prints m D fmt depth (.bool b) (if b then ascii "true" else ascii "false") := by
  cases b with
  | false =>
    exact .of_put hm (by decide) (show (ascii "false").length < 6 by decide) (by decide) fun p => by
      rw [Printbuffer.printValue]
      rfl
  | true =>
    exact .of_put hm (by decide) (show (ascii "true").length < 5 by decide) (by decide) fun p => by
      rw [Printbuffer.printValue]
      rfl

theorem Prints.string (s : CString) : Prints m D fmt depth (.string s) (nameText s) where
  noNul := zero_notMem_nameText s
  prints {p head} h hmax := by
    obtain ⟨p', hput, hwrote⟩ := h.printStringPtr hm (s := s) (by omega)
    exact ⟨p', p.offset, by rw [Printbuffer.printValue, hput, ok_map], hwrote,
      .inl h.offset⟩

theorem Prints.number (hfits : D.Fits) (hwrite : ∀ d, 0 ∉ D.write d) {n : Int} (hn : InInt n)
    (d : Option ℚ) : Prints m D fmt depth (.number n d) (numberText D n d) := by
  rw [numberText]
  by_cases hzero : d = some 0
  · rw [if_pos hzero]
    exact .of_put hm (by decide) (Nat.lt_succ_self 1) (by decide) fun p => by
      rw [Printbuffer.printValue, Printbuffer.printNumber, if_pos hzero]
      rfl
  · rw [if_neg hzero]
    by_cases hint : isInt D n d = true
    · have hlen := length_printInt hn
      rw [if_pos hint]
      exact .of_put hm (zero_notMem_printInt n) hlen (by omega) fun p => by
        rw [Printbuffer.printValue, Printbuffer.printNumber, if_neg hzero, if_pos hint]
    · have hlen := hfits d
      rw [if_neg hint]
      exact .of_put hm (hwrite d) hlen (by omega) fun p => by
        rw [Printbuffer.printValue, Printbuffer.printNumber, if_neg hzero, if_neg hint]

theorem Prints.array {text : Json → List UInt8} {items : List Json}
    (hitems : ∀ item ∈ items, Prints m D fmt (depth + 1) item (text item)) :
    Prints m D fmt depth (.array items) (arrayText fmt (items.map text)) where
  noNul := by
    have hcompose : 0 ∉ composeArray fmt (items.map text) :=
      zero_notMem_composeArray (List.forall_mem_map.mpr fun item hitem => (hitems item hitem).noNul)
    simp [arrayText, hcompose]
  prints {p head} h hmax := by
    cases items with
    | nil =>
      obtain ⟨p', hput, hwrote⟩ := h.put_wrote hm
        (show (ascii "[]").length < 3 by decide) (by omega)
      exact ⟨p', p.offset, by rw [Printbuffer.printValue, hput, ok_map], hwrote,
        .inl h.offset⟩
    | cons item items =>
      rw [arrayText] at hmax ⊢
      simp only [List.length_append, List.length_cons, List.length_nil] at hmax
      obtain ⟨p₁, hopen, hat⟩ := h.put_advance hm [91] [] (Nat.le_refl 1) (by omega)
      obtain ⟨p₂, hloop, hat⟩ := Printbuffer.At.printItems hm hitems hat (by
        rw [List.length_append, List.length_singleton]
        omega)
      rw [List.append_assoc, List.singleton_append] at hat
      obtain ⟨p₃, hclose, hwrote⟩ := hat.put_last hm [93] (Nat.lt_succ_self 1) (by
        simp only [List.length_append, List.length_cons]
        omega)
      refine ⟨p₃, p.offset, ?_, hwrote, .inl h.offset⟩
      rw [List.append_nil] at hopen
      rw [Printbuffer.printValue, hopen]
      simp only [ok_bind]
      rw [show p₁.advance 1 = p₁.advance [(91 : UInt8)].length from rfl, hloop]
      simp only [ok_bind]
      rw [show [(93 : UInt8), 0] = [93] ++ [0] from rfl, hclose]
      rfl

theorem Prints.object {text : Json → List UInt8} {items : List (CString × Json)}
    (hitems : ∀ item ∈ items, Prints m D fmt (depth + 1) item.2 (text item.2)) :
    Prints m D fmt depth (.object items)
      (objectText fmt depth (items.map fun item => (nameText item.1, text item.2))) where
  noNul := by
    have hcompose : 0 ∉ composeObject fmt (depth + 1)
        (items.map fun item => (nameText item.1, text item.2)) :=
      zero_notMem_composeObject (List.forall_mem_map.mpr fun item hitem =>
        ⟨zero_notMem_nameText item.1, (hitems item hitem).noNul⟩)
    have hnewline : 0 ∉ whenFmt fmt [10] := zero_notMem_whenFmt (by decide)
    have htabs : 0 ∉ whenFmt fmt (tabs depth) := zero_notMem_whenFmt (zero_notMem_tabs depth)
    simp [objectText, hcompose, hnewline, htabs]
  prints {p head} h hmax := by
    have htabs : (if fmt then depth else 0) = (whenFmt fmt (tabs depth)).length := by
      cases fmt
      · rfl
      · exact List.length_replicate.symm
    cases items with
    | nil =>
      have htext : 123 :: whenFmt fmt (10 :: tabs depth) ++ [125, 0] =
          objectText fmt depth [] ++ [0] := by
        cases fmt
        · rfl
        · simp [objectText, whenFmt, composeObject]
      have hneeded : (if fmt then depth + 4 else 3) = (objectText fmt depth []).length + 1 := by
        cases fmt
        · rfl
        · simp [objectText, whenFmt, composeObject, tabs]
      rw [List.map_nil] at hmax ⊢
      obtain ⟨p', hput, hwrote⟩ := h.put_wrote hm (Nat.lt_succ_self _)
        (show head.length + ((objectText fmt depth []).length + 1) ≤ 2 ^ 30 by omega)
      exact ⟨p', p.offset, by
        rw [Printbuffer.printValue, htext, hneeded, hput, ok_map], hwrote, .inl h.offset⟩
    | cons item items =>
      rw [objectText] at hmax ⊢
      simp only [List.length_append, List.length_cons, List.length_nil] at hmax
      have htwo := oneOrTwo_eq fmt 123 10
      have htwo' := htwo
      rw [List.length_cons] at htwo'
      obtain ⟨p₁, hopen, hat⟩ := h.put_advance hm (123 :: whenFmt fmt [10]) [0]
        (show _ ≤ oneOrTwo fmt + 1 by rw [htwo, List.length_append, List.length_singleton])
        (by omega)
      rw [← htwo] at hat
      obtain ⟨p₂, hloop, hat⟩ := Printbuffer.At.printMembers hm hitems hat (by
        rw [List.length_append, List.length_cons]
        omega)
      have hneeded : (if fmt then depth + 2 else 2) =
          (whenFmt fmt (tabs depth) ++ [125]).length + 1 := by
        rw [List.length_append, ← htabs]
        cases fmt
        · rfl
        · rfl
      rw [List.append_assoc] at hat
      obtain ⟨p₃, hclose, hwrote⟩ := hat.put_last hm (whenFmt fmt (tabs depth) ++ [125])
        (show _ < if fmt then depth + 2 else 2 by rw [hneeded]; exact Nat.lt_succ_self _) (by
          rw [hneeded]
          simp only [List.length_append, List.length_cons, List.length_nil]
          omega)
      refine ⟨p₃, if fmt then depth else p.offset, ?_, ?_, ?_⟩
      · have hlast : whenFmt fmt (tabs depth) ++ [125, 0] =
            whenFmt fmt (tabs depth) ++ [125] ++ [0] := by
          rw [List.append_assoc]
          rfl
        rw [Printbuffer.printValue, hopen]
        simp only [ok_bind, hloop, hlast, hclose]
      · simpa only [List.append_assoc] using hwrote
      · cases fmt
        · exact .inl h.offset
        · exact .inr rfl

/-- A tree is printed into the buffer as its text. -/
theorem prints_textOf (hfits : D.Fits) (hwrite : ∀ d, 0 ∉ D.write d) {v : Json}
    (hv : Numbers (fun n _ => InInt n) v) (fmt : Bool) (depth : Nat) :
    Prints m D fmt depth v (textOf D fmt depth v) := by
  induction hv generalizing depth with
  | null =>
    rw [textOf]
    exact .null hm
  | bool b =>
    rw [textOf]
    exact .bool hm b
  | number h =>
    rw [textOf]
    exact .number hm hfits hwrite h _
  | string s =>
    rw [textOf]
    exact .string hm s
  | array _ ih =>
    rw [textOf_array]
    exact .array hm fun item hitem => ih item hitem _
  | object _ ih =>
    rw [textOf_object]
    exact .object hm fun item hitem => ih item hitem _

/-- From an empty buffer, where `malloc` grants everything. -/
theorem printBuffered_granted (hfits : D.Fits) (hwrite : ∀ d, 0 ∉ D.write d) {v : Json}
    (hv : Numbers (fun n _ => InInt n) v) (hmax : (textOf D fmt 0 v).length + 64 ≤ 2 ^ 30)
    (prebuffer : Nat) : printBuffered m D v prebuffer fmt = .ok (textOf D fmt 0 v) := by
  obtain ⟨buffer, hmem⟩ := Option.isSome_iff_exists.mp (hm prebuffer)
  have hprints := prints_textOf hm hfits hwrite hv fmt 0
  have hat : (Printbuffer.mk buffer 0).At [] := ⟨rfl, List.nil_prefix⟩
  obtain ⟨p, out, hvalue, hwrote, hout⟩ := hprints.prints hat (by
    rw [List.length_nil, Nat.zero_add]
    exact hmax)
  obtain rfl : out = 0 := hout.elim id id
  obtain ⟨tail, hbuffer⟩ := hwrote.buffer
  have hcut : cString (0 :: tail) = [] := rfl
  rw [printBuffered, hmem]
  simp only [hvalue, ok_bind, List.drop_zero]
  rw [← hbuffer, List.nil_append, List.append_assoc, List.singleton_append,
    cString_append_of_notMem hprints.noNul, hcut, List.append_nil]

end Values

/-! ## Where `malloc` refuses -/

section Refused

/-- A run that is cut short by a refused `malloc`, or is the other run. -/
def Cut {α : Type} (x y : Except Failure α) : Prop := x = .error .noMemory ∨ x = y

theorem Cut.refl {α : Type} (x : Except Failure α) : Cut x x := .inr rfl

theorem Cut.bind {α β : Type} {x y : Except Failure α} (h : Cut x y)
    {f g : α → Except Failure β} (hfg : ∀ a, Cut (f a) (g a)) : Cut (x >>= f) (y >>= g) := by
  rcases h with rfl | rfl
  · exact .inl rfl
  · cases x with
    | error e => exact .inr rfl
    | ok a => exact hfg a

theorem Cut.map {α β : Type} {x y : Except Failure α} (h : Cut x y) (f : α → β) :
    Cut (x.map f) (y.map f) := by
  rcases h with rfl | rfl
  · exact .inl rfl
  · exact .refl _

/-- The same `malloc`, that gives NULs where the other gives `NULL`. -/
def Malloc.granted (m : Malloc) : Malloc where
  mem n := some ((m.mem n).getD (List.replicate n 0))
  length_mem n octets hmem := by
    obtain rfl := Option.some.inj hmem
    cases h : m.mem n with
    | none => exact List.length_replicate
    | some octets => exact m.length_mem n octets h

theorem Malloc.granted_granting (m : Malloc) : m.granted.Granting := fun _ => rfl

variable (m : Malloc) (D : Doubles) (fmt : Bool)

theorem cut_ensure (p : Printbuffer) (needed : Nat) :
    Cut (p.ensure m needed) (p.ensure m.granted needed) := by
  rw [Printbuffer.ensure, Printbuffer.ensure]
  split
  · exact .refl _
  split
  · exact .refl _
  cases hmem : m.mem (pow2gt (needed + p.offset)) with
  | none => exact .inl rfl
  | some newbuffer =>
    refine .inr ?_
    simp only [Malloc.granted, hmem, Option.getD_some]

theorem cut_put (p : Printbuffer) (needed : Nat) (octets : List UInt8) :
    Cut (p.put m needed octets) (p.put m.granted needed octets) :=
  (cut_ensure m p needed).bind fun _ => .refl _

theorem cut_printStringPtr (p : Printbuffer) (str : CString) :
    Cut (p.printStringPtr m str) (p.printStringPtr m.granted str) := by
  rw [Printbuffer.printStringPtr, Printbuffer.printStringPtr]
  split
  · exact cut_put m p _ _
  · exact cut_put m p _ _

theorem cut_printNumber (p : Printbuffer) (valueint : Int) (d : Option ℚ) :
    Cut (p.printNumber m D valueint d) (p.printNumber m.granted D valueint d) := by
  rw [Printbuffer.printNumber, Printbuffer.printNumber]
  split
  · exact cut_put m p _ _
  split
  · exact cut_put m p _ _
  · exact cut_put m p _ _

theorem cut_indent (p : Printbuffer) (depth : Nat) :
    Cut (p.indent m fmt depth) (p.indent m.granted fmt depth) := by
  rw [Printbuffer.indent, Printbuffer.indent]
  split
  · exact (cut_put m p _ _).map _
  · exact .refl _

mutual

/-- **A refused `malloc` cuts the printing short** and does nothing else to it: one case for each
    constructor, and in it one step for each call. -/
theorem cut_printValue : ∀ (depth : Nat) (v : Json) (p : Printbuffer),
    Cut (Printbuffer.printValue m D fmt depth v p)
      (Printbuffer.printValue m.granted D fmt depth v p)
  | _, .null, p => by
      rw [Printbuffer.printValue, Printbuffer.printValue]
      exact (cut_put m p _ _).map _
  | _, .bool false, p => by
      rw [Printbuffer.printValue, Printbuffer.printValue]
      exact (cut_put m p _ _).map _
  | _, .bool true, p => by
      rw [Printbuffer.printValue, Printbuffer.printValue]
      exact (cut_put m p _ _).map _
  | _, .number valueint valuedouble, p => by
      rw [Printbuffer.printValue, Printbuffer.printValue]
      exact (cut_printNumber m D p _ _).map _
  | _, .string s, p => by
      rw [Printbuffer.printValue, Printbuffer.printValue]
      exact (cut_printStringPtr m p _).map _
  | _, .array [], p => by
      rw [Printbuffer.printValue, Printbuffer.printValue]
      exact (cut_put m p _ _).map _
  | depth, .array (item :: items), p => by
      rw [Printbuffer.printValue, Printbuffer.printValue]
      refine (cut_put m p _ _).bind fun p₁ => ?_
      refine (cut_printItems (depth + 1) (item :: items) _).bind fun p₂ => ?_
      exact (cut_put m p₂ _ _).bind fun _ => .refl _
  | _, .object [], p => by
      rw [Printbuffer.printValue, Printbuffer.printValue]
      exact (cut_put m p _ _).map _
  | depth, .object (item :: items), p => by
      rw [Printbuffer.printValue, Printbuffer.printValue]
      refine (cut_put m p _ _).bind fun p₁ => ?_
      refine (cut_printMembers (depth + 1) (item :: items) _).bind fun p₂ => ?_
      exact (cut_put m p₂ _ _).bind fun _ => .refl _

theorem cut_printItems : ∀ (depth : Nat) (items : List Json) (p : Printbuffer),
    Cut (Printbuffer.printItems m D fmt depth items p)
      (Printbuffer.printItems m.granted D fmt depth items p)
  | _, [], p => by
      rw [Printbuffer.printItems, Printbuffer.printItems]
      exact .refl _
  | depth, item :: items, p => by
      rw [Printbuffer.printItems, Printbuffer.printItems]
      refine (cut_printValue depth item p).bind fun out => ?_
      refine (Cut.refl out.1.update).bind fun p₁ => ?_
      split
      · exact .refl _
      · exact (cut_put m p₁ _ _).bind fun p₂ => cut_printItems depth items _

theorem cut_printMembers : ∀ (depth : Nat) (items : List (CString × Json)) (p : Printbuffer),
    Cut (Printbuffer.printMembers m D fmt depth items p)
      (Printbuffer.printMembers m.granted D fmt depth items p)
  | _, [], p => by
      rw [Printbuffer.printMembers, Printbuffer.printMembers]
      exact .refl _
  | depth, (name, item) :: items, p => by
      rw [Printbuffer.printMembers, Printbuffer.printMembers]
      refine (cut_indent m fmt p depth).bind fun p₁ => ?_
      refine (cut_printStringPtr m p₁ name).bind fun p₂ => ?_
      refine (Cut.refl p₂.update).bind fun p₃ => ?_
      refine (cut_put m p₃ _ _).bind fun p₄ => ?_
      refine (cut_printValue depth item _).bind fun out => ?_
      refine (Cut.refl out.1.update).bind fun p₅ => ?_
      exact (cut_put m p₅ _ _).bind fun p₆ => cut_printMembers depth items _

end

theorem cut_printBuffered (v : Json) (prebuffer : Nat) :
    Cut (printBuffered m D v prebuffer fmt) (printBuffered m.granted D v prebuffer fmt) := by
  rw [printBuffered, printBuffered]
  cases hmem : m.mem prebuffer with
  | none => exact .inl rfl
  | some buffer =>
    simp only [Malloc.granted, hmem, Option.getD_some]
    exact (cut_printValue m D fmt 0 v _).bind fun _ => .refl _

variable {m D fmt}

/-- **Printing into a buffer** of any size, for every tree whose text is no longer than `2 ^ 30`
    less 64 octets: whatever `malloc` gives or refuses, nothing is written behind the buffer and no
    end is looked for behind it. If `malloc` grants everything the text is what is printed without a
    buffer, and else it is that or `NULL`. The bound keeps the sizes that are asked for in an `int`,
    as they are powers of two. -/
theorem printBuffered_eq (m : Malloc) (hfits : D.Fits) (hwrite : ∀ d, 0 ∉ D.write d) {v : Json}
    (hv : Numbers (fun n _ => InInt n) v) {text : List UInt8}
    (htext : BaiduJson.printValue D fmt 0 v = some text)
    (hmax : (textOf D fmt 0 v).length + 64 ≤ 2 ^ 30) (prebuffer : Nat) :
    (m.Granting → printBuffered m D v prebuffer fmt = .ok text) ∧
      (printBuffered m D v prebuffer fmt = .ok text ∨
        printBuffered m D v prebuffer fmt = .error .noMemory) := by
  obtain rfl : textOf D fmt 0 v = text :=
    Option.some.inj ((printValue_eq hfits hv hmax).symm.trans htext)
  refine ⟨fun hm => printBuffered_granted hm hfits hwrite hv hmax prebuffer, ?_⟩
  have hgranted := printBuffered_granted m.granted_granting hfits hwrite hv hmax prebuffer
  rcases cut_printBuffered m D fmt v prebuffer with hcut | heq
  · exact .inr hcut
  · exact .inl (heq.trans hgranted)

end Refused

/-- An object with an array in it. -/
def listOfWords : Json :=
  .object [(⟨[107], by decide⟩, .array [.null, .string ⟨[10, 98], by decide⟩, .bool true])]

/-- Memory that is not cleared. -/
def dirtyMalloc : Malloc where
  mem := fun n => some (List.replicate n 255)
  length_mem := fun _ _ hmem => Option.some.inj hmem ▸ List.length_replicate

/-- From a buffer of one octet. -/
theorem printBuffered_listOfWords :
    printBuffered dirtyMalloc exactDoubles listOfWords 1 true =
      .ok (ascii "\x7b\n\t\"k\":\t[null, \"\\nb\", true]\n\x7d") := by
  refine (printBuffered_eq dirtyMalloc exactDoubles_fits (fun _ => List.not_mem_nil) ?_ (by rfl)
    (by decide +kernel) 1).1 fun _ => rfl
  refine .object (List.forall_mem_singleton.mpr (.array ?_))
  refine List.forall_mem_cons.mpr ⟨.null, List.forall_mem_cons.mpr ⟨.string _, ?_⟩⟩
  exact List.forall_mem_singleton.mpr (.bool true)

end BaiduJson
end LightDuer
