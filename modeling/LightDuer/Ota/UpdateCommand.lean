import LightDuer.BaiduJson.Parser
import LightDuer.Ota.Unpack
import Mathlib.Data.List.Induction

/-!
# The update command

`duer_analyze_update_cmd` parses the payload and goes through the children of the root's first
child. A field of text is copied with a fixed length from the `valuestring` of the child of its
name; what is there, and how much of it, is asked nowhere.

The parser is a parameter, and so is whether the platform's log stands a `NULL` for a string: what
is shown holds of every parser, also of one whose memory runs short. The parser that the library
uses is `BaiduJson.parse`, and the payloads at the end are parsed by it.

## What is expected

`Validated` is the purpose of such a function: it reads nothing that is not there, and where it
returns `DUER_OK` the command holds the fields of the payload, each text whole and the size as a
number. A field that comes twice counts as its last occurrence, as a later one overwrites.

## What is the case

The five texts are handled alike, so there is one definition and one lemma for them, with the name
and the length of the field as parameters. `Taken` says which children can be gone through at all:
they have a name, and a field of text is a string with at least as many octets as are copied, its
NUL counted. `Looped` says what the loop has left of the children so far; it is the invariant of the
loop, by induction on the children from the front.

`validated_iff` is an equivalence, for every payload and every parser: the payload is not parsed, or
each text but `old_version` is there with the length of its field, or one less, and the size is a
number that fits. An empty object is accepted with no field at all.
-/

set_option autoImplicit false

namespace LightDuer
namespace Ota

open Lib (ascii cString Buffer u32OfInt)

/-- The fields of `struct OTAUpdateCommand` that are text. -/
inductive TextField where
  | transaction | version | oldVersion | url | signature
deriving DecidableEq, Repr

namespace TextField

/-- `TRANSACTION_LEN` and the others. -/
def len : TextField → Nat
  | .transaction => 65
  | .version | .oldVersion => 16
  | .url => 301
  | .signature => 129

def name : TextField → CString
  | .transaction => .lit "transaction"
  | .version => .lit "version"
  | .oldVersion => .lit "old_version"
  | .url => .lit "url"
  | .signature => .lit "signature"

theorem name_injective : Function.Injective name := by
  intro f g h
  cases f <;> cases g <;> first | rfl | exact absurd h (by decide)

end TextField

/-- `struct OTAUpdateCommand` -/
structure OtaUpdateCommand where
  transaction : Buffer (TextField.transaction.len + 1)
  version : Buffer (TextField.version.len + 1)
  oldVersion : Buffer (TextField.oldVersion.len + 1)
  url : Buffer (TextField.url.len + 1)
  signature : Buffer (TextField.signature.len + 1)
  size : Nat

namespace OtaUpdateCommand

/-- All zero (`memset`). -/
def zero : OtaUpdateCommand := ⟨.fill _ 0, .fill _ 0, .fill _ 0, .fill _ 0, .fill _ 0, 0⟩

def get (c : OtaUpdateCommand) : (f : TextField) → Buffer (f.len + 1)
  | .transaction => c.transaction
  | .version => c.version
  | .oldVersion => c.oldVersion
  | .url => c.url
  | .signature => c.signature

def set (c : OtaUpdateCommand) : (f : TextField) → Buffer (f.len + 1) → OtaUpdateCommand
  | .transaction, b => { c with transaction := b }
  | .version, b => { c with version := b }
  | .oldVersion, b => { c with oldVersion := b }
  | .url, b => { c with url := b }
  | .signature, b => { c with signature := b }

variable {c : OtaUpdateCommand} {f g : TextField}

@[simp] theorem get_set_self (b : Buffer (f.len + 1)) : (c.set f b).get f = b := by
  cases f <;> rfl

theorem get_set_of_ne (h : g ≠ f) (b : Buffer (f.len + 1)) : (c.set f b).get g = c.get g := by
  cases f <;> cases g <;> first | rfl | exact absurd rfl h

@[simp] theorem size_set (b : Buffer (f.len + 1)) : (c.set f b).size = c.size := by
  cases f <;> rfl

theorem get_size (n : Nat) (f : TextField) : get { c with size := n } f = c.get f := by
  cases f <;> rfl

theorem take_fits {s : CString} (h : f.len ≤ s.array.length) :
    0 + (s.array.take f.len).length ≤ f.len + 1 := by
  rw [List.length_take_of_le h]
  omega

/-- `memmove` of the whole field but its last octet; without a result it reads through `NULL` or
    past the end of the string. -/
def copy (c : OtaUpdateCommand) (f : TextField) (valuestring : Option CString) :
    Option OtaUpdateCommand :=
  match valuestring with
  | none => none
  | some s =>
    if h : f.len ≤ s.array.length then
      some (c.set f ((c.get f).write 0 (s.array.take f.len) (take_fits h)))
    else none

/-- One child of the loop; `strcmp` reads its name. -/
def analyzeChild (c : OtaUpdateCommand) (child : Option CString × Json) :
    Option OtaUpdateCommand :=
  match child.1 with
  | none => none
  | some string =>
    if string = .lit "transaction" then c.copy .transaction child.2.valuestring
    else if string = .lit "version" then c.copy .version child.2.valuestring
    else if string = .lit "old_version" then c.copy .oldVersion child.2.valuestring
    else if string = .lit "url" then c.copy .url child.2.valuestring
    else if string = .lit "size" then some { c with size := u32OfInt child.2.valueint }
    else if string = .lit "signature" then c.copy .signature child.2.valuestring
    else some c

end OtaUpdateCommand

/-- The children that the loop goes through. -/
def updateFields (cmd : Json) : List (Option CString × Json) :=
  match cmd.children with
  | [] => []
  | child :: _ => child.2.children

/-- The surroundings of `duer_analyze_update_cmd`. -/
structure AnalyzeEnv where
  /-- `baidu_json_Parse`, `NULL` also if it has no memory -/
  parse : List UInt8 → Option Json
  /-- the buffer of the text is allocated -/
  mallocCmdStr : Bool
  /-- a `NULL` can be logged with `%s` -/
  logsNull : Bool

/-- `duer_analyze_update_cmd`: its status, and the command. Without a result it has read through
    `NULL` or past the end of a string. -/
def duerAnalyzeUpdateCmd (e : AnalyzeEnv) (updateCmd : Option (List UInt8))
    (otaUpdateCmd : OtaUpdateCommand) : Option (Int × OtaUpdateCommand) :=
  match updateCmd with
  | none => some (duerErrInvalidParameter, otaUpdateCmd)
  | some payload =>
    if payload.length = 0 then some (duerErrInvalidParameter, otaUpdateCmd)
    else if e.mallocCmdStr = false then some (duerErrMemoryOverlow, otaUpdateCmd)
    else
      match e.parse (cString (payload ++ [0])) with
      | none => if e.logsNull then some (duerErrMemoryOverlow, otaUpdateCmd) else none
      | some cmd =>
        ((updateFields cmd).foldlM OtaUpdateCommand.analyzeChild .zero).map fun c => (duerOk, c)

/-! ## What the loop does -/

/-- A child has this name. -/
def isNamed (name : CString) (string : Option CString) : Bool := string == some name

section Loop

variable {c c' : OtaUpdateCommand} {child : Option CString × Json}
  {items : List (Option CString × Json)}

/-- A child can be taken: it has a name, and a field of text is not read past its string. -/
structure Taken (child : Option CString × Json) : Prop where
  named : child.1 ≠ none
  text : ∀ f : TextField, child.1 = some f.name →
    ∃ s, child.2 = .string s ∧ f.len ≤ s.strlen + 1

namespace OtaUpdateCommand

theorem copy_eq_some {f : TextField} {v : Json} (h : c.copy f v.valuestring = some c') :
    ∃ s, v = .string s ∧ f.len ≤ s.strlen + 1 ∧
      ∃ b : Buffer (f.len + 1), b.bytes = s.array.take f.len ++ (c.get f).bytes.drop f.len ∧
        c' = c.set f b := by
  rcases hv : v.valuestring with _ | s
  · rw [hv] at h
    exact absurd h (by simp [copy])
  · rw [hv] at h
    simp only [copy] at h
    split at h
    · rename_i hlen
      refine ⟨s, Json.valuestring_eq_some.mp hv, by simpa using hlen, _, ?_,
        (Option.some.inj h).symm⟩
      simp only [Buffer.write, List.take_zero, List.nil_append, Nat.zero_add]
      rw [List.length_take_of_le hlen]
    · exact absurd h (by simp)

theorem copy_string {f : TextField} {s : CString} (h : f.len ≤ s.strlen + 1) :
    (c.copy f (Json.string s).valuestring).isSome = true := by
  simp [copy, Json.valuestring, h]

/-! One child, by its name. -/

theorem analyzeChild_text {f : TextField} (h : child.1 = some f.name) :
    c.analyzeChild child = c.copy f child.2.valuestring := by
  rw [analyzeChild, h]
  cases f <;> rfl

theorem analyzeChild_size (h : child.1 = some (.lit "size")) :
    c.analyzeChild child = some { c with size := u32OfInt child.2.valueint } := by
  rw [analyzeChild, h]
  rfl

theorem analyzeChild_other {string : CString} (h : child.1 = some string)
    (htext : ∀ f : TextField, string ≠ f.name) (hsize : string ≠ .lit "size") :
    c.analyzeChild child = some c := by
  rw [analyzeChild, h]
  exact (if_neg (htext .transaction)).trans <| (if_neg (htext .version)).trans <|
    (if_neg (htext .oldVersion)).trans <| (if_neg (htext .url)).trans <|
    (if_neg hsize).trans <| if_neg (htext .signature)

theorem analyzeChild_isSome : (c.analyzeChild child).isSome = true ↔ Taken child := by
  rcases hname : child.1 with _ | string
  · refine ⟨fun h => absurd h (by simp [analyzeChild, hname]), fun h => absurd hname h.named⟩
  · have hnamed : child.1 ≠ none := by simp [hname]
    by_cases htext : ∃ f : TextField, string = f.name
    · obtain ⟨f, rfl⟩ := htext
      rw [analyzeChild_text hname]
      constructor
      · intro h
        obtain ⟨c', h⟩ := Option.isSome_iff_exists.mp h
        obtain ⟨s, hs, hlen, -⟩ := copy_eq_some h
        refine ⟨hnamed, fun g hg => ?_⟩
        obtain rfl := TextField.name_injective (Option.some.inj (hname.symm.trans hg))
        exact ⟨s, hs, hlen⟩
      · intro h
        obtain ⟨s, hs, hlen⟩ := h.text f hname
        rw [hs]
        exact copy_string hlen
    · have hother : ∀ f : TextField, string ≠ f.name := fun f h => htext ⟨f, h⟩
      refine ⟨fun _ => ⟨hnamed, fun f hf => ?_⟩, fun _ => ?_⟩
      · exact absurd (Option.some.inj (hname.symm.trans hf)) (hother f)
      · by_cases hsize : string = .lit "size"
        · rw [analyzeChild_size (hsize ▸ hname)]
          rfl
        · rw [analyzeChild_other hname hother hsize]
          rfl

/-- The loop comes to its end when every child can be taken. -/
theorem foldlM_isSome : ∀ {c : OtaUpdateCommand},
    (items.foldlM analyzeChild c).isSome = true ↔ ∀ child ∈ items, Taken child := by
  induction items with
  | nil => simp
  | cons child items ih =>
    intro c
    rw [List.foldlM_cons, List.forall_mem_cons, ← analyzeChild_isSome (c := c)]
    rcases c.analyzeChild child with _ | c'
    · simp
    · simpa using ih (c := c')

/-- **What the loop has left** of the children so far: the text of each field from the last child of
    its name, with the NUL that was behind it. Whatever a field has, a NUL stands at its end that no
    copy reaches. -/
structure Looped (items : List (Option CString × Json)) (c : OtaUpdateCommand) : Prop where
  ended : ∀ f, (c.get f).bytes.drop f.len = [0]
  text : ∀ f v, Json.lastNamed (isNamed f.name) items = some v →
    ∃ s, v = .string s ∧ f.len ≤ s.strlen + 1 ∧ (c.get f).bytes = s.array.take f.len ++ [0]
  size : ∀ v, Json.lastNamed (isNamed (.lit "size")) items = some v → c.size = u32OfInt v.valueint

theorem Looped.zero : Looped [] .zero where
  ended f := by cases f <;> rfl
  text f v h := absurd h (by simp)
  size v h := absurd h (by simp)

/-- A field of text is copied. -/
theorem Looped.copied (hl : Looped items c) {f : TextField} (hname : child.1 = some f.name)
    (h : c.copy f child.2.valuestring = some c') : Looped (items ++ [child]) c' := by
  obtain ⟨s, hs, hlen, b, hb, rfl⟩ := copy_eq_some h
  rw [hl.ended f] at hb
  refine ⟨fun g => ?_, fun g v hv => ?_, fun v hv => ?_⟩
  · by_cases hg : g = f
    · subst hg
      rw [get_set_self, hb]
      exact List.drop_left' (List.length_take_of_le (by simpa using hlen))
    · rw [get_set_of_ne hg]
      exact hl.ended g
  · by_cases hg : g = f
    · subst hg
      rw [Json.lastNamed_append_of_pos (by simp [isNamed, hname])] at hv
      obtain rfl := Option.some.inj hv
      exact ⟨s, hs, hlen, by rw [get_set_self, hb]⟩
    · have hne : f.name ≠ g.name := fun h => hg (TextField.name_injective h).symm
      rw [Json.lastNamed_append_of_neg (by simpa [isNamed, hname] using hne)] at hv
      rw [get_set_of_ne hg]
      exact hl.text g v hv
  · have hne : f.name ≠ .lit "size" := by cases f <;> decide
    rw [Json.lastNamed_append_of_neg (by simpa [isNamed, hname] using hne)] at hv
    rw [size_set]
    exact hl.size v hv

/-- The texts are left as they are by a child that is none. -/
theorem Looped.text_other (hl : Looped items c) {string : CString} (hname : child.1 = some string)
    (hother : ∀ f : TextField, string ≠ f.name) (f : TextField) (v : Json)
    (hv : Json.lastNamed (isNamed f.name) (items ++ [child]) = some v) :
    ∃ s, v = .string s ∧ f.len ≤ s.strlen + 1 ∧ (c.get f).bytes = s.array.take f.len ++ [0] := by
  rw [Json.lastNamed_append_of_neg (by simpa [isNamed, hname] using hother f)] at hv
  exact hl.text f v hv

theorem Looped.analyzeChild (hl : Looped items c) (h : c.analyzeChild child = some c') :
    Looped (items ++ [child]) c' := by
  have htaken : Taken child := analyzeChild_isSome.mp (by rw [h]; rfl)
  obtain ⟨string, hname⟩ := Option.ne_none_iff_exists'.mp htaken.named
  by_cases htext : ∃ f : TextField, string = f.name
  · obtain ⟨f, rfl⟩ := htext
    rw [analyzeChild_text hname] at h
    exact hl.copied hname h
  have hother : ∀ f : TextField, string ≠ f.name := fun f h => htext ⟨f, h⟩
  by_cases hsize : string = .lit "size"
  · rw [analyzeChild_size (hsize ▸ hname)] at h
    obtain rfl := Option.some.inj h
    refine ⟨fun f => ?_, fun f v hv => ?_, fun v hv => ?_⟩
    · rw [get_size]
      exact hl.ended f
    · rw [get_size]
      exact hl.text_other hname hother f v hv
    · rw [Json.lastNamed_append_of_pos (by simp [isNamed, hname, hsize])] at hv
      obtain rfl := Option.some.inj hv
      rfl
  · rw [analyzeChild_other hname hother hsize] at h
    obtain rfl := Option.some.inj h
    refine ⟨hl.ended, hl.text_other hname hother, fun v hv => ?_⟩
    rw [Json.lastNamed_append_of_neg (by simpa [isNamed, hname] using hsize)] at hv
    exact hl.size v hv

theorem Looped.foldlM : ∀ {c' : OtaUpdateCommand},
    items.foldlM OtaUpdateCommand.analyzeChild .zero = some c' → Looped items c' := by
  induction items using List.reverseRecOn with
  | nil =>
    intro c' h
    obtain rfl := Option.some.inj h
    exact .zero
  | append_singleton items child ih =>
    intro c' h
    rw [List.foldlM_append] at h
    obtain ⟨c, hc, h⟩ := Option.bind_eq_some_iff.mp h
    exact (ih hc).analyzeChild (by simpa using h)

end OtaUpdateCommand

end Loop

/-! ## Validation -/

/-- The command holds the fields: of several of a name the last, and of text all but
    `old_version`. -/
structure HoldsFields (items : List (Option CString × Json)) (c : OtaUpdateCommand) : Prop where
  text : ∀ f : TextField, f ≠ .oldVersion →
    ∃ s, Json.lastNamed (isNamed f.name) items = some (.string s) ∧ s.strlen ≤ f.len ∧
      cString (c.get f).bytes = s.bytes
  size : ∃ n, Json.lastNamed (isNamed (.lit "size")) items = some (.number n (some c.size))

/-- **An update command is validated**: nothing is read that is not there, and `DUER_OK` is returned
    only with the fields of the payload. -/
def Validated (e : AnalyzeEnv) (updateCmd : Option (List UInt8)) (otaUpdateCmd : OtaUpdateCommand) :
    Prop :=
  ∃ ret c, duerAnalyzeUpdateCmd e updateCmd otaUpdateCmd = some (ret, c) ∧
    (ret = duerOk → ∃ payload cmd, updateCmd = some payload ∧
      e.parse (cString (payload ++ [0])) = some cmd ∧ HoldsFields (updateFields cmd) c)

/-- Fields that are copied as they are: a text takes all of its array, or all but one octet. -/
structure Exact (items : List (Option CString × Json)) : Prop where
  taken : ∀ child ∈ items, Taken child
  text : ∀ f : TextField, f ≠ .oldVersion →
    ∃ s, Json.lastNamed (isNamed f.name) items = some (.string s) ∧ s.strlen ≤ f.len
  size : ∃ n, Json.lastNamed (isNamed (.lit "size")) items = some (.number n (some (u32OfInt n)))

/-- The payload is not parsed, or its fields are `Exact`. -/
def Analyzable (e : AnalyzeEnv) (updateCmd : Option (List UInt8)) : Prop :=
  ∀ payload, updateCmd = some payload → payload ≠ [] → e.mallocCmdStr = true →
    match e.parse (cString (payload ++ [0])) with
    | none => e.logsNull = true
    | some cmd => Exact (updateFields cmd)

theorem holdsFields_iff {items : List (Option CString × Json)} {c : OtaUpdateCommand}
    (h : items.foldlM OtaUpdateCommand.analyzeChild .zero = some c) :
    HoldsFields items c ↔ Exact items := by
  have hl := OtaUpdateCommand.Looped.foldlM h
  have htaken := OtaUpdateCommand.foldlM_isSome.mp (by rw [h]; rfl)
  constructor
  · intro hh
    refine ⟨htaken, fun f hf => ?_, ?_⟩
    · obtain ⟨s, hs, hlen, -⟩ := hh.text f hf
      exact ⟨s, hs, hlen⟩
    · obtain ⟨n, hn⟩ := hh.size
      have hsize : c.size = u32OfInt n := hl.size _ hn
      exact ⟨n, by rw [← hsize]; exact hn⟩
  · intro he
    refine ⟨fun f hf => ?_, ?_⟩
    · obtain ⟨s, hs, hlen⟩ := he.text f hf
      obtain ⟨s', hs', hend, hbytes⟩ := hl.text f _ hs
      obtain rfl := Json.string.inj hs'
      exact ⟨s, hs, hlen, by rw [hbytes]; exact CString.cString_take_append hlen hend⟩
    · obtain ⟨n, hn⟩ := he.size
      have hsize : c.size = u32OfInt n := hl.size _ hn
      exact ⟨n, by rw [hsize]; exact hn⟩

/-- A payload with a tree: the loop goes through its fields. -/
theorem validated_parsed_iff {e : AnalyzeEnv} {payload : List UInt8} {cmd : Json}
    (hlen : payload.length ≠ 0) (hmalloc : e.mallocCmdStr = true)
    (hparse : e.parse (cString (payload ++ [0])) = some cmd) (otaUpdateCmd : OtaUpdateCommand) :
    Validated e (some payload) otaUpdateCmd ↔ Exact (updateFields cmd) := by
  have hrun : duerAnalyzeUpdateCmd e (some payload) otaUpdateCmd =
      ((updateFields cmd).foldlM OtaUpdateCommand.analyzeChild .zero).map
        fun c => (duerOk, c) := by
    simp [duerAnalyzeUpdateCmd, hlen, hmalloc, hparse]
  constructor
  · rintro ⟨ret, c, h, hholds⟩
    rw [hrun] at h
    obtain ⟨c', hloop, h⟩ := Option.map_eq_some_iff.mp h
    obtain ⟨rfl, rfl⟩ := Prod.mk.inj h
    obtain ⟨payload', cmd', hpayload, hparse', hh⟩ := hholds rfl
    obtain rfl := Option.some.inj hpayload
    obtain rfl := Option.some.inj (hparse.symm.trans hparse')
    exact (holdsFields_iff hloop).mp hh
  · intro hexact
    obtain ⟨c, hloop⟩ := Option.isSome_iff_exists.mp
      (OtaUpdateCommand.foldlM_isSome (c := .zero) |>.mpr hexact.taken)
    exact ⟨duerOk, c, by rw [hrun, hloop]; rfl, fun _ =>
      ⟨payload, cmd, rfl, hparse, (holdsFields_iff hloop).mpr hexact⟩⟩

theorem validated_iff (e : AnalyzeEnv) (updateCmd : Option (List UInt8))
    (otaUpdateCmd : OtaUpdateCommand) :
    Validated e updateCmd otaUpdateCmd ↔ Analyzable e updateCmd := by
  rcases updateCmd with _ | payload
  · exact iff_of_true ⟨_, _, rfl, fun h => absurd h (by decide)⟩ fun _ h => absurd h (by simp)
  have hanalyzable : Analyzable e (some payload) ↔ (payload ≠ [] → e.mallocCmdStr = true →
      match e.parse (cString (payload ++ [0])) with
      | none => e.logsNull = true
      | some cmd => Exact (updateFields cmd)) :=
    ⟨fun h => h payload rfl, fun h _ hp => Option.some.inj hp ▸ h⟩
  rw [hanalyzable]
  by_cases hnil : payload = []
  · subst hnil
    exact iff_of_true ⟨_, _, rfl, fun h => absurd h (by decide)⟩ fun h => absurd rfl h
  have hlen : payload.length ≠ 0 := fun h => hnil (List.eq_nil_of_length_eq_zero h)
  by_cases hmalloc : e.mallocCmdStr = true
  swap
  · refine iff_of_true ⟨duerErrMemoryOverlow, otaUpdateCmd, ?_, fun h => absurd h (by decide)⟩
      fun _ h => absurd h hmalloc
    simp [duerAnalyzeUpdateCmd, hlen, hmalloc]
  rw [forall_prop_of_true hnil, forall_prop_of_true hmalloc]
  rcases hparse : e.parse (cString (payload ++ [0])) with _ | cmd
  · have hrun : duerAnalyzeUpdateCmd e (some payload) otaUpdateCmd =
        if e.logsNull then some (duerErrMemoryOverlow, otaUpdateCmd) else none := by
      simp [duerAnalyzeUpdateCmd, hlen, hmalloc, hparse]
    constructor
    · rintro ⟨ret, c, h, -⟩
      rw [hrun] at h
      by_contra hlog
      exact absurd h (by simp [hlog])
    · intro hlog
      exact ⟨_, _, by rw [hrun, if_pos hlog], fun h => absurd h (by decide)⟩
  · exact validated_parsed_iff hlen hmalloc hparse otaUpdateCmd

/-- Doubles of a text with no number in it. -/
def noDoubles : BaiduJson.Doubles := ⟨fun _ => none, fun _ => none, fun _ => 0, fun _ => []⟩

/-- The parser of the library, with the memory it needs. -/
def parsing : AnalyzeEnv := ⟨BaiduJson.parse noDoubles, true, true⟩

/-- **Two payloads that are not validated.** The empty object is `DUER_OK`, with no field; of a
    version of three characters sixteen are read. -/
theorem not_validated_empty_short :
    ¬Validated parsing (some (ascii "\x7b\x7d")) .zero ∧
      ¬Validated parsing (some (ascii "\x7b\"data\":\x7b\"version\":\"1.0\"\x7d\x7d")) .zero := by
  constructor
  · obtain ⟨cmd, hcmd, hfields⟩ : ∃ cmd, parsing.parse (cString (ascii "\x7b\x7d" ++ [0])) =
        some cmd ∧ (updateFields cmd).length = 0 := Option.map_eq_some_iff.mp (by decide +kernel)
    rw [validated_parsed_iff (by decide) rfl hcmd, List.eq_nil_of_length_eq_zero hfields]
    intro hexact
    obtain ⟨s, hs, -⟩ := hexact.text .url (by decide)
    exact absurd hs.symm (Option.some_ne_none _)
  · obtain ⟨cmd, hcmd, hfields⟩ : ∃ cmd, parsing.parse
        (cString (ascii "\x7b\"data\":\x7b\"version\":\"1.0\"\x7d\x7d" ++ [0])) = some cmd ∧
          (updateFields cmd).map (fun item => (item.1, item.2.valuestring)) =
            [(some (.lit "version"), some (.lit "1.0"))] :=
      Option.map_eq_some_iff.mp (by decide +kernel)
    rw [validated_parsed_iff (by decide) rfl hcmd]
    intro hexact
    obtain ⟨⟨name, value⟩, hmem, hitem⟩ := List.mem_map.mp
      (hfields ▸ List.mem_singleton_self (some (CString.lit "version"), some (CString.lit "1.0")))
    obtain ⟨hname, hvalue⟩ := Prod.mk.inj hitem
    obtain ⟨s, hs, hlen⟩ := (hexact.taken _ hmem).text .version hname
    have hstring : value.valuestring = some s := Json.valuestring_eq_some.mpr hs
    obtain rfl := Option.some.inj (hstring.symm.trans hvalue)
    exact absurd hlen (by decide)

end Ota
end LightDuer
