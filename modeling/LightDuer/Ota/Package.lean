import LightDuer.Lib.Bytes
import LightDuer.Ota.Json
import Mathlib.Algebra.Ring.Int.Defs
import Mathlib.Data.List.Forall2
import Mathlib.Logic.Function.Basic

/-!
# The modules of a package

`pkg_acquire_module` goes through the module list of the metadata. The buffers of a module's texts
are allocated by `mbed_prebuild_module` and filled by `mbed_get_module_info`; both look an item up
by its index in the list, an octet, and so is the number of the items.

## The right module

`Lists` says what a module list is: its items describe modules, each with three texts, a type and a
size. Against that `Acquired` is the purpose of the function, in terms of the items alone: the
module is the one with the index among those of the type, with the item's texts and size, and its
data begin behind those of the items in front of it; and where there is no such module the result is
`NULL`.

## Two passes, and two indices

For a type the function goes through the items and counts those that have it. For `ALL` it makes the
buffers for the first item's texts and then fills them from the item asked for, so a longer text is
copied behind its buffer. Indices and the count of the items are octets, so that with 256 items or
more the count ends early and an index finds another item. Sizes and offsets are sums in 32 bits.

`Acquirable` is what is left: for every list, type and index it says whether none of this happens,
in terms of lengths and sums. `acquired_iff` proves it equivalent to `Acquired`, as long as there is
memory. On the way each pass has one lemma for a member of an item, by its name, and one for all of
them (`Filled`).
-/

set_option autoImplicit false

namespace LightDuer
namespace Ota
namespace Package

open Lib (u32 u32OfInt)

/-! ## Names -/

/-- `tolower` -/
def toLower (b : UInt8) : UInt8 := if 65 ≤ b ∧ b ≤ 90 then b + 32 else b

def lower (s : CString) : List UInt8 := s.bytes.map toLower

/-- `mbed_str_case_cmp` is 0. The second string is never `NULL`. -/
def mbedStrCaseCmp (s1 : Option CString) (s2 : CString) : Bool :=
  match s1 with
  | none => false
  | some s => lower s == lower s2

mutual

/-- `mbed_find_cjson_object` -/
def mbedFindCjsonObject (key : CString) : Json → Option Json
  | .array items => findInArray key items
  | .object items => findInObject key items
  | _ => none

def findInArray (key : CString) : List Json → Option Json
  | [] => none
  | item :: rest => (mbedFindCjsonObject key item).or (findInArray key rest)

def findInObject (key : CString) : List (CString × Json) → Option Json
  | [] => none
  | (string, item) :: rest =>
      if mbedStrCaseCmp (some string) key then some item
      else (mbedFindCjsonObject key item).or (findInObject key rest)

end

/-- `module_type_t` -/
inductive ModuleType where
  | all | js | so | bin | json | img
deriving DecidableEq, Repr

/-- `support_file_type` -/
def supportFileType : List (CString × ModuleType) :=
  [(.lit "js", .js), (.lit "bin", .bin), (.lit "so", .so), (.lit "json", .json), (.lit "img", .img)]

/-- The texts of a module. -/
inductive ModuleText where
  | name | version | hwVersion
deriving DecidableEq, Repr

def ModuleText.string : ModuleText → CString
  | .name => .lit "name"
  | .version => .lit "version"
  | .hwVersion => .lit "hw_version"

/-- A buffer of the heap, and the string in it once it has been filled. -/
structure Block where
  size : Nat
  content : Option CString

/-- `module_info_t`; a text is `NULL` or its buffer. -/
structure ModuleInfo where
  text : ModuleText → Option Block
  type : ModuleType
  moduleSize : Nat
  update : Nat
  offset : Nat

def ModuleInfo.withText (m : ModuleInfo) (text : ModuleText → Option Block) : ModuleInfo :=
  { m with text := text }

/-- All zero (`memset`). -/
def ModuleInfo.zero : ModuleInfo := ⟨fun _ => none, .all, 0, 0, 0⟩

/-- How a function ends early. -/
inductive Stop where
  /-- `NULL` is returned -/
  | null
  /-- a `NULL` is followed, or a copy is longer than its buffer -/
  | fault
deriving DecidableEq, Repr

/-! ## The metadata -/

def moduleList : CString := .lit "module_list"

/-- `cJSON_GetArraySize`, as an octet. -/
def totalCount (list : Json) : Nat := list.children.length % 256

/-- How often an item has the type (`count` in `mbed_get_module_num`). -/
def countType (type : ModuleType) (item : Option CString × Json) : Nat :=
  item.2.children.countP fun subitem => supportFileType.any fun e =>
    type == e.2 && mbedStrCaseCmp subitem.1 (.lit "type") &&
      mbedStrCaseCmp subitem.2.valuestring e.1

/-- `mbed_get_module_num` -/
def mbedGetModuleNum (root : Json) (type : ModuleType) : Nat :=
  match mbedFindCjsonObject moduleList root with
  | none => 0
  | some list =>
    if type = .all then totalCount list
    else ((list.children.take (totalCount list)).map (countType type)).sum % 256

/-- What the loop of `mbed_get_module_offset` adds for an item: its first size. -/
def itemSize (item : Option CString × Json) : Nat :=
  match item.2.children.find? fun subitem => mbedStrCaseCmp subitem.1 (.lit "size") with
  | none => 0
  | some subitem => u32OfInt subitem.2.valueint

/-- `mbed_get_module_offset` -/
def mbedGetModuleOffset (root : Json) (targetIndex : Nat) : Nat :=
  match mbedFindCjsonObject moduleList root with
  | none => 0
  | some list =>
    if totalCount list ≤ targetIndex then 0
    else u32 ((list.children.take targetIndex).map itemSize).sum

/-! ## A module -/

/-- A buffer for a text; `strlen` reads its string. The allocations are numbered. -/
def allocText (mem : Nat → Bool) (st : ModuleInfo × Nat) (t : ModuleText)
    (valuestring : Option CString) : Except Stop (ModuleInfo × Nat) :=
  match valuestring with
  | none => .error .fault
  | some s =>
    if mem st.2 then
      .ok (st.1.withText (Function.update st.1.text t (some ⟨s.strlen + 1, none⟩)), st.2 + 1)
    else .error .null

def prebuildChild (mem : Nat → Bool) (st : ModuleInfo × Nat) (subitem : Option CString × Json) :
    Except Stop (ModuleInfo × Nat) :=
  if mbedStrCaseCmp subitem.1 (.lit "name") then allocText mem st .name subitem.2.valuestring
  else if mbedStrCaseCmp subitem.1 (.lit "version") then
    allocText mem st .version subitem.2.valuestring
  else if mbedStrCaseCmp subitem.1 (.lit "hw_version") then
    allocText mem st .hwVersion subitem.2.valuestring
  else .ok st

/-- `mbed_prebuild_module`; `null` is its -1. -/
def mbedPrebuildModule (mem : Nat → Bool) (root : Json) (index n : Nat) :
    Except Stop (ModuleInfo × Nat) :=
  if mbedGetModuleNum root .all < index then .error .null
  else
    match mbedFindCjsonObject moduleList root with
    | none => .error .null
    | some list =>
      match list.children[index]? with
      | none => .error .fault
      | some item => item.2.children.foldlM (prebuildChild mem) (.zero, n)

/-- How `mbed_get_module_info` ends before its last line. -/
inductive InfoStop where
  | fault
  /-- with -1, which nobody asks for, and the module as it is -/
  | failed (m : ModuleInfo)

/-- A text is copied into its buffer. -/
def copyText (m : ModuleInfo) (t : ModuleText) (valuestring : Option CString) :
    Except InfoStop ModuleInfo :=
  match valuestring with
  | none => .error .fault
  | some s =>
    match m.text t with
    | none => .error (.failed m)
    | some b =>
      if s.strlen + 1 ≤ b.size then
        .ok (m.withText (Function.update m.text t (some { b with content := some s })))
      else .error .fault

/-- The type that a string stands for. -/
def fileType (valuestring : Option CString) : Option ModuleType :=
  (supportFileType.find? fun e => mbedStrCaseCmp valuestring e.1).map (·.2)

def infoChild (m : ModuleInfo) (subitem : Option CString × Json) : Except InfoStop ModuleInfo :=
  if mbedStrCaseCmp subitem.1 (.lit "name") then copyText m .name subitem.2.valuestring
  else if mbedStrCaseCmp subitem.1 (.lit "type") then
    .ok { m with type := (fileType subitem.2.valuestring).getD m.type }
  else if mbedStrCaseCmp subitem.1 (.lit "size") then
    .ok { m with moduleSize := u32OfInt subitem.2.valueint }
  else if mbedStrCaseCmp subitem.1 (.lit "update") then
    .ok { m with update := u32OfInt subitem.2.valueint % 256 }
  else if mbedStrCaseCmp subitem.1 (.lit "version") then copyText m .version subitem.2.valuestring
  else if mbedStrCaseCmp subitem.1 (.lit "hw_version") then
    copyText m .hwVersion subitem.2.valuestring
  else .ok m

/-- `mbed_get_module_info`: the module, whatever the status. -/
def mbedGetModuleInfo (root : Json) (moduleBeginOffset : Nat) (m : ModuleInfo) (index : Nat) :
    Except Stop ModuleInfo :=
  if mbedGetModuleNum root .all < index then .ok m
  else
    match mbedFindCjsonObject moduleList root with
    | none => .ok m
    | some list =>
      match list.children[index]? with
      | none => .error .fault
      | some item =>
        match item.2.children.foldlM infoChild m with
        | .error .fault => .error .fault
        | .error (.failed m) => .ok m
        | .ok m => .ok { m with offset := u32 (moduleBeginOffset + mbedGetModuleOffset root index) }

/-! ## The package -/

/-- `meta_info_t` -/
structure MetaInfo where
  moduleDataOffset : Nat
  metaObject : Option Json

/-- The loop of `pkg_acquire_module`, over what is left of the indices. -/
def acquireFrom (mem : Nat → Bool) (root : Json) (base : Nat) (type : ModuleType) (index : Int) :
    List Nat → Nat → Nat → Except Stop ModuleInfo
  | [], _, _ => .error .null
  | tmpIndex :: rest, localIndex, n => do
    let (m, n) ← mbedPrebuildModule mem root tmpIndex n
    let m ← mbedGetModuleInfo root base m tmpIndex
    if m.type = type then
      if (localIndex : Int) = index then return m
      else acquireFrom mem root base type index rest ((localIndex + 1) % 256) n
    else acquireFrom mem root base type index rest localIndex n

/-- `pkg_acquire_module` -/
def pkgAcquireModule (mem : Nat → Bool) (ctx : Option MetaInfo) (type : ModuleType) (index : Int) :
    Except Stop ModuleInfo :=
  match ctx with
  | none => .error .null
  | some metaInfo =>
    match metaInfo.metaObject with
    | none => .error .null
    | some root =>
      if mem 0 = false then .error .null
      else if type = .all then do
        let (m, _) ← mbedPrebuildModule mem root 0 1
        -- `index` becomes an octet
        mbedGetModuleInfo root metaInfo.moduleDataOffset m (index % 256).toNat
      else if (mbedGetModuleNum root .all : Int) < index then .error .null
      else acquireFrom mem root metaInfo.moduleDataOffset type index
        (List.range (mbedGetModuleNum root .all)) 0 1

/-! ## What the items carry -/

/-- What an item of the module list says of its module. -/
structure ModuleItem where
  text : ModuleText → CString
  type : CString
  size : Int

/-- The members of a name. -/
def members (key : CString) (children : List (Option CString × Json)) :
    List (Option CString × Json) :=
  children.filter fun c => mbedStrCaseCmp c.1 key

/-- An item has one member of each of the five names, strings and a number. -/
structure Describes (children : List (Option CString × Json)) (i : ModuleItem) : Prop where
  text : ∀ t : ModuleText, ∃ string, members t.string children = [(string, .string (i.text t))]
  type : ∃ string, members (.lit "type") children = [(string, .string i.type)]
  size : ∃ string d, members (.lit "size") children = [(string, .number i.size d)]

/-- The metadata has a module list, and its items describe modules. -/
def Lists (root : Json) (items : List ModuleItem) : Prop :=
  ∃ list, mbedFindCjsonObject moduleList root = some list ∧
    List.Forall₂ (fun item i => Describes item.2.children i) list.children items

/-- The module is of the type, by its string in `support_file_type`; every module is of `ALL`. -/
def ModuleItem.hasType (i : ModuleItem) (type : ModuleType) : Bool :=
  type == .all ||
    supportFileType.any fun e => e.2 == type && mbedStrCaseCmp (some i.type) e.1

/-- The modules of a type, with their positions in the list. -/
def ofType (type : ModuleType) (items : List ModuleItem) : List (ModuleItem × Nat) :=
  items.zipIdx.filter fun p => p.1.hasType type

/-- The element of a list at an index of the application. -/
def nth {α : Type} (l : List α) (index : Int) : Option α :=
  if 0 ≤ index then l[index.toNat]? else none

/-- It is this module of the package: its texts, its size, and where its data begin. -/
structure IsModule (base : Nat) (items : List ModuleItem) (i : ModuleItem) (pos : Nat)
    (m : ModuleInfo) : Prop where
  text : ∀ t, ∃ b, m.text t = some b ∧ b.content = some (i.text t)
  size : (m.moduleSize : Int) = i.size
  offset : (m.offset : Int) = base + ((items.take pos).map (·.size)).sum

/-- **The right module**: the one with the index among those of the type, or `NULL` if there is
    none. -/
def Acquired (base : Nat) (items : List ModuleItem) (type : ModuleType) (index : Int)
    (r : Except Stop ModuleInfo) : Prop :=
  match nth (ofType type items) index with
  | none => r = .error .null
  | some (i, pos) => ∃ m, r = .ok m ∧ IsModule base items i pos m

/-! ## The members of an item -/

section Members

variable {string : Option CString} {a b key : CString} {c : Option CString × Json}
  {children rest : List (Option CString × Json)} {i : ModuleItem}

theorem mbedStrCaseCmp_false (h : mbedStrCaseCmp string a = true) (hne : lower a ≠ lower b) :
    mbedStrCaseCmp string b = false := by
  cases string with
  | none => rfl
  | some s =>
    have hs : lower s = lower a := by simpa [mbedStrCaseCmp] using h
    simpa [mbedStrCaseCmp, hs] using hne

theorem ModuleText.eq_of_lower {t t' : ModuleText} (h : lower t.string = lower t'.string) :
    t = t' := by
  revert h
  cases t <;> cases t' <;> decide

theorem ModuleText.lower_ne {t : ModuleText} :
    lower t.string ≠ lower (.lit "type") ∧ lower t.string ≠ lower (.lit "size") ∧
      lower t.string ≠ lower (.lit "update") := by
  cases t <;> decide

theorem members_cons : members key (c :: rest) = members key [c] ++ members key rest :=
  List.filter_append [c] rest

theorem members_of_true (h : mbedStrCaseCmp c.1 key = true) : members key [c] = [c] := by
  simp [members, h]

theorem members_of_false (h : mbedStrCaseCmp c.1 key = false) : members key [c] = [] := by
  simp [members, h]

/-- The string of a text is there. -/
theorem Describes.valuestring (h : Describes children i) {t : ModuleText} (hc : c ∈ children)
    (ht : mbedStrCaseCmp c.1 t.string = true) : c.2.valuestring = some (i.text t) := by
  obtain ⟨string, hmembers⟩ := h.text t
  have hmem : c ∈ members t.string children := List.mem_filter.mpr ⟨hc, ht⟩
  rw [hmembers, List.mem_singleton] at hmem
  rw [hmem]
  rfl

end Members

/-! ## The two passes over an item -/

section Passes

variable {mem : Nat → Bool} {c : Option CString × Json} {children : List (Option CString × Json)}
  {m : ModuleInfo} {i first : ModuleItem}

/-- A name is that of one text at most. -/
theorem text_other {t : ModuleText} (h : mbedStrCaseCmp c.1 t.string = true) (t' : ModuleText)
    (hne : t' ≠ t) : mbedStrCaseCmp c.1 t'.string = false :=
  mbedStrCaseCmp_false h fun heq => hne (ModuleText.eq_of_lower heq).symm

theorem isText_or (c : Option CString × Json) :
    (∃ t : ModuleText, mbedStrCaseCmp c.1 t.string = true) ∨
      ∀ t : ModuleText, mbedStrCaseCmp c.1 t.string = false := by
  by_cases htext : ∃ t : ModuleText, mbedStrCaseCmp c.1 t.string = true
  · exact .inl htext
  · exact .inr fun t => Bool.eq_false_iff.mpr fun h => htext ⟨t, h⟩

theorem prebuildChild_text {st : ModuleInfo × Nat} {t : ModuleText}
    (h : mbedStrCaseCmp c.1 t.string = true) :
    prebuildChild mem st c = allocText mem st t c.2.valuestring := by
  cases t with
  | name => exact if_pos h
  | version =>
    have hname : mbedStrCaseCmp c.1 (.lit "name") = false := text_other h .name (by decide)
    rw [prebuildChild, hname]
    exact if_pos h
  | hwVersion =>
    have hname : mbedStrCaseCmp c.1 (.lit "name") = false := text_other h .name (by decide)
    have hversion : mbedStrCaseCmp c.1 (.lit "version") = false :=
      text_other h .version (by decide)
    rw [prebuildChild, hname, hversion]
    exact if_pos h

theorem prebuildChild_other {st : ModuleInfo × Nat}
    (h : ∀ t : ModuleText, mbedStrCaseCmp c.1 t.string = false) :
    prebuildChild mem st c = .ok st := by
  have hname : mbedStrCaseCmp c.1 (.lit "name") = false := h .name
  have hversion : mbedStrCaseCmp c.1 (.lit "version") = false := h .version
  have hhw : mbedStrCaseCmp c.1 (.lit "hw_version") = false := h .hwVersion
  rw [prebuildChild, hname, hversion, hhw]
  rfl

/-- The buffer that a pass of `mbed_prebuild_module` leaves for a text: the last of those it has
    allocated. -/
def blockAfter (b : Option Block) (members : List (Option CString × Json)) : Option Block :=
  members.foldl (fun _ c => c.2.valuestring.map fun s => ⟨s.strlen + 1, none⟩) b

theorem foldlM_prebuildChild (children : List (Option CString × Json))
    (hmem : ∀ k, mem k = true) : ∀ {m : ModuleInfo} {n : Nat},
    (∀ c ∈ children, ∀ t : ModuleText, mbedStrCaseCmp c.1 t.string = true →
      ∃ s, c.2.valuestring = some s) →
    ∃ n', children.foldlM (prebuildChild mem) (m, n) = .ok
      (m.withText fun t => blockAfter (m.text t) (members t.string children), n') := by
  induction children with
  | nil => exact fun {m n} _ => ⟨n, rfl⟩
  | cons c rest ih =>
    intro m n hstrings
    have hrest := fun c hc => hstrings c (List.mem_cons_of_mem _ hc)
    rcases isText_or c with ⟨t, ht⟩ | hfalse
    · obtain ⟨s, hs⟩ := hstrings c List.mem_cons_self t ht
      have hstep : prebuildChild mem (m, n) c = .ok
          (m.withText (Function.update m.text t (some ⟨s.strlen + 1, none⟩)), n + 1) := by
        rw [prebuildChild_text ht, hs]
        exact if_pos (hmem n)
      have hafter : ∀ t' : ModuleText,
          blockAfter (Function.update m.text t (some ⟨s.strlen + 1, none⟩) t')
            (members t'.string rest) = blockAfter (m.text t') (members t'.string (c :: rest)) := by
        intro t'
        rw [members_cons]
        by_cases heq : t' = t
        · subst heq
          rw [members_of_true ht, Function.update_self]
          simp [blockAfter, hs]
        · rw [members_of_false (text_other ht t' heq), Function.update_of_ne heq]
          rfl
      obtain ⟨n', hn⟩ := ih (m := _) (n := n + 1) hrest
      refine ⟨n', ?_⟩
      rw [List.foldlM_cons, hstep]
      exact hn.trans (congrArg (fun f => Except.ok (m.withText f, n')) (funext hafter))
    · have hafter : ∀ t : ModuleText, blockAfter (m.text t) (members t.string rest) =
          blockAfter (m.text t) (members t.string (c :: rest)) := fun t => by
        rw [members_cons, members_of_false (hfalse t)]
        rfl
      obtain ⟨n', hn⟩ := ih (m := m) (n := n) hrest
      refine ⟨n', ?_⟩
      rw [List.foldlM_cons, prebuildChild_other hfalse]
      exact hn.trans (congrArg (fun f => Except.ok (m.withText f, n')) (funext hafter))

/-! `mbed_get_module_info`, by the name of the member. -/

theorem infoChild_text {t : ModuleText} (h : mbedStrCaseCmp c.1 t.string = true) :
    infoChild m c = copyText m t c.2.valuestring := by
  have htype := mbedStrCaseCmp_false h ModuleText.lower_ne.1
  have hsize := mbedStrCaseCmp_false h ModuleText.lower_ne.2.1
  have hupdate := mbedStrCaseCmp_false h ModuleText.lower_ne.2.2
  cases t with
  | name => exact if_pos h
  | version =>
    have hname : mbedStrCaseCmp c.1 (.lit "name") = false := text_other h .name (by decide)
    rw [infoChild, hname, htype, hsize, hupdate]
    exact if_pos h
  | hwVersion =>
    have hname : mbedStrCaseCmp c.1 (.lit "name") = false := text_other h .name (by decide)
    have hversion : mbedStrCaseCmp c.1 (.lit "version") = false :=
      text_other h .version (by decide)
    rw [infoChild, hname, htype, hsize, hupdate, hversion]
    exact if_pos h

theorem infoChild_type (htext : ∀ t : ModuleText, mbedStrCaseCmp c.1 t.string = false)
    (h : mbedStrCaseCmp c.1 (.lit "type") = true) :
    infoChild m c = .ok { m with type := (fileType c.2.valuestring).getD m.type } := by
  have hname : mbedStrCaseCmp c.1 (.lit "name") = false := htext .name
  rw [infoChild, hname]
  exact if_pos h

theorem infoChild_size (htext : ∀ t : ModuleText, mbedStrCaseCmp c.1 t.string = false)
    (h : mbedStrCaseCmp c.1 (.lit "size") = true) :
    infoChild m c = .ok { m with moduleSize := u32OfInt c.2.valueint } := by
  have hname : mbedStrCaseCmp c.1 (.lit "name") = false := htext .name
  have htype := mbedStrCaseCmp_false (b := .lit "type") h (by decide)
  rw [infoChild, hname, htype]
  exact if_pos h

theorem infoChild_other (htext : ∀ t : ModuleText, mbedStrCaseCmp c.1 t.string = false)
    (htype : mbedStrCaseCmp c.1 (.lit "type") = false)
    (hsize : mbedStrCaseCmp c.1 (.lit "size") = false) :
    ∃ update, infoChild m c = .ok { m with update := update } := by
  have hname : mbedStrCaseCmp c.1 (.lit "name") = false := htext .name
  have hversion : mbedStrCaseCmp c.1 (.lit "version") = false := htext .version
  have hhw : mbedStrCaseCmp c.1 (.lit "hw_version") = false := htext .hwVersion
  rw [infoChild, hname, htype, hsize, hversion, hhw]
  by_cases hupdate : mbedStrCaseCmp c.1 (.lit "update") = true
  · exact ⟨_, if_pos hupdate⟩
  · exact ⟨m.update, if_neg hupdate⟩

/-- **What `mbed_get_module_info` has made of the members**, each field by those of its name. -/
structure Filled (children : List (Option CString × Json)) (m m' : ModuleInfo) : Prop where
  text : ∀ t : ModuleText, m'.text t = (members t.string children).foldl
    (fun b c => b.map fun b => { b with content := c.2.valuestring }) (m.text t)
  type : m'.type = (members (.lit "type") children).foldl
    (fun type c => (fileType c.2.valuestring).getD type) m.type
  size : m'.moduleSize = (members (.lit "size") children).foldl
    (fun _ c => u32OfInt c.2.valueint) m.moduleSize

theorem Filled.cons {m₁ m₂ : ModuleInfo} {rest : List (Option CString × Json)}
    (h : Filled [c] m m₁) (hrest : Filled rest m₁ m₂) : Filled (c :: rest) m m₂ where
  text t := by rw [members_cons, List.foldl_append, ← h.text, hrest.text]
  type := by rw [members_cons, List.foldl_append, ← h.type, hrest.type]
  size := by rw [members_cons, List.foldl_append, ← h.size, hrest.size]

/-- The texts of the members fit into buffers of these sizes. -/
def Fits (children : List (Option CString × Json)) (size : ModuleText → Nat) : Prop :=
  ∀ c ∈ children, ∀ t : ModuleText, mbedStrCaseCmp c.1 t.string = true →
    ∀ s, c.2.valuestring = some s → s.strlen + 1 ≤ size t

/-- A module whose texts have buffers of these sizes. -/
def HasBlocks (m : ModuleInfo) (size : ModuleText → Nat) : Prop :=
  ∀ t, ∃ b, m.text t = some b ∧ b.size = size t

/-- A text: it is taken over if it fits, and else copied behind its buffer. -/
theorem infoChild_spec_text {size : ModuleText → Nat} (hblocks : HasBlocks m size)
    {t : ModuleText} (ht : mbedStrCaseCmp c.1 t.string = true) {s : CString}
    (hs : c.2.valuestring = some s) :
    (Fits [c] size ∧ ∃ m', infoChild m c = .ok m' ∧ Filled [c] m m' ∧ HasBlocks m' size) ∨
      (¬Fits [c] size ∧ infoChild m c = .error .fault) := by
  obtain ⟨b, hb, hsize⟩ := hblocks t
  rw [infoChild_text ht]
  by_cases hfits : s.strlen + 1 ≤ b.size
  · refine Or.inl ⟨?_, m.withText (Function.update m.text t (some { b with content := some s })),
      ?_, ⟨fun t' => ?_, ?_, ?_⟩, fun t' => ?_⟩
    · intro c' hc' t' ht' s' hs'
      obtain rfl := List.mem_singleton.mp hc'
      by_cases heq : t' = t
      · obtain rfl := Option.some.inj (hs.symm.trans hs')
        rw [heq, ← hsize]
        exact hfits
      · exact absurd ht' (by simp [text_other ht t' heq])
    · simp only [copyText, hs, hb, if_pos hfits]
    · by_cases heq : t' = t
      · subst heq
        rw [members_of_true ht]
        simp [ModuleInfo.withText, hb, hs]
      · rw [members_of_false (text_other ht t' heq)]
        simp [ModuleInfo.withText, Function.update_of_ne heq]
    · rw [members_of_false (mbedStrCaseCmp_false ht ModuleText.lower_ne.1)]
      rfl
    · rw [members_of_false (mbedStrCaseCmp_false ht ModuleText.lower_ne.2.1)]
      rfl
    · by_cases heq : t' = t
      · subst heq
        exact ⟨{ b with content := some s }, by simp [ModuleInfo.withText], hsize⟩
      · obtain ⟨b', hb', hsize'⟩ := hblocks t'
        exact ⟨b', by simp [ModuleInfo.withText, Function.update_of_ne heq, hb'], hsize'⟩
  · refine Or.inr ⟨fun h => hfits ?_, ?_⟩
    · rw [hsize]
      exact h c (List.mem_singleton_self c) t ht s hs
    · simp only [copyText, hs, hb, if_neg hfits]

/-- What is no text is taken over, or makes no difference. -/
theorem infoChild_spec_other {size : ModuleText → Nat} (hblocks : HasBlocks m size)
    (hfalse : ∀ t : ModuleText, mbedStrCaseCmp c.1 t.string = false) :
    Fits [c] size ∧ ∃ m', infoChild m c = .ok m' ∧ Filled [c] m m' ∧ HasBlocks m' size := by
  have hfits : Fits [c] size := fun c' hc' t ht => by
    obtain rfl := List.mem_singleton.mp hc'
    exact absurd ht (by simp [hfalse t])
  have hkept : ∀ t : ModuleText, m.text t = (members t.string [c]).foldl
      (fun b c => b.map fun b => { b with content := c.2.valuestring }) (m.text t) := fun t => by
    rw [members_of_false (hfalse t)]
    rfl
  refine ⟨hfits, ?_⟩
  by_cases htype : mbedStrCaseCmp c.1 (.lit "type") = true
  · refine ⟨_, infoChild_type hfalse htype, ⟨hkept, ?_, ?_⟩, hblocks⟩
    · rw [members_of_true htype]
      rfl
    · rw [members_of_false (mbedStrCaseCmp_false htype (by decide))]
      rfl
  have htype : mbedStrCaseCmp c.1 (.lit "type") = false := Bool.eq_false_iff.mpr htype
  by_cases hsize : mbedStrCaseCmp c.1 (.lit "size") = true
  · refine ⟨_, infoChild_size hfalse hsize, ⟨hkept, ?_, ?_⟩, hblocks⟩
    · rw [members_of_false htype]
      rfl
    · rw [members_of_true hsize]
      rfl
  have hsize : mbedStrCaseCmp c.1 (.lit "size") = false := Bool.eq_false_iff.mpr hsize
  obtain ⟨update, hupdate⟩ := infoChild_other (m := m) hfalse htype hsize
  refine ⟨_, hupdate, ⟨hkept, ?_, ?_⟩, hblocks⟩
  · rw [members_of_false htype]
    rfl
  · rw [members_of_false hsize]
    rfl

/-- One member of an item. -/
theorem infoChild_spec {size : ModuleText → Nat} (hblocks : HasBlocks m size)
    (hstrings : ∀ t : ModuleText, mbedStrCaseCmp c.1 t.string = true →
      ∃ s, c.2.valuestring = some s) :
    (Fits [c] size ∧ ∃ m', infoChild m c = .ok m' ∧ Filled [c] m m' ∧ HasBlocks m' size) ∨
      (¬Fits [c] size ∧ infoChild m c = .error .fault) := by
  rcases isText_or c with ⟨t, ht⟩ | hfalse
  · obtain ⟨s, hs⟩ := hstrings t ht
    exact infoChild_spec_text hblocks ht hs
  · exact .inl (infoChild_spec_other hblocks hfalse)

theorem foldlM_infoChild {size : ModuleText → Nat} : ∀ {m : ModuleInfo}, HasBlocks m size →
    (∀ c ∈ children, ∀ t : ModuleText, mbedStrCaseCmp c.1 t.string = true →
      ∃ s, c.2.valuestring = some s) →
    (Fits children size ∧ ∃ m', children.foldlM infoChild m = .ok m' ∧ Filled children m m' ∧
        HasBlocks m' size) ∨
      (¬Fits children size ∧ children.foldlM infoChild m = .error .fault) := by
  induction children with
  | nil =>
    intro m hblocks _
    exact Or.inl ⟨fun c hc => absurd hc List.not_mem_nil, m, rfl, ⟨fun _ => rfl, rfl, rfl⟩, hblocks⟩
  | cons c rest ih =>
    intro m hblocks hstrings
    have hfits : Fits (c :: rest) size ↔ Fits [c] size ∧ Fits rest size := by
      simp [Fits]
    rw [List.foldlM_cons, hfits]
    rcases infoChild_spec hblocks (hstrings c List.mem_cons_self) with
      ⟨hc, m₁, hstep, hfilled, hblocks₁⟩ | ⟨hc, hstep⟩
    · rw [hstep]
      rcases ih hblocks₁ (fun c hc => hstrings c (List.mem_cons_of_mem _ hc)) with
        ⟨hrest, m₂, hrun, hfilled₂, hblocks₂⟩ | ⟨hrest, hrun⟩
      · exact Or.inl ⟨⟨hc, hrest⟩, m₂, hrun, hfilled.cons hfilled₂, hblocks₂⟩
      · exact Or.inr ⟨fun h => hrest h.2, hrun⟩
    · rw [hstep]
      exact Or.inr ⟨fun h => hc h.1, rfl⟩

end Passes

/-! ## The items of the list -/

/-- What `mbed_prebuild_module` makes of an item. -/
def ModuleItem.prebuilt (i : ModuleItem) : ModuleInfo :=
  ModuleInfo.zero.withText fun t => some ⟨(i.text t).strlen + 1, none⟩

/-- The offset that `mbed_get_module_offset` reads out of the items. -/
def sizesBefore (items : List ModuleItem) (pos : Nat) : Nat :=
  if items.length % 256 ≤ pos then 0 else u32 ((items.take pos).map fun i => u32OfInt i.size).sum

/-- What `mbed_get_module_info` makes of an item. -/
structure Informed (base : Nat) (items : List ModuleItem) (i : ModuleItem) (pos : Nat)
    (m : ModuleInfo) : Prop where
  text : ∀ t, ∃ b, m.text t = some b ∧ b.content = some (i.text t)
  type : m.type = (fileType (some i.type)).getD .all
  size : m.moduleSize = u32OfInt i.size
  offset : m.offset = u32 (base + sizesBefore items pos)

section Items

variable {mem : Nat → Bool} {root list : Json} {items : List ModuleItem} {i : ModuleItem}
  {item : Option CString × Json} {pos n : Nat}

theorem itemSize_of_describes (h : Describes item.2.children i) :
    itemSize item = u32OfInt i.size := by
  obtain ⟨string, d, hsize⟩ := h.size
  have hfind : item.2.children.find? (fun subitem => mbedStrCaseCmp subitem.1 (.lit "size")) =
      some (string, .number i.size d) := by
    rw [← List.head?_filter]
    exact congrArg List.head? hsize
  simp only [itemSize, hfind, Json.valueint]

/-- The module list of the metadata, and the items it describes. -/
structure ListedIn (root list : Json) (items : List ModuleItem) : Prop where
  find : mbedFindCjsonObject moduleList root = some list
  all : List.Forall₂ (fun item i => Describes item.2.children i) list.children items

namespace ListedIn

theorem mbedGetModuleNum (h : ListedIn root list items) :
    mbedGetModuleNum root .all = items.length % 256 := by
  simp only [Package.mbedGetModuleNum, h.find, if_true, totalCount, h.all.length_eq]

theorem getElem? (h : ListedIn root list items) (hi : items[pos]? = some i) :
    ∃ item, list.children[pos]? = some item ∧ Describes item.2.children i := by
  obtain ⟨hlt, rfl⟩ := List.getElem?_eq_some_iff.mp hi
  have hlt' : pos < list.children.length := h.all.length_eq ▸ hlt
  exact ⟨_, List.getElem?_eq_getElem hlt', h.all.get hlt' hlt⟩

theorem getElem?_none (h : ListedIn root list items) (hi : items[pos]? = none) :
    list.children[pos]? = none := by
  rw [List.getElem?_eq_none_iff] at hi ⊢
  rwa [h.all.length_eq]

theorem mbedGetModuleOffset (h : ListedIn root list items) :
    mbedGetModuleOffset root pos = sizesBefore items pos := by
  have hmap : (list.children.take pos).map itemSize =
      (items.take pos).map fun i => u32OfInt i.size := by
    have hsizes : ∀ {l : List (Option CString × Json)} {is : List ModuleItem},
        List.Forall₂ (fun item i => Describes item.2.children i) l is →
          l.map itemSize = is.map fun i => u32OfInt i.size := by
      intro l is hl
      induction hl with
      | nil => rfl
      | cons hd _ ih => rw [List.map_cons, List.map_cons, itemSize_of_describes hd, ih]
    exact hsizes (List.forall₂_take pos h.all)
  simp only [Package.mbedGetModuleOffset, h.find, totalCount, h.all.length_eq, sizesBefore, hmap]

/-- The first pass over an item. -/
theorem prebuild (h : ListedIn root list items) (hmem : ∀ k, mem k = true)
    (hi : items[pos]? = some i) (hpos : pos ≤ items.length % 256) :
    ∃ n', mbedPrebuildModule mem root pos n = .ok (i.prebuilt, n') := by
  obtain ⟨item, hitem, hdescribes⟩ := h.getElem? hi
  obtain ⟨n', hn⟩ := foldlM_prebuildChild item.2.children hmem (m := .zero) (n := n)
    fun c hc t ht => ⟨_, hdescribes.valuestring hc ht⟩
  refine ⟨n', ?_⟩
  have hafter : ∀ t : ModuleText,
      blockAfter (ModuleInfo.zero.text t) (members t.string item.2.children) =
        some ⟨(i.text t).strlen + 1, none⟩ := fun t => by
    obtain ⟨string, hmembers⟩ := hdescribes.text t
    rw [hmembers]
    rfl
  rw [mbedPrebuildModule, h.mbedGetModuleNum, if_neg (Nat.not_lt.mpr hpos)]
  simp only [h.find, hitem]
  exact hn.trans (congrArg (fun f => Except.ok (ModuleInfo.zero.withText f, n')) (funext hafter))

/-- The second pass over an item, into the buffers of `first`. -/
theorem info (h : ListedIn root list items) (base : Nat) (first : ModuleItem)
    (hi : items[pos]? = some i)
    (hpos : pos ≤ items.length % 256) :
    ((∀ t, (i.text t).strlen ≤ (first.text t).strlen) ∧
        ∃ m, mbedGetModuleInfo root base first.prebuilt pos = .ok m ∧ Informed base items i pos m) ∨
      (¬(∀ t, (i.text t).strlen ≤ (first.text t).strlen) ∧
        mbedGetModuleInfo root base first.prebuilt pos = .error .fault) := by
  obtain ⟨item, hitem, hdescribes⟩ := h.getElem? hi
  have hfits : Fits item.2.children (fun t => (first.text t).strlen + 1) ↔
      ∀ t, (i.text t).strlen ≤ (first.text t).strlen := by
    constructor
    · intro hf t
      obtain ⟨string, hmembers⟩ := hdescribes.text t
      have hmem : (string, Json.string (i.text t)) ∈ members t.string item.2.children := by
        rw [hmembers]
        exact List.mem_singleton_self _
      obtain ⟨hmem, hname⟩ := List.mem_filter.mp hmem
      exact Nat.le_of_succ_le_succ (hf _ hmem t hname (i.text t) rfl)
    · intro hle c hc t ht s hs
      obtain rfl := Option.some.inj ((hdescribes.valuestring hc ht).symm.trans hs)
      exact Nat.succ_le_succ (hle t)
  have hblocks : HasBlocks first.prebuilt fun t => (first.text t).strlen + 1 :=
    fun t => ⟨_, rfl, rfl⟩
  rw [mbedGetModuleInfo, h.mbedGetModuleNum, if_neg (Nat.not_lt.mpr hpos)]
  simp only [h.find, hitem]
  rcases foldlM_infoChild hblocks fun c hc t ht => ⟨_, hdescribes.valuestring hc ht⟩ with
    ⟨hf, m, hrun, hfilled, -⟩ | ⟨hf, hrun⟩
  · refine Or.inl ⟨hfits.mp hf, _, by rw [hrun], fun t => ?_, ?_, ?_, ?_⟩
    · obtain ⟨string, hmembers⟩ := hdescribes.text t
      refine ⟨⟨(first.text t).strlen + 1, some (i.text t)⟩, ?_, rfl⟩
      rw [hfilled.text t, hmembers]
      rfl
    · obtain ⟨string, hmembers⟩ := hdescribes.type
      exact hfilled.type.trans (by rw [hmembers]; rfl)
    · obtain ⟨string, d, hmembers⟩ := hdescribes.size
      exact hfilled.size.trans (by rw [hmembers]; rfl)
    · rw [h.mbedGetModuleOffset]
  · exact Or.inr ⟨fun hle => hf (hfits.mpr hle), by rw [hrun]⟩

end ListedIn

end Items

/-! ## The module of a type -/

/-- A string stands for one type at most. -/
theorem supportFileType_eq : ∀ e ∈ supportFileType, ∀ e' ∈ supportFileType,
    lower e.1 = lower e'.1 → e = e' := by
  decide

theorem ModuleItem.hasType_iff {i : ModuleItem} {type : ModuleType} (htype : type ≠ .all) :
    i.hasType type = true ↔ (fileType (some i.type)).getD .all = type := by
  simp only [hasType, Bool.or_eq_true, beq_iff_eq, htype, false_or, List.any_eq_true,
    Bool.and_eq_true]
  rcases hfind : supportFileType.find? (fun e => mbedStrCaseCmp (some i.type) e.1) with _ | e
  · rw [fileType, hfind]
    refine iff_of_false ?_ fun h => htype h.symm
    rintro ⟨e, he, -, hname⟩
    exact List.find?_eq_none.mp hfind e he hname
  · have hmem := List.mem_of_find?_eq_some hfind
    have hname : mbedStrCaseCmp (some i.type) e.1 = true := by
      simpa using List.find?_some hfind
    rw [fileType, hfind]
    constructor
    · rintro ⟨e', he', rfl, hname'⟩
      have hlower : lower e.1 = lower e'.1 := by
        have h₁ : lower i.type = lower e.1 := by simpa [mbedStrCaseCmp] using hname
        have h₂ : lower i.type = lower e'.1 := by simpa [mbedStrCaseCmp] using hname'
        exact h₁.symm.trans h₂
      rw [supportFileType_eq e hmem e' he' hlower]
      rfl
    · intro htype'
      exact ⟨e, hmem, htype', hname⟩

theorem nth_cons {α : Type} {a : α} {l : List α} {index : Int} :
    nth (a :: l) index = if index = 0 then some a else nth l (index - 1) := by
  rcases Int.lt_trichotomy index 0 with h | rfl | h
  · rw [nth, if_neg (by omega), if_neg (by omega), nth, if_neg (by omega)]
  · rfl
  · rw [nth, if_pos (by omega), if_neg (by omega), nth, if_pos (by omega)]
    obtain ⟨k, rfl⟩ : ∃ k : Nat, index = k + 1 := ⟨(index - 1).toNat, by omega⟩
    simp

section Loop

variable {mem : Nat → Bool} {root list : Json} {items : List ModuleItem} {type : ModuleType}

/-- What `pkg_acquire_module` has found, if it is `some`. -/
def Found (base : Nat) (items : List ModuleItem) (r : Except Stop ModuleInfo) :
    Option (ModuleItem × Nat) → Prop
  | none => r = .error .null
  | some p => ∃ m, r = .ok m ∧ Informed base items p.1 p.2 m

/-- **The loop** finds the module among those items that its count reaches. It is stated from any
    item on, with the number of the items of the type in front of it, since the index is compared
    with that number and not with the item's own. -/
theorem acquireFrom_spec (h : ListedIn root list items) (hmem : ∀ k, mem k = true)
    (htype : type ≠ .all) (base : Nat) (index : Int) (k : Nat) : ∀ (pos localIndex n : Nat),
    pos + k = items.length % 256 → localIndex ≤ pos →
    Found base items (acquireFrom mem root base type index (List.range' pos k) localIndex n)
      (nth (((items.zipIdx.drop pos).take k).filter fun p => p.1.hasType type)
        (index - localIndex)) := by
  induction k with
  | zero =>
    intro pos localIndex n _ _
    simp [nth, Found, acquireFrom]
  | succ k ih =>
    intro pos localIndex n hcount hlocal
    have hlen : items.length % 256 ≤ items.length := Nat.mod_le _ _
    have hlt : pos < items.length := by omega
    have hsmall : items.length % 256 < 256 := Nat.mod_lt _ (by decide)
    obtain ⟨i, hi⟩ : ∃ i, items[pos]? = some i := ⟨_, List.getElem?_eq_getElem hlt⟩
    have hdrop : items.zipIdx.drop pos = (i, pos) :: items.zipIdx.drop (pos + 1) := by
      have hget : items[pos] = i := Option.some.inj ((List.getElem?_eq_getElem hlt).symm.trans hi)
      rw [List.drop_eq_getElem_cons (by simpa using hlt)]
      simp [hget]
    obtain ⟨n', hpre⟩ := h.prebuild (n := n) hmem hi (by omega)
    obtain ⟨m, hinfo, hm⟩ : ∃ m, mbedGetModuleInfo root base i.prebuilt pos = .ok m ∧
        Informed base items i pos m := by
      rcases h.info base i hi (by omega) with ⟨-, hm⟩ | ⟨hno, -⟩
      · exact hm
      · exact absurd (fun t => Nat.le_refl _) hno
    have hstep : acquireFrom mem root base type index (List.range' pos (k + 1)) localIndex n =
        if m.type = type then
          if (localIndex : Int) = index then .ok m
          else acquireFrom mem root base type index (List.range' (pos + 1) k)
            ((localIndex + 1) % 256) n'
        else acquireFrom mem root base type index (List.range' (pos + 1) k) localIndex n' := by
      rw [List.range'_succ, acquireFrom, hpre]
      show (mbedGetModuleInfo root base i.prebuilt pos >>= fun m => _) = _
      rw [hinfo]
      rfl
    have htypes : m.type = type ↔ i.hasType type = true := by
      rw [hm.type, ModuleItem.hasType_iff htype]
    rw [hstep, hdrop, List.take_succ_cons, List.filter_cons]
    by_cases hmatch : i.hasType type = true
    · rw [if_pos (htypes.mpr hmatch), if_pos hmatch, nth_cons]
      by_cases hindex : (localIndex : Int) = index
      · rw [if_pos hindex, if_pos (by omega)]
        exact ⟨m, rfl, hm⟩
      · rw [if_neg hindex, if_neg (by omega), Nat.mod_eq_of_lt (by omega : localIndex + 1 < 256)]
        have hrest := ih (pos + 1) (localIndex + 1) n' (by omega) (by omega)
        have hshift : index - (localIndex + 1 : Nat) = index - localIndex - 1 := by omega
        rwa [hshift] at hrest
    · rw [if_neg fun h => hmatch (htypes.mp h), if_neg hmatch]
      exact ih (pos + 1) localIndex n' (by omega) (by omega)

end Loop

/-- The modules of a type among those that a count reaches. -/
theorem nth_reached {items : List ModuleItem} {type : ModuleType} {index : Int} {count : Nat}
    (hcount : count ≤ items.length) :
    nth ((items.zipIdx.take count).filter fun p => p.1.hasType type) index =
      (nth (ofType type items) index).filter fun p => decide (p.2 < count) := by
  have hsplit : items.zipIdx = (items.take count).zipIdx ++ (items.drop count).zipIdx count := by
    have happend : (items.take count ++ items.drop count).zipIdx =
        (items.take count).zipIdx ++ (items.drop count).zipIdx (0 + (items.take count).length) :=
      List.zipIdx_append
    rwa [List.take_append_drop, List.length_take_of_le hcount, Nat.zero_add] at happend
  have htake : items.zipIdx.take count = (items.take count).zipIdx := by
    rw [hsplit]
    exact List.take_left' (by simp [hcount])
  rw [htake, ofType, hsplit, List.filter_append]
  by_cases hindex : 0 ≤ index
  swap
  · rw [nth, nth, if_neg hindex, if_neg hindex]
    rfl
  rw [nth, nth, if_pos hindex, if_pos hindex, List.getElem?_append]
  by_cases hlt : index.toNat < (((items.take count).zipIdx).filter fun p => p.1.hasType type).length
  · rw [if_pos hlt, List.getElem?_eq_getElem hlt, Option.filter_some, if_pos]
    have hmem := List.mem_of_mem_filter (List.getElem_mem hlt)
    have hsnd := List.snd_lt_of_mem_zipIdx hmem
    rw [List.length_take_of_le hcount] at hsnd
    simpa using hsnd
  · rw [if_neg hlt, List.getElem?_eq_none (Nat.not_lt.mp hlt)]
    symm
    rw [Option.filter_eq_none_iff]
    intro p hp
    have hmem := List.mem_of_mem_filter (List.mem_of_getElem? hp)
    have hle := List.le_snd_of_mem_zipIdx hmem
    simpa using hle

theorem ofType_all {items : List ModuleItem} : ofType .all items = items.zipIdx :=
  List.filter_eq_self.mpr fun _ _ => rfl

theorem nth_zipIdx {items : List ModuleItem} {index : Int} :
    nth items.zipIdx index = (nth items index).map fun i => (i, index.toNat) := by
  rw [nth, nth]
  split
  · simp [List.getElem?_zipIdx]
  · rfl

theorem Informed.isModule_iff {base pos pos' : Nat} {items : List ModuleItem} {i j : ModuleItem}
    {m : ModuleInfo} (hm : Informed base items j pos m) :
    IsModule base items i pos' m ↔ (∀ t, j.text t = i.text t) ∧ (u32OfInt j.size : Int) = i.size ∧
      (u32 (base + sizesBefore items pos) : Int) = base + ((items.take pos').map (·.size)).sum := by
  constructor
  · intro h
    refine ⟨fun t => ?_, by rw [← hm.size]; exact h.size, by rw [← hm.offset]; exact h.offset⟩
    obtain ⟨b, hb, hcontent⟩ := h.text t
    obtain ⟨b', hb', hcontent'⟩ := hm.text t
    obtain rfl := Option.some.inj (hb.symm.trans hb')
    exact Option.some.inj (hcontent'.symm.trans hcontent)
  · rintro ⟨htext, hsize, hoffset⟩
    refine ⟨fun t => ?_, by rw [hm.size]; exact hsize, by rw [hm.offset]; exact hoffset⟩
    obtain ⟨b, hb, hcontent⟩ := hm.text t
    exact ⟨b, hb, by rw [hcontent, htext]⟩

/-! ## The result -/

/-- When the right module is acquired. For `ALL`, the index as an octet is that of the item, and not
    greater than the count; the item's texts are no longer than the first item's. For another type,
    the count reaches the module. The size and the offset are what they are in 32 bits. -/
def Acquirable (base : Nat) (items : List ModuleItem) (type : ModuleType) (index : Int) : Prop :=
  if type = .all then
    ∃ first i j, items[0]? = some first ∧ nth items index = some i ∧
      items[(index % 256).toNat]? = some j ∧ (index % 256).toNat ≤ items.length % 256 ∧
      (∀ t, (j.text t).strlen ≤ (first.text t).strlen) ∧ (∀ t, j.text t = i.text t) ∧
      (u32OfInt j.size : Int) = i.size ∧
      (u32 (base + sizesBefore items (index % 256).toNat) : Int) =
        base + ((items.take index.toNat).map (·.size)).sum
  else
    ∀ i pos, nth (ofType type items) index = some (i, pos) → pos < items.length % 256 ∧
      (u32OfInt i.size : Int) = i.size ∧
      (u32 (base + sizesBefore items pos) : Int) = base + ((items.take pos).map (·.size)).sum

section Result

variable {mem : Nat → Bool} {root list : Json} {items : List ModuleItem} {type : ModuleType}
  {base : Nat} {index : Int}

theorem acquired_of_ok {m : ModuleInfo} {p : ModuleItem × Nat}
    (hp : nth (ofType type items) index = some p) :
    Acquired base items type index (.ok m) ↔ IsModule base items p.1 p.2 m := by
  rw [Acquired, hp]
  constructor
  · rintro ⟨m', hm', hmodule⟩
    rwa [Except.ok.inj hm']
  · intro hmodule
    exact ⟨m, rfl, hmodule⟩

theorem not_acquired_of_none {m : ModuleInfo} (hp : nth (ofType type items) index = none) :
    ¬Acquired base items type index (.ok m) := by
  rw [Acquired, hp]
  exact fun h => absurd h (by simp)

theorem not_acquired_fault : ¬Acquired base items type index (.error .fault) := by
  rw [Acquired]
  rcases nth (ofType type items) index with _ | p
  · exact fun h => absurd h (by simp)
  · rintro ⟨m, hm, -⟩
    exact absurd hm (by simp)

/-- The buffers of a module that is not filled have no content. -/
theorem not_acquired_prebuilt {i : ModuleItem} :
    ¬Acquired base items type index (.ok i.prebuilt) := by
  rcases hp : nth (ofType type items) index with _ | p
  · exact not_acquired_of_none hp
  · rw [acquired_of_ok hp]
    intro hmodule
    obtain ⟨b, hb, hcontent⟩ := hmodule.text .name
    obtain rfl := Option.some.inj hb
    exact absurd hcontent (by simp)

theorem acquired_all (h : ListedIn root list items) (hmem : ∀ k, mem k = true) :
    Acquired base items .all index (pkgAcquireModule mem (some ⟨base, some root⟩) .all index) ↔
      Acquirable base items .all index := by
  have hnth : nth (ofType .all items) index =
      (nth items index).map fun i => (i, index.toNat) := by
    rw [ofType_all, nth_zipIdx]
  have hrun : pkgAcquireModule mem (some ⟨base, some root⟩) .all index =
      (mbedPrebuildModule mem root 0 1).bind fun p =>
        mbedGetModuleInfo root base p.1 (index % 256).toNat := by
    simp only [pkgAcquireModule, hmem, Bool.true_eq_false, if_false, if_true]
    rfl
  rw [Acquirable, if_pos rfl, hrun]
  generalize (index % 256).toNat = octet
  rcases hfirst : items[0]? with _ | first
  · -- an empty list: its first item is followed
    have hpre : mbedPrebuildModule mem root 0 1 = .error .fault := by
      rw [mbedPrebuildModule, if_neg (Nat.not_lt_zero _)]
      simp only [h.find, h.getElem?_none hfirst]
    rw [hpre]
    refine iff_of_false not_acquired_fault ?_
    rintro ⟨first, i, j, hnone, -⟩
    exact absurd hnone (by simp)
  obtain ⟨n', hpre⟩ := h.prebuild (n := 1) hmem hfirst (Nat.zero_le _)
  rw [hpre]
  show Acquired base items .all index (mbedGetModuleInfo root base first.prebuilt octet) ↔ _
  by_cases hcount : items.length % 256 < octet
  · -- `mbed_get_module_info` refuses, and the module is returned as it is
    have hinfo : mbedGetModuleInfo root base first.prebuilt octet = .ok first.prebuilt := by
      rw [mbedGetModuleInfo, h.mbedGetModuleNum, if_pos hcount]
    rw [hinfo]
    refine iff_of_false not_acquired_prebuilt ?_
    rintro ⟨_, i, j, -, -, -, hle, -⟩
    exact absurd hle (Nat.not_le.mpr hcount)
  have hle := Nat.not_lt.mp hcount
  rcases hitem : items[octet]? with _ | j
  · have hinfo : mbedGetModuleInfo root base first.prebuilt octet = .error .fault := by
      rw [mbedGetModuleInfo, h.mbedGetModuleNum, if_neg hcount]
      simp only [h.find, h.getElem?_none hitem]
    rw [hinfo]
    refine iff_of_false not_acquired_fault ?_
    rintro ⟨_, i, j, -, -, hnone, -⟩
    exact absurd hnone (by simp)
  rcases h.info base first hitem hle with
    ⟨hfits, m, hinfo, hm⟩ | ⟨hfits, hinfo⟩
  · rw [hinfo]
    rcases hindex : nth items index with _ | i
    · rw [hindex] at hnth
      refine iff_of_false (not_acquired_of_none hnth) ?_
      rintro ⟨_, i, _, -, hnone, -⟩
      exact absurd hnone (by simp)
    · rw [hindex] at hnth
      rw [acquired_of_ok hnth, hm.isModule_iff]
      constructor
      · intro hmodule
        exact ⟨first, i, j, rfl, rfl, rfl, hle, hfits, hmodule⟩
      · rintro ⟨first', i', j', -, hi, hj, -, -, hmodule⟩
        obtain rfl := Option.some.inj hi
        obtain rfl := Option.some.inj hj
        exact hmodule
  · rw [hinfo]
    refine iff_of_false not_acquired_fault ?_
    rintro ⟨first', i, j', hf, -, hj, -, hfits', -⟩
    obtain rfl := Option.some.inj hf
    obtain rfl := Option.some.inj hj
    exact hfits hfits'

theorem acquired_type (h : ListedIn root list items) (hmem : ∀ k, mem k = true)
    (htype : type ≠ .all) :
    Acquired base items type index (pkgAcquireModule mem (some ⟨base, some root⟩) type index) ↔
      Acquirable base items type index := by
  have hcount : items.length % 256 ≤ items.length := Nat.mod_le _ _
  have hfound : Found base items (pkgAcquireModule mem (some ⟨base, some root⟩) type index)
      ((nth (ofType type items) index).filter fun p => decide (p.2 < items.length % 256)) := by
    rw [← nth_reached hcount]
    simp only [pkgAcquireModule, hmem, Bool.true_eq_false, if_false, if_neg htype,
      h.mbedGetModuleNum]
    by_cases hindex : ((items.length % 256 : Nat) : Int) < index
    · rw [if_pos hindex, nth, if_pos (by omega), List.getElem?_eq_none]
      · rfl
      · have hlen := List.length_filter_le (fun p : ModuleItem × Nat => p.1.hasType type)
          (items.zipIdx.take (items.length % 256))
        have htake := List.length_take_le (items.length % 256) items.zipIdx
        omega
    · have hspec := acquireFrom_spec h hmem htype base index (items.length % 256) 0 0 1
        (Nat.zero_add _) (Nat.le_refl _)
      rw [if_neg hindex, List.range_eq_range']
      simpa using hspec
  rw [Acquirable, if_neg htype]
  rcases hp : nth (ofType type items) index with _ | ⟨i, pos⟩
  · rw [hp] at hfound
    refine iff_of_true ?_ fun i pos hnone => absurd hnone (by simp)
    rw [Acquired, hp]
    exact hfound
  rw [hp, Option.filter_some] at hfound
  simp only [Option.some.injEq, Prod.mk.injEq, and_imp, forall_apply_eq_imp_iff, forall_eq']
  by_cases hreach : pos < items.length % 256
  · rw [if_pos (by simpa using hreach)] at hfound
    obtain ⟨m, hr, hm⟩ := hfound
    rw [hr, acquired_of_ok hp, hm.isModule_iff]
    constructor
    · exact fun hmodule => ⟨hreach, hmodule.2⟩
    · exact fun hmodule => ⟨fun _ => rfl, hmodule.2⟩
  · rw [if_neg (by simpa using hreach)] at hfound
    have hr : pkgAcquireModule mem (some ⟨base, some root⟩) type index = .error .null := hfound
    refine iff_of_false ?_ fun hall => hreach hall.1
    rw [hr, Acquired, hp]
    rintro ⟨m, hm, -⟩
    exact absurd hm (by simp)

end Result

/-- **When `pkg_acquire_module` finds the right module**, as long as there is memory. The list, the
    type and the index are any; the condition is on lengths and sums of what the items say, and
    mentions nothing that the function computes. -/
theorem acquired_iff (mem : Nat → Bool) (root : Json) (items : List ModuleItem) (base : Nat)
    (type : ModuleType) (index : Int) (hmem : ∀ k, mem k = true) (hlists : Lists root items) :
    Acquired base items type index (pkgAcquireModule mem (some ⟨base, some root⟩) type index) ↔
      Acquirable base items type index := by
  obtain ⟨list, hfind, hall⟩ := hlists
  by_cases htype : type = .all
  · subst htype
    exact acquired_all ⟨hfind, hall⟩ hmem
  · exact acquired_type ⟨hfind, hall⟩ hmem htype

/-! ## Samples -/

/-- An item as the packer writes it. -/
def ModuleItem.json (i : ModuleItem) : Json :=
  .object [(.lit "name", .string (i.text .name)), (.lit "type", .string i.type),
    (.lit "size", .number i.size (some i.size)), (.lit "version", .string (i.text .version)),
    (.lit "hw_version", .string (i.text .hwVersion))]

def metaJson (items : List ModuleItem) : Json :=
  .object [(moduleList, .array (items.map ModuleItem.json))]

theorem lists_metaJson (items : List ModuleItem) : Lists (metaJson items) items := by
  refine ⟨.array (items.map ModuleItem.json), rfl, ?_⟩
  induction items with
  | nil => exact List.Forall₂.nil
  | cons i items ih =>
    refine List.Forall₂.cons ⟨fun t => ?_, ⟨_, rfl⟩, ⟨_, _, rfl⟩⟩ ih
    cases t <;> exact ⟨_, rfl⟩

def sampleItem (name : CString) (size : Int) : ModuleItem where
  text
    | .name => name
    | .version => .lit "1.0"
    | .hwVersion => .lit "1.0"
  type := .lit "bin"
  size := size

theorem acquired_iff_second_bin :
    Acquired 100 [sampleItem (.lit "a") 7, sampleItem (.lit "bb") 8] .bin 1
        (pkgAcquireModule (fun _ => true)
          (some ⟨100, some (metaJson [sampleItem (.lit "a") 7, sampleItem (.lit "bb") 8])⟩)
          .bin 1) ↔
      Acquirable 100 [sampleItem (.lit "a") 7, sampleItem (.lit "bb") 8] .bin 1 :=
  acquired_iff _ _ _ 100 .bin 1 (fun _ => rfl) (lists_metaJson _)

/-- **Two wrong answers of `ALL`.** The name of the second module is copied behind the buffer that
    was allocated for that of the first; and an index that no module has is not answered with
    `NULL`. -/
theorem not_acquired_longer_beyond :
    ¬Acquired 100 [sampleItem (.lit "a") 7, sampleItem (.lit "bb") 8] .all 1
        (pkgAcquireModule (fun _ => true)
          (some ⟨100, some (metaJson [sampleItem (.lit "a") 7, sampleItem (.lit "bb") 8])⟩)
          .all 1) ∧
      ¬Acquired 100 [sampleItem (.lit "a") 7] .all 2
        (pkgAcquireModule (fun _ => true)
          (some ⟨100, some (metaJson [sampleItem (.lit "a") 7])⟩) .all 2) := by
  constructor
  · have hrun : pkgAcquireModule (fun _ => true)
        (some ⟨100, some (metaJson [sampleItem (.lit "a") 7, sampleItem (.lit "bb") 8])⟩) .all 1 =
          .error .fault := rfl
    rw [hrun]
    exact not_acquired_fault
  · obtain ⟨m, hrun⟩ : ∃ m, pkgAcquireModule (fun _ => true)
        (some ⟨100, some (metaJson [sampleItem (.lit "a") 7])⟩) .all 2 = .ok m := ⟨_, rfl⟩
    rw [hrun]
    exact not_acquired_of_none rfl

end Package
end Ota
end LightDuer
