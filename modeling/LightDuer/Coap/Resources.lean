import LightDuer.Coap.HashCode
import LightDuer.Lib.Keyed
import LightDuer.Lib.Text

/-!
# Resources

A resource is kept twice: the CoAP library has a list of resources by path (`sn_grs.c`), and
`lightduer_coap.c` a list of callbacks by the hash code of the path. `duer_coap_resource_add` and
`duer_coap_resource_remove` change both; a request goes through the first to
`duer_coap_dyn_res_callback`, which looks into the second. A path is the text before its NUL, and
`hash` is `duer_hashcode` with the seed of this client.

## Paths

The two sides normalise paths differently. `duer_coap_convert_path` drops the slashes in front; what
it leaves is the name of the resource here. `sn_grs_convert_uri` drops a slash at the end as well,
works on a length of sixteen bits next to the pointer, and compares an octet that may lie behind the
end with a slash. `Named` are the paths for which the second is the first without the slash at the
end (`snGrsConvertUri_eq`), and for these the functions of the library become lookups in a list with
keys (`snGrsSearchResource_eq`, `snNsdlDeleteResource_eq`), to which the laws of `Lib.Keyed` apply.

## Allocations

Adding a resource makes up to four: the entry for the callback, and in the library the copy of the
resource, of its path and of its data. The answer to each is given with the call. The two halves of
`duer_coap_resource_add` do not know of each other's failures, and a removal deletes in the library
also what is below the path; both are modelled and are conditions of the results, not of the
functions.
-/

set_option autoImplicit false

namespace LightDuer
namespace Coap

open Lib

/-! ## Data -/

/-- The union in `duer_res_t`: what the mode says is in it. -/
inductive ResBody where
  | sRes (data : Option (List UInt8))
  | fRes (callback : Nat)
deriving DecidableEq, Repr

/-- `duer_res_t` -/
structure DuerRes where
  allowed : Nat
  path : List UInt8
  res : ResBody
deriving DecidableEq, Repr

inductive SnMode where
  | static
  | dynamic
deriving DecidableEq, Repr

/-- `sn_nsdl_resource_info_s`; `callback` is set for the resources whose requests go to
    `duer_coap_dyn_res_callback`. -/
structure SnResource where
  mode : SnMode
  access : Nat
  path : List UInt8
  callback : Bool
  resource : Option (List UInt8)
deriving DecidableEq, Repr

/-- `duer_dynres_t` -/
structure DuerDynres where
  key : UInt32
  fRes : Nat
deriving DecidableEq, Repr

/-- What `duer_coap_t` keeps of the resources: `resource_root_list` of its `nsdl`, and `list`.
    `fault` is set by a read past the end of a path. -/
structure DuerCoap where
  nsdl : List SnResource
  list : List DuerDynres
  fault : Bool
deriving DecidableEq, Repr

/-- The results of the allocations one call may make: of the entry in `list`, and in the CoAP
    library of the copy of the resource, of its path and of its data. -/
structure Allocs where
  dynres : Bool
  info : Bool
  path : Bool
  resource : Bool
deriving DecidableEq, Repr

/-- The requests. -/
inductive Method where
  | get | post | put | delete
deriving DecidableEq, Repr

/-- `SN_GRS_GET_ALLOWED` and the like. -/
def Method.bit : Method → Nat
  | .get => 1
  | .put => 2
  | .post => 4
  | .delete => 8

def slash : UInt8 := 47

/-- `WELLKNOWN_PATH` -/
def wellknownPath : List UInt8 := ascii ".well-known/core"

/-! ## The list of callbacks -/

section Dynamic

variable (hash : List UInt8 → UInt32)

/-- `duer_coap_convert_path` -/
def duerCoapConvertPath (path : List UInt8) : List UInt8 :=
  if path.head? = some slash then path.tail else path

/-- `duer_coap_dynamic_resource_find` -/
def duerCoapDynamicResourceFind (list : List DuerDynres) (key : UInt32) : Option DuerDynres :=
  findKey DuerDynres.key list key

/-- `duer_coap_dynamic_resource_add`: whether it returns `DUER_OK`, and the list. -/
def duerCoapDynamicResourceAdd (list : List DuerDynres) (path : List UInt8) (callback : Nat)
    (malloc : Bool) : Bool × List DuerDynres :=
  let key := hash (duerCoapConvertPath path)
  if (duerCoapDynamicResourceFind list key).isSome then (false, list)
  else if malloc then (true, ⟨key, callback⟩ :: list)
  else (false, list)

theorem duerCoapDynamicResourceAdd_snd (list : List DuerDynres) (path : List UInt8)
    (callback : Nat) (malloc : Bool) :
    (duerCoapDynamicResourceAdd hash list path callback malloc).2 =
      if duerCoapDynamicResourceFind list (hash (duerCoapConvertPath path)) = none ∧
          malloc = true then
        ⟨hash (duerCoapConvertPath path), callback⟩ :: list
      else list := by
  unfold duerCoapDynamicResourceAdd
  cases hfind : duerCoapDynamicResourceFind list (hash (duerCoapConvertPath path)) with
  | none => cases malloc <;> simp [hfind]
  | some d => simp [hfind]

/-- `duer_coap_dynamic_resource_remove`; its result is not used. -/
def duerCoapDynamicResourceRemove (list : List DuerDynres) (path : List UInt8) :
    List DuerDynres :=
  eraseKey DuerDynres.key list (hash (duerCoapConvertPath path))

end Dynamic

/-! ## The list of the CoAP library -/

/-- A length as a `uint16_t`. -/
def u16 (n : Nat) : Nat := n % 2 ^ 16

/-- `sn_grs_convert_uri`: the length and the start of a path without a slash at either end. With
    nothing left behind the first slash, the octet before the end is that slash again. -/
def snGrsConvertUri (uriLen : Nat) (uri : List UInt8) : Nat × List UInt8 :=
  let (len, start) := if uri.head? = some slash then (u16 (uriLen + 65535), uri.tail)
    else (uriLen, uri)
  let last := if len = 0 then uri.head? else start[len - 1]?
  if last = some slash then (u16 (len + 65535), start) else (len, start)

/-- A resource with this path. -/
def SnResource.hasPath (len : Nat) (start : List UInt8) (r : SnResource) : Bool :=
  r.path.length = len && r.path = start.take len

/-- `SN_GRS_DELETE_METHOD`: a resource below this path, as the octet that is compared with a slash
    has it. -/
def SnResource.below (len : Nat) (start : List UInt8) (r : SnResource) : Bool :=
  len < r.path.length && r.path[len % 256]? = some slash && r.path.take len = start.take len

/-- `sn_grs_search_resource` with `SN_GRS_SEARCH_METHOD`. -/
def snGrsSearchResource (nsdl : List SnResource) (pathlen : Nat) (path : List UInt8) :
    Option SnResource :=
  if pathlen = 0 then none
  else
    let (len, start) := snGrsConvertUri pathlen path
    nsdl.find? (SnResource.hasPath len start)

/-- The loop of `sn_grs_delete_resource` over the resources below a path. -/
def deleteBelow (len : Nat) (start : List UInt8) : Nat → List SnResource → List SnResource
  | 0, nsdl => nsdl
  | n + 1, nsdl =>
      if nsdl.any (SnResource.below len start) then
        deleteBelow len start n (nsdl.eraseP (SnResource.below len start))
      else nsdl

/-- `sn_nsdl_delete_resource`: whether it succeeds, and the list. -/
def snNsdlDeleteResource (nsdl : List SnResource) (pathlen : Nat) (path : List UInt8) :
    Bool × List SnResource :=
  match snGrsSearchResource nsdl pathlen path with
  | none => (false, nsdl)
  | some _ =>
      let (len, start) := snGrsConvertUri pathlen path
      (true, deleteBelow len start nsdl.length (nsdl.eraseP (SnResource.hasPath len start)))

/-- `sn_nsdl_create_resource`: whether it succeeds, the list, and whether it read past the end of
    the path. -/
def snNsdlCreateResource (nsdl : List SnResource) (r : SnResource) (pathlen : Nat)
    (allocs : Allocs) : Bool × List SnResource × Bool :=
  if pathlen = 0 then (false, nsdl, false)
  else if (snGrsSearchResource nsdl pathlen r.path).isSome then (false, nsdl, false)
  else if allocs.info = false then (false, nsdl, false)
  else
    let (len, start) := snGrsConvertUri pathlen r.path
    let fault := decide (start.length < len)
    if allocs.path = false then (false, nsdl, false)
    else if r.resource.isSome ∧ allocs.resource = false then (false, nsdl, fault)
    else (true, { r with path := start.take len } :: nsdl, fault)

/-! ### By name

For the client a path is what `duer_coap_convert_path` leaves of it, its name; the library keeps the
name without the slash at its end. -/

/-- The path in the list of a resource with this name. -/
def keptPath (name : List UInt8) : List UInt8 :=
  if name.getLast? = some slash then name.dropLast else name

/-- There is a name, and the length of the path fits into the library's. -/
def Named (path : List UInt8) : Prop := path.length < 2 ^ 16 ∧ duerCoapConvertPath path ≠ []

instance (path : List UInt8) : Decidable (Named path) := inferInstanceAs (Decidable (_ ∧ _))

/-- No resource is kept at this path yet. -/
def Vacant (nsdl : List SnResource) (path : List UInt8) : Prop :=
  u16 path.length ≠ 0 ∧ snGrsSearchResource nsdl (u16 path.length) path = none

instance (nsdl : List SnResource) (path : List UInt8) : Decidable (Vacant nsdl path) :=
  inferInstanceAs (Decidable (_ ∧ _))

section ByName

variable {path : List UInt8} {nsdl : List SnResource} {allocs : Allocs}

theorem length_keptPath_le (name : List UInt8) : (keptPath name).length ≤ name.length := by
  unfold keptPath
  split
  · simp
  · exact Nat.le_refl _

theorem take_keptPath (name : List UInt8) : name.take (keptPath name).length = keptPath name := by
  unfold keptPath
  split
  · rw [List.dropLast_eq_take, List.length_take, Nat.min_eq_left (Nat.sub_le ..)]
  · exact List.take_length

theorem u16_length (h : Named path) : u16 path.length = path.length := Nat.mod_eq_of_lt h.1

theorem length_ne_zero (h : Named path) : path.length ≠ 0 := by
  intro h0
  refine h.2 ?_
  rw [List.length_eq_zero_iff.mp h0]
  rfl

/-- The second half of `sn_grs_convert_uri`, at a name. -/
theorem convertEnd_eq {name : List UInt8} (hlen : name.length < 2 ^ 16) (hne : name ≠ [])
    (last : Option UInt8) :
    (if (if name.length = 0 then last else name[name.length - 1]?) = some slash then
      (u16 (name.length + 65535), name) else (name.length, name)) =
      ((keptPath name).length, name) := by
  have hpos : 0 < name.length := List.length_pos_iff.mpr hne
  have hu : u16 (name.length + 65535) = name.length - 1 := by
    unfold u16
    omega
  rw [if_neg (Nat.ne_of_gt hpos), ← List.getLast?_eq_getElem?, hu]
  unfold keptPath
  split
  · rw [List.length_dropLast]
  · rfl

/-- What `sn_grs_convert_uri` leaves of a path. -/
theorem snGrsConvertUri_eq (h : Named path) :
    snGrsConvertUri path.length path =
      ((keptPath (duerCoapConvertPath path)).length, duerCoapConvertPath path) := by
  obtain ⟨hlen, hne⟩ := h
  by_cases hs : path.head? = some slash
  · have hname : duerCoapConvertPath path = path.tail := if_pos hs
    have hlast : path.tail.length = u16 (path.length + 65535) := by
      obtain ⟨rest, rfl⟩ := List.head?_eq_some_iff.mp hs
      simp only [List.length_cons] at hlen
      simp only [List.tail_cons, List.length_cons, u16]
      omega
    rw [hname] at hne ⊢
    have hend := convertEnd_eq (by rw [List.length_tail]; omega) hne path.head?
    unfold snGrsConvertUri
    rw [if_pos hs, ← hlast]
    exact hend
  · have hname : duerCoapConvertPath path = path := if_neg hs
    rw [hname] at hne ⊢
    unfold snGrsConvertUri
    rw [if_neg hs]
    exact convertEnd_eq hlen hne path.head?

theorem hasPath_keptPath (name : List UInt8) :
    SnResource.hasPath (keptPath name).length name = fun r => decide (r.path = keptPath name) := by
  funext r
  unfold SnResource.hasPath
  rw [take_keptPath, Bool.eq_iff_iff]
  simp only [Bool.and_eq_true, decide_eq_true_eq, and_iff_right_iff_imp]
  exact congrArg List.length

/-- A search by path is a search by key. -/
theorem snGrsSearchResource_eq (h : Named path) :
    snGrsSearchResource nsdl (u16 path.length) path =
      findKey SnResource.path nsdl (keptPath (duerCoapConvertPath path)) := by
  unfold snGrsSearchResource findKey
  rw [u16_length h, if_neg (length_ne_zero h), snGrsConvertUri_eq h]
  exact congrArg (nsdl.find? ·) (hasPath_keptPath _)

theorem vacant_iff (h : Named path) :
    Vacant nsdl path ↔
      findKey SnResource.path nsdl (keptPath (duerCoapConvertPath path)) = none := by
  unfold Vacant
  rw [snGrsSearchResource_eq h, u16_length h]
  exact and_iff_right (length_ne_zero h)

theorem deleteBelow_of_none {len : Nat} {start : List UInt8} (n : Nat)
    (h : ∀ r ∈ nsdl, r.below len start = false) : deleteBelow len start n nsdl = nsdl := by
  cases n with
  | zero => rfl
  | succ n =>
    refine if_neg fun hany => ?_
    obtain ⟨r, hr, hb⟩ := List.any_eq_true.mp hany
    exact Bool.false_ne_true ((h r hr).symm.trans hb)

/-- There is nothing that `sn_grs_delete_resource` deletes along with this path. -/
def NoneBelow (nsdl : List SnResource) (path : List UInt8) : Prop :=
  ∀ r ∈ nsdl, r.below (snGrsConvertUri (u16 path.length) path).1
    (snGrsConvertUri (u16 path.length) path).2 = false

theorem snNsdlDeleteResource_eq (h : Named path) (hb : NoneBelow nsdl path)
    (hs : snGrsSearchResource nsdl (u16 path.length) path ≠ none) :
    snNsdlDeleteResource nsdl (u16 path.length) path =
      (true, eraseKey SnResource.path nsdl (keptPath (duerCoapConvertPath path))) := by
  unfold NoneBelow at hb
  obtain ⟨r, hr⟩ := Option.ne_none_iff_exists'.mp hs
  unfold snNsdlDeleteResource eraseKey
  rw [hr]
  rw [u16_length h, snGrsConvertUri_eq h] at hb ⊢
  simp only
  rw [deleteBelow_of_none _ fun r hr => hb r (List.mem_of_mem_eraseP hr), hasPath_keptPath]

theorem snNsdlDeleteResource_of_search
    (hs : snGrsSearchResource nsdl (u16 path.length) path = none) :
    snNsdlDeleteResource nsdl (u16 path.length) path = (false, nsdl) := by
  unfold snNsdlDeleteResource
  rw [hs]

/-- The allocations that the library makes of a resource. -/
def Allocs.library (allocs : Allocs) (r : SnResource) : Prop :=
  allocs.info = true ∧ allocs.path = true ∧ (r.resource.isSome → allocs.resource = true)

instance (allocs : Allocs) (r : SnResource) : Decidable (allocs.library r) :=
  inferInstanceAs (Decidable (_ ∧ _ ∧ (_ → _)))

/-- `sn_nsdl_create_resource` takes a resource, or keeps its list. -/
theorem snNsdlCreateResource_eq {r : SnResource} (h : Vacant nsdl r.path → Named r.path) :
    snNsdlCreateResource nsdl r (u16 r.path.length) allocs =
      if Vacant nsdl r.path ∧ allocs.library r then
        (true, { r with path := keptPath (duerCoapConvertPath r.path) } :: nsdl, false)
      else (false, nsdl, false) := by
  unfold snNsdlCreateResource
  by_cases hv : Vacant nsdl r.path
  · have hn := h hv
    have hle := length_keptPath_le (duerCoapConvertPath r.path)
    have hfault : decide ((duerCoapConvertPath r.path).length <
        (keptPath (duerCoapConvertPath r.path)).length) = false := decide_eq_false (by omega)
    rw [if_neg hv.1, hv.2, u16_length hn, snGrsConvertUri_eq hn]
    simp only [hfault, take_keptPath]
    rw [if_neg (show ¬ (none : Option SnResource).isSome = true by simp)]
    by_cases hl : allocs.library r
    · rw [if_pos (⟨hv, hl⟩ : Vacant nsdl r.path ∧ allocs.library r)]
      obtain ⟨hinfo, hpath, hres⟩ := hl
      simp only [hinfo, hpath, Bool.true_eq_false, if_false]
      exact if_neg fun hc => Bool.false_ne_true (hc.2.symm.trans (hres hc.1))
    · rw [if_neg fun hc : Vacant nsdl r.path ∧ allocs.library r => hl hc.2]
      by_cases hinfo : allocs.info = false
      · exact if_pos hinfo
      rw [if_neg hinfo]
      by_cases hpath : allocs.path = false
      · exact if_pos hpath
      rw [if_neg hpath]
      refine if_pos (by_contra fun hres => hl ⟨?_, ?_, ?_⟩)
      · exact eq_true_of_ne_false hinfo
      · exact eq_true_of_ne_false hpath
      · exact fun hsome => eq_true_of_ne_false fun hf => hres ⟨hsome, hf⟩
  · rw [if_neg fun hc : Vacant nsdl r.path ∧ allocs.library r => hv hc.1]
    by_cases h0 : u16 r.path.length = 0
    · exact if_pos h0
    · rw [if_neg h0]
      exact if_pos (Option.ne_none_iff_isSome.mp fun hs => hv ⟨h0, hs⟩)

end ByName

/-! ## Adding and removing -/

section Calls

variable (hash : List UInt8 → UInt32)

/-- The resource that `duer_coap_resource_add` gives to the CoAP library. -/
def DuerRes.toSn (res : DuerRes) : SnResource where
  mode := match res.res with
    | .sRes _ => .static
    | .fRes _ => .dynamic
  access := res.allowed
  path := res.path
  callback := match res.res with
    | .sRes _ => false
    | .fRes _ => true
  resource := match res.res with
    | .sRes data => data
    | .fRes _ => none

/-- The list of callbacks after `duer_coap_resource_add`, which does not look at the result. -/
def addDynamic (coap : DuerCoap) (res : DuerRes) (allocs : Allocs) : Bool × List DuerDynres :=
  match res.res with
  | .sRes _ => (true, coap.list)
  | .fRes callback =>
      duerCoapDynamicResourceAdd hash coap.list res.path callback allocs.dynres

/-- `duer_coap_resource_add`: whether it returns `DUER_OK`. -/
def duerCoapResourceAdd (coap : DuerCoap) (res : DuerRes) (allocs : Allocs) : Bool × DuerCoap :=
  let list := (addDynamic hash coap res allocs).2
  let (ok, nsdl, fault) := snNsdlCreateResource coap.nsdl res.toSn (u16 res.path.length) allocs
  (ok, { nsdl, list, fault := coap.fault || fault })

/-- `duer_coap_resource_remove` -/
def duerCoapResourceRemove (coap : DuerCoap) (path : List UInt8) : Bool × DuerCoap :=
  match snNsdlDeleteResource coap.nsdl (u16 path.length) path with
  | (true, nsdl) =>
      (true, { coap with nsdl, list := duerCoapDynamicResourceRemove hash coap.list path })
  | (false, nsdl) => (false, { coap with nsdl })

/-! ## A request -/

/-- `duer_coap_dyn_res_callback`: the callback it runs. -/
def duerCoapDynResCallback (coap : DuerCoap) (uriPath : List UInt8) : Option Nat :=
  (duerCoapDynamicResourceFind coap.list (hash uriPath)).map DuerDynres.fRes

/-- The requests in `sn_grs_process_coap`: the callback that one with this method and path runs. -/
def snGrsProcessCoap (coap : DuerCoap) (method : Method) (uriPath : List UInt8) : Option Nat :=
  if uriPath = wellknownPath then none
  else
    match snGrsSearchResource coap.nsdl (u16 uriPath.length) uriPath with
    | none => none
    | some r =>
      match r.mode with
      | .static => none
      | .dynamic =>
        if r.access &&& method.bit = 0 then none
        else if r.callback then duerCoapDynResCallback hash coap uriPath
        else none

end Calls

end Coap
end LightDuer
