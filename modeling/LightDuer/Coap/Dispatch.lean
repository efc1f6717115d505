import LightDuer.Coap.Resources
import LightDuer.Lib.Transition
import Mathlib.Data.Set.Function

/-!
# A request finds what was registered

What a client of `duer_coap_resource_add` and `duer_coap_resource_remove` expects is one table: a
path has what the last successful call registered for it. The two lists agree with the table as long
as every call changes both of them or none, and names one resource.

## Three tables and one relation

`ResSys` carries the expectation along with the code: `registered` is changed by the calls that
return success, and by nothing else. `ResSys.Agrees` relates it to both lists as functions. The
library's list, looked up by the kept path, serves what is registered; the client's list, looked up
by hash code, has the callbacks of the dynamic resources. That keys are distinct in both is part of
it, since a list that had one twice would come back to the older entry after a removal.

## The condition on a call

`InStep` is about the state before the call and the answers to its allocations. For an addition it
says that the entry for the callback can be made exactly if the library takes the resource: either
half alone leaves the lists apart. For a removal it says that the path was registered in this form,
and that nothing is registered below it. Collisions come in through `names`: the names that the
client uses are to have different hash codes, which is asked of the names that are added and not of
all texts.

The theorem is about runs whose calls meet the condition, and says of an addition that fails that no
request is changed by it. That either half of the condition is needed is shown at a run in which the
library has no memory for a resource whose entry has been made: from then on the requests of the
path run the callback of the addition that failed.
-/

set_option autoImplicit false

namespace LightDuer
namespace Coap

open Lib

/-! ## The table -/

/-- What was registered for a path: the access, and the callback of a dynamic resource. -/
structure Registration where
  allowed : Nat
  callback : Option Nat
deriving DecidableEq, Repr

def DuerRes.registration (res : DuerRes) : Registration where
  allowed := res.allowed
  callback := match res.res with
    | .sRes _ => none
    | .fRes callback => some callback

/-- The callback that a request is to run. -/
def Registration.runs (r : Registration) (method : Method) : Option Nat :=
  if r.allowed &&& method.bit = 0 then none else r.callback

/-- The client, with what was registered by the calls that returned `DUER_OK` and not removed
    since; a path is known by what `duer_coap_convert_path` leaves of it. -/
structure ResSys where
  coap : DuerCoap
  registered : List UInt8 → Option Registration

/-- After `duer_coap_acquire`. -/
def ResSys.init (s : ResSys) : Prop :=
  s.coap = ⟨[], [], false⟩ ∧ ∀ path, s.registered path = none

inductive ResAct where
  | add (res : DuerRes) (allocs : Allocs)
  | remove (path : List UInt8)
deriving DecidableEq, Repr

section Runs

variable (hash : List UInt8 → UInt32)

def resStep (s : ResSys) : ResAct → Option ResSys
  | .add res allocs =>
      match duerCoapResourceAdd hash s.coap res allocs with
      | (true, coap) => some {
          coap
          registered := Function.update s.registered (duerCoapConvertPath res.path)
            (some res.registration) }
      | (false, coap) => some { s with coap }
  | .remove path =>
      match duerCoapResourceRemove hash s.coap path with
      | (true, coap) => some {
          coap
          registered := Function.update s.registered (duerCoapConvertPath path) none }
      | (false, coap) => some { s with coap }

/-- Each request runs what was registered for its path, if no other of `names` has the hash code of
    that path. -/
def ResSys.Dispatches (names : Set (List UInt8)) (s : ResSys) : Prop :=
  s.coap.fault = false ∧ ∀ path, path.length < 2 ^ 16 →
    (∀ name ∈ names, hash name = hash path → name = path) → ∀ method,
    snGrsProcessCoap hash s.coap method path = (s.registered path).bind (·.runs method)

/-- A request with this path can reach a resource of this name. -/
def Requestable (name : List UInt8) : Prop := name.head? ≠ some slash ∧ name ≠ wellknownPath

instance (name : List UInt8) : Decidable (Requestable name) := inferInstanceAs (Decidable (_ ∧ _))

/-- The call changes both lists or none. An entry in the list of callbacks can be made if and only
    if the CoAP library can take the resource, under a path that it keeps whole and, for a dynamic
    one, that requests reach. What is removed was registered under that path, with nothing below
    it. -/
def InStep (names : Set (List UInt8)) (s : ResSys) : ResAct → Prop
  | .add res allocs =>
      (Vacant s.coap.nsdl res.path → Named res.path ∧ duerCoapConvertPath res.path ∈ names) ∧
      (res.registration.callback ≠ none →
        (duerCoapDynamicResourceFind s.coap.list (hash (duerCoapConvertPath res.path)) = none ∧
            allocs.dynres = true ↔
          Vacant s.coap.nsdl res.path ∧ allocs.library res.toSn) ∧
        (Vacant s.coap.nsdl res.path → Requestable (duerCoapConvertPath res.path)))
  | .remove path =>
      snGrsSearchResource s.coap.nsdl (u16 path.length) path ≠ none →
        Named path ∧ s.registered (duerCoapConvertPath path) ≠ none ∧ NoneBelow s.coap.nsdl path

/-! ## The calls of such a run -/

/-- What a resource puts in front of the list of callbacks. -/
def DuerRes.entry (res : DuerRes) : Option DuerDynres :=
  res.registration.callback.map (⟨hash (duerCoapConvertPath res.path), ·⟩)

section Calls

variable {hash} {names : Set (List UInt8)} {s s' : ResSys}

/-- An entry is made just when the library takes the resource. -/
theorem addDynamic_eq {res : DuerRes} {allocs : Allocs}
    (h : InStep hash names s (.add res allocs)) :
    (addDynamic hash s.coap res allocs).2 =
      if Vacant s.coap.nsdl res.path ∧ allocs.library res.toSn then
        (res.entry hash).toList ++ s.coap.list
      else s.coap.list := by
  obtain ⟨allowed, path, body⟩ := res
  cases body with
  | sRes data => exact (ite_self _).symm
  | fRes callback =>
    obtain ⟨hiff, -⟩ := h.2 (Option.some_ne_none _)
    exact (duerCoapDynamicResourceAdd_snd ..).trans (if_congr hiff rfl rfl)

theorem duerCoapResourceAdd_eq {res : DuerRes} {allocs : Allocs}
    (h : InStep hash names s (.add res allocs)) :
    duerCoapResourceAdd hash s.coap res allocs =
      if Vacant s.coap.nsdl res.path ∧ allocs.library res.toSn then
        (true, { s.coap with
          nsdl := { res.toSn with path := keptPath (duerCoapConvertPath res.path) } :: s.coap.nsdl
          list := (res.entry hash).toList ++ s.coap.list })
      else (false, s.coap) := by
  have hcreate : snNsdlCreateResource s.coap.nsdl res.toSn (u16 res.path.length) allocs = _ :=
    snNsdlCreateResource_eq fun hv => (h.1 hv).1
  unfold duerCoapResourceAdd
  rw [hcreate, addDynamic_eq h]
  by_cases htake : Vacant s.coap.nsdl res.path ∧ allocs.library res.toSn
  · have htake' : Vacant s.coap.nsdl res.toSn.path ∧ allocs.library res.toSn := htake
    simp only [if_pos htake, if_pos htake', Bool.or_false]
    rfl
  · have htake' : ¬ (Vacant s.coap.nsdl res.toSn.path ∧ allocs.library res.toSn) := htake
    simp only [if_neg htake, if_neg htake', Bool.or_false]

theorem duerCoapResourceRemove_eq {path : List UInt8} (h : InStep hash names s (.remove path)) :
    duerCoapResourceRemove hash s.coap path =
      if snGrsSearchResource s.coap.nsdl (u16 path.length) path = none then (false, s.coap)
      else (true, { s.coap with
        nsdl := eraseKey SnResource.path s.coap.nsdl (keptPath (duerCoapConvertPath path))
        list := eraseKey DuerDynres.key s.coap.list (hash (duerCoapConvertPath path)) }) := by
  unfold duerCoapResourceRemove
  by_cases hs : snGrsSearchResource s.coap.nsdl (u16 path.length) path = none
  · rw [if_pos hs, snNsdlDeleteResource_of_search hs]
  · obtain ⟨hn, -, hb⟩ := h hs
    rw [if_neg hs, snNsdlDeleteResource_eq hn hb hs]
    rfl

end Calls

/-! ## The two lists and the table -/

/-- A request that finds this resource goes to the list of callbacks, if it is to run one. -/
def SnResource.Serves (e : SnResource) (r : Registration) : Prop :=
  e.access = r.allowed ∧ (r.callback ≠ none → e.mode = .dynamic ∧ e.callback = true)

/-- The callback in the list for a name with this registration. -/
def callbackOf (name : List UInt8) (r : Option Registration) : Option DuerDynres :=
  (r.bind Registration.callback).map (⟨hash name, ·⟩)

/-- The invariant: the lists hold what is in the table, the library's under the name without a slash
    at its end and the client's, of the dynamic resources alone, under the hash code. -/
structure ResSys.Agrees (names : Set (List UInt8)) (s : ResSys) : Prop where
  fault : s.coap.fault = false
  paths : (s.coap.nsdl.map SnResource.path).Nodup
  keys : (s.coap.list.map DuerDynres.key).Nodup
  kept : ∀ name r, s.registered name = some r →
    ∃ e, findKey SnResource.path s.coap.nsdl (keptPath name) = some e ∧ e.Serves r
  separate : ∀ name name', s.registered name ≠ none → s.registered name' ≠ none →
    keptPath name = keptPath name' → name = name'
  listed : ∀ name ∈ names, findKey DuerDynres.key s.coap.list (hash name) =
    callbackOf hash name (s.registered name)
  unlisted : ∀ key, (∀ name ∈ names, hash name ≠ key) →
    findKey DuerDynres.key s.coap.list key = none
  named : ∀ name r, s.registered name = some r →
    name ∈ names ∧ (r.callback ≠ none → Requestable name ∧ name ≠ [])

section Invariant

variable {hash} {names : Set (List UInt8)} {s s' : ResSys}

theorem ResSys.init.agrees (h : s.init) : s.Agrees hash names := by
  obtain ⟨hcoap, hreg⟩ := h
  obtain ⟨coap, registered⟩ := s
  subst hcoap
  obtain rfl : registered = fun _ => none := funext hreg
  constructor
  all_goals simp [findKey, callbackOf]

/-- What an add and a remove have in common: the lists and the table change at one name. -/
theorem ResSys.Agrees.update {name : List UInt8} {r : Option Registration}
    {e : Option SnResource} (h : s.Agrees hash names) (hinj : Set.InjOn hash names)
    (hname : name ∈ names) (hfault : s'.coap.fault = false)
    (hpaths : (s'.coap.nsdl.map SnResource.path).Nodup)
    (hkeys : (s'.coap.list.map DuerDynres.key).Nodup)
    (hreg : s'.registered = Function.update s.registered name r)
    (hnsdl : findKey SnResource.path s'.coap.nsdl =
      Function.update (findKey SnResource.path s.coap.nsdl) (keptPath name) e)
    (hlist : findKey DuerDynres.key s'.coap.list =
      Function.update (findKey DuerDynres.key s.coap.list) (hash name) (callbackOf hash name r))
    (hsep : ∀ name', name' ≠ name → s.registered name' ≠ none → keptPath name' ≠ keptPath name)
    (hserves : ∀ r', r = some r' → ∃ e', e = some e' ∧ e'.Serves r')
    (hrequest : ∀ r', r = some r' → r'.callback ≠ none → Requestable name ∧ name ≠ []) :
    s'.Agrees hash names where
  fault := hfault
  paths := hpaths
  keys := hkeys
  kept := by
    intro name' r' hr'
    rw [hreg] at hr'
    rw [hnsdl]
    by_cases heq : name' = name
    · subst heq
      rw [Function.update_self] at hr'
      rw [Function.update_self]
      exact hserves r' hr'
    · rw [Function.update_of_ne heq] at hr'
      rw [Function.update_of_ne (hsep name' heq (hr' ▸ Option.some_ne_none r'))]
      exact h.kept name' r' hr'
  separate := by
    intro n n' hn hn' hkept
    rw [hreg] at hn hn'
    by_contra hne
    by_cases heq : n = name
    · subst heq
      rw [Function.update_of_ne (Ne.symm hne)] at hn'
      exact hsep n' (Ne.symm hne) hn' hkept.symm
    · rw [Function.update_of_ne heq] at hn
      by_cases heq' : n' = name
      · subst heq'
        exact hsep n heq hn hkept
      · rw [Function.update_of_ne heq'] at hn'
        exact hne (h.separate n n' hn hn' hkept)
  listed := by
    intro name' hname'
    rw [hlist, hreg]
    by_cases heq : name' = name
    · subst heq
      rw [Function.update_self, Function.update_self]
    · rw [Function.update_of_ne fun hh => heq (hinj hname' hname hh), Function.update_of_ne heq]
      exact h.listed name' hname'
  unlisted := by
    intro key hkey
    rw [hlist, Function.update_of_ne (Ne.symm (hkey name hname))]
    exact h.unlisted key hkey
  named := by
    intro name' r' hr'
    rw [hreg] at hr'
    by_cases heq : name' = name
    · subst heq
      rw [Function.update_self] at hr'
      exact ⟨hname, hrequest r' hr'⟩
    · rw [Function.update_of_ne heq] at hr'
      exact h.named name' r' hr'

theorem DuerRes.serves_registration (res : DuerRes) (path : List UInt8) :
    SnResource.Serves { res.toSn with path } res.registration := by
  obtain ⟨allowed, path', body⟩ := res
  cases body with
  | sRes data => exact ⟨rfl, fun hc => absurd rfl hc⟩
  | fRes callback => exact ⟨rfl, fun _ => ⟨rfl, rfl⟩⟩

/-- The list of callbacks with the entry of a resource, if it has one. -/
theorem DuerRes.findKey_entry (res : DuerRes) {l : List DuerDynres}
    (hnd : (l.map DuerDynres.key).Nodup)
    (hnone : findKey DuerDynres.key l (hash (duerCoapConvertPath res.path)) = none) :
    (((res.entry hash).toList ++ l).map DuerDynres.key).Nodup ∧
      findKey DuerDynres.key ((res.entry hash).toList ++ l) =
        Function.update (findKey DuerDynres.key l) (hash (duerCoapConvertPath res.path))
          (callbackOf hash (duerCoapConvertPath res.path) (some res.registration)) := by
  obtain ⟨allowed, path, body⟩ := res
  cases body with
  | sRes data => exact ⟨hnd, (Function.update_eq_self_iff.mpr hnone.symm).symm⟩
  | fRes callback => exact ⟨nodup_cons_of_findKey hnd hnone, findKey_cons _ l⟩

theorem ResSys.Agrees.add {res : DuerRes} {allocs : Allocs} (h : s.Agrees hash names)
    (hinj : Set.InjOn hash names) (hg : InStep hash names s (.add res allocs))
    (hs : resStep hash s (.add res allocs) = some s') : s'.Agrees hash names := by
  simp only [resStep] at hs
  rw [duerCoapResourceAdd_eq hg] at hs
  by_cases htake : Vacant s.coap.nsdl res.path ∧ allocs.library res.toSn
  · rw [if_pos htake] at hs
    obtain rfl := Option.some.inj hs
    obtain ⟨hnamed, hname⟩ := hg.1 htake.1
    have hfind := (vacant_iff hnamed).mp htake.1
    have hfree : ∀ name', s.registered name' ≠ none →
        keptPath name' ≠ keptPath (duerCoapConvertPath res.path) := by
      intro name' hne heq
      obtain ⟨r, hr⟩ := Option.ne_none_iff_exists'.mp hne
      obtain ⟨e, he, -⟩ := h.kept name' r hr
      rw [heq, hfind] at he
      exact Option.some_ne_none e he.symm
    have hnone : s.registered (duerCoapConvertPath res.path) = none :=
      by_contra fun hne => hfree _ hne rfl
    have hlisted :
        findKey DuerDynres.key s.coap.list (hash (duerCoapConvertPath res.path)) = none := by
      rw [h.listed _ hname, hnone]
      rfl
    obtain ⟨hkeys, hlist⟩ := res.findKey_entry h.keys hlisted
    refine h.update hinj hname h.fault (nodup_cons_of_findKey h.paths hfind) hkeys rfl
      (findKey_cons _ _) hlist (fun name' _ => hfree name') ?_ ?_
    · rintro _ ⟨⟩
      exact ⟨_, rfl, res.serves_registration _⟩
    · rintro _ ⟨⟩ hcall
      exact ⟨(hg.2 hcall).2 htake.1, hnamed.2⟩
  · rw [if_neg htake] at hs
    obtain rfl := Option.some.inj hs
    exact h

theorem ResSys.Agrees.remove {path : List UInt8} (h : s.Agrees hash names)
    (hinj : Set.InjOn hash names) (hg : InStep hash names s (.remove path))
    (hs : resStep hash s (.remove path) = some s') : s'.Agrees hash names := by
  simp only [resStep] at hs
  rw [duerCoapResourceRemove_eq hg] at hs
  by_cases hsearch : snGrsSearchResource s.coap.nsdl (u16 path.length) path = none
  · rw [if_pos hsearch] at hs
    obtain rfl := Option.some.inj hs
    exact h
  · rw [if_neg hsearch] at hs
    obtain rfl := Option.some.inj hs
    obtain ⟨hnamed, hreg, -⟩ := hg hsearch
    obtain ⟨r, hr⟩ := Option.ne_none_iff_exists'.mp hreg
    refine h.update hinj (h.named _ r hr).1 h.fault (nodup_eraseKey h.paths)
      (nodup_eraseKey h.keys) rfl (findKey_eraseKey h.paths _) (findKey_eraseKey h.keys _)
      ?_ ?_ ?_
    · exact fun name' hne hreg' heq => hne (h.separate name' _ hreg' hreg heq)
    · rintro _ ⟨⟩
    · rintro _ ⟨⟩

theorem ResSys.Agrees.step {a : ResAct} (h : s.Agrees hash names) (hinj : Set.InjOn hash names)
    (hg : InStep hash names s a) (hs : resStep hash s a = some s') : s'.Agrees hash names := by
  cases a with
  | add res allocs => exact h.add hinj hg hs
  | remove path => exact h.remove hinj hg hs

theorem ResSys.agrees_of_run (hinj : Set.InjOn hash names)
    (h : ReachableBy ResSys.init (resStep hash) (InStep hash names) s) : s.Agrees hash names :=
  h.invariant (ResSys.Agrees hash names) ResSys.init.agrees fun hi hg hs => hi.step hinj hg hs

/-! ## A request -/

theorem duerCoapDynResCallback_eq (h : s.Agrees hash names) {path : List UInt8}
    (hpath : ∀ name ∈ names, hash name = hash path → name = path) :
    duerCoapDynResCallback hash s.coap path = (s.registered path).bind Registration.callback := by
  unfold duerCoapDynResCallback duerCoapDynamicResourceFind
  by_cases hmem : path ∈ names
  · rw [h.listed path hmem, callbackOf, Option.map_map]
    exact Option.map_id' ..
  · have hreg : s.registered path = none := by
      by_contra hne
      obtain ⟨r, hr⟩ := Option.ne_none_iff_exists'.mp hne
      exact hmem (h.named path r hr).1
    rw [h.unlisted _ fun name hname heq => hmem (hpath name hname heq ▸ hname), hreg]
    rfl

/-- No request runs more than what is in the list of callbacks. -/
theorem snGrsProcessCoap_eq_none {coap : DuerCoap} {path : List UInt8}
    (h : duerCoapDynResCallback hash coap path = none) (method : Method) :
    snGrsProcessCoap hash coap method path = none := by
  unfold snGrsProcessCoap
  split_ifs
  · rfl
  · split
    · rfl
    · split
      · rfl
      · rw [h]
        exact (ite_congr rfl (fun _ => rfl) fun _ => ite_self _).trans (ite_self _)

theorem ResSys.Agrees.dispatches (h : s.Agrees hash names) : s.Dispatches hash names := by
  refine ⟨h.fault, fun path hlen hpath method => ?_⟩
  have hcall := duerCoapDynResCallback_eq h hpath
  by_cases hdyn : (s.registered path).bind Registration.callback = none
  · rw [snGrsProcessCoap_eq_none (hcall.trans hdyn)]
    cases hr : s.registered path with
    | none => rfl
    | some r =>
      rw [hr] at hdyn
      have hnone : r.callback = none := hdyn
      exact ((congrArg (ite _ none) hnone).trans (ite_self _)).symm
  · obtain ⟨f, hf⟩ := Option.ne_none_iff_exists'.mp hdyn
    obtain ⟨r, hr, hrf⟩ := Option.bind_eq_some_iff.mp hf
    have hsome : r.callback ≠ none := hrf ▸ Option.some_ne_none f
    obtain ⟨⟨hhead, hwell⟩, hne⟩ := (h.named path r hr).2 hsome
    obtain ⟨e, he, haccess, hmode⟩ := h.kept path r hr
    obtain ⟨hmode, hcallback⟩ := hmode hsome
    have hconv : duerCoapConvertPath path = path := if_neg hhead
    have hsearch : snGrsSearchResource s.coap.nsdl (u16 path.length) path = some e := by
      rw [snGrsSearchResource_eq ⟨hlen, by rw [hconv]; exact hne⟩, hconv, he]
    unfold snGrsProcessCoap
    rw [if_neg hwell, hsearch]
    simp only [hmode, haccess, hcallback, if_true, hcall, hr]
    rfl

/-- A failing add leaves the client as it was. -/
theorem coap_of_failed_add {res : DuerRes} {allocs : Allocs}
    (hg : InStep hash names s (.add res allocs))
    (hfail : (duerCoapResourceAdd hash s.coap res allocs).1 = false) :
    (duerCoapResourceAdd hash s.coap res allocs).2 = s.coap := by
  rw [duerCoapResourceAdd_eq hg] at hfail ⊢
  split_ifs at hfail ⊢
  rfl

end Invariant

end Runs

/-! ## The hash code of the source -/

/-- The key of a name in the list of callbacks: the seed is the address of the client. -/
def pathKey (signed : Bool) (seed : UInt32) (name : List UInt8) : UInt32 :=
  duerHashcode signed name seed

/-- **A request runs what was registered.** In every run that keeps the two lists in step, over
    names with distinct hash codes, each request runs the callback of the last add for its path that
    returned `DUER_OK` and was not removed since, and an add that fails changes no request. -/
theorem requests_run_registered (signed : Bool) (seed : UInt32) (names : Set (List UInt8))
    (hinj : Set.InjOn (pathKey signed seed) names) {s : ResSys}
    (h : ReachableBy ResSys.init (resStep (pathKey signed seed))
      (InStep (pathKey signed seed) names) s) :
    s.Dispatches (pathKey signed seed) names ∧
      ∀ res allocs, InStep (pathKey signed seed) names s (.add res allocs) →
        (duerCoapResourceAdd (pathKey signed seed) s.coap res allocs).1 = false →
        ∀ path method, snGrsProcessCoap (pathKey signed seed)
          (duerCoapResourceAdd (pathKey signed seed) s.coap res allocs).2 method path =
            snGrsProcessCoap (pathKey signed seed) s.coap method path := by
  refine ⟨(ResSys.agrees_of_run hinj h).dispatches, fun res allocs hg hfail path method => ?_⟩
  rw [coap_of_failed_add hg hfail]

/-! ### Two runs -/

def Allocs.all : Allocs := ⟨true, true, true, true⟩

def ResSys.empty : ResSys := ⟨⟨[], [], false⟩, fun _ => none⟩

/-- The second add of `a` fails, and a request runs the first one's callback before and after. -/
theorem requests_run_registered_twice :
    ∃ s, runFrom (resStep (pathKey true 1)) .empty [.add ⟨1, ascii "/a", .fRes 7⟩ .all] = some s ∧
      (duerCoapResourceAdd (pathKey true 1) s.coap ⟨1, ascii "a", .fRes 8⟩ .all).1 = false ∧
      snGrsProcessCoap (pathKey true 1) s.coap .get (ascii "a") = some 7 ∧
      snGrsProcessCoap (pathKey true 1)
        (duerCoapResourceAdd (pathKey true 1) s.coap ⟨1, ascii "a", .fRes 8⟩ .all).2 .get
        (ascii "a") = some 7 := by
  have hfirst : InStep (pathKey true 1) {ascii "a"} .empty
      (.add ⟨1, ascii "/a", .fRes 7⟩ .all) :=
    ⟨fun _ => ⟨by decide, rfl⟩, fun _ => ⟨iff_of_true ⟨rfl, rfl⟩ (by decide), fun _ => by decide⟩⟩
  obtain ⟨hrun, hkept⟩ := requests_run_registered true 1 {ascii "a"} (Set.injOn_singleton ..)
    (.next (.start (show ResSys.init .empty from ⟨rfl, fun _ => rfl⟩)) hfirst rfl)
  have hget := hrun.2 (ascii "a") (by decide) (fun _ hname _ => hname) .get
  have hfailed := hkept ⟨1, ascii "a", .fRes 8⟩ .all
    ⟨fun hv => absurd hv (by decide +kernel), fun _ => ⟨iff_of_false (by decide +kernel)
      (by decide +kernel), fun hv => absurd hv (by decide +kernel)⟩⟩ (by decide +kernel)
  exact ⟨_, rfl, by decide +kernel, hget, (hfailed (ascii "a") .get).trans hget⟩

/-- `duer_coap_resource_add` makes an entry although the CoAP library has no memory for the
    resource; the next add of that path returns `DUER_OK`, and its requests run the callback of the
    first. -/
theorem requests_run_failed_add :
    ∃ s, Lib.Reachable ResSys.init (resStep (pathKey true 1)) s ∧
      s.registered (ascii "a") = some ⟨1, some 2⟩ ∧
      snGrsProcessCoap (pathKey true 1) s.coap .get (ascii "a") = some 1 ∧
      ¬ s.Dispatches (pathKey true 1) {ascii "a"} := by
  obtain ⟨s, hrun, hreg, hget⟩ : ∃ s, runFrom (resStep (pathKey true 1)) .empty
      [.add ⟨1, ascii "/a", .fRes 1⟩ { Allocs.all with info := false },
        .add ⟨1, ascii "/a", .fRes 2⟩ .all] = some s ∧
      s.registered (ascii "a") = some ⟨1, some 2⟩ ∧
      snGrsProcessCoap (pathKey true 1) s.coap .get (ascii "a") = some 1 :=
    ⟨_, rfl, by decide +kernel, by decide +kernel⟩
  refine ⟨s, reachable_of_runFrom _ (.start ⟨rfl, fun _ => rfl⟩) hrun, hreg, hget, fun h => ?_⟩
  have hruns := h.2 (ascii "a") (by decide) (fun _ hname _ => hname) .get
  rw [hget, hreg] at hruns
  exact absurd hruns (by decide)

end Coap
end LightDuer
