import LightDuer.Engine.Resources
import Mathlib.Logic.Function.Basic

/-!
# The configuration of the connection agent

`baidu_ca_load_configuration` destroys the configuration it has, parses another one and replaces the
cached pointers into it one by one. Configurations and report queries are known by their numbers, in
the order they are allocated; a cached pointer is the number of the configuration that its string
belongs to, `none` for `NULL`. Lengths and ports, which point nowhere, are left out.

A report borrows the query of the agent: `baidu_ca_build_report_message` copies the pointer, and the
message is pushed to the send queue later. `duer_coap_connect` copies host and certificate; the CoAP
handle keeps `ctx->uuid` as its `key_info`, which the AES-CBC build reads when it connects and
sends.

## Pointers that are left behind

A load can fail half-way. Where nothing can be parsed none of the fields is assigned, and where a
string is missing those behind it are not; so they point into the configuration that has just been
destroyed. The first four strings are written to their fields as they are asked for, so a missing
one leaves `NULL`. The host is read into a local variable first, and a missing host leaves the old
pointer. `unreached` lists the fields in question.

A load that gets to the report query frees the old one, which messages may still have, and a CoAP
handle that has been acquired before keeps the old `uuid`.

## When none dangles

`ConfSys.Sound` says that no cached pointer, no query of a message and, for the AES-CBC build, no
`key_info` points to what was destroyed or freed. `LoadAdmitted` is the condition on a load: the
connection is started, so that the load does nothing; or the fields it does not reach are `NULL`,
and with a complete configuration no message has a query, nor in the AES-CBC build a handle its
`key_info`. Loads that meet it keep the state sound, and the first one that does not meet it leaves
a pointer that dangles.
-/

set_option autoImplicit false

namespace LightDuer
namespace Engine

open Lib

/-- The strings that `baidu_ca_load_configuration` asks for. -/
inductive ConfKey where
  | uuid | token | bindToken | cert | host
deriving DecidableEq, Repr

/-- in their order -/
def confKeys : List ConfKey := [.uuid, .token, .bindToken, .cert, .host]

/-- `duer_conf_get_string` of a configuration: no string where the key is missing or its value is
    none. -/
abbrev Conf := ConfKey → Option String

/-- The part of `baidu_ca_t` that a configuration is kept in, and the messages that are built and
    queued, each with its `query`. Two lists have grown only, `destroyed` and `freed`; a pointer
    dangles when its number is in one of them. -/
structure ConfSys where
  state : CaState := .stoped
  /-- the configurations that have been created, and those that have been destroyed -/
  confs : List Conf := []
  destroyed : List ℕ := []
  conf : Option ℕ := none
  /-- `ctx->uuid`, `token`, `bindToken`, `cert` and the host of `addr_sr` -/
  field : ConfKey → Option ℕ := fun _ => none
  /-- the report queries that have been allocated, and those that have been freed -/
  queries : List String := []
  freed : List ℕ := []
  reportQuery : Option ℕ := none
  /-- the `key_info` of `ctx->sr`, if there is one -/
  sr : Option (Option ℕ) := none
  building : List (Option ℕ) := []
  queue : List (Option ℕ) := []

/-- The replacement of the fields by those of configuration `c`, up to the first string that there
    is not. The first four strings are assigned as they are asked for, so that a missing one leaves
    `NULL` behind; the host goes through a local variable, and where it is missing the host of
    `addr_sr` stays what it was. -/
def loadFields (p : Conf) (c : ℕ) :
    List ConfKey → (ConfKey → Option ℕ) → Bool × (ConfKey → Option ℕ)
  | [], field => (true, field)
  | k :: keys, field =>
    match p k with
    | none => (false, if k = .host then field else Function.update field k none)
    | some _ => loadFields p c keys (Function.update field k (some c))

/-- `DUER_RPT_QUERY_UUID"%s&"DUER_RPT_QUERY_TOKEN"%s"` -/
def reportQueryText (p : Conf) : String :=
  "deviceUuid=" ++ (p .uuid).getD "" ++ "&" ++ "token=" ++ (p .token).getD ""

/-- `baidu_ca_load_configuration`: what is parsed, and whether there is memory for the query. -/
def baiduCaLoadConfiguration (s : ConfSys) (data : Option Conf) (ok : Bool) : Bool × ConfSys :=
  let s := { s with destroyed := s.destroyed ++ s.conf.toList, conf := none }
  match data with
  | none => (false, s)
  | some p =>
    let c := s.confs.length
    match loadFields p c confKeys s.field with
    | (false, field) =>
      (false, { s with confs := s.confs ++ [p], conf := some c, field := field })
    | (true, field) =>
      let s := { s with
        confs := s.confs ++ [p]
        conf := some c
        field := field
        freed := s.freed ++ s.reportQuery.toList
        reportQuery := none }
      if ok then
        (true, { s with
          queries := s.queries ++ [reportQueryText p]
          reportQuery := some s.queries.length })
      else (false, s)

/-- `baidu_ca_stop` -/
def ConfSys.stop (s : ConfSys) : ConfSys :=
  if s.state = .stoped then s else { s with state := .stoped, sr := none }

inductive ConfAction where
  /-- `duer_engine_start` with a profile, as far as the configuration; after a failure the
      notification stops the engine -/
  | load (data : Option Conf) (ok : Bool)
  /-- `ctx->state` on its way through a start -/
  | goes (st : CaState)
  /-- `duer_coap_acquire` in `baidu_ca_create_service_router` -/
  | acquire
  | stop
  /-- `baidu_ca_build_report_message` -/
  | build
  /-- the `k`th message that has been built is pushed, or released where the queue has no memory -/
  | push (k : ℕ) (ok : Bool)
  /-- a response, which has no query -/
  | respond
  /-- the message at the top of the queue is released -/
  | send
  /-- `duer_engine_clear_data` -/
  | clear

def confStep (s : ConfSys) (a : ConfAction) : Option ConfSys :=
  match a with
  | .load data ok =>
    if s.state.isStarted then some s
    else match baiduCaLoadConfiguration s data ok with
      | (true, s) => some s
      | (false, s) => some s.stop
  | .goes st =>
    if (s.state.goesTo st ∧ st ≠ .stoped) ∨ (s.state = .srDataReceiving ∧ st = .srInitialized) then
      some { s with state := st }
    else none
  | .acquire =>
    if s.state.suspended ∧ s.sr = none then some { s with sr := some (s.field .uuid) } else none
  | .stop => some s.stop
  | .build => some { s with building := s.building ++ [s.reportQuery] }
  | .push k ok =>
    s.building[k]?.map fun m =>
      { s with
        building := s.building.eraseIdx k
        queue := if ok then s.queue ++ [m] else s.queue }
  | .respond => some { s with queue := s.queue ++ [none] }
  | .send => if s.queue = [] then none else some { s with queue := s.queue.tail }
  | .clear => some { s with queue := [] }

/-! ## What has to hold -/

/-- **No pointer dangles**: the cached strings are those of the configuration there is, and no
    query that the agent or a message has was freed; with `aesCbc`, for the AES-CBC build, the same
    for the `key_info` of the CoAP handle. -/
structure ConfSys.Sound (aesCbc : Bool) (s : ConfSys) : Prop where
  live : ∀ i, s.conf = some i → i ∉ s.destroyed
  fields : ∀ k i, s.field k = some i → s.conf = some i
  query : ∀ q, s.reportQuery = some q → q ∉ s.freed
  messages : ∀ m ∈ s.building ++ s.queue, ∀ q, m = some q → q ∉ s.freed
  keyInfo : aesCbc = true → ∀ i, s.sr = some (some i) → s.conf = some i

/-- Of some fields, those that a load of `p` does not assign: the ones behind the first string that
    there is not, and the host if it is that string. -/
def unassigned (p : Conf) (keys : List ConfKey) : List ConfKey :=
  match keys.dropWhile fun k => (p k).isSome with
  | [] => []
  | k :: rest => if k = .host then k :: rest else rest

/-- The fields that are not replaced: all of them if nothing can be parsed, otherwise those that are
    not assigned before the load fails. -/
def unreached : Option Conf → List ConfKey
  | none => confKeys
  | some p => unassigned p confKeys

/-- All strings are there. -/
def complete : Option Conf → Bool
  | none => false
  | some p => confKeys.all fun k => (p k).isSome

/-- A load does nothing because the connection is started; or the fields that it does not reach are
    still `NULL`, and if it reaches the query, no message has one, nor does a CoAP handle keep a
    string of the old configuration in the AES-CBC build. A first load meets this, and so does any
    load of a complete profile while nothing that borrows is under way. -/
def LoadAdmitted (aesCbc : Bool) (s : ConfSys) : ConfAction → Prop
  | .load data ok => s.state.isStarted = true ∨
      (∀ k ∈ unreached data, s.field k = none) ∧
      (complete data = true → (∀ m ∈ s.building ++ s.queue, m = none) ∧
        (ok = true → aesCbc = true → s.sr.join = none))
  | _ => True

/-! ## A load -/

theorem ConfKey.mem_confKeys (k : ConfKey) : k ∈ confKeys := by
  cases k <;> decide

theorem unassigned_sub {p : Conf} {keys : List ConfKey} {k : ConfKey}
    (h : k ∈ unassigned p keys) : k ∈ keys := by
  have hsub : ∀ j ∈ keys.dropWhile fun k => (p k).isSome, j ∈ keys := fun _ hj =>
    (List.dropWhile_sublist _).subset hj
  unfold unassigned at h
  split at h
  · cases h
  · rename_i key rest hrest
    split at h
    · exact hsub k (hrest ▸ h)
    · exact hsub k (hrest ▸ List.mem_cons_of_mem key h)

theorem unassigned_cons_some {p : Conf} {key : ConfKey} {v : String} (h : p key = some v)
    (keys : List ConfKey) : unassigned p (key :: keys) = unassigned p keys := by
  simp only [unassigned, List.dropWhile_cons, h, Option.isSome_some, if_true]

theorem unassigned_cons_none {p : Conf} {key : ConfKey} (h : p key = none) (keys : List ConfKey) :
    unassigned p (key :: keys) = if key = .host then key :: keys else keys := by
  simp only [unassigned, List.dropWhile_cons, h, Option.isSome_none, Bool.false_eq_true, if_false]

/-- Fields up to the first missing string are replaced, the others are not. -/
theorem loadFields_spec (p : Conf) (c : ℕ) {keys : List ConfKey} (field : ConfKey → Option ℕ)
    (hnodup : keys.Nodup) :
    (loadFields p c keys field).1 = keys.all (fun k => (p k).isSome) ∧
      ∀ k, (loadFields p c keys field).2 k =
        if k ∈ keys ∧ k ∉ unassigned p keys then (p k).map fun _ => c else field k := by
  induction keys generalizing field with
  | nil => exact ⟨rfl, fun k => rfl⟩
  | cons key keys ih =>
    obtain ⟨hnot, hnodup⟩ := List.nodup_cons.mp hnodup
    cases hkey : p key with
    | none =>
      simp only [loadFields, hkey, List.all_cons, Option.isSome_none, Bool.false_and, true_and]
      intro k
      rw [unassigned_cons_none hkey]
      by_cases hhost : key = .host
      · rw [if_pos hhost, if_pos hhost, if_neg fun h => h.2 h.1]
      · rw [if_neg hhost, if_neg hhost]
        by_cases hk : k = key
        · subst hk
          rw [Function.update_self, if_pos ⟨List.mem_cons_self, hnot⟩, hkey]
          rfl
        · rw [Function.update_of_ne hk, if_neg fun h => h.2 (List.mem_of_ne_of_mem hk h.1)]
    | some v =>
      simp only [loadFields, hkey, List.all_cons, Option.isSome_some, Bool.true_and]
      refine ⟨(ih _ hnodup).1, fun k => ?_⟩
      rw [(ih _ hnodup).2 k, unassigned_cons_some hkey]
      by_cases hk : k = key
      · subst hk
        rw [if_neg fun h => hnot h.1, Function.update_self,
          if_pos ⟨List.mem_cons_self, fun h => hnot (unassigned_sub h)⟩, hkey]
        rfl
      · simp only [List.mem_cons, hk, false_or, Function.update_of_ne hk]

/-- What a load does. -/
structure Loaded (s : ConfSys) (data : Option Conf) (ok : Bool) (rs : Bool) (s' : ConfSys) :
    Prop where
  status : rs = (complete data && ok)
  confs : s'.confs = s.confs ++ data.toList
  conf : s'.conf = data.map fun _ => s.confs.length
  destroyed : s'.destroyed = s.destroyed ++ s.conf.toList
  field : ∀ k, s'.field k =
    if k ∈ unreached data then s.field k else (data.bind (· k)).map fun _ => s.confs.length
  freed : s'.freed = s.freed ++ if complete data then s.reportQuery.toList else []
  reportQuery : s'.reportQuery =
    if complete data then (if ok then some s.queries.length else none) else s.reportQuery
  queries : s'.queries.length = s.queries.length + if complete data && ok then 1 else 0
  state : s'.state = s.state
  sr : s'.sr = s.sr
  building : s'.building = s.building
  queue : s'.queue = s.queue

theorem baiduCaLoadConfiguration_spec (s : ConfSys) (data : Option Conf) (ok : Bool) :
    Loaded s data ok (baiduCaLoadConfiguration s data ok).1
      (baiduCaLoadConfiguration s data ok).2 := by
  cases data with
  | none =>
    have hall : ∀ k, k ∈ unreached none := ConfKey.mem_confKeys
    exact ⟨rfl, (List.append_nil _).symm, rfl, rfl, fun k => (if_pos (hall k)).symm,
      (List.append_nil _).symm, rfl, rfl, rfl, rfl, rfl, rfl⟩
  | some p =>
    obtain ⟨hstatus, hfield⟩ := loadFields_spec p s.confs.length s.field
      (show confKeys.Nodup by decide)
    have hfield' : ∀ k, (loadFields p s.confs.length confKeys s.field).2 k =
        if k ∈ unreached (some p) then s.field k
        else ((some p).bind (· k)).map fun _ => s.confs.length := by
      intro k
      rw [hfield k]
      by_cases hk : k ∈ unreached (some p)
      · rw [if_pos hk, if_neg fun h => h.2 hk]
      · rw [if_neg hk, if_pos ⟨k.mem_confKeys, hk⟩]
        rfl
    have hcomplete : (loadFields p s.confs.length confKeys s.field).1 = complete (some p) := hstatus
    simp only [baiduCaLoadConfiguration]
    generalize loadFields p s.confs.length confKeys s.field = result at hcomplete hfield'
    obtain ⟨reached, field⟩ := result
    simp only at hcomplete hfield'
    subst hcomplete
    cases hall : complete (some p) with
    | false =>
      exact ⟨by simp [hall], rfl, rfl, rfl, hfield', by simp [hall], by simp [hall], by simp [hall],
        rfl, rfl, rfl, rfl⟩
    | true =>
      cases ok <;> exact ⟨by simp [hall], rfl, rfl, rfl, hfield', by simp [hall], by simp [hall],
        by simp [hall], rfl, rfl, rfl, rfl⟩

/-! ## The invariant -/

/-- No pointer dangles, and whatever has a number has been allocated. -/
structure ConfSys.Kept (aesCbc : Bool) (s : ConfSys) : Prop extends s.Sound aesCbc where
  created : ∀ i, s.conf = some i → i < s.confs.length
  gone : ∀ i ∈ s.destroyed, i < s.confs.length
  allocated : ∀ q, s.reportQuery = some q → q < s.queries.length
  released : ∀ q ∈ s.freed, q < s.queries.length
  borrowed : ∀ m ∈ s.building ++ s.queue, ∀ q, m = some q → s.reportQuery = some q
  stopped : s.state = .stoped → s.sr = none

section Steps

variable {aesCbc : Bool} {s s' : ConfSys} {data : Option Conf} {ok rs : Bool}

theorem ConfSys.Kept.forget (h : s.Kept aesCbc) : s.Kept false :=
  { h with keyInfo := nofun }

theorem ConfSys.Kept.remember (h : s.Kept false)
    (hsr : aesCbc = true → ∀ i, s.sr = some (some i) → s.conf = some i) : s.Kept aesCbc :=
  { h with keyInfo := hsr }

/-- A stop releases the handle. -/
theorem ConfSys.Kept.stop (h : s.Kept false) : s.stop.Kept aesCbc := by
  rw [ConfSys.stop]
  split
  · rename_i hst
    exact h.remember fun _ i hi => absurd (h.stopped hst ▸ hi) nofun
  · exact { h with keyInfo := nofun, stopped := fun _ => rfl }

/-- Messages that borrow the query of the agent, or none. -/
theorem ConfSys.Kept.carry (h : s.Kept aesCbc) {building queue : List (Option ℕ)}
    (hborrowed : ∀ m ∈ building ++ queue, ∀ q, m = some q → s.reportQuery = some q) :
    ConfSys.Kept aesCbc { s with building := building, queue := queue } :=
  { h with
    messages := fun m hm q hq => h.query q (hborrowed m hm q hq), borrowed := hborrowed }

/-- The configuration after a load is the one that has been parsed. -/
theorem Loaded.conf_new (hl : Loaded s data ok rs s') {i : ℕ} (hi : s'.conf = some i) :
    i = s.confs.length ∧ ∃ p, data = some p := by
  rw [hl.conf] at hi
  obtain ⟨p, rfl, rfl⟩ := Option.map_eq_some_iff.mp hi
  exact ⟨rfl, p, rfl⟩

/-- A load destroys what there was before it. -/
theorem ConfSys.Kept.destroyed_old (h : s.Kept aesCbc) (hl : Loaded s data ok rs s') :
    ∀ i ∈ s'.destroyed, i < s.confs.length := by
  intro i hi
  rw [hl.destroyed] at hi
  rcases List.mem_append.mp hi with hi | hi
  · exact h.gone i hi
  · exact h.created i (Option.mem_toList.mp hi)

/-- The query after a load is a new one, or the old one, which is not freed. -/
theorem ConfSys.Kept.query_live (h : s.Kept aesCbc) (hl : Loaded s data ok rs s') {q : ℕ}
    (hq : s'.reportQuery = some q) : q ∉ s'.freed ∧ q < s'.queries.length := by
  rw [hl.reportQuery] at hq
  rw [hl.freed, hl.queries]
  cases hc : complete data with
  | false =>
    simp only [hc, Bool.false_eq_true, if_false] at hq
    simpa using ⟨h.query q hq, h.allocated q hq⟩
  | true =>
    cases ok with
    | false => simp [hc] at hq
    | true =>
      obtain rfl : s.queries.length = q := by simpa [hc] using hq
      refine ⟨fun hmem => ?_, by simp⟩
      rcases List.mem_append.mp hmem with hmem | hmem
      · exact absurd (h.released _ hmem) (Nat.lt_irrefl _)
      · exact absurd (h.allocated _ (by simpa using hmem)) (Nat.lt_irrefl _)

/-- A load after which no old string is left, and no message of the old query. -/
theorem ConfSys.Kept.loaded (h : s.Kept false) (hl : Loaded s data ok rs s')
    (hfields : ∀ k ∈ unreached data, s.field k = none)
    (hmessages : complete data = true → ∀ m ∈ s.building ++ s.queue, m = none) :
    s'.Kept false := by
  have hfresh := h.destroyed_old hl
  have hlen : s.confs.length ≤ s'.confs.length := by rw [hl.confs]; simp
  have hmessage : ∀ m ∈ s'.building ++ s'.queue, ∀ q, m = some q →
      s'.reportQuery = some q := by
    intro m hm q hq
    rw [hl.building, hl.queue] at hm
    rw [hl.reportQuery]
    cases hc : complete data with
    | false => exact h.borrowed m hm q hq
    | true =>
      rw [hmessages hc m hm] at hq
      cases hq
  refine ⟨⟨?_, ?_, fun q hq => (h.query_live hl hq).1,
    fun m hm q hq => (h.query_live hl (hmessage m hm q hq)).1, nofun⟩, ?_,
    fun i hi => Nat.lt_of_lt_of_le (hfresh i hi) hlen, fun q hq => (h.query_live hl hq).2, ?_,
    hmessage, ?_⟩
  · intro i hi hmem
    obtain ⟨rfl, -⟩ := hl.conf_new hi
    exact absurd (hfresh _ hmem) (Nat.lt_irrefl _)
  · intro k i hi
    rw [hl.field k] at hi
    rw [hl.conf]
    split at hi
    · rename_i hk
      rw [hfields k hk] at hi
      cases hi
    · obtain ⟨v, hv, rfl⟩ := Option.map_eq_some_iff.mp hi
      obtain ⟨p, rfl, -⟩ := Option.bind_eq_some_iff.mp hv
      rfl
  · intro i hi
    obtain ⟨rfl, p, rfl⟩ := hl.conf_new hi
    rw [hl.confs]
    simp
  · intro q hq
    rw [hl.freed] at hq
    rw [hl.queries]
    rcases List.mem_append.mp hq with hq | hq
    · exact Nat.lt_of_lt_of_le (h.released q hq) (Nat.le_add_right ..)
    · split at hq
      · exact Nat.lt_of_lt_of_le (h.allocated q (Option.mem_toList.mp hq)) (Nat.le_add_right ..)
      · exact absurd hq (by simp)
  · rw [hl.state, hl.sr]
    exact h.stopped

/-- A load that the condition admits. -/
theorem ConfSys.Kept.load (h : s.Kept aesCbc) (hg : LoadAdmitted aesCbc s (.load data ok))
    (hs : confStep s (.load data ok) = some s') : s'.Kept aesCbc := by
  simp only [confStep] at hs
  by_cases hst : s.state.isStarted = true
  · rw [if_pos hst] at hs
    exact Option.some.inj hs ▸ h
  · obtain ⟨hfields, hreached⟩ := hg.resolve_left hst
    have hl := baiduCaLoadConfiguration_spec s data ok
    have hkept := h.forget.loaded hl hfields fun hc => (hreached hc).1
    rw [if_neg hst] at hs
    generalize baiduCaLoadConfiguration s data ok = result at hl hkept hs
    obtain ⟨rs, s₁⟩ := result
    cases rs with
    | false =>
      obtain rfl := Option.some.inj hs
      exact hkept.stop
    | true =>
      obtain rfl := Option.some.inj hs
      obtain ⟨hc, hok⟩ : complete data = true ∧ ok = true := by simpa using hl.status.symm
      refine hkept.remember fun ha i hi => ?_
      rw [show s₁.sr = s.sr from hl.sr] at hi
      have hnone := (hreached hc).2 hok ha
      rw [hi] at hnone
      cases hnone

/-- **One step** that the condition admits. Beside the load the steps hand pointers on: to a message
    that is built, to the queue, to a CoAP handle; none of them makes a new one. -/
theorem ConfSys.Kept.step (h : s.Kept aesCbc) {a : ConfAction} (hg : LoadAdmitted aesCbc s a)
    (hs : confStep s a = some s') : s'.Kept aesCbc := by
  cases a with
  | load data ok => exact h.load hg hs
  | goes st =>
    simp only [confStep] at hs
    split at hs
    · rename_i hgoes
      obtain rfl := Option.some.inj hs
      refine { h with stopped := fun hst => ?_ }
      rcases hgoes with hgoes | hgoes
      · exact absurd hst hgoes.2
      · exact absurd (hgoes.2.symm.trans hst) nofun
    · cases hs
  | acquire =>
    simp only [confStep] at hs
    split at hs
    · rename_i hacq
      obtain rfl := Option.some.inj hs
      refine { h with keyInfo := fun _ i hi => ?_, stopped := fun hst => ?_ }
      · exact h.fields .uuid i (Option.some.inj hi)
      · rw [show s.state = .stoped from hst] at hacq
        exact absurd hacq.1 nofun
    · cases hs
  | stop => exact Option.some.inj hs ▸ h.forget.stop
  | build =>
    obtain rfl := Option.some.inj hs
    refine h.carry fun m hm q hq => ?_
    rw [List.append_assoc, List.mem_append, List.mem_append, List.mem_singleton] at hm
    rcases hm with hm | rfl | hm
    · exact h.borrowed m (List.mem_append_left _ hm) q hq
    · exact hq
    · exact h.borrowed m (List.mem_append_right _ hm) q hq
  | push k ok =>
    obtain ⟨built, hbuilt, rfl⟩ := Option.map_eq_some_iff.mp hs
    refine h.carry fun m hm q hq => h.borrowed m ?_ q hq
    rcases List.mem_append.mp hm with hm | hm
    · exact List.mem_append_left _ (List.mem_of_mem_eraseIdx hm)
    cases ok with
    | false => exact List.mem_append_right _ hm
    | true =>
      rcases List.mem_append.mp hm with hm | hm
      · exact List.mem_append_right _ hm
      · obtain rfl := List.mem_singleton.mp hm
        exact List.mem_append_left _ (List.mem_of_getElem? hbuilt)
  | respond =>
    obtain rfl := Option.some.inj hs
    refine h.carry fun m hm q hq => ?_
    rw [← List.append_assoc, List.mem_append, List.mem_singleton] at hm
    rcases hm with hm | rfl
    · exact h.borrowed m hm q hq
    · cases hq
  | send =>
    simp only [confStep] at hs
    split at hs
    · cases hs
    · obtain rfl := Option.some.inj hs
      refine h.carry fun m hm q hq => h.borrowed m ?_ q hq
      rcases List.mem_append.mp hm with hm | hm
      · exact List.mem_append_left _ hm
      · exact List.mem_append_right _ (List.mem_of_mem_tail hm)
  | clear =>
    obtain rfl := Option.some.inj hs
    refine h.carry fun m hm q hq => h.borrowed m ?_ q hq
    rw [List.append_nil] at hm
    exact List.mem_append_left _ hm

/-- **Any other load** leaves a pointer into what it has destroyed or freed. The three parts of the
    condition correspond to three kinds of pointers, and each part that fails is shown to leave one
    of its kind. -/
theorem ConfSys.Kept.dangles (h : s.Kept aesCbc) {a : ConfAction} (hg : ¬LoadAdmitted aesCbc s a)
    (hs : confStep s a = some s') : ¬s'.Sound aesCbc := by
  cases a with
  | load data ok =>
    simp only [LoadAdmitted, not_or] at hg
    obtain ⟨hst, hg⟩ := hg
    simp only [confStep, if_neg hst] at hs
    have hl := baiduCaLoadConfiguration_spec s data ok
    generalize baiduCaLoadConfiguration s data ok = result at hl hs
    obtain ⟨rs, s₁⟩ := result
    simp only at hl
    -- a stop changes nothing but the handle
    have hkeeps : s'.conf = s₁.conf ∧ s'.field = s₁.field ∧ s'.freed = s₁.freed ∧
        s'.building = s₁.building ∧ s'.queue = s₁.queue ∧ (rs = true → s'.sr = s₁.sr) := by
      cases rs with
      | false =>
        obtain rfl := Option.some.inj hs
        rw [ConfSys.stop]
        split <;> exact ⟨rfl, rfl, rfl, rfl, rfl, nofun⟩
      | true =>
        obtain rfl := Option.some.inj hs
        exact ⟨rfl, rfl, rfl, rfl, rfl, fun _ => rfl⟩
    obtain ⟨hconf, hfield, hfreed, hbuilding, hqueue, hsr⟩ := hkeeps
    have hold : ∀ i, s.conf = some i → s'.conf ≠ some i := by
      intro i hi hi'
      rw [hconf, hl.conf] at hi'
      obtain ⟨-, -, rfl⟩ := Option.map_eq_some_iff.mp hi'
      exact absurd (h.created _ hi) (Nat.lt_irrefl _)
    intro hsound
    refine hg ⟨fun k hk => ?_, fun hc => ⟨fun m hm => ?_, fun hok ha => ?_⟩⟩
    · cases hkey : s.field k with
      | none => rfl
      | some i =>
        refine absurd (hsound.fields k i ?_) (hold i (h.fields k i hkey))
        rw [hfield, hl.field k, if_pos hk, hkey]
    · cases hquery : m with
      | none => rfl
      | some q =>
        have hm' : m ∈ s'.building ++ s'.queue := by rwa [hbuilding, hqueue, hl.building, hl.queue]
        refine absurd ?_ (hsound.messages m hm' q hquery)
        rw [hfreed, hl.freed, if_pos hc, h.borrowed m hm q hquery]
        simp
    · have hrs : rs = true := by rw [hl.status, hc, hok]; rfl
      cases hkey : s.sr.join with
      | none => rfl
      | some i =>
        have hsome : s.sr = some (some i) := Option.join_eq_some_iff.mp hkey
        refine absurd (hsound.keyInfo ha i ?_) (hold i (h.keyInfo ha i hsome))
        rw [hsr hrs, hl.sr, hsome]
  | goes | acquire | stop | build | push | respond | send | clear => exact absurd trivial hg

end Steps

/-- **No configuration pointer dangles** in a run whose loads meet the condition; and one does after
    the first load that does not. Loads are the only steps that are guarded, and they may happen at
    any time of a run. -/
theorem configuration_sound {aesCbc : Bool} {s : ConfSys}
    (h : ReachableBy (· = {}) confStep (LoadAdmitted aesCbc) s) :
    s.Sound aesCbc ∧
      ∀ a s', confStep s a = some s' → (s'.Sound aesCbc ↔ LoadAdmitted aesCbc s a) := by
  have hkept : s.Kept aesCbc := by
    refine h.invariant (ConfSys.Kept aesCbc) ?_ fun hinv hg hs => hinv.step hg hs
    rintro _ rfl
    exact ⟨⟨nofun, nofun, nofun, nofun, nofun⟩, nofun, nofun, nofun, nofun, nofun, fun _ => rfl⟩
  refine ⟨hkept.toSound, fun a s' hs => ⟨fun hsound => ?_, fun hg => (hkept.step hg hs).toSound⟩⟩
  by_contra hg
  exact hkept.dangles hg hs hsound

/-- A first load, with a report queued after it. -/
theorem configuration_sound_first_load :
    ∃ s, runFrom confStep {} [.load (some fun _ => some "a") true, .build, .push 0 true] = some s ∧
      s.queue = [some 0] ∧ s.Sound true := by
  refine ⟨_, rfl, rfl, (configuration_sound (.of_runFrom
    [.load (some fun _ => some "a") true, .build, .push 0 true] (.start rfl) ?_ rfl)).1⟩
  exact ⟨.inr ⟨fun _ _ => rfl, fun _ => ⟨fun m hm => absurd hm (by simp), fun _ _ => rfl⟩⟩, trivial,
    trivial, trivial⟩

/-- After a second load, of a profile that cannot be parsed, the old strings are left; and after
    one that succeeds, a report that was queued has the old query. -/
theorem configuration_dangles_after_reload :
    (∃ s, runFrom confStep {} [.load (some fun _ => some "a") true, .load none true] = some s ∧
      s.field .uuid = some 0 ∧ s.destroyed = [0] ∧ ¬s.Sound false) ∧
    ∃ s, runFrom confStep {} [.load (some fun _ => some "a") true, .build, .push 0 true,
        .load (some fun _ => some "b") true] = some s ∧
      s.queue = [some 0] ∧ s.freed = [0] ∧ ¬s.Sound false := by
  refine ⟨⟨_, rfl, rfl, rfl, fun h => ?_⟩, _, rfl, rfl, rfl, fun h => ?_⟩
  · exact absurd (h.fields .uuid 0 rfl) nofun
  · exact h.messages (some 0) List.mem_cons_self 0 rfl List.mem_cons_self

end Engine
end LightDuer
