import LightDuer.Engine.ConnAgent
import LightDuer.Lib.Growth

/-!
# Resources of the connection agent

`baidu_ca_add_resources` passes a list of resources on to `duer_coap_resource_add`, or stages it in
`ctx->res_list` while the service router is not initialised; then `baidu_ca_create_service_router`
passes on what is staged, through the same function. The loop counts with a `duer_u8_t`, size and
capacity of the staged list are `duer_u32_t`. A resource is a parameter: of its contents nothing is
read here.

The response that initialises the service router is one step with what follows it: the handler
returns `DUER_OK`, which is then the status of `duer_coap_data_available`.

## The staged list

`res_list` has a capacity that grows by whole multiples of five, and a size. `ResCa.Valid` is what
connects the three, and `ResCa.staged` is what the list stands for: its first slots, as many as the
size says. Two things can go wrong when room is made. `DUER_REALLOC` may fail, and its result
overwrites `res_list` all the same, so the list is lost while its size stays; and a capacity may not
fit its field, and then the list is too small and what follows writes behind it. `ResCa.Grows` says
that neither happens: the list has room, or it is given room that fits, or there is nothing staged
that could be lost.

## The loop

A `duer_u8_t` counts up to the size of the list. With 2⁸ resources or more it never gets there, and
the call passes the same resources on for ever; below that it passes each one on once
(`passLoop_spec`, `passLoop_hangs`).

## Over whole runs

`ResSys.Kept` says that every call has returned, nothing was written behind the list, and each
resource that was accepted is staged or has been passed on, once, the latter once the service router
is initialised. `resources_kept` proves it of every run whose calls fit, and that the first call
that does not fit ends it.
-/

set_option autoImplicit false

namespace LightDuer
namespace Engine

variable {α : Type}

/-- `DUER_RES_INC_COUNT` -/
def duerResIncCount : ℕ := 5

/-- The capacity computed for a number of resources. -/
def resCapaFor (n : ℕ) : ℕ := (n / duerResIncCount + 1) * duerResIncCount

/-- The part of `baidu_ca_t` that resources are kept in, and what has been passed on. A slot of
    `resList` is `none` until it is written. -/
structure ResCa (α : Type) where
  state : CaState := .stoped
  resList : Option (List (Option α)) := none
  resSize : ℕ := 0
  resCapa : ℕ := 0
  /-- the arguments of `duer_coap_resource_add`, `none` where they point to no resource -/
  passed : List (Option α) := []
  /-- a resource has been written behind the end of `resList` -/
  overrun : Bool := false

/-- What the pointer `list_res + i` points to. -/
def resAt (listRes : Option (List (Option α))) (i : ℕ) : Option α :=
  (listRes.bind (·[i]?)).join

/-- The loop of `baidu_ca_add_resources`, from its counter on. -/
def passLoop (listRes : Option (List (Option α))) (size : ℕ) :
    ℕ → ℕ → List (Option α) → Option (List (Option α))
  | 0, _, _ => none
  | fuel + 1, i, passed =>
    if i < size then
      passLoop listRes size fuel ((i + 1) % 2 ^ 8) (passed ++ [resAt listRes i])
    else some passed

/-- `baidu_ca_add_resources`: room for `size` more resources, if there is memory for it. -/
def ResCa.makeRoom (ca : ResCa α) (size : ℕ) (ok : Bool) : ResCa α :=
  match ca.resList with
  | none =>
    let capa := resCapaFor size % 2 ^ 32
    { ca with
      resCapa := capa
      resList := if ok then some (List.replicate capa none) else none
      resSize := 0 }
  | some slots =>
    if ca.resCapa < ca.resSize + size then
      let capa := resCapaFor (ca.resSize + size) % 2 ^ 32
      { ca with
        resCapa := capa
        resList := if ok then some (slots.takeD capa none) else none }
    else ca

/-- `baidu_ca_add_resources`: the copy behind what is staged. -/
def ResCa.store (ca : ResCa α) (listRes : Option (List (Option α))) (size : ℕ) :
    Bool × ResCa α :=
  match ca.resList with
  | none => (false, ca)
  | some slots =>
    if ca.resSize + size ≤ slots.length then
      (true, { ca with
        resList := some (slots.take ca.resSize ++ (List.range size).map (resAt listRes) ++
          slots.drop (ca.resSize + size))
        resSize := (ca.resSize + size) % 2 ^ 32 })
    else (true, { ca with resSize := (ca.resSize + size) % 2 ^ 32, overrun := true })

/-- `baidu_ca_add_resources`, and whether it returns `DUER_OK`; `none` as long as it has not
    returned. -/
def baiduCaAddResources (fuel : ℕ) (ca : ResCa α) (listRes : Option (List (Option α)))
    (size : ℕ) (ok : Bool) : Option (Bool × ResCa α) :=
  if CaState.srInitialized.value ≤ ca.state.value then
    (passLoop listRes size fuel 0 ca.passed).map fun passed => (true, { ca with passed := passed })
  else some ((ca.makeRoom size ok).store listRes size)

/-- `baidu_ca_create_service_router` in `DUER_ST_SR_INITIALIZED` -/
def passStaged (fuel : ℕ) (ca : ResCa α) : Option (ResCa α) :=
  (baiduCaAddResources fuel ca ca.resList ca.resSize true).map fun result =>
    match result.2.resList with
    | none => result.2
    | some _ => { result.2 with resList := none, resSize := 0, resCapa := 0 }

/-! ## Runs -/

/-- A change of `ctx->state` other than the one that initialises the service router. -/
def CaState.goesTo (st st' : CaState) : Bool :=
  match st, st' with
  | .stoped, .unregistered | .unregistered, .registerConnected
  | .registerConnected, .registered | .registered, .srConnecting
  | .srConnecting, .srDataSending | .srDataSending, .srDataReceiving
  | .srDataReceiving, .registerFail | .srInitialized, .started => true
  | _, .stoped => true
  | _, _ => false

/-- The agent, the resources of the calls that returned `DUER_OK`, and whether a call is in its
    loop for ever. -/
structure ResSys (α : Type) where
  ca : ResCa α := {}
  accepted : List α := []
  hung : Bool := false

inductive ResAction (α : Type) where
  /-- `baidu_ca_add_resources`, with or without the memory that it asks for -/
  | add (listRes : List α) (ok : Bool)
  | goes (st : CaState)
  /-- the response that initialises the service router -/
  | initialized

def resStep (fuel : ℕ) (s : ResSys α) (a : ResAction α) : Option (ResSys α) :=
  if s.hung then none
  else match a with
    | .add listRes ok =>
      match baiduCaAddResources fuel s.ca (some (listRes.map some)) listRes.length ok with
      | none => some { s with hung := true }
      | some (rs, ca) =>
        some { s with ca := ca, accepted := if rs then s.accepted ++ listRes else s.accepted }
    | .goes st =>
      if s.ca.state.goesTo st then some { s with ca := { s.ca with state := st } } else none
    | .initialized =>
      if s.ca.state = .srDataReceiving then
        match passStaged fuel { s.ca with state := .srInitialized } with
        | none => some { s with hung := true }
        | some ca => some { s with ca := ca }
      else none

/-! ## What has to hold -/

/-- What is staged. -/
def ResCa.staged (ca : ResCa α) : List (Option α) := (ca.resList.getD []).take ca.resSize

/-- The staged list, its size and its capacity fit together. -/
def ResCa.Valid (ca : ResCa α) : Prop :=
  match ca.resList with
  | none => ca.resSize = 0
  | some slots => slots.length = ca.resCapa ∧ ca.resSize ≤ ca.resCapa ∧ ca.resCapa < 2 ^ 32

/-- **Nothing is lost and every call has returned.** `once` compares the resources that were
    accepted with those that are staged or have been passed on, as lists up to their order, so that
    it excludes a loss as well as a repetition; `flushed` says that the service router does not
    leave any staged. -/
structure ResSys.Kept (s : ResSys α) : Prop where
  returned : s.hung = false
  inside : s.ca.overrun = false
  valid : s.ca.Valid
  /-- a resource that was accepted is staged or has been passed on, once -/
  once : (s.ca.passed ++ s.ca.staged).Perm (s.accepted.map some)
  /-- and has been passed on when the service router is initialised -/
  flushed : CaState.srInitialized.value ≤ s.ca.state.value → s.ca.state ≠ .registerFail →
    s.ca.staged = []

/-- Room for more resources that fits its fields, or no memory and nothing staged. Memory that runs
    short while something is staged is among what is left out: `res_list` is overwritten by `NULL`
    then, and `res_size` stays. -/
def ResCa.Grows (ca : ResCa α) (size : ℕ) (ok : Bool) : Prop :=
  match ca.resList with
  | none => ok = true → resCapaFor size < 2 ^ 32
  | some _ => ca.resSize + size ≤ ca.resCapa ∨
      if ok then resCapaFor (ca.resSize + size) < 2 ^ 32 else ca.resSize = 0

/-- A call with few enough resources for its counter or, before the service router is
    initialised, one that does not fail to make room behind staged resources; and few enough
    staged resources when they are passed on. -/
def ResFits (s : ResSys α) : ResAction α → Prop
  | .add listRes ok =>
    if CaState.srInitialized.value ≤ s.ca.state.value then listRes.length < 2 ^ 8
    else s.ca.Grows listRes.length ok
  | .goes _ => True
  | .initialized => s.ca.resSize < 2 ^ 8

/-! ## The loop -/

section Loop

variable {listRes : Option (List (Option α))} {size fuel i : ℕ} {passed : List (Option α)}

/-- Whether it ends does not depend on what it passes. -/
theorem passLoop_isSome (listRes : Option (List (Option α))) (size fuel i : ℕ)
    (passed : List (Option α)) :
    (passLoop listRes size fuel i passed).isSome = resLoopEnds size fuel i := by
  induction fuel generalizing i passed with
  | zero => rfl
  | succ fuel ih =>
    rw [passLoop, resLoopEnds]
    split
    · exact ih _ _
    · rfl

/-- A counter that can reach the size passes one resource after another. -/
theorem passLoop_spec (hsize : size < 2 ^ 8) (hi : i ≤ size) (hfuel : size - i < fuel) :
    passLoop listRes size fuel i passed =
      some (passed ++ (List.range' i (size - i)).map (resAt listRes)) := by
  induction fuel generalizing i passed with
  | zero => omega
  | succ fuel ih =>
    rw [passLoop]
    by_cases hlt : i < size
    · have hmod : (i + 1) % 2 ^ 8 = i + 1 := Nat.mod_eq_of_lt (by omega)
      have hcount : size - i = (size - (i + 1)) + 1 := by omega
      rw [if_pos hlt, hmod, ih (by omega) (by omega), hcount, List.range'_succ, List.map_cons,
        List.append_assoc]
      rfl
    · have hzero : size - i = 0 := by omega
      rw [if_neg hlt, hzero, List.range'_zero, List.map_nil, List.append_nil]

/-- A counter that cannot reach it stays below it for ever. -/
theorem passLoop_hangs (hsize : 2 ^ 8 ≤ size) (hi : i < 2 ^ 8) :
    passLoop listRes size fuel i passed = none := by
  rw [← Option.not_isSome_iff_eq_none, passLoop_isSome, resLoopEnds_of_le hsize hi]
  exact Bool.false_ne_true

theorem map_resAt {slots : List (Option α)} (h : size ≤ slots.length) :
    (List.range size).map (resAt (some slots)) = slots.take size := by
  refine List.ext_getElem (by simp [h]) fun j hj hj' => ?_
  have hlt : j < slots.length := by simp at hj; omega
  simp [resAt, hlt]

end Loop

section Calls

variable {ca : ResCa α} {listRes : Option (List (Option α))} {size fuel : ℕ} {ok : Bool}

/-- With the service router initialised the resources are passed on, -/
theorem baiduCaAddResources_passes (hst : CaState.srInitialized.value ≤ ca.state.value)
    (hsize : size < 2 ^ 8) (hfuel : 2 ^ 8 ≤ fuel) :
    baiduCaAddResources fuel ca listRes size ok =
      some (true, { ca with passed := ca.passed ++ (List.range size).map (resAt listRes) }) := by
  rw [baiduCaAddResources, if_pos hst, passLoop_spec hsize (by omega) (by omega), Nat.sub_zero,
    ← List.range_eq_range']
  rfl

/-- or the call does not return. -/
theorem baiduCaAddResources_hangs (hst : CaState.srInitialized.value ≤ ca.state.value)
    (hsize : 2 ^ 8 ≤ size) : baiduCaAddResources fuel ca listRes size ok = none := by
  rw [baiduCaAddResources, if_pos hst, passLoop_hangs hsize (by decide)]
  rfl

/-- **The loop of the start-up is this one**: the agent that is on its way up adds what is staged
    where `baidu_ca_add_resources` returns, and reads nothing behind a `NULL`. -/
theorem addStaged_isSome_iff {a : Agent} (hst : a.state = .srInitialized)
    (hlist : a.resList = ca.resList.isSome) (hsize : a.resSize = ca.resSize) :
    a.addStaged.isSome = true ↔
      (passStaged (2 ^ 8) { ca with state := .srInitialized }).isSome = true ∧
        (ca.resList.isSome = true ∨ ca.resSize ≤ 1) := by
  have hcall : (passStaged (2 ^ 8) { ca with state := .srInitialized }).isSome =
      resLoopEnds ca.resSize (2 ^ 8) 0 := by
    simp only [passStaged, baiduCaAddResources, if_pos (Nat.le_refl _), Option.isSome_map,
      passLoop_isSome]
  rw [hcall, Agent.addStaged, if_pos hst, hsize, hlist]
  cases resLoopEnds ca.resSize (2 ^ 8) 0 with
  | false => simp
  | true =>
    cases ca.resList with
    | some slots => simp
    | none => by_cases hone : ca.resSize ≤ 1 <;> simp [hone]

theorem lt_resCapaFor (n : ℕ) : n < resCapaFor n := by
  simp only [resCapaFor, duerResIncCount]
  omega

theorem ResCa.staged_none (h : ca.resList = none) : ca.staged = [] := by
  rw [ResCa.staged, h]
  exact List.take_nil

theorem ResCa.staged_some {slots : List (Option α)} (h : ca.resList = some slots) :
    ca.staged = slots.take ca.resSize := by
  rw [ResCa.staged, h]
  rfl

theorem ResCa.valid_none (h : ca.resList = none) : ca.Valid ↔ ca.resSize = 0 := by
  rw [ResCa.Valid, h]

theorem ResCa.valid_some {slots : List (Option α)} (h : ca.resList = some slots) :
    ca.Valid ↔ slots.length = ca.resCapa ∧ ca.resSize ≤ ca.resCapa ∧ ca.resCapa < 2 ^ 32 := by
  rw [ResCa.Valid, h]

/-- What staging leaves as it was. -/
structure SamePassed (ca ca' : ResCa α) : Prop where
  state : ca'.state = ca.state
  passed : ca'.passed = ca.passed
  overrun : ca'.overrun = ca.overrun

theorem makeRoom_same (ca : ResCa α) (size : ℕ) (ok : Bool) :
    SamePassed ca (ca.makeRoom size ok) := by
  rw [ResCa.makeRoom]
  split
  · exact ⟨rfl, rfl, rfl⟩
  · split <;> exact ⟨rfl, rfl, rfl⟩

/-- **Making room** keeps what is staged, and a list that is there has the room. It may leave no
    list, where there is no memory for one; the call then fails. -/
theorem makeRoom_spec (hv : ca.Valid) (hg : ca.Grows size ok) :
    (ca.makeRoom size ok).Valid ∧ (ca.makeRoom size ok).staged = ca.staged ∧
      ((ca.makeRoom size ok).resList = none ∨
        (ca.makeRoom size ok).resSize + size ≤ (ca.makeRoom size ok).resCapa) := by
  cases hlist : ca.resList with
  | none =>
    simp only [ResCa.Grows, hlist] at hg
    simp only [ResCa.makeRoom, hlist]
    rw [ResCa.staged_none hlist]
    cases ok with
    | false => exact ⟨rfl, rfl, .inl rfl⟩
    | true =>
      have hmod : resCapaFor size % 2 ^ 32 = resCapaFor size := Nat.mod_eq_of_lt (hg rfl)
      have hlt := lt_resCapaFor size
      simp only [hmod]
      refine ⟨?_, rfl, .inr ?_⟩
      · exact (ResCa.valid_some rfl).mpr ⟨List.length_replicate, Nat.zero_le _, hg rfl⟩
      · omega
  | some slots =>
    simp only [ResCa.Grows, hlist] at hg
    have hslots := (ResCa.valid_some hlist).mp hv
    by_cases hroom : ca.resCapa < ca.resSize + size
    · have hgrows := hg.resolve_left (by omega)
      simp only [ResCa.makeRoom, hlist, if_pos hroom]
      rw [ResCa.staged_some hlist]
      cases ok with
      | false =>
        have hzero : ca.resSize = 0 := by simpa using hgrows
        refine ⟨(ResCa.valid_none rfl).mpr hzero, ?_, .inl rfl⟩
        rw [ResCa.staged_none rfl, hzero, List.take_zero]
      | true =>
        have hfits : resCapaFor (ca.resSize + size) < 2 ^ 32 := by simpa using hgrows
        have hlt := lt_resCapaFor (ca.resSize + size)
        have hle : ca.resSize ≤ resCapaFor (ca.resSize + size) := by omega
        simp only [if_true, Nat.mod_eq_of_lt hfits]
        have htake : (slots.takeD (resCapaFor (ca.resSize + size)) none).take ca.resSize =
            slots.take ca.resSize := Lib.take_takeD _ (by omega) (by omega)
        refine ⟨?_, htake, .inr (Nat.le_of_lt hlt)⟩
        exact (ResCa.valid_some rfl).mpr ⟨List.takeD_length .., hle, hfits⟩
    · have hsame : ca.makeRoom size ok = ca := by
        simp only [ResCa.makeRoom, hlist, if_neg hroom]
      rw [hsame]
      exact ⟨hv, rfl, .inr (by omega)⟩

/-- With memory there is a list. -/
theorem makeRoom_ok (ca : ResCa α) (size : ℕ) : (ca.makeRoom size true).resList ≠ none := by
  rw [ResCa.makeRoom]
  split
  · exact nofun
  · rename_i slots hlist
    split
    · exact nofun
    · rw [hlist]
      exact nofun

/-- **Storing** appends to what is staged, where there is a list. Without one nothing changes, and
    this is what the call reports. -/
theorem store_spec (listRes : Option (List (Option α))) (hv : ca.Valid)
    (hroom : ca.resList = none ∨ ca.resSize + size ≤ ca.resCapa) :
    (ca.resList = none ∧ ca.store listRes size = (false, ca)) ∨
    ∃ ca', ca.store listRes size = (true, ca') ∧ SamePassed ca ca' ∧ ca'.Valid ∧
      ca'.staged = ca.staged ++ (List.range size).map (resAt listRes) := by
  cases hlist : ca.resList with
  | none => exact .inl ⟨rfl, by simp only [ResCa.store, hlist]⟩
  | some slots =>
    obtain ⟨hlen, hsize, hcapa⟩ := (ResCa.valid_some hlist).mp hv
    have hfits : ca.resSize + size ≤ ca.resCapa := hroom.resolve_left (by simp [hlist])
    have hmod : (ca.resSize + size) % 2 ^ 32 = ca.resSize + size := Nat.mod_eq_of_lt (by omega)
    refine .inr ⟨{ ca with
      resList := some (slots.take ca.resSize ++ (List.range size).map (resAt listRes) ++
        slots.drop (ca.resSize + size))
      resSize := ca.resSize + size }, ?_, ⟨rfl, rfl, rfl⟩, ?_, ?_⟩
    · simp only [ResCa.store, hlist, if_pos (hlen ▸ hfits), hmod]
    · refine (ResCa.valid_some rfl).mpr ⟨?_, hfits, hcapa⟩
      simp only [List.length_append, List.length_take, List.length_map, List.length_range,
        List.length_drop]
      omega
    · rw [ResCa.staged_some rfl, ResCa.staged_some hlist]
      refine List.take_left' ?_
      simp only [List.length_append, List.length_take, List.length_map, List.length_range]
      omega

/-- **A staging call** that can make room stores its resources or fails, with what was staged in
    front of them. -/
theorem baiduCaAddResources_stages (fuel : ℕ) (listRes : Option (List (Option α)))
    (hst : ¬CaState.srInitialized.value ≤ ca.state.value)
    (hv : ca.Valid) (hg : ca.Grows size ok) :
    ∃ rs ca', baiduCaAddResources fuel ca listRes size ok = some (rs, ca') ∧ SamePassed ca ca' ∧
      ca'.Valid ∧ (ok = true → rs = true) ∧
      ca'.staged = ca.staged ++ if rs then (List.range size).map (resAt listRes) else [] := by
  have hsame := makeRoom_same ca size ok
  obtain ⟨hvalid, hstaged, hroom⟩ := makeRoom_spec hv hg
  simp only [baiduCaAddResources, if_neg hst]
  rcases store_spec listRes hvalid hroom with
    ⟨hnone, hfail⟩ | ⟨ca', hok, hstore, hv', hs⟩
  · refine ⟨false, _, by rw [hfail], hsame, hvalid, fun hmem => ?_, by simp [hstaged]⟩
    subst hmem
    exact absurd hnone (makeRoom_ok ca size)
  · refine ⟨true, ca', by rw [hok], ?_, hv', fun _ => rfl, by simp [hs, hstaged]⟩
    exact ⟨hstore.state.trans hsame.state, hstore.passed.trans hsame.passed,
      hstore.overrun.trans hsame.overrun⟩

/-- What is staged is passed on, and the list is gone. -/
theorem passStaged_spec (ca : ResCa α) (hst : CaState.srInitialized.value ≤ ca.state.value)
    (hv : ca.Valid) (hsize : ca.resSize < 2 ^ 8) (hfuel : 2 ^ 8 ≤ fuel) :
    ∃ ca', passStaged fuel ca = some ca' ∧ ca'.state = ca.state ∧ ca'.overrun = ca.overrun ∧
      ca'.passed = ca.passed ++ ca.staged ∧ ca'.Valid ∧ ca'.staged = [] := by
  simp only [passStaged, baiduCaAddResources_passes hst hsize hfuel, Option.map_some]
  cases hlist : ca.resList with
  | none =>
    have hzero : ca.resSize = 0 := (ResCa.valid_none hlist).mp hv
    refine ⟨_, rfl, rfl, rfl, ?_, (ResCa.valid_none rfl).mpr hzero, ResCa.staged_none rfl⟩
    rw [ResCa.staged_none hlist]
    simp [hzero]
  | some slots =>
    obtain ⟨hlen, hle, -⟩ := (ResCa.valid_some hlist).mp hv
    refine ⟨_, rfl, rfl, rfl, ?_, (ResCa.valid_none rfl).mpr rfl, ResCa.staged_none rfl⟩
    simp only [map_resAt (hlen ▸ hle), ResCa.staged_some hlist]

/-- A capacity that does not fit its field comes out smaller than what it is for. -/
theorem resCapaFor_mod_lt {n : ℕ} (h : 2 ^ 32 ≤ resCapaFor n) : resCapaFor n % 2 ^ 32 < n := by
  have hle : resCapaFor n ≤ n + 5 := by
    simp only [resCapaFor, duerResIncCount]
    omega
  omega

theorem store_overrun {slots : List (Option α)} (hlist : ca.resList = some slots)
    (h : slots.length < ca.resSize + size) : (ca.store listRes size).2.overrun = true := by
  rw [ResCa.store, hlist]
  simp only [if_neg (Nat.not_le.mpr h)]

/-- A staging call that cannot make room writes behind its list, or leaves a size without a list. -/
theorem stage_broken (hg : ¬ca.Grows size ok) :
    ((ca.makeRoom size ok).store listRes size).2.overrun = true ∨
      ¬((ca.makeRoom size ok).store listRes size).2.Valid := by
  cases hlist : ca.resList with
  | none =>
    simp only [ResCa.Grows, hlist, Classical.not_imp, Nat.not_lt] at hg
    obtain ⟨rfl, hlarge⟩ := hg
    have hless := resCapaFor_mod_lt hlarge
    simp only [ResCa.makeRoom, hlist, if_true]
    exact .inl (store_overrun rfl (by simpa using hless))
  | some slots =>
    simp only [ResCa.Grows, hlist, not_or, Nat.not_le] at hg
    obtain ⟨hfull, hg⟩ := hg
    simp only [ResCa.makeRoom, hlist, if_pos hfull]
    cases ok with
    | true =>
      have hless := resCapaFor_mod_lt (Nat.not_lt.mp (by simpa using hg))
      exact .inl (store_overrun rfl (by simpa using hless))
    | false => exact .inr fun hzero => hg (by simpa [ResCa.store, ResCa.Valid] using hzero)

end Calls

/-! ## Runs -/

/-- Only the response initialises the service router. -/
theorem CaState.goesTo_initialized {st st' : CaState} (h : st.goesTo st' = true)
    (hst : CaState.srInitialized.value ≤ st'.value) (hfail : st' ≠ .registerFail) :
    CaState.srInitialized.value ≤ st.value ∧ st ≠ .registerFail := by
  cases st' with
  | started =>
    cases st with
    | srInitialized => exact ⟨Nat.le_refl _, by decide⟩
    | _ => cases h
  | registerFail => exact absurd rfl hfail
  | stoped | unregistered | registerConnected | registered | srConnecting | srDataSending
  | srDataReceiving => exact absurd hst (by decide)
  | srInitialized | rptConnected | rptInitialized | reporting | reported => cases st <;> cases h

section Steps

variable {fuel : ℕ} {s s' : ResSys α}

/-- A call of the application. -/
theorem ResSys.Kept.add (h : s.Kept) {listRes : List α} {ok : Bool}
    (hg : ResFits s (.add listRes ok)) (hfuel : 2 ^ 8 ≤ fuel)
    (hs : resStep fuel s (.add listRes ok) = some s') : s'.Kept := by
  have hall : (List.range listRes.length).map (resAt (some (listRes.map some))) =
      listRes.map some := by
    rw [map_resAt (by simp), List.take_of_length_le (by simp)]
  simp only [resStep, h.returned, Bool.false_eq_true, if_false] at hs
  simp only [ResFits] at hg
  by_cases hst : CaState.srInitialized.value ≤ s.ca.state.value
  -- passed on at once
  · rw [if_pos hst] at hg
    rw [baiduCaAddResources_passes hst hg hfuel, hall] at hs
    obtain rfl := Option.some.inj hs
    refine ⟨rfl, h.inside, h.valid, ?_, h.flushed⟩
    show (s.ca.passed ++ listRes.map some ++ s.ca.staged).Perm ((s.accepted ++ listRes).map some)
    have hperm : (s.ca.passed ++ listRes.map some ++ s.ca.staged).Perm
        (s.ca.passed ++ s.ca.staged ++ listRes.map some) := by
      simpa only [List.append_assoc] using List.perm_append_comm.append_left s.ca.passed
    rw [List.map_append]
    exact hperm.trans (h.once.append_right _)
  -- staged
  · rw [if_neg hst] at hg
    obtain ⟨rs, ca', hcall, hsame, hv, -, hstaged⟩ := baiduCaAddResources_stages fuel
      (some (listRes.map some)) hst h.valid hg
    rw [hcall] at hs
    obtain rfl := Option.some.inj hs
    rw [hall] at hstaged
    refine ⟨rfl, hsame.overrun.trans h.inside, hv, ?_, ?_⟩
    · simp only [hstaged, hsame.passed]
      rw [← List.append_assoc]
      cases rs with
      | false => simpa using h.once
      | true => simpa using h.once.append_right (listRes.map some)
    · exact fun hst' => absurd (hsame.state ▸ hst') hst

/-- **One step** that the condition admits, where the fuel is enough for the counter of the loop,
    which has 2⁸ values. -/
theorem ResSys.Kept.step (h : s.Kept) {a : ResAction α} (hg : ResFits s a) (hfuel : 2 ^ 8 ≤ fuel)
    (hs : resStep fuel s a = some s') : s'.Kept := by
  cases a with
  | add listRes ok => exact h.add hg hfuel hs
  | goes st =>
    simp only [resStep, h.returned, Bool.false_eq_true, if_false] at hs
    split at hs
    · rename_i hgoes
      obtain rfl := Option.some.inj hs
      refine ⟨rfl, h.inside, h.valid, h.once, fun hst hne => ?_⟩
      obtain ⟨hst₀, hne₀⟩ := CaState.goesTo_initialized hgoes hst hne
      exact h.flushed hst₀ hne₀
    · cases hs
  | initialized =>
    simp only [resStep, h.returned, Bool.false_eq_true, if_false] at hs
    split at hs
    · obtain ⟨ca', hpass, hstate, hover, hpassed, hv, hstaged⟩ :=
        passStaged_spec { s.ca with state := .srInitialized } (Nat.le_refl _) h.valid hg hfuel
      rw [hpass] at hs
      obtain rfl := Option.some.inj hs
      refine ⟨rfl, hover.trans h.inside, hv, ?_, fun _ _ => hstaged⟩
      simp only [hpassed, hstaged, List.append_nil]
      exact h.once
    · cases hs

/-- **Any other step** does not return, or spoils the staged list. A list that does not fit what was
    asked for is written behind its end; one that has been lost leaves a size without a list. -/
theorem ResSys.Kept.spoiled (h : s.Kept) {a : ResAction α} (hg : ¬ResFits s a)
    (hs : resStep fuel s a = some s') : ¬s'.Kept := by
  cases a with
  | add listRes ok =>
    simp only [resStep, h.returned, Bool.false_eq_true, if_false] at hs
    simp only [ResFits] at hg
    by_cases hst : CaState.srInitialized.value ≤ s.ca.state.value
    · rw [if_pos hst, Nat.not_lt] at hg
      rw [baiduCaAddResources_hangs hst hg] at hs
      obtain rfl := Option.some.inj hs
      exact fun hk => Bool.noConfusion hk.returned
    · rw [if_neg hst] at hg
      rw [baiduCaAddResources, if_neg hst] at hs
      obtain rfl := Option.some.inj hs
      intro hk
      rcases stage_broken hg with hover | hinvalid
      · exact Bool.noConfusion (hover.symm.trans hk.inside)
      · exact hinvalid hk.valid
  | goes st => exact absurd trivial hg
  | initialized =>
    simp only [resStep, h.returned, Bool.false_eq_true, if_false] at hs
    split at hs
    · have hhangs : baiduCaAddResources fuel { s.ca with state := .srInitialized } s.ca.resList
          s.ca.resSize true = none :=
        baiduCaAddResources_hangs (Nat.le_refl _) (Nat.not_lt.mp hg)
      simp only [passStaged, hhangs, Option.map_none, Option.some.injEq] at hs
      subst hs
      exact fun hk => Bool.noConfusion hk.returned
    · cases hs

end Steps

/-- **Resources are neither lost nor passed on twice, and every call returns**, in every run
    whose calls fit; and this ends with the first call that does not. -/
theorem resources_kept {fuel : ℕ} (hfuel : 2 ^ 8 ≤ fuel) {s : ResSys α}
    (h : Lib.ReachableBy (· = {}) (resStep fuel) ResFits s) :
    s.Kept ∧ ∀ a s', resStep fuel s a = some s' → (s'.Kept ↔ ResFits s a) := by
  have hkept : s.Kept := h.invariant ResSys.Kept
    (fun hi => hi ▸ ⟨rfl, rfl, rfl, .nil, fun _ _ => rfl⟩) fun hinv hg hs => hinv.step hg hfuel hs
  refine ⟨hkept, fun a s' hs => ⟨fun hk => ?_, fun hg => hkept.step hg hfuel hs⟩⟩
  by_contra hg
  exact hkept.spoiled hg hs hk

/-- Two resources staged before the connection is started are passed on by it. -/
theorem resources_kept_registration :
    ResSys.Kept ⟨{ state := .srInitialized, passed := [some 1, some 2] }, [1, 2], false⟩ := by
  refine (resources_kept (Nat.le_refl (2 ^ 8)) (.of_runFrom
    [.add [1, 2] true, .goes .unregistered, .goes .registerConnected, .goes .registered,
      .goes .srConnecting, .goes .srDataSending, .goes .srDataReceiving, .initialized]
    (.start rfl) ?_ rfl)).1
  exact ⟨fun _ => by decide, trivial, trivial, trivial, trivial, trivial, trivial,
    show 2 < 2 ^ 8 by decide, trivial⟩

/-- A list of 256 resources is passed on for ever; and where five resources are staged and six
    more find no memory, the five are lost. -/
theorem resources_hang_and_are_lost :
    (∀ fuel, baiduCaAddResources fuel { state := .started }
        (some (List.replicate 256 (some ()))) 256 true = none) ∧
    ∃ s : ResSys Unit, Lib.runFrom (resStep (2 ^ 8)) {}
        [.add (List.replicate 5 ()) true, .add (List.replicate 6 ()) false] = some s ∧
      s.accepted.length = 5 ∧ s.ca.staged = [] ∧ s.ca.passed = [] ∧ ¬s.ca.Valid := by
  refine ⟨fun fuel => baiduCaAddResources_hangs (by decide) (Nat.le_refl _), _, rfl, rfl, rfl, rfl,
    fun hv => ?_⟩
  exact absurd ((ResCa.valid_none rfl).mp hv) (by decide)

end Engine
end LightDuer
