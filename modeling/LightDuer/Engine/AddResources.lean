import LightDuer.Engine.Resources
import Mathlib.Data.Int.Notation

/-!
# Resource descriptions

`duer_add_resources` copies each description into a block of its own, the path with the static data
behind it, and posts the list to the event thread; `duer_engine_add_resources` gives it to the
connection agent, and the notification that follows frees the blocks. A block is known by its
number. Between the look at the connection state, the posting of the event and its turn other
threads may stop and start the connection.

`duer_coap_resource_add` copies what it registers, so it reads the block once.

## Who frees a block

A block belongs to the call that has allocated it until its event is posted, or until the call fails
and frees what it has copied. Then it belongs to the event, and the notification frees it when the
event has had its turn, whatever the agent has done with the list. That is right where the agent has
passed the resources on, which reads the blocks, or has refused the list. It is wrong where the
agent has staged them for a start-up that is to come: the staged list then points to blocks that
have been freed, and the next start registers its resources from there.

## When this goes well

`AddSys.Sound` says what has to hold: every event returns, each block is freed at most once and
waits in an event until it is, nothing reads a block that has been freed, and nothing staged points
to one. `AddAdmitted` is the condition on the turn of an event: the service router is initialised
and the counter of `baidu_ca_add_resources`, a `duer_u8_t`, reaches the end of the list, or the list
cannot be staged for want of memory.

`addResources_sound` has both directions, over runs. As long as every event meets the condition
`Sound` holds; and the first event that does not meet it ends this.
-/

set_option autoImplicit false

namespace LightDuer
namespace Engine

open Lib

/-! ## The data -/

/-- The union in `duer_res_t`: the handler of a dynamic resource, or static data of which `D` says
    where it is. -/
inductive ResKind (D : Type) where
  | dynamic (fRes : ℕ)
  | static (data : D)
deriving DecidableEq, Repr

/-- `duer_res_t`, as the application gives it -/
structure ResGiven where
  allowed : ℕ
  path : List UInt8
  res : ResKind (List UInt8)
deriving DecidableEq, Repr

/-- `duer_res_t`, as it is copied: the block with the path, in which static data is at an offset and
    of a size. -/
structure ResCopy where
  allowed : ℕ
  path : ℕ
  res : ResKind (ℕ × ℕ)
deriving DecidableEq, Repr

/-- The blocks that have been allocated, in their order, and the numbers of those that have been
    freed. -/
structure Blocks where
  mem : List (List UInt8) := []
  freed : List ℕ := []
deriving DecidableEq, Repr

/-- The octets that `duer_add_resources` copies into the block of a resource. -/
def ResGiven.block (r : ResGiven) : List UInt8 :=
  match r.res with
  | .static data => r.path ++ [0] ++ data
  | .dynamic _ => r.path ++ [0]

/-- The copy of a resource whose block has the number `b`. -/
def ResGiven.copy (r : ResGiven) (b : ℕ) : ResCopy where
  allowed := r.allowed
  path := b
  res :=
    match r.res with
    | .static data => .static (r.path.length + 1, data.length)
    | .dynamic fRes => .dynamic fRes

/-- The loop of `duer_add_resources`, from its `i`th round on: whether every block could be
    allocated, and the copies that have been made. -/
def copyResources (pathOk : ℕ → Bool) :
    List ResGiven → ℕ → List ResCopy → Blocks → Bool × List ResCopy × Blocks
  | [], _, copies, blocks => (true, copies, blocks)
  | r :: rest, i, copies, blocks =>
    if pathOk i then
      copyResources pathOk rest (i + 1) (copies ++ [r.copy blocks.mem.length])
        { blocks with mem := blocks.mem ++ [r.block] }
    else (false, copies, blocks)

/-- The loop that frees the paths of a list. -/
def Blocks.freePaths (blocks : Blocks) (list : List ResCopy) : Blocks :=
  { blocks with freed := blocks.freed ++ list.map (·.path) }

/-! ## The threads -/

/-- The agent, the blocks, and the two ways of a description: in a call of `duer_add_resources` that
    has found the connection started, or posted. -/
structure AddSys where
  ca : ResCa ResCopy := {}
  blocks : Blocks := {}
  adding : List (List ResGiven) := []
  /-- `what` and `object` of the `duer_engine_add_resources` that are posted -/
  events : List (ℤ × List ResCopy) := []
  /-- `duer_coap_resource_add` has read a block that had been freed -/
  wild : Bool := false
  /-- an event is in the loop of `baidu_ca_add_resources` for ever -/
  hung : Bool := false

inductive AddAction where
  /-- `duer_add_resources` looks at the state; `NULL` is a list of no resources -/
  | enter (res : List ResGiven)
  /-- the rest of the `k`th call: whether the list, each block and the event find memory -/
  | post (k : ℕ) (listOk : Bool) (pathOk : ℕ → Bool) (postOk : Bool)
  /-- the event thread takes a `duer_engine_add_resources`; whether there is memory to stage it -/
  | handle (ok : Bool)
  | goes (st : CaState)
  | initialized

/-- `duer_add_resources` behind its look at the state -/
def duerAddResources (s : AddSys) (res : List ResGiven) (listOk : Bool) (pathOk : ℕ → Bool)
    (postOk : Bool) : AddSys :=
  if listOk then
    match copyResources pathOk res 0 [] s.blocks with
    | (copied, list, blocks) =>
      if copied ∧ postOk then
        { s with blocks := blocks, events := s.events ++ [(Int.bmod res.length (2 ^ 32), list)] }
      else { s with blocks := blocks.freePaths list }
  else s

/-- What `duer_coap_resource_add` has read since `ca`. -/
def readSince (ca ca' : ResCa ResCopy) : List ResCopy :=
  (ca'.passed.drop ca.passed.length).filterMap id

/-- The resources read from `ca` to `ca'`, some of them freed or not. -/
def AddSys.reads (s : AddSys) (ca' : ResCa ResCopy) : AddSys :=
  { s with
    ca := ca'
    wild := s.wild || (readSince s.ca ca').any fun r => s.blocks.freed.contains r.path }

/-- `duer_engine_add_resources`, `duer_engine_notify_callback` for `DUER_EVT_ADD_RESOURCES`, and the
    stop that follows a failure -/
def duerEngineAddResources (fuel : ℕ) (s : AddSys) (what : ℤ) (object : List ResCopy) (ok : Bool) :
    AddSys :=
  match baiduCaAddResources fuel s.ca (some (object.map some)) (what % 2 ^ 64).toNat ok with
  | none => { s with hung := true }
  | some (rs, ca) =>
    let s := s.reads ca
    let s := { s with blocks := s.blocks.freePaths (object.take what.toNat) }
    if rs then s else { s with ca := { s.ca with state := .stoped } }

def addStep (fuel : ℕ) (s : AddSys) (a : AddAction) : Option AddSys :=
  match a with
  | .enter res =>
    some (if s.ca.state.isStarted ∧ res ≠ [] then { s with adding := s.adding ++ [res] } else s)
  | .post k listOk pathOk postOk =>
    s.adding[k]?.map fun res =>
      duerAddResources { s with adding := s.adding.eraseIdx k } res listOk pathOk postOk
  | .handle ok =>
    if s.hung then none
    else match s.events with
      | [] => none
      | (what, object) :: events =>
        some (duerEngineAddResources fuel { s with events := events } what object ok)
  | .goes st =>
    if s.ca.state.goesTo st then some { s with ca := { s.ca with state := st } } else none
  | .initialized =>
    if s.hung then none
    else if s.ca.state = .srDataReceiving then
      match passStaged fuel { s.ca with state := .srInitialized } with
      | none => some { s with hung := true }
      | some ca => some (s.reads ca)
    else none

/-! ## What has to hold -/

/-- **Each block is freed once and not read after that**; one that has not been freed waits in an
    event. `staged` is about reads to come: what is staged is read by the next start, so a block to
    which it points must not have been freed either. -/
structure AddSys.Sound (s : AddSys) : Prop where
  returned : s.hung = false
  once : s.blocks.freed.Nodup
  owned : ∀ b < s.blocks.mem.length, b ∈ s.blocks.freed ∨ ∃ e ∈ s.events, ∃ r ∈ e.2, r.path = b
  unread : s.wild = false
  staged : ∀ r, some r ∈ s.ca.staged → r.path ∉ s.blocks.freed

/-- An event has its turn while the service router is initialised, with a list that the counter can
    reach the end of, or there is no memory to stage the list, and `what` is its length. It is the
    one step that is guarded: looking at the state, posting and whatever other threads do to the
    connection may happen in any order. -/
def AddAdmitted (s : AddSys) : AddAction → Prop
  | .handle ok => ∀ e ∈ s.events.head?,
      if CaState.srInitialized.value ≤ s.ca.state.value then e.2.length < 2 ^ 8
      else ok = false ∧ e.2.length < 2 ^ 31
  | _ => True

/-! ## The invariant -/

/-- The blocks that have been freed, and those that the posted lists own. -/
def AddSys.owners (s : AddSys) : List ℕ :=
  s.blocks.freed ++ s.events.flatMap fun e => e.2.map (·.path)

/-- Every block has one owner, and nothing is staged. `owners` are the blocks that have been freed
    and those of the posted events; that these are all the blocks there are, each of them once, is
    one statement about a permutation. -/
structure AddSys.Kept (s : AddSys) : Prop where
  returned : s.hung = false
  unread : s.wild = false
  owners : s.owners.Perm (List.range s.blocks.mem.length)
  asked : ∀ res ∈ s.adding, res ≠ []
  posted : ∀ e ∈ s.events, e.1 = Int.bmod e.2.length (2 ^ 32) ∧ e.2 ≠ []
  resList : s.ca.resList = none
  resSize : s.ca.resSize = 0

theorem AddSys.Kept.sound {s : AddSys} (h : s.Kept) : s.Sound := by
  have hnodup : s.owners.Nodup := h.owners.nodup_iff.mpr List.nodup_range
  refine ⟨h.returned, hnodup.sublist (List.sublist_append_left ..), fun b hb => ?_, h.unread, ?_⟩
  · have hmem : b ∈ s.owners := h.owners.mem_iff.mpr (List.mem_range.mpr hb)
    rcases List.mem_append.mp hmem with hfreed | hposted
    · exact .inl hfreed
    · obtain ⟨e, he, hpath⟩ := List.mem_flatMap.mp hposted
      obtain ⟨r, hr, rfl⟩ := List.mem_map.mp hpath
      exact .inr ⟨e, he, r, hr, rfl⟩
  · rw [ResCa.staged_none h.resList]
    exact fun r hr => absurd hr (by simp)

/-! ## One step -/

/-- The copies of a list have new blocks, one each. -/
theorem copyResources_spec (pathOk : ℕ → Bool) (res : List ResGiven) (i : ℕ)
    (copies : List ResCopy) (blocks : Blocks) :
    ∃ copied new mem, copyResources pathOk res i copies blocks =
        (copied, copies ++ new, { blocks with mem := mem }) ∧
      mem.length = blocks.mem.length + new.length ∧
      new.map (·.path) = List.range' blocks.mem.length new.length ∧
      (copied = true → new.length = res.length) := by
  induction res generalizing i copies blocks with
  | nil => exact ⟨true, [], blocks.mem, by simp [copyResources]⟩
  | cons r rest ih =>
    rw [copyResources]
    by_cases hok : pathOk i = true
    · obtain ⟨copied, new, mem, hcopy, hlen, hpaths, hall⟩ := ih (i + 1)
        (copies ++ [r.copy blocks.mem.length]) { blocks with mem := blocks.mem ++ [r.block] }
      rw [List.length_append, List.length_singleton] at hlen hpaths
      refine ⟨copied, r.copy blocks.mem.length :: new, mem, ?_, ?_, ?_, fun hcopied => ?_⟩
      · rw [if_pos hok, hcopy, List.append_assoc]
        rfl
      · rw [List.length_cons]
        omega
      · rw [List.map_cons, hpaths, List.length_cons, List.range'_succ]
        rfl
      · rw [List.length_cons, hall hcopied, List.length_cons]
    · exact ⟨false, [], blocks.mem, by simp [hok]⟩

section Steps

variable {fuel : ℕ} {s s' : AddSys}

/-- A call behind its look at the state: the list is posted, or what has been copied is freed. -/
theorem AddSys.Kept.duerAddResources (h : s.Kept) {res : List ResGiven} {listOk : Bool}
    {pathOk : ℕ → Bool} {postOk : Bool} (hres : res ≠ []) :
    (duerAddResources s res listOk pathOk postOk).Kept := by
  rw [Engine.duerAddResources]
  cases listOk with
  | false => exact h
  | true =>
    obtain ⟨copied, new, mem, hcopy, hlen, hpaths, hall⟩ :=
      copyResources_spec pathOk res 0 [] s.blocks
    rw [List.nil_append] at hcopy
    have hrange : (s.owners ++ new.map (·.path)).Perm (List.range mem.length) := by
      rw [hlen, List.range_eq_range', ← List.range'_append_1, ← List.range_eq_range', hpaths,
        Nat.zero_add]
      exact h.owners.append_right _
    simp only [if_true, hcopy]
    by_cases hpost : copied = true ∧ postOk = true
    · have hnew := hall hpost.1
      rw [if_pos hpost]
      refine ⟨h.returned, h.unread, ?_, h.asked, ?_, h.resList, h.resSize⟩
      · simpa [AddSys.owners] using hrange
      · intro e he
        rcases List.mem_append.mp he with he | he
        · exact h.posted e he
        · obtain rfl := List.mem_singleton.mp he
          refine ⟨by rw [hnew], fun hnil => hres (List.length_eq_zero_iff.mp ?_)⟩
          simp only at hnil
          rw [← hnew, hnil, List.length_nil]
    · rw [if_neg hpost]
      refine ⟨h.returned, h.unread, ?_, h.asked, h.posted, h.resList, h.resSize⟩
      refine List.Perm.trans ?_ hrange
      simp only [AddSys.owners, Blocks.freePaths, List.append_assoc]
      exact List.perm_append_comm.append_left _

/-- With no memory the list is not staged. -/
theorem baiduCaAddResources_noMemory (fuel : ℕ) {ca : ResCa ResCopy}
    (hst : ¬CaState.srInitialized.value ≤ ca.state.value) (hlist : ca.resList = none)
    (listRes : Option (List (Option ResCopy))) (size : ℕ) :
    ∃ capa, baiduCaAddResources fuel ca listRes size false =
      some (false, { ca with resList := none, resSize := 0, resCapa := capa }) := by
  refine ⟨resCapaFor size % 2 ^ 32, ?_⟩
  simp only [baiduCaAddResources, if_neg hst, ResCa.makeRoom, hlist, Bool.false_eq_true, if_false,
    ResCa.store]

/-- The blocks of the next event have not been freed. -/
theorem AddSys.Kept.unfreed (h : s.Kept) {e : ℤ × List ResCopy}
    {events : List (ℤ × List ResCopy)} (hev : s.events = e :: events) :
    ∀ r ∈ e.2, r.path ∉ s.blocks.freed := by
  intro r hr hfreed
  have hnodup : s.owners.Nodup := h.owners.nodup_iff.mpr List.nodup_range
  rw [AddSys.owners, hev, List.flatMap_cons] at hnodup
  exact (List.nodup_append.mp hnodup).2.2 _ hfreed _
    (List.mem_append_left _ (List.mem_map_of_mem hr)) rfl

/-- The event has its turn: the resources are passed on, or refused; then the blocks are freed. -/
theorem AddSys.Kept.handle (h : s.Kept) {ok : Bool} (hg : AddAdmitted s (.handle ok))
    (hfuel : 2 ^ 8 ≤ fuel) (hs : addStep fuel s (.handle ok) = some s') : s'.Kept := by
  cases hev : s.events with
  | nil => simp [addStep, h.returned, hev] at hs
  | cons e events =>
    obtain ⟨what, object⟩ := e
    have hunfreed := h.unfreed hev
    have hadmitted := hg (what, object) (by rw [hev]; rfl)
    have hlt : object.length < 2 ^ 31 := by
      split at hadmitted
      · exact Nat.lt_trans hadmitted (by decide)
      · exact hadmitted.2
    have hwhat : what = Int.bmod object.length (2 ^ 32) :=
      (h.posted (what, object) (hev ▸ List.mem_cons_self)).1
    obtain rfl : what = object.length := by
      rw [hwhat, Int.bmod_eq_of_le] <;> omega
    simp only [addStep, h.returned, Bool.false_eq_true, if_false, hev, Option.some.injEq] at hs
    have hsize : ((object.length : ℤ) % 2 ^ 64).toNat = object.length := by omega
    have howners : (s.blocks.freed ++ object.map (·.path) ++
        events.flatMap fun e => e.2.map (·.path)).Perm (List.range s.blocks.mem.length) := by
      rw [List.append_assoc]
      simpa only [AddSys.owners, hev, List.flatMap_cons] using h.owners
    have hposted : ∀ e ∈ events, e.1 = Int.bmod e.2.length (2 ^ 32) ∧ e.2 ≠ [] := fun e he =>
      h.posted e (hev ▸ List.mem_cons_of_mem _ he)
    simp only [duerEngineAddResources, hsize, Int.toNat_natCast, List.take_length] at hs
    by_cases hst : CaState.srInitialized.value ≤ s.ca.state.value
    · rw [if_pos hst] at hadmitted
      rw [baiduCaAddResources_passes hst hadmitted hfuel, map_resAt (by simp),
        List.take_of_length_le (by simp)] at hs
      obtain rfl := hs
      refine ⟨rfl, ?_, howners, h.asked, hposted, h.resList, h.resSize⟩
      have hread : readSince s.ca { s.ca with passed := s.ca.passed ++ object.map some } =
          object := by
        simp [readSince]
      simpa [AddSys.reads, h.unread, hread] using hunfreed
    · rw [if_neg hst] at hadmitted
      obtain ⟨rfl, -⟩ := hadmitted
      obtain ⟨capa, hfail⟩ := baiduCaAddResources_noMemory fuel hst h.resList
        (some (object.map some)) object.length
      rw [hfail] at hs
      obtain rfl := hs
      refine ⟨rfl, ?_, howners, h.asked, hposted, rfl, rfl⟩
      simp [AddSys.reads, readSince, h.unread]

/-- **One step** that the condition admits. Only an event that has its turn touches blocks that were
    there before it; the other steps add blocks or move the connection. -/
theorem AddSys.Kept.step (h : s.Kept) {a : AddAction} (hg : AddAdmitted s a) (hfuel : 2 ^ 8 ≤ fuel)
    (hs : addStep fuel s a = some s') : s'.Kept := by
  cases a with
  | enter res =>
    obtain rfl := Option.some.inj hs
    split
    · rename_i hasked
      refine ⟨h.returned, h.unread, h.owners, fun r hr => ?_, h.posted, h.resList, h.resSize⟩
      rcases List.mem_append.mp hr with hr | hr
      · exact h.asked r hr
      · exact List.mem_singleton.mp hr ▸ hasked.2
    · exact h
  | post k listOk pathOk postOk =>
    obtain ⟨res, hres, rfl⟩ := Option.map_eq_some_iff.mp hs
    have herase : { s with adding := s.adding.eraseIdx k }.Kept :=
      ⟨h.returned, h.unread, h.owners, fun r hr => h.asked r (List.mem_of_mem_eraseIdx hr),
        h.posted, h.resList, h.resSize⟩
    exact herase.duerAddResources (h.asked res (List.mem_of_getElem? hres))
  | handle ok => exact h.handle hg hfuel hs
  | goes st =>
    simp only [addStep] at hs
    split at hs
    · obtain rfl := Option.some.inj hs
      exact ⟨h.returned, h.unread, h.owners, h.asked, h.posted, h.resList, h.resSize⟩
    · cases hs
  | initialized =>
    simp only [addStep, h.returned, Bool.false_eq_true, if_false] at hs
    split at hs
    -- nothing is staged
    · have hpass : passStaged fuel { s.ca with state := .srInitialized } =
          some { s.ca with state := .srInitialized } := by
        simp only [passStaged, h.resSize]
        rw [baiduCaAddResources_passes (Nat.le_refl _) (by decide) hfuel]
        simp [h.resList]
      rw [hpass] at hs
      obtain rfl := Option.some.inj hs
      refine ⟨h.returned, ?_, h.owners, h.asked, h.posted, h.resList, h.resSize⟩
      simp [AddSys.reads, readSince, h.unread]
    · cases hs

/-- An event that frees only the front of its list leaves a block to nobody. -/
theorem AddSys.Kept.unowned (h : s.Kept) {e : ℤ × List ResCopy} {events : List (ℤ × List ResCopy)}
    (hev : s.events = e :: events) {k : ℕ} (hk : k < e.2.length)
    (hmem : s'.blocks.mem = s.blocks.mem) (hevents : s'.events = events)
    (hfreed : s'.blocks.freed = s.blocks.freed ++ (e.2.take k).map (·.path)) : ¬s'.Sound := by
  intro hsound
  have hsplit : s.owners = s.blocks.freed ++ (e.2.take k).map (·.path) ++
      ((e.2.drop k).map (·.path) ++ events.flatMap fun e => e.2.map (·.path)) := by
    rw [AddSys.owners, hev, List.flatMap_cons]
    conv_lhs => rw [← List.take_append_drop k e.2]
    simp only [List.map_append, List.append_assoc]
  have hnodup : s.owners.Nodup := h.owners.nodup_iff.mpr List.nodup_range
  -- the first block that is not freed
  have hdrop : (e.2.drop k).map (·.path) =
      e.2[k].path :: (e.2.drop (k + 1)).map (·.path) := by
    rw [List.drop_eq_getElem_cons hk, List.map_cons]
  have hb : e.2[k].path < s'.blocks.mem.length := by
    rw [hmem]
    refine List.mem_range.mp (h.owners.mem_iff.mp ?_)
    rw [hsplit, hdrop]
    simp
  rw [hsplit, hdrop] at hnodup
  obtain ⟨-, htail, hdisjoint⟩ := List.nodup_append.mp hnodup
  rcases hsound.owned _ hb with hmemFreed | ⟨e', he', r, hr, hpath⟩
  · rw [hfreed] at hmemFreed
    exact hdisjoint _ hmemFreed _ (by simp) rfl
  · rw [hevents] at he'
    rw [List.cons_append, List.nodup_cons] at htail
    refine htail.1 (List.mem_append_right _ (List.mem_flatMap.mpr ⟨e', he', ?_⟩))
    exact hpath ▸ List.mem_map_of_mem hr

/-- An event that returns has freed the blocks that `what` counts. -/
theorem duerEngineAddResources_frees (what : ℤ) (object : List ResCopy) (ok : Bool)
    (hreturned : (duerEngineAddResources fuel s what object ok).hung = false) :
    (duerEngineAddResources fuel s what object ok).blocks.mem = s.blocks.mem ∧
      (duerEngineAddResources fuel s what object ok).events = s.events ∧
      (duerEngineAddResources fuel s what object ok).blocks.freed =
        s.blocks.freed ++ (object.take what.toNat).map (·.path) := by
  unfold duerEngineAddResources at hreturned ⊢
  cases hcall : baiduCaAddResources fuel s.ca (some (object.map some)) (what % 2 ^ 64).toNat ok with
  | none =>
    rw [hcall] at hreturned
    cases hreturned
  | some result =>
    obtain ⟨rs, ca⟩ := result
    cases rs <;> exact ⟨rfl, rfl, rfl⟩

/-- **Any other turn** of an event does not return, frees too little, or stages what it frees. So
    the condition is not only enough but the only way through. -/
theorem AddSys.Kept.spoiled (h : s.Kept) {a : AddAction} (hg : ¬AddAdmitted s a)
    (hs : addStep fuel s a = some s') : ¬s'.Sound := by
  cases a with
  | enter | post | goes | initialized => exact absurd trivial hg
  | handle ok =>
    simp only [AddAdmitted, not_forall] at hg
    obtain ⟨⟨what, object⟩, he, hg⟩ := hg
    obtain ⟨events, hev⟩ : ∃ events, s.events = (what, object) :: events :=
      ⟨_, List.eq_cons_of_mem_head? he⟩
    obtain ⟨hwhat, hne⟩ : what = Int.bmod object.length (2 ^ 32) ∧ object ≠ [] :=
      h.posted (what, object) (hev ▸ List.mem_cons_self)
    simp only [addStep, h.returned, Bool.false_eq_true, if_false, hev, Option.some.injEq] at hs
    intro hsound
    have hreturned := hsound.returned
    rw [← hs] at hreturned
    obtain ⟨hmem, hevents, hfreed⟩ := duerEngineAddResources_frees what object ok hreturned
    rw [hs] at hmem hevents hfreed
    by_cases hlt : object.length < 2 ^ 31
    · obtain rfl : what = object.length := by
        rw [hwhat, Int.bmod_eq_of_le] <;> omega
      have hsize : ((object.length : ℤ) % 2 ^ 64).toNat = object.length := by omega
      by_cases hst : CaState.srInitialized.value ≤ s.ca.state.value
      · simp only [if_pos hst, Nat.not_lt] at hg
        simp only [duerEngineAddResources, hsize, baiduCaAddResources_hangs hst hg] at hreturned
        cases hreturned
      · simp only [if_neg hst, hlt, and_true, Bool.not_eq_false] at hg
        subst hg
        have hgrows : s.ca.Grows object.length true := by
          simp only [ResCa.Grows, h.resList, resCapaFor, duerResIncCount]
          omega
        obtain ⟨rs, ca', hcall, -, -, hrs, hstaged⟩ := baiduCaAddResources_stages fuel
          (some (object.map some)) hst ((ResCa.valid_none h.resList).mpr h.resSize)
          hgrows
        obtain rfl := hrs rfl
        simp only [duerEngineAddResources, hsize, hcall, if_true] at hs
        rw [ResCa.staged_none h.resList, if_pos rfl, map_resAt (by simp), List.nil_append,
          List.take_of_length_le (by simp)] at hstaged
        obtain ⟨r, rest, rfl⟩ := List.exists_cons_of_ne_nil hne
        refine hsound.staged r ?_ ?_
        · rw [← hs]
          simp [AddSys.reads, hstaged]
        · rw [hfreed]
          simp
    · have hless : what.toNat < object.length := by
        have := Int.bmod_lt (x := object.length) (m := 2 ^ 32) (by decide)
        omega
      exact h.unowned hev hless hmem hevents hfreed hsound

end Steps

/-- **Descriptions are freed once and not used after that**, in every run whose events have their
    turn while the service router is initialised; and this ends with the first that has not. The
    fuel is that of the loop over a list, whose counter has 2⁸ values; more of it changes
    nothing. -/
theorem addResources_sound {fuel : ℕ} (hfuel : 2 ^ 8 ≤ fuel) {s : AddSys}
    (h : ReachableBy (· = {}) (addStep fuel) AddAdmitted s) :
    s.Sound ∧ ∀ a s', addStep fuel s a = some s' → (s'.Sound ↔ AddAdmitted s a) := by
  have hkept : s.Kept := by
    refine h.invariant AddSys.Kept ?_ fun hinv hg hs => hinv.step hg hfuel hs
    rintro _ rfl
    exact ⟨rfl, rfl, .nil, nofun, nofun, rfl, rfl⟩
  refine ⟨hkept.sound, fun a s' hs => ⟨fun hsound => ?_, fun hg => (hkept.step hg hfuel hs).sound⟩⟩
  by_contra hg
  exact hkept.spoiled hg hs hsound

/-- The way from one start of a connection to its `DUER_ST_STARTED`. -/
def connecting : List AddAction :=
  [.goes .unregistered, .goes .registerConnected, .goes .registered, .goes .srConnecting,
    .goes .srDataSending, .goes .srDataReceiving, .initialized, .goes .started]

/-- A resource added to a connection that stays up. -/
theorem addResources_sound_started :
    AddSys.Sound { ca := { state := .started, passed := [some ⟨1, 0, .dynamic 7⟩] }
                   blocks := { mem := [[65, 0]], freed := [0] } } := by
  have hposted : ReachableBy (· = {}) (addStep (2 ^ 8)) AddAdmitted
      { ca := { state := .started }
        blocks := { mem := [[65, 0]] }
        events := [(1, [⟨1, 0, .dynamic 7⟩])] } := by
    refine .of_runFrom
      (connecting ++ [.enter [⟨1, [65], .dynamic 7⟩], .post 0 true (fun _ => true) true])
      (.start rfl) ?_ rfl
    exact ⟨trivial, trivial, trivial, trivial, trivial, trivial, trivial, trivial, trivial, trivial,
      trivial⟩
  refine (addResources_sound (Nat.le_refl (2 ^ 8))
    (hposted.next (a := .handle true) (fun e he => ?_) rfl)).1
  obtain rfl : (1, [⟨1, 0, .dynamic 7⟩]) = e := Option.some.inj he
  exact (if_pos (by decide)).mpr (by decide)

/-- A stop gets in between the posting of a resource and its turn: the next start registers it
    from a block that has been freed. -/
theorem addResources_read_after_stop :
    ∃ s : AddSys, runFrom (addStep (2 ^ 8)) {} (connecting ++
        [.enter [⟨1, [65], .dynamic 7⟩], .post 0 true (fun _ => true) true, .goes .stoped,
          .handle true] ++ connecting) = some s ∧
      s.blocks.freed = [0] ∧ s.ca.passed = [some ⟨1, 0, .dynamic 7⟩] ∧ ¬s.Sound := by
  refine ⟨_, rfl, rfl, rfl, fun h => ?_⟩
  have := h.unread
  revert this
  decide

end Engine
end LightDuer
