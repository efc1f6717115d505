import LightDuer.Lib.Growth
import LightDuer.Lib.Transition

/-!
# The directive table

`duer_add_dcs_directive` grows the table of `lightduer_dcs_router.c`, `duer_dcs_router` looks a
directive up in it. The list, the number of its directives and the number of its slots are three
things: the list is `NULL` or a block of slots, each written or not, and an access outside the block
is an outcome of the model. What JSON text a payload is, is left to a parameter; what a handler does
too.

## Adding

A call asks for room for all its directives at once and then copies them, with a name of its own for
each. The copy of a name can fail, and then those in front of it are registered and the others are
not (`copied`). The room can fail too. `DUER_REALLOC` gives `NULL` then, and the list is replaced by
it although the number of its directives is not: all of them are lost, and the table counts
directives it does not have.

## Looking up

The search goes through the whole table and keeps the last directive whose name matches, so a name
that is registered again has the handler of its last registration. It reads as many slots as the
table counts. `duerDcsRouter` has each end of a request: a payload that is missing, that is no JSON
text, or that has no directive or no name, a name that nobody has registered, and the handler's
status; whatever is no success is reported as an exception.

## Over runs of additions

`Sys.Holds` says that the first slots of the table are those of what has been registered, in order;
from it follow that the table is valid and that it dispatches. `directives_kept_iff` says of every
list of calls that the table has survived it exactly when no growth of a table with directives in it
has failed.
-/

set_option autoImplicit false

namespace LightDuer
namespace Dcs
namespace Router

/-- A `baidu_json` value, as far as the router reads it: an array, a number or a literal has
    neither a child with a name nor a `valuestring`. -/
inductive Json
  | string (valuestring : String)
  | object (items : List (String × Json))
  | other

/-- `baidu_json_strcasecmp` is 0. -/
def Json.sameName (s t : String) : Bool := s.toList.map Char.toLower == t.toList.map Char.toLower

/-- `baidu_json_GetObjectItem` -/
def Json.getObjectItem (item : Json) (string : String) : Option Json :=
  match item with
  | .object items => (items.find? fun c => Json.sameName c.1 string).map (·.2)
  | _ => none

/-- The field `valuestring`, `NULL` but for strings. -/
def Json.valuestring : Json → Option String
  | .string s => some s
  | _ => none

/-- `duer_status_t`, as far as the router tells it apart. -/
inductive Status
  | ok
  | failed
  | badRequest
  | notFound
  | other (rs : Int)
  deriving DecidableEq, Repr

variable {Handler : Type}

/-- `duer_directive_list`, as the caller gives it. Both pointers may be `NULL`. -/
structure Directive (Handler : Type) where
  directiveName : Option String
  cb : Option Handler

/-- A slot of the table; `none` in a field that has not been written. -/
structure Slot (Handler : Type) where
  directiveName : Option String := none
  cb : Option (Option Handler) := none

/-- A directive that is registered. -/
structure Entry (Handler : Type) where
  name : String
  cb : Option Handler

/-- The slot that holds a registered directive. -/
def Entry.slot (e : Entry Handler) : Slot Handler := ⟨some e.name, some e.cb⟩

/-- `s_dcs_directive_list` and `s_directive_count`. `overrun`: a slot has been written behind
    the end of the list. -/
structure Table (Handler : Type) where
  list : Option (List (Slot Handler)) := none
  count : ℕ := 0
  overrun : Bool := false

/-- `DUER_MALLOC` of `n` slots. -/
def mallocSlots (ok : Bool) (n : ℕ) : Option (List (Slot Handler)) :=
  if ok then some (List.replicate n {}) else none

/-- `DUER_REALLOC` to `n` slots. -/
def reallocSlots (ok : Bool) (slots : List (Slot Handler)) (n : ℕ) :
    Option (List (Slot Handler)) :=
  if ok then some (slots.takeD n {}) else none

/-- `duer_strdup_internal` -/
def duerStrdupInternal (ok : Bool) (str : Option String) : Option String :=
  str.bind fun s => if ok then some s else none

/-- The loop of `duer_add_dcs_directive`, from its `i`th round on: the slots and the last `i`, or
    `none` for a write behind the end of the list. `names` says which copies of a name succeed.

    The `i` of the source is an `int`, compared with `count`, which is a `size_t`. A list of
    directives is an array of pairs of pointers: where a `size_t` has 32 bits, it has fewer than
    `2 ^ 29` of them, and `i` does not come near the end of an `int`. So `i` is a `Nat` here. -/
def copyDirectives (names : ℕ → Bool) (count : ℕ) :
    List (Directive Handler) → ℕ → List (Slot Handler) → Option (List (Slot Handler) × ℕ)
  | [], i, slots => some (slots, i)
  | d :: ds, i, slots =>
    match slots[count + i]? with
    | none => none
    | some slot =>
      match duerStrdupInternal (names i) d.directiveName with
      | some name =>
        copyDirectives names count ds (i + 1) (slots.set (count + i) ⟨some name, some d.cb⟩)
      | none => some (slots.set (count + i) { slot with cb := some d.cb }, i)

/-- A call of `duer_add_dcs_directive`: its list, and whether each allocation in it succeeds. -/
structure Add (Handler : Type) where
  directive : Option (List (Directive Handler))
  listOk : Bool := true
  names : ℕ → Bool := fun _ => true

/-- The list that `duer_add_dcs_directive` gets for `count` more directives. -/
def Table.grow (t : Table Handler) (ok : Bool) (count : ℕ) : Option (List (Slot Handler)) :=
  match t.list with
  | none => mallocSlots ok count
  | some slots => reallocSlots ok slots (count + t.count)

/-- `duer_add_dcs_directive` -/
def duerAddDcsDirective (t : Table Handler) (a : Add Handler) : Table Handler :=
  match a.directive with
  | none | some [] => t
  | some directive =>
    match t.grow a.listOk directive.length with
    | none => { t with list := none }
    | some slots =>
      match copyDirectives a.names t.count directive 0 slots with
      | none => { t with list := some slots, overrun := true }
      | some (slots, i) => { t with list := some slots, count := t.count + i }

/-- The search of `duer_dcs_router`, `n` rounds before its end: the last handler whose name
    matches, or `none` when it reads what is not there. -/
def searchLoop (list : Option (List (Slot Handler))) (name : Option String) :
    ℕ → ℕ → Option Handler → Option (Option Handler)
  | 0, _, handler => some handler
  | n + 1, i, handler =>
    match list.bind (·[i]?), name with
    | some ⟨some directiveName, cb⟩, some valuestring =>
      if directiveName = valuestring then cb.bind fun cb => searchLoop list name n (i + 1) cb
      else searchLoop list name n (i + 1) handler
    | _, _ => none

/-- The handler that `duer_dcs_router` finds for a name. -/
def Table.search (t : Table Handler) (name : Option String) : Option (Option Handler) :=
  searchLoop t.list name t.count 0 none

/-- `duer_msg_t`, as far as the router reads it. -/
structure Msg where
  payload : Option (List UInt8)

/-- What the router does: it ends with a status, having run a handler on a directive or not, and
    having reported an exception or not; or it reads what is not there. -/
inductive Routed (Handler : Type)
  | fault
  | ended (rs : Status) (ran : Option (Handler × Json))
      (exception : Option (Option (List UInt8) × String × String))

/-- The exception that `duer_dcs_router` reports before it returns `rs`. -/
def reportException (rs : Status) (payload : Option (List UInt8)) :
    Option (Option (List UInt8) × String × String) :=
  match rs with
  | .ok => none
  | .notFound => some (payload, "UNSUPPORTED_OPERATION", "Unknow directive")
  | .badRequest => some (payload, "UNEXPECTED_INFORMATION_RECEIVED", "Bad directive")
  | _ => some (payload, "INTERNAL_ERROR", "Internal error")

section Router

variable (parse : List UInt8 → Option Json) (run : Handler → Json → Status)

/-- `duer_dcs_router` down to the lock: the payload it has copied, and the directive with its
    name, or the status it ends with. -/
def parseRequest (payloadOk : Bool) (msg : Option Msg) :
    Option (List UInt8) × Except Status (Json × Json) :=
  match msg with
  | none => (none, .error .badRequest)
  | some msg =>
    match msg.payload with
    | none | some [] => (none, .error .badRequest)
    | some payload =>
      if payloadOk then
        (some payload,
          match parse payload with
          | none => .error .failed
          | some value =>
            match value.getObjectItem "directive" with
            | none => .error .badRequest
            | some directive =>
              match (directive.getObjectItem "header").bind (·.getObjectItem "name") with
              | none => .error .badRequest
              | some name => .ok (directive, name))
      else (none, .error .failed)

/-- `duer_dcs_router` -/
def duerDcsRouter (t : Table Handler) (payloadOk : Bool) (msg : Option Msg) : Routed Handler :=
  let request := parseRequest parse payloadOk msg
  match request.2 with
  | .error rs => .ended rs none (reportException rs request.1)
  | .ok (directive, name) =>
    match t.search name.valuestring with
    | none => .fault
    | some none => .ended .notFound none (reportException .notFound request.1)
    | some (some handler) =>
      let rs := run handler directive
      .ended rs (some (handler, directive)) (reportException rs request.1)

end Router

/-! ## What is registered -/

/-- The directives that a call registers when its list is there: those in front of the first
    name that cannot be copied. `i` counts the copies. -/
def copied (names : ℕ → Bool) : ℕ → List (Directive Handler) → List (Entry Handler)
  | _, [] => []
  | i, d :: ds =>
    match duerStrdupInternal (names i) d.directiveName with
    | some name => ⟨name, d.cb⟩ :: copied names (i + 1) ds
    | none => []

/-- The directives that a call registers. -/
def Add.registers (a : Add Handler) : List (Entry Handler) :=
  if a.listOk then copied a.names 0 (a.directive.getD []) else []

/-- The handler of the last registration of a name. -/
def lastHandler (entries : List (Entry Handler)) (name : String) : Option Handler :=
  (entries.reverse.find? fun e => e.name = name).bind (·.cb)

/-- **The table has room for its directives**, and each of their slots is written. -/
def Table.Valid (t : Table Handler) : Prop :=
  t.overrun = false ∧ ∀ i < t.count, ∃ slots e, t.list = some slots ∧
    slots[i]? = some (Entry.slot e)

/-- The table, and the directives that have been registered in it, the first one first. -/
structure Sys (Handler : Type) where
  table : Table Handler := {}
  registered : List (Entry Handler) := []

def step (s : Sys Handler) (a : Add Handler) : Option (Sys Handler) :=
  some ⟨duerAddDcsDirective s.table a, s.registered ++ a.registers⟩

/-- The table holds exactly what has been registered. -/
def Sys.Holds (s : Sys Handler) : Prop :=
  s.table.overrun = false ∧ s.table.count = s.registered.length ∧
    (s.table.count = 0 ∨ ∃ slots, s.table.list = some slots ∧
      slots.take s.table.count = s.registered.map Entry.slot)

/-- The first slot has not been written, or a slot behind the end of the list has. -/
def Sys.Lost (s : Sys Handler) : Prop :=
  s.table.overrun = true ∨ 0 < s.table.count ∧
    ∀ slots slot, s.table.list = some slots → slots[0]? = some slot → slot.directiveName = none

/-- The growth of a table that holds directives does not fail. -/
def Grows (s : Sys Handler) (a : Add Handler) : Prop :=
  a.directive.getD [] = [] ∨ s.table.count = 0 ∨ s.table.list = none ∨ a.listOk = true

/-! ## The copying loop -/

section Copy

variable {names : ℕ → Bool} {count : ℕ}

/-- With room for all of its directives the loop writes those that it can name, one slot after
    another, and counts them. -/
theorem copyDirectives_spec (names : ℕ → Bool) {ds : List (Directive Handler)} (i : ℕ)
    {slots : List (Slot Handler)}
    (hroom : count + i + ds.length ≤ slots.length) :
    ∃ slots', copyDirectives names count ds i slots =
        some (slots', i + (copied names i ds).length) ∧
      slots'.take (count + i + (copied names i ds).length) =
        slots.take (count + i) ++ (copied names i ds).map Entry.slot := by
  induction ds generalizing i slots with
  | nil => exact ⟨slots, by simp [copyDirectives, copied], by simp [copied]⟩
  | cons d ds ih =>
    rw [List.length_cons] at hroom
    have hlt : count + i < slots.length := by omega
    simp only [copyDirectives, List.getElem?_eq_getElem hlt, copied]
    cases duerStrdupInternal (names i) d.directiveName with
    | none => exact ⟨_, rfl, by simp [List.take_set_of_le]⟩
    | some name =>
      have hroom' : count + (i + 1) + ds.length ≤
          (slots.set (count + i) ⟨some name, some d.cb⟩).length := by
        rw [List.length_set]
        omega
      obtain ⟨slots', hcopy, htake⟩ := ih (i + 1) hroom'
      refine ⟨slots', ?_, ?_⟩
      · simp only [hcopy, List.length_cons, Option.some.injEq, Prod.mk.injEq, true_and]
        omega
      · dsimp only
        have hidx : count + i + ((copied names (i + 1) ds).length + 1) =
            count + (i + 1) + (copied names (i + 1) ds).length := by omega
        have hfront : (slots.set (count + i) ⟨some name, some d.cb⟩).take (count + (i + 1)) =
            slots.take (count + i) ++ [⟨some name, some d.cb⟩] := by
          rw [← Nat.add_assoc, List.take_succ_eq_append_getElem (by rwa [List.length_set]),
            List.getElem_set_self, List.take_set_of_le (Nat.le_refl _)]
        rw [List.length_cons, hidx, htake, hfront, List.map_cons, List.append_assoc]
        rfl

/-- The loop leaves the slots in front of its own alone. -/
theorem copyDirectives_front {ds : List (Directive Handler)} {i k : ℕ}
    {slots slots' : List (Slot Handler)}
    (h : copyDirectives names count ds i slots = some (slots', k)) {j : ℕ} (hj : j < count) :
    slots'[j]? = slots[j]? := by
  induction ds generalizing i slots with
  | nil =>
    obtain ⟨rfl, rfl⟩ : slots = slots' ∧ i = k := by simpa [copyDirectives] using h
    rfl
  | cons d ds ih =>
    have hne : count + i ≠ j := by omega
    rw [copyDirectives] at h
    split at h
    · cases h
    · split at h
      · rw [ih h, List.getElem?_set_ne hne]
      · obtain ⟨rfl, rfl⟩ : _ = slots' ∧ i = k := by simpa using h
        rw [List.getElem?_set_ne hne]

end Copy

/-! ## One call -/

section Growth

/-- A table that holds directives grows, or its allocation fails. -/
theorem Sys.Holds.grow {s : Sys Handler} (h : s.Holds) (ok : Bool) (count : ℕ) :
    (ok = false ∧ s.table.grow ok count = none) ∨ ∃ slots, ok = true ∧
      s.table.grow ok count = some slots ∧ s.table.count + count ≤ slots.length ∧
      slots.take s.table.count = s.registered.map Entry.slot := by
  obtain ⟨-, hcount, hlist⟩ := h
  cases ok with
  | false =>
    refine .inl ⟨rfl, ?_⟩
    rw [Table.grow]
    split <;> rfl
  | true =>
    rcases hlist with hzero | ⟨slots, hsome, htake⟩
    · have hnil : s.registered = [] := List.length_eq_zero_iff.mp (hcount ▸ hzero)
      rw [Table.grow, hzero, hnil]
      cases s.table.list with
      | none => exact .inr ⟨_, rfl, rfl, by simp, by simp⟩
      | some slots => exact .inr ⟨_, rfl, rfl, by simp [List.takeD_length], by simp⟩
    · have hlen : s.table.count ≤ slots.length := by
        have := congrArg List.length htake
        rw [List.length_take, List.length_map] at this
        omega
      refine .inr ⟨slots.takeD (count + s.table.count) {}, rfl, ?_, ?_, ?_⟩
      · rw [Table.grow, hsome]; rfl
      · rw [List.takeD_length]; omega
      · rw [Lib.take_takeD _ (by omega) hlen, htake]

/-- A first slot that has not been written is not written by growing the list. -/
theorem grow_first {t : Table Handler}
    (hfirst : ∀ slots slot, t.list = some slots → slots[0]? = some slot → slot.directiveName = none)
    {ok : Bool} {count : ℕ} {slots : List (Slot Handler)} {slot : Slot Handler}
    (hgrow : t.grow ok count = some slots) (hslot : slots[0]? = some slot) :
    slot.directiveName = none := by
  rw [Table.grow] at hgrow
  cases hlist : t.list with
  | none =>
    obtain ⟨-, rfl⟩ : ok = true ∧ List.replicate count {} = slots := by
      simpa [hlist, mallocSlots] using hgrow
    obtain ⟨-, rfl⟩ := List.mem_replicate.mp (List.mem_of_getElem? hslot)
    rfl
  | some old =>
    obtain ⟨-, rfl⟩ : ok = true ∧ old.takeD (count + t.count) {} = slots := by
      simpa [hlist, reallocSlots] using hgrow
    have hpos : 0 < count + t.count := by
      simpa using (List.getElem?_eq_some_iff.mp hslot).1
    rw [Lib.getElem?_takeD _ hpos] at hslot
    obtain rfl := Option.some.inj hslot
    cases hold : old[0]? with
    | none => rfl
    | some slot => exact hfirst old slot hlist hold

end Growth

section Step

variable {s s' : Sys Handler} {a : Add Handler}

theorem registers_nil (h : a.directive.getD [] = []) : a.registers = [] := by
  rw [Add.registers, h]
  split <;> rfl

/-- A call without directives changes nothing; any other one gets a list or not, and then writes
    behind its end or not. -/
theorem step_cases (hs : step s a = some s') :
    (a.directive.getD [] = [] ∧ s' = s) ∨
    ∃ ds, a.directive = some ds ∧ ds ≠ [] ∧ s'.registered = s.registered ++ a.registers ∧
      ((s.table.grow a.listOk ds.length = none ∧ s'.table = { s.table with list := none }) ∨
        ∃ slots, s.table.grow a.listOk ds.length = some slots ∧
          ((copyDirectives a.names s.table.count ds 0 slots = none ∧ s'.table.overrun = true) ∨
            ∃ slots' i, copyDirectives a.names s.table.count ds 0 slots = some (slots', i) ∧
              s'.table = { s.table with list := some slots', count := s.table.count + i })) := by
  obtain ⟨directive, listOk, names⟩ := a
  obtain rfl := (Option.some.inj hs).symm
  match directive with
  | none | some [] =>
    refine .inl ⟨rfl, ?_⟩
    rw [registers_nil rfl, List.append_nil]
    rfl
  | some (d :: ds) =>
    refine .inr ⟨d :: ds, rfl, by simp, rfl, ?_⟩
    simp only [duerAddDcsDirective]
    cases s.table.grow listOk (d :: ds).length with
    | none => exact .inl ⟨rfl, rfl⟩
    | some slots =>
      refine .inr ⟨slots, rfl, ?_⟩
      simp only
      cases copyDirectives names s.table.count (d :: ds) 0 slots with
      | none => exact .inl ⟨rfl, rfl⟩
      | some result => exact .inr ⟨result.1, result.2, rfl, rfl⟩

/-- **A call that can grow the table** adds what it registers. -/
theorem Sys.Holds.step (h : s.Holds) (hg : Grows s a) (hs : step s a = some s') : s'.Holds := by
  rcases step_cases hs with ⟨-, rfl⟩ | ⟨ds, hds, hne, hreg, hcases⟩
  · exact h
  rcases h.grow a.listOk ds.length with ⟨hfail, hnone⟩ | ⟨slots, hok, hsome, hroom, hfront⟩
  -- the list is gone, with nothing in it
  · have hregisters : a.registers = [] := by simp [Add.registers, hfail]
    have hzero : s.table.count = 0 := by
      rcases hg with hg | hg | hg | hg
      · simp [hds, hne] at hg
      · exact hg
      · rcases h.2.2 with hzero | ⟨slots, hsome, -⟩
        · exact hzero
        · rw [hg] at hsome; cases hsome
      · rw [hfail] at hg; cases hg
    rcases hcases with ⟨-, htable⟩ | ⟨slots, hsome, -⟩
    · rw [Sys.Holds, htable, hreg, hregisters, List.append_nil]
      exact ⟨h.1, h.2.1, .inl hzero⟩
    · rw [hnone] at hsome; cases hsome
  · obtain ⟨slots', hcopy, htake⟩ := copyDirectives_spec a.names 0 hroom
    have hregisters : a.registers = copied a.names 0 ds := by
      simp [Add.registers, hok, hds]
    rcases hcases with ⟨hnone, -⟩ | ⟨slots₁, hsome₁, hcases⟩
    · rw [hsome] at hnone; cases hnone
    obtain rfl := Option.some.inj (hsome.symm.trans hsome₁)
    rw [hcopy] at hcases
    rcases hcases with ⟨hnone, -⟩ | ⟨slots₂, i, heq, htable⟩
    · cases hnone
    obtain ⟨rfl, rfl⟩ := Prod.mk.inj (Option.some.inj heq)
    rw [Sys.Holds, htable, hreg, hregisters]
    refine ⟨h.1, ?_, .inr ⟨slots', rfl, ?_⟩⟩
    · simp [h.2.1]
    · simpa [hfront] using htake

/-- A call that cannot grow the table loses what it holds. -/
theorem Sys.Holds.lost (h : s.Holds) (hg : ¬Grows s a) (hs : Router.step s a = some s') :
    s'.Lost := by
  simp only [Grows, not_or, Bool.not_eq_true] at hg
  obtain ⟨hne, hcount, -, hfail⟩ := hg
  rcases step_cases hs with ⟨hnil, -⟩ | ⟨ds, -, -, -, hcases⟩
  · exact absurd hnil hne
  rcases h.grow a.listOk ds.length with ⟨-, hnone⟩ | ⟨slots, hok, -⟩
  · rcases hcases with ⟨-, htable⟩ | ⟨slots, hsome, -⟩
    · rw [Sys.Lost, htable]
      exact .inr ⟨Nat.pos_of_ne_zero hcount, by simp⟩
    · rw [hnone] at hsome; cases hsome
  · rw [hfail] at hok; cases hok

/-- What is lost stays lost: no later call writes the first slot. -/
theorem Sys.Lost.step (h : s.Lost) (hs : Router.step s a = some s') : s'.Lost := by
  rcases step_cases hs with ⟨-, rfl⟩ | ⟨ds, -, -, -, hcases⟩
  · exact h
  rcases hcases with ⟨-, htable⟩ | ⟨slots, hgrow, ⟨-, hover⟩ | ⟨slots', i, hcopy, htable⟩⟩
  · rw [Sys.Lost, htable]
    rcases h with hover | ⟨hpos, -⟩
    · exact .inl hover
    · exact .inr ⟨hpos, by simp⟩
  · exact .inl hover
  · rw [Sys.Lost, htable]
    rcases h with hover | ⟨hpos, hfirst⟩
    · exact .inl hover
    refine .inr ⟨by simp only; omega, fun slots₁ slot hsome hslot => ?_⟩
    obtain rfl := Option.some.inj hsome
    rw [copyDirectives_front hcopy hpos] at hslot
    exact grow_first hfirst hgrow hslot

end Step

/-! ## Dispatch -/

/-- What the router does once it has looked for a handler. -/
def runHandler (run : Handler → Json → Status) (payload : Option (List UInt8)) (directive : Json) :
    Option Handler → Routed Handler
  | none => .ended .notFound none (reportException .notFound payload)
  | some handler =>
    .ended (run handler directive) (some (handler, directive))
      (reportException (run handler directive) payload)

/-- A directive runs the handler of the last registration of its name. -/
def Sys.Dispatches (s : Sys Handler) : Prop :=
  ∀ (parse : List UInt8 → Option Json) (run : Handler → Json → Status) (payloadOk : Bool)
    (msg : Option Msg) (payload : Option (List UInt8)) (directive : Json) (name : String),
    parseRequest parse payloadOk msg = (payload, .ok (directive, .string name)) →
    duerDcsRouter parse run s.table payloadOk msg =
      runHandler run payload directive (lastHandler s.registered name)

/-- The loop visits the entries one after another, and keeps the last one that matches. -/
theorem searchLoop_spec {slots : List (Slot Handler)} {entries : List (Entry Handler)} {i : ℕ}
    (hslots : ∀ j (hj : j < entries.length), slots[i + j]? = some entries[j].slot)
    (name : String) (handler : Option Handler) :
    searchLoop (some slots) (some name) entries.length i handler =
      some (((entries.reverse.find? fun e => e.name = name).map (·.cb)).getD handler) := by
  induction entries generalizing i handler with
  | nil => rfl
  | cons e entries ih =>
    have hhead : slots[i]? = some e.slot := hslots 0 (by simp)
    have hrest : ∀ j (hj : j < entries.length), slots[i + 1 + j]? = some entries[j].slot := by
      intro j hj
      have := hslots (j + 1) (by simpa using hj)
      rwa [List.getElem_cons_succ, ← Nat.add_assoc, Nat.add_right_comm] at this
    simp only [List.length_cons, searchLoop, Option.bind_some, hhead, Entry.slot, ih hrest,
      List.reverse_cons, List.find?_append, List.find?_singleton]
    by_cases hname : e.name = name
    · cases entries.reverse.find? (fun e => e.name = name) <;> simp [hname]
    · cases entries.reverse.find? (fun e => e.name = name) <;> simp [hname]

theorem Sys.Holds.slots {s : Sys Handler} (h : s.Holds) (hpos : 0 < s.table.count) :
    ∃ slots, s.table.list = some slots ∧
      ∀ j (hj : j < s.registered.length), slots[j]? = some s.registered[j].slot := by
  obtain ⟨-, hcount, hzero | ⟨slots, hsome, htake⟩⟩ := h
  · omega
  refine ⟨slots, hsome, fun j hj => ?_⟩
  have hget := congrArg (·[j]?) htake
  simpa [List.getElem?_take_of_lt (hcount ▸ hj), hj] using hget

/-- A table that holds what is registered has its slots, -/
theorem Sys.Holds.valid {s : Sys Handler} (h : s.Holds) : s.table.Valid := by
  refine ⟨h.1, fun i hi => ?_⟩
  obtain ⟨slots, hsome, hslots⟩ := h.slots (by omega)
  exact ⟨slots, _, hsome, hslots i (h.2.1 ▸ hi)⟩

/-- and finds it. -/
theorem Sys.Holds.search {s : Sys Handler} (h : s.Holds) (name : String) :
    s.table.search (some name) = some (lastHandler s.registered name) := by
  rw [Table.search, h.2.1, lastHandler]
  by_cases hpos : 0 < s.table.count
  · obtain ⟨slots, hsome, hslots⟩ := h.slots hpos
    rw [hsome, searchLoop_spec (fun j hj => by rw [Nat.zero_add]; exact hslots j hj)]
    cases s.registered.reverse.find? (fun e => e.name = name) <;> rfl
  · have hnil : s.registered = [] := List.length_eq_zero_iff.mp (by have := h.2.1; omega)
    rw [hnil]
    rfl

theorem Sys.Holds.dispatches {s : Sys Handler} (h : s.Holds) : s.Dispatches := by
  intro parse run payloadOk msg payload directive name hreq
  simp only [duerDcsRouter, hreq, Json.valuestring, h.search]
  cases lastHandler s.registered name <;> rfl

theorem Sys.Lost.not_valid {s : Sys Handler} (h : s.Lost) : ¬s.table.Valid := by
  rintro ⟨hrun, hvalid⟩
  rcases h with hover | ⟨hpos, hfirst⟩
  · rw [hrun] at hover; cases hover
  obtain ⟨slots, e, hsome, hslot⟩ := hvalid 0 hpos
  have := hfirst slots _ hsome hslot
  cases this

/-- **The directive table survives a run of additions**, with room for its directives and every one
    of them found, exactly when no growth of a table that holds directives fails. A growth that
    fails on an empty table has nothing to lose. -/
theorem directives_kept_iff (adds : List (Add Handler)) :
    ∃ s, Lib.runFrom step {} adds = some s ∧
      ((s.table.Valid ∧ s.Dispatches) ↔ Lib.admits step Grows {} adds) := by
  have hrun : ∀ s : Sys Handler, ∃ s', Lib.runFrom step s adds = some s' := by
    induction adds with
    | nil => exact fun s => ⟨s, rfl⟩
    | cons a adds ih => exact fun s => ih ⟨_, _⟩
  obtain ⟨s, hs⟩ := hrun {}
  have hinit : Sys.Holds ({} : Sys Handler) := ⟨rfl, rfl, .inl rfl⟩
  refine ⟨s, hs, ?_⟩
  rcases Lib.runFrom_admits_or_bad Sys.Holds Sys.Lost (fun h hg hs => h.step hg hs)
    (fun h hg hs => h.lost hg hs) (fun h hs => h.step hs) hinit hs with
    ⟨hgood, hadm⟩ | ⟨hlost, hadm⟩
  · exact ⟨fun _ => hadm, fun _ => ⟨hgood.valid, hgood.dispatches⟩⟩
  · exact ⟨fun h => absurd h.1 hlost.not_valid, fun h => absurd h hadm⟩

/-- One directive is registered, then the list cannot grow for a second one: the first one is
    gone, and is looked for behind the null pointer. -/
theorem directives_lost_after_failed_realloc :
    ∃ s : Sys Unit, Lib.runFrom step {} [⟨some [⟨some "Play", some ()⟩], true, fun _ => true⟩,
        ⟨some [⟨some "Stop", some ()⟩], false, fun _ => true⟩] = some s ∧
      lastHandler s.registered "Play" = some () ∧ s.table.search (some "Play") = none ∧
      ¬(s.table.Valid ∧ s.Dispatches) := by
  refine ⟨_, rfl, by decide, rfl, fun h => ?_⟩
  obtain ⟨slots, e, hsome, -⟩ := h.1.2 0 (by decide)
  cases hsome

end Router
end Dcs
end LightDuer
