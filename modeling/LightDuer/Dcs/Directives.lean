import LightDuer.BaiduJson.Parser
import LightDuer.Dcs.Player
import LightDuer.Dcs.Router

/-!
# Directives of any JSON

The payload of a directive is any JSON tree. `duer_dcs_router` and the callbacks of the audio
player, the voice output and the alerts look their fields up by name, and take the `valuestring`
of what they find; that of a node that is no string is `NULL`. A node whose `valuestring` is used
is kept in `Handled.reads`. A field that is missing is answered before anything is done; whether a
field that is there is a string is asked nowhere.

The callbacks are those of `lightduer_dcs_audio_player.c`, `lightduer_dcs_voice_output.c` and
`lightduer_dcs_alert.c`. A callback first looks all of its fields up and answers
`DUER_MSG_RSP_BAD_REQUEST` if one is not there, so its fields are one definition of their own
(`audioPlayFields` and the others), and `Callback.fields` is the family of them. What the players
do with the fields is `LightDuer.Dcs.Player`; that the table finds what has been registered is
`LightDuer.Dcs.Router`, and a `Device` carries it as a field (`Device.holds`).

`Device.Robust` is what one would have of the router, and `robust_iff` says which payloads have
it. It is the same for every parser: the parser is a parameter of the whole module, and
`baiduParse` at the end is the one of the library.

The payload can be copied and an exception reported; what comes of other interfaces' directives is
left out.
-/

set_option autoImplicit false

namespace LightDuer
namespace Dcs

open Router (Json)

/-- The callbacks that the three interfaces register. -/
inductive Callback where
  | audioPlay | audioStop | queueClear | speak | alertSet | alertDelete
deriving DecidableEq, Repr

/-- The application's handlers for alerts. -/
inductive AlertCall where
  | set (token scheduledTime type : Option String)
  | delete (token : Option String)
deriving DecidableEq, Repr

/-- The table of directives, with all that has been registered, and the modules. -/
structure Device where
  sys : Router.Sys Callback
  holds : sys.Holds
  player : Player
  alerts : List AlertCall

/-- What a callback does; without a status it compares or logs a `NULL`. -/
structure Handled where
  status : Option Router.Status
  player : Player
  alerts : List AlertCall
  /-- the nodes whose `valuestring` it has used -/
  reads : List Json

/-- The status of the two players' callbacks. -/
def Status.toRouter : Status → Router.Status
  | .ok => .ok
  | .badRequest => .badRequest
  -- `DUER_ERR_MEMORY_OVERLOW`
  | .memoryOverlow => .other (-17)

/-! ## The fields of a directive -/

/-- `duer_audio_play_cb`: url, token and behavior. -/
def audioPlayFields (directive : Json) : Option (Json × Json × Json) := do
  let payload ← directive.getObjectItem "payload"
  let audioItem ← payload.getObjectItem "audioItem"
  let behavior ← payload.getObjectItem "playBehavior"
  let stream ← audioItem.getObjectItem "stream"
  let token ← stream.getObjectItem "token"
  let url ← stream.getObjectItem "url"
  return (url, token, behavior)

/-- `duer_queue_clear_cb`: the behavior. -/
def queueClearFields (directive : Json) : Option Json := do
  let payload ← directive.getObjectItem "payload"
  payload.getObjectItem "clearBehavior"

/-- `duer_speak_cb`: url and token. -/
def speakFields (directive : Json) : Option (Json × Json) := do
  let payload ← directive.getObjectItem "payload"
  let url ← payload.getObjectItem "url"
  let token ← payload.getObjectItem "token"
  return (url, token)

/-- `duer_alert_set_cb`: token, time and type. -/
def alertSetFields (directive : Json) : Option (Json × Json × Json) := do
  let payload ← directive.getObjectItem "payload"
  let token ← payload.getObjectItem "token"
  let scheduledTime ← payload.getObjectItem "scheduledTime"
  let type ← payload.getObjectItem "type"
  return (token, scheduledTime, type)

/-- `duer_alert_delete_cb`: the token. -/
def alertDeleteFields (directive : Json) : Option Json := do
  let payload ← directive.getObjectItem "payload"
  payload.getObjectItem "token"

/-- The fields that a callback needs. -/
def Callback.fields (directive : Json) : Callback → Option (List Json)
  | .audioPlay => (audioPlayFields directive).map fun f => [f.1, f.2.1, f.2.2]
  | .audioStop => some []
  | .queueClear => (queueClearFields directive).map fun f => [f]
  | .speak => (speakFields directive).map fun f => [f.1, f.2]
  | .alertSet => (alertSetFields directive).map fun f => [f.1, f.2.1, f.2.2]
  | .alertDelete => (alertDeleteFields directive).map fun f => [f]

/-! ## The callbacks -/

namespace Device

/-- `DUER_MSG_RSP_BAD_REQUEST` -/
def badRequest (d : Device) : Handled := ⟨some .badRequest, d.player, d.alerts, []⟩

/-- A callback of the players has run, and has used `reads`. -/
def ran (d : Device) (r : Status × Player) (reads : List Json) : Handled :=
  ⟨some r.1.toRouter, r.2, d.alerts, reads⟩

/-- The alert handler has been called. -/
def alerted (d : Device) (call : AlertCall) (reads : List Json) : Handled :=
  ⟨some .ok, d.player, d.alerts ++ [call], reads⟩

def audioPlayCb (d : Device) (directive : Json) : Handled :=
  match audioPlayFields directive with
  | none => d.badRequest
  | some (url, token, behavior) =>
    match behavior.valuestring with
    | none => ⟨none, d.player, d.alerts, [url, token, behavior]⟩
    | some b =>
      d.ran (duerAudioPlayCb d.player (some ⟨b, url.valuestring, token.valuestring⟩))
        [url, token, behavior]

def queueClearCb (d : Device) (directive : Json) : Handled :=
  match queueClearFields directive with
  | none => d.badRequest
  | some behavior =>
    match behavior.valuestring with
    | none => ⟨none, d.player, d.alerts, [behavior]⟩
    | some b => d.ran (duerQueueClearCb d.player (some b)) [behavior]

def speakCb (d : Device) (directive : Json) : Handled :=
  match speakFields directive with
  | none => d.badRequest
  | some (url, token) =>
    match token.valuestring with
    -- `duer_strdup_internal` gives `NULL` for it
    | none => d.ran (.memoryOverlow, { d.player with speechToken := none }) [token]
    | some t =>
      -- the speak handler may get a `NULL`; the log of the player has the empty url for it
      d.ran (duerSpeakCb d.player (some (url.valuestring.getD "", t)))
        (if d.player.malloc.1 = true then [token, url] else [token])

def alertSetCb (d : Device) (directive : Json) : Handled :=
  match alertSetFields directive with
  | none => d.badRequest
  | some (token, scheduledTime, type) =>
    d.alerted (.set token.valuestring scheduledTime.valuestring type.valuestring)
      [token, scheduledTime, type]

def alertDeleteCb (d : Device) (directive : Json) : Handled :=
  match alertDeleteFields directive with
  | none => d.badRequest
  | some token => d.alerted (.delete token.valuestring) [token]

def handle (d : Device) (directive : Json) : Callback → Handled
  | .audioPlay => d.audioPlayCb directive
  | .audioStop => d.ran (duerAudioStopCb d.player) []
  | .queueClear => d.queueClearCb directive
  | .speak => d.speakCb directive
  | .alertSet => d.alertSetCb directive
  | .alertDelete => d.alertDeleteCb directive

end Device

/-! ## The router -/

/-- What comes of a payload: without a status the device has used a `NULL`. -/
structure Received where
  status : Option Router.Status
  player : Player
  alerts : List AlertCall
  reads : List Json
  /-- the exceptions that `duer_report_exception_internal` has sent -/
  reports : List (List UInt8 × String × String)

/-- `duer_report_exception_internal` sends nothing without the payload. -/
def sentReports : Option (Option (List UInt8) × String × String) →
    List (List UInt8 × String × String)
  | some (some payload, type, message) => [(payload, type, message)]
  | _ => []

section Receive

variable (parse : List UInt8 → Option Json)

/-- The node `name`, whose `valuestring` the router compares and logs. -/
def nameRead (msg : Option Router.Msg) : List Json :=
  match (Router.parseRequest parse true msg).2 with
  | .ok (_, name) => [name]
  | .error _ => []

/-- `duer_dcs_router` on a payload that is not empty. -/
def Device.receive (d : Device) (b : UInt8) (payload : List UInt8) : Received :=
  let msg := some ⟨some (b :: payload)⟩
  match Router.duerDcsRouter parse (fun cb directive => (d.handle directive cb).status.getD .ok)
      d.sys.table true msg with
  | .fault => ⟨none, d.player, d.alerts, nameRead parse msg, []⟩
  | .ended rs none exception =>
      ⟨some rs, d.player, d.alerts, nameRead parse msg, sentReports exception⟩
  | .ended _ (some (cb, directive)) exception =>
      let h := d.handle directive cb
      ⟨h.status, h.player, h.alerts, nameRead parse msg ++ h.reads, sentReports exception⟩

/-! ## What it is to be robust -/

/-- The node is a string. -/
def IsString (node : Json) : Prop := ∃ s, node = .string s

/-- The directive of a payload, and the node with its name. -/
def requestOf (value : Json) : Option (Json × Json) := do
  let directive ← value.getObjectItem "directive"
  let header ← directive.getObjectItem "header"
  let name ← header.getObjectItem "name"
  return (directive, name)

/-- No field that the directive needs is missing or of a wrong type. -/
def Device.Complete (d : Device) (value : Json) : Prop :=
  ∃ directive name, requestOf value = some (directive, .string name) ∧
    ∀ cb, Router.lastHandler d.sys.registered name = some cb →
      ∃ nodes, cb.fields directive = some nodes ∧ ∀ n ∈ nodes, IsString n

/-- The play queue and the states of the two players do not differ. -/
structure Untouched (p p' : Player) : Prop where
  queue : p'.playQueue = p.playQueue
  token : p'.latestToken = p.latestToken
  state : p'.playState = p.playState
  offset : p'.playOffset = p.playOffset
  speech : p'.speechState = p.speechState

/-- **A payload is handled robustly**: only strings are taken for strings, and a directive with a
    missing or wrongly typed field gets an error and one exception, and changes nothing. What counts
    as a field of a directive is what its callback looks for. -/
structure Device.Robust (d : Device) (b : UInt8) (payload : List UInt8) : Prop where
  reads : ∀ n ∈ (d.receive parse b payload).reads, IsString n
  refused : ∀ value, parse (b :: payload) = some value → ¬d.Complete value →
    (∃ rs, (d.receive parse b payload).status = some rs ∧ rs ≠ .ok) ∧
      (d.receive parse b payload).reports.length = 1 ∧
      Untouched d.player (d.receive parse b payload).player ∧
      (d.receive parse b payload).alerts = d.alerts

/-- The fields that a callback has found are strings; the url of a speech is not looked at when the
    token cannot be copied. -/
def Callback.Typed (p : Player) (cb : Callback) (nodes : List Json) : Prop :=
  (∀ n ∈ nodes, IsString n) ∨
    cb = .speak ∧ p.malloc.1 = false ∧ ∃ url token, nodes = [url, token] ∧ IsString token

/-- The name of the directive is a string if it is there, and where its callback finds all fields
    they are strings. -/
def Device.TypedWhereFound (d : Device) (value : Json) : Prop :=
  ∀ directive name, requestOf value = some (directive, name) →
    ∃ s, name = .string s ∧
      ∀ cb nodes, Router.lastHandler d.sys.registered s = some cb →
        cb.fields directive = some nodes → cb.Typed d.player nodes

/-! ## The callbacks -/

section Callbacks

variable {d : Device} {directive : Json} {cb : Callback} {nodes : List Json}

theorem isString_iff {node : Json} : IsString node ↔ node.valuestring ≠ none := by
  cases node with
  | string s => exact iff_of_true ⟨s, rfl⟩ (Option.some_ne_none s)
  | object items =>
    refine iff_of_false ?_ (not_not_intro rfl)
    rintro ⟨s, h⟩
    cases h
  | other =>
    refine iff_of_false ?_ (not_not_intro rfl)
    rintro ⟨s, h⟩
    cases h

theorem Untouched.refl (p : Player) : Untouched p p := ⟨rfl, rfl, rfl, rfl, rfl⟩

/-- A field is missing. -/
theorem Device.handle_of_none (h : cb.fields directive = none) :
    d.handle directive cb = d.badRequest := by
  cases cb with
  | audioPlay =>
    have hnone : audioPlayFields directive = none := Option.map_eq_none_iff.mp h
    simp only [Device.handle, Device.audioPlayCb, hnone]
  | audioStop => cases h
  | queueClear =>
    have hnone : queueClearFields directive = none := Option.map_eq_none_iff.mp h
    simp only [Device.handle, Device.queueClearCb, hnone]
  | speak =>
    have hnone : speakFields directive = none := Option.map_eq_none_iff.mp h
    simp only [Device.handle, Device.speakCb, hnone]
  | alertSet =>
    have hnone : alertSetFields directive = none := Option.map_eq_none_iff.mp h
    simp only [Device.handle, Device.alertSetCb, hnone]
  | alertDelete =>
    have hnone : alertDeleteFields directive = none := Option.map_eq_none_iff.mp h
    simp only [Device.handle, Device.alertDeleteCb, hnone]

/-- All callbacks but that of a speech use all their fields. -/
theorem Device.handle_reads (hcb : cb ≠ .speak) (h : cb.fields directive = some nodes) :
    (d.handle directive cb).reads = nodes := by
  cases cb with
  | audioPlay =>
    obtain ⟨⟨url, token, behavior⟩, hfields, rfl⟩ := Option.map_eq_some_iff.mp h
    simp only [Device.handle, Device.audioPlayCb, hfields]
    split <;> rfl
  | audioStop =>
    obtain rfl := Option.some.inj h
    rfl
  | queueClear =>
    obtain ⟨behavior, hfields, rfl⟩ := Option.map_eq_some_iff.mp h
    simp only [Device.handle, Device.queueClearCb, hfields]
    split <;> rfl
  | speak => exact absurd rfl hcb
  | alertSet =>
    obtain ⟨⟨token, scheduledTime, type⟩, hfields, rfl⟩ := Option.map_eq_some_iff.mp h
    simp only [Device.handle, Device.alertSetCb, hfields]
    rfl
  | alertDelete =>
    obtain ⟨token, hfields, rfl⟩ := Option.map_eq_some_iff.mp h
    simp only [Device.handle, Device.alertDeleteCb, hfields]
    rfl

/-- The callback of a speech uses the token, and the url when the token has been copied. -/
theorem Device.speak_reads {url token : Json} (h : speakFields directive = some (url, token)) :
    (d.handle directive .speak).reads =
      if token.valuestring ≠ none ∧ d.player.malloc.1 = true then [token, url] else [token] := by
  simp only [Device.handle, Device.speakCb, h]
  cases token.valuestring with
  | none => rfl
  | some t => simp [Device.ran]

theorem Callback.typed_of_ne_speak {p : Player} (hcb : cb ≠ .speak) :
    cb.Typed p nodes ↔ ∀ n ∈ nodes, IsString n := by
  refine ⟨?_, .inl⟩
  rintro (h | ⟨hspeak, -⟩)
  · exact h
  · exact absurd hspeak hcb

/-- **Only strings are taken for strings** exactly where the fields that are found are typed. -/
theorem Device.handle_reads_typed (h : cb.fields directive = some nodes) :
    (∀ n ∈ (d.handle directive cb).reads, IsString n) ↔ cb.Typed d.player nodes := by
  by_cases hcb : cb = .speak
  · subst hcb
    obtain ⟨⟨url, token⟩, hfields, rfl⟩ := Option.map_eq_some_iff.mp h
    rw [Device.speak_reads hfields]
    by_cases htoken : IsString token
    · cases hmalloc : d.player.malloc.1 with
      | true =>
        rw [if_pos ⟨isString_iff.mp htoken, rfl⟩]
        constructor
        · intro hreads
          refine .inl fun n hn => hreads n ?_
          simp only [List.mem_cons, List.not_mem_nil, or_false] at hn ⊢
          exact hn.symm
        · rintro (hall | ⟨-, hfails, -⟩)
          · intro n hn
            refine hall n ?_
            simp only [List.mem_cons, List.not_mem_nil, or_false] at hn ⊢
            exact hn.symm
          · rw [hmalloc] at hfails
            cases hfails
      | false =>
        rw [if_neg (fun hcopied => Bool.false_ne_true hcopied.2)]
        refine iff_of_true ?_ (.inr ⟨rfl, hmalloc, url, token, rfl, htoken⟩)
        intro n hn
        rw [List.mem_singleton.mp hn]
        exact htoken
    · have hreads : token ∈ if token.valuestring ≠ none ∧ d.player.malloc.1 = true then
          [token, url] else [token] := by
        split <;> exact List.mem_cons_self
      refine iff_of_false (fun hall => htoken (hall token hreads)) ?_
      rintro (hall | ⟨-, -, url', token', heq, htoken'⟩)
      · exact htoken (hall token (List.mem_cons_of_mem _ List.mem_cons_self))
      · simp only [List.cons.injEq, and_true] at heq
        exact htoken (heq.2 ▸ htoken')
  · rw [Device.handle_reads hcb h, Callback.typed_of_ne_speak hcb]

/-- A url that is no string, not looked at: the speech is refused for want of memory. -/
theorem Device.speak_refused (htyped : cb.Typed d.player nodes) (hnot : ¬∀ n ∈ nodes, IsString n)
    (h : cb.fields directive = some nodes) :
    (d.handle directive cb).status = some (.other (-17)) ∧
      Untouched d.player (d.handle directive cb).player ∧
      (d.handle directive cb).alerts = d.alerts := by
  rcases htyped with hall | ⟨rfl, hmalloc, url, token, rfl, t, rfl⟩
  · exact absurd hall hnot
  · obtain ⟨⟨url', token'⟩, hfields, heq⟩ := Option.map_eq_some_iff.mp h
    simp only [List.cons.injEq, and_true] at heq
    obtain ⟨rfl, rfl⟩ := heq
    simp only [Device.handle, Device.speakCb, hfields, Json.valuestring, Device.ran, duerSpeakCb,
      Player.strdup]
    generalize hrun : d.player.malloc = run at hmalloc
    obtain ⟨ok, p⟩ := run
    subst hmalloc
    have hp : p = { d.player with mallocs := d.player.mallocs.tail } :=
      (congrArg Prod.snd hrun).symm
    subst hp
    exact ⟨rfl, ⟨rfl, rfl, rfl, rfl, rfl⟩, trivial⟩

end Callbacks

end Receive

/-! ## All payloads -/

section Receive

variable {parse : List UInt8 → Option Json} {d : Device} {b : UInt8} {payload : List UInt8}
  {value : Json}

/-- The router looks a tree up as `requestOf` does. -/
theorem parseRequest_eq (hparse : parse (b :: payload) = some value) :
    Router.parseRequest parse true (some ⟨some (b :: payload)⟩) =
      (some (b :: payload),
        match requestOf value with
        | none => .error .badRequest
        | some request => .ok request) := by
  simp only [Router.parseRequest, if_pos, hparse, requestOf]
  cases value.getObjectItem "directive" with
  | none => rfl
  | some directive =>
    cases hheader : directive.getObjectItem "header" with
    | none => simp [hheader]
    | some header =>
      cases hname : header.getObjectItem "name" with
      | none => simp [hheader, hname]
      | some name => simp [hheader, hname]

/-- No tree. -/
theorem receive_of_not_parsed (hparse : parse (b :: payload) = none) :
    d.receive parse b payload =
      ⟨some .failed, d.player, d.alerts, [],
        [(b :: payload, "INTERNAL_ERROR", "Internal error")]⟩ := by
  simp only [Device.receive, Router.duerDcsRouter, Router.parseRequest, nameRead, if_pos, hparse]
  rfl

/-- A tree without directive, header or name. -/
theorem receive_of_no_request (hparse : parse (b :: payload) = some value)
    (h : requestOf value = none) :
    d.receive parse b payload =
      ⟨some .badRequest, d.player, d.alerts, [],
        [(b :: payload, "UNEXPECTED_INFORMATION_RECEIVED", "Bad directive")]⟩ := by
  simp only [Device.receive, Router.duerDcsRouter, nameRead, parseRequest_eq hparse, h]
  rfl

/-- The name is looked for, whatever it is. -/
theorem mem_reads_name {directive name : Json} (hparse : parse (b :: payload) = some value)
    (h : requestOf value = some (directive, name)) :
    name ∈ (d.receive parse b payload).reads := by
  have hread : nameRead parse (some ⟨some (b :: payload)⟩) = [name] := by
    simp only [nameRead, parseRequest_eq hparse, h]
  unfold Device.receive
  simp only [hread]
  split
  · exact List.mem_cons_self
  · exact List.mem_cons_self
  · exact List.mem_append_left _ List.mem_cons_self

/-- A name that no callback is registered for. -/
theorem receive_of_unknown {directive : Json} {name : String}
    (hparse : parse (b :: payload) = some value)
    (h : requestOf value = some (directive, .string name))
    (hcb : Router.lastHandler d.sys.registered name = none) :
    d.receive parse b payload =
      ⟨some .notFound, d.player, d.alerts, [.string name],
        [(b :: payload, "UNSUPPORTED_OPERATION", "Unknow directive")]⟩ := by
  simp only [Device.receive, Router.duerDcsRouter, nameRead, parseRequest_eq hparse, h,
    Json.valuestring, d.holds.search, hcb]
  rfl

/-- A name with a callback: it runs. -/
theorem receive_of_callback {directive : Json} {name : String} {cb : Callback}
    (hparse : parse (b :: payload) = some value)
    (h : requestOf value = some (directive, .string name))
    (hcb : Router.lastHandler d.sys.registered name = some cb) :
    d.receive parse b payload =
      ⟨(d.handle directive cb).status, (d.handle directive cb).player,
        (d.handle directive cb).alerts, .string name :: (d.handle directive cb).reads,
        sentReports (Router.reportException ((d.handle directive cb).status.getD .ok)
          (some (b :: payload)))⟩ := by
  simp only [Device.receive, Router.duerDcsRouter, nameRead, parseRequest_eq hparse, h,
    Json.valuestring, d.holds.search, hcb]
  rfl

/-- An error is reported once. -/
theorem sentReports_length {rs : Router.Status} (h : rs ≠ .ok) (payload : List UInt8) :
    (sentReports (Router.reportException rs (some payload))).length = 1 := by
  cases rs with
  | ok => exact absurd rfl h
  | failed | badRequest | notFound | other => rfl

/-- A callback that is run for a directive is robust exactly if the fields it finds are typed. -/
theorem robust_callback_iff {directive : Json} {name : String} {cb : Callback}
    (hparse : parse (b :: payload) = some value)
    (h : requestOf value = some (directive, .string name))
    (hcb : Router.lastHandler d.sys.registered name = some cb) :
    d.Robust parse b payload ↔
      ∀ nodes, cb.fields directive = some nodes → cb.Typed d.player nodes := by
  have hreceive := receive_of_callback hparse h hcb
  constructor
  · intro hrobust nodes hnodes
    refine (Device.handle_reads_typed hnodes).mp fun n hn => hrobust.reads n ?_
    rw [hreceive]
    exact List.mem_cons_of_mem _ hn
  · intro htyped
    have hname : ∀ {reads : List Json}, (∀ n ∈ reads, IsString n) →
        ∀ n ∈ Json.string name :: reads, IsString n := by
      intro reads hreads n hn
      rcases List.mem_cons.mp hn with rfl | hn
      · exact ⟨name, rfl⟩
      · exact hreads n hn
    cases hfields : cb.fields directive with
    | none =>
      have hbad := d.handle_of_none hfields
      rw [hbad] at hreceive
      refine ⟨?_, fun value' hvalue' _ => ?_⟩ <;> rw [hreceive]
      · exact hname (fun n hn => absurd hn List.not_mem_nil)
      · exact ⟨⟨.badRequest, rfl, fun hok => by cases hok⟩, rfl, .refl d.player, rfl⟩
    | some nodes =>
      refine ⟨?_, fun value' hvalue' hnot => ?_⟩ <;> rw [hreceive]
      · exact hname ((Device.handle_reads_typed hfields).mpr (htyped nodes hfields))
      · obtain rfl := Option.some.inj (hparse.symm.trans hvalue')
        have hnotAll : ¬∀ n ∈ nodes, IsString n := by
          intro hall
          refine hnot ⟨directive, name, h, fun cb' hcb' => ?_⟩
          obtain rfl := Option.some.inj (hcb.symm.trans hcb')
          exact ⟨nodes, hfields, hall⟩
        obtain ⟨hstatus, hplayer, halerts⟩ :=
          Device.speak_refused (htyped nodes hfields) hnotAll hfields
        have hne : (Router.Status.other (-17)) ≠ .ok := fun hok => by cases hok
        refine ⟨⟨_, hstatus, hne⟩, ?_, hplayer, halerts⟩
        simp only [hstatus, Option.getD_some]
        exact sentReports_length hne (b :: payload)

theorem robust_of_not_parsed (hparse : parse (b :: payload) = none) :
    d.Robust parse b payload := by
  refine ⟨?_, fun value hvalue => ?_⟩
  · rw [receive_of_not_parsed hparse]
    exact fun n hn => absurd hn List.not_mem_nil
  · rw [hparse] at hvalue
    cases hvalue

theorem robust_of_no_request (hparse : parse (b :: payload) = some value)
    (h : requestOf value = none) : d.Robust parse b payload := by
  refine ⟨?_, fun value' hvalue' _ => ?_⟩ <;> rw [receive_of_no_request hparse h]
  · exact fun n hn => absurd hn List.not_mem_nil
  · exact ⟨⟨.badRequest, rfl, fun hok => by cases hok⟩, rfl, .refl d.player, rfl⟩

theorem robust_of_unknown {directive : Json} {name : String}
    (hparse : parse (b :: payload) = some value)
    (h : requestOf value = some (directive, .string name))
    (hcb : Router.lastHandler d.sys.registered name = none) : d.Robust parse b payload := by
  refine ⟨?_, fun value' hvalue' hnot => ?_⟩
  · rw [receive_of_unknown hparse h hcb]
    intro n hn
    rw [List.mem_singleton.mp hn]
    exact ⟨name, rfl⟩
  · obtain rfl := Option.some.inj (hparse.symm.trans hvalue')
    refine absurd ⟨directive, name, h, fun cb hsome => ?_⟩ hnot
    rw [hcb] at hsome
    cases hsome

theorem typedWhereFound_iff {directive : Json} {name : String}
    (h : requestOf value = some (directive, .string name)) :
    d.TypedWhereFound value ↔ ∀ cb nodes, Router.lastHandler d.sys.registered name = some cb →
      cb.fields directive = some nodes → cb.Typed d.player nodes := by
  constructor
  · intro htyped
    obtain ⟨s, hs, hall⟩ := htyped directive _ h
    cases hs
    exact hall
  · intro hall directive' node' heq
    obtain ⟨rfl, rfl⟩ := Prod.mk.inj (Option.some.inj (h.symm.trans heq))
    exact ⟨name, rfl, hall⟩

/-- **Any payload is handled robustly exactly if** it is no directive, or its name is a string and
    the fields that its callback finds, when it finds them all, are strings. The parser is any
    function from payloads to values, so this is about every value that could come of one. -/
theorem robust_iff (parse : List UInt8 → Option Json) (d : Device) (b : UInt8)
    (payload : List UInt8) :
    d.Robust parse b payload ↔
      ∀ value, parse (b :: payload) = some value → d.TypedWhereFound value := by
  cases hparse : parse (b :: payload) with
  | none => exact iff_of_true (robust_of_not_parsed hparse) fun value hvalue => by cases hvalue
  | some value =>
    simp only [Option.some.injEq, forall_eq']
    cases hrequest : requestOf value with
    | none =>
      refine iff_of_true (robust_of_no_request hparse hrequest) fun directive name h => ?_
      rw [hrequest] at h
      cases h
    | some request =>
      obtain ⟨directive, node⟩ := request
      by_cases hnode : IsString node
      · obtain ⟨name, rfl⟩ := hnode
        rw [typedWhereFound_iff hrequest]
        cases hcb : Router.lastHandler d.sys.registered name with
        | none =>
          exact iff_of_true (robust_of_unknown hparse hrequest hcb) fun cb nodes h => by cases h
        | some cb =>
          rw [robust_callback_iff hparse hrequest hcb]
          constructor
          · intro h cb' nodes heq
            exact Option.some.inj heq ▸ h nodes
          · exact fun h nodes => h cb nodes rfl
      · refine iff_of_false ?_ ?_
        · exact fun hrobust => hnode (hrobust.reads node (mem_reads_name hparse hrequest))
        · intro h
          obtain ⟨s, hs, -⟩ := h directive node hrequest
          exact hnode ⟨s, hs⟩

end Receive

/-- A device with the callback of `Play`. -/
def playDevice : Device where
  sys :=
    { table := ⟨some [Router.Entry.slot ⟨"Play", some .audioPlay⟩], 1, false⟩
      registered := [⟨"Play", some .audioPlay⟩] }
  holds := ⟨rfl, rfl, .inr ⟨_, rfl, rfl⟩⟩
  player := .fresh
  alerts := []

/-! ## The parser of the library

`robust_iff` is about any parser. `baidu_json_Parse` is one: its tree has more than the router
reads, and `Json.ofBaidu` is what is left of it. -/

/-- A C string as one of characters; the names that are looked for are ASCII. -/
def ofCString (s : Ota.CString) : String :=
  String.ofList (s.bytes.map fun b => Char.ofNat b.toNat)

mutual

/-- What the router and the callbacks read of a node. -/
def Json.ofBaidu : Ota.Json → Json
  | .string s => .string (ofCString s)
  | .object items => .object (Json.ofMembers items)
  | .null | .bool _ | .number _ _ | .array _ => .other

def Json.ofMembers : List (Ota.CString × Ota.Json) → List (String × Json)
  | [] => []
  | (name, item) :: items => (ofCString name, Json.ofBaidu item) :: Json.ofMembers items

end

/-- `baidu_json_Parse` of the copy that `duer_dcs_router` has made, with a NUL behind it. -/
def baiduParse (D : BaiduJson.Doubles) (payload : List UInt8) : Option Json :=
  (BaiduJson.parse D (Lib.cString (payload ++ [0]))).map Json.ofBaidu

/-- Doubles as they are for a digit: nothing is rounded. -/
def digitDoubles : BaiduJson.Doubles :=
  ⟨some, fun n => some (10 ^ n), fun d => (d.getD 0).floor, fun _ => []⟩

/-- The `Play` directive of an item whose url is a number, behind its first brace. -/
def numberedPlay : List UInt8 :=
  Lib.ascii ("\"directive\":\x7b\"header\":\x7b\"name\":\"Play\"\x7d," ++
    "\"payload\":\x7b\"playBehavior\":\"ENQUEUE\",\"audioItem\":\x7b\"stream\":" ++
    "\x7b\"url\":1,\"token\":\"1\"\x7d\x7d\x7d\x7d\x7d")

/-- It is answered with `DUER_OK`, and the `valuestring` of the number has been used. -/
theorem not_robust_numbered_url :
    ¬playDevice.Robust (baiduParse digitDoubles) 0x7b numberedPlay := by
  intro hrobust
  have hreads : (playDevice.receive (baiduParse digitDoubles) 0x7b numberedPlay).reads.map
      Json.valuestring = [some "Play", none, some "1", some "ENQUEUE"] := by decide +kernel
  obtain ⟨url, hurl, hnone⟩ : ∃ url,
      url ∈ (playDevice.receive (baiduParse digitDoubles) 0x7b numberedPlay).reads ∧
        url.valuestring = none :=
    List.mem_map.mp (hreads ▸ List.mem_cons_of_mem _ List.mem_cons_self)
  exact isString_iff.mp (hrobust.reads url hurl) hnone

end Dcs
end LightDuer
