import Mathlib.Data.List.Basic
import Mathlib.Logic.Relation
import SessionHost.Program.Input

/-!
# Input on its way to a program

Any number of callers send payloads, close the input or ask whether it is open, and one writer hands the
payloads to a stream, which takes any part of what it is offered, or fails. A call that sends looks twice
before it hands its payload over, so the writer may stop, or the input be closed, in between.

**The stream.** `StreamEvent` is what the writer does to it. `Served` and `Failed` say what it sees of
payloads that are written whole, and of one at which it fails.

**The machine.** A `Delivery` is an input channel with the calls that are under way, what calls were
answered, and all that the stream has seen. `Delivery.Step` is one access of a call to the channel
(`Calls`) or one move of the writer (`Works`). The stream takes no more than it is offered. A write that
takes nothing of what it is offered has failed, and one that a signal came in between of is made again.
-/
namespace SessionHost

/-! ## What the stream sees -/

/-- What the writer does to the stream, and how the stream replies. -/
inductive StreamEvent where
  /-- It was offered some bytes and took so many of them. -/
  | took (offered : Bytes) (n : Nat)
  /-- It was offered some bytes, and a signal came in between. -/
  | interrupted (offered : Bytes)
  /-- It was offered some bytes and failed, or took none of them. -/
  | failed (offered : Bytes)
  | flushed
  | flushFailed
  | dropped
  deriving DecidableEq, Repr

namespace StreamEvent

def failure : StreamEvent → Bool
  | failed _ | flushFailed => true
  | took .. | interrupted _ | flushed | dropped => false

def bytes : StreamEvent → Bytes
  | took offered n => offered.take n
  | interrupted _ | failed _ | flushed | flushFailed | dropped => []

end StreamEvent

def takenOf (es : List StreamEvent) : Bytes := es.flatMap StreamEvent.bytes

@[simp] theorem takenOf_nil : takenOf [] = [] := rfl

@[simp] theorem takenOf_append (es fs : List StreamEvent) :
    takenOf (es ++ fs) = takenOf es ++ takenOf fs := List.flatMap_append

@[simp] theorem takenOf_singleton (e : StreamEvent) : takenOf [e] = e.bytes := by
  simp [takenOf]

/-- The writes of a payload up to where this much of it is left. Each offers all that is left. -/
inductive Writes (payload : Bytes) : List StreamEvent → Bytes → Prop where
  | nil : Writes payload [] payload
  | took {ws : List StreamEvent} {rest : Bytes} (n : Nat) (h : Writes payload ws rest) (hn : 0 < n)
      (hle : n ≤ rest.length) : Writes payload (ws ++ [.took rest n]) (rest.drop n)
  | interrupted {ws : List StreamEvent} {rest : Bytes} (h : Writes payload ws rest) (hne : rest ≠ []) :
      Writes payload (ws ++ [.interrupted rest]) rest

/-- The payloads were taken whole, one after the other, and there was one flush behind each. -/
inductive Served : List Bytes → List StreamEvent → Prop where
  | nil : Served [] []
  | snoc {ps : List Bytes} {es ws : List StreamEvent} {p : Bytes} (h : Served ps es)
      (hw : Writes p ws []) : Served (ps ++ [p]) (es ++ (ws ++ [.flushed]))

/-- The stream failed when it was offered what was left of a payload, or when it was flushed behind it. -/
inductive Failed (payload : Bytes) : List StreamEvent → Prop where
  | write {ws : List StreamEvent} {rest : Bytes} (h : Writes payload ws rest) (hne : rest ≠ []) :
      Failed payload (ws ++ [.failed rest])
  | flush {ws : List StreamEvent} (h : Writes payload ws []) : Failed payload (ws ++ [.flushFailed])

section Spec

variable {p rest : Bytes} {ps : List Bytes} {es ws fs : List StreamEvent}

theorem Writes.taken (h : Writes p ws rest) : takenOf ws ++ rest = p := by
  induction h with
  | nil => rfl
  | took n _ _ _ ih => simpa [StreamEvent.bytes] using ih
  | interrupted _ _ ih => simpa [StreamEvent.bytes] using ih

theorem Writes.plain (h : Writes p ws rest) {e : StreamEvent} (he : e ∈ ws) :
    e.failure = false ∧ e ≠ .flushed ∧ e ≠ .dropped := by
  induction h with
  | nil => cases he
  | took _ _ _ _ ih | interrupted _ _ ih =>
    rcases List.mem_append.1 he with he | he
    · exact ih he
    · rw [List.mem_singleton.1 he]
      exact ⟨rfl, nofun, nofun⟩

theorem Served.taken (h : Served ps es) : takenOf es = ps.flatten := by
  induction h with
  | nil => rfl
  | snoc _ hw ih =>
    have hall := hw.taken
    rw [List.append_nil] at hall
    simp [ih, hall, StreamEvent.bytes]

theorem Served.plain (h : Served ps es) {e : StreamEvent} (he : e ∈ es) :
    e.failure = false ∧ e ≠ .dropped := by
  induction h with
  | nil => cases he
  | snoc _ hw ih =>
    rcases List.mem_append.1 he with he | he
    · exact ih he
    · rcases List.mem_append.1 he with he | he
      · exact ⟨(hw.plain he).1, (hw.plain he).2.2⟩
      · rw [List.mem_singleton.1 he]
        exact ⟨rfl, nofun⟩

/-- One flush for each payload, those that are empty included. -/
theorem Served.count_flushed (h : Served ps es) : es.count .flushed = ps.length := by
  induction h with
  | nil => rfl
  | snoc _ hw ih =>
    have hnone : List.count StreamEvent.flushed _ = 0 :=
      List.count_eq_zero.2 fun he => (hw.plain he).2.1 rfl
    simp [ih, hnone]

theorem Failed.taken (h : Failed p fs) : takenOf fs <+: p := by
  cases h with
  | write hw => exact ⟨_, by simpa [StreamEvent.bytes] using hw.taken⟩
  | flush hw => exact ⟨[], by simpa [StreamEvent.bytes] using hw.taken⟩

/-- The failure is the last that the stream sees of the payload. -/
theorem Failed.exists_failure (h : Failed p fs) :
    ∃ ws e, fs = ws ++ [e] ∧ e.failure = true ∧ ∀ e ∈ ws, e.failure = false := by
  cases h with
  | write hw | flush hw => exact ⟨_, _, rfl, rfl, fun e he => (hw.plain he).1⟩

end Spec

/-! ## The machine -/

inductive Errand where
  /-- To ask whether the input is open. -/
  | ask
  | send (payload : Bytes)
  deriving DecidableEq, Repr

inductive CallStage where
  /-- Is about to look whether the writer has stopped. -/
  | first
  /-- Is about to look whether the input was closed. -/
  | second
  /-- Is about to hand its payload over. -/
  | third
  deriving DecidableEq, Repr

structure InputCall where
  errand : Errand
  /-- The input was not open when the call was begun. -/
  late : Bool
  stage : CallStage := .first
  deriving DecidableEq, Repr

inductive Reply where
  | told (isOpen : Bool)
  | accepted (payload : Bytes)
  | refused (payload : Bytes)
  deriving DecidableEq, Repr

structure InputAnswer where
  /-- The input was not open when the call was begun. -/
  late : Bool
  reply : Reply
  deriving DecidableEq, Repr

/-- What a call is answered by input that is not open. -/
def Errand.no : Errand → Reply
  | ask => .told false
  | send payload => .refused payload

/-- The payload that was accepted, if one was. -/
def Reply.accepted? : Reply → Option Bytes
  | accepted payload => some payload
  | told _ | refused _ => none

namespace InputChannel

/-- A payload is put into the queue if the input was not closed and the writer has not let go of the
queue.
mirrors session/stdin:63-67 -/
def handOver? (c : InputChannel) (payload : Bytes) : Option InputChannel :=
  if c.accepting = true ∧ c.phase ≠ .gone then some { c with queue := c.queue ++ [payload] } else none

/-- What the stream sees of a step of the writer. -/
def event? (c : InputChannel) (s : WriterStep) : Option StreamEvent :=
  match s, c.phase with
  | .took n, .writing rest => some (.took rest n)
  | .writeFailed, .writing rest => some (.failed rest)
  | .flushed, _ => some .flushed
  | .flushFailed, _ => some .flushFailed
  | _, _ => none

end InputChannel

structure Delivery where
  channel : InputChannel := {}
  calls : Nat → Option InputCall := fun _ => none
  /-- The writer holds the stream. -/
  held : Bool := true
  answers : List InputAnswer := []
  events : List StreamEvent := []

namespace Delivery

/-- The payloads that were accepted, in the order of acceptance. -/
def accepted (d : Delivery) : List Bytes := d.answers.filterMap (·.reply.accepted?)

def put (d : Delivery) (i : Nat) (c : Option InputCall) : Delivery :=
  { d with calls := fun j => if j = i then c else d.calls j }

def answer (d : Delivery) (i : Nat) (c : InputCall) (r : Reply) : Delivery :=
  { d.put i none with answers := d.answers ++ [⟨c.late, r⟩] }

/-- A call is begun or makes its next access.
mirrors session/stdin:59-78 -/
inductive Calls : Delivery → Delivery → Prop where
  | enter {d : Delivery} (i : Nat) (e : Errand) (h : d.calls i = none) :
    Calls d (d.put i (some { errand := e, late := !d.channel.isOpen }))
  | close {d : Delivery} : Calls d { d with channel := d.channel.close }
  | goOn {d : Delivery} (i : Nat) (c : InputCall) (h : d.calls i = some c) (hc : c.stage = .first)
      (ho : d.channel.served = true) : Calls d (d.put i (some { c with stage := .second }))
  | stopped {d : Delivery} (i : Nat) (c : InputCall) (h : d.calls i = some c) (hc : c.stage = .first)
      (ho : d.channel.served = false) : Calls d (d.answer i c c.errand.no)
  | tell {d : Delivery} (i : Nat) (c : InputCall) (h : d.calls i = some c) (hc : c.stage = .second)
      (he : c.errand = .ask) : Calls d (d.answer i c (.told d.channel.accepting))
  | allowed {d : Delivery} (i : Nat) (c : InputCall) (payload : Bytes) (h : d.calls i = some c)
      (hc : c.stage = .second) (he : c.errand = .send payload) (ho : d.channel.accepting = true) :
    Calls d (d.put i (some { c with stage := .third }))
  | closed {d : Delivery} (i : Nat) (c : InputCall) (payload : Bytes) (h : d.calls i = some c)
      (hc : c.stage = .second) (he : c.errand = .send payload) (ho : d.channel.accepting = false) :
    Calls d (d.answer i c (.refused payload))
  | accept {d : Delivery} (i : Nat) (c : InputCall) (payload : Bytes) (channel : InputChannel)
      (h : d.calls i = some c) (hc : c.stage = .third) (he : c.errand = .send payload)
      (ho : d.channel.handOver? payload = some channel) :
    Calls d { d.answer i c (.accepted payload) with channel := channel }
  | refuse {d : Delivery} (i : Nat) (c : InputCall) (payload : Bytes) (h : d.calls i = some c)
      (hc : c.stage = .third) (he : c.errand = .send payload)
      (ho : d.channel.handOver? payload = none) : Calls d (d.answer i c (.refused payload))

/-- The writer does what is next. It drops the stream before it lets go of the queue.
mirrors session/stdin:36-45 -/
inductive Works : Delivery → Delivery → Prop where
  | step {d : Delivery} (s : WriterStep) (channel : InputChannel)
      (h : d.channel.step? s = some channel) (hd : s = .drop → d.held = false) :
    Works d { d with channel := channel, events := d.events ++ (d.channel.event? s).toList }
  | interrupted {d : Delivery} (rest : Bytes) (h : d.channel.phase = .writing rest) :
    Works d { d with events := d.events ++ [.interrupted rest] }
  | letGo {d : Delivery} (h : d.channel.phase = .letting) (hd : d.held = true) :
    Works d { d with held := false, events := d.events ++ [.dropped] }

inductive Step : Delivery → Delivery → Prop where
  | calls {d e : Delivery} (h : d.Calls e) : Step d e
  | works {d e : Delivery} (h : d.Works e) : Step d e

abbrev Reaches : Delivery → Delivery → Prop := Relation.ReflTransGen Step

theorem Reaches.keeps {P : Delivery → Prop} (hP : ∀ d e, P d → Step d e → P e) {d e : Delivery}
    (h : Reaches d e) (hd : P d) : P e := by
  induction h with
  | refl => exact hd
  | tail _ hst ih => exact hP _ _ ih hst

end Delivery

end SessionHost
