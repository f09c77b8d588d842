import SessionHost.Proofs.Hall.Capacity

/-!
# A registry with a clock

A session that has finished can still be found for a grace period, until somebody reaps. Two parties read
the clock for that, and both may be held up between reading it and acting on it: a pump reads it before it
notes that its session has finished, and a reap before it asks for the registry. So what they go by may be
in the past when they act.

**The machine.** A `Timed` is a hall with a clock. A reap waits for the registry, then has it for itself
(`Sweep`) and looks at one session after the other, in any order, while pumps, callers and all calls that
do not register a session go on; in the end it takes away at once those that it found expired. Whatever
else happens in the hall is a step of `Hall.Plain`, in which a pump notes the time that it has read. The
registry stays in existence.

**The book.** No step looks into it: the numbers in the order in which they were given out, the sessions
that were taken away, and what each reap has answered.
-/
namespace SessionHost

open scoped List

/-! ## Numbers in use -/

def Call.id? : Call → Option Nat
  | reserved _ => none
  | numbered _ id | registering id => some id

/-- The number that the call had taken which answers. -/
def CreateAnswer.id? : CreateAnswer → Option Nat
  | exhausted _ => none
  | failed _ id _ _ | created id => some id

/-- The number under which a session was registered. -/
def CreateAnswer.created? : CreateAnswer → Option Nat
  | created id => some id
  | exhausted _ | failed .. => none

namespace Hall

/-- The numbers of all calls, those included that have answered. -/
def used (s : Hall) : List Nat := s.calls.filterMap Call.id? ++ s.answers.filterMap CreateAnswer.id?

/-- The numbers under which sessions were registered. -/
def created (s : Hall) : List Nat := s.answers.filterMap CreateAnswer.created?

/-- The numbers under which sessions can be found. -/
def keys (s : Hall) : List Nat := s.registry.entries.map (·.1)

/-- Anybody goes on who neither takes a number nor changes what can be found. `readings` are the times
that pumps have read. -/
inductive Plain (readings : Nat → Option Nat) : Hall → Hall → Prop where
  | arrive {s : Hall} (ho : s.closed = false) : Plain readings s s.arrive
  | fail {s : Hall} (before after : List Call) (slot id : Nat) (program message : String)
      (h : s.calls = before ++ .numbered slot id :: after) :
    Plain readings s (s.fail before after slot id program message)
  | start {s : Hall} (before after : List Call) (slot id : Nat) (mode : Mode) (child : Child)
      (scratch : Option Host.Path) (h : s.calls = before ++ .numbered slot id :: after) :
    Plain readings s (s.start before after slot id mode child scratch)
  | work {s : Hall} (before after : List Room) (room : Room) (t : Scene) (pump : PumpState)
      (h : s.rooms = before ++ room :: after) (hst : room.scene.Step t)
      (hp : room.stopped = true → t.pump = room.scene.pump)
      (hr : t.session.finishedAt = room.scene.session.finishedAt ∨
        t.session.finishedAt = readings room.id) :
    Plain readings s (s.work before after room t pump)
  | stop {s : Hall} (before after : List Room) (room : Room)
      (h : s.rooms = before ++ room :: after) : Plain readings s (s.stop before after room)
  | drop {s : Hall} (before after : List Room) (room : Room)
      (h : s.rooms = before ++ room :: after) (hd : room.IsDone)
      (hu : ∀ p ∈ s.registry.entries, p.1 ≠ room.id) (hc : Call.registering room.id ∉ s.calls) :
    Plain readings s (s.drop before after room)

end Hall

/-! ## The machine -/

structure Sweep where
  /-- What time it was when the reap began. -/
  now : Nat
  /-- How the sessions stood when it came to have the registry for itself. -/
  stood : List (Nat × Session)
  /-- Whom it has not looked at yet. -/
  rest : List Nat
  /-- Whom it has looked at, and how it found them. -/
  looked : List (Nat × Session) := []

/-- The sessions that a reap finds past their grace period. -/
def Sweep.expired (settings : SessionSettings) (w : Sweep) : List (Nat × Session) :=
  w.looked.filter fun p => Registry.isExpired settings w.now p.2

structure Removal where
  id : Nat
  /-- How the reap had found it. -/
  session : Session
  at_ : Nat

structure Reaping where
  sweep : Sweep
  /-- How many sessions it says it has taken away. -/
  count : Nat

structure Timed where
  hall : Hall
  clock : Nat := 0
  /-- What the pump of the session of that number has read, in order to note it. -/
  readings : Nat → Option Nat := fun _ => none
  /-- The reaps that wait for the registry: what time it was when they began. -/
  waiting : List Nat := []
  sweep : Option Sweep := none
  /-- The numbers in the order in which they were given out. -/
  numbers : List Nat := []
  removed : List Removal := []
  reapings : List Reaping := []

/-- The sessions as they stand, with their numbers. -/
def Registry.sessions (r : Registry) : List (Nat × Session) :=
  r.entries.map fun p => (p.1, p.2.session)

/-- Sessions cannot be found any more; gives them. -/
def Registry.remove (r : Registry) (ids : List Nat) : Registry × List (Nat × Entry) :=
  ({ r with entries := r.entries.filter (·.1 ∉ ids) }, r.entries.filter (·.1 ∈ ids))

namespace Timed

/-- A registry in which nothing has happened. -/
def opening (settings : SessionSettings) : Timed where hall := Hall.opening settings

section

variable (s : Timed)

def number (before after : List Call) (slot : Nat) : Timed := { s with
  hall := s.hall.number before after slot
  numbers := s.numbers ++ [s.hall.registry.nextId] }

def register (before after : List Call) (room : Room) (pump : PumpState) : Timed :=
  { s with hall := s.hall.register before after room pump }

/-- The pump of a session reads the clock. -/
def read (id : Nat) : Timed :=
  { s with readings := Function.update s.readings id (some s.clock) }

/-- A reap has the registry for itself.
mirrors session/registry:82-86 -/
def acquire (before after : List Nat) (now : Nat) : Timed := { s with
  waiting := before ++ after
  sweep := some { now, stood := s.hall.registry.sessions, rest := s.hall.keys } }

/-- A reap looks at a session.
mirrors session/registry:87-95 -/
def look (w : Sweep) (before after : List Nat) (id : Nat) (x : Session) : Timed := { s with
  sweep := some { w with rest := before ++ after, looked := w.looked ++ [(id, x)] } }

/-- A reap takes away those it found expired, and answers how many they were.
mirrors session/registry:96-108 -/
def remove (w : Sweep) : Timed :=
  let expired := w.expired s.hall.registry.settings
  let (registry, entries) := s.hall.registry.remove (expired.map (·.1))
  { s with
    hall := { s.hall with registry }
    sweep := none
    removed := s.removed ++ expired.map fun p => ⟨p.1, p.2, s.clock⟩
    reapings := s.reapings ++ [⟨w, entries.length⟩] }

end

/-- Time passes, or anybody does what is next. -/
inductive Step : Timed → Timed → Prop where
  | tick {s : Timed} (now : Nat) (h : s.clock ≤ now) : Step s { s with clock := now }
  | plain {s : Timed} (t : Hall) (h : s.hall.Plain s.readings t) : Step s { s with hall := t }
  | number {s : Timed} (before after : List Call) (slot : Nat)
      (h : s.hall.calls = before ++ .reserved slot :: after) : Step s (s.number before after slot)
  | register {s : Timed} (before after : List Call) (room : Room) (pump : PumpState)
      (free : s.sweep = none) (h : s.hall.calls = before ++ .registering room.id :: after)
      (hr : room ∈ s.hall.rooms) : Step s (s.register before after room pump)
  | read {s : Timed} (room : Room) (e : ExitInfo) (rest : List FinishStep)
      (hr : room ∈ s.hall.rooms) (hp : room.scene.pump = .finishing e (.stamp :: rest))
      (hs : room.stopped = false) (hn : s.readings room.id = none) : Step s (s.read room.id)
  -- a reap
  | reap {s : Timed} : Step s { s with waiting := s.waiting ++ [s.clock] }
  | acquire {s : Timed} (before after : List Nat) (now : Nat)
      (h : s.waiting = before ++ now :: after) (free : s.sweep = none) :
    Step s (s.acquire before after now)
  | look {s : Timed} (w : Sweep) (before after : List Nat) (id : Nat) (e : Entry)
      (h : s.sweep = some w) (hr : w.rest = before ++ id :: after)
      (he : (id, e) ∈ s.hall.registry.entries) : Step s (s.look w before after id e.session)
  | remove {s : Timed} (w : Sweep) (h : s.sweep = some w) (hr : w.rest = []) :
    Step s (s.remove w)

abbrev Reaches : Timed → Timed → Prop := Relation.ReflTransGen Step

theorem Reaches.keeps {P : Timed → Prop} (hP : ∀ s t, P s → Step s t → P t) {s t : Timed}
    (h : Reaches s t) (hs : P s) : P t := by
  induction h with
  | refl => exact hs
  | tail _ hst ih => exact hP _ _ ih hst

end Timed

/-! ## What a step does -/

namespace Hall

variable {s t : Hall} {readings : Nat → Option Nat}

theorem Plain.step (h : Plain readings s t) : Step s t := by
  cases h with
  | arrive ho => exact .arrive ho
  | fail before after slot id program message h => exact .fail before after slot id program message h
  | start before after slot id mode child scratch h =>
    exact .start before after slot id mode child scratch h
  | work before after room t pump h hst hp => exact .work before after room t pump h hst hp
  | stop before after room h => exact .stop before after room h
  | drop before after room h hd hu hc => exact .drop before after room h hd hu hc

theorem Plain.alone {room : Room} {t : Scene} (h : s.rooms = [room]) (hr : room.stopped = false)
    (hst : room.scene.Step t) (hf : t.session.finishedAt = room.scene.session.finishedAt ∨
      t.session.finishedAt = readings room.id) : Plain readings s (s.work [] [] room t .finished) :=
  .work [] [] room t .finished h hst (fun hs => by rw [hr] at hs; cases hs) hf

structure Keeps (s t : Hall) : Prop where
  used : t.used ~ s.used
  created : t.created = s.created
  keys : t.keys = s.keys
  next : t.registry.nextId = s.registry.nextId
  numbered : ∀ slot id, .numbered slot id ∈ t.calls → .numbered slot id ∈ s.calls

theorem Plain.keeps (h : Plain readings s t) : Keeps s t := by
  cases h with
  | arrive =>
    rw [arrive_eq]
    split
    · refine ⟨?_, rfl, rfl, rfl, fun slot id hid => by simpa using hid⟩
      simp [Hall.used, List.filterMap_cons, Call.id?]
    · refine ⟨?_, ?_, rfl, rfl, fun _ _ hid => hid⟩
      · simp [Hall.used, List.filterMap_cons, CreateAnswer.id?]
      · simp [Hall.created, List.filterMap_cons, CreateAnswer.created?]
  | fail before after slot id program message h =>
    refine ⟨?_, ?_, rfl, rfl, fun slot id hid => ?_⟩
    · simp only [Hall.used, Hall.fail, h, List.filterMap_append, List.filterMap_cons,
        List.filterMap_nil, Call.id?, CreateAnswer.id?, List.append_assoc, List.cons_append]
      refine List.Perm.append_left _ ?_
      rw [← List.append_assoc]
      exact List.perm_append_singleton ..
    · simp [Hall.created, Hall.fail, List.filterMap_cons, CreateAnswer.created?]
    · rw [h]
      exact List.Sublist.mem hid ((List.sublist_cons_self ..).append_left before)
  | start before after slot id mode child scratch h =>
    refine ⟨?_, rfl, rfl, rfl, fun slot id hid => ?_⟩
    · simp [Hall.used, Hall.start, h, Call.id?]
    · rw [h]
      simp only [Hall.start, List.mem_append, List.mem_cons, reduceCtorEq, false_or] at hid
      exact hid.elim (List.mem_append_left _) fun hid => List.mem_append_right _ (.tail _ hid)
  | work before after room t pump h =>
    refine ⟨.refl _, rfl, ?_, ?_, fun _ _ hid => hid⟩
    · simp only [Hall.keys, entries_work]
      exact Registry.numbers_put ..
    · simp only [Hall.work]
      split <;> rfl
  | stop => exact ⟨.refl _, rfl, rfl, rfl, fun _ _ hid => hid⟩
  | drop =>
    refine ⟨.refl _, rfl, ?_, ?_, fun _ _ hid => hid⟩
    · simp only [Hall.keys, entries_drop]
    · simp only [Hall.drop]
      split <;> rfl

end Hall

/-- A session as it was, or after a step, in which its pump may have noted the time that it has read. -/
structure Room.Follows (readings : Nat → Option Nat) (r r' : Room) : Prop where
  id : r'.id = r.id
  slot : r'.slot = r.slot
  scene : Relation.ReflGen Scene.Step r.scene r'.scene
  stamp : r'.scene.session.finishedAt = r.scene.session.finishedAt ∨
    r'.scene.session.finishedAt = readings r.id

/-- A session has just been started by a call with this number. -/
def Hall.Starts (s : Hall) (r : Room) : Prop :=
  (∃ slot, .numbered slot r.id ∈ s.calls) ∧ r.scene.session.finishedAt = none

theorem Room.Follows.refl (readings : Nat → Option Nat) (r : Room) : r.Follows readings r :=
  ⟨rfl, rfl, .refl, Or.inl rfl⟩

theorem Hall.Plain.room {s t : Hall} {readings : Nat → Option Nat} (h : Plain readings s t) {r' : Room}
    (hr : r' ∈ t.rooms) : (∃ r ∈ s.rooms, r.Follows readings r') ∨ s.Starts r' := by
  have stays : r' ∈ s.rooms → (∃ r ∈ s.rooms, r.Follows readings r') ∨ s.Starts r' :=
    fun hr => Or.inl ⟨r', hr, .refl readings r'⟩
  cases h with
  | arrive =>
    rw [arrive_eq] at hr
    split at hr <;> exact stays hr
  | fail => exact stays hr
  | start before after slot id mode child scratch h =>
    rcases List.mem_append.1 hr with hr | hr
    · exact stays hr
    · rw [List.mem_singleton.1 hr]
      exact Or.inr ⟨⟨slot, by rw [h]; simp⟩, rfl⟩
  | work before after room t pump h hst hp hstamp =>
    rcases mem_middle.1 hr with rfl | hr
    · exact Or.inl ⟨room, h ▸ mem_middle.2 (Or.inl rfl), rfl, rfl, .single hst, hstamp⟩
    · exact stays (h ▸ mem_middle.2 (Or.inr hr))
  | stop before after room h =>
    rcases mem_middle.1 hr with rfl | hr
    · exact Or.inl ⟨room, h ▸ mem_middle.2 (Or.inl rfl), rfl, rfl, .refl, Or.inl rfl⟩
    · exact stays (h ▸ mem_middle.2 (Or.inr hr))
  | drop before after room h => exact stays (h ▸ mem_middle.2 (Or.inr hr))

namespace Timed

variable {s t : Timed}

structure Advances (s t : Timed) : Prop where
  clock : s.clock ≤ t.clock
  next : s.hall.registry.nextId ≤ t.hall.registry.nextId
  created : s.hall.created ⊆ t.hall.created
  removed : s.removed <+: t.removed
  room : ∀ r' ∈ t.hall.rooms, (∃ r ∈ s.hall.rooms, r.Follows s.readings r') ∨ s.hall.Starts r'
  numbered : ∀ slot id, .numbered slot id ∈ t.hall.calls →
    .numbered slot id ∈ s.hall.calls ∨ id = s.hall.registry.nextId

theorem Step.advances (hst : Step s t) : Advances s t := by
  have stays : ∀ r' ∈ s.hall.rooms, (∃ r ∈ s.hall.rooms, r.Follows s.readings r') ∨ s.hall.Starts r' :=
    fun r' hr => Or.inl ⟨r', hr, .refl _ r'⟩
  cases hst with
  | tick now h => exact ⟨h, Nat.le_refl _, .refl _, List.prefix_rfl, stays, fun _ _ => Or.inl⟩
  | plain t h =>
    have hk := h.keeps
    exact ⟨Nat.le_refl _, hk.next.ge, hk.created ▸ .refl _, List.prefix_rfl, fun _ hr => h.room hr,
      fun slot id hid => Or.inl (hk.numbered slot id hid)⟩
  | number before after slot h =>
    refine ⟨Nat.le_refl _, Nat.le_succ _, .refl _, List.prefix_rfl, stays, fun slot' id hid => ?_⟩
    simp only [Timed.number, Hall.number, List.mem_append, List.mem_cons, Call.numbered.injEq] at hid
    rw [h]
    rcases hid with hid | ⟨-, rfl⟩ | hid
    · exact Or.inl (List.mem_append_left _ hid)
    · exact Or.inr rfl
    · exact Or.inl (List.mem_append_right _ (.tail _ hid))
  | register before after room pump free h hr =>
    refine ⟨Nat.le_refl _, Nat.le_refl _, ?_, List.prefix_rfl, stays, fun slot id hid => Or.inl ?_⟩
    · intro id hid
      obtain ⟨a, ha, hid⟩ := List.mem_filterMap.1 hid
      exact List.mem_filterMap.2 ⟨a, List.mem_append_left _ ha, hid⟩
    · rw [h]
      exact List.Sublist.mem hid ((List.sublist_cons_self ..).append_left before)
  | remove =>
    exact ⟨Nat.le_refl _, Nat.le_refl _, .refl _, List.prefix_append .., stays, fun _ _ => Or.inl⟩
  | read | reap | acquire | look =>
    exact ⟨Nat.le_refl _, Nat.le_refl _, .refl _, List.prefix_rfl, stays, fun _ _ => Or.inl⟩

theorem removed_of_reaches (h : s.Reaches t) : s.removed <+: t.removed := by
  induction h with
  | refl => exact List.prefix_rfl
  | tail _ hst ih => exact ih.trans hst.advances.removed

end Timed

end SessionHost
