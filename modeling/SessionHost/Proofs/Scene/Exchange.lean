import SessionHost.Proofs.Scene.Refusal

/-!
# A conversation, and who notices that it is somebody's turn

A program that converses is taken to wait when it has said something since it was last spoken to and then
nothing for a while. What was said is kept in one flag. A caller who sends input queues the payload, takes
the flag back and moves the session, in three steps; the pump takes output in and sets the flag, in two. The
program may answer as soon as the payload is queued.

**The machine.** An `Exchange` is a `Scene` of an interactive session together with what the program has
printed. Each byte is known with the number of payloads that were queued when it was printed, so it can be
told whether output is an answer to the last of them. Everybody in the scene acts as there; the pump takes
in what was printed, and it counts how often nothing came for a while.

**Hypotheses.** All callers who send have returned, the last byte that was taken in was printed when the
last payload was queued, and from then on nothing is sent and nothing arrives. The session is not terminal
and its program is not known to have ended.

**Results.**
* `Sound.flag`: the flag tells that there was an answer unless the pump has set it while a caller had still
  to take it back (`Exchange.overtaken`).
* `noticed`: after the next stall the session waits for input if nobody was overtaken; if somebody was, no
  stall ever changes its state.
* `answer_overtakes_note`: the program answers at once, and nobody notices.
-/
namespace SessionHost

/-- A caller at this point has queued a payload and has still to note that input was sent. -/
def Task.owes : Task → Bool
  | .sending (.noting _) => true
  | _ => false

/-- A caller at this point has queued a payload and is not done with it. -/
def Task.isLate : Task → Bool
  | .sending (.noting _) | .sending (.moving ..) => true
  | _ => false

theorem Task.isLate_of_owes {x : Task} (h : x.owes = true) : x.isLate = true := by
  unfold owes at h
  split at h
  · rfl
  · cases h

theorem Task.isLate_afterPoll (route : Bool) (r : Except SessionError Poll) :
    (Task.afterPoll route r).isLate = false := by
  unfold afterPoll
  repeat' split
  all_goals rfl

theorem Task.isLate_afterKill (route : Bool) (e : ExitInfo) :
    (Task.afterKill route e).isLate = false := by
  unfold afterKill
  split <;> rfl

/-- The pump neither waits nor is about to note output. -/
def PumpTask.atWork : PumpTask → Bool
  | .reading | .marking _ => false
  | .reacting _ | .offering .. | .pushing .. | .moving .. | .stalling | .finishing .. => true

theorem InputChannel.length_queue_lt {c d : InputChannel} {bs : Bytes} (h : c.send? bs = some d) :
    c.queue.length < d.queue.length := by
  unfold send? at h
  split at h <;> cases h
  simp

namespace Scene

variable {s t : Scene}

/-! ## What a step does to the flag -/

def Feeds (s t : Scene) : Prop :=
  s.session.child.input.queue.length < t.session.child.input.queue.length

/-- Nobody queues a payload. The flag stays, or is taken back by a caller who had to. -/
structure Unfed (s t : Scene) : Prop where
  late : ∀ j, (t.task j).isLate = true → (s.task j).isLate = true
  flag : t.session.outputSinceInput = s.session.outputSinceInput ∧
      (∀ j, (t.task j).owes = (s.task j).owes) ∨
    t.session.outputSinceInput = false ∧ ∃ j, (s.task j).owes = true

/-- Somebody acts who is not the pump, and queues no payload. Only a caller who has queued one moves a
session that goes on. -/
structure Beside (s t : Scene) : Prop extends Unfed s t where
  pump : t.pump = s.pump
  arrived : t.arrived = s.arrived
  state : t.session.state = s.session.state ∨ t.session.state.isTerminal = true ∨
    ∃ j, (s.task j).isLate = true

/-- Nothing happens that matters to the flag, apart from what callers are about. -/
structure Alike (s t : Scene) : Prop where
  task : t.task = s.task
  flag : t.session.outputSinceInput = s.session.outputSinceInput
  pump : t.pump = s.pump
  arrived : t.arrived = s.arrived
  state : t.session.state = s.session.state ∨ t.session.state.isTerminal = true ∨
    ∃ j, (s.task j).isLate = true

theorem Alike.beside (h : Alike s t) : Beside s t where
  late j hj := by rw [← h.task]; exact hj
  flag := Or.inl ⟨h.flag, fun j => by rw [h.task]⟩
  pump := h.pump
  arrived := h.arrived
  state := h.state

theorem late_put {i : Nat} {x : Task} (hx : x.isLate = true → (s.task i).isLate = true) (j : Nat)
    (hj : ((s.put i x).task j).isLate = true) : (s.task j).isLate = true := by
  by_cases hji : j = i
  · subst hji
    rw [task_put_self] at hj
    exact hx hj
  · rwa [task_put_of_ne s x hji] at hj

/-- A caller goes on who owes nothing, and has nothing queued then. -/
theorem Alike.put (h : Alike s t) {i : Nat} {x : Task} (ho : (s.task i).owes = false)
    (hx : x.isLate = false) : Beside s (t.put i x) := by
  have howes : x.owes = false := by
    rw [Bool.eq_false_iff]
    intro hx'
    rw [Task.isLate_of_owes hx'] at hx
    cases hx
  refine ⟨⟨fun j hj => ?_, Or.inl ⟨h.flag, fun j => ?_⟩⟩, h.pump, h.arrived, h.state⟩
  · rw [← h.task]
    exact late_put (fun hl => by rw [hx] at hl; cases hl) j hj
  · by_cases hj : j = i
    · subst hj
      rw [task_put_self, howes, ho]
    · rw [task_put_of_ne t x hj, h.task]

theorem ReadStep.beside (h : ReadStep s t) : Beside s t := by
  cases h with
  | readSince => exact Alike.beside ⟨rfl, rfl, rfl, rfl, Or.inl rfl⟩
  | takeOwn | store =>
    refine Alike.put ?_ ?_ (Task.isLate_afterPoll ..)
    · exact ⟨rfl, rfl, rfl, rfl, Or.inl rfl⟩
    · simp [Task.owes, *]
  | _ =>
    refine Alike.put ?_ ?_ rfl
    · exact ⟨rfl, rfl, rfl, rfl, Or.inl rfl⟩
    · simp [Task.owes, *]

theorem TellStep.beside (h : TellStep s t) : Beside s t := by
  cases h with
  | readExit | readState => exact Alike.beside ⟨rfl, rfl, rfl, rfl, Or.inl rfl⟩
  | _ =>
    refine Alike.put ?_ ?_ rfl
    · exact ⟨rfl, rfl, rfl, rfl, Or.inl rfl⟩
    · simp [Task.owes, *]

theorem WorldStep.beside (h : WorldStep s t) : Beside s t := by
  cases h <;> exact Alike.beside ⟨rfl, rfl, rfl, rfl, Or.inl rfl⟩

theorem KillStep.beside (h : KillStep s t) : Beside s t := by
  cases h with
  | move i route e hi =>
    refine Alike.put ?_ ?_ (Task.isLate_afterKill ..)
    · refine ⟨rfl, rfl, rfl, rfl, ?_⟩
      show s.session.state.moveTo e.terminalState = s.session.state ∨
        (s.session.state.moveTo e.terminalState).isTerminal = true ∨ _
      unfold SessionState.moveTo
      split
      · exact Or.inr (Or.inl e.isTerminal_terminalState)
      · exact Or.inl rfl
    · simp [Task.owes, hi]
  | _ =>
    refine Alike.put ?_ ?_ rfl
    · exact ⟨rfl, rfl, rfl, rfl, Or.inl rfl⟩
    · simp [Task.owes, *]

theorem SendStep.feeds_or_beside (h : SendStep s t) : Feeds s t ∨ Beside s t := by
  cases h with
  | closeInput => exact Or.inr (Alike.beside ⟨rfl, rfl, rfl, rfl, Or.inl rfl⟩)
  | push i paced bytes rest input hi hsend => exact Or.inl (InputChannel.length_queue_lt hsend)
  | note i rest hi =>
    refine Or.inr ⟨⟨fun j hj => ?_, Or.inr ⟨rfl, i, ?_⟩⟩, rfl, rfl, Or.inl rfl⟩
    · exact late_put (fun _ => by simp [hi, Task.isLate]) j hj
    · simp [hi, Task.owes]
  | move i paced rest hi =>
    have hlate : (s.task i).isLate = true := by simp [hi, Task.isLate]
    refine Or.inr (Alike.put ?_ ?_ rfl)
    · cases paced <;> exact ⟨rfl, rfl, rfl, rfl, Or.inr (Or.inr ⟨i, hlate⟩)⟩
    · simp [Task.owes, hi]
  | exited i paced _ _ hi | closed i paced _ _ hi =>
    refine Or.inr (Alike.put ?_ ?_ rfl)
    · cases paced <;> exact ⟨rfl, rfl, rfl, rfl, Or.inl rfl⟩
    · simp [Task.owes, hi]
  | submit i payload hi =>
    refine Or.inr (Alike.put ?_ ?_ ?_)
    · exact ⟨rfl, rfl, rfl, rfl, Or.inl rfl⟩
    · simp [Task.owes, hi]
    · unfold Session.beginInput
      split <;> rfl
  | _ =>
    refine Or.inr (Alike.put ?_ ?_ rfl)
    · exact ⟨rfl, rfl, rfl, rfl, Or.inl rfl⟩
    · simp [Task.owes, *]

theorem PumpStep.feeds_or_unfed (h : PumpStep s t) (hm : ∀ chunk, s.pump ≠ .marking chunk) :
    Feeds s t ∨ Unfed s t := by
  cases h with
  | mark chunk hp => exact absurd hp (hm chunk)
  | push bytes prompt input hp hsend => exact Or.inl (InputChannel.length_queue_lt hsend)
  | move prompt paced =>
    cases paced <;> exact Or.inr ⟨fun _ h => h, Or.inl ⟨rfl, fun _ => rfl⟩⟩
  | finish e f => cases f <;> exact Or.inr ⟨fun _ h => h, Or.inl ⟨rfl, fun _ => rfl⟩⟩
  | _ => exact Or.inr ⟨fun _ h => h, Or.inl ⟨rfl, fun _ => rfl⟩⟩

/-- A pump that waits for output is not about to note any. -/
theorem ne_marking_of_reading (h : s.pump = .reading) (chunk : Bytes) : s.pump ≠ .marking chunk := by
  rw [h]
  exact nofun

/-- A pump that was busy does not come to note output. -/
theorem PumpStep.ne_marking (h : PumpStep s t) (busy : s.pump ≠ .reading) (chunk : Bytes) :
    t.pump ≠ .marking chunk := by
  cases h with
  | arrive _ hp => exact absurd hp busy
  | move prompt paced => cases paced <;> exact nofun
  | _ => exact nofun

theorem StepBetween.cases (h : StepBetween s t) :
    Feeds s t ∨ Beside s t ∨ s.pump ≠ .reading ∧ PumpStep s t := by
  cases h with
  | read h => exact Or.inr (Or.inl h.beside)
  | kill h => exact Or.inr (Or.inl h.beside)
  | tell h => exact Or.inr (Or.inl h.beside)
  | world h => exact Or.inr (Or.inl h.beside)
  | send h => exact h.feeds_or_beside.imp_right Or.inl
  | pump busy h => exact Or.inr (Or.inr ⟨busy, h⟩)

/-- Nobody but the pump sets the flag. -/
theorem StepBetween.feeds_or_unfed (h : StepBetween s t)
    (hm : ∀ chunk, s.pump = .marking chunk → t.pump = .marking chunk) : Feeds s t ∨ Unfed s t := by
  rcases h.cases with hfeeds | hbeside | ⟨busy, hpump⟩
  · exact Or.inl hfeeds
  · exact Or.inr hbeside.toUnfed
  · exact hpump.feeds_or_unfed fun chunk hp => hpump.ne_marking busy chunk (hm chunk hp)

theorem Step.arrived (h : Step s t) : s.arrived <+: t.arrived := by
  cases h with
  | read h => exact h.beside.arrived ▸ List.prefix_rfl
  | kill h => exact h.beside.arrived ▸ List.prefix_rfl
  | tell h => exact h.beside.arrived ▸ List.prefix_rfl
  | world h => exact h.beside.arrived ▸ List.prefix_rfl
  | send h =>
    cases h with
    | exited i paced | closed i paced | move i paced => cases paced <;> exact List.prefix_rfl
    | _ => exact List.prefix_rfl
  | pump h =>
    cases h with
    | arrive chunk => exact List.prefix_append ..
    | move prompt paced => cases paced <;> exact List.prefix_rfl
    | _ => exact List.prefix_rfl

end Scene

/-! ## The machine -/

/-- An interactive session with those who are at work on it, and what its program has printed. -/
structure Exchange where
  scene : Scene
  /-- What was printed and has not been taken in. With each byte is the number of payloads that were queued
  when it was printed. -/
  flight : List (UInt8 × Nat) := []
  /-- How many payloads were queued. -/
  sent : Nat := 0
  /-- This many payloads were queued when the last byte was printed that was taken in. -/
  last : Option Nat := none
  /-- Who had a payload queued, and still to note it, when the pump set the flag for the last time. -/
  overtaken : Nat → Bool := fun _ => false
  /-- How often nothing came for a while. -/
  stalls : Nat := 0

namespace Exchange

/-- The session of a program that has just been started. -/
def start (child : Child) (settings : SessionSettings) (scratch : Option Host.Path) : Exchange where
  scene := Scene.start .interactive child settings scratch

/-- The scene changes, and a payload may have been queued. -/
def go (x : Exchange) (t : Scene) : Exchange :=
  { x with
    scene := t
    sent := x.sent +
      (t.session.child.input.queue.length - x.scene.session.child.input.queue.length) }

/-- One step. The pump takes in what was printed, in whichever pieces. -/
inductive Step : Exchange → Exchange → Prop where
  | print {x : Exchange} (bs : Bytes) :
    Step x { x with flight := x.flight ++ bs.map fun b => (b, x.sent) }
  | arrive {x : Exchange} (taken rest : List (UInt8 × Nat)) (hne : taken ≠ [])
      (hf : x.flight = taken ++ rest) (h : x.scene.pump = .reading) :
    Step x { x with
      scene := { x.scene with
        session := { x.scene.session with log := x.scene.session.log.append (taken.map Prod.fst) }
        arrived := x.scene.arrived ++ [taken.map Prod.fst]
        pump := .marking (taken.map Prod.fst) }
      flight := rest
      last := some (taken.getLast hne).2 }
  | mark {x : Exchange} (chunk : Bytes) (h : x.scene.pump = .marking chunk) :
    Step x { x with
      scene := { x.scene with
        session := { x.scene.session with outputSinceInput := true }, pump := .reacting chunk }
      overtaken := fun i => (x.scene.task i).owes }
  | stall {x : Exchange} (h : x.scene.pump = .reading) (hm : x.scene.session.mode = .interactive)
      (ho : x.scene.session.outputSinceInput = true) :
    Step x { x with scene := { x.scene with pump := .stalling }, stalls := x.stalls + 1 }
  | unheeded {x : Exchange} (h : x.scene.pump = .reading)
      (hn : ¬ (x.scene.session.mode = .interactive ∧ x.scene.session.outputSinceInput = true)) :
    Step x { x with stalls := x.stalls + 1 }
  | finish {x : Exchange} (e : ExitInfo) (h : x.scene.pump = .reading) :
    Step x { x with scene := { x.scene with pump := .finishing e FinishStep.all } }
  | goOn {x : Exchange} (t : Scene) (h : x.scene.StepBetween t)
      (hm : ∀ chunk, x.scene.pump = .marking chunk → t.pump = .marking chunk) :
    Step x (x.go t)

abbrev Reaches : Exchange → Exchange → Prop := Relation.ReflTransGen Step

variable {x y z : Exchange}

theorem Step.sends {t : Scene} (h : x.scene.SendStep t) (hp : t.pump = x.scene.pump) :
    Step x (x.go t) :=
  .goOn t (.send h) fun _ hc => hp.trans hc

theorem Step.pumps {t : Scene} (h : x.scene.PumpStep t) (hw : x.scene.pump.atWork = true) :
    Step x (x.go t) := by
  refine .goOn t (.pump (fun hr => ?_) h) fun chunk hm => ?_
  · rw [hr] at hw
    cases hw
  · rw [hm] at hw
    cases hw

/-- Nothing happens in the scene that could not happen there. -/
theorem Step.scene (h : Step x y) : x.scene.Reaches y.scene := by
  cases h with
  | print | unheeded => exact .refl
  | arrive taken rest hne hf hp => exact .single (.pump (.arrive _ hp))
  | mark chunk hp => exact .single (.pump (.mark chunk hp))
  | stall hp hm ho => exact .single (.pump (.stall hp hm ho))
  | finish e hp => exact .single (.pump (.beginFinish e hp))
  | goOn t ht => exact .single ht.step

theorem Reaches.scene (h : x.Reaches y) : x.scene.Reaches y.scene := by
  induction h with
  | refl => exact .refl
  | tail _ hst ih => exact ih.trans hst.scene

theorem Step.sent_le (h : Step x y) : x.sent ≤ y.sent := by
  cases h with
  | goOn t => exact Nat.le_add_right ..
  | _ => exact Nat.le_refl _

theorem Reaches.sent_le (h : x.Reaches y) : x.sent ≤ y.sent := by
  induction h with
  | refl => exact Nat.le_refl _
  | tail _ hst ih => exact Nat.le_trans ih hst.sent_le

/-! ## What the flag tells -/

structure Sound (x : Exchange) : Prop where
  flight : ∀ p ∈ x.flight, p.2 ≤ x.sent
  last : ∀ n, x.last = some n → n ≤ x.sent
  /-- When the last byte was an answer to the last payload, the flag is set, unless somebody has taken it
  back who had not done so when the pump set it. -/
  flag : x.last = some x.sent → (∀ chunk, x.scene.pump ≠ .marking chunk) →
    x.scene.session.outputSinceInput = true ∧ (∀ j, (x.scene.task j).owes = x.overtaken j) ∨
      x.scene.session.outputSinceInput = false ∧ ∃ j, x.overtaken j = true

theorem sound_start (child : Child) (settings : SessionSettings) (scratch : Option Host.Path) :
    Sound (start child settings scratch) where
  flight _ h := by cases h
  last _ h := by cases h
  flag h := by cases h

/-- A payload is queued, and so there is no answer to the last one. -/
theorem Sound.of_feeds (h : Sound x) {t : Scene} (ht : x.scene.Feeds t) : Sound (x.go t) := by
  have hsent : x.sent < (x.go t).sent := by
    show x.sent < x.sent + (_ - _)
    have := ht
    unfold Scene.Feeds at this
    omega
  refine ⟨fun p hp => ?_, fun n hn => ?_, fun hl => ?_⟩
  · exact Nat.le_trans (h.flight p hp) (Nat.le_of_lt hsent)
  · exact Nat.le_trans (h.last n hn) (Nat.le_of_lt hsent)
  · exact absurd (h.last _ hl) (Nat.not_le.2 hsent)

theorem sent_go_of_not_feeds {t : Scene} (ht : ¬ x.scene.Feeds t) : (x.go t).sent = x.sent := by
  show x.sent + (_ - _) = x.sent
  unfold Scene.Feeds at ht
  omega

theorem Sound.of_unfed (h : Sound x) {t : Scene} (ht : x.scene.Unfed t)
    (hm : ∀ chunk, x.scene.pump = .marking chunk → t.pump = .marking chunk) : Sound (x.go t) := by
  by_cases hfeeds : x.scene.Feeds t
  · exact h.of_feeds hfeeds
  · have hsent := sent_go_of_not_feeds hfeeds
    refine ⟨?_, ?_, fun hl hmark => ?_⟩
    · rw [hsent]
      exact h.flight
    · rw [hsent]
      exact h.last
    · rw [hsent] at hl
      have hbefore := h.flag hl fun chunk hc => hmark chunk (hm chunk hc)
      rcases ht.flag with ⟨hflag, howes⟩ | ⟨hflag, j, hj⟩
      · rcases hbefore with ⟨hset, hsame⟩ | ⟨hunset, hlost⟩
        · exact Or.inl ⟨hflag.trans hset, fun j => (howes j).trans (hsame j)⟩
        · exact Or.inr ⟨hflag.trans hunset, hlost⟩
      · rcases hbefore with ⟨-, hsame⟩ | ⟨-, hlost⟩
        · exact Or.inr ⟨hflag, j, (hsame j).symm.trans hj⟩
        · exact Or.inr ⟨hflag, hlost⟩

theorem Sound.of_step (h : Sound x) (hst : Step x y) : Sound y := by
  cases hst with
  | print bs =>
    refine ⟨fun p hp => ?_, h.last, h.flag⟩
    rcases List.mem_append.1 hp with hp | hp
    · exact h.flight p hp
    · obtain ⟨b, -, rfl⟩ := List.mem_map.1 hp
      exact Nat.le_refl _
  | arrive taken rest hne hf hp =>
    refine ⟨fun p hp => ?_, fun n hn => ?_, fun _ hm => absurd rfl (hm _)⟩
    · exact h.flight p (hf ▸ List.mem_append_right _ hp)
    · rw [← Option.some.inj hn]
      exact h.flight _ (hf ▸ List.mem_append_left _ (List.getLast_mem hne))
  | mark chunk hp => exact ⟨h.flight, h.last, fun _ _ => Or.inl ⟨rfl, fun _ => rfl⟩⟩
  | stall hp | finish e hp =>
    exact ⟨h.flight, h.last, fun hl _ => h.flag hl (Scene.ne_marking_of_reading hp)⟩
  | unheeded hp => exact ⟨h.flight, h.last, h.flag⟩
  | goOn t ht hm =>
    rcases ht.feeds_or_unfed hm with hfeeds | hunfed
    · exact h.of_feeds hfeeds
    · exact h.of_unfed hunfed hm

theorem Sound.of_reaches (h : Sound x) (hr : x.Reaches y) : Sound y := by
  induction hr with
  | refl => exact h
  | tail _ hst ih => exact ih.of_step hst

/-! ## Silence -/

/-- From `x` to `y` nothing is sent and nothing arrives, and the session goes on with its program. -/
structure Silent (x y : Exchange) : Prop where
  reaches : x.Reaches y
  sent : y.sent = x.sent
  arrived : y.scene.arrived = x.scene.arrived
  live : y.scene.session.state.isTerminal = false
  alive : y.scene.session.child.hasExited = false

theorem Silent.before (hz : Silent x z) (hr : x.Reaches y) (hst : Step y z) : Silent x y := by
  have harrived : ∀ {s t : Scene}, s.Reaches t → s.arrived <+: t.arrived := by
    intro s t h
    induction h with
    | refl => exact List.prefix_rfl
    | tail _ hst ih => exact ih.trans hst.arrived
  have hexited : ∀ {s t : Scene}, s.Reaches t → s.session.child.hasExited = true →
      t.session.child.hasExited = true := by
    intro s t h hs
    induction h with
    | refl => exact hs
    | tail _ hst ih => exact hst.hasExited ih
  refine ⟨hr, ?_, ?_, ?_, ?_⟩
  · exact Nat.le_antisymm (hz.sent ▸ hst.sent_le) hr.sent_le
  · have hpre := harrived hst.scene
    rw [hz.arrived] at hpre
    exact hpre.eq_of_length_le (harrived hr.scene).length_le
  · rw [Bool.eq_false_iff]
    intro ht
    have hstate := Scene.state_of_reaches hst.scene ht
    have hlive := hz.live
    rw [hstate, ht] at hlive
    cases hlive
  · rw [Bool.eq_false_iff]
    intro he
    have halive := hz.alive
    rw [hexited hst.scene he] at halive
    cases halive

theorem Silent.self (h : Silent x y) : Silent x x := by
  have hreaches := h.reaches
  induction hreaches with
  | refl => exact h
  | tail hr hst ih => exact ih (h.before hr hst)

/-- What holds at the beginning and is kept in silence holds at the end. -/
theorem Silent.keeps {P : Exchange → Prop} (h : Silent x y) (hx : P x)
    (hP : ∀ y z, Silent x y → Silent x z → Step y z → P y → P z) : P y := by
  have hreaches := h.reaches
  induction hreaches with
  | refl => exact hx
  | tail hr hst ih =>
    have hbefore := h.before hr hst
    exact hP _ _ hbefore h hst (ih hbefore)

/-- Whoever sends has returned, and the last byte that was taken in was printed behind the last payload. -/
structure Settled (x : Exchange) : Prop where
  returned : ∀ i a, x.scene.task i ≠ .sending a
  answered : x.last = some x.sent

theorem Silent.not_feeds (hy : Silent x y) {t : Scene} (hz : Silent x (y.go t)) :
    ¬ y.scene.Feeds t := by
  intro hfeeds
  have hsame := hz.sent.trans hy.sent.symm
  unfold Scene.Feeds at hfeeds
  unfold go at hsame
  dsimp only at hsame
  omega

/-- In silence the pump takes nothing in. -/
theorem Silent.arrived_ne (hy : Silent x y) (hz : Silent x z) (chunk : Bytes) :
    z.scene.arrived ≠ y.scene.arrived ++ [chunk] := by
  rw [hz.arrived, hy.arrived]
  simp

/-- Who has been overtaken does not change any more once the pump has noted what it took in. -/
theorem Silent.overtaken (h : Silent x y) (hx : ∀ chunk, x.scene.pump ≠ .marking chunk) :
    (∀ chunk, y.scene.pump ≠ .marking chunk) ∧ y.overtaken = x.overtaken := by
  refine h.keeps (P := fun y => (∀ chunk, y.scene.pump ≠ .marking chunk) ∧
    y.overtaken = x.overtaken) ⟨hx, rfl⟩ ?_
  rintro y z hy hz hst ⟨hnone, hsame⟩
  cases hst with
  | arrive taken rest hne hf hp => exact absurd rfl (hy.arrived_ne hz _)
  | mark chunk hp => exact absurd hp (hnone chunk)
  | print | unheeded => exact ⟨hnone, hsame⟩
  | stall | finish => exact ⟨nofun, hsame⟩
  | goOn t ht hm =>
    refine ⟨fun chunk hc => ?_, hsame⟩
    rcases ht.cases with hfeeds | hbeside | ⟨busy, hpump⟩
    · exact hy.not_feeds hz hfeeds
    · exact hnone chunk (hbeside.pump.symm.trans hc)
    · exact hpump.ne_marking busy chunk hc

structure Rested (y : Exchange) : Prop where
  done : ∀ j, (y.scene.task j).isLate = false
  answered : y.last = some y.sent

theorem Settled.rested (hx : Settled x) (h : Silent x y) : Rested y := by
  refine h.keeps ⟨fun j => ?_, hx.answered⟩ fun y z hy hz hst hr => ?_
  · cases hj : x.scene.task j with
    | sending a => exact absurd hj (hx.returned j a)
    | _ => rfl
  · cases hst with
    | arrive taken rest hne hf hp => exact absurd rfl (hy.arrived_ne hz _)
    | print | mark | stall | unheeded | finish => exact ⟨hr.done, hr.answered⟩
    | goOn t ht hm =>
      have hnot := hy.not_feeds hz
      have hunfed := (ht.feeds_or_unfed hm).resolve_left hnot
      refine ⟨fun j => ?_, hr.answered.trans (congrArg some (sent_go_of_not_feeds hnot).symm)⟩
      rw [Bool.eq_false_iff]
      intro hj
      have hlate := hunfed.late j hj
      rw [hr.done j] at hlate
      cases hlate

/-- Who acts in silence beside the pump leaves the state alone. -/
theorem Rested.state (hr : Rested y) {t : Scene} (hb : y.scene.Beside t)
    (hlive : t.session.state.isTerminal = false) : t.session.state = y.scene.session.state := by
  rcases hb.state with hsame | hterminal | ⟨j, hj⟩
  · exact hsame
  · rw [hlive] at hterminal
    cases hterminal
  · rw [hr.done j] at hj
    cases hj

theorem Rested.flag (hr : Rested y) (h : Sound y) (hm : ∀ chunk, y.scene.pump ≠ .marking chunk) :
    y.scene.session.outputSinceInput = true ∧ (∀ j, y.overtaken j = false) ∨
      y.scene.session.outputSinceInput = false ∧ ∃ j, y.overtaken j = true := by
  refine (h.flag hr.answered hm).imp_left fun ⟨hset, hsame⟩ => ⟨hset, fun j => ?_⟩
  rw [← hsame j, Bool.eq_false_iff]
  intro ho
  have hlate := Task.isLate_of_owes ho
  rw [hr.done j] at hlate
  cases hlate

/-- If somebody was overtaken, the answer is forgotten. -/
theorem Rested.unset (hr : Rested y) (h : Sound y) (hp : y.scene.pump = .reading)
    (hlost : ∃ j, y.overtaken j = true) : y.scene.session.outputSinceInput = false := by
  obtain ⟨j, hj⟩ := hlost
  rcases hr.flag h (Scene.ne_marking_of_reading hp) with ⟨-, hcalm⟩ | ⟨hunset, -⟩
  · rw [hcalm j] at hj
    cases hj
  · exact hunset

/-! ## A stall that is heeded -/

/-- The pump stands here in a session that it will have moved, or has moved, when `stalls` is more than
`n`. -/
def Heeding (n stalls : Nat) (state : SessionState) : PumpTask → Prop
  | .reading => n < stalls → state = .awaitingInput
  | .stalling | .moving .idle _ | .finishing .. => True
  | .marking _ | .reacting _ | .offering .. | .pushing .. | .moving .busy _ => stalls = n

theorem heeding_moving {n stalls : Nat} (h : stalls = n) (state : SessionState) (prompt : PromptState)
    (paced : Bool) : Heeding n stalls state (.moving prompt paced) := by
  cases prompt with
  | busy => exact h
  | idle => trivial

/-- The pump heeds the stalls behind the first `n`. -/
def Heeds (n : Nat) (y : Exchange) : Prop :=
  Heeding n y.stalls y.scene.session.state y.scene.pump

theorem moveTo_awaitingInput {st : SessionState} (hb : st ≠ .starting) (hl : st.isTerminal = false) :
    st.moveTo .awaitingInput = .awaitingInput := by
  cases st with
  | starting => exact absurd rfl hb
  | running | awaitingInput => rfl
  | exited | killed => cases hl

theorem Heeds.of_beside {n : Nat} (h : Heeds n y) (hr : Rested y) {t : Scene}
    (hb : y.scene.Beside t) (hlive : t.session.state.isTerminal = false) : Heeds n (y.go t) := by
  show Heeding n y.stalls t.session.state t.pump
  rw [hb.pump, hr.state hb hlive]
  exact h

theorem Heeds.of_pump {n : Nat} (h : Heeds n y) (hbegun : y.scene.session.state ≠ .starting)
    (hlive : y.scene.session.state.isTerminal = false)
    (halive : y.scene.session.child.hasExited = false) {t : Scene} (busy : y.scene.pump ≠ .reading)
    (hm : ∀ chunk, y.scene.pump ≠ .marking chunk) (ht : y.scene.PumpStep t) : Heeds n (y.go t) := by
  unfold Heeds at h
  show Heeding n y.stalls t.session.state t.pump
  cases ht with
  | mark chunk hp => exact absurd hp (hm chunk)
  | arrive _ hp | stall hp | beginFinish _ hp => exact absurd hp busy
  | overtaken hp he =>
    rw [halive] at he
    cases he
  | stalled | finish => trivial
  | plain chunk hp | offer bytes prompt hp | dispatch chunk p p' bytes hp =>
    rw [hp] at h
    exact h
  | observe chunk p p' hp | lost bytes prompt hp | push bytes prompt input hp
  | closed bytes prompt hp =>
    rw [hp] at h
    exact heeding_moving h ..
  | move prompt paced hp =>
    have hback : ∀ st : SessionState, st = y.scene.session.state.moveTo (Session.stateOfPrompt prompt) →
        Heeding n y.stalls st .reading := by
      rintro st rfl hlt
      rw [hp] at h
      cases prompt with
      | idle => exact moveTo_awaitingInput hbegun hlive
      | busy => exact absurd hlt (Nat.not_lt.2 (Nat.le_of_eq h))
    cases paced <;> exact hback _ rfl

theorem heeds_self (x : Exchange) : Heeds x.stalls x := by
  unfold Heeds
  cases x.scene.pump with
  | reading => exact fun h => absurd h (Nat.lt_irrefl _)
  | moving prompt paced => exact heeding_moving rfl ..
  | stalling | finishing => trivial
  | marking | reacting | offering | pushing => rfl

variable {child : Child} {settings : SessionSettings} {scratch : Option Host.Path}

/-- As long as nobody is overtaken, the pump heeds the stalls that come in silence. -/
theorem heeds_of_silent (hr : (start child settings scratch).Reaches x) (hx : x.Settled)
    (h : Silent x y)
    (hy : (∀ j, y.overtaken j = false) ∨ ∃ chunk, y.scene.pump = .marking chunk) :
    Heeds x.stalls y := by
  refine h.keeps (P := fun y => ((∀ j, y.overtaken j = false) ∨
    ∃ chunk, y.scene.pump = .marking chunk) → Heeds x.stalls y) (fun _ => heeds_self x) ?_ hy
  intro y z hy hz hst hP hc
  have hreach : (start child settings scratch).Reaches y := hr.trans hy.reaches
  cases hst with
  | print bs => exact hP hc
  | arrive taken rest hne hf hp => exact absurd rfl (hy.arrived_ne hz _)
  | mark chunk hp =>
    have hbefore := hP (Or.inr ⟨chunk, hp⟩)
    unfold Heeds at hbefore
    rw [hp] at hbefore
    exact hbefore
  | stall hp => trivial
  | finish e hp => trivial
  | unheeded hp hn =>
    have hmode := (Scene.mode_of_reaches hreach.scene).1
    have hnone := Scene.ne_marking_of_reading hp
    rcases (hx.rested hy).flag ((sound_start ..).of_reaches hreach) hnone with
      ⟨hset, -⟩ | ⟨-, j, hj⟩
    · exact absurd ⟨hmode, hset⟩ hn
    · rcases hc with hc | ⟨chunk, hchunk⟩
      · rw [hc j] at hj
        cases hj
      · exact absurd hchunk (hnone chunk)
  | goOn t ht hmark =>
    rcases ht.cases with hfeeds | hbeside | ⟨busy, hpump⟩
    · exact absurd hfeeds (hy.not_feeds hz)
    · refine (hP ?_).of_beside (hx.rested hy) hbeside hz.live
      refine hc.imp_right fun ⟨chunk, hchunk⟩ => ⟨chunk, ?_⟩
      rw [← hbeside.pump]
      exact hchunk
    · have hnone := hpump.ne_marking busy
      have hcalm := hc.resolve_right fun ⟨chunk, hchunk⟩ => hnone chunk hchunk
      have hbegun := ((Scene.agreed_start ..).of_reaches hreach.scene).begun
      exact (hP (Or.inl hcalm)).of_pump hbegun hy.live hy.alive busy
        (fun chunk hp => hnone chunk (hmark chunk hp)) hpump

/-! ## A stall that is not heeded -/

/-- A session whose flag is not set keeps its state until the pump ends it. -/
def Ignores (state : SessionState) (y : Exchange) : Prop :=
  (∃ e steps, y.scene.pump = .finishing e steps) ∨ y.scene.pump = .reading ∧
    y.scene.session.state = state ∧ y.scene.session.outputSinceInput = false

theorem ignores_of_silent (hx : x.Settled) (h : Silent x y) (hp : x.scene.pump = .reading)
    (hf : x.scene.session.outputSinceInput = false) : Ignores x.scene.session.state y := by
  refine h.keeps (P := Ignores x.scene.session.state) (Or.inr ⟨hp, rfl, hf⟩) ?_
  intro y z hy hz hst hP
  cases hst with
  | print | unheeded => exact hP
  | arrive taken rest hne hf hp => exact absurd rfl (hy.arrived_ne hz _)
  | mark chunk hp =>
    rcases hP with ⟨e, steps, hq⟩ | ⟨hq, -, -⟩
    · rw [hp] at hq
      cases hq
    · rw [hp] at hq
      cases hq
  | stall hp hm ho =>
    rcases hP with ⟨e, steps, hq⟩ | ⟨-, -, hunset⟩
    · rw [hp] at hq
      cases hq
    · rw [ho] at hunset
      cases hunset
  | finish e hp => exact Or.inl ⟨e, _, rfl⟩
  | goOn t ht hmark =>
    rcases ht.cases with hfeeds | hbeside | ⟨busy, hpump⟩
    · exact absurd hfeeds (hy.not_feeds hz)
    · refine hP.imp (fun ⟨e, steps, hq⟩ => ⟨e, steps, hbeside.pump.trans hq⟩) ?_
      rintro ⟨hq, hstate, hunset⟩
      refine ⟨hbeside.pump.trans hq, ((hx.rested hy).state hbeside hz.live).trans hstate, ?_⟩
      rcases hbeside.flag with ⟨hsame, -⟩ | ⟨hback, -⟩
      · exact hsame.trans hunset
      · exact hback
    · rcases hP with ⟨e, steps, hq⟩ | ⟨hq, -, -⟩
      · refine Or.inl ?_
        cases hpump with
        | finish e f rest now => exact ⟨e, rest, rfl⟩
        | _ => simp_all
      · exact absurd hq busy

/-! ## The next stall -/

/-- What a session comes to that is settled in `x`, when there was a stall behind it. -/
structure Noticed (x y : Exchange) : Prop where
  /-- If the pump has overtaken nobody, the session waits for input. -/
  heeded : (∀ j, y.overtaken j = false) → y.scene.session.state = .awaitingInput
  /-- If it has, the answer is forgotten, and no stall changes the state that the session had when the
  pump came to wait. -/
  lost : (∃ j, y.overtaken j = true) → y.scene.session.outputSinceInput = false ∧
    (x.scene.pump = .reading → y.scene.session.state = x.scene.session.state)

/-- A program has answered the last input, and there is silence until the pump has found that nothing came.
Then the session waits for input, unless the answer was taken in before the input was noted. -/
theorem noticed (hr : (start child settings scratch).Reaches x) (hx : x.Settled) (h : Silent x y)
    (hn : x.stalls < y.stalls) (hp : y.scene.pump = .reading) : Noticed x y := by
  have hsound : Sound x := (sound_start ..).of_reaches hr
  constructor
  · intro hcalm
    have hheeds := heeds_of_silent hr hx h (Or.inl hcalm)
    unfold Heeds at hheeds
    rw [hp] at hheeds
    exact hheeds hn
  · intro hlost
    refine ⟨(hx.rested h).unset (hsound.of_reaches h.reaches) hp hlost, fun hq => ?_⟩
    rw [(h.overtaken (Scene.ne_marking_of_reading hq)).2] at hlost
    have hunset := (hx.rested h.self).unset hsound hq hlost
    rcases ignores_of_silent hx h hq hunset with ⟨e, steps, hends⟩ | ⟨-, hstate, -⟩
    · rw [hp] at hends
      cases hends
    · exact hstate

theorem exists_stall (hp : x.scene.pump = .reading) (hlive : x.scene.session.state.isTerminal = false)
    (halive : x.scene.session.child.hasExited = false) :
    ∃ y, Silent x y ∧ x.stalls < y.stalls ∧ y.scene.pump = .reading := by
  by_cases ho : x.scene.session.mode = .interactive ∧ x.scene.session.outputSinceInput = true
  · have r : x.Reaches x := .refl
    have r := r.tail (.stall hp ho.1 ho.2)
    have r := r.tail (.pumps (.stalled rfl halive) rfl)
    have r := r.tail (.pumps (.move _ _ rfl) rfl)
    have hmoved : (x.scene.session.state.moveTo .awaitingInput).isTerminal = false := by
      unfold SessionState.moveTo
      split
      · rfl
      · exact hlive
    refine ⟨_, ⟨r, ?_, rfl, hmoved, halive⟩, Nat.lt_succ_self _, rfl⟩
    simp [go, Scene.release, Session.moveTo]
  · exact ⟨_, ⟨.single (.unheeded hp ho), rfl, rfl, hlive, halive⟩, Nat.lt_succ_self _, hp⟩

/-- An interactive session of a program on a terminal. -/
def talking : Exchange :=
  start { process := 1, wiring := .terminal, outlet := 1, inlet := 1, chunkSize := 4096 } default none

/-- The program is asked, and answers when the caller has returned. -/
theorem noticed_answer : ∃ x y, talking.Reaches x ∧ x.Settled ∧ Silent x y ∧ x.stalls < y.stalls ∧
    y.scene.pump = .reading ∧ Noticed x y ∧ y.scene.session.state = .awaitingInput := by
  obtain ⟨x, r, hx, hp, hlive, halive, hcalm⟩ : ∃ x, talking.Reaches x ∧ x.Settled ∧
      x.scene.pump = .reading ∧ x.scene.session.state.isTerminal = false ∧
        x.scene.session.child.hasExited = false ∧ ∀ j, x.overtaken j = false := by
    have r : talking.Reaches talking := .refl
    have r := r.tail (.sends (.write 0 [49, 10] rfl) rfl)
    have r := r.tail (.sends (.check 0 _ _ rfl rfl) rfl)
    have r := r.tail (.sends (.offer 0 _ _ _ rfl rfl) rfl)
    have r := r.tail (.sends (.push 0 _ _ _ _ rfl rfl) rfl)
    have r := r.tail (.sends (.note 0 _ rfl) rfl)
    have r := r.tail (.sends (.move 0 _ _ rfl) rfl)
    have r := r.tail (.sends (.answer 0 rfl) rfl)
    have r := r.tail (.print [63])
    have r := r.tail (.arrive [(63, 1)] [] (by simp) rfl rfl)
    have r := r.tail (.mark _ rfl)
    have r := r.tail (.pumps (.plain _ rfl rfl) rfl)
    have r := r.tail (.pumps (.move _ _ rfl) rfl)
    refine ⟨_, r, ⟨fun i a => ?_, rfl⟩, rfl, rfl, rfl, fun j => ?_⟩
    · simp [go, Scene.put, Scene.answerInput, Scene.release, Scene.withSession, talking, start,
        Scene.start]
    · simp [go, Scene.put, Scene.answerInput, Scene.release, Scene.withSession, talking, start,
        Scene.start, Task.owes]
  obtain ⟨y, hs, hn, hq⟩ := exists_stall hp hlive halive
  have h := noticed r hx hs hn hq
  have hsame := (hs.overtaken (Scene.ne_marking_of_reading hp)).2
  exact ⟨x, y, r, hx, hs, hn, hq, h, h.heeded fun j => by rw [hsame, hcalm j]⟩

/-- The program answers as soon as the payload is queued, and its answer is taken in before the caller notes
that input was sent. Everybody has returned, the program waits, and the next stall leaves the session
running. -/
theorem answer_overtakes_note : ∃ x y, talking.Reaches x ∧ x.Settled ∧ x.flight = [] ∧
    x.scene.fate = .alive ∧ Silent x y ∧ x.stalls < y.stalls ∧ y.scene.pump = .reading ∧
      y.scene.session.state = .running := by
  obtain ⟨x, r, hx, hflight, hfate, hp, hrunning, hunset⟩ : ∃ x, talking.Reaches x ∧ x.Settled ∧
      x.flight = [] ∧ x.scene.fate = .alive ∧ x.scene.pump = .reading ∧
        x.scene.session.state = .running ∧ x.scene.session.outputSinceInput = false := by
    have r : talking.Reaches talking := .refl
    have r := r.tail (.sends (.write 0 [49, 10] rfl) rfl)
    have r := r.tail (.sends (.check 0 _ _ rfl rfl) rfl)
    have r := r.tail (.sends (.offer 0 _ _ _ rfl rfl) rfl)
    have r := r.tail (.sends (.push 0 _ _ _ _ rfl rfl) rfl)
    have r := r.tail (.print [63])
    have r := r.tail (.arrive [(63, 1)] [] (by simp) rfl rfl)
    have r := r.tail (.mark _ rfl)
    have r := r.tail (.sends (.note 0 _ rfl) rfl)
    have r := r.tail (.sends (.move 0 _ _ rfl) rfl)
    have r := r.tail (.sends (.answer 0 rfl) rfl)
    have r := r.tail (.pumps (.plain _ rfl rfl) rfl)
    have r := r.tail (.pumps (.move _ _ rfl) rfl)
    refine ⟨_, r, ⟨fun i a => ?_, rfl⟩, rfl, rfl, rfl, rfl, rfl⟩
    simp [go, Scene.put, Scene.answerInput, Scene.release, Scene.withSession, talking, start,
      Scene.start]
  have hstall : x.Step { x with stalls := x.stalls + 1 } :=
    .unheeded hp fun ho => by rw [hunset] at ho; cases ho.2
  have hs : Silent x { x with stalls := x.stalls + 1 } := by
    refine ⟨.single hstall, rfl, rfl, ?_, ?_⟩
    · rw [hrunning]
      rfl
    · rw [Bool.eq_false_iff]
      intro he
      obtain ⟨e, hpublished⟩ := Scene.hasExited_iff.1 he
      rw [show x.scene.fate = .published e from hpublished] at hfate
      cases hfate
  exact ⟨x, _, r, hx, hflight, hfate, hs, Nat.lt_succ_self _, hp, hrunning⟩

end Exchange

end SessionHost
