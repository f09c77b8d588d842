import Mathlib.Logic.Function.Basic
import Mathlib.Logic.Relation
import SessionHost.Server.Shutdown

/-!
# Waking those who wait for a shutdown

Whoever waits for the flag registers to be woken, looks at the flag, and blocks if it did not see it set.
Whoever sets the flag learns whether it was set before, and the first wakes all who have registered by
then. Nobody is woken for having registered later, so a waiter that looked before it registered could block
for ever.

**The machine.** An `Alarm` is the flag with any number of tasks that wait for it and any number that set
it, each at a stage of its own. A task may wait and set the flag as often as it likes, and may give up
waiting at any stage.

**Hypotheses.** To set the flag and learn whether it was set is one step, and so is to wake all who have
registered.

**Results.**
* `Alarm.heeded_of_reaches`: nobody returns before the flag is set. Once everybody has returned who began to
  set it, nobody who waits is blocked, then or later, and each can go on until it returns.
* `Alarm.Shows.signal`, `Alarm.Shows.stepWaiter`, `Alarm.Shows.addWaiter`: what a `ShutdownManager` does is
  what the tasks do that nobody interrupts.
-/
namespace SessionHost

/-- How far a task has come that waits for the flag.
mirrors server/shutdown:51-61 -/
inductive Waiting where
  | absent
  | entering
  /-- Is about to look at the flag. `woken` says whether it was woken since it registered. -/
  | registered (woken : Bool)
  /-- Has seen the flag not set, and is about to block. -/
  | missed (woken : Bool)
  | blocked
  /-- Was woken, and has not run since. -/
  | roused
  | returned
  deriving DecidableEq, Repr

/-- How far a task has come that sets the flag.
mirrors server/shutdown:63-67 -/
inductive Signaling where
  | absent
  | entering
  /-- Was the first to set the flag, and is about to wake all who have registered. -/
  | notifying
  | returned
  deriving DecidableEq, Repr

namespace Waiting

def wake : Waiting → Waiting
  | registered _ => registered true
  | missed _ => missed true
  | blocked => roused
  | x => x

inductive Turn (signaled : Bool) : Waiting → Waiting → Prop where
  | register : Turn signaled entering (registered false)
  | look (woken : Bool) : Turn signaled (registered woken) (if signaled then returned else missed woken)
  | block : Turn signaled (missed false) blocked
  | pass : Turn signaled (missed true) returned
  | resume : Turn signaled roused returned

/-- Nobody has woken it, and it has not returned. -/
def Quiet (x : Waiting) : Prop :=
  x ≠ registered true ∧ x ≠ missed true ∧ x ≠ roused ∧ x ≠ returned

/-- Does not block any more if the flag is set. -/
def Warned (x : Waiting) : Prop := x ≠ missed false ∧ x ≠ blocked

theorem warned_wake (x : Waiting) : x.wake.Warned := by
  cases x <;> exact ⟨nofun, nofun⟩

variable {x y : Waiting}

theorem Turn.quiet (h : Turn false x y) (hx : x.Quiet) : y.Quiet := by
  cases h with
  | register | block => exact ⟨nofun, nofun, nofun, nofun⟩
  | look woken =>
    cases woken with
    | false => exact ⟨nofun, nofun, nofun, nofun⟩
    | true => exact absurd rfl hx.1
  | pass => exact absurd rfl hx.2.1
  | resume => exact absurd rfl hx.2.2.1

theorem Turn.warned (h : Turn true x y) (hx : x.Warned) : y.Warned := by
  cases h with
  | block => exact absurd rfl hx.1
  | register | look | pass | resume => exact ⟨nofun, nofun⟩

/-- Once the flag is set, a task that does not block any more goes on until it returns. -/
theorem Warned.returns (hx : x.Warned) : x = absent ∨ Relation.ReflTransGen (Turn true) x returned := by
  have hlook : ∀ woken, Relation.ReflTransGen (Turn true) (registered woken) returned :=
    fun woken => .single (.look woken)
  cases x with
  | absent => exact .inl rfl
  | entering => exact .inr ((hlook false).head .register)
  | registered woken => exact .inr (hlook woken)
  | missed woken =>
    cases woken with
    | false => exact absurd rfl hx.1
    | true => exact .inr (.single .pass)
  | blocked => exact absurd rfl hx.2
  | roused => exact .inr (.single .resume)
  | returned => exact .inr .refl

end Waiting

def Signaling.Early (x : Signaling) : Prop := x = absent ∨ x = entering

/-- The flag, the tasks that wait for it, and those that set it. -/
structure Alarm where
  signaled : Bool := false
  waiter : Nat → Waiting := fun _ => .absent
  signaler : Nat → Signaling := fun _ => .absent

namespace Alarm

/-- Nobody waits, and nobody has set the flag. -/
def opening : Alarm := {}

/-- A task that waits has come to another stage. -/
def wait (s : Alarm) (i : Nat) (x : Waiting) : Alarm :=
  { s with waiter := Function.update s.waiter i x }

@[simp] theorem waiter_wait_self (s : Alarm) (i : Nat) (x : Waiting) : (s.wait i x).waiter i = x :=
  Function.update_self ..

theorem waiter_wait_of_ne (s : Alarm) {i k : Nat} (x : Waiting) (h : k ≠ i) :
    (s.wait i x).waiter k = s.waiter k := Function.update_of_ne h ..

@[simp] theorem wait_waiter (s : Alarm) (i : Nat) : s.wait i (s.waiter i) = s := by
  rw [wait, Function.update_eq_self]

/-- A task that sets the flag has come to another stage. -/
def sign (s : Alarm) (j : Nat) (x : Signaling) : Alarm :=
  { s with signaler := Function.update s.signaler j x }

inductive Step : Alarm → Alarm → Prop where
  | call {s : Alarm} (i : Nat) (h : s.waiter i = .absent ∨ s.waiter i = .returned) :
    Step s (s.wait i .entering)
  | turn {s : Alarm} (i : Nat) (x : Waiting) (h : (s.waiter i).Turn s.signaled x) : Step s (s.wait i x)
  | leave {s : Alarm} (i : Nat) : Step s (s.wait i .absent)
  | begin {s : Alarm} (j : Nat) (h : s.signaler j = .absent ∨ s.signaler j = .returned) :
    Step s (s.sign j .entering)
  -- the flag is set and the task learns whether it was, in one step
  | swap {s : Alarm} (j : Nat) (h : s.signaler j = .entering) :
    Step s { s.sign j (if s.signaled then .returned else .notifying) with signaled := true }
  | notify {s : Alarm} (j : Nat) (h : s.signaler j = .notifying) :
    Step s { s.sign j .returned with waiter := fun i => (s.waiter i).wake }

abbrev Reaches : Alarm → Alarm → Prop := Relation.ReflTransGen Step

/-- Somebody began to set the flag, and everybody has returned who did. -/
def Settled (s : Alarm) : Prop := (∃ j, s.signaler j ≠ .absent) ∧
  ∀ j, s.signaler j = .absent ∨ s.signaler j = .returned

/-! ## What a task may rely on -/

variable {s t : Alarm}

structure Rung (s : Alarm) : Prop where
  signaled : s.signaled = true
  warned : ∀ i, (s.waiter i).Warned

/-- Before the flag is set nobody was woken; after that somebody is about to wake all, or has done so. -/
structure Sound (s : Alarm) : Prop where
  before : s.signaled = false →
    (∀ i, (s.waiter i).Quiet) ∧ ∀ j, (s.signaler j).Early
  after : s.signaled = true → (∃ j, s.signaler j = .notifying) ∨ s.Rung

theorem forall_update {α : Type} {p : α → Prop} {f : Nat → α} {i : Nat} {x : α} (hf : ∀ k, p (f k))
    (hx : p x) : ∀ k, p (Function.update f i x k) :=
  (Function.forall_update_iff f fun _ => p).2 ⟨hx, fun k _ => hf k⟩

theorem Rung.wait (h : s.Rung) {i : Nat} {x : Waiting} (hx : x.Warned) : (s.wait i x).Rung :=
  ⟨h.signaled, forall_update h.warned hx⟩

/-- Once nobody blocks any more, nobody ever does. -/
theorem Rung.of_step (h : s.Rung) (hst : Step s t) : t.Rung := by
  cases hst with
  | call | leave => exact h.wait ⟨nofun, nofun⟩
  | turn i x hx =>
    rw [h.signaled] at hx
    exact h.wait (hx.warned (h.warned i))
  | begin => exact ⟨h.signaled, h.warned⟩
  | swap => exact ⟨rfl, h.warned⟩
  | notify => exact ⟨h.signaled, fun i => (s.waiter i).warned_wake⟩

theorem Rung.of_reaches (h : s.Rung) (hr : Reaches s t) : t.Rung := by
  induction hr with
  | refl => exact h
  | tail _ hst ih => exact ih.of_step hst

theorem sound_opening : opening.Sound where
  before _ := ⟨fun _ => ⟨nofun, nofun, nofun, nofun⟩, fun _ => .inl rfl⟩
  after h := by cases h

/-- Somebody is about to wake all, and no other task changes that. -/
theorem notifying_update {j k : Nat} {x : Signaling} (hj : s.signaler j = .notifying)
    (hk : s.signaler k ≠ .notifying) : Function.update s.signaler k x j = .notifying := by
  rwa [Function.update_of_ne]
  rintro rfl
  exact hk hj

theorem Sound.wait (h : s.Sound) {i : Nat} {x : Waiting} (hq : s.signaled = false → x.Quiet)
    (hw : s.signaled = true → (s.waiter i).Warned → x.Warned) : (s.wait i x).Sound where
  before hs := ⟨forall_update (h.before hs).1 (hq hs), (h.before hs).2⟩
  after hs := (h.after hs).imp_right fun hr => hr.wait (hw hs (hr.warned i))

theorem Sound.of_step (h : s.Sound) (hst : Step s t) : t.Sound := by
  cases hst with
  | call | leave => exact h.wait (fun _ => ⟨nofun, nofun, nofun, nofun⟩) fun _ _ => ⟨nofun, nofun⟩
  | turn i x hx =>
    refine h.wait (fun hs => ?_) fun hs hw => ?_ <;> rw [hs] at hx
    · exact hx.quiet ((h.before hs).1 i)
    · exact hx.warned hw
  | begin j hj =>
    refine ⟨fun hs => ⟨(h.before hs).1, forall_update (h.before hs).2 (.inr rfl)⟩, fun hs => ?_⟩
    refine (h.after hs).imp (fun ⟨k, hk⟩ => ⟨k, notifying_update hk ?_⟩) fun hr => ⟨hr.signaled, hr.warned⟩
    rcases hj with hj | hj <;> rw [hj] <;> exact nofun
  | swap j hj =>
    refine ⟨nofun, fun _ => ?_⟩
    by_cases hs : s.signaled = true
    · refine (h.after hs).imp (fun ⟨k, hk⟩ => ⟨k, notifying_update hk ?_⟩) fun hr => ⟨rfl, hr.warned⟩
      rw [hj]
      exact nofun
    · -- the first to set the flag wakes all
      refine .inl ⟨j, ?_⟩
      rw [Bool.not_eq_true] at hs
      simp [sign, hs]
  | notify j hj =>
    have hs : s.signaled = true := by
      by_contra hs
      rcases (h.before (Bool.eq_false_iff.2 hs)).2 j with hj' | hj' <;> rw [hj] at hj' <;> cases hj'
    refine ⟨fun hs' => ?_, fun _ => Or.inr ⟨hs, fun i => (s.waiter i).warned_wake⟩⟩
    rw [show s.signaled = false from hs'] at hs
    cases hs

theorem sound_of_reaches (h : Reaches opening s) : s.Sound := by
  induction h with
  | refl => exact sound_opening
  | tail _ hst ih => exact ih.of_step hst

/-- Everybody has returned who set the flag, so all were woken. -/
theorem Sound.rung (h : s.Sound) (hs : s.Settled) : s.Rung := by
  obtain ⟨⟨j, hj⟩, hall⟩ := hs
  have hset : s.signaled = true := by
    by_contra hs
    rcases (h.before (Bool.eq_false_iff.2 hs)).2 j with hj' | hj'
    · exact hj hj'
    · rcases hall j with hk | hk <;> rw [hj'] at hk <;> cases hk
  rcases h.after hset with ⟨k, hk⟩ | hr
  · rcases hall k with hk' | hk' <;> rw [hk] at hk' <;> cases hk'
  · exact hr

structure Heeded (s : Alarm) : Prop where
  /-- Nobody returns before the flag is set. -/
  not_before : ∀ i, s.waiter i = .returned → s.signaled = true
  /-- Nobody is blocked once everybody has returned who set the flag. -/
  not_blocked : s.Settled → ∀ t, Reaches s t → ∀ i, t.waiter i ≠ .blocked
  /-- Everybody who waits then can go on until it returns. -/
  returns : s.Settled → ∀ t, Reaches s t → ∀ i, t.waiter i = .absent ∨
    Relation.ReflTransGen (Waiting.Turn t.signaled) (t.waiter i) .returned

/-- However many tasks wait for the flag and set it, and in whatever order they go on, none misses it. -/
theorem heeded_of_reaches (h : Reaches opening s) : s.Heeded where
  not_before i hi := by
    by_contra hs
    obtain ⟨-, -, -, hne⟩ := ((sound_of_reaches h).before (Bool.eq_false_iff.2 hs)).1 i
    exact hne hi
  not_blocked hs t hr i := ((((sound_of_reaches h).rung hs).of_reaches hr).warned i).2
  returns hs t hr i := by
    have hrung := ((sound_of_reaches h).rung hs).of_reaches hr
    rw [hrung.signaled]
    exact (hrung.warned i).returns

/-- A task that has looked before the flag is set and one that is blocked are both woken, while a second
task that sets the flag returns before they are. -/
theorem heeded_of_two_waiters : ∃ s, Reaches opening s ∧ s.Settled ∧ s.waiter 0 = .missed true ∧
    s.waiter 1 = .roused ∧ s.signaler 0 = .returned ∧ s.signaler 1 = .returned ∧ s.Heeded := by
  have hr : Reaches opening _ := Relation.ReflTransGen.refl
    |>.tail (.call 0 (.inl rfl)) |>.tail (.turn 0 _ .register) |>.tail (.turn 0 _ (.look false))
    |>.tail (.call 1 (.inl rfl)) |>.tail (.turn 1 _ .register) |>.tail (.turn 1 _ (.look false))
    |>.tail (.turn 1 _ .block)
    |>.tail (.begin 0 (.inl rfl)) |>.tail (.begin 1 (.inl rfl))
    |>.tail (.swap 0 rfl) |>.tail (.swap 1 rfl) |>.tail (.notify 0 rfl)
  refine ⟨_, hr, ⟨⟨0, nofun⟩, ?_⟩, rfl, rfl, rfl, rfl, heeded_of_reaches hr⟩
  rintro (_ | _ | j)
  · exact .inr rfl
  · exact .inr rfl
  · exact .inl rfl

end Alarm

/-! ## A manager whose tasks nobody interrupts -/

namespace Waiting

/-- Where a task stands that waits. One that was woken will return whatever it does. -/
def phase : Waiting → WaiterPhase
  | entering => .entering
  | registered false => .registered
  | missed false | blocked => .blocked
  | absent | registered true | missed true | roused | returned => .returned

theorem phase_wake (x : Waiting) : x.wake.phase = x.phase.wake := by
  cases x with
  | registered woken | missed woken => cases woken <;> rfl
  | absent | entering | blocked | roused | returned => rfl

/-- What a manager counts as one step of a waiter is a step of the task, or none. -/
theorem exists_turn (x : Waiting) (signaled : Bool) : ∃ y,
    Relation.ReflGen (Turn signaled) x y ∧ y.phase = x.phase.step signaled := by
  cases x with
  | entering => exact ⟨_, .single .register, rfl⟩
  | registered woken =>
    cases woken with
    | false => exact ⟨_, .single (.look false), by cases signaled <;> rfl⟩
    | true => exact ⟨_, .refl, rfl⟩
  | missed woken => exact ⟨_, .refl, by cases woken <;> rfl⟩
  | absent | blocked | roused | returned => exact ⟨_, .refl, rfl⟩

end Waiting

namespace Alarm

/-- The tasks that a manager has on its list are the first ones. -/
structure Shows (s : Alarm) (m : ShutdownManager) : Prop where
  signaled : m.signaled = s.signaled
  waiters : ∀ i p, m.waiters[i]? = some p → p = (s.waiter i).phase

variable {s : Alarm} {m : ShutdownManager}

theorem shows_opening (active : UInt64) : opening.Shows { active := active } :=
  ⟨rfl, fun i p hp => by cases hp⟩

/-- To set the flag is a swap, and to wake all if it was the first. -/
theorem Shows.signal (h : s.Shows m) {j : Nat} (hj : s.signaler j = .entering) :
    ∃ t, Reaches s t ∧ t.signaler j = .returned ∧ t.Shows m.signal := by
  have hswap := Step.swap j hj
  rw [ShutdownManager.signal, h.signaled]
  cases hs : s.signaled with
  | true =>
    rw [hs, if_pos rfl] at hswap
    exact ⟨_, .single hswap, Function.update_self .., h.signaled.trans hs, h.waiters⟩
  | false =>
    rw [hs, if_neg Bool.false_ne_true] at hswap
    have hnotify := Step.notify (s := { s.sign j .notifying with signaled := true }) j
      (Function.update_self ..)
    refine ⟨_, (Relation.ReflTransGen.single hswap).tail hnotify, Function.update_self .., rfl, ?_⟩
    intro i p hp
    rw [if_neg Bool.false_ne_true, List.getElem?_map, Option.map_eq_some_iff] at hp
    obtain ⟨q, hq, rfl⟩ := hp
    rw [h.waiters i q hq]
    exact (Waiting.phase_wake _).symm

/-- A step of a waiter is a step of its task, or none if the task has come that far or was woken. -/
theorem Shows.stepWaiter (h : s.Shows m) (i : Nat) :
    ∃ t, Relation.ReflGen Step s t ∧ t.Shows (m.stepWaiter i) := by
  obtain ⟨x, hx, hphase⟩ := (s.waiter i).exists_turn s.signaled
  refine ⟨s.wait i x, ?_, h.signaled, fun k p hp => ?_⟩
  · cases hx with
    | refl => rw [wait_waiter]
    | single hx => exact .single (.turn i x hx)
  · rw [ShutdownManager.stepWaiter, h.signaled, List.getElem?_modify] at hp
    obtain ⟨q, hq, rfl⟩ := Option.map_eq_some_iff.1 hp
    rw [h.waiters k q hq]
    by_cases hk : i = k
    · subst hk
      rw [if_pos rfl, waiter_wait_self, hphase]
    · rw [if_neg hk, waiter_wait_of_ne s x (Ne.symm hk)]

theorem Shows.addWaiter (h : s.Shows m) (ha : s.waiter m.waiters.length = .absent) :
    ∃ t, Step s t ∧ t.Shows m.addWaiter := by
  refine ⟨_, .call m.waiters.length (.inl ha), h.signaled, fun i p hp => ?_⟩
  rw [ShutdownManager.addWaiter, List.getElem?_append] at hp
  split at hp
  case isTrue hi => rw [h.waiters i p hp, waiter_wait_of_ne s _ (Nat.ne_of_lt hi)]
  case isFalse hi =>
    rw [List.getElem?_singleton] at hp
    split at hp
    case isTrue hz =>
      obtain rfl : i = m.waiters.length := by omega
      obtain rfl := Option.some.inj hp
      rw [waiter_wait_self, Waiting.phase]
    case isFalse => cases hp

end Alarm

end SessionHost
