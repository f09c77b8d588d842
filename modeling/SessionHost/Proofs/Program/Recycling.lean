import SessionHost.Proofs.Scene.NaturalExit

/-!
# Killing a program whose number may have come to stand for another

A number stands for a program until the waiter has taken its status; after that the system may give it to
anybody. Whoever kills a program goes by the number, so it looks whether the program has ended before it
sends a signal: whether the status is known, then whether the system tells it, and if the system knows of
no such program, whether the status is known by now. Between taking the status and making it known the
waiter alone has it, and none of these looks can tell.

**The machine.** A `Pursuit` is a program with any number of calls that kill it (`Attempt`), whoever makes
them, and with whom its number stands for when its status was taken (`Namesake`). Each look and each signal
is a step of its own.

**Results.**
* `Pursuit.signals_of_reaches`: a call sends signals exactly if its looks clear it (`Attempt.Cleared`). One
  that was begun when the status was known sends none and says so. One that was begun when the status was
  only taken sends some exactly if the status stays unknown up to its last look, or if the number stands
  for another program of the server by then, which runs. Every call comes to its answer.
* `Pursuit.signal_to_stranger`: a run in which such a call signals a stranger.
* `Pursuit.kill_alone`: a call that nobody interrupts answers as `Child.kill`.
-/
namespace SessionHost

/-! ## Numbers -/

/-- Whom the number of a program stands for when the status of the program was taken. -/
inductive Namesake where
  | nobody
  /-- Members of its group that have outlived it. -/
  | survivors
  /-- A program that the server has nothing to do with. `leads` says that it leads a group, and
  `permitted` that the server may send it signals. -/
  | stranger (leads permitted : Bool)
  /-- Another program that the server has started, with its status if it has ended. -/
  | sibling (status : Option ExitInfo)
  deriving DecidableEq, Repr

inductive Told where
  /-- There is no such program, or its status was taken. -/
  | nothing
  | running
  | status (exit : ExitInfo)
  deriving DecidableEq, Repr

inductive Target where
  /-- The program or its group, before its status was taken. -/
  | program
  | survivors
  | stranger
  | sibling
  deriving DecidableEq, Repr

namespace Namesake

/-- A number comes to stand for somebody else. It is not given away while it is that of a group. -/
inductive Next : Namesake → Namesake → Prop where
  | leaves (n : Namesake) : Next n .nobody
  | takes (n : Namesake) (h : n ≠ .survivors) : Next .nobody n
  | turns (leads permitted leads' permitted' : Bool) :
    Next (.stranger leads permitted) (.stranger leads' permitted')
  | ends (e : ExitInfo) : Next (.sibling none) (.sibling (some e))

variable (n : Namesake) (fate : Fate)

def told : Told :=
  match fate with
  | .alive => .running
  | .ended e => .status e
  | .collected _ | .published _ =>
    match n with
    | sibling status => status.elim .running .status
    | nobody | survivors | stranger .. => .nothing

/-- Whom a signal to the group of the number reaches. -/
def group? : Option Target :=
  if fate.takesSignal then some .program
  else
    match n with
    | nobody => none
    | survivors => some .survivors
    | stranger leads permitted => if leads && permitted then some .stranger else none
    | sibling _ => some .sibling

/-- Whom a signal to the process of the number reaches. -/
def process? : Option Target :=
  if fate.takesSignal then some .program
  else
    match n with
    | nobody | survivors => none
    | stranger _ permitted => if permitted then some .stranger else none
    | sibling _ => some .sibling

variable {fate}

/-- Once the status of the program was taken, no signal reaches it. -/
theorem group_ne_program (h : fate.takesSignal = false) : n.group? fate ≠ some .program := by
  unfold group?
  rw [h]
  cases n with
  | stranger leads permitted => cases leads <;> cases permitted <;> exact nofun
  | nobody | survivors | sibling => exact nofun

theorem process_ne_program (h : fate.takesSignal = false) : n.process? fate ≠ some .program := by
  unfold process?
  rw [h]
  cases n with
  | stranger leads permitted => cases permitted <;> exact nofun
  | nobody | survivors | sibling => exact nofun

end Namesake

/-! ## The machine -/

inductive Aim where
  /-- Is about to look whether the status is known. -/
  | looking
  /-- Is about to ask the system for it. -/
  | asking
  /-- The system knows of no such program; is about to look whether the status is known by now. -/
  | lookingAgain
  /-- Is about to send a signal to the group. -/
  | atGroup
  /-- Nobody was reached; is about to send one to the process. -/
  | atProcess
  | returned (sent : Bool)
  deriving DecidableEq, Repr

/-- A call that kills a program, with what it has seen and done so far.
mirrors session/process:273-285 -/
structure Attempt where
  /-- How far the end of the program had come when the call was begun. -/
  begun : Fate
  aim : Aim := .looking
  first : Option Fate := none
  told : Option Told := none
  second : Option Fate := none
  /-- The signals that it has sent, and whom they have reached. -/
  shots : List (Option Target) := []
  deriving DecidableEq, Repr

namespace Attempt

variable (a : Attempt) (fate : Fate) (n : Namesake)

/-- mirrors session/process:221-223 -/
def look : Attempt := { a with
  aim := if fate.published?.isSome then .returned false else .asking, first := some fate }

/-- Asks the system for the status.
mirrors session/process:228-255 -/
def ask : Attempt := { a with
  aim :=
    match n.told fate with
    | .nothing => .lookingAgain
    | .running => .atGroup
    | .status _ => .returned false
  told := some (n.told fate) }

/-- Looks whether the status is known by now.
mirrors session/process:241-244 -/
def lookAgain : Attempt := { a with
  aim := if fate.published?.isSome then .returned false else .atGroup, second := some fate }

/-- Sends a signal to the group.
mirrors session/process:282 -/
def signalGroup : Attempt := { a with
  aim := if (n.group? fate).isSome then .returned true else .atProcess
  shots := a.shots ++ [n.group? fate] }

/-- Sends a signal to the process.
mirrors session/process:282 -/
def signalProcess : Attempt := { a with
  aim := .returned (n.process? fate).isSome, shots := a.shots ++ [n.process? fate] }

/-- A call does what is next. -/
inductive Next : Attempt → Prop where
  | look (h : a.aim = .looking) : Next (a.look fate)
  | ask (h : a.aim = .asking) : Next (a.ask fate n)
  | lookAgain (h : a.aim = .lookingAgain) : Next (a.lookAgain fate)
  | signalGroup (h : a.aim = .atGroup) : Next (a.signalGroup fate n)
  | signalProcess (h : a.aim = .atProcess) : Next (a.signalProcess fate n)

end Attempt

/-- A program, whom its number stands for, and all calls that kill it. -/
structure Pursuit where
  fate : Fate := .alive
  namesake : Namesake := .nobody
  attempts : List Attempt := []

namespace Pursuit

def opening : Pursuit := {}

inductive Step : Pursuit → Pursuit → Prop where
  | call {s : Pursuit} : Step s { s with attempts := s.attempts ++ [{ begun := s.fate }] }
  | goOn {s : Pursuit} (before after : List Attempt) (a a' : Attempt)
      (h : s.attempts = before ++ a :: after) (ha : a.Next s.fate s.namesake a') :
    Step s { s with attempts := before ++ a' :: after }
  -- the program ends, the waiter takes its status and makes it known
  | ends {s : Pursuit} (e : ExitInfo) (h : s.fate = .alive) : Step s { s with fate := .ended e }
  | collect {s : Pursuit} (e : ExitInfo) (n : Namesake) (h : s.fate = .ended e)
      (hn : n = .nobody ∨ n = .survivors) :
    Step s { s with fate := .collected e, namesake := n }
  | publish {s : Pursuit} (e : ExitInfo) (h : s.fate = .collected e) :
    Step s { s with fate := .published e }
  -- the number comes to stand for somebody else
  | passes {s : Pursuit} (n : Namesake) (h : s.fate.takesSignal = false)
      (hn : s.namesake.Next n) : Step s { s with namesake := n }

abbrev Reaches : Pursuit → Pursuit → Prop := Relation.ReflTransGen Step

end Pursuit

/-! ## What a call goes by -/

namespace Fate

abbrev Later : Fate → Fate → Prop := Relation.ReflTransGen Next

variable {f : Fate} {e : ExitInfo}

theorem Later.of_published (h : Later (.published e) f) : f = .published e := by
  induction h with
  | refl => rfl
  | tail _ hn ih =>
    rw [ih] at hn
    cases hn

theorem Later.of_collected (h : Later (.collected e) f) : f = .collected e ∨ f = .published e := by
  induction h with
  | refl => exact Or.inl rfl
  | tail _ hn ih =>
    rcases ih with rfl | rfl <;> cases hn
    exact Or.inr rfl

end Fate

namespace Attempt

/-- The looks of a call have cleared it to send signals. -/
def Cleared (a : Attempt) : Prop := ∃ f, a.first = some f ∧ f.published? = none ∧
  (a.told = some .running ∨ a.told = some .nothing ∧ ∃ g, a.second = some g ∧ g.published? = none)

/-- What a call has seen and done by the time that it has come so far. -/
def Consistent (a : Attempt) : Prop :=
  match a.aim with
  | .looking => a.first = none ∧ a.told = none ∧ a.second = none ∧ a.shots = []
  | .asking => (∃ f, a.first = some f ∧ f.published? = none) ∧ a.told = none ∧ a.second = none ∧
    a.shots = []
  | .lookingAgain => (∃ f, a.first = some f ∧ f.published? = none) ∧ a.told = some .nothing ∧
    a.second = none ∧ a.shots = []
  | .atGroup => a.Cleared ∧ a.shots = []
  | .atProcess => a.Cleared ∧ a.shots = [none]
  | .returned sent => ¬ a.Cleared ∧ a.shots = [] ∧ sent = false ∨
    a.Cleared ∧ a.shots ≠ [] ∧ sent = a.shots.any (·.isSome)

structure Ordered (fate : Fate) (a : Attempt) : Prop where
  begun : a.begun.Later fate
  first : ∀ f, a.first = some f → a.begun.Later f ∧ f.Later fate
  second : ∀ f g, a.first = some f → a.second = some g → f.Later g ∧ g.Later fate

theorem Ordered.later {fate fate' : Fate} {a : Attempt} (h : a.Ordered fate) (hl : fate.Later fate') :
    a.Ordered fate' where
  begun := h.begun.trans hl
  first f hf := ⟨(h.first f hf).1, (h.first f hf).2.trans hl⟩
  second f g hf hg := ⟨(h.second f g hf hg).1, (h.second f g hf hg).2.trans hl⟩

/-- A look finds the status known, or leaves a call to go on. -/
theorem Next.consistent {fate : Fate} {n : Namesake} {a a' : Attempt} (h : a.Next fate n a')
    (hc : a.Consistent) : a'.Consistent := by
  cases h with
  | look ha =>
    simp only [Consistent, ha] at hc
    obtain ⟨-, htold, hsecond, hshots⟩ := hc
    cases hp : fate.published? with
    | some e =>
      simp only [Consistent, Attempt.look, hp, Option.isSome_some, if_true]
      refine Or.inl ⟨?_, hshots, trivial⟩
      rintro ⟨f, hf, hn, -⟩
      obtain rfl := Option.some.inj hf
      rw [hp] at hn
      cases hn
    | none =>
      simp only [Consistent, Attempt.look, hp, Option.isSome_none, Bool.false_eq_true, if_false]
      exact ⟨⟨fate, rfl, hp⟩, htold, hsecond, hshots⟩
  | ask ha =>
    simp only [Consistent, ha] at hc
    obtain ⟨⟨f, hf, hn⟩, -, hsecond, hshots⟩ := hc
    cases ht : n.told fate with
    | nothing =>
      simp only [Consistent, Attempt.ask, ht]
      exact ⟨⟨f, hf, hn⟩, trivial, hsecond, hshots⟩
    | running =>
      simp only [Consistent, Attempt.ask, ht]
      exact ⟨⟨f, hf, hn, Or.inl rfl⟩, hshots⟩
    | status e =>
      simp only [Consistent, Attempt.ask, ht]
      refine Or.inl ⟨?_, hshots, trivial⟩
      rintro ⟨_, -, -, htold | ⟨htold, -⟩⟩ <;> cases htold
  | lookAgain ha =>
    simp only [Consistent, ha] at hc
    obtain ⟨⟨f, hf, hn⟩, htold, -, hshots⟩ := hc
    cases hp : fate.published? with
    | some e =>
      simp only [Consistent, Attempt.lookAgain, hp, Option.isSome_some, if_true]
      refine Or.inl ⟨?_, hshots, trivial⟩
      rintro ⟨_, -, -, ht | ⟨-, g, hg, hgn⟩⟩
      · cases htold.symm.trans ht
      · obtain rfl := Option.some.inj hg
        rw [hp] at hgn
        cases hgn
    | none =>
      simp only [Consistent, Attempt.lookAgain, hp, Option.isSome_none, Bool.false_eq_true, if_false]
      exact ⟨⟨f, hf, hn, Or.inr ⟨htold, fate, rfl, hp⟩⟩, hshots⟩
  | signalGroup ha =>
    simp only [Consistent, ha] at hc
    obtain ⟨hcleared, hshots⟩ := hc
    cases hg : n.group? fate with
    | some x =>
      simp only [Consistent, Attempt.signalGroup, hg, hshots, Option.isSome_some, if_true]
      exact Or.inr ⟨hcleared, by simp⟩
    | none =>
      simp only [Consistent, Attempt.signalGroup, hg, hshots, Option.isSome_none, Bool.false_eq_true,
        if_false]
      exact ⟨hcleared, rfl⟩
  | signalProcess ha =>
    simp only [Consistent, ha] at hc
    obtain ⟨hcleared, hshots⟩ := hc
    simp only [Consistent, Attempt.signalProcess, hshots]
    exact Or.inr ⟨hcleared, by simp⟩

theorem Next.ordered {fate : Fate} {n : Namesake} {a a' : Attempt} (h : a.Next fate n a')
    (hc : a.Consistent) (ho : a.Ordered fate) : a'.Ordered fate := by
  cases h with
  | look ha =>
    simp only [Consistent, ha] at hc
    refine ⟨ho.begun, fun f hf => ?_, fun f g _ hg => ?_⟩
    · obtain rfl := Option.some.inj hf
      exact ⟨ho.begun, .refl⟩
    · have hnone : a.second = some g := hg
      rw [hc.2.2.1] at hnone
      cases hnone
  | lookAgain ha =>
    refine ⟨ho.begun, ho.first, fun f g hf hg => ?_⟩
    obtain rfl := Option.some.inj hg
    exact ⟨(ho.first f hf).2, .refl⟩
  | ask | signalGroup | signalProcess => exact ⟨ho.begun, ho.first, ho.second⟩

/-- Whoever begins to kill a program when its status was taken reaches somebody else, if anybody. -/
def Strays (a : Attempt) : Prop := ∀ e, a.begun = .collected e → ∀ x ∈ a.shots, x ≠ some .program

theorem Next.strays {fate : Fate} {n : Namesake} {a a' : Attempt} (h : a.Next fate n a')
    (ho : a.Ordered fate) (hs : a.Strays) : a'.Strays := by
  have taken : ∀ {e}, a.begun = .collected e → fate.takesSignal = false := fun {e} he => by
    have hlater := ho.begun
    rw [he] at hlater
    rcases hlater.of_collected with rfl | rfl <;> rfl
  cases h with
  | look | ask | lookAgain => exact hs
  | signalGroup =>
    intro e he x hx
    rcases List.mem_append.1 hx with hx | hx
    · exact hs e he x hx
    · rw [List.mem_singleton.1 hx]
      exact n.group_ne_program (taken he)
  | signalProcess =>
    intro e he x hx
    rcases List.mem_append.1 hx with hx | hx
    · exact hs e he x hx
    · rw [List.mem_singleton.1 hx]
      exact n.process_ne_program (taken he)

/-! ## How a call comes to its answer -/

def rank (a : Attempt) : Nat :=
  match a.aim with
  | .looking => 5
  | .asking => 4
  | .lookingAgain => 3
  | .atGroup => 2
  | .atProcess => 1
  | .returned _ => 0

theorem exists_next (a : Attempt) (fate : Fate) (n : Namesake) : (∃ sent, a.aim = .returned sent) ∨
    ∃ a', a.Next fate n a' ∧ a'.rank < a.rank ∧ a'.begun = a.begun := by
  cases ha : a.aim with
  | returned sent => exact Or.inl ⟨sent, rfl⟩
  | looking =>
    refine Or.inr ⟨_, .look ha, ?_, rfl⟩
    simp only [rank, ha, look]
    cases fate.published? <;> simp
  | asking =>
    refine Or.inr ⟨_, .ask ha, ?_, rfl⟩
    simp only [rank, ha, ask]
    cases n.told fate <;> simp
  | lookingAgain =>
    refine Or.inr ⟨_, .lookAgain ha, ?_, rfl⟩
    simp only [rank, ha, lookAgain]
    cases fate.published? <;> simp
  | atGroup =>
    refine Or.inr ⟨_, .signalGroup ha, ?_, rfl⟩
    simp only [rank, ha, signalGroup]
    cases n.group? fate <;> simp
  | atProcess => exact Or.inr ⟨_, .signalProcess ha, by simp [rank, ha, signalProcess], rfl⟩

/-- The looks of a call have cleared it exactly if it goes on to send signals. -/
theorem Consistent.cleared_iff {a : Attempt} (h : a.Consistent) :
    a.Cleared ↔ a.aim = .atGroup ∨ a.shots ≠ [] := by
  unfold Consistent at h
  split at h
  case h_1 ha =>
    obtain ⟨hf, -, -, hs⟩ := h
    simp [Cleared, hf, ha, hs]
  case h_2 ha =>
    obtain ⟨-, ht, -, hs⟩ := h
    simp [Cleared, ht, ha, hs]
  case h_3 ha =>
    obtain ⟨-, ht, hg, hs⟩ := h
    simp [Cleared, ht, hg, ha, hs]
  case h_4 ha => exact ⟨fun _ => Or.inl ha, fun _ => h.1⟩
  case h_5 ha => exact ⟨fun _ => Or.inr (by simp [h.2]), fun _ => h.1⟩
  case h_6 ha =>
    rcases h with ⟨hn, hs, -⟩ | ⟨hc, hs, -⟩
    · simp [hn, ha, hs]
    · exact ⟨fun _ => Or.inr hs, fun _ => hc⟩

theorem Consistent.answer {a : Attempt} (h : a.Consistent) {sent : Bool} (ha : a.aim = .returned sent) :
    sent = a.shots.any (·.isSome) := by
  simp only [Consistent, ha] at h
  rcases h with ⟨-, hs, hn⟩ | ⟨-, -, he⟩
  · rw [hs, hn]
    rfl
  · exact he

end Attempt

namespace Pursuit

variable {s t : Pursuit}

def Sound (s : Pursuit) : Prop := ∀ a ∈ s.attempts, a.Consistent ∧ a.Ordered s.fate ∧ a.Strays

theorem Sound.of_step (h : Sound s) (hst : Step s t) : Sound t := by
  have later : ∀ {fate : Fate}, s.fate.Next fate →
      ∀ a ∈ s.attempts, a.Consistent ∧ a.Ordered fate ∧ a.Strays :=
    fun hn a ha => ⟨(h a ha).1, (h a ha).2.1.later (.single hn), (h a ha).2.2⟩
  cases hst with
  | call =>
    intro a ha
    rcases List.mem_append.1 ha with ha | ha
    · exact h a ha
    · obtain rfl := List.mem_singleton.1 ha
      exact ⟨⟨rfl, rfl, rfl, rfl⟩, ⟨.refl, nofun, nofun⟩, fun _ _ _ hx => absurd hx List.not_mem_nil⟩
  | goOn before after a a' hs hn =>
    intro x hx
    rcases List.mem_append.1 hx with hx | hx
    · exact h x (hs ▸ List.mem_append_left _ hx)
    rcases List.mem_cons.1 hx with rfl | hx
    · obtain ⟨hc, ho, hstrays⟩ := h a (hs ▸ List.mem_append_right _ List.mem_cons_self)
      exact ⟨hn.consistent hc, hn.ordered hc ho, hn.strays ho hstrays⟩
    · exact h x (hs ▸ List.mem_append_right _ (.tail _ hx))
  | ends e he => exact later (he ▸ .ends e)
  | collect e n he => exact later (he ▸ .collect e)
  | publish e he => exact later (he ▸ .publish e)
  | passes => exact h

theorem sound_of_reaches (h : opening.Reaches s) : Sound s := by
  induction h with
  | refl => exact fun _ ha => absurd ha List.not_mem_nil
  | tail _ hst ih => exact ih.of_step hst

/-- Whoever kills a program is answered, whatever it finds. -/
theorem exists_returned {a : Attempt} {before after : List Attempt}
    (h : s.attempts = before ++ a :: after) : ∃ a' sent,
      s.Reaches { s with attempts := before ++ a' :: after } ∧ a'.begun = a.begun ∧
        a'.aim = .returned sent := by
  induction hr : a.rank using Nat.strongRecOn generalizing s a with
  | ind rank ih =>
    rcases a.exists_next s.fate s.namesake with ⟨sent, ha⟩ | ⟨a₁, hn, hlt, hbegun⟩
    · exact ⟨a, sent, by rw [← h], rfl, ha⟩
    · have hst := Step.goOn before after a a₁ h hn
      obtain ⟨a', sent, hreaches, hb, ha⟩ := ih a₁.rank (hr ▸ hlt)
        (s := { s with attempts := before ++ a₁ :: after }) rfl rfl
      exact ⟨a', sent, .head hst hreaches, hb.trans hbegun, ha⟩

/-! ## When signals are sent -/

structure Signals (s : Pursuit) (a : Attempt) : Prop where
  /-- It sends signals exactly if its looks have cleared it. -/
  cleared : a.Cleared ↔ a.aim = .atGroup ∨ a.shots ≠ []
  /-- It says whether one has reached somebody. -/
  answer : ∀ sent, a.aim = .returned sent → sent = a.shots.any (·.isSome)
  /-- If the status was known when it was begun, it sends none. -/
  known : ∀ e, a.begun = .published e → a.shots = [] ∧ ∀ sent, a.aim = .returned sent → sent = false
  /-- If the status was only taken by then, it sends some exactly if the status is still unknown at its
  last look, or the system tells of a program that runs under the number. None of them reaches the
  program. -/
  unknown : ∀ e, a.begun = .collected e → (a.Cleared ↔ a.first = some (.collected e) ∧
      (a.told = some .running ∨ a.told = some .nothing ∧ a.second = some (.collected e))) ∧
    ∀ x ∈ a.shots, x ≠ some .program
  /-- It comes to its answer. -/
  returns : ∀ before after, s.attempts = before ++ a :: after → ∃ a' sent,
    s.Reaches { s with attempts := before ++ a' :: after } ∧ a'.begun = a.begun ∧
      a'.aim = .returned sent

/-- Whoever kills a program, and whatever its number has come to stand for, signals are sent as the looks
allow, and no others. -/
theorem signals_of_reaches (h : opening.Reaches s) {a : Attempt} (ha : a ∈ s.attempts) :
    Signals s a := by
  obtain ⟨hc, ho, hstrays⟩ := sound_of_reaches h a ha
  refine ⟨hc.cleared_iff, fun _ => hc.answer, ?known, fun e he => ⟨?unknown, hstrays e he⟩,
    fun _ _ => exists_returned⟩
  case known =>
    intro e he
    have hshots : a.shots = [] := by
      by_contra hs
      obtain ⟨f, hf, hn, -⟩ := hc.cleared_iff.2 (Or.inr hs)
      have hlater := (ho.first f hf).1
      rw [he] at hlater
      rw [hlater.of_published] at hn
      cases hn
    refine ⟨hshots, fun sent hsent => ?_⟩
    rw [hc.answer hsent, hshots]
    rfl
  case unknown =>
    have unknown_of : ∀ {f : Fate}, a.begun.Later f → f.published? = none → f = .collected e := by
      intro f hlater hn
      rw [he] at hlater
      refine hlater.of_collected.resolve_right ?_
      rintro rfl
      cases hn
    constructor
    · rintro ⟨f, hf, hn, htold⟩
      have hlater := (ho.first f hf).1
      refine ⟨unknown_of hlater hn ▸ hf, htold.imp id ?_⟩
      rintro ⟨ht, g, hg, hgn⟩
      exact ⟨ht, unknown_of (hlater.trans (ho.second f g hf hg).1) hgn ▸ hg⟩
    · rintro ⟨hf, htold⟩
      exact ⟨_, hf, rfl, htold.imp id fun ⟨ht, hg⟩ => ⟨ht, _, hg, rfl⟩⟩

/-- A call is begun when the waiter has just taken the status, and asks the system in vain; it finds the
status known at its last look, and sends no signal to the stranger who has the number by then. -/
theorem signals_of_late_look : ∃ s a, opening.Reaches s ∧ a ∈ s.attempts ∧ Signals s a ∧
    s.namesake = .stranger true true ∧ a.begun = .collected (.exited 3) ∧
    a.told = some .nothing ∧ a.shots = [] ∧ a.aim = .returned false := by
  have r : opening.Reaches ⟨.ended (.exited 3), .nobody, []⟩ := .single (.ends _ rfl)
  have r : opening.Reaches ⟨.collected (.exited 3), .nobody, []⟩ :=
    r.tail (.collect _ _ rfl (Or.inl rfl))
  have r : opening.Reaches ⟨.collected (.exited 3), .nobody, [{ begun := .collected (.exited 3) }]⟩ :=
    r.tail .call
  have r : opening.Reaches ⟨.collected (.exited 3), .stranger true true,
      [{ begun := .collected (.exited 3) }]⟩ := r.tail (.passes _ rfl (.takes _ nofun))
  have r : opening.Reaches ⟨.collected (.exited 3), .stranger true true,
      [⟨.collected (.exited 3), .asking, some (.collected (.exited 3)), none, none, []⟩]⟩ :=
    r.tail (.goOn [] [] _ _ rfl (.look rfl))
  have r : opening.Reaches ⟨.collected (.exited 3), .stranger true true, [⟨.collected (.exited 3),
      .lookingAgain, some (.collected (.exited 3)), some .nothing, none, []⟩]⟩ :=
    r.tail (.goOn [] [] _ _ rfl (.ask rfl))
  have r : opening.Reaches ⟨.published (.exited 3), .stranger true true, [⟨.collected (.exited 3),
      .lookingAgain, some (.collected (.exited 3)), some .nothing, none, []⟩]⟩ :=
    r.tail (.publish _ rfl)
  have r : opening.Reaches ⟨.published (.exited 3), .stranger true true, [⟨.collected (.exited 3),
      .returned false, some (.collected (.exited 3)), some .nothing, some (.published (.exited 3)),
      []⟩]⟩ := r.tail (.goOn [] [] _ _ rfl (.lookAgain rfl))
  have ha := List.mem_singleton_self (Attempt.mk (.collected (.exited 3)) (.returned false)
    (some (.collected (.exited 3))) (some .nothing) (some (.published (.exited 3))) [])
  exact ⟨_, _, r, ha, signals_of_reaches r ha, rfl, rfl, rfl, rfl, rfl⟩

/-- Whoever begins to kill a program when its status was taken sends no signal, and says so. -/
def Spares (a : Attempt) : Prop :=
  (∃ e, a.begun = .collected e ∨ a.begun = .published e) →
    a.shots = [] ∧ ∀ sent, a.aim = .returned sent → sent = false

/-- A call is begun when the waiter has taken the status and has not made it known yet, and signals the
group of a stranger who has been given the number. -/
theorem signal_to_stranger : ∃ s, opening.Reaches s ∧ ∃ a ∈ s.attempts, ¬ Spares a ∧
    a.begun = .collected (.exited 3) ∧ a.shots = [some .stranger] ∧ a.aim = .returned true := by
  have r : opening.Reaches ⟨.ended (.exited 3), .nobody, []⟩ := .single (.ends _ rfl)
  have r : opening.Reaches ⟨.collected (.exited 3), .nobody, []⟩ :=
    r.tail (.collect _ _ rfl (Or.inl rfl))
  have r : opening.Reaches ⟨.collected (.exited 3), .stranger true true, []⟩ :=
    r.tail (.passes _ rfl (.takes _ nofun))
  have r : opening.Reaches ⟨.collected (.exited 3), .stranger true true,
      [{ begun := .collected (.exited 3) }]⟩ := r.tail .call
  have r : opening.Reaches ⟨.collected (.exited 3), .stranger true true,
      [⟨.collected (.exited 3), .asking, some (.collected (.exited 3)), none, none, []⟩]⟩ :=
    r.tail (.goOn [] [] _ _ rfl (.look rfl))
  have r : opening.Reaches ⟨.collected (.exited 3), .stranger true true, [⟨.collected (.exited 3),
      .lookingAgain, some (.collected (.exited 3)), some .nothing, none, []⟩]⟩ :=
    r.tail (.goOn [] [] _ _ rfl (.ask rfl))
  have r : opening.Reaches ⟨.collected (.exited 3), .stranger true true, [⟨.collected (.exited 3),
      .atGroup, some (.collected (.exited 3)), some .nothing, some (.collected (.exited 3)), []⟩]⟩ :=
    r.tail (.goOn [] [] _ _ rfl (.lookAgain rfl))
  have r : opening.Reaches ⟨.collected (.exited 3), .stranger true true, [⟨.collected (.exited 3),
      .returned true, some (.collected (.exited 3)), some .nothing, some (.collected (.exited 3)),
      [some .stranger]⟩]⟩ := r.tail (.goOn [] [] _ _ rfl (.signalGroup rfl))
  refine ⟨_, r, _, List.mem_singleton_self _, fun h => ?_, rfl, rfl, rfl⟩
  cases (h ⟨.exited 3, Or.inl rfl⟩).1

end Pursuit

/-! ## Without interruption -/

namespace Child

variable (h : Host) (c : Child)

theorem hasExited_eq : c.hasExited = (c.fate h).published?.isSome := by
  unfold hasExited fate
  cases c.published <;> cases c.collected <;> try rfl
  cases (h.process? c.process).bind (·.status) <;> rfl

/-- A signal is sent to a program that is alive, and to no other. -/
theorem sent_kill : (c.kill h).2 = decide (c.fate h = .alive) := by
  unfold kill
  rw [hasExited_eq h]
  cases c.fate h <;> rfl

/-- The waiter takes the end of a program one step further. -/
theorem fate_serveWaiter : (c.serveWaiter h).2.1.fate (c.serveWaiter h).1 = c.fate h ∨
    (c.fate h).Next ((c.serveWaiter h).2.1.fate (c.serveWaiter h).1) := by
  unfold serveWaiter
  cases hf : c.fate h with
  | alive | published e => exact Or.inl hf
  | collected e => exact Or.inr (.publish e)
  | ended e =>
    have hp : c.published = none := by
      have hunknown : c.published.isSome = (c.fate h).published?.isSome := c.hasExited_eq h
      rw [hf] at hunknown
      exact Option.not_isSome_iff_eq_none.1 (by rw [hunknown]; exact nofun)
    have hcollected : { c with collected := some e }.fate (h.reap c.process) = .collected e := by
      simp [fate, hp]
    exact Or.inr (hcollected ▸ .collect e)

end Child

/-- A call that nobody interrupts, while the number of the program is nobody else's, answers as
`Child.kill`. -/
theorem Pursuit.kill_alone {s : Pursuit} {h : Host} {c : Child} (hf : s.fate = c.fate h)
    (hn : s.namesake = .nobody) : ∃ t a, s.Reaches t ∧ t.attempts = s.attempts ++ [a] ∧
      a.aim = .returned (c.kill h).2 := by
  obtain ⟨fate, namesake, attempts⟩ := s
  obtain rfl : namesake = .nobody := hn
  obtain rfl : fate = c.fate h := hf
  rw [c.sent_kill h]
  have r : Reaches ⟨c.fate h, .nobody, attempts⟩ _ := .single .call
  generalize c.fate h = fate at r ⊢
  have goOn : ∀ {a a' : Attempt}, a.Next fate .nobody a' →
      Reaches ⟨fate, .nobody, attempts⟩ ⟨fate, .nobody, attempts ++ [a]⟩ →
        Reaches ⟨fate, .nobody, attempts⟩ ⟨fate, .nobody, attempts ++ [a']⟩ :=
    fun ha r => r.tail (.goOn attempts [] _ _ rfl ha)
  have r := goOn (.look rfl) r
  cases fate with
  | published e => exact ⟨_, _, r, rfl, rfl⟩
  | ended e => exact ⟨_, _, goOn (.ask rfl) r, rfl, rfl⟩
  | alive => exact ⟨_, _, goOn (.signalGroup rfl) (goOn (.ask rfl) r), rfl, rfl⟩
  | collected e =>
    have r := goOn (.lookAgain rfl) (goOn (.ask rfl) r)
    exact ⟨_, _, goOn (.signalProcess rfl) (goOn (.signalGroup rfl) r), rfl, rfl⟩

end SessionHost
