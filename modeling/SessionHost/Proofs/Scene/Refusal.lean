import SessionHost.Proofs.Scene.Finish
import SessionHost.Proofs.Scene.Holding
import SessionHost.Proofs.Scene.NaturalExit

/-!
# Input for a session that has ended

A session takes no input any more when its state is terminal, when the end of its program is known, or
when the input of the program is closed (`Session.Over`). Text and interactive sessions look at all
three before they queue anything. A debugger's commands go to its pacer first, which looks at none of
them: it refuses a command only when the pump has closed it, late in the end of the session. Until then
it queues the command, to discard it later, or releases it to a program that does not take it.

* `Session.submitInput_of_closed`, `Session.submitInput_ne_of_open`: with a closed pacer, or without one,
  an ended session refuses input and stays as it is; with an open one it does not.
* `Scene.Refuses`: what it is to refuse a payload from now on, also amid the steps of others.
* `Scene.refuses_iff`: a session that has ended does so exactly if it is none of a debugger or the pump
  has closed the pacer.
* `Scene.killed_debugger_takes_command`: a debugger that has ended in between.
-/
namespace SessionHost

namespace Session

/-- Nothing can be sent to the program of this session any more. -/
def Over (s : Session) : Prop :=
  s.state.isTerminal = true ∨ s.child.hasExited = true ∨ s.child.input.isOpen = false

variable {s : Session}

/-! ## A session on its own -/

theorem enqueue_of_over (h : s.child.hasExited = true ∨ s.child.input.isOpen = false) (bs : Bytes) :
    s.enqueue? bs = .error .closedStream := by
  unfold enqueue? Child.write?
  rcases h with he | hi
  · rw [if_pos he]
  · rw [InputChannel.send_eq_none hi, Option.map_none, ite_self]

theorem writeInput_of_over (h : s.Over) (bs : Bytes) : s.writeInput? bs = .error .closedStream := by
  unfold writeInput?
  split
  · rfl
  · rename_i hlive
    rw [enqueue_of_over (h.resolve_left hlive)]
    rfl

theorem sendCommand_of_closed (h : s.Over) (hp : ∀ p, s.pacer = some p → p.closed = true)
    (line : String) : s.sendCommand line = (s, .error .closedStream) := by
  unfold sendCommand
  cases hs : s.pacer with
  | none => simp only [writeInput_of_over h]
  | some p => simp only [Pacer.send_eq_none_iff.2 (hp p hs)]

/-- A session that has ended, and has no pacer that is open, refuses input and stays as it is. -/
theorem submitInput_of_closed (h : s.Over) (hp : ∀ p, s.pacer = some p → p.closed = true)
    {payload : String} (hl : commandLines payload ≠ []) :
    s.submitInput payload = (s, .error .closedStream) := by
  unfold submitInput
  split
  · cases hlines : commandLines payload with
    | nil => exact absurd hlines hl
    | cons line rest => simp only [sendCommands, sendCommand_of_closed h hp]
  · simp only [writeInput_of_over h]

theorem sendCommand_of_busy {p : Pacer} (hp : s.pacer = some p) (ho : p.closed = false)
    (hb : p.prompt = .busy) (line : String) : s.sendCommand line =
      (s.withPacer { p with queue := p.queue ++ [Text.dropLineEnd line] }, .ok ()) := by
  simp [sendCommand, hp, Pacer.send, ho, Pacer.dispatch, hb]

/-- An open pacer takes every command for a busy debugger. -/
theorem sendCommands_of_busy {s : Session} {p : Pacer} (hp : s.pacer = some p)
    (ho : p.closed = false) (hb : p.prompt = .busy) (lines : List String) : s.sendCommands lines =
      (s.withPacer { p with queue := p.queue ++ lines.map Text.dropLineEnd }, .ok ()) := by
  induction lines generalizing s p with
  | nil =>
    simp only [sendCommands, List.map_nil, List.append_nil, withPacer]
    rw [← hp]
  | cons line rest ih =>
    simp only [sendCommands, sendCommand_of_busy hp ho hb]
    rw [ih (p := { p with queue := p.queue ++ [Text.dropLineEnd line] }) rfl ho hb]
    simp [withPacer]

/-- An open pacer releases a command for an idle debugger, which is busy from then on. -/
theorem sendCommand_of_idle {p : Pacer} (hp : s.pacer = some p) (ho : p.closed = false)
    (hi : p.prompt = .idle) (line : String) :
    ∃ q : Pacer, q.closed = false ∧ q.prompt = .busy ∧
      ((∃ x : Session, x.pacer = some q ∧ s.sendCommand line = (x, .ok ())) ∨
        s.sendCommand line = (s.withPacer q, .error .closedStream)) := by
  obtain ⟨first, rest, hq⟩ : ∃ first rest, p.queue ++ [Text.dropLineEnd line] = first :: rest :=
    List.exists_cons_of_ne_nil (by simp)
  have hs : p.send line =
      some ({ p with prompt := .busy, queue := rest }, some (Pacer.commandBytes first)) := by
    simp [Pacer.send, ho, Pacer.dispatch, hi, hq]
  refine ⟨{ p with prompt := .busy, queue := rest }, ho, rfl, ?_⟩
  simp only [sendCommand, hp, hs]
  cases he : (s.withPacer { p with prompt := .busy, queue := rest }).enqueue?
      (Pacer.commandBytes first) with
  | ok x =>
    refine Or.inl ⟨_, ?_, rfl⟩
    unfold enqueue? at he
    split at he <;> cases he
    rfl
  | error e =>
    refine Or.inr ?_
    unfold enqueue? at he
    split at he <;> cases he
    rfl

theorem sendCommands_ne_of_open {p : Pacer} (hp : s.pacer = some p) (ho : p.closed = false)
    {lines : List String} (hl : lines ≠ []) (e : SessionError) :
    s.sendCommands lines ≠ (s, .error e) := by
  obtain ⟨line, rest, rfl⟩ := List.exists_cons_of_ne_nil hl
  intro heq
  have htaken : ∀ {x : Session} {q : Pacer}, x.pacer = some q → q.closed = false →
      q.prompt = .busy → x.sendCommands rest ≠ (s, .error e) := by
    intro x q hx hopen hb h
    rw [sendCommands_of_busy hx hopen hb] at h
    cases congrArg Prod.snd h
  cases hb : p.prompt with
  | busy =>
    simp only [sendCommands, sendCommand_of_busy hp ho hb] at heq
    exact htaken (q := { p with queue := p.queue ++ [Text.dropLineEnd line] }) rfl ho hb heq
  | idle =>
    obtain ⟨q, hopen, hbusy, ⟨x, hx, hsent⟩ | hsent⟩ := sendCommand_of_idle hp ho hb line
    · simp only [sendCommands, hsent] at heq
      exact htaken hx hopen hbusy heq
    · simp only [sendCommands, hsent] at heq
      have hpacer : some q = s.pacer := congrArg (·.1.pacer) heq
      rw [hp] at hpacer
      rw [Option.some.inj hpacer, hb] at hbusy
      cases hbusy

/-- A debugger session refuses no input as long as its pacer is open, or it does not stay as it is. -/
theorem submitInput_ne_of_open (hm : s.mode = .debugger) {p : Pacer} (hp : s.pacer = some p)
    (ho : p.closed = false) {payload : String} (hl : commandLines payload ≠ []) (e : SessionError) :
    s.submitInput payload ≠ (s, .error e) := by
  rw [submitInput, if_pos hm]
  exact sendCommands_ne_of_open hp ho hl e

end Session

/-- A caller whose input will come to nothing, in a session that is over and has no open pacer: what it
has not looked at yet is in its way. -/
def Task.Fails (x : Session) : Task → Prop
  | .sending (.commanding lines) => lines ≠ []
  | .sending (.checking ..) => True
  | .sending (.offering paced ..) =>
    paced = false ∧ (x.child.hasExited = true ∨ x.child.input.isOpen = false)
  | .sending (.pushing paced ..) => paced = false ∧ x.child.input.isOpen = false
  | _ => False

namespace Scene

variable {s t : Scene}

/-! ## Nothing can be sent any more -/

theorem Step.hasExited (hst : Step s t) (h : s.session.child.hasExited = true) :
    t.session.child.hasExited = true := by
  obtain ⟨e, he⟩ := hasExited_iff.1 h
  refine hasExited_iff.2 ⟨e, ?_⟩
  cases hst.endStep with
  | same hf => rw [hf, he]
  | next hf =>
    rw [he] at hf
    cases hf

theorem Step.isOpen (hst : Step s t) (h : s.session.child.input.isOpen = false) :
    t.session.child.input.isOpen = false := by
  rcases hst.undisturbed_or_finishes with hu | ⟨e, f, rest, now, -, rfl⟩
  · exact hu.shut h
  · cases f with
    | closeInput => exact Bool.and_false _
    | _ => exact h

theorem Step.over (hst : Step s t) (h : s.session.Over) : t.session.Over := by
  rcases h with ht | he | hi
  · exact Or.inl ((congrArg SessionState.isTerminal (hst.onward.terminal ht)).trans ht)
  · exact Or.inr (Or.inl (hst.hasExited he))
  · exact Or.inr (Or.inr (hst.isOpen hi))

/-- A session that refuses input: it is over, and no pacer of it is open. -/
def Closed (s : Scene) : Prop := s.session.Over ∧ FinishStep.closePacer.Mark s.session

theorem Closed.of_step (h : Closed s) (hst : Step s t) : Closed t :=
  ⟨hst.over h.1, hst.mark h.2⟩

theorem Closed.of_reaches (h : Closed s) (hr : s.Reaches t) : Closed t :=
  Reaches.keeps (fun _ _ hc hst => Closed.of_step hc hst) hr h

/-! ## On the way to a refusal -/

theorem Step.task_of_sending (hst : Step s t) {i : Nat} {x : Sending} (hi : s.task i = .sending x) :
    t.task i = s.task i ∨ SendStep s t := by
  cases hst with
  | send h => exact Or.inr h
  | world h => cases h <;> exact Or.inl rfl
  | pump h =>
    cases h with
    | move prompt paced => cases paced <;> exact Or.inl rfl
    | _ => exact Or.inl rfl
  | read h =>
    cases h with
    | readSince => exact Or.inl rfl
    | callPoll j _ hj | callPollFrom j _ _ hj | acquire j _ _ hj | look j _ _ _ hj =>
      exact Or.inl (task_put_of_task_ne hj hi nofun)
    | takeOwn j _ _ _ hj | take j _ _ _ _ _ hj | refuse j _ _ _ _ _ hj | store j _ _ _ hj =>
      exact Or.inl (task_put_of_task_ne hj hi nofun)
  | kill h =>
    cases h with
    | call j _ hj | recorded j _ _ hj | enter j _ hj | goOn j _ _ _ hj | decide j _ _ _ _ hj =>
      exact Or.inl (task_put_of_task_ne hj hi nofun)
    | move j _ _ hj | answer j _ _ hj => exact Or.inl (task_put_of_task_ne hj hi nofun)
  | tell h =>
    cases h with
    | readExit | readState => exact Or.inl rfl
    | callWait j hj | seeDone j hj | answerWait j hj | callSnapshot j hj | readLength j _ hj =>
      exact Or.inl (task_put_of_task_ne hj hi nofun)
    | answerSnapshot j _ _ hj | routeState j _ hj | routeExit j _ _ hj =>
      exact Or.inl (task_put_of_task_ne hj hi nofun)

/-- A caller whose input comes to nothing goes on to its refusal, or another caller goes on. -/
theorem Closed.send_step (h : Closed s) {i : Nat} (hf : (s.task i).Fails s.session)
    (hst : SendStep s t) : t.task i = s.task i ∨ (∃ x, t = s.put i x ∧ x.Fails s.session) ∨
      t = s.answerInput i (.error .closedStream) := by
  have other : ∀ {u : Scene} {j : Nat} {x : Task}, u.task = s.task → i ≠ j →
      (u.put j x).task i = s.task i := fun hu hne => by rw [task_put_of_ne _ _ hne, hu]
  have unsent : ∀ {p p' : Pacer} {line : String} {out : Option Bytes}, s.session.pacer = some p →
      p.send line ≠ some (p', out) := fun hp hs => by
    rw [Pacer.send_eq_none_iff.2 (h.2 _ hp)] at hs
    cases hs
  cases hst with
  | closeInput => exact Or.inl rfl
  | submit j _ hj | write j _ hj | command j _ hj | note j _ hj =>
    refine Or.inl (other rfl ?_)
    rintro rfl
    rw [hj] at hf
    exact hf
  | answer j hj =>
    refine Or.inl (other rfl ?_)
    rintro rfl
    rw [hj] at hf
    exact hf rfl
  | move j paced _ hj =>
    refine Or.inl (other (by cases paced <;> rfl) ?_)
    rintro rfl
    rw [hj] at hf
    exact hf
  | queue j _ _ _ _ _ hp _ hs => exact absurd hs (unsent hp)
  | dispatch j _ _ _ _ _ _ hp _ hs => exact absurd hs (unsent hp)
  | push j paced _ _ _ hj hq =>
    refine Or.inl (other rfl ?_)
    rintro rfl
    rw [hj] at hf
    rw [InputChannel.send_eq_none hf.2] at hq
    cases hq
  | plain j line rest hj =>
    by_cases hij : i = j
    · subst hij
      exact Or.inr (Or.inl ⟨_, rfl, trivial⟩)
    · exact Or.inl (other rfl hij)
  | check j bytes rest hj ht =>
    by_cases hij : i = j
    · subst hij
      refine Or.inr (Or.inl ⟨_, rfl, rfl, h.1.resolve_left ?_⟩)
      rw [ht]
      exact nofun
    · exact Or.inl (other rfl hij)
  | offer j paced bytes rest hj he =>
    by_cases hij : i = j
    · subst hij
      rw [hj] at hf
      refine Or.inr (Or.inl ⟨_, rfl, hf.1, hf.2.resolve_left ?_⟩)
      rw [he]
      exact nofun
    · exact Or.inl (other rfl hij)
  | refuse j | tooLate j =>
    by_cases hij : i = j
    · subst hij
      exact Or.inr (Or.inr rfl)
    · exact Or.inl (other rfl hij)
  | exited j paced _ _ hj | closed j paced _ _ hj =>
    by_cases hij : i = j
    · subst hij
      rw [hj] at hf
      obtain rfl : paced = false := hf.1
      exact Or.inr (Or.inr rfl)
    · exact Or.inl (other (by cases paced <;> rfl) hij)

theorem Step.fails (hst : Step s t) {x : Task} (h : x.Fails s.session) : x.Fails t.session := by
  unfold Task.Fails at h ⊢
  split at h
  case h_1 | h_2 => exact h
  case h_3 => exact ⟨h.1, h.2.imp hst.hasExited hst.isOpen⟩
  case h_4 => exact ⟨h.1, hst.isOpen h.2⟩
  case h_5 => exact h.elim

/-- The input of a caller has come to nothing so far: the caller has only gone on to look at other parts
of the session since `s`, and others may have had their turns. -/
inductive Failing (s : Scene) (i : Nat) : Scene → Prop where
  | begun : Failing s i s
  | other {t u : Scene} (h : Failing s i t) (hst : Step t u) (same : u.task i = t.task i) :
    Failing s i u
  | own {t : Scene} (x : Sending) (h : Failing s i t) (hst : Step t (t.put i (.sending x))) :
    Failing s i (t.put i (.sending x))

/-- The input of a caller has come to nothing so far, or was refused, with the session left as it was. -/
def Refused (s : Scene) (i : Nat) (t : Scene) : Prop :=
  Failing s i t ∨ ∃ u, Failing s i u ∧ Step u (u.answerInput i (.error .closedStream)) ∧
    (u.answerInput i (.error .closedStream)).Reaches t

theorem Task.sending_of_fails {x : Session} {y : Task} (h : y.Fails x) : ∃ z, y = .sending z := by
  cases y with
  | sending z => exact ⟨z, rfl⟩
  | idle | reading | ending | telling => exact h.elim

/-- Whoever begins to send to a session that refuses input is refused. -/
theorem Closed.refused (h : Closed s) {i : Nat} (hf : (s.task i).Fails s.session)
    (hr : s.Reaches t) : Refused s i t := by
  have key : (Failing s i t ∧ (t.task i).Fails t.session) ∨ ∃ u, Failing s i u ∧
      Step u (u.answerInput i (.error .closedStream)) ∧
        (u.answerInput i (.error .closedStream)).Reaches t := by
    induction hr with
    | refl => exact Or.inl ⟨.begun, hf⟩
    | tail hr hst ih =>
      rename_i u v
      rcases ih with ⟨hfailing, hfails⟩ | ⟨w, hw, hanswer, hlater⟩
      · obtain ⟨x, hx⟩ := Task.sending_of_fails hfails
        have hnext : v.task i = u.task i ∨ (∃ x, v = u.put i x ∧ x.Fails u.session) ∨
            v = u.answerInput i (.error .closedStream) := by
          rcases hst.task_of_sending hx with he | hs
          · exact Or.inl he
          · exact (h.of_reaches hr).send_step hfails hs
        rcases hnext with he | ⟨y, rfl, hy⟩ | rfl
        · exact Or.inl ⟨hfailing.other hst he, by rw [he]; exact hst.fails hfails⟩
        · obtain ⟨z, rfl⟩ := Task.sending_of_fails hy
          refine Or.inl ⟨hfailing.own z hst, ?_⟩
          rw [task_put_self]
          exact hy
        · exact Or.inr ⟨u, hfailing, hst, .refl⟩
      · exact Or.inr ⟨w, hw, hanswer, hlater.tail hst⟩
  exact key.imp And.left id

theorem Failing.sending {i : Nat} (h : Failing s i t) (hs : ∃ x, s.task i = .sending x) :
    ∃ x, t.task i = .sending x := by
  induction h with
  | begun => exact hs
  | other _ _ same ih => rw [same]; exact ih
  | own x => exact ⟨x, task_put_self ..⟩

/-- A caller can come to an end with what it is doing. -/
def CanIdle (s : Scene) (i : Nat) : Prop := ∃ t, s.Reaches t ∧ t.task i = .idle

variable {i : Nat} {bytes : Bytes} {rest : List String}

theorem CanIdle.of_step (h : t.CanIdle i) (hst : Step s t) : s.CanIdle i := by
  obtain ⟨u, hu, hi⟩ := h
  exact ⟨u, .head hst hu, hi⟩

theorem canIdle_of_answer {x : Scene} {r : Except SessionError Unit}
    (hst : Step s (x.answerInput i r)) : s.CanIdle i :=
  ⟨_, .single hst, task_put_self ..⟩

theorem canIdle_of_pushing (hi : s.task i = .sending (.pushing false bytes rest))
    (h : s.session.child.input.isOpen = false) : s.CanIdle i :=
  canIdle_of_answer (.send (.closed i false bytes rest hi (InputChannel.send_eq_none h)))

theorem canIdle_of_offering (hi : s.task i = .sending (.offering false bytes rest))
    (h : s.session.child.hasExited = true ∨ s.session.child.input.isOpen = false) :
    s.CanIdle i := by
  cases he : s.session.child.hasExited with
  | true => exact canIdle_of_answer (.send (.exited i false bytes rest hi he))
  | false =>
    have hshut := h.resolve_left (by rw [he]; exact nofun)
    exact (canIdle_of_pushing (task_put_self ..) hshut).of_step
      (.send (.offer i false bytes rest hi he))

theorem canIdle_of_checking (hi : s.task i = .sending (.checking bytes rest)) (h : s.session.Over) :
    s.CanIdle i := by
  cases ht : s.session.state.isTerminal with
  | true => exact canIdle_of_answer (.send (.tooLate i bytes rest hi ht))
  | false =>
    have hover := h.resolve_left (by rw [ht]; exact nofun)
    exact (canIdle_of_offering (task_put_self ..) hover).of_step
      (.send (.check i bytes rest hi ht))

theorem Closed.canIdle_of_commanding (h : Closed s) (hh : Held s) {line : String}
    (hi : s.task i = .sending (.commanding (line :: rest))) : s.CanIdle i := by
  -- the pacer may be held by somebody who found it open
  obtain ⟨u, hu, hfree, -, hothers⟩ := hh.exists_pacer_free
  have hui := (hothers i (by rw [hi]; rfl)).trans hi
  have hclosed := h.of_reaches hu.reaches
  have hidle : u.CanIdle i := by
    cases hp : u.session.pacer with
    | none =>
      exact (canIdle_of_checking (task_put_self ..) hclosed.1).of_step
        (.send (.plain i line rest hui hp))
    | some p =>
      have hrefuse : p.send line = none := Pacer.send_eq_none_iff.2 (hclosed.2 p hp)
      exact canIdle_of_answer (.send (.refuse i line rest p hui hp hfree hrefuse))
  obtain ⟨t, ht, hti⟩ := hidle
  exact ⟨t, hu.reaches.trans ht, hti⟩

/-- A caller who is on the way to a refusal can come to it. -/
theorem Closed.canIdle (h : Closed s) (hh : Held s) (hf : (s.task i).Fails s.session) :
    s.CanIdle i := by
  unfold Task.Fails at hf
  split at hf
  case h_1 lines hs =>
    obtain ⟨line, rest, rfl⟩ := List.exists_cons_of_ne_nil hf
    exact h.canIdle_of_commanding hh hs
  case h_2 hs => exact canIdle_of_checking hs h.1
  case h_3 hs =>
    obtain ⟨rfl, hover⟩ := hf
    exact canIdle_of_offering hs hover
  case h_4 hs =>
    obtain ⟨rfl, hshut⟩ := hf
    exact canIdle_of_pushing hs hshut
  case h_5 => exact hf.elim

/-- A caller has just begun to submit a payload. -/
def submitting (s : Scene) (i : Nat) (payload : String) : Scene :=
  s.put i (.sending (s.session.beginInput payload))

theorem fails_beginInput {x : Session} {payload : String} (hl : Session.commandLines payload ≠ []) :
    (Task.sending (x.beginInput payload)).Fails x := by
  unfold Session.beginInput
  split
  · exact hl
  · trivial

structure Refuses (s : Scene) (payload : String) : Prop where
  /-- Whoever submits it without interruption is refused, and the session stays as it is. -/
  alone : ∀ t, s.Reaches t →
    t.session.submitInput payload = (t.session, .error .closedStream)
  /-- Whoever submits it while others are at work changes nothing and is refused. -/
  amid : ∀ t i, s.Reaches t → t.task i = .idle → ∀ u, (t.submitting i payload).Reaches u →
    Refused (t.submitting i payload) i u
  /-- The refusal can come. -/
  answered : ∀ t i, s.Reaches t → t.task i = .idle →
    ∃ u, Failing (t.submitting i payload) i u ∧ Step u (u.answerInput i (.error .closedStream))

theorem Closed.refuses (h : Closed s) (hh : Held s) {payload : String}
    (hl : Session.commandLines payload ≠ []) : s.Refuses payload := by
  have begun : ∀ {t : Scene} (i : Nat), s.Reaches t → t.task i = .idle →
      Closed (t.submitting i payload) ∧ Held (t.submitting i payload) ∧
        ((t.submitting i payload).task i).Fails (t.submitting i payload).session := by
    intro t i ht hi
    have hst := Step.send (.submit i payload hi)
    refine ⟨(h.of_reaches ht).of_step hst, (hh.of_reaches ht).of_step hst, ?_⟩
    rw [submitting, task_put_self]
    exact fails_beginInput hl
  refine ⟨fun t ht => ?_, fun t i ht hi u hu => ?_, fun t i ht hi => ?_⟩
  · have hclosed := h.of_reaches ht
    exact Session.submitInput_of_closed hclosed.1 hclosed.2 hl
  · obtain ⟨hclosed, -, hf⟩ := begun i ht hi
    exact hclosed.refused hf hu
  · obtain ⟨hclosed, hheld, hf⟩ := begun i ht hi
    obtain ⟨u, hu, hidle⟩ := hclosed.canIdle hheld hf
    rcases hclosed.refused hf hu with hfailing | ⟨v, hv, hst, -⟩
    · obtain ⟨x, hx⟩ := hfailing.sending (Task.sending_of_fails hf)
      rw [hidle] at hx
      cases hx
    · exact ⟨v, hv, hst⟩

/-- A session that is over refuses all input, unless it is a debugger's and the pump has not closed its
pacer yet. -/
theorem refuses_iff {mode : Mode} {child : Child} {settings : SessionSettings}
    {scratch : Option Host.Path} (h : (start mode child settings scratch).Reaches s)
    (hover : s.session.Over) {payload : String} (hl : Session.commandLines payload ≠ []) :
    s.Refuses payload ↔ (mode = .debugger → s.Past .closePacer) := by
  have hclosing := closing_of_reaches h
  obtain ⟨hmode, hpacer⟩ := mode_of_reaches h
  constructor
  · intro hrefuses hm
    obtain ⟨p, hp⟩ := Option.isSome_iff_exists.1 (hpacer.trans (decide_eq_true hm))
    cases ho : p.closed with
    | true =>
      refine hclosing.own .closePacer ⟨p, hp⟩ fun q hq => ?_
      rw [← Option.some.inj (hp.symm.trans hq)]
      exact ho
    | false =>
      have hne := Session.submitInput_ne_of_open (hmode.trans hm) hp ho hl .closedStream
      exact absurd (hrefuses.alone s .refl) hne
  · intro hpast
    have hclosed : Closed s := by
      refine ⟨hover, fun p hp => ?_⟩
      rw [hp] at hpacer
      exact hclosing.marked _ (hpast (of_decide_eq_true hpacer.symm)) p hp
    exact hclosed.refuses ((held_start mode child settings scratch).of_reaches h) hl

/-- A program over pipes whose input has been closed. -/
theorem refuses_text_of_closed_input :
    ∃ s, quiet.Reaches s ∧ s.session.Over ∧ s.Refuses "1 2\n" := by
  have r : quiet.Reaches quiet := .refl
  have r := r.tail (.send .closeInput)
  refine ⟨_, r, Or.inr (Or.inr rfl), ?_⟩
  exact (refuses_iff r (Or.inr (Or.inr rfl)) (by decide)).2 nofun

/-- A debugger on a terminal, with nobody at work but the pump. -/
def debugging : Scene :=
  start .debugger { process := 1, wiring := .terminal, outlet := 1, inlet := 1, chunkSize := 4096 }
    { (default : SessionSettings) with promptMarker := "> " } none

/-- A debugger has prompted, was killed and is known to have ended, and its input is closed. The first
command is refused and leaves the prompt another one; the second is taken and queued for nobody. -/
theorem killed_debugger_takes_command :
    ∃ s, debugging.Reaches s ∧ s.session.state = .killed ∧ s.session.child.hasExited = true ∧
      s.session.child.input.isOpen = false ∧ s.session.prompt? = some .idle ∧
      ∃ x, s.session.submitInput "next" = (x, .error .closedStream) ∧ x.prompt? = some .busy ∧
        ∃ y, x.submitInput "next" = (y, .ok ()) ∧ y.pacer.map (·.queue) = some ["next"] := by
  have r : debugging.Reaches debugging := .refl
  have r := r.tail (.pump (.arrive [62, 32] rfl))
  have r := r.tail (.pump (.mark _ rfl))
  have r := r.tail (.pump (.observe _ _ _ rfl rfl rfl rfl))
  have r := r.tail (.pump (.move _ true rfl))
  have r := r.tail (.kill (.call 0 false rfl))
  have r := r.tail (.kill (.enter 0 _ rfl rfl rfl))
  have r := r.tail (.kill (.goOn 0 _ .look .peek rfl rfl))
  have r := r.tail (.kill (.goOn 0 _ .peek .lookAgain rfl rfl))
  have r := r.tail (.kill (.goOn 0 _ .lookAgain .peekAgain rfl rfl))
  have r := r.tail (.kill (.goOn 0 _ .peekAgain .signal rfl rfl))
  have r := r.tail (.kill (.decide 0 _ .signal (.killed 9) true rfl rfl))
  have r := r.tail (.kill (.move 0 _ _ rfl))
  have r := r.tail (.world (.ends (.signaled 9) rfl))
  have r := r.tail (.world (.collect (.signaled 9) rfl))
  have r := r.tail (.world (.publish (.signaled 9) rfl))
  have r := r.tail (.send .closeInput)
  exact ⟨_, r, rfl, rfl, rfl, rfl, _, rfl, rfl, _, rfl, rfl⟩

end Scene

end SessionHost
