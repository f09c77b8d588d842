import SessionHost.Proofs.Scene.Finish
import SessionHost.Proofs.Scene.PolledText

/-!
# What can be relied on when a session shows its end

The parts of a session that tell of its end are changed one after the other, and anybody may look at any
of them in between. Whoever sees one of them changed goes on as if those before it were changed as well:
a place is counted on when the end is noted, all output when the log is closed, and how the session ended
when its state is terminal.

* `Session.Ordered`: what each of these parts stands for. It holds of the session in every scene
  (`Closing.ordered`), since the pump leaves its marks in their order (`Closing.mark_of_le`).
* `Scene.Complete`: all output is there, and how the session ended, and both stay. This is so once the
  log is closed (`complete_of_sealed`), so whoever was told that a session is done or that its output is
  finished can rely on it (`done_of_waited`, `sealed_of_finished`).
-/
namespace SessionHost

/-- A pacer that is closed has given up its commands and takes the debugger to be busy. -/
def Pacer.GivesUp (p : Pacer) : Prop := p.closed = true → p.queue = [] ∧ p.prompt = .busy

/-- Each part that tells of the end shows no earlier than those before it. -/
structure Session.Ordered (x : Session) : Prop where
  announced : x.done = true → ∃ at_, x.finishedAt = some at_
  noted : (∃ at_, x.finishedAt = some at_) → x.holdsSlot = false
  released : x.holdsSlot = false → x.child.input.accepting = false ∧
    (∀ p, x.pacer = some p → p.closed = true) ∧ x.log.closed = true
  paced : ∀ p, x.pacer = some p → p.closed = true →
    p.queue = [] ∧ p.prompt = .busy ∧ x.log.closed = true
  sealed : x.log.closed = true → x.state.isTerminal = true
  ended : x.state.isTerminal = true → ∃ e, x.exit = some e

namespace Pacer

theorem givesUp_of_open {p : Pacer} (h : p.closed = false) : p.GivesUp := by
  intro hc
  rw [h] at hc
  cases hc

theorem givesUp_close (p : Pacer) : p.close.GivesUp := fun _ => ⟨rfl, rfl⟩

theorem GivesUp.observe {p : Pacer} (h : p.GivesUp) (chunk : Bytes) : (p.observe chunk).1.GivesUp := by
  intro hc
  rw [closed_observe] at hc
  have hsame : (p.observe chunk).1 = p := by
    unfold Pacer.observe
    rw [hc]
    rfl
  rw [hsame]
  exact h hc

end Pacer

namespace Scene

variable {s t : Scene}

/-! ## The pacer -/

/-- What holds of the pacer of a session holds after a step, if it holds of a pacer that takes a command,
looks at output, or is closed. -/
theorem Step.pacer_of {P : Pacer → Prop} (hst : Step s t) (hopen : ∀ p, p.closed = false → P p)
    (hobserve : ∀ p chunk, P p → P (p.observe chunk).1) (hclose : ∀ p : Pacer, P p.close)
    (h : ∀ p, s.session.pacer = some p → P p) : ∀ p, t.session.pacer = some p → P p := by
  have keeps : t.session.pacer = s.session.pacer → ∀ p, t.session.pacer = some p → P p :=
    fun he p hp => h p (he ▸ hp)
  cases hst with
  | read hr => cases hr <;> exact keeps rfl
  | kill hk => cases hk <;> exact keeps rfl
  | tell ht => cases ht <;> exact keeps rfl
  | world hw => cases hw <;> exact keeps rfl
  | send hs =>
    cases hs with
    | queue i line rest p p' _ _ _ hs | dispatch i line rest p p' _ _ _ _ hs =>
      intro q hq
      cases hq
      exact hopen _ (Pacer.closed_of_send hs).2
    | exited i paced | closed i paced | move i paced => cases paced <;> exact keeps rfl
    | _ => exact keeps rfl
  | pump hp =>
    cases hp with
    | observe chunk p p' _ hpacer _ ho | dispatch chunk p p' _ _ hpacer _ ho =>
      intro q hq
      cases hq
      have := hobserve p chunk (h p hpacer)
      rwa [ho] at this
    | move prompt paced => cases paced <;> exact keeps rfl
    | finish e f =>
      cases f with
      | closePacer =>
        intro q hq
        obtain ⟨p, -, rfl⟩ := Option.map_eq_some_iff.1 hq
        exact hclose p
      | _ => exact keeps rfl
    | _ => exact keeps rfl

theorem givesUp_of_reaches {mode : Mode} {child : Child} {settings : SessionSettings}
    {scratch : Option Host.Path} (h : (start mode child settings scratch).Reaches s) :
    ∀ p, s.session.pacer = some p → p.GivesUp := by
  refine Reaches.keeps (P := fun s => ∀ p, s.session.pacer = some p → p.GivesUp) ?_ h ?_
  · intro s t hs hst
    exact hst.pacer_of (fun _ => Pacer.givesUp_of_open) (fun _ chunk hp => hp.observe chunk)
      Pacer.givesUp_close hs
  · intro p hp
    simp only [start, Session.moveTo, Session.begin_] at hp
    split at hp <;> cases hp
    exact Pacer.givesUp_of_open rfl

/-! ## The order -/

theorem Closing.ordered (h : Closing s) (ha : Agreed s)
    (hp : ∀ p, s.session.pacer = some p → p.GivesUp) : s.session.Ordered where
  announced := h.mark_of_le (f := .announce) (g := .stamp) (by decide) trivial
  noted := h.mark_of_le (f := .stamp) (g := .releaseSlot) (by decide) trivial
  released hr := ⟨h.mark_of_le (f := .releaseSlot) (g := .closeInput) (by decide) trivial hr,
    h.mark_of_le (f := .releaseSlot) (g := .closePacer) (by decide) trivial hr,
    h.mark_of_le (f := .releaseSlot) (g := .sealLog) (by decide) trivial hr⟩
  paced p hpacer hc := by
    have hclosed : FinishStep.closePacer.Mark s.session := by
      intro q hq
      rw [← Option.some.inj (hpacer.symm.trans hq)]
      exact hc
    obtain ⟨hqueue, hprompt⟩ := hp p hpacer hc
    exact ⟨hqueue, hprompt,
      h.mark_of_le (f := .closePacer) (g := .sealLog) (by decide) ⟨p, hpacer⟩ hclosed⟩
  sealed := h.mark_of_le (f := .sealLog) (g := .move) (by decide) trivial
  ended ht := by
    obtain ⟨e, he, -⟩ := ha.fits ht
    exact ⟨e, he⟩

/-- In every scene the parts of the session show its end in their order. -/
theorem ordered_of_reaches {mode : Mode} {child : Child} {settings : SessionSettings}
    {scratch : Option Host.Path} (h : (start mode child settings scratch).Reaches s) :
    s.session.Ordered :=
  (closing_of_reaches h).ordered ((agreed_start ..).of_reaches h) (givesUp_of_reaches h)

/-! ## What is complete -/

/-- All that has arrived is in the log and nothing more arrives, how the session ended is known, and all
this stays so. -/
structure Complete (s : Scene) : Prop where
  sealed : s.session.log.closed = true
  output : ∀ t, s.Reaches t → t.session.log = s.session.log ∧
    t.arrived.flatten = s.session.log.bytes
  exit : ∃ e, ∀ t, s.Reaches t → t.session.exit = some e ∧ t.session.state = e.terminalState

theorem complete_of_sealed {mode : Mode} {child : Child} {settings : SessionSettings}
    {scratch : Option Host.Path} (h : (start mode child settings scratch).Reaches s)
    (hc : s.session.log.closed = true) : Complete s where
  sealed := hc
  output t ht := by
    have hlog := (growsTo_of_reaches ht).closed hc
    rw [← hlog]
    exact ⟨rfl, (bytes_eq_arrived (h.trans ht)).symm⟩
  exit := by
    have hterminal := (ordered_of_reaches h).sealed hc
    obtain ⟨e, he, hstate⟩ := ((agreed_start ..).of_reaches h).fits hterminal
    exact ⟨e, fun t ht => ⟨exit_of_reaches ht he, (state_of_reaches ht hterminal).trans hstate⟩⟩

/-! ## Who was told -/

/-- Whoever has seen that the session is done, or was told so, was right. -/
structure Awaited (s : Scene) : Prop where
  task : ∀ i, s.task i = .telling .waited → s.session.done = true
  report : ∀ x, .waited x ∈ s.reports → s.session.done = true

theorem awaited_start (mode : Mode) (child : Child) (settings : SessionSettings)
    (scratch : Option Host.Path) : Awaited (start mode child settings scratch) where
  task i h := by cases h
  report x h := by simp [start] at h

structure Awaits (s t : Scene) : Prop where
  task : ∀ i, t.task i = .telling .waited → s.task i = .telling .waited ∨ s.session.done = true
  report : ∀ x, .waited x ∈ t.reports → .waited x ∈ s.reports ∨ ∃ i, s.task i = .telling .waited

theorem mem_reports_of_ne {q r : Report} (h : q ∈ (s.report r).reports) (hn : q ≠ r) : q ∈ s.reports :=
  (List.mem_append.1 h).resolve_right fun hr => hn (List.mem_singleton.1 hr)

theorem Bystands.awaits (h : Bystands s t) : Awaits s t where
  task i hi := by
    rcases h.task i with he | ⟨-, hu⟩
    · exact Or.inl (he ▸ hi)
    · rw [hi] at hu
      cases hu
  report x hx := Or.inl (h.reports ▸ hx)

theorem KillStep.awaits (h : KillStep s t) : Awaits s t := by
  cases h with
  | move i route e =>
    refine ⟨fun j hj => Or.inl (task_of_put hj ?_), fun x hx => Or.inl (mem_reports_of_ne hx nofun)⟩
    cases route <;> exact nofun
  | answer =>
    exact ⟨fun j hj => Or.inl (task_of_put hj nofun),
      fun x hx => Or.inl (mem_reports_of_ne hx nofun)⟩
  | _ => exact ⟨fun j hj => Or.inl (task_of_put hj nofun), fun x hx => Or.inl hx⟩

theorem TellStep.awaits (h : TellStep s t) : Awaits s t := by
  cases h with
  | seeDone i hi hd => exact ⟨fun j _ => Or.inr hd, fun x hx => Or.inl hx⟩
  | answerWait i hi => exact ⟨fun j hj => Or.inl (task_of_put hj nofun), fun x _ => Or.inr ⟨i, hi⟩⟩
  | readExit | readState =>
    exact ⟨fun j hj => Or.inl hj, fun x hx => Or.inl (mem_reports_of_ne hx nofun)⟩
  | answerSnapshot | routeExit =>
    exact ⟨fun j hj => Or.inl (task_of_put hj nofun),
      fun x hx => Or.inl (mem_reports_of_ne hx nofun)⟩
  | callWait | callSnapshot | readLength | routeState =>
    exact ⟨fun j hj => Or.inl (task_of_put hj nofun), fun x hx => Or.inl hx⟩

theorem Step.awaits (h : Step s t) : Awaits s t := by
  cases h with
  | read h => exact h.bystands.awaits
  | send h => exact h.bystands.awaits
  | world h => exact h.bystands.awaits
  | kill h => exact h.awaits
  | tell h => exact h.awaits
  | pump h =>
    rcases h.bystands_or_ends with hb | ⟨e, rfl⟩ | ⟨e, f, rest, now, -, -, rfl⟩
    · exact hb.awaits
    · exact ⟨fun i hi => Or.inl hi, fun x hx => Or.inl hx⟩
    · exact ⟨fun i hi => Or.inl hi, fun x hx => Or.inl hx⟩

theorem Awaited.of_step (h : Awaited s) (hst : Step s t) : Awaited t := by
  have hdone : s.session.done = true → t.session.done = true := hst.mark (f := .announce)
  have ha := hst.awaits
  refine ⟨fun i hi => hdone ?_, fun x hx => hdone ?_⟩
  · rcases ha.task i hi with hi | hd
    · exact h.task i hi
    · exact hd
  · rcases ha.report x hx with hx | ⟨i, hi⟩
    · exact h.report x hx
    · exact h.task i hi

/-- Whoever was told that the session is done was told how it ended, and can rely on all the rest. -/
theorem done_of_waited {mode : Mode} {child : Child} {settings : SessionSettings}
    {scratch : Option Host.Path} (h : (start mode child settings scratch).Reaches s)
    {x : Option ExitInfo} (hx : .waited x ∈ s.reports) :
    s.session.done = true ∧ ∃ e, x = some e ∧ s.session.exit = some e := by
  have hawaited : Awaited s :=
    Reaches.keeps (fun _ _ ha hst => Awaited.of_step ha hst) h (awaited_start ..)
  exact ⟨hawaited.report x hx, ((agreed_start ..).of_reaches h).reports _ hx⟩

/-- A caller was told that all output has been read. -/
def ToldFinished (s : Scene) : Prop :=
  .finished ∈ s.polled ∨ ∃ offset, .polled offset (.ok .finished) ∈ s.reads

theorem sealed_of_finished {mode : Mode} {child : Child} {settings : SessionSettings}
    {scratch : Option Host.Path} (h : (start mode child settings scratch).Reaches s)
    (hf : s.ToldFinished) : s.session.log.closed = true := by
  have hp := polled_of_reaches h
  rcases hf with hf | ⟨offset, hf⟩
  · obtain ⟨a, ha, hr⟩ := mem_polls_of_mem_polled hf
    exact (hp.settled ⟨a, ha, Or.inr hr⟩).1
  · exact (hp.reads _ hf).1.1

end Scene

end SessionHost
