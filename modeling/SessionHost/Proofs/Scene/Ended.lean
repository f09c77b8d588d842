import SessionHost.Proofs.Scene.Alone

/-!
# How a session ended, as everybody is told

Two parties can end a session: whoever kills it, and the pump when the program is gone. Each of them
records an exit and then moves the session, and the other may act in between, as may all who send input
or ask how the session stands. What is recorded first stays, and both move the session to the state that
belongs to what is recorded. So the exit is always there when the state is terminal, and whoever reads
the state first and the exit second never sees one without the other.

* `Step.onward`: a step leaves a recorded exit alone and moves the state along its moves only.
* `Scene.Agreed` is what holds of exit, state, callers and answers in every scene.
* `ends_once`: the exit is recorded once, every answer agrees with it, and every kill is answered.
-/
namespace SessionHost

/-! ## What goes together -/

/-- A terminal state belongs to the exit beside it. -/
def SessionState.Fits (st : SessionState) (exit : Option ExitInfo) : Prop :=
  st.isTerminal = true → ∃ e, exit = some e ∧ st = e.terminalState

theorem SessionState.Fits.mono {st : SessionState} {exit exit' : Option ExitInfo}
    (h : st.Fits exit) (he : ∀ e, exit = some e → exit' = some e) : st.Fits exit' := by
  intro ht
  obtain ⟨e, hexit, hst⟩ := h ht
  exact ⟨e, he e hexit, hst⟩

theorem SessionState.fits_of_not_terminal {st : SessionState} {exit : Option ExitInfo}
    (h : st.isTerminal = false) : st.Fits exit := by
  intro ht
  rw [h] at ht
  cases ht

/-- A session that runs, or has ended as `e`, moves to the state of `e` or is there. -/
theorem SessionState.Fits.moveTo_terminalState {st : SessionState} {e : ExitInfo}
    (h : st.Fits (some e)) (hs : st ≠ .starting) : st.moveTo e.terminalState = e.terminalState := by
  by_cases ht : st.isTerminal = true
  · obtain ⟨e', he, hst⟩ := h ht
    obtain rfl := Option.some.inj he
    rw [hst]
    simp [moveTo]
  · unfold ExitInfo.terminalState
    cases st <;> cases e.isNatural <;> simp_all [moveTo, canMoveTo, isTerminal]

/-- A session that is told to go on living does so, or stays where it has ended. -/
theorem SessionState.Fits.moveTo_live {st next : SessionState} {exit : Option ExitInfo}
    (h : st.Fits exit) (hn : next.isTerminal = false) : (st.moveTo next).Fits exit := by
  unfold moveTo
  split
  · exact fits_of_not_terminal hn
  · exact h

/-- An attempt to move leaves the state alone or is one of its moves. -/
theorem SessionState.moveTo_cases (st next : SessionState) :
    st.moveTo next = st ∨ st.canMoveTo (st.moveTo next) = true := by
  unfold moveTo
  split
  · rename_i h
    exact Or.inr h.2
  · exact Or.inl rfl

theorem SessionState.moveTo_ne_starting {st : SessionState} (h : st ≠ .starting)
    (next : SessionState) : st.moveTo next ≠ .starting := by
  rcases st.moveTo_cases next with he | hm
  · rwa [he]
  · intro he
    rw [he] at hm
    cases st <;> cases hm

/-- A caller who finds out what to record. -/
def Task.isFinding : Task → Bool
  | .ending _ (.finding _) => true
  | _ => false

/-- A caller who has learnt nothing of the end yet. -/
def Task.isUnaware : Task → Bool
  | .idle | .reading .. | .sending _ => true
  | .ending _ .entering => true
  | .telling .waiting | .telling (.routeState _) => true
  | _ => false

/-- What a caller has learnt of the end holds of exit and state. -/
def Task.Agrees (exit : Option ExitInfo) (state : SessionState) : Task → Prop
  | .ending _ (.moving e) => exit = some e
  | .ending route (.asking e) => exit = some e ∧ state = e.terminalState ∧ route = true
  | .telling .waited => ∃ e, exit = some e
  | .telling (.lengthOf st) => st.Fits exit
  | .telling (.exitOf st _) => st.Fits exit
  | .telling (.routeExit _ st) => st.Fits exit
  | _ => True

/-- What a caller was told of the end holds of the exit, and goes together. -/
def Report.Agrees (exit : Option ExitInfo) : Report → Prop
  | .killed e => exit = some e
  | .stopped e st => exit = some e ∧ st = e.terminalState
  | .waited r => ∃ e, r = some e ∧ exit = some e
  | .exit r => ∀ e, r = some e → exit = some e
  | .state st => st.Fits exit
  | .snapshot x => (∀ e, x.exit = some e → exit = some e) ∧ x.state.Fits x.exit
  | .program _ st r => (∀ e, r = some e → exit = some e) ∧ st.Fits r

/-- Whoever was told how the session ended was told `e`. -/
def Report.Tells (e : ExitInfo) : Report → Prop
  | .killed x => x = e
  | .stopped x _ => x = e
  | .waited r => r = some e
  | .exit r => r = some e
  | .state _ => True
  | .snapshot x => x.exit = some e
  | .program _ _ r => r = some e

theorem Task.agrees_of_isUnaware {exit : Option ExitInfo} {st : SessionState} {x : Task}
    (h : x.isUnaware = true) : x.Agrees exit st := by
  unfold isUnaware at h
  split at h
  case h_7 => cases h
  all_goals trivial

theorem Task.isFinding_of_isUnaware {x : Task} (h : x.isUnaware = true) : x.isFinding = false := by
  unfold isUnaware at h
  split at h
  case h_7 => cases h
  all_goals rfl

theorem Task.isUnaware_afterPoll (route : Bool) (r : Except SessionError Poll) :
    (Task.afterPoll route r).isUnaware = true := by
  unfold Task.afterPoll
  split
  · split <;> rfl
  · rfl

/-- What a caller has learnt stays true while exits and terminal states stay. -/
theorem Task.Agrees.mono {exit exit' : Option ExitInfo} {st st' : SessionState} {x : Task}
    (h : x.Agrees exit st) (he : ∀ e, exit = some e → exit' = some e)
    (hs : st.isTerminal = true → st' = st) : x.Agrees exit' st' := by
  unfold Agrees at h ⊢
  split at h
  case h_1 => exact he _ h
  case h_2 route e =>
    have ht : st.isTerminal = true := by rw [h.2.1]; exact e.isTerminal_terminalState
    rw [hs ht]
    exact ⟨he _ h.1, h.2⟩
  case h_3 =>
    obtain ⟨e, h⟩ := h
    exact ⟨e, he e h⟩
  case h_4 | h_5 | h_6 => exact SessionState.Fits.mono h he
  case h_7 => trivial

theorem Report.Agrees.mono {exit exit' : Option ExitInfo} {r : Report} (h : r.Agrees exit)
    (he : ∀ e, exit = some e → exit' = some e) : r.Agrees exit' := by
  cases r with
  | killed e => exact he e h
  | stopped e st => exact ⟨he e h.1, h.2⟩
  | waited r =>
    obtain ⟨e, hr, h⟩ := h
    exact ⟨e, hr, he e h⟩
  | exit r => exact fun e hr => he e (h e hr)
  | state st => exact SessionState.Fits.mono h he
  | snapshot x => exact ⟨fun e hr => he e (h.1 e hr), h.2⟩
  | program p st r => exact ⟨fun e hr => he e (h.1 e hr), h.2⟩

namespace Scene

variable {s t : Scene}

/-! ## Every step goes onward -/

/-- A recorded exit stays, and the state moves along its moves. -/
structure Onward (s t : Scene) : Prop where
  exit : ∀ e, s.session.exit = some e → t.session.exit = some e
  state : t.session.state = s.session.state ∨
    s.session.state.canMoveTo t.session.state = true

theorem Onward.terminal (h : Onward s t) (ht : s.session.state.isTerminal = true) :
    t.session.state = s.session.state := by
  rcases h.state with he | hm
  · exact he
  · rw [SessionState.canMoveTo_of_isTerminal ht] at hm
    cases hm

theorem onward_of_eq (he : t.session.exit = s.session.exit)
    (hs : t.session.state = s.session.state) : Onward s t where
  exit e h := by rw [he]; exact h
  state := Or.inl hs

theorem onward_of_moveTo {next : SessionState} (he : t.session.exit = s.session.exit)
    (hs : t.session.state = s.session.state.moveTo next) : Onward s t where
  exit e h := by rw [he]; exact h
  state := by rw [hs]; exact SessionState.moveTo_cases ..

theorem onward_of_record {e : ExitInfo} (he : t.session.exit = some (s.session.exit.getD e))
    (hs : t.session.state = s.session.state) : Onward s t where
  exit e' h := by rw [he, h]; rfl
  state := Or.inl hs

theorem onward_apply (s : Scene) (e : ExitInfo) (f : FinishStep) (now : Nat) (p : PumpTask) :
    Onward s { s with session := f.apply e now s.session, pump := p } := by
  cases f with
  | record => exact onward_of_record rfl rfl
  | move => exact onward_of_moveTo rfl rfl
  | _ => exact onward_of_eq rfl rfl

theorem Step.onward (h : Step s t) : Onward s t := by
  cases h with
  | read h => cases h <;> exact onward_of_eq rfl rfl
  | tell h => cases h <;> exact onward_of_eq rfl rfl
  | world h => cases h <;> exact onward_of_eq rfl rfl
  | kill h =>
    cases h with
    | decide => exact onward_of_record rfl rfl
    | move => exact onward_of_moveTo rfl rfl
    | _ => exact onward_of_eq rfl rfl
  | send h =>
    cases h with
    | move i paced => cases paced <;> exact onward_of_moveTo rfl rfl
    | exited i paced | closed i paced => cases paced <;> exact onward_of_eq rfl rfl
    | _ => exact onward_of_eq rfl rfl
  | pump h =>
    cases h with
    | move prompt paced => cases paced <;> exact onward_of_moveTo rfl rfl
    | finish e f rest now => exact onward_apply s e f now _
    | _ => exact onward_of_eq rfl rfl

theorem exit_of_reaches {e : ExitInfo} (h : s.Reaches t) (he : s.session.exit = some e) :
    t.session.exit = some e := by
  induction h with
  | refl => exact he
  | tail _ hst ih => exact hst.onward.exit e ih

theorem state_of_reaches (h : s.Reaches t) (ht : s.session.state.isTerminal = true) :
    t.session.state = s.session.state := by
  induction h with
  | refl => rfl
  | tail _ hst ih =>
    rw [hst.onward.terminal (by rw [ih]; exact ht)]
    exact ih

/-! ## Who does not bring about the end -/

/-- Nothing happens that concerns the end, but that the session may move between its live states. -/
structure Bystands (s t : Scene) : Prop where
  exit : t.session.exit = s.session.exit
  done : t.session.done = s.session.done
  state : t.session.state = s.session.state ∨ ∃ next : SessionState, next.isTerminal = false ∧
    t.session.state = s.session.state.moveTo next
  recorder : t.recorder = s.recorder
  reports : t.reports = s.reports
  pump : ∀ e steps, t.pump = .finishing e steps → s.pump = .finishing e steps
  task : ∀ j, t.task j = s.task j ∨
    (s.task j).isFinding = false ∧ (t.task j).isUnaware = true

theorem Bystands.put (h : Bystands s t) {i : Nat} {x : Task} (hs : (s.task i).isFinding = false)
    (hx : x.isUnaware = true) : Bystands s (t.put i x) := by
  refine ⟨h.exit, h.done, h.state, h.recorder, h.reports, h.pump, fun j => ?_⟩
  by_cases hj : j = i
  · subst hj
    rw [task_put_self]
    exact Or.inr ⟨hs, hx⟩
  · rw [task_put_of_ne t x hj]
    exact h.task j

theorem ReadStep.bystands (h : ReadStep s t) : Bystands s t := by
  cases h with
  | readSince => exact ⟨rfl, rfl, Or.inl rfl, rfl, rfl, fun _ _ h => h, fun _ => Or.inl rfl⟩
  | takeOwn | store =>
    refine Bystands.put ?_ ?_ (Task.isUnaware_afterPoll ..)
    · exact ⟨rfl, rfl, Or.inl rfl, rfl, rfl, fun _ _ h => h, fun _ => Or.inl rfl⟩
    · simp [Task.isFinding, *]
  | _ =>
    refine Bystands.put ?_ ?_ rfl
    · exact ⟨rfl, rfl, Or.inl rfl, rfl, rfl, fun _ _ h => h, fun _ => Or.inl rfl⟩
    · simp [Task.isFinding, *]

theorem SendStep.bystands (h : SendStep s t) : Bystands s t := by
  cases h with
  | closeInput => exact ⟨rfl, rfl, Or.inl rfl, rfl, rfl, fun _ _ h => h, fun _ => Or.inl rfl⟩
  | move i paced =>
    have hs : (s.task i).isFinding = false := by simp [Task.isFinding, *]
    refine Bystands.put ?_ hs rfl
    cases paced <;> exact ⟨rfl, rfl, Or.inr ⟨.running, rfl, rfl⟩, rfl, rfl, fun _ _ h => h,
      fun _ => Or.inl rfl⟩
  | exited i paced | closed i paced =>
    have hs : (s.task i).isFinding = false := by simp [Task.isFinding, *]
    refine Bystands.put ?_ hs rfl
    cases paced <;> exact ⟨rfl, rfl, Or.inl rfl, rfl, rfl, fun _ _ h => h, fun _ => Or.inl rfl⟩
  | _ =>
    refine Bystands.put ?_ ?_ rfl
    · exact ⟨rfl, rfl, Or.inl rfl, rfl, rfl, fun _ _ h => h, fun _ => Or.inl rfl⟩
    · simp [Task.isFinding, *]

theorem WorldStep.bystands (h : WorldStep s t) : Bystands s t := by
  cases h <;> exact ⟨rfl, rfl, Or.inl rfl, rfl, rfl, fun _ _ h => h, fun _ => Or.inl rfl⟩

theorem isTerminal_stateOfPrompt (prompt : PromptState) :
    (Session.stateOfPrompt prompt).isTerminal = false := by
  cases prompt <;> rfl

/-- The pump stands by until it ends the session. -/
theorem PumpStep.bystands_or_ends (h : PumpStep s t) : Bystands s t ∨
    (∃ e, t = { s with pump := .finishing e FinishStep.all }) ∨
      ∃ e f rest now, s.pump = .finishing e (f :: rest) ∧ (f = .record → s.recorder = none) ∧
        t = { s with session := f.apply e now s.session, pump := .finishing e rest } := by
  cases h with
  | beginFinish e => exact Or.inr (Or.inl ⟨e, rfl⟩)
  | finish e f rest now h hr => exact Or.inr (Or.inr ⟨e, f, rest, now, h, hr, rfl⟩)
  | move prompt paced =>
    have hlive := isTerminal_stateOfPrompt prompt
    cases paced <;>
      exact Or.inl ⟨rfl, rfl, Or.inr ⟨_, hlive, rfl⟩, rfl, rfl, nofun, fun _ => Or.inl rfl⟩
  | _ => exact Or.inl ⟨rfl, rfl, Or.inl rfl, rfl, rfl, nofun, fun _ => Or.inl rfl⟩

/-! ## The invariant -/

/-- What holds of the end in every scene. `fits` is that the exit is recorded before the state moves,
and `knows` what the callers have learnt and can rely on. -/
structure Agreed (s : Scene) : Prop where
  begun : s.session.state ≠ .starting
  fits : s.session.state.Fits s.session.exit
  done : s.session.done = true → ∃ e, s.session.exit = some e
  passed : ∀ e steps, s.pump = .finishing e steps → steps ≠ FinishStep.all →
    ∃ e', s.session.exit = some e'
  recorder : ∀ i, s.recorder = some i ↔ (s.task i).isFinding = true
  unrecorded : s.recorder ≠ none → s.session.exit = none
  knows : ∀ i, (s.task i).Agrees s.session.exit s.session.state
  reports : ∀ r ∈ s.reports, r.Agrees s.session.exit

theorem agreed_start (mode : Mode) (child : Child) (settings : SessionSettings)
    (scratch : Option Host.Path) : Agreed (start mode child settings scratch) where
  begun h := by cases h
  fits := SessionState.fits_of_not_terminal rfl
  done h := by cases h
  passed _ _ h := by cases h
  recorder i := by simp [start, Task.isFinding]
  unrecorded _ := rfl
  knows _ := trivial
  reports _ h := by simp [start] at h

theorem Agreed.of_bystands (h : Agreed s) (hb : Bystands s t) (ho : Onward s t) : Agreed t := by
  have hstate : t.session.state ≠ .starting ∧ t.session.state.Fits s.session.exit := by
    rcases hb.state with he | ⟨next, hlive, he⟩
    · rw [he]
      exact ⟨h.begun, h.fits⟩
    · rw [he]
      exact ⟨SessionState.moveTo_ne_starting h.begun next, h.fits.moveTo_live hlive⟩
  refine ⟨hstate.1, ?fits, ?done, ?passed, ?recorder, ?unrecorded, ?knows, ?reports⟩
  case fits => rw [hb.exit]; exact hstate.2
  case done => rw [hb.exit, hb.done]; exact h.done
  case passed =>
    intro e steps hp hne
    rw [hb.exit]
    exact h.passed e steps (hb.pump e steps hp) hne
  case recorder =>
    intro i
    rw [hb.recorder, h.recorder]
    rcases hb.task i with he | ⟨hf, hu⟩
    · rw [he]
    · rw [hf, Task.isFinding_of_isUnaware hu]
  case unrecorded => rw [hb.recorder, hb.exit]; exact h.unrecorded
  case knows =>
    intro i
    rcases hb.task i with he | ⟨-, hu⟩
    · rw [he]
      exact (h.knows i).mono ho.exit ho.terminal
    · exact Task.agrees_of_isUnaware hu
  case reports => rw [hb.exit, hb.reports]; exact h.reports

/-- The end goes on without the callers, who keep what they have learnt. -/
theorem Agreed.of_onward (h : Agreed s) (ho : Onward s t) (htask : t.task = s.task)
    (hreports : t.reports = s.reports) (hrecorder : t.recorder = s.recorder)
    (hbegun : t.session.state ≠ .starting) (hfits : t.session.state.Fits t.session.exit)
    (hdone : t.session.done = true → ∃ e, t.session.exit = some e)
    (hpassed : ∀ e steps, t.pump = .finishing e steps → steps ≠ FinishStep.all →
      ∃ e', t.session.exit = some e')
    (hun : s.recorder ≠ none → t.session.exit = none) : Agreed t where
  begun := hbegun
  fits := hfits
  done := hdone
  passed := hpassed
  recorder := by rw [hrecorder, htask]; exact h.recorder
  unrecorded := by rw [hrecorder]; exact hun
  knows i := by rw [htask]; exact (h.knows i).mono ho.exit ho.terminal
  reports r hr := by
    rw [hreports] at hr
    exact (h.reports r hr).mono ho.exit

theorem Agreed.put (h : Agreed s) {i : Nat} {x : Task} (hf : x.isFinding = (s.task i).isFinding)
    (hx : x.Agrees s.session.exit s.session.state) : Agreed (s.put i x) where
  begun := h.begun
  fits := h.fits
  done := h.done
  passed := h.passed
  recorder j := by
    by_cases hj : j = i
    · subst hj
      rw [task_put_self, hf]
      exact h.recorder j
    · rw [task_put_of_ne s x hj]
      exact h.recorder j
  unrecorded := h.unrecorded
  knows := forall_put (fun j _ => h.knows j) hx
  reports := h.reports

theorem Agreed.report (h : Agreed s) {r : Report} (hr : r.Agrees s.session.exit) :
    Agreed (s.report r) where
  begun := h.begun
  fits := h.fits
  done := h.done
  passed := h.passed
  recorder := h.recorder
  unrecorded := h.unrecorded
  knows := h.knows
  reports x hx := by
    rcases List.mem_append.1 hx with hx | hx
    · exact h.reports x hx
    · rw [List.mem_singleton.1 hx]; exact hr

/-- A question about the end is answered, and the caller is done. -/
theorem Agreed.answer (h : Agreed s) {i : Nat} {r : Report} (hf : (s.task i).isFinding = false)
    (hr : r.Agrees s.session.exit) : Agreed ((s.report r).put i .idle) := by
  have hidle : Task.isFinding .idle = ((s.report r).task i).isFinding := hf.symm
  exact Agreed.put (h.report hr) hidle trivial

/-- The session moves to the state that belongs to its exit. -/
theorem Agreed.moveTo (h : Agreed s) {e : ExitInfo} (he : s.session.exit = some e) :
    Agreed (s.withSession (s.session.moveTo e.terminalState)) := by
  have hfits : s.session.state.Fits (some e) := by rw [← he]; exact h.fits
  refine h.of_onward (onward_of_moveTo rfl rfl) rfl rfl rfl ?_ ?_ h.done h.passed h.unrecorded
  · exact SessionState.moveTo_ne_starting h.begun _
  · intro _
    exact ⟨e, he, hfits.moveTo_terminalState h.begun⟩

/-- Whoever finds out what to record does so alone, and before anything is recorded. -/
theorem Agreed.of_finding (h : Agreed s) {i : Nat} {route : Bool} {stage : KillStage}
    (hi : s.task i = .ending route (.finding stage)) :
    s.recorder = some i ∧ s.session.exit = none := by
  have hrec : s.recorder = some i := (h.recorder i).2 (by rw [hi]; rfl)
  exact ⟨hrec, h.unrecorded (by rw [hrec]; exact Option.some_ne_none i)⟩

/-- The exit that has been found is recorded, and whoever found it goes on. -/
theorem Agreed.record (h : Agreed s) {i : Nat} {route : Bool} {stage : KillStage}
    (hi : s.task i = .ending route (.finding stage)) (e : ExitInfo) :
    Agreed (Scene.put { s with session := s.session.record e, recorder := none } i
      (.ending route (.moving (s.session.exit.getD e)))) := by
  obtain ⟨hrec, hnone⟩ := h.of_finding hi
  have hlive : s.session.state.isTerminal = false := by
    cases ht : s.session.state.isTerminal with
    | false => rfl
    | true =>
      obtain ⟨e', he, -⟩ := h.fits ht
      rw [hnone] at he
      cases he
  have hexit : s.session.record e = { s.session with exit := some e } := by
    simp [Session.record, hnone]
  refine ⟨h.begun, ?fits, ?done, ?passed, ?recorder, ?unrecorded, ?knows, ?reports⟩
  case fits => exact SessionState.fits_of_not_terminal hlive
  case done => exact fun _ => ⟨_, rfl⟩
  case passed => exact fun _ _ _ _ => ⟨_, rfl⟩
  case recorder =>
    intro j
    constructor
    · intro hj
      cases hj
    intro hj
    by_cases hji : j = i
    · subst hji
      rw [task_put_self] at hj
      cases hj
    · rw [task_put_of_ne _ _ hji] at hj
      have := (h.recorder j).2 hj
      rw [hrec] at this
      exact absurd (Option.some.inj this).symm hji
  case unrecorded => exact fun hne => absurd rfl hne
  case knows =>
    have hmore : ∀ e', s.session.exit = some e' → (s.session.record e).exit = some e' := by
      intro e' he
      rw [hnone] at he
      cases he
    exact forall_put (fun j _ => (h.knows j).mono hmore fun _ => rfl) rfl
  case reports =>
    intro r hr
    refine (h.reports r hr).mono fun e' he => ?_
    rw [hnone] at he
    cases he

theorem Agreed.of_kill (h : Agreed s) (hk : KillStep s t) : Agreed t := by
  cases hk with
  | call i route hi => exact h.put (by rw [hi]; rfl) trivial
  | recorded i route e hi he => exact h.put (by rw [hi]; rfl) he
  | enter i route hi hn free =>
    refine ⟨h.begun, h.fits, h.done, h.passed, fun j => ?_, fun _ => hn, ?_, h.reports⟩
    · by_cases hj : j = i
      · subst hj
        rw [task_put_self]
        exact ⟨fun _ => rfl, fun _ => rfl⟩
      · rw [task_put_of_ne _ _ hj, ← h.recorder j, free]
        constructor
        · intro he
          exact absurd (Option.some.inj he).symm hj
        · intro he
          cases he
    · exact forall_put (fun j _ => h.knows j) trivial
  | goOn i route stage next hi => exact h.put (by rw [hi]; rfl) trivial
  | decide i route stage e sent hi => exact h.record hi e
  | move i route e hi =>
    have he : s.session.exit = some e := by
      have := h.knows i
      rw [hi] at this
      exact this
    have hfits : s.session.state.Fits (some e) := by rw [← he]; exact h.fits
    have hkilled : (Report.killed e).Agrees s.session.exit := he
    refine Agreed.put ((h.moveTo he).report hkilled) ?_ ?_
    · change _ = (s.task i).isFinding
      rw [hi]
      cases route <;> rfl
    · cases route with
      | false => trivial
      | true => exact ⟨he, hfits.moveTo_terminalState h.begun, rfl⟩
  | answer i route e hi =>
    have hk := h.knows i
    rw [hi] at hk
    refine h.answer ?_ ⟨hk.1, hk.2.1⟩
    rw [hi]
    rfl

theorem Agreed.of_tell (h : Agreed s) (ht : TellStep s t) : Agreed t := by
  cases ht with
  | callWait i hi => exact h.put (by rw [hi]; rfl) trivial
  | seeDone i hi hd => exact h.put (by rw [hi]; rfl) (h.done hd)
  | answerWait i hi =>
    have hk := h.knows i
    rw [hi] at hk
    obtain ⟨e, he⟩ := hk
    refine h.answer ?_ ⟨e, he, he⟩
    rw [hi]
    rfl
  | readExit => exact h.report fun e he => he
  | readState => exact h.report h.fits
  | callSnapshot i hi => exact h.put (by rw [hi]; rfl) h.fits
  | readLength i st hi =>
    have hk := h.knows i
    rw [hi] at hk
    exact h.put (by rw [hi]; rfl) hk
  | answerSnapshot i st n hi =>
    have hk := h.knows i
    rw [hi] at hk
    refine h.answer ?_ ⟨fun e he => he, hk⟩
    rw [hi]
    rfl
  | routeState i p hi => exact h.put (by rw [hi]; rfl) h.fits
  | routeExit i p st hi =>
    have hk := h.knows i
    rw [hi] at hk
    refine h.answer ?_ ⟨fun e he => he, hk⟩
    rw [hi]
    rfl

theorem Agreed.of_finish (h : Agreed s) {e : ExitInfo} {f : FinishStep} {rest : List FinishStep}
    {now : Nat} (hp : s.pump = .finishing e (f :: rest)) (hr : f = .record → s.recorder = none) :
    Agreed { s with session := f.apply e now s.session, pump := .finishing e rest } := by
  have ho := onward_apply s e f now (.finishing e rest)
  by_cases hf : f = .record
  · subst hf
    have hsome : (s.session.record e).exit = some (s.session.exit.getD e) := rfl
    refine h.of_onward ho rfl rfl rfl h.begun ?_ (fun _ => ⟨_, hsome⟩) (fun _ _ _ _ => ⟨_, hsome⟩)
      (fun hne => absurd (hr rfl) hne)
    exact h.fits.mono ho.exit
  · -- the first step is behind it, so there is an exit
    obtain ⟨e', he⟩ := h.passed e (f :: rest) hp fun heq => hf (List.cons.inj heq).1
    have hexit : (f.apply e now s.session).exit = some e' := ho.exit e' he
    refine h.of_onward ho rfl rfl rfl ?begun ?fits (fun _ => ⟨e', hexit⟩)
      (fun _ _ _ _ => ⟨e', hexit⟩) ?unrecorded
    case begun =>
      cases f with
      | move => exact SessionState.moveTo_ne_starting h.begun _
      | _ => exact h.begun
    case fits =>
      cases f with
      | move =>
        have hget : s.session.exit.getD e = e' := by rw [he]; rfl
        have hfits : s.session.state.Fits (some e') := by rw [← he]; exact h.fits
        change (s.session.state.moveTo (s.session.exit.getD e).terminalState).Fits s.session.exit
        rw [hget, hfits.moveTo_terminalState h.begun]
        exact fun _ => ⟨e', he, rfl⟩
      | _ => exact h.fits.mono ho.exit
    case unrecorded =>
      intro hne
      rw [h.unrecorded hne] at he
      cases he

theorem Agreed.of_step (h : Agreed s) (hst : Step s t) : Agreed t := by
  have ho := hst.onward
  cases hst with
  | read hr => exact h.of_bystands hr.bystands ho
  | send hs => exact h.of_bystands hs.bystands ho
  | world hw => exact h.of_bystands hw.bystands ho
  | kill hk => exact h.of_kill hk
  | tell ht => exact h.of_tell ht
  | pump hp =>
    rcases hp.bystands_or_ends with hb | ⟨e, rfl⟩ | ⟨e, f, rest, now, hpump, hr, rfl⟩
    · exact h.of_bystands hb ho
    · refine h.of_onward ho rfl rfl rfl h.begun h.fits h.done ?_ h.unrecorded
      intro e' steps he hne
      cases he
      exact absurd rfl hne
    · exact h.of_finish hpump hr

theorem Agreed.of_reaches (h : Agreed s) (hst : s.Reaches t) : Agreed t :=
  Reaches.keeps (fun _ _ ha hst => Agreed.of_step ha hst) hst h

/-! ## Every kill can be answered -/

/-- The kill of a caller can come to its answer. -/
def CanAnswer (s : Scene) (i : Nat) (route : Bool) : Prop :=
  ∃ t e, s.Reaches t ∧ t.session.exit = some e ∧ t.task i = .idle ∧
    (if route then Report.stopped e e.terminalState else Report.killed e) ∈ t.reports

theorem CanAnswer.of_reaches {i : Nat} {route : Bool} (h : t.CanAnswer i route)
    (hst : s.Reaches t) : s.CanAnswer i route := by
  obtain ⟨u, e, hr, hrest⟩ := h
  exact ⟨u, e, hst.trans hr, hrest⟩

theorem Agreed.canAnswer_of_asking (h : Agreed s) {i : Nat} {route : Bool} {e : ExitInfo}
    (hi : s.task i = .ending route (.asking e)) : s.CanAnswer i route := by
  have hk := h.knows i
  rw [hi] at hk
  obtain ⟨he, hstate, rfl⟩ := hk
  have hr : s.Reaches _ := .single (.kill (.answer i true e hi))
  refine ⟨_, e, hr, he, task_put_self .., ?_⟩
  rw [← hstate]
  exact List.mem_append_right _ (List.mem_singleton_self _)

theorem Agreed.canAnswer_of_moving (h : Agreed s) {i : Nat} {route : Bool} {e : ExitInfo}
    (hi : s.task i = .ending route (.moving e)) : s.CanAnswer i route := by
  have hk := h.knows i
  rw [hi] at hk
  have hst := Step.kill (.move i route e hi)
  have hr : s.Reaches _ := .single hst
  cases route with
  | false =>
    exact ⟨_, e, hr, hk, task_put_self .., List.mem_append_right _ (List.mem_singleton_self _)⟩
  | true => exact ((h.of_step hst).canAnswer_of_asking (task_put_self ..)).of_reaches hr

theorem Agreed.canAnswer_of_finding (h : Agreed s) {i : Nat} {route : Bool} {stage : KillStage}
    (hi : s.task i = .ending route (.finding stage)) : s.CanAnswer i route := by
  obtain ⟨t, hr, -, hmoving, -⟩ := find_alone hi
  exact ((h.of_reaches hr.reaches).canAnswer_of_moving hmoving).of_reaches hr.reaches

theorem Agreed.canAnswer_of_recorded (h : Agreed s) {i : Nat} {route : Bool} {e : ExitInfo}
    (hi : s.task i = .ending route .entering) (he : s.session.exit = some e) :
    s.CanAnswer i route := by
  have hst := Step.kill (.recorded i route e hi he)
  exact ((h.of_step hst).canAnswer_of_moving (task_put_self ..)).of_reaches (.single hst)

/-- However far a kill has come, nothing keeps it from its answer but another who finds out what to
record, and who gets there. -/
theorem Agreed.canAnswer (h : Agreed s) {i : Nat} {route : Bool} {x : Ending}
    (hi : s.task i = .ending route x) : s.CanAnswer i route := by
  cases x with
  | finding stage => exact h.canAnswer_of_finding hi
  | moving e => exact h.canAnswer_of_moving hi
  | asking e => exact h.canAnswer_of_asking hi
  | entering =>
    cases he : s.session.exit with
    | some e => exact h.canAnswer_of_recorded hi he
    | none =>
      cases hrec : s.recorder with
      | none =>
        have hst := Step.kill (.enter i route hi he hrec)
        exact ((h.of_step hst).canAnswer_of_finding (task_put_self ..)).of_reaches (.single hst)
      | some j =>
        have hfinding := (h.recorder j).1 hrec
        have hji : i ≠ j := by
          intro hij
          rw [← hij, hi] at hfinding
          cases hfinding
        cases hj : s.task j with
        | ending route' y =>
          cases y with
          | finding stage =>
            obtain ⟨t, hr, hsession, -, -, -, hothers⟩ := find_alone hj
            have hti : t.task i = .ending route .entering := by rw [hothers i hji]; exact hi
            have hexit : t.session.exit = some _ := congrArg Session.exit hsession
            exact ((h.of_reaches hr.reaches).canAnswer_of_recorded hti hexit).of_reaches hr.reaches
          | _ => rw [hj] at hfinding; cases hfinding
        | _ => rw [hj] at hfinding; cases hfinding

/-! ## One end for all -/

/-- The answers given since `s` all tell `e`. -/
def TellsOnly (s t : Scene) (e : ExitInfo) : Prop :=
  ∃ new, t.reports = s.reports ++ new ∧ ∀ r ∈ new, r.Tells e

theorem tellsOnly_of_eq {e : ExitInfo} (h : t.reports = s.reports) : TellsOnly s t e :=
  ⟨[], by simp [h], by simp⟩

theorem tellsOnly_of_report {e : ExitInfo} {r : Report} (h : t.reports = s.reports ++ [r])
    (hr : r.Tells e) : TellsOnly s t e :=
  ⟨[r], h, by simpa using hr⟩

/-- Once an exit is recorded, a step answers with that exit or not at all. -/
theorem Agreed.tellsOnly_of_step (h : Agreed s) (hst : Step s t) {e : ExitInfo}
    (he : s.session.exit = some e) : TellsOnly s t e := by
  cases hst with
  | read hr => exact tellsOnly_of_eq hr.bystands.reports
  | send hs => exact tellsOnly_of_eq hs.bystands.reports
  | world hw => exact tellsOnly_of_eq hw.bystands.reports
  | pump hp =>
    rcases hp.bystands_or_ends with hb | ⟨e, rfl⟩ | ⟨e, f, rest, now, -, -, rfl⟩
    · exact tellsOnly_of_eq hb.reports
    · exact tellsOnly_of_eq rfl
    · exact tellsOnly_of_eq rfl
  | kill hk =>
    cases hk with
    | move i route x hi =>
      have hx := h.knows i
      rw [hi] at hx
      exact tellsOnly_of_report rfl (Option.some.inj (hx.symm.trans he))
    | answer i route x hi =>
      have hx := h.knows i
      rw [hi] at hx
      exact tellsOnly_of_report rfl (Option.some.inj (hx.1.symm.trans he))
    | _ => exact tellsOnly_of_eq rfl
  | tell ht =>
    cases ht with
    | answerWait | readExit | answerSnapshot | routeExit => exact tellsOnly_of_report rfl he
    | readState => exact tellsOnly_of_report rfl trivial
    | _ => exact tellsOnly_of_eq rfl

theorem Agreed.tellsOnly_of_reaches (h : Agreed s) (hst : s.Reaches t) {e : ExitInfo}
    (he : s.session.exit = some e) : TellsOnly s t e := by
  induction hst with
  | refl => exact tellsOnly_of_eq rfl
  | tail hst hstep ih =>
    obtain ⟨new, hnew, htell⟩ := ih
    obtain ⟨more, hmore, htell'⟩ :=
      (h.of_reaches hst).tellsOnly_of_step hstep (exit_of_reaches hst he)
    refine ⟨new ++ more, by rw [hmore, hnew, List.append_assoc], fun r hr => ?_⟩
    exact (List.mem_append.1 hr).elim (htell r) (htell' r)

/-- What holds of the end in a scene, and of all answers that concern it. -/
structure EndsOnce (s : Scene) : Prop where
  /-- The state moves along the moves of a session only. -/
  moves : ∀ t, Step s t → t.session.state = s.session.state ∨
    s.session.state.canMoveTo t.session.state = true
  /-- A terminal state is never left. -/
  terminal : s.session.state.isTerminal = true → ∀ t, s.Reaches t →
    t.session.state = s.session.state
  /-- An exit that is recorded stays. -/
  once : ∀ e, s.session.exit = some e → ∀ t, s.Reaches t → t.session.exit = some e
  /-- A terminal state belongs to the exit that is recorded. -/
  fits : s.session.state.Fits s.session.exit
  /-- Every answer so far tells the recorded exit or, where that is possible, none yet, and a state and
  an exit that were told together belong to each other. -/
  agreed : ∀ r ∈ s.reports, r.Agrees s.session.exit
  /-- Every answer from now on tells the recorded exit. -/
  later : ∀ e, s.session.exit = some e → ∀ t, s.Reaches t → TellsOnly s t e
  /-- Every kill that was begun can be answered. -/
  answered : ∀ i route x, s.task i = .ending route x → s.CanAnswer i route

/-- Whoever kills a session, and however the pump ends it meanwhile, its exit is recorded once, the
state goes with it, and everybody is told the same. -/
theorem ends_once {mode : Mode} {child : Child} {settings : SessionSettings}
    {scratch : Option Host.Path} (h : (start mode child settings scratch).Reaches s) :
    EndsOnce s := by
  have ha := (agreed_start mode child settings scratch).of_reaches h
  refine ⟨fun t hst => hst.onward.state, ?terminal, ?once, ha.fits, ha.reports, ?later, ?answered⟩
  case terminal => exact fun ht t hst => state_of_reaches hst ht
  case once => exact fun e he t hst => exit_of_reaches hst he
  case later => exact fun e he t hst => ha.tellsOnly_of_reaches hst he
  case answered => exact fun i route x hi => ha.canAnswer hi

/-- A program ends by itself behind the signal of a kill, and the pump is about to record that before
the kill moves the session: all are told that it was killed. The snapshot was begun while it ran. -/
theorem ends_once_killed_at_exit :
    ∃ s, quiet.Reaches s ∧ EndsOnce s ∧ s.reports =
      [.snapshot ⟨.text, .running, 0, some (.killed 9)⟩, .killed (.killed 9),
        .stopped (.killed 9) .killed, .waited (some (.killed 9))] := by
  have r : quiet.Reaches quiet := .refl
  have r := r.tail (.tell (.callSnapshot 1 rfl))
  have r := r.tail (.kill (.call 0 true rfl))
  have r := r.tail (.kill (.enter 0 _ rfl rfl rfl))
  have r := r.tail (.kill (.goOn 0 _ .look .peek rfl rfl))
  have r := r.tail (.kill (.goOn 0 _ .peek .lookAgain rfl rfl))
  have r := r.tail (.kill (.goOn 0 _ .lookAgain .peekAgain rfl rfl))
  have r := r.tail (.kill (.goOn 0 _ .peekAgain .signal rfl rfl))
  have r := r.tail (.kill (.decide 0 _ .signal (.killed 9) true rfl rfl))
  have r := r.tail (.world (.ends (.exited 0) rfl))
  have r := r.tail (.world (.collect (.exited 0) rfl))
  have r := r.tail (.world (.publish (.exited 0) rfl))
  have r := r.tail (.pump (.beginFinish (.exited 0) rfl))
  have r := r.tail (.pump (.finish _ .record _ 0 rfl (fun _ => rfl) nofun))
  have r := r.tail (.pump (.finish _ .move _ 0 rfl nofun nofun))
  have r := r.tail (.tell (.readLength 1 _ rfl))
  have r := r.tail (.tell (.answerSnapshot 1 _ _ rfl))
  have r := r.tail (.kill (.move 0 _ _ rfl))
  have r := r.tail (.kill (.answer 0 _ _ rfl))
  have r := r.tail (.pump (.finish _ .sealLog _ 0 rfl nofun nofun))
  have r := r.tail (.pump (.finish _ .closePacer _ 0 rfl nofun (fun _ => rfl)))
  have r := r.tail (.pump (.finish _ .closeInput _ 0 rfl nofun nofun))
  have r := r.tail (.pump (.finish _ .releaseSlot _ 0 rfl nofun nofun))
  have r := r.tail (.pump (.finish _ .stamp _ 0 rfl nofun nofun))
  have r := r.tail (.pump (.finish _ .announce _ 0 rfl nofun nofun))
  have r := r.tail (.tell (.callWait 2 rfl))
  have r := r.tail (.tell (.seeDone 2 rfl rfl))
  have r := r.tail (.tell (.answerWait 2 rfl))
  exact ⟨_, r, ends_once r, rfl⟩

end Scene

end SessionHost
