import SessionHost.Proofs.Scene.Step

/-!
# Without interruption

The steps of a scene are those of the functions on sessions, taken one at a time. If nobody else has a
turn in between, a caller gets from them what the function gives, and the session is left as the
function leaves it.

* `poll_alone`, `pollFrom_alone`, `snapshot_alone`: reading.
* `kill_alone`, `finish_alone`: the two ways to end a session.
* `ingest_alone`, `onStall_alone`: what the pump does with output, and without it.
* `submitInput_alone`: sending.

Where it matters that the pump does not take in more output meanwhile, the steps are between two turns of
the pump (`Scene.Between`), or are those of the pump alone (`Scene.Pumping`).
-/
namespace SessionHost.Scene

variable {s : Scene}

/-- The pump goes on until it waits for output again, and nobody else has a turn. -/
abbrev Pumping : Scene → Scene → Prop :=
  Relation.ReflTransGen fun s t => s.pump ≠ .reading ∧ PumpStep s t

theorem Pumping.one {s t : Scene} (hp : s.pump ≠ .reading) (h : PumpStep s t) : s.Pumping t :=
  .single ⟨hp, h⟩

theorem Pumping.between {s t : Scene} (h : s.Pumping t) : s.Between t :=
  h.lift id fun _ _ hst => .pump hst.1 hst.2

theorem Pumping.reaches {s t : Scene} (h : s.Pumping t) : s.Reaches t := h.between.reaches

/-- The pump leaves the callers and the program where they are. -/
theorem Pumping.same {s t : Scene} (h : s.Pumping t) :
    t.task = s.task ∧ t.recorder = s.recorder ∧ t.ended = s.ended := by
  induction h with
  | refl => exact ⟨rfl, rfl, rfl⟩
  | tail _ hst ih =>
    obtain ⟨htask, hrecorder, hended⟩ := ih
    cases hst.2 with
    | move _ paced => cases paced <;> exact ⟨htask, hrecorder, hended⟩
    | _ => exact ⟨htask, hrecorder, hended⟩

/-! ## Reading -/

theorem poll_eq (x : Session) : x.poll =
    (x.pollFrom x.cursor).map fun p => (p, { x with cursor := p.cursorAfter x.cursor }) := by
  unfold Session.poll
  cases x.pollFrom x.cursor <;> rfl

theorem poll_alone {i : Nat} (route : Bool) (hi : s.task i = .idle) (free : s.reader = none) :
    ∃ t, s.Reaches t ∧ t.reader = none ∧
      match s.session.poll with
      | .ok (p, x) => t.session = x ∧ t.polls = s.polls ++ [⟨s.session.log.closed, .ok p⟩]
      | .error e =>
        t.session = s.session ∧ t.polls = s.polls ++ [⟨s.session.log.closed, .error e⟩] := by
  have r : s.Reaches s := .refl
  have r := r.tail (.read (.callPoll i route hi))
  have r := r.tail (.read (.acquire i route _ (task_put_self ..) free))
  have r := r.tail (.read (.look i route _ _ (task_put_self ..)))
  rw [poll_eq]
  cases hp : s.session.pollFrom s.session.cursor with
  | ok p =>
    have r := r.tail (.read (.take i route _ _ _ p (task_put_self ..) hp))
    exact ⟨_, r.tail (.read (.store i route _ p (task_put_self ..))), rfl, rfl, rfl⟩
  | error e =>
    exact ⟨_, r.tail (.read (.refuse i route _ _ _ e (task_put_self ..) hp)), rfl, rfl, rfl⟩

theorem pollFrom_alone {i : Nat} (route : Bool) (offset : Nat) (hi : s.task i = .idle) :
    ∃ t, s.Reaches t ∧ t.session = s.session ∧
      t.reads = s.reads ++ [.polled offset (s.session.pollFrom offset)] := by
  have r : s.Reaches s := .refl
  have r := r.tail (.read (.callPollFrom i route offset hi))
  have r := r.tail (.read (.look i route _ _ (task_put_self ..)))
  exact ⟨_, r.tail (.read (.takeOwn i route _ _ (task_put_self ..))), rfl, rfl⟩

theorem snapshot_alone {i : Nat} (hi : s.task i = .idle) :
    ∃ t, s.Reaches t ∧ t.session = s.session ∧
      t.reports = s.reports ++ [.snapshot s.session.snapshot] := by
  have r : s.Reaches s := .refl
  have r := r.tail (.tell (.callSnapshot i hi))
  have r := r.tail (.tell (.readLength i _ (task_put_self ..)))
  exact ⟨_, r.tail (.tell (.answerSnapshot i _ _ (task_put_self ..))), rfl, rfl⟩

/-! ## Ending -/

/-- Whoever finds out what to record gets there, and leaves the other callers where they are. -/
theorem find_alone {s : Scene} {i : Nat} {route : Bool} {stage : KillStage}
    (hi : s.task i = .ending route (.finding stage)) :
    ∃ t, s.Between t ∧ t.session = s.session.record (stage.run s.fate).1 ∧
      t.task i = .ending route (.moving (s.session.exit.getD (stage.run s.fate).1)) ∧
      t.reports = s.reports ∧ t.pump = s.pump ∧ ∀ j, j ≠ i → t.task j = s.task j := by
  rw [KillStage.run]
  split
  · rename_i e sent hd
    have hr : s.Between _ := .single (.kill (.decide i route stage e sent hi hd))
    exact ⟨_, hr, rfl, task_put_self .., rfl, rfl, fun j hj => task_put_of_ne _ _ hj⟩
  · rename_i next hg
    have hr : s.Between _ := .single (.kill (.goOn i route stage next hi hg))
    have hlt := KillStage.rank_lt_of_step hg
    obtain ⟨t, ht, hsession, htask, hreports, hpump, hothers⟩ := find_alone (task_put_self s i _)
    refine ⟨t, hr.trans ht, hsession, htask, hreports, hpump, fun j hj => ?_⟩
    rw [hothers j hj]
    exact task_put_of_ne s _ hj
termination_by stage.rank

/-- Whoever knows what is recorded moves the session. -/
theorem move_alone {i : Nat} {route : Bool} {e : ExitInfo}
    (hi : s.task i = .ending route (.moving e)) :
    ∃ t, s.Reaches t ∧ t.session = s.session.moveTo e.terminalState ∧
      t.reports = s.reports ++ [.killed e] :=
  ⟨_, .single (.kill (.move i route e hi)), rfl, rfl⟩

/-- A kill. The host tells how far the end of the program has come. -/
theorem kill_alone {i : Nat} (route : Bool) {h : Host} (hi : s.task i = .idle)
    (free : s.recorder = none) (hh : s.session.child.fate h = s.fate) :
    ∃ t, s.Reaches t ∧ t.session = (s.session.kill h).2.1 ∧
      t.reports = s.reports ++ [.killed (s.session.kill h).2.2] := by
  have r : s.Reaches s := .refl
  have r := r.tail (.kill (.call i route hi))
  unfold Session.kill
  cases he : s.session.exit with
  | some e =>
    have r := r.tail (.kill (.recorded i route e (task_put_self ..) he))
    exact ⟨_, r.tail (.kill (.move i route e (task_put_self ..))), rfl, rfl⟩
  | none =>
    have r := r.tail (.kill (.enter i route (task_put_self ..) he free))
    obtain ⟨u, r, hutask, husession, hufate, hureports⟩ : ∃ u, s.Reaches u ∧
        u.task i = .ending route (.finding .look) ∧ u.session = s.session ∧ u.fate = s.fate ∧
          u.reports = s.reports := ⟨_, r, task_put_self .., rfl, rfl, rfl⟩
    obtain ⟨v, hv, hvsession, hvtask, hvreports, -, -⟩ := find_alone hutask
    obtain ⟨t, ht, htsession, htreports⟩ := move_alone hvtask
    rw [husession, he, hufate, ← hh, Option.getD_none] at htsession htreports
    rw [hvsession, husession, hufate, ← hh] at htsession
    rw [hvreports, hureports] at htreports
    exact ⟨t, (r.trans hv.reaches).trans ht, htsession, htreports⟩

theorem finish_alone {s : Scene} {e : ExitInfo} {steps : List FinishStep} (now : Nat)
    (hp : s.pump = .finishing e steps) (hr : s.recorder = none) (hc : s.pacing = none) :
    ∃ t, s.Pumping t ∧ t.session = steps.foldl (FinishStep.apply e now) s.session ∧
      t.pump = .finishing e [] ∧ t.pacing = none := by
  induction steps generalizing s with
  | nil => exact ⟨s, .refl, rfl, hp, hc⟩
  | cons f steps ih =>
    obtain ⟨u, r, hsession, hpump, hrecorder, hpacing⟩ : ∃ u, s.Pumping u ∧
        u.session = f.apply e now s.session ∧ u.pump = .finishing e steps ∧ u.recorder = none ∧
          u.pacing = none :=
      ⟨_, .one (by rw [hp]; exact nofun) (.finish e f steps now hp (fun _ => hr) fun _ => hc),
        rfl, rfl, hr, hc⟩
    obtain ⟨t, ht, htsession, htpump, htpacing⟩ := ih hpump hrecorder hpacing
    rw [hsession] at htsession
    exact ⟨t, r.trans ht, htsession, htpump, htpacing⟩

theorem end_alone {e : ExitInfo} (now : Nat) (hp : s.pump = .reading) (hr : s.recorder = none)
    (hc : s.pacing = none) :
    ∃ t, s.Reaches t ∧ t.session = s.session.finish e now ∧ t.pump = .finishing e [] := by
  obtain ⟨u, r, hsession, hpump, hrecorder, hpacing⟩ : ∃ u, s.Reaches u ∧
      u.session = s.session ∧ u.pump = .finishing e FinishStep.all ∧ u.recorder = none ∧
        u.pacing = none := ⟨_, .single (.pump (.beginFinish e hp)), rfl, rfl, hr, hc⟩
  obtain ⟨t, ht, htsession, htpump, -⟩ := finish_alone now hpump hrecorder hpacing
  rw [hsession] at htsession
  exact ⟨t, r.trans ht.reaches, htsession, htpump⟩

/-! ## Output -/

/-- The pump moves the session, and lets go of the pacer. -/
theorem settle_alone {prompt : PromptState} {paced : Bool} (hp : s.pump = .moving prompt paced)
    (free : paced = false → s.pacing = none) :
    ∃ t, s.Pumping t ∧ t.session = s.session.moveTo (Session.stateOfPrompt prompt) ∧
      t.pump = .reading ∧ t.arrived = s.arrived ∧ t.pacing = none := by
  have r : s.Pumping _ := .one (by rw [hp]; exact nofun) (.move prompt paced hp)
  cases paced with
  | true => exact ⟨_, r, rfl, rfl, rfl, rfl⟩
  | false => exact ⟨_, r, rfl, rfl, rfl, free rfl⟩

/-- The pump hands a command to the program that the pacer has released. -/
theorem offer_alone {bytes : Bytes} {prompt : PromptState} (hp : s.pump = .offering bytes prompt) :
    ∃ t, s.Pumping t ∧ t.pump = .moving prompt true ∧ t.arrived = s.arrived ∧ t.session =
      (s.session.child.write? bytes).elim s.session fun child => { s.session with child } := by
  have busy : s.pump ≠ .reading := by rw [hp]; exact nofun
  unfold Child.write?
  cases he : s.session.child.hasExited with
  | true => exact ⟨_, .one busy (.lost bytes prompt hp he), rfl, rfl, rfl⟩
  | false =>
    have r : s.Pumping _ := .one busy (.offer bytes prompt hp he)
    cases hi : s.session.child.input.send? bytes with
    | none => exact ⟨_, r.tail ⟨nofun, .closed bytes prompt rfl hi⟩, rfl, rfl, rfl⟩
    | some input => exact ⟨_, r.tail ⟨nofun, .push bytes prompt input rfl hi⟩, rfl, rfl, rfl⟩

theorem observe_alone {chunk : Bytes} {p : Pacer} (hp : s.pump = .reacting chunk)
    (hpacer : s.session.pacer = some p) (free : s.pacing = none) :
    ∃ t, s.Pumping t ∧ t.session = s.session.observe p chunk ∧ t.pump = .reading ∧
      t.arrived = s.arrived ∧ t.pacing = none := by
  have busy : s.pump ≠ .reading := by rw [hp]; exact nofun
  unfold Session.observe
  cases ho : p.observe chunk with
  | mk p' out =>
    cases out with
    | none =>
      obtain ⟨u, r, husession, hupump, huarrived⟩ : ∃ u, s.Pumping u ∧
          u.session = s.session.withPacer p' ∧ u.pump = .moving p'.prompt true ∧
            u.arrived = s.arrived :=
        ⟨_, .one busy (.observe chunk p p' hp hpacer free ho), rfl, rfl, rfl⟩
      obtain ⟨t, ht, htsession, htpump, htarrived, htpacing⟩ := settle_alone hupump nofun
      rw [husession] at htsession
      exact ⟨t, r.trans ht, htsession, htpump, htarrived.trans huarrived, htpacing⟩
    | some bytes =>
      obtain ⟨u, r, husession, hupump, huarrived⟩ : ∃ u, s.Pumping u ∧
          u.session = s.session.withPacer p' ∧ u.pump = .offering bytes p'.prompt ∧
            u.arrived = s.arrived :=
        ⟨_, .one busy (.dispatch chunk p p' bytes hp hpacer free ho), rfl, rfl, rfl⟩
      obtain ⟨v, hv, hvpump, hvarrived, hvsession⟩ := offer_alone hupump
      obtain ⟨t, ht, htsession, htpump, htarrived, htpacing⟩ := settle_alone hvpump nofun
      rw [hvsession, husession] at htsession
      exact ⟨t, (r.trans hv).trans ht, htsession, htpump,
        htarrived.trans (hvarrived.trans huarrived), htpacing⟩

/-- What happens to a session when a chunk is in its log. -/
def reacted (x : Session) (chunk : Bytes) : Session :=
  let x := { x with outputSinceInput := true }
  match x.pacer with
  | none => x.moveTo .running
  | some p => x.observe p chunk

theorem ingest_eq {x : Session} (ho : x.log.closed = false) (chunk : Bytes) :
    x.ingest chunk = reacted { x with log := x.log.append chunk } chunk := by
  rw [Session.ingest, if_neg (by rw [ho]; exact nofun)]
  rfl

/-- A chunk is in the log, and the pump does the rest. -/
theorem react_alone {chunk : Bytes} (hp : s.pump = .marking chunk) (free : s.pacing = none) :
    ∃ t, s.Pumping t ∧ t.session = reacted s.session chunk ∧ t.pump = .reading ∧
      t.arrived = s.arrived ∧ t.pacing = none := by
  obtain ⟨u, r, husession, hupump, huarrived, hufree⟩ : ∃ u, s.Pumping u ∧
      u.session = { s.session with outputSinceInput := true } ∧
        u.pump = .reacting chunk ∧ u.arrived = s.arrived ∧ u.pacing = none :=
    ⟨_, .one (by rw [hp]; exact nofun) (.mark chunk hp), rfl, rfl, rfl, free⟩
  rw [reacted, ← husession]
  cases hpacer : u.session.pacer with
  | none =>
    have hplain : u.Pumping _ := .one (by rw [hupump]; exact nofun) (.plain chunk hupump hpacer)
    obtain ⟨t, ht, htsession, htpump, htarrived, htpacing⟩ :=
      settle_alone (s := { u with pump := .moving .busy false }) rfl fun _ => hufree
    exact ⟨t, (r.trans hplain).trans ht, htsession, htpump, htarrived.trans huarrived, htpacing⟩
  | some p =>
    obtain ⟨t, ht, htsession, htpump, htarrived, htpacing⟩ := observe_alone hupump hpacer hufree
    exact ⟨t, r.trans ht, htsession, htpump, htarrived.trans huarrived, htpacing⟩

theorem ingest_alone {chunk : Bytes} (hp : s.pump = .reading) (ho : s.session.log.closed = false)
    (free : s.pacing = none) :
    ∃ t, s.Reaches t ∧ t.session = s.session.ingest chunk ∧ t.pump = .reading ∧
      t.arrived = s.arrived ++ [chunk] ∧ t.pacing = none := by
  obtain ⟨u, r, husession, hupump, huarrived, hufree⟩ : ∃ u, s.Reaches u ∧
      u.session = { s.session with log := s.session.log.append chunk } ∧
        u.pump = .marking chunk ∧ u.arrived = s.arrived ++ [chunk] ∧ u.pacing = none :=
    ⟨_, .single (.pump (.arrive chunk hp)), rfl, rfl, rfl, free⟩
  obtain ⟨t, ht, htsession, htpump, htarrived, htpacing⟩ := react_alone hupump hufree
  rw [husession, ← ingest_eq ho] at htsession
  exact ⟨t, r.trans ht.reaches, htsession, htpump, htarrived.trans huarrived, htpacing⟩

theorem onStall_alone (hp : s.pump = .reading) (free : s.pacing = none) :
    ∃ t, s.Reaches t ∧ t.session = s.session.onStall ∧ t.pump = .reading ∧ t.pacing = none := by
  unfold Session.onStall
  split
  · rename_i h
    obtain ⟨hm, ho, he⟩ := h
    have hlive : s.session.child.hasExited = false := by simpa using he
    have r : s.Reaches s := .refl
    have r := r.tail (.pump (.stall hp hm ho))
    have r := r.tail (.pump (.stalled rfl hlive))
    exact ⟨_, r.tail (.pump (.move _ _ rfl)), rfl, rfl, free⟩
  · exact ⟨s, .refl, rfl, hp, free⟩

/-! ## Sending -/

/-- A caller has sent all but `rest`, or was refused, and the session and the answer are these. -/
structure Sent (s t : Scene) (i : Nat) (rest : List String)
    (o : Session × Except SessionError Unit) : Prop where
  session : t.session = o.1
  pacing : t.pacing = none
  taken : o.2 = .ok () → t.task i = .sending (.commanding rest) ∧ t.receipts = s.receipts
  refused : ∀ e, o.2 = .error e → t.receipts = s.receipts ++ [.error e]

theorem Sent.of_refused {s t : Scene} {i : Nat} {rest : List String} {x : Session}
    {e : SessionError} (hsession : t.session = x) (hpacing : t.pacing = none)
    (hreceipts : t.receipts = s.receipts ++ [.error e]) : Sent s t i rest (x, .error e) where
  session := hsession
  pacing := hpacing
  taken h := by cases h
  refused e' h := by cases h; exact hreceipts

theorem Sent.of_taken {s t : Scene} {i : Nat} {rest : List String} {x : Session}
    (hsession : t.session = x) (hpacing : t.pacing = none)
    (htask : t.task i = .sending (.commanding rest)) (hreceipts : t.receipts = s.receipts) :
    Sent s t i rest (x, .ok ()) where
  session := hsession
  pacing := hpacing
  taken _ := ⟨htask, hreceipts⟩
  refused e h := by cases h

/-- What a write gives: the session stays as it is if the write is refused. -/
def written (x : Session) (bytes : Bytes) : Session × Except SessionError Unit :=
  match x.writeInput? bytes with
  | .ok x' => (x', .ok ())
  | .error e => (x, .error e)

theorem write_alone {i : Nat} {bytes : Bytes} {rest : List String}
    (hi : s.task i = .sending (.checking bytes rest)) (free : s.pacing = none) :
    ∃ t, s.Reaches t ∧ Sent s t i rest (written s.session bytes) := by
  unfold written Session.writeInput? Session.enqueue? Child.write?
  cases ht : s.session.state.isTerminal with
  | true =>
    have r : s.Reaches _ := .single (.send (.tooLate i bytes rest hi ht))
    exact ⟨_, r, .of_refused rfl free rfl⟩
  | false =>
    have r : s.Reaches _ := .single (.send (.check i bytes rest hi ht))
    cases he : s.session.child.hasExited with
    | true =>
      have r := r.tail (.send (.exited i false bytes rest (task_put_self ..) he))
      exact ⟨_, r, .of_refused rfl free rfl⟩
    | false =>
      have r := r.tail (.send (.offer i false bytes rest (task_put_self ..) he))
      cases hq : s.session.child.input.send? bytes with
      | none =>
        have r := r.tail (.send (.closed i false bytes rest (task_put_self ..) hq))
        exact ⟨_, r, .of_refused rfl free rfl⟩
      | some input =>
        have r := r.tail (.send (.push i false bytes rest input (task_put_self ..) hq))
        have r := r.tail (.send (.note i rest (task_put_self ..)))
        have r := r.tail (.send (.move i false rest (task_put_self ..)))
        exact ⟨_, r, .of_taken rfl free (task_put_self ..) rfl⟩

theorem offered_alone {i : Nat} {bytes : Bytes} {rest : List String}
    (hi : s.task i = .sending (.offering true bytes rest)) :
    ∃ t, s.Reaches t ∧ Sent s t i rest
      (match s.session.enqueue? bytes with
      | .ok x => (x.moveTo .running, .ok ())
      | .error e => (s.session, .error e)) := by
  unfold Session.enqueue? Child.write?
  cases he : s.session.child.hasExited with
  | true =>
    have r : s.Reaches _ := .single (.send (.exited i true bytes rest hi he))
    exact ⟨_, r, .of_refused rfl rfl rfl⟩
  | false =>
    have r : s.Reaches _ := .single (.send (.offer i true bytes rest hi he))
    cases hq : s.session.child.input.send? bytes with
    | none =>
      have r := r.tail (.send (.closed i true bytes rest (task_put_self ..) hq))
      exact ⟨_, r, .of_refused rfl rfl rfl⟩
    | some input =>
      have r := r.tail (.send (.push i true bytes rest input (task_put_self ..) hq))
      have r := r.tail (.send (.move i true rest (task_put_self ..)))
      exact ⟨_, r, .of_taken rfl rfl (task_put_self ..) rfl⟩

theorem sendCommand_alone {i : Nat} {line : String} {rest : List String}
    (hi : s.task i = .sending (.commanding (line :: rest))) (free : s.pacing = none) :
    ∃ t, s.Reaches t ∧ Sent s t i rest (s.session.sendCommand line) := by
  unfold Session.sendCommand
  cases hpacer : s.session.pacer with
  | none =>
    have r : s.Reaches _ := .single (.send (.plain i line rest hi hpacer))
    obtain ⟨t, ht, hsent⟩ := write_alone (task_put_self ..) free
    exact ⟨t, r.trans ht, hsent.session, hsent.pacing, hsent.taken, hsent.refused⟩
  | some p =>
    dsimp only
    cases hs : p.send line with
    | none =>
      have r : s.Reaches _ := .single (.send (.refuse i line rest p hi hpacer free hs))
      exact ⟨_, r, .of_refused rfl free rfl⟩
    | some o =>
      obtain ⟨p', out⟩ := o
      cases out with
      | none =>
        have r : s.Reaches _ := .single (.send (.queue i line rest p p' hi hpacer free hs))
        exact ⟨_, r, .of_taken rfl free (task_put_self ..) rfl⟩
      | some bytes =>
        have r : s.Reaches _ := .single (.send (.dispatch i line rest p p' bytes hi hpacer free hs))
        obtain ⟨t, ht, hsent⟩ := offered_alone (task_put_self ..)
        exact ⟨t, r.trans ht, hsent.session, hsent.pacing, hsent.taken, hsent.refused⟩

/-- Commands, up to the first that is refused, and the answer. -/
theorem sendCommands_alone {s : Scene} {i : Nat} {lines : List String}
    (hi : s.task i = .sending (.commanding lines)) (free : s.pacing = none) :
    ∃ t, s.Reaches t ∧ t.session = (s.session.sendCommands lines).1 ∧
      t.receipts = s.receipts ++ [(s.session.sendCommands lines).2] := by
  induction lines generalizing s with
  | nil => exact ⟨_, .single (.send (.answer i hi)), rfl, rfl⟩
  | cons line rest ih =>
    obtain ⟨u, hu, hsent⟩ := sendCommand_alone hi free
    unfold Session.sendCommands
    cases ho : s.session.sendCommand line with
    | mk x r =>
      rw [ho] at hsent
      cases r with
      | error e => exact ⟨u, hu, hsent.session, hsent.refused e rfl⟩
      | ok =>
        obtain ⟨htask, hreceipts⟩ := hsent.taken rfl
        obtain ⟨t, ht, htsession, htreceipts⟩ := ih htask hsent.pacing
        rw [hsent.session] at htsession htreceipts
        rw [hreceipts] at htreceipts
        exact ⟨t, hu.trans ht, htsession, htreceipts⟩

theorem submitInput_alone {i : Nat} (payload : String) (hi : s.task i = .idle)
    (free : s.pacing = none) :
    ∃ t, s.Reaches t ∧ t.session = (s.session.submitInput payload).1 ∧
      t.receipts = s.receipts ++ [(s.session.submitInput payload).2] := by
  have r : s.Reaches _ := .single (.send (.submit i payload hi))
  unfold Session.submitInput
  by_cases hm : s.session.mode = .debugger
  · rw [if_pos hm]
    have htask : (s.put i (.sending (s.session.beginInput payload))).task i =
        .sending (.commanding (Session.commandLines payload)) := by
      rw [task_put_self, Session.beginInput, if_pos hm]
    obtain ⟨t, ht, htsession, htreceipts⟩ := sendCommands_alone htask free
    exact ⟨t, r.trans ht, htsession, htreceipts⟩
  · rw [if_neg hm]
    have htask : (s.put i (.sending (s.session.beginInput payload))).task i =
        .sending (.checking (Session.closedLine payload) []) := by
      rw [task_put_self, Session.beginInput, if_neg hm]
    obtain ⟨u, hu, hsent⟩ := write_alone htask free
    have r := r.trans hu
    have hwritten : u.session = (written s.session (Session.closedLine payload)).1 := hsent.session
    have htaken : (written s.session (Session.closedLine payload)).2 = .ok () →
        u.task i = .sending (.commanding []) ∧ u.receipts = s.receipts := hsent.taken
    have hrefused : ∀ e, (written s.session (Session.closedLine payload)).2 = .error e →
        u.receipts = s.receipts ++ [.error e] := hsent.refused
    unfold written at hwritten htaken hrefused
    cases hw : s.session.writeInput? (Session.closedLine payload) with
    | ok x =>
      rw [hw] at hwritten htaken
      obtain ⟨hdone, hreceipts⟩ := htaken rfl
      refine ⟨_, r.tail (.send (.answer i hdone)), hwritten, ?_⟩
      rw [← hreceipts]
      rfl
    | error e =>
      rw [hw] at hwritten hrefused
      exact ⟨u, r, hwritten, hrefused e rfl⟩

end SessionHost.Scene
