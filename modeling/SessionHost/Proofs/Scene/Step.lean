import SessionHost.Proofs.Scene.Basic

/-!
# What may happen next

Every constructor is one access to one part of the session, and any of them may happen whenever its
guard holds. They are grouped by who acts: a caller who reads, kills, asks or sends, the pump, and the
world, which is the program with the parties that watch it.

`Scene.Reaches` is any number of steps by anybody, in any order.
-/
namespace SessionHost.Scene

/-- A caller reads output.
mirrors session/mod:200-230 -/
inductive ReadStep : Scene → Scene → Prop where
  | callPoll {s : Scene} (i : Nat) (route : Bool) (h : s.task i = .idle) :
    ReadStep s (s.put i (.reading route (.queueing s.session.log.closed)))
  | callPollFrom {s : Scene} (i : Nat) (route : Bool) (offset : Nat) (h : s.task i = .idle) :
    ReadStep s (s.put i (.reading route (.looking .own offset)))
  | acquire {s : Scene} (i : Nat) (route late : Bool)
      (h : s.task i = .reading route (.queueing late)) (free : s.reader = none) :
    ReadStep s ({ s with reader := some i }.put i
      (.reading route (.looking (.cursor late) s.session.cursor)))
  | look {s : Scene} (i : Nat) (route : Bool) (source : PollSource) (offset : Nat)
      (h : s.task i = .reading route (.looking source offset)) :
    ReadStep s (s.put i (.reading route (.taking source offset s.session.log.closed)))
  | takeOwn {s : Scene} (i : Nat) (route : Bool) (offset : Nat) (saw : Bool)
      (h : s.task i = .reading route (.taking .own offset saw)) :
    ReadStep s ((s.answerRead (.polled offset (s.take saw offset))).put i
      (.afterPoll route (s.take saw offset)))
  | take {s : Scene} (i : Nat) (route late : Bool) (offset : Nat) (saw : Bool) (p : Poll)
      (h : s.task i = .reading route (.taking (.cursor late) offset saw))
      (hp : s.take saw offset = .ok p) :
    ReadStep s (s.put i (.reading route (.storing late p)))
  | refuse {s : Scene} (i : Nat) (route late : Bool) (offset : Nat) (saw : Bool) (e : SessionError)
      (h : s.task i = .reading route (.taking (.cursor late) offset saw))
      (he : s.take saw offset = .error e) :
    ReadStep s ((s.answerPoll ⟨late, .error e⟩).put i .idle)
  | store {s : Scene} (i : Nat) (route late : Bool) (p : Poll)
      (h : s.task i = .reading route (.storing late p)) :
    ReadStep s (((s.withSession
      { s.session with cursor := p.cursorAfter s.session.cursor }).answerPoll ⟨late, .ok p⟩).put i
        (.afterPoll route (.ok p)))
  | readSince {s : Scene} (offset : Nat) :
    ReadStep s (s.answerRead (.since offset (s.session.readSince offset)))

/-- A caller kills the session.
mirrors session/mod:282-305 and server/router:175-189 -/
inductive KillStep : Scene → Scene → Prop where
  | call {s : Scene} (i : Nat) (route : Bool) (h : s.task i = .idle) :
    KillStep s (s.put i (.ending route .entering))
  | recorded {s : Scene} (i : Nat) (route : Bool) (e : ExitInfo)
      (h : s.task i = .ending route .entering) (he : s.session.exit = some e) :
    KillStep s (s.put i (.ending route (.moving e)))
  | enter {s : Scene} (i : Nat) (route : Bool) (h : s.task i = .ending route .entering)
      (hn : s.session.exit = none) (free : s.recorder = none) :
    KillStep s ({ s with recorder := some i }.put i (.ending route (.finding .look)))
  | goOn {s : Scene} (i : Nat) (route : Bool) (stage next : KillStage)
      (h : s.task i = .ending route (.finding stage)) (hg : stage.step s.fate = .goOn next) :
    KillStep s (s.put i (.ending route (.finding next)))
  | decide {s : Scene} (i : Nat) (route : Bool) (stage : KillStage) (e : ExitInfo) (sent : Bool)
      (h : s.task i = .ending route (.finding stage)) (hd : stage.step s.fate = .decided e sent) :
    KillStep s ({ s with session := s.session.record e, recorder := none }.put i
      (.ending route (.moving (s.session.exit.getD e))))
  | move {s : Scene} (i : Nat) (route : Bool) (e : ExitInfo)
      (h : s.task i = .ending route (.moving e)) :
    KillStep s (((s.withSession (s.session.moveTo e.terminalState)).report (.killed e)).put i
      (.afterKill route e))
  | answer {s : Scene} (i : Nat) (route : Bool) (e : ExitInfo)
      (h : s.task i = .ending route (.asking e)) :
    KillStep s ((s.report (.stopped e s.session.state)).put i .idle)

/-- A caller asks how the session stands.
mirrors session/mod:166-172, 188-197 and 308-313 -/
inductive TellStep : Scene → Scene → Prop where
  | callWait {s : Scene} (i : Nat) (h : s.task i = .idle) : TellStep s (s.put i (.telling .waiting))
  | seeDone {s : Scene} (i : Nat) (h : s.task i = .telling .waiting) (hd : s.session.done = true) :
    TellStep s (s.put i (.telling .waited))
  | answerWait {s : Scene} (i : Nat) (h : s.task i = .telling .waited) :
    TellStep s ((s.report (.waited s.session.exit)).put i .idle)
  | readExit {s : Scene} : TellStep s (s.report (.exit s.session.exit))
  | readState {s : Scene} : TellStep s (s.report (.state s.session.state))
  | callSnapshot {s : Scene} (i : Nat) (h : s.task i = .idle) :
    TellStep s (s.put i (.telling (.lengthOf s.session.state)))
  | readLength {s : Scene} (i : Nat) (st : SessionState) (h : s.task i = .telling (.lengthOf st)) :
    TellStep s (s.put i (.telling (.exitOf st s.session.log.length)))
  | answerSnapshot {s : Scene} (i : Nat) (st : SessionState) (n : Nat)
      (h : s.task i = .telling (.exitOf st n)) :
    TellStep s ((s.report (.snapshot ⟨s.session.mode, st, n, s.session.exit⟩)).put i .idle)
  | routeState {s : Scene} (i : Nat) (p : Poll) (h : s.task i = .telling (.routeState p)) :
    TellStep s (s.put i (.telling (.routeExit p s.session.state)))
  | routeExit {s : Scene} (i : Nat) (p : Poll) (st : SessionState)
      (h : s.task i = .telling (.routeExit p st)) :
    TellStep s ((s.report (.program p st s.session.exit)).put i .idle)

/-- A caller sends input.
mirrors session/mod:234-278 -/
inductive SendStep : Scene → Scene → Prop where
  | submit {s : Scene} (i : Nat) (payload : String) (h : s.task i = .idle) :
    SendStep s (s.put i (.sending (s.session.beginInput payload)))
  | write {s : Scene} (i : Nat) (bytes : Bytes) (h : s.task i = .idle) :
    SendStep s (s.put i (.sending (.checking bytes [])))
  | command {s : Scene} (i : Nat) (line : String) (h : s.task i = .idle) :
    SendStep s (s.put i (.sending (.commanding [line])))
  | answer {s : Scene} (i : Nat) (h : s.task i = .sending (.commanding [])) :
    SendStep s (s.answerInput i (.ok ()))
  | plain {s : Scene} (i : Nat) (line : String) (rest : List String)
      (h : s.task i = .sending (.commanding (line :: rest))) (hp : s.session.pacer = none) :
    SendStep s (s.put i (.sending (.checking (Pacer.commandBytes line) rest)))
  | refuse {s : Scene} (i : Nat) (line : String) (rest : List String) (p : Pacer)
      (h : s.task i = .sending (.commanding (line :: rest))) (hp : s.session.pacer = some p)
      (free : s.pacing = none) (hs : p.send line = none) :
    SendStep s (s.answerInput i (.error .closedStream))
  | queue {s : Scene} (i : Nat) (line : String) (rest : List String) (p p' : Pacer)
      (h : s.task i = .sending (.commanding (line :: rest))) (hp : s.session.pacer = some p)
      (free : s.pacing = none) (hs : p.send line = some (p', none)) :
    SendStep s ((s.withSession (s.session.withPacer p')).put i (.sending (.commanding rest)))
  | dispatch {s : Scene} (i : Nat) (line : String) (rest : List String) (p p' : Pacer)
      (bytes : Bytes) (h : s.task i = .sending (.commanding (line :: rest)))
      (hp : s.session.pacer = some p) (free : s.pacing = none)
      (hs : p.send line = some (p', some bytes)) :
    SendStep s ({ s with session := s.session.withPacer p', pacing := some (.caller i) }.put i
      (.sending (.offering true bytes rest)))
  | check {s : Scene} (i : Nat) (bytes : Bytes) (rest : List String)
      (h : s.task i = .sending (.checking bytes rest)) (ht : s.session.state.isTerminal = false) :
    SendStep s (s.put i (.sending (.offering false bytes rest)))
  | tooLate {s : Scene} (i : Nat) (bytes : Bytes) (rest : List String)
      (h : s.task i = .sending (.checking bytes rest)) (ht : s.session.state.isTerminal = true) :
    SendStep s (s.answerInput i (.error .closedStream))
  | offer {s : Scene} (i : Nat) (paced : Bool) (bytes : Bytes) (rest : List String)
      (h : s.task i = .sending (.offering paced bytes rest))
      (he : s.session.child.hasExited = false) :
    SendStep s (s.put i (.sending (.pushing paced bytes rest)))
  | exited {s : Scene} (i : Nat) (paced : Bool) (bytes : Bytes) (rest : List String)
      (h : s.task i = .sending (.offering paced bytes rest))
      (he : s.session.child.hasExited = true) :
    SendStep s ((s.release paced).answerInput i (.error .closedStream))
  | push {s : Scene} (i : Nat) (paced : Bool) (bytes : Bytes) (rest : List String)
      (input : InputChannel) (h : s.task i = .sending (.pushing paced bytes rest))
      (hi : s.session.child.input.send? bytes = some input) :
    SendStep s ((s.withSession { s.session with child := { s.session.child with input } }).put i
      (.sending (if paced then .moving true rest else .noting rest)))
  | closed {s : Scene} (i : Nat) (paced : Bool) (bytes : Bytes) (rest : List String)
      (h : s.task i = .sending (.pushing paced bytes rest))
      (hi : s.session.child.input.send? bytes = none) :
    SendStep s ((s.release paced).answerInput i (.error .closedStream))
  | note {s : Scene} (i : Nat) (rest : List String) (h : s.task i = .sending (.noting rest)) :
    SendStep s ((s.withSession { s.session with outputSinceInput := false }).put i
      (.sending (.moving false rest)))
  | move {s : Scene} (i : Nat) (paced : Bool) (rest : List String)
      (h : s.task i = .sending (.moving paced rest)) :
    SendStep s (((s.withSession (s.session.moveTo .running)).release paced).put i
      (.sending (.commanding rest)))
  | closeInput {s : Scene} : SendStep s (s.withSession s.session.closeInput)

/-- The pump goes on.
mirrors session/mod:325-416 -/
inductive PumpStep : Scene → Scene → Prop where
  | arrive {s : Scene} (chunk : Bytes) (h : s.pump = .reading) :
    PumpStep s { s with
      session := { s.session with log := s.session.log.append chunk }
      arrived := s.arrived ++ [chunk]
      pump := .marking chunk }
  | mark {s : Scene} (chunk : Bytes) (h : s.pump = .marking chunk) :
    PumpStep s { s with
      session := { s.session with outputSinceInput := true }, pump := .reacting chunk }
  | plain {s : Scene} (chunk : Bytes) (h : s.pump = .reacting chunk)
      (hp : s.session.pacer = none) :
    PumpStep s { s with pump := .moving .busy false }
  | observe {s : Scene} (chunk : Bytes) (p p' : Pacer) (h : s.pump = .reacting chunk)
      (hp : s.session.pacer = some p) (free : s.pacing = none)
      (ho : p.observe chunk = (p', none)) :
    PumpStep s { s with
      session := s.session.withPacer p', pacing := some .pump, pump := .moving p'.prompt true }
  | dispatch {s : Scene} (chunk : Bytes) (p p' : Pacer) (bytes : Bytes)
      (h : s.pump = .reacting chunk) (hp : s.session.pacer = some p) (free : s.pacing = none)
      (ho : p.observe chunk = (p', some bytes)) :
    PumpStep s { s with
      session := s.session.withPacer p', pacing := some .pump, pump := .offering bytes p'.prompt }
  | offer {s : Scene} (bytes : Bytes) (prompt : PromptState) (h : s.pump = .offering bytes prompt)
      (he : s.session.child.hasExited = false) :
    PumpStep s { s with pump := .pushing bytes prompt }
  | lost {s : Scene} (bytes : Bytes) (prompt : PromptState) (h : s.pump = .offering bytes prompt)
      (he : s.session.child.hasExited = true) :
    PumpStep s { s with pump := .moving prompt true }
  | push {s : Scene} (bytes : Bytes) (prompt : PromptState) (input : InputChannel)
      (h : s.pump = .pushing bytes prompt)
      (hi : s.session.child.input.send? bytes = some input) :
    PumpStep s { s with
      session := { s.session with child := { s.session.child with input } }
      pump := .moving prompt true }
  | closed {s : Scene} (bytes : Bytes) (prompt : PromptState) (h : s.pump = .pushing bytes prompt)
      (hi : s.session.child.input.send? bytes = none) :
    PumpStep s { s with pump := .moving prompt true }
  | move {s : Scene} (prompt : PromptState) (paced : Bool) (h : s.pump = .moving prompt paced) :
    PumpStep s (Scene.release { s with
      session := s.session.moveTo (Session.stateOfPrompt prompt), pump := .reading } paced)
  | stall {s : Scene} (h : s.pump = .reading) (hm : s.session.mode = .interactive)
      (ho : s.session.outputSinceInput = true) :
    PumpStep s { s with pump := .stalling }
  | stalled {s : Scene} (h : s.pump = .stalling) (he : s.session.child.hasExited = false) :
    PumpStep s { s with pump := .moving .idle false }
  | overtaken {s : Scene} (h : s.pump = .stalling) (he : s.session.child.hasExited = true) :
    PumpStep s { s with pump := .reading }
  | beginFinish {s : Scene} (e : ExitInfo) (h : s.pump = .reading) :
    PumpStep s { s with pump := .finishing e FinishStep.all }
  | finish {s : Scene} (e : ExitInfo) (f : FinishStep) (rest : List FinishStep) (now : Nat)
      (h : s.pump = .finishing e (f :: rest)) (hr : f = .record → s.recorder = none)
      (hp : f = .closePacer → s.pacing = none) :
    PumpStep s { s with session := f.apply e now s.session, pump := .finishing e rest }

/-- The program ends, its status is taken and made known, and its input is written.
mirrors session/process:327-344 and session/stdin:36-44 -/
inductive WorldStep : Scene → Scene → Prop where
  | ends {s : Scene} (e : ExitInfo) (h : s.fate = .alive) : WorldStep s { s with ended := some e }
  | collect {s : Scene} (e : ExitInfo) (h : s.fate = .ended e) :
    WorldStep s (s.withSession
      { s.session with child := { s.session.child with collected := some e } })
  | publish {s : Scene} (e : ExitInfo) (h : s.fate = .collected e) :
    WorldStep s (s.withSession
      { s.session with child := { s.session.child with published := some e } })
  | writer {s : Scene} (w : WriterStep) :
    WorldStep s (s.withSession { s.session with
      child := { s.session.child with input := s.session.child.input.take w } })

inductive Step (s t : Scene) : Prop where
  | read (h : ReadStep s t)
  | kill (h : KillStep s t)
  | tell (h : TellStep s t)
  | send (h : SendStep s t)
  | pump (h : PumpStep s t)
  | world (h : WorldStep s t)

abbrev Reaches : Scene → Scene → Prop := Relation.ReflTransGen Step

/-- Anybody does what is next, but a pump that waits for output goes on waiting. -/
inductive StepBetween (s t : Scene) : Prop where
  | read (h : ReadStep s t)
  | kill (h : KillStep s t)
  | tell (h : TellStep s t)
  | send (h : SendStep s t)
  | pump (busy : s.pump ≠ .reading) (h : PumpStep s t)
  | world (h : WorldStep s t)

/-- What may happen between two turns of the pump. -/
abbrev Between : Scene → Scene → Prop := Relation.ReflTransGen StepBetween

theorem StepBetween.step {s t : Scene} (h : StepBetween s t) : Step s t := by
  cases h with
  | read h => exact .read h
  | kill h => exact .kill h
  | tell h => exact .tell h
  | send h => exact .send h
  | pump _ h => exact .pump h
  | world h => exact .world h

theorem Between.reaches {s t : Scene} (h : Between s t) : Reaches s t :=
  h.lift id fun _ _ hst => hst.step

/-- What every step keeps holds wherever the steps lead. -/
theorem Reaches.keeps {P : Scene → Prop} (hP : ∀ s t, P s → Step s t → P t) {s t : Scene}
    (h : Reaches s t) (hs : P s) : P t := by
  induction h with
  | refl => exact hs
  | tail _ hst ih => exact hP _ _ ih hst

end SessionHost.Scene
