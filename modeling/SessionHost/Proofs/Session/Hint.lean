import SessionHost.Proofs.Input.Dictation
import SessionHost.Proofs.Intake.Faithful
import SessionHost.Proofs.Scene.Alone

/-!
# Whether a program waits for input

A session says of a program that goes on whether it waits for input, and what that goes by depends on the
mode. A batch run is never taken to wait. A program that converses is when output has arrived and then no
more for a while, until it is sent input. A debugger waits when its pacer has seen the prompt, and is busy
from the time that a command is released.

**The machine.** A `Course` is a session with the length that its log had when input was last accepted. Each
call on the session is one step, and so is each change in the program.

**Hypotheses.** Calls come one after the other. A chunk of output is never empty. A program whose input is
closed does not take input again.

**Results.**
* `Course.hinted_of_reaches`: a batch run is never said to wait, and one that converses only if there is
  output behind the last input. A debugger that goes on and takes input is said to wait exactly if its pacer
  says that it does, unless bytes were sent past the pacer.
* `Course.pump_alone`: what the pump of a session does is a run of the machine.
-/
namespace SessionHost

/-! ## Moves -/

namespace SessionState

variable {st : SessionState}

/-- A session that was told what the pacer says is there, or has ended. -/
theorem moveTo_stateOfPrompt (h : st ≠ .starting) (prompt : PromptState) :
    (st.moveTo (Session.stateOfPrompt prompt)).isTerminal = true ∨
      st.moveTo (Session.stateOfPrompt prompt) = Session.stateOfPrompt prompt := by
  cases st with
  | starting => exact absurd rfl h
  | running | awaitingInput => cases prompt <;> exact .inr rfl
  | exited | killed => cases prompt <;> exact .inl rfl

theorem moveTo_running_ne (st : SessionState) : st.moveTo .running ≠ .awaitingInput := by
  cases st <;> decide

theorem isTerminal_moveTo_terminalState (h : st ≠ .starting) (e : ExitInfo) :
    (st.moveTo e.terminalState).isTerminal = true := by
  unfold ExitInfo.terminalState
  cases st with
  | starting => exact absurd rfl h
  | running | awaitingInput | exited | killed => cases e.isNatural <;> rfl

theorem ne_awaitingInput_of_isTerminal (h : st.isTerminal = true) : st ≠ .awaitingInput := by
  rintro rfl
  cases h

theorem ne_starting_of_isTerminal (h : st.isTerminal = true) : st ≠ .starting := by
  rintro rfl
  cases h

end SessionState

/-- A pacer that releases nothing says what it said before, and one that releases a command is busy. -/
theorem Pacer.prompt_send {p q : Pacer} {line : String} {out : Option Bytes}
    (h : p.send line = some (q, out)) :
    out = none ∧ q.prompt = p.prompt ∨ out.isSome = true ∧ q.prompt = .busy := by
  unfold Pacer.send Pacer.dispatch at h
  split at h
  · cases h
  · split at h <;> cases h
    · exact .inr ⟨rfl, rfl⟩
    · exact .inl ⟨rfl, rfl⟩

/-! ## Sessions -/

namespace Session

/-- A session that has no pacer. `mark` is how long its log was when input was last accepted. -/
structure Plain (mark : Nat) (s : Session) : Prop where
  mode : s.mode ≠ .debugger
  pacer : s.pacer = none
  begun : s.state ≠ .starting
  marked : mark ≤ s.log.length
  /-- Output that arrived since then is remembered. -/
  heard : s.outputSinceInput = true → mark < s.log.length
  waits : s.state = .awaitingInput → s.mode = .interactive ∧ mark < s.log.length

/-- What a session says of a debugger, as far as it has to agree with the pacer. -/
def Follows (bypassed : Bool) (s : Session) (p : Pacer) : Prop :=
  bypassed = true ∨ s.state.isTerminal = true ∨ ¬ s.child.Accepts ∨ s.state = stateOfPrompt p.prompt

structure Paced (bypassed : Bool) (s : Session) : Prop where
  mode : s.mode = .debugger
  begun : s.state ≠ .starting
  follows : ∃ p, s.pacer = some p ∧ s.Follows bypassed p

variable {s x : Session} {mark : Nat} {bypassed : Bool}

/-- Input that is accepted goes to the program, and the session says that it runs. -/
theorem of_writeInput {bs : Bytes} (h : s.writeInput? bs = .ok x) :
    s.state.isTerminal = false ∧ ∃ child, x = noteInput { s with child } := by
  unfold writeInput? enqueue? at h
  split at h
  · cases h
  · rename_i ht
    refine ⟨Bool.eq_false_iff.2 ht, ?_⟩
    cases hw : s.child.write? bs with
    | none =>
      rw [hw] at h
      cases h
    | some child =>
      rw [hw] at h
      cases h
      exact ⟨child, rfl⟩

theorem Plain.withChild (h : s.Plain mark) (child : Child) : Plain mark { s with child } :=
  ⟨h.mode, h.pacer, h.begun, h.marked, h.heard, h.waits⟩

theorem Plain.writeInput (h : s.Plain mark) {bs : Bytes} (hx : s.writeInput? bs = .ok x) :
    x.Plain x.log.length := by
  obtain ⟨-, child, rfl⟩ := of_writeInput hx
  exact ⟨h.mode, h.pacer, SessionState.moveTo_ne_starting h.begun _, Nat.le_refl _, nofun,
    fun hw => absurd hw (SessionState.moveTo_running_ne _)⟩

/-- A session without a pacer says that it runs when output arrives. -/
theorem ingest_of_plain (ho : s.log.closed = false) (hp : s.pacer = none) (chunk : Bytes) :
    s.ingest chunk =
      { s with log := s.log.append chunk, outputSinceInput := true }.moveTo .running := by
  simp [ingest, ho, hp]

theorem Plain.ingest (h : s.Plain mark) {chunk : Bytes} (hc : chunk ≠ []) :
    (s.ingest chunk).Plain mark := by
  cases ho : s.log.closed with
  | true =>
    rw [Session.ingest, if_pos ho]
    exact h
  | false =>
    have hmore : mark < (s.log.append chunk).length := by
      have hmark : mark ≤ s.log.bytes.length := h.marked
      have hlen := List.length_pos_iff.2 hc
      rw [OutputLog.length, OutputLog.bytes_append, ho, if_neg Bool.false_ne_true, List.length_append]
      omega
    rw [ingest_of_plain ho h.pacer]
    exact ⟨h.mode, h.pacer, SessionState.moveTo_ne_starting h.begun _, Nat.le_of_lt hmore,
      fun _ => hmore, fun hw => absurd hw (SessionState.moveTo_running_ne _)⟩

theorem Plain.onStall (h : s.Plain mark) : s.onStall.Plain mark := by
  unfold Session.onStall
  split
  · rename_i hs
    exact ⟨h.mode, h.pacer, SessionState.moveTo_ne_starting h.begun _, h.marked, h.heard,
      fun _ => ⟨hs.1, h.heard hs.2.1⟩⟩
  · exact h

theorem Plain.ended (h : s.Plain mark) (hm : x.mode = s.mode) (hp : x.pacer = none)
    (ho : x.outputSinceInput = s.outputSinceInput) (hl : x.log.length = s.log.length)
    (ht : x.state.isTerminal = true) : x.Plain mark := by
  refine ⟨hm ▸ h.mode, hp, SessionState.ne_starting_of_isTerminal ht, ?_, ?_,
    fun hw => absurd hw (SessionState.ne_awaitingInput_of_isTerminal ht)⟩
  · rw [hl]
    exact h.marked
  · rw [ho, hl]
    exact h.heard

/-- Nothing is asked of a debugger that takes less input than before. -/
theorem Paced.withChild (h : s.Paced bypassed) {child : Child} (hc : child.Accepts → s.child.Accepts) :
    Paced bypassed { s with child } := by
  obtain ⟨p, hp, hf⟩ := h.follows
  exact ⟨h.mode, h.begun, p, hp,
    hf.imp_right fun hf => hf.imp_right fun hf => hf.imp_left fun hn ha => hn (hc ha)⟩

theorem Paced.sendCommand (h : s.Paced bypassed) (line : String) :
    (s.sendCommand line).1.Paced bypassed := by
  obtain ⟨p, hp, hf⟩ := h.follows
  unfold Session.sendCommand
  simp only [hp]
  cases hs : p.send line with
  | none => exact h
  | some r =>
    obtain ⟨q, out⟩ := r
    rcases Pacer.prompt_send hs with ⟨rfl, hq⟩ | ⟨hout, hq⟩
    · -- the command is queued behind others, or the debugger is busy
      refine ⟨h.mode, h.begun, q, rfl, ?_⟩
      unfold Follows at hf ⊢
      rw [hq]
      exact hf
    · obtain ⟨bs, rfl⟩ := Option.isSome_iff_exists.1 hout
      unfold enqueue?
      cases hw : s.child.write? bs with
      | none =>
        simp only [withPacer, hw]
        have hn : ¬ s.child.Accepts := fun ha => by
          rw [Child.write?_of_accepts ha] at hw
          cases hw
        exact ⟨h.mode, h.begun, q, rfl, .inr (.inr (.inl hn))⟩
      | some child =>
        simp only [withPacer, hw]
        refine ⟨h.mode, SessionState.moveTo_ne_starting h.begun _, q, rfl, .inr ?_⟩
        rw [hq]
        exact (SessionState.moveTo_stateOfPrompt h.begun .busy).imp_right .inr

theorem Paced.sendCommands {s : Session} (h : s.Paced bypassed) (lines : List String) :
    (s.sendCommands lines).1.Paced bypassed := by
  induction lines generalizing s with
  | nil => exact h
  | cons line rest ih =>
    have hnext := h.sendCommand line
    unfold Session.sendCommands
    split
    · rename_i y hy
      rw [hy] at hnext
      exact ih hnext
    · exact hnext

theorem Paced.submitInput (h : s.Paced bypassed) (text : String) :
    (s.submitInput text).1.Paced bypassed := by
  rw [Session.submitInput, if_pos h.mode]
  exact h.sendCommands _

/-- Bytes that are sent past the pacer leave it saying what it said. -/
theorem Paced.writeInput (h : s.Paced bypassed) {bs : Bytes} (hx : s.writeInput? bs = .ok x) :
    x.Paced true := by
  obtain ⟨-, child, rfl⟩ := of_writeInput hx
  obtain ⟨p, hp, -⟩ := h.follows
  exact ⟨h.mode, SessionState.moveTo_ne_starting h.begun _, p, hp, .inl rfl⟩

theorem Paced.ingest (h : s.Paced bypassed) (chunk : Bytes) : (s.ingest chunk).Paced bypassed := by
  obtain ⟨p, hp, hf⟩ := h.follows
  cases ho : s.log.closed with
  | true =>
    rw [Session.ingest, if_pos ho]
    exact h
  | false =>
    rw [ingest_of_pacer ho hp, observe_eq]
    exact ⟨h.mode, SessionState.moveTo_ne_starting h.begun _, _, rfl,
      .inr ((SessionState.moveTo_stateOfPrompt h.begun _).imp_right .inr)⟩

theorem Paced.onStall (h : s.Paced bypassed) : s.onStall.Paced bypassed := by
  rw [Session.onStall, if_neg (by rw [h.mode]; exact fun hs => nomatch hs.1)]
  exact h

theorem Paced.ended (h : s.Paced bypassed) (hm : x.mode = s.mode) (hp : x.pacer.isSome = s.pacer.isSome)
    (ht : x.state.isTerminal = true) : x.Paced bypassed := by
  obtain ⟨p, hs, -⟩ := h.follows
  rw [hs] at hp
  obtain ⟨q, hq⟩ := Option.isSome_iff_exists.1 hp
  exact ⟨hm.trans h.mode, SessionState.ne_starting_of_isTerminal ht, q, hq, .inr (.inl ht)⟩

/-- However a session is killed, it has ended then, and is as it was otherwise. -/
theorem of_kill (hb : s.state ≠ .starting) (h : Host) : ∃ exit state, state.isTerminal = true ∧
    (s.kill h).2.1 = { s with exit, state } := by
  unfold kill
  cases he : s.exit with
  | some e => exact ⟨s.exit, _, SessionState.isTerminal_moveTo_terminalState hb e, rfl⟩
  | none => exact ⟨_, _, SessionState.isTerminal_moveTo_terminalState hb _, rfl⟩

theorem isTerminal_finish (hb : s.state ≠ .starting) (e : ExitInfo) (now : Nat) :
    (s.finish e now).state.isTerminal = true :=
  SessionState.isTerminal_moveTo_terminalState hb _

theorem of_poll {answer : Poll} (h : s.poll = .ok (answer, x)) : ∃ cursor, x = { s with cursor } := by
  rw [Scene.poll_eq] at h
  cases hp : s.pollFrom s.cursor with
  | error e =>
    rw [hp] at h
    cases h
  | ok a =>
    rw [hp] at h
    cases h
    exact ⟨_, rfl⟩

end Session

/-! ## The machine -/

structure Course where
  session : Session
  /-- How long its log was when input was last accepted. -/
  mark : Nat := 0
  /-- Bytes were sent past the pacer. -/
  bypassed : Bool := false

namespace Course

/-- A session whose program has just been started. -/
def start (mode : Mode) (child : Child) (settings : SessionSettings) (scratch : Option Host.Path) :
    Course where
  session := (Session.begin_ mode child settings scratch).moveTo .running

def sent (c : Course) (raw : Bool) : Session × Except SessionError Unit → Course
  | (x, .ok _) => { session := x, mark := x.log.length, bypassed := c.bypassed || raw }
  | (x, .error _) => { c with session := x }

/-- A call on the session, or a change in its program.
mirrors session/mod:205-377 -/
inductive Step : Course → Course → Prop where
  | ingest {c : Course} (chunk : Bytes) (h : chunk ≠ []) :
    Step c { c with session := c.session.ingest chunk }
  | stall {c : Course} : Step c { c with session := c.session.onStall }
  | submit {c : Course} (text : String) : Step c (c.sent false (c.session.submitInput text))
  | command {c : Course} (line : String) : Step c (c.sent false (c.session.sendCommand line))
  | write {c : Course} (bs : Bytes) : Step c (c.sent true (Scene.written c.session bs))
  | closeInput {c : Course} : Step c { c with session := c.session.closeInput }
  | kill {c : Course} (h : Host) : Step c { c with session := (c.session.kill h).2.1 }
  | finish {c : Course} (e : ExitInfo) (now : Nat) : Step c { c with session := c.session.finish e now }
  | poll {c : Course} (answer : Poll) (x : Session) (h : c.session.poll = .ok (answer, x)) :
    Step c { c with session := x }
  -- output is queued, input is written, the status of the program becomes known
  | world {c : Course} (child : Child) (h : child.Accepts → c.session.child.Accepts) :
    Step c { c with session := { c.session with child } }

abbrev Reaches : Course → Course → Prop := Relation.ReflTransGen Step

/-! ## Any steps -/

variable {c d : Course}

def Sound (c : Course) : Prop := c.session.Plain c.mark ∨ c.session.Paced c.bypassed

theorem sound_start (mode : Mode) (child : Child) (settings : SessionSettings)
    (scratch : Option Host.Path) : (start mode child settings scratch).Sound := by
  cases mode with
  | debugger => exact .inr ⟨rfl, nofun, _, rfl, .inr (.inr (.inr rfl))⟩
  | text | interactive => exact .inl ⟨nofun, rfl, nofun, Nat.le_refl _, nofun, nofun⟩

theorem Sound.begun (h : c.Sound) : c.session.state ≠ .starting := h.elim (·.begun) (·.begun)

theorem sound_written (h : c.session.Plain c.mark) (raw : Bool) (bs : Bytes) :
    (c.sent raw (Scene.written c.session bs)).Sound := by
  unfold Scene.written
  cases hw : c.session.writeInput? bs with
  | ok x => exact .inl (h.writeInput hw)
  | error e => exact .inl h

theorem sound_paced {r : Session × Except SessionError Unit} (h : r.1.Paced c.bypassed) :
    (c.sent false r).Sound := by
  obtain ⟨x, _ | _⟩ := r
  · exact .inr h
  · rw [sent, Bool.or_false]
    exact .inr h

theorem Sound.of_step (h : c.Sound) (hst : Step c d) : d.Sound := by
  cases hst with
  | ingest chunk hc => exact h.imp (·.ingest hc) (·.ingest chunk)
  | stall => exact h.imp (·.onStall) (·.onStall)
  | submit text =>
    rcases h with h | h
    · have hs : c.session.submitInput text = Scene.written c.session (Session.closedLine text) := by
        rw [Session.submitInput, if_neg h.mode]
        rfl
      rw [hs]
      exact sound_written h ..
    · exact sound_paced (h.submitInput text)
  | command line =>
    rcases h with h | h
    · have hs : c.session.sendCommand line = Scene.written c.session (Pacer.commandBytes line) := by
        rw [Session.sendCommand, h.pacer]
        rfl
      rw [hs]
      exact sound_written h ..
    · exact sound_paced (h.sendCommand line)
  | write bs =>
    rcases h with h | h
    · exact sound_written h ..
    · unfold Scene.written
      cases hw : c.session.writeInput? bs with
      | ok x =>
        rw [sent, Bool.or_true]
        exact .inr (h.writeInput hw)
      | error e => exact .inr h
  | closeInput =>
    refine h.imp (·.withChild _) (·.withChild fun ha => ?_)
    have hopen : (c.session.child.input.served && false) = true := ha.2
    rw [Bool.and_false] at hopen
    cases hopen
  | kill host =>
    obtain ⟨exit, state, ht, hk⟩ := Session.of_kill h.begun host
    rw [hk]
    exact h.imp (fun h => h.ended rfl h.pacer rfl rfl ht) (fun h => h.ended rfl rfl ht)
  | finish e now =>
    have ht := Session.isTerminal_finish h.begun e now
    refine h.imp (fun h => h.ended rfl ?_ rfl rfl ht) (fun h => h.ended rfl (Option.isSome_map ..) ht)
    show c.session.pacer.map Pacer.close = none
    rw [h.pacer, Option.map_none]
  | poll answer x hx =>
    obtain ⟨cursor, rfl⟩ := Session.of_poll hx
    exact h.imp (fun h => ⟨h.mode, h.pacer, h.begun, h.marked, h.heard, h.waits⟩)
      (fun h => ⟨h.mode, h.begun, h.follows⟩)
  | world child hc => exact h.imp (·.withChild child) (·.withChild hc)

theorem sound_of_reaches {mode : Mode} {child : Child} {settings : SessionSettings}
    {scratch : Option Host.Path} (h : (start mode child settings scratch).Reaches c) : c.Sound := by
  induction h with
  | refl => exact sound_start ..
  | tail _ hst ih => exact ih.of_step hst

structure Hinted (c : Course) : Prop where
  /-- A batch run never waits. -/
  text : c.session.mode = .text → c.session.state ≠ .awaitingInput
  /-- A program that converses has said something since it was last spoken to. -/
  interactive : c.session.mode = .interactive → c.session.state = .awaitingInput →
    c.mark < c.session.log.length
  /-- A debugger waits when its pacer says so. -/
  debugger : c.session.mode = .debugger → c.session.state.isTerminal = false → c.bypassed = false →
    c.session.child.Accepts → (c.session.state = .awaitingInput ↔ c.session.prompt? = some .idle)

/-- Whatever is called, whatever is printed and whatever becomes of the program, a session says that its
program waits when its mode gives a reason, and always does so of a debugger. -/
theorem hinted_of_reaches {mode : Mode} {child : Child} {settings : SessionSettings}
    {scratch : Option Host.Path} (h : (start mode child settings scratch).Reaches c) : c.Hinted where
  text hm hs := by
    rcases sound_of_reaches h with hp | hp
    · have hi := (hp.waits hs).1
      rw [hm] at hi
      cases hi
    · exact nomatch hm.symm.trans hp.mode
  interactive hm hs := by
    rcases sound_of_reaches h with hp | hp
    · exact (hp.waits hs).2
    · exact nomatch hm.symm.trans hp.mode
  debugger hm ht hb ha := by
    rcases sound_of_reaches h with hp | hp
    · exact absurd hm hp.mode
    · obtain ⟨p, hpacer, hbypassed | hterminal | hn | hstate⟩ := hp.follows
      · rw [hb] at hbypassed
        cases hbypassed
      · rw [ht] at hterminal
        cases hterminal
      · exact absurd ha hn
      · rw [Session.prompt?, hpacer, hstate]
        cases hprompt : p.prompt <;> simp [hprompt, Session.stateOfPrompt]

def seat : Child := { process := 1, wiring := .terminal, outlet := 1, inlet := 1, chunkSize := 4096 }

def marked : SessionSettings := { (default : SessionSettings) with promptMarker := "> " }

/-- A debugger that has prompted waits, and does so again when it has prompted behind a command. A program
that converses waits when it has asked, and when it was answered it does not. -/
theorem hinted_of_conversation :
    (∃ c, (start .debugger seat marked none).Reaches c ∧ c.Hinted ∧ c.session.mode = .debugger ∧
      c.session.state = .awaitingInput ∧ c.bypassed = false ∧ c.session.child.Accepts ∧ c.mark = 2 ∧
        c.session.prompt? = some .idle) ∧
    ∃ c d, (start .interactive seat marked none).Reaches c ∧
      (start .interactive seat marked none).Reaches d ∧ c.Hinted ∧ d.Hinted ∧
        c.session.mode = .interactive ∧ d.session.mode = .interactive ∧
          c.session.state = .awaitingInput ∧ d.session.state = .running ∧ d.mark = 1 := by
  constructor
  · have r : (start .debugger seat marked none).Reaches _ := .refl
    have r := r.tail (.ingest [62, 32] nofun)
    have r := r.tail (.command "step")
    have r := r.tail (.ingest [62, 32] nofun)
    exact ⟨_, r, hinted_of_reaches r, rfl, by decide, rfl, ⟨rfl, rfl⟩, by decide, by decide⟩
  · have r : (start .interactive seat marked none).Reaches _ := .refl
    have r := r.tail (.ingest [63] nofun)
    have r := r.tail .stall
    have q := (r.tail (.submit "yes")).tail .stall
    exact ⟨_, _, r, q, hinted_of_reaches r, hinted_of_reaches q, rfl, rfl, by decide, by decide, by decide⟩

/-! ## The pump -/

/-- What the pump of a session does is a step or two of the session, if no chunk is empty. -/
theorem pump_alone {settings : SessionSettings} {h h' : Host} {p p' : PumpState} {x : Session}
    (hs : Pump.step? settings h c.session p = some (h', x, p'))
    (hc : ∀ bs ∈ c.session.child.stream.chunks, bs ≠ []) :
    ∃ d, c.Reaches d ∧ d.session = x ∧ d.mark = c.mark ∧ d.bypassed = c.bypassed := by
  have hstream : ∀ stream, c.Step { c with session := Pump.withStream c.session stream } :=
    fun stream => .world _ id
  have htake : ∀ bs stream, c.session.child.stream.read? = some (.ok (.data bs), stream) →
      c.Reaches { c with session := (Pump.withStream c.session stream).ingest bs } := fun bs stream hr =>
    (Relation.ReflTransGen.single (hstream stream)).tail
      (.ingest bs (hc bs (by rw [(OutputStream.of_read_data hr).1]; exact List.mem_cons_self)))
  cases p with
  | reading deadline =>
    rw [Pump.step?, Pump.read?] at hs
    split at hs
    · rename_i bs stream hr
      cases hs
      exact ⟨_, htake bs stream hr, rfl, rfl, rfl⟩
    · cases hs
      exact ⟨_, .single (hstream _), rfl, rfl, rfl⟩
    · cases hs
      exact ⟨_, .single (hstream _), rfl, rfl, rfl⟩
    · split at hs
      · cases hs
        exact ⟨c, .refl, rfl, rfl, rfl⟩
      · split at hs <;> cases hs
        exact ⟨_, .single .stall, rfl, rfl, rfl⟩
  | awaitingExit =>
    rw [Pump.step?, Option.map_eq_some_iff] at hs
    obtain ⟨e, -, he⟩ := hs
    cases he
    exact ⟨c, .refl, rfl, rfl, rfl⟩
  | lingering e deadline =>
    rw [Pump.step?, Pump.linger?] at hs
    split at hs
    · rename_i bs stream hr
      cases hs
      exact ⟨_, htake bs stream hr, rfl, rfl, rfl⟩
    · cases hs
      exact ⟨_, .single (hstream _), rfl, rfl, rfl⟩
    · split at hs <;> cases hs
      exact ⟨c, .refl, rfl, rfl, rfl⟩
  | finishing e =>
    cases hs
    exact ⟨_, .single (.finish e h.now), rfl, rfl, rfl⟩
  | finished => cases hs

end Course

end SessionHost
