import Mathlib.Data.List.TakeWhile
import SessionHost.Host.Terminal
import SessionHost.Proofs.Input.Alone
import SessionHost.Proofs.Output.Ledger

/-!
# Commands on their way to a debugger

A text for a debugger is split into lines, and those that are not blank are handed to the pacer of the
session, one after the other. The pacer releases commands at two places: to the caller who hands a line
over, and to the pump when it shows it a prompt. Whoever gets one puts it into the queue of the input, out
of which the writer writes it to a terminal, and that is where the debugger reads it.

**The machine.** `Dictation.Step` is one move. A line is handed over by `Session.sendCommand`, output is
taken in by `Session.ingest` and the end comes with `FinishStep.apply`; the pacer is held over each of
them, so none comes in between of another. The writer makes the moves of `Delivery.Works`. Whatever else
happens to a session leaves its pacer and its input alone.

**Hypotheses.** Texts are submitted one after the other, and nobody else sends input. Results are about
input that is still open to a program that is not known to have ended.

**Results.**
* `submitInput_alone`: submitting a text, as `Session.submitInput` does, is a run of the machine.
* `dictated`: the bytes that are written are the commands of the first lines that are not blank, in their
  order, as many as were released. A terminal hands each of them on as one line more than it holds
  carriage returns.
* `return_feeds_two_lines`: so a debugger that has prompted once may read two.
-/
namespace SessionHost

/-! ## What is read of typed bytes -/

namespace Host.Terminal

/-- A terminal in its first modes hands this byte on. The others raise signals or hold the output up. -/
def Plain (b : UInt8) : Prop := b ∉ [3, 17, 19, 26, 28]

/-- What is read of a byte: a newline for a carriage return. -/
def asRead (b : UInt8) : UInt8 := if b = 13 then 10 else b

theorem count_map_asRead (bs : Bytes) :
    (bs.map asRead).count Bytes.newline = bs.count Bytes.newline + bs.count 13 := by
  induction bs with
  | nil => rfl
  | cons b bs ih =>
    have hb : (if asRead b == Bytes.newline then 1 else 0) =
        (if b == Bytes.newline then 1 else 0) + if b == 13 then 1 else 0 := by
      unfold asRead
      by_cases h : b = 13
      · subst h
        rfl
      · simp [h]
    rw [List.map_cons, List.count_cons, List.count_cons, List.count_cons, ih]
    omega

namespace Typing

variable {t : Typing}

/-- Typing at a terminal in its first modes: `input` was added to what was to be read before. -/
structure Reads (t : Typing) (earlier input : Bytes) : Prop where
  modes : t.modes = {}
  verbatim : t.verbatim = false
  earlier : t.earlier = earlier
  input : t.input = input.reverse

variable {earlier input : Bytes}

theorem Reads.echo (h : t.Reads earlier input) (bs : Bytes) : (t.echo bs).Reads earlier input := by
  unfold Typing.echo
  split
  · exact h
  · split <;> exact ⟨h.modes, h.verbatim, h.earlier, h.input⟩

theorem Reads.push (h : t.Reads earlier input) (b : UInt8) :
    Reads { t with input := b :: t.input } earlier (input ++ [b]) := by
  refine ⟨h.modes, h.verbatim, h.earlier, ?_⟩
  show b :: t.input = (input ++ [b]).reverse
  rw [h.input, List.reverse_append]
  rfl

theorem Reads.byte (h : t.Reads earlier input) {b : UInt8} (hb : Plain b) :
    (t.byte b).Reads earlier (input ++ [asRead b]) := by
  simp only [Plain, List.mem_cons, List.not_mem_nil, or_false, not_or] at hb
  obtain ⟨h3, h17, h19, h26, h28⟩ := hb
  have hsignal : signalOf? {} b = none := by
    simp [signalOf?, h3, h26, h28]
  unfold Typing.byte asRead
  by_cases hreturn : b = 13
  · subst hreturn
    have hnext := (h.echo (process t.modes [10])).push 10
    simpa [h.verbatim, h.modes, hsignal, echoLineEnd] using hnext
  · have hnext := (h.echo (echoed t.modes b)).push b
    simpa [h.verbatim, h.modes, hsignal, h17, h19, hreturn] using hnext

theorem Reads.foldl (h : t.Reads earlier input) {bs : Bytes} (hbs : ∀ b ∈ bs, Plain b) :
    (bs.foldl Typing.byte t).Reads earlier (input ++ bs.map asRead) := by
  induction bs generalizing t input with
  | nil => simpa using h
  | cons b bs ih =>
    have hnext := ih (h.byte (hbs b List.mem_cons_self)) fun c hc => hbs c (List.mem_cons_of_mem _ hc)
    simpa using hnext

end Typing

/-- Bytes that are typed can be read behind those that were to be read before. -/
theorem input_type {t : Terminal} (hm : t.modes = {}) (hv : t.verbatim = false) {bs : Bytes}
    (hbs : ∀ b ∈ bs, Plain b) : (t.type bs).1.input = t.input ++ bs.map asRead := by
  have hstart : Typing.Reads
      { modes := t.modes, earlier := t.input, line := t.line.reverse, ends := t.ends
        heldUp := t.heldUp, withheld := t.withheld.reverse, verbatim := t.verbatim } t.input [] :=
    ⟨hm, hv, rfl, rfl⟩
  have h := hstart.foldl hbs
  show _ ++ _ = _
  rw [h.earlier, h.input, List.reverse_reverse, List.nil_append]

end Host.Terminal

/-! ## Commands -/

/-- The command of a line: the line without the carriage returns at its end, and a newline behind it. It
is not an empty line, and it is one line. -/
structure IsCommandOf (line : String) (command : Bytes) : Prop where
  text : ∃ body, command = Bytes.ofString body ++ [Bytes.newline] ∧
    (∃ n, line.toList = body.toList ++ List.replicate n '\r') ∧ body.toList.getLast? ≠ some '\r'
  filled : 1 < command.length
  single : command.count Bytes.newline = 1

/-- A line that is not blank has something left without its end. -/
theorem dropLineEnd_ne_empty {line : String} (h : Text.trim line ≠ "") :
    Text.dropLineEnd line ≠ "" := by
  intro hempty
  have hnil : line.toList.reverse.dropWhile (fun c => c == '\r' || c == '\n') = [] := by
    have hlist := congrArg String.toList hempty
    simpa [Text.dropLineEnd] using hlist
  have hblank : ∀ c ∈ line.toList, Text.isBlank c = true := by
    intro c hc
    have hend := List.dropWhile_eq_nil_iff.1 hnil c (List.mem_reverse.2 hc)
    rcases Bool.or_eq_true_iff.1 hend with hr | hn
    · rw [beq_iff_eq.1 hr]
      decide
    · rw [beq_iff_eq.1 hn]
      decide
  refine h ?_
  unfold Text.trim
  rw [List.dropWhile_eq_nil_iff.2 hblank]
  rfl

theorem toList_dropLineEnd (line : String) : (Text.dropLineEnd line).toList =
    (line.toList.reverse.dropWhile fun c => c == '\r' || c == '\n').reverse := by
  rw [Text.dropLineEnd, String.toList_ofList]

/-- Without its end, a line that holds no newline is short of carriage returns only. -/
theorem exists_returns {line : String} (h : '\n' ∉ line.toList) :
    ∃ n, line.toList = (Text.dropLineEnd line).toList ++ List.replicate n '\r' := by
  have hends : ∀ c ∈ line.toList.reverse.takeWhile (fun c => c == '\r' || c == '\n'), c = '\r' := by
    intro c hc
    have hmem : c ∈ line.toList := List.mem_reverse.1 ((List.takeWhile_prefix _).subset hc)
    have hend := List.mem_takeWhile_imp (p := fun c => c == '\r' || c == '\n') hc
    rcases Bool.or_eq_true_iff.1 hend with hr | hn
    · exact beq_iff_eq.1 hr
    · rw [beq_iff_eq.1 hn] at hmem
      exact absurd hmem h
  refine ⟨(line.toList.reverse.takeWhile fun c => c == '\r' || c == '\n').length, ?_⟩
  rw [← List.reverse_inj, toList_dropLineEnd, List.reverse_append, List.reverse_reverse,
    List.reverse_replicate, ← List.eq_replicate_of_mem hends, List.takeWhile_append_dropWhile]

theorem getLast?_dropLineEnd (line : String) :
    (Text.dropLineEnd line).toList.getLast? ≠ some '\r' := by
  rw [toList_dropLineEnd, List.getLast?_reverse]
  intro hhead
  have hnot := List.head?_dropWhile_not (fun c => c == '\r' || c == '\n') line.toList.reverse
  rw [hhead] at hnot
  simp at hnot

theorem isCommandOf_commandOf {text line : String} (h : line ∈ Session.commandLines text) :
    IsCommandOf line (commandOf line) := by
  have hline : '\n' ∉ line.toList :=
    newline_not_mem_linesFrom (fun l hl => absurd hl List.not_mem_nil) List.not_mem_nil line
      (List.mem_of_mem_filter h)
  have hblank : Text.trim line ≠ "" := by
    simpa using (List.mem_filter.1 h).2
  refine ⟨⟨Text.dropLineEnd line, rfl, exists_returns hline, getLast?_dropLineEnd line⟩, ?filled,
    ?single⟩
  case filled =>
    have hpos := List.length_pos_iff.2 (ofString_ne_nil (dropLineEnd_ne_empty hblank))
    rw [commandOf, Pacer.commandBytes, List.length_append, List.length_singleton]
    omega
  case single =>
    have hnone := (submittable_of_mem_commandLines h).newline_not_mem
    rw [commandOf, Pacer.commandBytes, List.count_append, List.count_eq_zero.2 hnone]
    rfl

/-! ## The machine -/

/-- The session of a debugger, and what has become of the texts for it. -/
structure Dictation where
  session : Session
  /-- The texts that were submitted, in their order. -/
  texts : List String := []
  /-- The lines of the last text that are still to be handed over. -/
  rest : List String := []
  /-- What the pacer was called for, in the order of the calls. -/
  calls : List Pacer.Call := []
  /-- What was put into the queue of the input, in this order. -/
  queued : List Bytes := []
  /-- The writer holds the stream. -/
  held : Bool := true
  /-- What the stream saw of the writer. -/
  events : List StreamEvent := []

/-- The calls on the pacer that a step of the end makes. -/
def FinishStep.calls : FinishStep → List Pacer.Call
  | closePacer => [.close]
  | record | move | sealLog | closeInput | releaseSlot | stamp | announce => []

namespace Session

def withInput (s : Session) (input : InputChannel) : Session :=
  { s with child := { s.child with input } }

/-- What a session has queued for its program that another one had not. -/
def queuedSince (s old : Session) : List Bytes :=
  s.child.input.queue.drop old.child.input.queue.length

end Session

namespace Dictation

/-- A debugger that has just been started. -/
def start (child : Child) (settings : SessionSettings) (scratch : Option Host.Path) : Dictation where
  session := (Session.begin_ .debugger child settings scratch).moveTo .running

/-- The lines of all texts that are not blank. -/
def lines (d : Dictation) : List String := d.texts.flatMap Session.commandLines

/-- The way of the input to the program. -/
def delivery (d : Dictation) : Delivery where
  channel := d.session.child.input
  held := d.held
  answers := d.queued.map fun payload => ⟨false, .accepted payload⟩
  events := d.events

/-- The pacer was called, which has brought the session where it is in `x`. -/
def call (d : Dictation) (c : Pacer.Call) (x : Session) : Dictation :=
  { d with session := x, calls := d.calls ++ [c], queued := d.queued ++ x.queuedSince d.session }

/-- One move. -/
inductive Step : Dictation → Dictation → Prop where
  | submit {d : Dictation} (text : String) (h : d.rest = []) :
    Step d { d with texts := d.texts ++ [text], rest := Session.commandLines text }
  | hand {d : Dictation} (line : String) (rest : List String) (x : Session) (h : d.rest = line :: rest)
      (hs : d.session.sendCommand line = (x, .ok ())) :
    Step d { d.call (.send line) x with rest := rest }
  | ingest {d : Dictation} (chunk : Bytes) (h : d.session.log.closed = false) :
    Step d (d.call (.observe chunk) (d.session.ingest chunk))
  | finish {d : Dictation} (e : ExitInfo) (now : Nat) (f : FinishStep) :
    Step d { d with session := f.apply e now d.session, calls := d.calls ++ f.calls }
  | writer {d : Dictation} (e : Delivery) (h : d.delivery.Works e) :
    Step d { d with
      session := d.session.withInput e.channel, held := e.held, events := e.events }
  | beside {d : Dictation} (x : Session) (hm : x.mode = d.session.mode)
      (hp : x.pacer = d.session.pacer) (hi : x.child.input = d.session.child.input)
      (he : d.session.child.hasExited = true → x.child.hasExited = true) :
    Step d { d with session := x }

abbrev Reaches : Dictation → Dictation → Prop := Relation.ReflTransGen Step

end Dictation

/-! ## What is released is queued -/

namespace Child

variable {c : Child}

/-- The program is not known to have ended, and its input is open. -/
def Accepts (c : Child) : Prop := c.hasExited = false ∧ c.input.isOpen = true

/-- A program is given a command that was released, if one was. -/
def give (c : Child) : Option Bytes → Child
  | none => c
  | some bs => (c.write? bs).getD c

theorem write?_of_accepts (h : c.Accepts) (bs : Bytes) : c.write? bs =
    some { c with input := { c.input with queue := c.input.queue ++ [bs] } } := by
  simp [write?, InputChannel.send?, h.1, h.2]

theorem write?_of_not_accepts (h : ¬ c.Accepts) (bs : Bytes) : c.write? bs = none := by
  by_cases he : c.hasExited = true
  · simp [write?, he]
  · have hi : c.input.isOpen = false := by
      rw [Accepts] at h
      simpa [he] using h
    simp [write?, InputChannel.send?, hi]

theorem give_of_accepts (h : c.Accepts) (out : Option Bytes) : c.give out =
    { c with input := { c.input with queue := c.input.queue ++ out.toList } } := by
  cases out with
  | none => simp [give]
  | some bs => simp [give, write?_of_accepts h]

theorem give_of_not_accepts (h : ¬ c.Accepts) (out : Option Bytes) : c.give out = c := by
  cases out with
  | none => rfl
  | some bs => simp [give, write?_of_not_accepts h]

theorem accepts_give (c : Child) (out : Option Bytes) : (c.give out).Accepts ↔ c.Accepts := by
  by_cases h : c.Accepts
  · rw [give_of_accepts h]
    rfl
  · rw [give_of_not_accepts h]

end Child

namespace Session

variable {s : Session} {p : Pacer}

/-- A line that is taken is shown to the pacer, and the program is given what the pacer releases. -/
theorem of_sendCommand {x : Session} (hp : s.pacer = some p) {line : String}
    (h : s.sendCommand line = (x, .ok ())) : ∃ q out, p.send line = some (q, out) ∧
      x.pacer = some q ∧ x.child = s.child.give out := by
  unfold sendCommand at h
  rw [hp] at h
  dsimp only at h
  split at h
  · cases h
  · rename_i q hs
    cases h
    exact ⟨q, none, hs, rfl, rfl⟩
  · rename_i q bs hs
    unfold enqueue? at h
    cases hw : (s.withPacer q).child.write? bs with
    | none =>
      rw [hw] at h
      cases h
    | some child =>
      rw [hw] at h
      cases h
      refine ⟨q, some bs, hs, rfl, ?_⟩
      show child = (s.child.write? bs).getD s.child
      rw [show s.child.write? bs = some child from hw]
      rfl

/-- The pacer reads a chunk, and the program is given what it releases. -/
theorem observe_eq (s : Session) (p : Pacer) (chunk : Bytes) : s.observe p chunk =
    { s with
      pacer := some (p.observe chunk).1
      child := s.child.give (p.observe chunk).2 }.moveTo (stateOfPrompt (p.observe chunk).1.prompt) := by
  unfold observe
  generalize p.observe chunk = answer
  obtain ⟨q, out⟩ := answer
  cases out with
  | none => rfl
  | some bs => cases hw : s.child.write? bs <;> simp [withPacer, Child.give, hw]

theorem ingest_of_pacer (ho : s.log.closed = false) (hp : s.pacer = some p) (chunk : Bytes) :
    s.ingest chunk =
      { s with log := s.log.append chunk, outputSinceInput := true }.observe p chunk := by
  simp [ingest, ho, hp]

theorem of_ingest (ho : s.log.closed = false) (hp : s.pacer = some p) (chunk : Bytes) :
    (s.ingest chunk).pacer = some (p.observe chunk).1 ∧
      (s.ingest chunk).child = s.child.give (p.observe chunk).2 := by
  rw [ingest_of_pacer ho hp, observe_eq]
  exact ⟨rfl, rfl⟩

end Session

namespace Dictation

variable {d e : Dictation} {marker : String}

/-! ## Any moves -/

structure Kept (marker : String) (d : Dictation) : Prop where
  /-- The pacer is where the calls have brought it. -/
  pacer : d.session.pacer = some ((Pacer.forMarker marker).after d.calls)
  taken : d.lines = (Pacer.forMarker marker).accepted d.calls ++ d.rest
  queued : d.session.child.Accepts → d.queued = (Pacer.forMarker marker).released d.calls
  delivery : d.delivery.Sound

theorem kept_start {child : Child} (hi : child.input = {}) (settings : SessionSettings)
    (scratch : Option Host.Path) : Kept settings.promptMarker (start child settings scratch) where
  pacer := rfl
  taken := rfl
  queued _ := rfl
  delivery := by
    have hstart : (start child settings scratch).delivery = {} := by
      simp [delivery, start, Session.begin_, Session.moveTo, hi]
    rw [hstart]
    exact Delivery.sound_start

@[simp] theorem accepted_delivery (d : Dictation) : d.delivery.accepted = d.queued := by
  unfold Delivery.accepted delivery
  induction d.queued with
  | nil => rfl
  | cons payload rest ih => simp [Reply.accepted?]

theorem queuedSince_of_give {s x : Session} {out : Option Bytes} (hc : x.child = s.child.give out) :
    s.child.Accepts ∧ x.queuedSince s = out.toList ∨
      ¬ s.child.Accepts ∧ x.child = s.child ∧ x.queuedSince s = [] := by
  unfold Session.queuedSince
  by_cases ha : s.child.Accepts
  · rw [hc, Child.give_of_accepts ha]
    exact Or.inl ⟨ha, List.drop_left⟩
  · rw [Child.give_of_not_accepts ha] at hc
    rw [hc]
    exact Or.inr ⟨ha, rfl, List.drop_length⟩

/-- The writer finds what was given behind what was queued before. -/
theorem sound_call (h : d.delivery.Sound) {c : Pacer.Call} {x : Session} {out : Option Bytes}
    (hc : x.child = d.session.child.give out) : (d.call c x).delivery.Sound := by
  rcases queuedSince_of_give hc with ⟨ha, hnew⟩ | ⟨-, hsame, hnew⟩
  · cases out with
    | none =>
      have hkept : (d.call c x).delivery = d.delivery := by
        simp [delivery, call, hnew, hc, Child.give]
      rw [hkept]
      exact h
    | some bs =>
      have hsend : d.delivery.channel.send? bs = some x.child.input := by
        rw [hc, Child.give_of_accepts ha]
        exact if_pos ha.2
      have hnext := h.of_reaches (Delivery.accept_alone h (i := 0) rfl hsend)
      have hkept : (d.call c x).delivery = { d.delivery with
          channel := x.child.input, answers := d.delivery.answers ++ [⟨false, .accepted bs⟩] } := by
        simp [delivery, call, hnew]
      rw [hkept]
      exact hnext
  · have hkept : (d.call c x).delivery = d.delivery := by
      simp [delivery, call, hnew, hsame]
    rw [hkept]
    exact h

/-- The pacer was called, and the program was given what it has released. -/
theorem Kept.call (h : Kept marker d) {c : Pacer.Call} {x : Session} {rest : List String}
    (hp : x.pacer = some (((Pacer.forMarker marker).after d.calls).answer c).1)
    (hc : x.child = d.session.child.give
      (((Pacer.forMarker marker).after d.calls).answer c).2.released?)
    (hrest : d.rest =
      (Pacer.taken? (c, (((Pacer.forMarker marker).after d.calls).answer c).2)).toList ++ rest) :
    Kept marker { d.call c x with rest := rest } := by
  refine ⟨?pacer, ?taken, ?queued, sound_call (c := c) h.delivery hc⟩
  case pacer =>
    show x.pacer = some ((Pacer.forMarker marker).after (d.calls ++ [c]))
    rw [Pacer.after_concat, hp]
  case taken =>
    show d.lines = (Pacer.forMarker marker).accepted (d.calls ++ [c]) ++ rest
    rw [Pacer.accepted_concat, List.append_assoc, ← hrest, h.taken]
  case queued =>
    intro ha
    show d.queued ++ x.queuedSince d.session = (Pacer.forMarker marker).released (d.calls ++ [c])
    have hbefore : d.session.child.Accepts := by
      rw [← Child.accepts_give, ← hc]
      exact ha
    rcases queuedSince_of_give hc with ⟨-, hnew⟩ | ⟨hn, -, -⟩
    · rw [hnew, h.queued hbefore, Pacer.released_concat]
    · exact absurd hbefore hn

theorem Kept.finish (h : Kept marker d) (x : ExitInfo) (now : Nat) (f : FinishStep) :
    Kept marker { d with session := f.apply x now d.session, calls := d.calls ++ f.calls } := by
  cases f with
  | closePacer =>
    have hclose : ∀ y : Session, y = FinishStep.closePacer.apply x now d.session →
        Kept marker { d.call .close y with rest := d.rest } := by
      rintro y rfl
      refine h.call ?_ rfl rfl
      show d.session.pacer.map Pacer.close = _
      rw [h.pacer]
      rfl
    have hnone : (FinishStep.closePacer.apply x now d.session).queuedSince d.session = [] :=
      List.drop_length
    have hnext := hclose _ rfl
    rw [Dictation.call, hnone, List.append_nil] at hnext
    exact hnext
  | closeInput =>
    show Kept marker { d with session := d.session.closeInput, calls := d.calls ++ [] }
    rw [List.append_nil]
    refine ⟨h.pacer, h.taken, fun ha => ?_, h.delivery.of_step (.calls .close)⟩
    have hclosed : d.session.closeInput.child.input.isOpen = false := Bool.and_false _
    rw [ha.2] at hclosed
    cases hclosed
  | record | move | sealLog | releaseSlot | stamp | announce =>
    show Kept marker { d with session := _, calls := d.calls ++ [] }
    rw [List.append_nil]
    exact ⟨h.pacer, h.taken, h.queued, h.delivery⟩

theorem Kept.writer (h : Kept marker d) {w : Delivery} (hw : d.delivery.Works w) :
    Kept marker { d with
      session := d.session.withInput w.channel, held := w.held, events := w.events } := by
  have hsound := h.delivery.of_works hw
  have honward := Delivery.Step.onward (.works hw)
  refine ⟨h.pacer, h.taken, ?_, ?_⟩
  · intro ha
    refine h.queued ⟨ha.1, ?_⟩
    by_contra hopen
    have hclosed := honward.isOpen (Bool.eq_false_iff.2 hopen)
    exact Bool.false_ne_true (hclosed.symm.trans ha.2)
  · have hkept : w = { d.delivery with channel := w.channel, held := w.held, events := w.events } := by
      cases hw <;> rfl
    rw [hkept] at hsound
    exact hsound

theorem kept_of_step (h : Kept marker d) (hst : Step d e) : Kept marker e := by
  cases hst with
  | submit text hrest =>
    refine ⟨h.pacer, ?_, h.queued, h.delivery⟩
    show (d.texts ++ [text]).flatMap Session.commandLines = _ ++ Session.commandLines text
    have hlines := h.taken
    rw [hrest, List.append_nil] at hlines
    rw [List.flatMap_append, ← hlines]
    simp [lines]
  | hand line rest x hrest hs =>
    obtain ⟨q, out, hsend, hx, hc⟩ := Session.of_sendCommand h.pacer hs
    have hanswer : ((Pacer.forMarker marker).after d.calls).answer (.send line) = (q, .sent (.ok out)) := by
      simp [Pacer.answer, hsend]
    refine h.call ?_ ?_ ?_
    · rw [hanswer, hx]
    · rw [hanswer, hc]
      rfl
    · rw [hanswer, hrest]
      rfl
  | ingest chunk ho =>
    obtain ⟨hx, hc⟩ := Session.of_ingest ho h.pacer chunk
    have hnext : Kept marker { d.call (.observe chunk) (d.session.ingest chunk) with rest := d.rest } :=
      h.call hx hc rfl
    exact hnext
  | finish x now f => exact h.finish x now f
  | writer e hw => exact h.writer hw
  | beside x hm hp hi he =>
    refine ⟨hp.trans h.pacer, h.taken, ?_, ?_⟩
    · intro ha
      refine h.queued ⟨?_, ?_⟩
      · by_contra hexited
        have hnow := he (by simpa using hexited)
        rw [ha.1] at hnow
        cases hnow
      · rw [← hi]
        exact ha.2
    · show Delivery.Sound { d.delivery with channel := x.child.input }
      rw [hi]
      exact h.delivery

theorem kept_of_reaches {child : Child} (hi : child.input = {}) {settings : SessionSettings}
    {scratch : Option Host.Path} (h : (start child settings scratch).Reaches d) :
    Kept settings.promptMarker d := by
  induction h with
  | refl => exact kept_start hi settings scratch
  | tail _ hst ih => exact kept_of_step ih hst

/-! ## Without interruption -/

theorem sendCommands_alone {lines : List String} (hr : d.rest = lines) {x : Session}
    (h : d.session.sendCommands lines = (x, .ok ())) :
    ∃ e, d.Reaches e ∧ e.session = x ∧ e.texts = d.texts ∧ e.rest = [] := by
  induction lines generalizing d with
  | nil =>
    cases h
    exact ⟨d, .refl, rfl, rfl, hr⟩
  | cons line rest ih =>
    unfold Session.sendCommands at h
    split at h
    · rename_i y hy
      have hstep : d.Step { d.call (.send line) y with rest := rest } := .hand line rest y hr hy
      obtain ⟨e, he, hx, ht, hrest⟩ := ih (d := { d.call (.send line) y with rest := rest }) rfl h
      exact ⟨e, .head hstep he, hx, ht, hrest⟩
    · rename_i hn
      exact absurd h (hn x)

/-- A text that is taken is submitted and handed over line by line. -/
theorem submitInput_alone (hm : d.session.mode = .debugger) (hr : d.rest = []) {text : String}
    {x : Session} (h : d.session.submitInput text = (x, .ok ())) :
    ∃ e, d.Reaches e ∧ e.session = x ∧ e.texts = d.texts ++ [text] ∧ e.rest = [] := by
  rw [Session.submitInput, if_pos hm] at h
  have hstep : d.Step { d with texts := d.texts ++ [text], rest := Session.commandLines text } :=
    .submit text hr
  obtain ⟨e, he, hx, ht, hrest⟩ := sendCommands_alone (d := { d with
    texts := d.texts ++ [text], rest := Session.commandLines text }) rfl h
  exact ⟨e, .head hstep he, hx, ht, hrest⟩

/-! ## What is written -/

/-- What was released is what the commands of all lines begin with. -/
theorem Kept.released_prefix (h : Kept marker d) :
    (Pacer.forMarker marker).released d.calls <+: d.lines.map commandOf := by
  rw [h.taken, List.map_append]
  exact (Pacer.balanced marker d.calls).released.trans (List.prefix_append ..)

/-- A writer that has nothing to do has written all that was queued, as long as input is taken. -/
theorem Kept.whole (h : Kept marker d) (ha : d.session.child.Accepts)
    (hw : d.session.child.input.wish? = none) : takenOf d.events = d.queued.flatten := by
  rcases h.delivery.waits hw with ⟨-, hserved⟩ | hgone
  · rw [← accepted_delivery]
    exact hserved.taken
  · have hstands := h.delivery.stands
    have hserved : d.delivery.channel.served = true := (Bool.and_eq_true_iff.1 ha.2).1
    unfold Delivery.Stands at hstands
    rw [hgone, hserved] at hstands
    split at hstands
    all_goals simp at hstands

structure Dictated (marker : String) (d : Dictation) : Prop where
  /-- The pacer took the lines that are not blank, in their order, up to those still to be handed over. -/
  taken : d.lines = (Pacer.forMarker marker).accepted d.calls ++ d.rest
  /-- What was queued for the program is what was released, -/
  released : d.queued = (Pacer.forMarker marker).released d.calls
  /-- and that is the commands of the first lines, -/
  first : d.queued = (d.lines.take d.queued.length).map commandOf
  /-- and the others are queued in the pacer, unless that is closed. -/
  waiting : .close ∉ d.calls → ∃ p, d.session.pacer = some p ∧
    d.lines.map commandOf = d.queued ++ p.queue.map Pacer.commandBytes ++ d.rest.map commandOf
  /-- The bytes that were written are the front of them, -/
  written : takenOf d.events <+: ((d.lines.take d.queued.length).map commandOf).flatten
  /-- and all of them when the writer has nothing to do. -/
  whole : d.session.child.input.wish? = none →
    takenOf d.events = ((d.lines.take d.queued.length).map commandOf).flatten
  command : ∀ line ∈ d.lines, IsCommandOf line (commandOf line)
  /-- One prompt releases one command. -/
  paced : ∀ i j, (Pacer.forMarker marker).ReleasesAt d.calls i →
    (Pacer.forMarker marker).ReleasesAt d.calls j → i < j →
      ∃ k, i < k ∧ k ≤ j ∧ Pacer.PromptsAt (Bytes.ofString marker) d.calls k
  /-- A debugger on a terminal reads a command as one line more than it holds carriage returns. -/
  read : ∀ line ∈ d.lines, (∀ b ∈ commandOf line, Host.Terminal.Plain b) →
    ∀ t : Host.Terminal, t.modes = {} → t.verbatim = false →
      ∃ bs, (t.type (commandOf line)).1.input = t.input ++ bs ∧
        bs.count Bytes.newline = 1 + (commandOf line).count 13

/-- Whatever is submitted, whatever the debugger prints and whenever, and however the writer comes along:
as long as the program takes input, it is given the commands of the first lines that are not blank. -/
theorem dictated {child : Child} (hi : child.input = {}) {settings : SessionSettings}
    {scratch : Option Host.Path} (h : (start child settings scratch).Reaches d)
    (ha : d.session.child.Accepts) : Dictated settings.promptMarker d := by
  have hk := kept_of_reaches hi h
  have hqueued := hk.queued ha
  have hfirst : d.queued = (d.lines.take d.queued.length).map commandOf := by
    have hpre := hk.released_prefix
    rw [← hqueued] at hpre
    rw [List.map_take]
    exact List.prefix_iff_eq_take.1 hpre
  have hcommand : ∀ line ∈ d.lines, IsCommandOf line (commandOf line) := by
    intro line hline
    obtain ⟨text, -, hmem⟩ := List.mem_flatMap.1 hline
    exact isCommandOf_commandOf hmem
  refine ⟨hk.taken, hqueued, hfirst, ?waiting, ?written, ?whole, hcommand,
    (Pacer.spaced settings.promptMarker d.calls).between, ?read⟩
  case waiting =>
    intro ho
    refine ⟨_, hk.pacer, ?_⟩
    rw [hk.taken, List.map_append, (Pacer.balanced settings.promptMarker d.calls).order ho, hqueued]
  case written =>
    rw [← hfirst, ← accepted_delivery]
    exact hk.delivery.front
  case whole =>
    intro hw
    rw [← hfirst]
    exact hk.whole ha hw
  case read =>
    intro line hline hplain t hm hv
    refine ⟨_, Host.Terminal.input_type hm hv hplain, ?_⟩
    rw [Host.Terminal.count_map_asRead, (hcommand line hline).single]

/-- The terminal of a debugger that prompts with a bracket. -/
def bracket : Dictation :=
  start { process := 1, wiring := .terminal, outlet := 1, inlet := 1, chunkSize := 4096 }
    { (default : SessionSettings) with promptMarker := "> " } none

/-- Of two lines, with a blank one between them, one is released to the prompt. The writer has written two
bytes of it. -/
theorem dictated_blank_between : ∃ d, bracket.Reaches d ∧ d.session.child.Accepts ∧
    Dictated "> " d ∧ d.texts = ["run\n \r\nnext"] ∧ d.queued = [Bytes.ofString "run\n"] ∧
      takenOf d.events = Bytes.ofString "ru" := by
  have r : bracket.Reaches bracket := .refl
  have r := r.tail (.submit "run\n \r\nnext" rfl)
  have r := r.tail (.hand "run" ["next"] _ (by decide) rfl)
  have r := r.tail (.ingest [62, 32] rfl)
  have r := r.tail (.hand "next" [] _ rfl rfl)
  have r := r.tail (.writer _ (.step .take _ rfl nofun))
  have r := r.tail (.writer _ (.step (.took 2) _ rfl nofun))
  exact ⟨_, r, ⟨rfl, rfl⟩, dictated rfl r ⟨rfl, rfl⟩, rfl, by decide, by decide⟩

/-- A line with a carriage return in it is one command to the pacer, and written as one. The debugger has
prompted once, and reads two lines. -/
theorem return_feeds_two_lines : ∃ d, bracket.Reaches d ∧ d.session.child.Accepts ∧
    d.texts = ["one\rtwo"] ∧ Pacer.output d.calls = Bytes.ofString "> " ∧
      takenOf d.events = Bytes.ofString "one\rtwo\n" ∧
        (({} : Host.Terminal).type (takenOf d.events)).1.input = Bytes.ofString "one\ntwo\n" := by
  have r : bracket.Reaches bracket := .refl
  have r := r.tail (.submit "one\rtwo" rfl)
  have r := r.tail (.hand "one\rtwo" [] _ (by decide) rfl)
  have r := r.tail (.ingest [62, 32] rfl)
  have r := r.tail (.writer _ (.step .take _ rfl nofun))
  have r := r.tail (.writer _ (.step (.took 8) _ rfl nofun))
  exact ⟨_, r, ⟨rfl, rfl⟩, rfl, by decide, by decide, by decide⟩

end Dictation

end SessionHost
