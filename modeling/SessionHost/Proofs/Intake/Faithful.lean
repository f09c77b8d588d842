import SessionHost.Proofs.Intake.Step
import SessionHost.Proofs.Scene.Holding
import SessionHost.Proofs.Scene.NaturalExit
import SessionHost.Proofs.Scene.PolledText

/-!
# The log is what the program wrote

Between the program and the log, output is in the reader's hand or in the queue, and never in two places
or in none. So the log is the beginning of what was read, and how much of it depends on why the pump ended
the session: all of it if nothing follows in the stream, and what had been queued at the last look if
nothing had come for a while.

* `Untouched`: what happens beside the pump's turns to the queue does not concern the intake.
* `Sound` is what holds at every time; its heart is `Standing`, what the pump knows at each
  stand in its loop.
* `Sound.canFinish`: the pump can always come to the end of the session.
* `output_captured`: what the log holds, at every time and for every end.
-/
namespace SessionHost

/-! ## What is queued -/

namespace OutputStream

def chunks (s : OutputStream) : List Bytes :=
  s.queue.filterMap fun
    | .chunk bs => some bs
    | .failed _ => none

/-- Nothing is queued and nothing follows. -/
def Drained (s : OutputStream) : Prop := s.queue = [] ∧ s.ended = true

/-- A failure is the last thing that was queued, and the reader has left behind it. -/
def failsLast (ended : Bool) : List Arrival → Prop
  | [] => True
  | .chunk _ :: queue => failsLast ended queue
  | .failed _ :: queue => queue = [] ∧ ended = true

/-- The queue of a reader that goes on until a failure. -/
def FailsLast (s : OutputStream) : Prop := failsLast s.ended s.queue

@[simp] theorem chunks_arrive_chunk (s : OutputStream) (bs : Bytes) :
    (s.arrive (.chunk bs)).chunks = s.chunks ++ [bs] := by
  simp [chunks, arrive]

@[simp] theorem chunks_finish (s : OutputStream) : s.finish.chunks = s.chunks := rfl

@[simp] theorem chunks_heed (s : OutputStream) (wiring : Wiring) (r : ReadReply) :
    (s.heed wiring r).chunks = s.chunks := by
  unfold heed
  cases r with
  | nothing | interrupted => rfl
  | hungUp => dsimp only; split <;> simp [chunks, arrive, finish]
  | failed => simp [chunks, arrive, finish]

theorem Drained.chunks {s : OutputStream} (h : s.Drained) : s.chunks = [] := by
  rw [OutputStream.chunks, h.1]
  rfl

theorem read?_cases (s : OutputStream) :
    (s.queue = [] ∧ s.ended = false ∧ s.read? = none) ∨
      (s.Drained ∧ s.read? = some (.ok .closed, s)) ∨
      (∃ bs q, s.queue = .chunk bs :: q ∧ s.read? = some (.ok (.data bs), { s with queue := q })) ∨
      ∃ reason q, s.queue = .failed reason :: q ∧
        s.read? = some (.error reason, { s with queue := q }) := by
  unfold read?
  cases hq : s.queue with
  | nil =>
    cases he : s.ended with
    | false => exact Or.inl ⟨rfl, rfl, rfl⟩
    | true => exact Or.inr (Or.inl ⟨⟨hq, he⟩, rfl⟩)
  | cons a q =>
    cases a with
    | chunk bs => exact Or.inr (Or.inr (Or.inl ⟨bs, q, rfl, rfl⟩))
    | failed reason => exact Or.inr (Or.inr (Or.inr ⟨reason, q, rfl, rfl⟩))

variable {s rest : OutputStream}

theorem of_read_data {bs : Bytes} (h : s.read? = some (.ok (.data bs), rest)) :
    s.chunks = bs :: rest.chunks ∧ rest.ended = s.ended ∧ (s.FailsLast → rest.FailsLast) := by
  rcases s.read?_cases with ⟨-, -, hn⟩ | ⟨-, hc⟩ | ⟨bs', q, hq, hd⟩ | ⟨reason, q, -, hf⟩
  · rw [hn] at h; cases h
  · rw [hc] at h; cases h
  · rw [hd] at h
    cases h
    refine ⟨by simp [chunks, hq], rfl, fun hl => ?_⟩
    rw [FailsLast, hq] at hl
    exact hl
  · rw [hf] at h; cases h

theorem of_read_closed (h : s.read? = some (.ok .closed, rest)) : s.Drained ∧ rest = s := by
  rcases s.read?_cases with ⟨-, -, hn⟩ | ⟨hdrained, hc⟩ | ⟨bs', q, -, hd⟩ | ⟨reason, q, -, hf⟩
  · rw [hn] at h; cases h
  · rw [hc] at h
    cases h
    exact ⟨hdrained, rfl⟩
  · rw [hd] at h; cases h
  · rw [hf] at h; cases h

/-- Nothing is lost in a queue that ends with a failure. -/
theorem of_read_failed {reason : String} (hl : s.FailsLast)
    (h : s.read? = some (.error reason, rest)) :
    s.chunks = [] ∧ rest.Drained ∧ rest.ended = s.ended := by
  rcases s.read?_cases with ⟨-, -, hn⟩ | ⟨-, hc⟩ | ⟨bs', q, -, hd⟩ | ⟨reason', q, hq, hf⟩
  · rw [hn] at h; cases h
  · rw [hc] at h; cases h
  · rw [hd] at h; cases h
  · rw [FailsLast, hq] at hl
    obtain ⟨rfl, he⟩ := hl
    rw [hf] at h
    cases h
    refine ⟨?_, ⟨rfl, he⟩, rfl⟩
    rw [chunks, hq]
    rfl

theorem of_read_none (h : s.read? = none) : s.chunks = [] := by
  rcases s.read?_cases with ⟨hq, -, -⟩ | ⟨-, hc⟩ | ⟨bs', q, -, hd⟩ | ⟨reason', q, -, hf⟩
  · rw [chunks, hq]; rfl
  · rw [hc] at h; cases h
  · rw [hd] at h; cases h
  · rw [hf] at h; cases h

theorem Drained.failsLast (h : s.Drained) : s.FailsLast := by
  rw [FailsLast, h.1]
  trivial

theorem failsLast_append {a : Arrival} {ended : Bool} {q : List Arrival} (h : failsLast false q)
    (ha : failsLast ended [a]) : failsLast ended (q ++ [a]) := by
  induction q with
  | nil => exact ha
  | cons b q ih =>
    cases b with
    | chunk bs => exact ih h
    | failed reason => cases h.2

theorem failsLast_finish {ended : Bool} {q : List Arrival} (h : failsLast ended q) :
    failsLast true q := by
  induction q with
  | nil => trivial
  | cons a q ih =>
    cases a with
    | chunk bs => exact ih h
    | failed reason => exact ⟨h.1, rfl⟩

theorem FailsLast.arrive_chunk (h : s.FailsLast) (ho : s.ended = false) (bs : Bytes) :
    (s.arrive (.chunk bs)).FailsLast := by
  rw [FailsLast, ho] at h
  rw [FailsLast, arrive, ho]
  exact failsLast_append h trivial

theorem FailsLast.finish (h : s.FailsLast) : s.finish.FailsLast := failsLast_finish h

theorem FailsLast.heed (h : s.FailsLast) (ho : s.ended = false) (wiring : Wiring) (r : ReadReply) :
    (s.heed wiring r).FailsLast := by
  have fails : ∀ reason, (s.arrive (.failed reason)).finish.FailsLast := fun reason =>
    failsLast_append (by rw [FailsLast, ho] at h; exact h) ⟨rfl, rfl⟩
  cases r with
  | nothing => exact h.finish
  | interrupted => exact h
  | failed reason => exact fails reason
  | hungUp reason =>
    unfold OutputStream.heed
    dsimp only
    split
    · exact h.finish
    · exact fails reason

end OutputStream

/-! ## What does not concern the intake -/

namespace Scene

variable {s t : Scene}

/-- The pump has not begun to end the session. -/
def Unfinished (s : Scene) : Prop := ∀ e steps, s.pump ≠ .finishing e steps

structure Untouched (s t : Scene) : Prop where
  arrived : t.arrived = s.arrived
  stream : t.session.child.stream = s.session.child.stream
  reading : s.pump = .reading → t.pump = .reading
  finishing : ∀ e steps, s.pump = .finishing e steps → ∃ steps', t.pump = .finishing e steps'
  unfinished : s.Unfinished → t.Unfinished

theorem untouched_of_pump_eq (ha : t.arrived = s.arrived)
    (hs : t.session.child.stream = s.session.child.stream) (hp : t.pump = s.pump) :
    Untouched s t where
  arrived := ha
  stream := hs
  reading h := hp.trans h
  finishing _ steps h := ⟨steps, hp.trans h⟩
  unfinished h e steps ht := h e steps (hp.symm.trans ht)

theorem untouched_of_working (ha : t.arrived = s.arrived)
    (hs : t.session.child.stream = s.session.child.stream) {p : PumpTask} (hp : s.pump = p)
    (hbusy : p ≠ .reading) (hn : ∀ e steps, p ≠ .finishing e steps)
    (ht : ∀ e steps, t.pump ≠ .finishing e steps) : Untouched s t where
  arrived := ha
  stream := hs
  reading h := absurd (hp.symm.trans h) hbusy
  finishing e steps h := absurd (hp.symm.trans h) (hn e steps)
  unfinished _ := ht

theorem StepBetween.untouched (h : StepBetween s t) : Untouched s t := by
  cases h with
  | read h => cases h <;> exact untouched_of_pump_eq rfl rfl rfl
  | kill h => cases h <;> exact untouched_of_pump_eq rfl rfl rfl
  | tell h => cases h <;> exact untouched_of_pump_eq rfl rfl rfl
  | world h => cases h <;> exact untouched_of_pump_eq rfl rfl rfl
  | send h =>
    cases h with
    | exited i paced | closed i paced | move i paced =>
      cases paced <;> exact untouched_of_pump_eq rfl rfl rfl
    | _ => exact untouched_of_pump_eq rfl rfl rfl
  | pump busy h =>
    cases h with
    | arrive _ hp | stall hp | beginFinish _ hp => exact absurd hp busy
    | mark _ hp | plain _ hp => exact untouched_of_working rfl rfl hp nofun nofun nofun
    | observe _ _ _ hp | dispatch _ _ _ _ hp =>
      exact untouched_of_working rfl rfl hp nofun nofun nofun
    | offer _ _ hp | lost _ _ hp | push _ _ _ hp | closed _ _ hp =>
      exact untouched_of_working rfl rfl hp nofun nofun nofun
    | stalled hp | overtaken hp => exact untouched_of_working rfl rfl hp nofun nofun nofun
    | move _ paced hp => cases paced <;> exact untouched_of_working rfl rfl hp nofun nofun nofun
    | finish e f rest _ hp =>
      refine ⟨rfl, by cases f <;> rfl, fun h => absurd h busy, ?_, fun h => absurd hp (h _ _)⟩
      intro e' steps h
      rw [hp] at h
      cases h
      exact ⟨rest, rfl⟩

theorem Untouched.trans {u : Scene} (h : Untouched s t) (h' : Untouched t u) : Untouched s u where
  arrived := h'.arrived.trans h.arrived
  stream := h'.stream.trans h.stream
  reading hs := h'.reading (h.reading hs)
  finishing e steps hs := by
    obtain ⟨steps', ht⟩ := h.finishing e steps hs
    exact h'.finishing e steps' ht
  unfinished hs := h'.unfinished (h.unfinished hs)

theorem Between.untouched (h : Between s t) : Untouched s t := by
  induction h with
  | refl => exact untouched_of_pump_eq rfl rfl rfl
  | tail _ hst ih => exact ih.trans hst.untouched

structure Steady (s : Scene) : Prop where
  captured : Captured s
  agreed : Agreed s
  held : Held s

theorem Steady.of_step (h : Steady s) (hst : Step s t) : Steady t :=
  ⟨h.captured.of_step hst, h.agreed.of_step hst, h.held.of_step hst⟩

theorem steady_start (mode : Mode) (child : Child) (settings : SessionSettings)
    (scratch : Option Host.Path) : Steady (start mode child settings scratch) :=
  ⟨⟨rfl, fun _ => rfl⟩, agreed_start .., held_start ..⟩

end Scene

/-! ## The invariant -/

namespace Intake

variable {i j : Intake}

theorem Steady.withStream (h : i.scene.Steady) (s : OutputStream) : (i.withStream s).scene.Steady :=
  ⟨⟨h.captured.bytes, h.captured.pumping⟩,
    ⟨h.agreed.begun, h.agreed.fits, h.agreed.done, h.agreed.passed, h.agreed.recorder,
      h.agreed.unrecorded, h.agreed.knows, h.agreed.reports⟩,
    ⟨h.held.caller, h.held.pump⟩⟩

/-- What the pump knows at a stand in its loop. -/
def Standing (i : Intake) : Stand → Prop
  | .following => i.scene.Unfinished ∧ i.finishes = [] ∧ i.atExit = none
  | .awaiting => i.scene.pump = .reading ∧ i.stream.Drained ∧ i.finishes = [] ∧ i.atExit = none
  | .lingering _ => i.scene.Unfinished ∧ i.finishes = [] ∧ ∃ queued, i.atExit = some queued
  | .ending c => (∃ e steps, i.scene.pump = .finishing e steps ∧ i.finishes = [e]) ∧
      (c = .silent → i.scene.arrived = i.mark) ∧ (c ≠ .silent → i.stream.Drained) ∧
      ∀ queued, i.atExit = some queued → queued <+: i.scene.arrived

structure Sound (i : Intake) : Prop where
  steady : i.scene.Steady
  /-- What was queued has arrived or is still queued. -/
  account : i.scene.arrived ++ i.stream.chunks = i.sent
  /-- What was read was queued or is in the reader's hand, unless the reader has left with it. -/
  whole : i.heard = i.sent ++ i.hand.toList ∨
    i.sent <+: i.heard ∧ i.stream.ended = true ∧ i.stand = .ending .silent
  reader : i.stream.ended = true → i.hand = none
  failsLast : i.stream.FailsLast
  standing : i.Standing i.stand
  /-- A pump that has just looked has taken in all that had been queued. -/
  looking : i.looked = true → i.scene.pump = .reading ∧ i.stand.reads = true ∧
    i.scene.arrived = i.mark ∧ ∀ queued, i.atExit = some queued → queued <+: i.mark
  marked : i.mark <+: i.sent
  exit : ∀ queued, i.atExit = some queued → queued <+: i.sent

theorem sound_start (mode : Mode) {child : Child} (settings : SessionSettings)
    (scratch : Option Host.Path) (h : child.stream = {}) :
    Sound (start mode child settings scratch) := by
  have hstream : (start mode child settings scratch).stream = {} := h
  refine ⟨Scene.steady_start .., ?_, Or.inl rfl, fun _ => rfl, ?_, ⟨nofun, rfl, rfl⟩, nofun, ?_, nofun⟩
  · rw [hstream]
    rfl
  · rw [hstream]
    trivial
  · exact List.prefix_refl _

theorem Standing.of_untouched {st : Stand} {t : Scene} (h : i.Standing st)
    (hu : i.scene.Untouched t) : Standing { i with scene := t } st := by
  have hstream : t.session.child.stream = i.stream := hu.stream
  cases st with
  | following => exact ⟨hu.unfinished h.1, h.2⟩
  | awaiting =>
    refine ⟨hu.reading h.1, ?_, h.2.2⟩
    change t.session.child.stream.Drained
    rw [hstream]
    exact h.2.1
  | lingering e => exact ⟨hu.unfinished h.1, h.2⟩
  | ending c =>
    obtain ⟨⟨e, steps, hp, hfinishes⟩, hsilent, hdrained, hexit⟩ := h
    obtain ⟨steps', hp'⟩ := hu.finishing e steps hp
    refine ⟨⟨e, steps', hp', hfinishes⟩, fun hc => hu.arrived.trans (hsilent hc), fun hc => ?_, ?_⟩
    · change t.session.child.stream.Drained
      rw [hstream]
      exact hdrained hc
    · change ∀ queued, i.atExit = some queued → queued <+: t.arrived
      rw [hu.arrived]
      exact hexit

theorem Sound.beside (h : Sound i) {t : Scene} (hst : i.scene.StepBetween t) :
    Sound { i with scene := t } := by
  have hu := hst.untouched
  have hstream : t.session.child.stream = i.stream := hu.stream
  refine ⟨h.steady.of_step hst.step, ?account, ?whole, ?reader, ?failsLast,
    h.standing.of_untouched hu, ?looking, h.marked, h.exit⟩
  case account =>
    change t.arrived ++ t.session.child.stream.chunks = i.sent
    rw [hu.arrived, hstream]
    exact h.account
  case whole =>
    refine h.whole.imp id fun hleft => ⟨hleft.1, ?_, hleft.2.2⟩
    exact (congrArg OutputStream.ended hstream).trans hleft.2.1
  case reader => exact fun he => h.reader ((congrArg OutputStream.ended hstream).symm.trans he)
  case failsLast =>
    change t.session.child.stream.FailsLast
    rw [hstream]
    exact h.failsLast
  case looking =>
    intro hl
    obtain ⟨hp, hs, harrived, hexit⟩ := h.looking hl
    exact ⟨hu.reading hp, hs, hu.arrived.trans harrived, hexit⟩

/-- The reader has left only where it has nothing in its hand. -/
theorem Sound.open_of_hand (h : Sound i) {bs : Bytes} (hh : i.hand = some bs) :
    i.stream.ended = false := by
  rw [Bool.eq_false_iff]
  intro he
  rw [h.reader he] at hh
  cases hh

theorem Sound.whole_of_open (h : Sound i) (ho : i.stream.ended = false) :
    i.heard = i.sent ++ i.hand.toList := by
  refine h.whole.resolve_right fun hleft => ?_
  rw [ho] at hleft
  exact nomatch hleft.2.1

/-- While the reader goes on, the pump knows nothing of the end of the stream. -/
theorem Sound.standing_of_open (h : Sound i) (ho : i.stream.ended = false) (s : OutputStream) :
    Standing (i.withStream s) i.stand := by
  have undrained : ¬ i.stream.Drained := by
    intro hd
    rw [hd.2] at ho
    cases ho
  have hs := h.standing
  cases hst : i.stand with
  | following | lingering =>
    rw [hst] at hs
    exact hs
  | awaiting =>
    rw [hst] at hs
    exact absurd hs.2.1 undrained
  | ending c =>
    rw [hst] at hs
    obtain ⟨hfinishing, hsilent, hdrained, hexit⟩ := hs
    exact ⟨hfinishing, hsilent, fun hc => absurd (hdrained hc) undrained, hexit⟩

theorem Sound.hear (h : Sound i) {bs : Bytes} (hh : i.hand = none) (ho : i.stream.ended = false) :
    Sound { i with hand := some bs, heard := i.heard ++ [bs] } where
  steady := h.steady
  account := h.account
  whole := by
    have hwhole := h.whole_of_open ho
    rw [hh, Option.toList_none, List.append_nil] at hwhole
    exact Or.inl (congrArg (· ++ [bs]) hwhole)
  reader he := by
    rw [show i.stream.ended = true from he] at ho
    cases ho
  failsLast := h.failsLast
  standing := h.standing_of_open ho i.stream
  looking := h.looking
  marked := h.marked
  exit := h.exit

theorem Sound.heed (h : Sound i) (r : ReadReply) (hh : i.hand = none)
    (ho : i.stream.ended = false) :
    Sound (i.withStream (i.stream.heed i.scene.session.child.wiring r)) where
  steady := Steady.withStream h.steady _
  account := by
    refine Eq.trans ?_ h.account
    exact congrArg (i.scene.arrived ++ ·) (OutputStream.chunks_heed ..)
  whole := Or.inl (h.whole_of_open ho)
  reader _ := hh
  failsLast := h.failsLast.heed ho _ r
  standing := h.standing_of_open ho _
  looking := h.looking
  marked := h.marked
  exit := h.exit

theorem Sound.queue (h : Sound i) {bs : Bytes} (hh : i.hand = some bs) :
    Sound { i.withStream (i.stream.arrive (.chunk bs)) with
      hand := none, sent := i.sent ++ [bs] } where
  steady := Steady.withStream h.steady _
  account := by
    change i.scene.arrived ++ (i.stream.arrive (.chunk bs)).chunks = i.sent ++ [bs]
    rw [OutputStream.chunks_arrive_chunk, ← List.append_assoc, h.account]
  whole := by
    have hwhole := h.whole_of_open (h.open_of_hand hh)
    rw [hh] at hwhole
    exact Or.inl (hwhole.trans (List.append_nil _).symm)
  reader _ := rfl
  failsLast := h.failsLast.arrive_chunk (h.open_of_hand hh) bs
  standing := h.standing_of_open (h.open_of_hand hh) _
  looking := h.looking
  marked := h.marked.trans (List.prefix_append ..)
  exit queued hq := (h.exit queued hq).trans (List.prefix_append ..)

/-- A reader that cannot hand on what it has read finds that the pump has gone, which had waited in
vain. -/
theorem Sound.leave (h : Sound i) {bs : Bytes} {e : ExitInfo} (hh : i.hand = some bs)
    (hp : i.scene.pump = .finishing e []) :
    Sound { i.withStream i.stream.finish with hand := none } where
  steady := Steady.withStream h.steady _
  account := h.account
  whole := by
    have ho := h.open_of_hand hh
    have hs := h.standing
    have hwhole := h.whole_of_open ho
    rw [hh] at hwhole
    refine Or.inr ⟨⟨[bs], hwhole.symm⟩, rfl, ?_⟩
    change i.stand = .ending .silent
    cases hst : i.stand with
    | following | lingering =>
      rw [hst] at hs
      exact absurd hp (hs.1 e [])
    | awaiting =>
      rw [hst] at hs
      rw [hs.1] at hp
      cases hp
    | ending c =>
      rw [hst] at hs
      by_contra hne
      have hd := hs.2.2.1 fun hc => hne (by rw [hc])
      rw [hd.2] at ho
      cases ho
  reader _ := rfl
  failsLast := h.failsLast.finish
  standing := h.standing_of_open (h.open_of_hand hh) _
  looking := h.looking
  marked := h.marked
  exit := h.exit

/-! ### The pump -/

theorem Sound.not_ending_of_reads (h : Sound i) (hs : i.stand.reads = true) :
    i.heard = i.sent ++ i.hand.toList := by
  refine h.whole.resolve_right fun hleft => ?_
  rw [hleft.2.2] at hs
  cases hs

/-- A pump that takes output has not begun to end the session. -/
theorem Sound.finishes_of_reads (h : Sound i) (hs : i.stand.reads = true) :
    i.scene.Unfinished ∧ i.finishes = [] := by
  have hst := h.standing
  cases hi : i.stand with
  | following | lingering =>
    rw [hi] at hst
    exact ⟨hst.1, hst.2.1⟩
  | awaiting | ending =>
    rw [hi] at hs
    cases hs

theorem Sound.take (h : Sound i) {chunk : Bytes} {rest : OutputStream} (hp : i.Looks)
    (hr : i.stream.read? = some (.ok (.data chunk), rest)) :
    Sound ((i.withStream rest).takeIn chunk) := by
  obtain ⟨hchunks, hended, hfails⟩ := OutputStream.of_read_data hr
  have hsteady := (Steady.withStream h.steady rest).of_step (.pump (.arrive chunk hp.1))
  refine ⟨hsteady, ?account, ?whole, fun he => h.reader (hended.symm.trans he), hfails h.failsLast,
    ?standing, ?looking, h.marked, h.exit⟩
  case account =>
    change i.scene.arrived ++ [chunk] ++ rest.chunks = i.sent
    rw [List.append_assoc, List.singleton_append, ← hchunks]
    exact h.account
  case whole => exact Or.inl (h.not_ending_of_reads hp.2.1)
  case standing =>
    have hs := h.standing
    change Standing ((i.withStream rest).takeIn chunk) i.stand
    cases hst : i.stand with
    | following | lingering =>
      rw [hst] at hs
      exact ⟨nofun, hs.2⟩
    | awaiting | ending =>
      have hreads := hp.2.1
      rw [hst] at hreads
      cases hreads
  case looking =>
    intro hl
    have hlooked : i.looked = true := hl
    rw [hp.2.2] at hlooked
    cases hlooked

theorem Sound.finish_drained (h : Sound i) (rest : OutputStream) (hp : i.scene.pump = .reading)
    (hfinishes : i.finishes = []) (hwhole : i.heard = i.sent ++ i.hand.toList)
    (hreader : rest.ended = true → i.hand = none) (hd : rest.Drained) (hchunks : i.stream.chunks = [])
    (e : ExitInfo) {c : Cause} (hc : c ≠ .silent) : Sound ((i.withStream rest).finish e c) where
  steady := (Steady.withStream h.steady rest).of_step (.pump (.beginFinish e hp))
  account := by
    change i.scene.arrived ++ rest.chunks = i.sent
    rw [hd.chunks, ← hchunks]
    exact h.account
  whole := Or.inl hwhole
  reader := hreader
  failsLast := hd.failsLast
  standing := by
    refine ⟨⟨e, _, rfl, by change i.finishes ++ [e] = [e]; rw [hfinishes]; rfl⟩,
      fun hs => absurd hs hc, fun _ => hd, fun queued hq => ?_⟩
    have harrived : i.scene.arrived = i.sent := by
      rw [← h.account, hchunks, List.append_nil]
    change queued <+: i.scene.arrived
    rw [harrived]
    exact h.exit queued hq
  looking := nofun
  marked := h.marked
  exit := h.exit

/-- What a pump that ends the session behind a drained stream has come to know by its last look. -/
theorem Sound.finish_looked (h : Sound i) {rest : OutputStream} (hp : i.Looks) (hd : rest.Drained)
    (hended : rest.ended = i.stream.ended) (hchunks : i.stream.chunks = []) (e : ExitInfo) {c : Cause}
    (hc : c ≠ .silent) : Sound ((i.withStream rest).finish e c) :=
  h.finish_drained rest hp.1 (h.finishes_of_reads hp.2.1).2 (h.not_ending_of_reads hp.2.1)
    (fun he => h.reader (hended.symm.trans he)) hd hchunks e hc

theorem Sound.close (h : Sound i) {rest : OutputStream} (hp : i.Looks) (hs : i.stand = .following)
    (hr : i.stream.read? = some (.ok .closed, rest)) :
    Sound { i.withStream rest with stand := .awaiting } := by
  obtain ⟨hd, rfl⟩ := OutputStream.of_read_closed hr
  have hst := h.standing
  rw [hs] at hst
  refine ⟨Steady.withStream h.steady _, h.account, Or.inl (h.not_ending_of_reads hp.2.1), h.reader,
    h.failsLast, ⟨hp.1, hd, hst.2⟩, fun hl => ?_, h.marked, h.exit⟩
  have hlooked : i.looked = true := hl
  rw [hp.2.2] at hlooked
  cases hlooked

theorem Sound.closeLate (h : Sound i) {rest : OutputStream} (hp : i.Looks)
    (hr : i.stream.read? = some (.ok .closed, rest)) (e : ExitInfo) :
    Sound ((i.withStream rest).finish e .closed) := by
  obtain ⟨hd, rfl⟩ := OutputStream.of_read_closed hr
  exact h.finish_looked hp hd rfl hd.chunks e nofun

theorem Sound.fail (h : Sound i) {reason : String} {rest : OutputStream} (hp : i.Looks)
    (hr : i.stream.read? = some (.error reason, rest)) (e : ExitInfo) :
    Sound ((i.withStream rest).finish e .failed) := by
  obtain ⟨hchunks, hd, hended⟩ := OutputStream.of_read_failed h.failsLast hr
  exact h.finish_looked hp hd hended hchunks e nofun

theorem Sound.look (h : Sound i) (hp : i.Looks) (hr : i.stream.read? = none) :
    Sound { i with looked := true, mark := i.sent } := by
  have harrived : i.scene.arrived = i.sent := by
    rw [← h.account, OutputStream.of_read_none hr, List.append_nil]
  refine ⟨h.steady, h.account, h.whole, h.reader, h.failsLast, ?standing, fun _ => ?_,
    List.prefix_refl _, h.exit⟩
  case standing =>
    have hst := h.standing
    change Standing { i with looked := true, mark := i.sent } i.stand
    cases hs : i.stand with
    | following | lingering =>
      rw [hs] at hst
      exact hst
    | awaiting | ending =>
      have hreads := hp.2.1
      rw [hs] at hreads
      cases hreads
  exact ⟨hp.1, hp.2.1, harrived, h.exit⟩

theorem Sound.wait (h : Sound i) : Sound { i with looked := false } :=
  ⟨h.steady, h.account, h.whole, h.reader, h.failsLast, by
    have hst := h.standing
    change Standing { i with looked := false } i.stand
    cases hs : i.stand <;> rw [hs] at hst <;> exact hst, nofun, h.marked, h.exit⟩

theorem Sound.stall (h : Sound i) (hl : i.looked = true) (hs : i.stand = .following)
    (hm : i.scene.session.mode = .interactive) (ho : i.scene.session.outputSinceInput = true) :
    Sound { i with scene := { i.scene with pump := .stalling }, looked := false } := by
  have hp := (h.looking hl).1
  have hst := h.standing
  rw [hs] at hst
  refine ⟨h.steady.of_step (.pump (.stall hp hm ho)), h.account, h.whole, h.reader, h.failsLast,
    ?_, nofun, h.marked, h.exit⟩
  change Standing _ i.stand
  rw [hs]
  exact ⟨nofun, hst.2⟩

theorem Sound.seeExit (h : Sound i) (hl : i.looked = true) (hs : i.stand = .following)
    (e : ExitInfo) :
    Sound { i with stand := .lingering e, looked := false, atExit := some i.sent } := by
  have hst := h.standing
  rw [hs] at hst
  refine ⟨h.steady, h.account, Or.inl (h.not_ending_of_reads (h.looking hl).2.1), h.reader,
    h.failsLast, ⟨hst.1, hst.2.1, _, rfl⟩, nofun, h.marked, fun queued hq => ?_⟩
  cases hq
  exact List.prefix_refl _

theorem Sound.silent (h : Sound i) (hl : i.looked = true) (e : ExitInfo) :
    Sound (i.finish e .silent) := by
  obtain ⟨hp, hreads, harrived, hexit⟩ := h.looking hl
  refine ⟨h.steady.of_step (.pump (.beginFinish e hp)), h.account,
    Or.inl (h.not_ending_of_reads hreads), h.reader, h.failsLast, ?standing, nofun, h.marked, h.exit⟩
  refine ⟨⟨e, _, rfl, ?_⟩, fun _ => harrived, fun hc => absurd rfl hc, fun queued hq => ?_⟩
  · change i.finishes ++ [e] = [e]
    rw [(h.finishes_of_reads hreads).2]
    rfl
  · change queued <+: i.scene.arrived
    rw [harrived]
    exact hexit queued hq

theorem Sound.exitKnown (h : Sound i) (hs : i.stand = .awaiting) (e : ExitInfo) :
    Sound (i.finish e .closed) := by
  have hst := h.standing
  rw [hs] at hst
  have hwhole : i.heard = i.sent ++ i.hand.toList := by
    refine h.whole.resolve_right fun hleft => ?_
    rw [hs] at hleft
    exact nomatch hleft.2.2
  exact h.finish_drained i.stream hst.1 hst.2.2.1 hwhole h.reader hst.2.1 hst.2.1.chunks e
    nofun

theorem Sound.of_step (h : Sound i) (hst : Step i j) : Sound j := by
  cases hst with
  | beside t hst => exact h.beside hst
  | hear bs hh ho => exact h.hear hh ho
  | heed r hh ho => exact h.heed r hh ho
  | queue bs hh => exact h.queue hh
  | leave bs e hh hp => exact h.leave hh hp
  | take chunk rest hp hr => exact h.take hp hr
  | close rest hp hs hr => exact h.close hp hs hr
  | closeLate e rest hp hs hr => exact h.closeLate hp hr e
  | fail reason rest hp hs hr => exact h.fail hp hr _
  | failLate e reason rest hp hs hr => exact h.fail hp hr e
  | look hp hr => exact h.look hp hr
  | wait hl => exact h.wait
  | stall hl hs hm ho => exact h.stall hl hs hm ho
  | seeExit e hl hs he => exact h.seeExit hl hs e
  | silent e hl hs => exact h.silent hl e
  | exitKnown e hs he => exact h.exitKnown hs e

theorem Sound.of_reaches (h : Sound i) (hr : i.Reaches j) : Sound j :=
  Reaches.keeps (fun _ _ hs hst => Sound.of_step hs hst) hr h

/-! ## Behind the end nothing arrives -/

theorem Sound.sealed_of_step (h : Sound i) {c : Cause} (hc : i.stand = .ending c)
    (hst : Step i j) : j.stand = .ending c ∧ j.scene.arrived = i.scene.arrived ∧
      j.finishes = i.finishes := by
  have unread : i.stand.reads = true → False := by
    intro hr
    rw [hc] at hr
    cases hr
  cases hst with
  | beside t hst => exact ⟨hc, hst.untouched.arrived, rfl⟩
  | hear | heed | queue | leave => exact ⟨hc, rfl, rfl⟩
  | take _ _ hp | close _ hp | closeLate _ _ hp | fail _ _ hp | failLate _ _ _ hp | look hp =>
    exact (unread hp.2.1).elim
  | wait hl => exact ⟨hc, rfl, rfl⟩
  | stall hl | seeExit _ hl | silent _ hl => exact (unread (h.looking hl).2.1).elim
  | exitKnown e hs =>
    rw [hc] at hs
    cases hs

theorem Sound.sealed_of_reaches (h : Sound i) {c : Cause} (hc : i.stand = .ending c)
    (hr : i.Reaches j) : j.stand = .ending c ∧ j.scene.arrived = i.scene.arrived ∧
      j.finishes = i.finishes := by
  induction hr with
  | refl => exact ⟨hc, rfl, rfl⟩
  | tail hr hst ih =>
    obtain ⟨hstand, harrived, hfinishes⟩ := (h.of_reaches hr).sealed_of_step ih.1 hst
    exact ⟨hstand, harrived.trans ih.2.1, hfinishes.trans ih.2.2⟩

/-! ## The end comes -/

/-- The pump can come to the end of the session. -/
def CanFinish (i : Intake) : Prop := ∃ j e, i.Reaches j ∧ j.scene.pump = .finishing e []

theorem CanFinish.of_reaches (h : j.CanFinish) (hr : i.Reaches j) : i.CanFinish := by
  obtain ⟨k, e, hk, hp⟩ := h
  exact ⟨k, e, hr.trans hk, hp⟩

theorem CanFinish.of_step (h : j.CanFinish) (hst : Step i j) : i.CanFinish :=
  h.of_reaches (.single hst)

theorem Sound.canFinish_of_finishing (h : Sound i) {e : ExitInfo} {steps : List FinishStep}
    (hp : i.scene.pump = .finishing e steps) : i.CanFinish := by
  obtain ⟨t, ht, htpump⟩ := Scene.exists_finished h.steady.held h.steady.agreed hp
  exact ⟨_, e, i.reaches_of_between ht, htpump⟩

theorem Sound.canFinish_of_awaiting (h : Sound i) (hs : i.stand = .awaiting) : i.CanFinish := by
  obtain ⟨t, e, ht, he, -⟩ := i.scene.exists_published
  have hr := i.reaches_of_between ht
  have hst : Step { i with scene := t } _ := .exitKnown e hs he
  have hsound := (h.of_reaches hr).of_step hst
  exact ((hsound.canFinish_of_finishing rfl).of_step hst).of_reaches hr

theorem Sound.canFinish_of_silence (h : Sound i) {e : ExitInfo} (hp : i.Looks)
    (hs : i.stand = .lingering e) (hr : i.stream.read? = none) : i.CanFinish := by
  have hlook := Step.look hp hr
  have hst : Step { i with looked := true, mark := i.sent } _ := .silent e rfl hs
  have hsound := (h.of_step hlook).of_step hst
  exact ((hsound.canFinish_of_finishing rfl).of_step hst).of_step hlook

/-- Nothing comes, and the end of the program becomes known. -/
theorem Sound.canFinish_of_exit (h : Sound i) (hp : i.Looks) (hs : i.stand = .following)
    (hr : i.stream.read? = none) : i.CanFinish := by
  have hlook := Step.look hp hr
  obtain ⟨t, e, ht, he, hpump⟩ := i.scene.exists_published
  have hreaches := reaches_of_between { i with looked := true, mark := i.sent } ht
  have hstream : t.session.child.stream = i.stream := ht.untouched.stream
  have hst : Step { i with scene := t, looked := true, mark := i.sent } _ := .seeExit e rfl hs he
  have hsound := ((h.of_step hlook).of_reaches hreaches).of_step hst
  refine ((CanFinish.of_step ?_ hst).of_reaches hreaches).of_step hlook
  refine hsound.canFinish_of_silence (e := e) ⟨hpump.trans hp.1, rfl, rfl⟩ rfl ?_
  exact (congrArg OutputStream.read? hstream).trans hr

/-- A pump that looks for output takes in what is queued, and then the end comes. -/
theorem Sound.canFinish_of_looks {i : Intake} (h : Sound i) (hp : i.Looks) : i.CanFinish := by
  have stands : i.stand = .following ∨ ∃ e, i.stand = .lingering e := by
    have hreads := hp.2.1
    cases hs : i.stand with
    | following => exact Or.inl rfl
    | lingering e => exact Or.inr ⟨e, rfl⟩
    | awaiting | ending => rw [hs] at hreads; cases hreads
  rcases i.stream.read?_cases with ⟨-, -, hr⟩ | ⟨-, hr⟩ | ⟨bs, q, hq, hr⟩ | ⟨reason, q, -, hr⟩
  · rcases stands with hs | ⟨e, hs⟩
    · exact h.canFinish_of_exit hp hs hr
    · exact h.canFinish_of_silence hp hs hr
  · rcases stands with hs | ⟨e, hs⟩
    · have hst := Step.close _ hp hs hr
      exact ((h.of_step hst).canFinish_of_awaiting rfl).of_step hst
    · have hst := Step.closeLate e _ hp hs hr
      exact ((h.of_step hst).canFinish_of_finishing rfl).of_step hst
  · -- the queue is shorter when the pump looks again
    have hst := Step.take bs _ hp hr
    have hsound := h.of_step hst
    obtain ⟨t, ht, hrest⟩ := Scene.exists_at_rest hsound.steady.held hsound.steady.agreed
    have hreaches := reaches_of_between _ ht
    refine (CanFinish.of_reaches ?_ hreaches).of_step hst
    rcases hrest with hreading | ⟨e, hfinished⟩
    · have hlooks : Looks { (i.withStream ⟨q, i.stream.ended⟩).takeIn bs with scene := t } :=
        ⟨hreading, hp.2.1, hp.2.2⟩
      have hstream : t.session.child.stream.queue = q := by
        rw [ht.untouched.stream]
        rfl
      have hlt : t.session.child.stream.queue.length < i.stream.queue.length := by
        rw [hstream, hq]
        exact Nat.lt_succ_self _
      exact (hsound.of_reaches hreaches).canFinish_of_looks hlooks
    · exact ⟨_, e, .refl, hfinished⟩
  · rcases stands with hs | ⟨e, hs⟩
    · have hst := Step.fail reason _ hp hs hr
      exact ((h.of_step hst).canFinish_of_finishing rfl).of_step hst
    · have hst := Step.failLate e reason _ hp hs hr
      exact ((h.of_step hst).canFinish_of_finishing rfl).of_step hst
termination_by i.stream.queue.length

theorem Sound.canFinish_of_reading (h : Sound i) (hp : i.scene.pump = .reading) : i.CanFinish := by
  have of_reads : i.stand.reads = true → i.CanFinish := by
    intro hs
    cases hl : i.looked with
    | false => exact h.canFinish_of_looks ⟨hp, hs, hl⟩
    | true => exact (h.wait.canFinish_of_looks ⟨hp, hs, rfl⟩).of_step (.wait hl)
  cases hs : i.stand with
  | following | lingering => exact of_reads (by rw [hs]; rfl)
  | awaiting => exact h.canFinish_of_awaiting hs
  | ending c =>
    have hst := h.standing
    rw [hs] at hst
    obtain ⟨⟨e, steps, hfinishing, -⟩, -⟩ := hst
    exact h.canFinish_of_finishing hfinishing

/-- Whatever has happened, the pump can still come to the end of the session. -/
theorem Sound.canFinish (h : Sound i) : i.CanFinish := by
  obtain ⟨t, ht, hrest⟩ := Scene.exists_at_rest h.steady.held h.steady.agreed
  have hreaches := i.reaches_of_between ht
  refine CanFinish.of_reaches ?_ hreaches
  rcases hrest with hreading | ⟨e, hfinished⟩
  · exact (h.of_reaches hreaches).canFinish_of_reading hreading
  · exact ⟨_, e, .refl, hfinished⟩

/-! ## What the log holds -/

structure Captures (i : Intake) : Prop where
  /-- The log is what the pump has taken in, in its order. -/
  log : i.scene.session.log.bytes = i.scene.arrived.flatten
  /-- What the pump has taken in, and behind it what is queued, is what was queued, and that is the
  beginning of what was read. -/
  order : i.scene.arrived ++ i.stream.chunks = i.sent ∧ i.sent <+: i.heard
  /-- Until the end is begun, no more of what was read is outside the queue than is in the reader's
  hand. -/
  whole : i.finishes = [] → i.heard = i.sent ++ i.hand.toList
  /-- The end is begun at most once, -/
  once : i.finishes = [] ∨ ∃ c e, i.stand = .ending c ∧ i.finishes = [e]
  /-- and can always come, -/
  finishes : i.CanFinish
  /-- and nothing arrives behind it. -/
  last : i.finishes ≠ [] → ∀ j, i.Reaches j → j.finishes = i.finishes ∧
    j.scene.arrived = i.scene.arrived ∧ j.scene.session.log.bytes = i.scene.session.log.bytes
  /-- If the stream was closed, or failed, the log is all that was read. -/
  drained : ∀ c, i.stand = .ending c → c ≠ .silent →
    i.scene.session.log.bytes = i.heard.flatten
  /-- If nothing had come for a while, the log is all that had been queued at the last look. -/
  silent : i.stand = .ending .silent →
    i.scene.session.log.bytes = i.mark.flatten ∧ i.mark <+: i.heard
  /-- The pump turns to the end of the program only when it has just found nothing queued, and then it
  has taken in all that had been queued. -/
  turns : ∀ j, Step i j → i.atExit = none → j.atExit ≠ none →
    i.looked = true ∧ i.mark = i.scene.arrived ∧ j.atExit = some i.sent
  /-- All that had been queued by then gets into the log. -/
  exit : ∀ queued, i.atExit = some queued → queued <+: i.sent ∧
    (i.finishes ≠ [] → queued <+: i.scene.arrived)

theorem Sound.heard_of_drained (h : Sound i) {c : Cause} (hs : i.stand = .ending c)
    (hc : c ≠ .silent) : i.heard = i.scene.arrived := by
  have hst := h.standing
  rw [hs] at hst
  have hd := hst.2.2.1 hc
  have hwhole := h.whole.resolve_right fun hleft => by
    rw [hs] at hleft
    cases hleft.2.2
    exact hc rfl
  rw [hwhole, h.reader hd.2, ← h.account, hd.chunks]
  simp

/-- The ends that were begun tell where the pump stands. -/
theorem Sound.once (h : Sound i) :
    (i.finishes = [] ∧ ∀ c, i.stand ≠ .ending c) ∨ ∃ c e, i.stand = .ending c ∧ i.finishes = [e] := by
  have hst := h.standing
  cases hs : i.stand with
  | following =>
    rw [hs] at hst
    exact Or.inl ⟨hst.2.1, nofun⟩
  | awaiting =>
    rw [hs] at hst
    exact Or.inl ⟨hst.2.2.1, nofun⟩
  | lingering e =>
    rw [hs] at hst
    exact Or.inl ⟨hst.2.1, nofun⟩
  | ending c =>
    rw [hs] at hst
    obtain ⟨⟨e, steps, -, hfinishes⟩, -⟩ := hst
    exact Or.inr ⟨c, e, rfl, hfinishes⟩

theorem Sound.exists_cause (h : Sound i) (hf : i.finishes ≠ []) : ∃ c, i.stand = .ending c := by
  rcases h.once with ⟨hn, -⟩ | ⟨c, e, hs, -⟩
  · exact absurd hn hf
  · exact ⟨c, hs⟩

theorem Sound.heard_of_unfinished (h : Sound i) (hf : i.finishes = []) :
    i.heard = i.sent ++ i.hand.toList := by
  refine h.whole.resolve_right fun hleft => ?_
  rcases h.once with ⟨-, hn⟩ | ⟨c, e, -, he⟩
  · exact hn _ hleft.2.2
  · rw [hf] at he
    cases he

theorem Sound.captures (h : Sound i) : i.Captures := by
  have hlog := h.steady.captured.bytes
  refine ⟨hlog, ⟨h.account, ?_⟩, h.heard_of_unfinished, h.once.imp And.left id, h.canFinish, ?last,
    ?drained, ?silent, ?turns, ?exit⟩
  · exact h.whole.elim (fun hw => ⟨_, hw.symm⟩) And.left
  case last =>
    intro hf j hj
    obtain ⟨c, hc⟩ := h.exists_cause hf
    obtain ⟨-, harrived, hfinishes⟩ := h.sealed_of_reaches hc hj
    refine ⟨hfinishes, harrived, ?_⟩
    rw [(h.of_reaches hj).steady.captured.bytes, harrived, hlog]
  case drained =>
    intro c hs hc
    rw [hlog, h.heard_of_drained hs hc]
  case silent =>
    intro hs
    have hst := h.standing
    rw [hs] at hst
    refine ⟨by rw [hlog, hst.2.1 rfl], h.marked.trans ?_⟩
    exact h.whole.elim (fun hw => ⟨_, hw.symm⟩) And.left
  case turns =>
    intro j hst hn hj
    cases hst with
    | seeExit e hl => exact ⟨hl, (h.looking hl).2.2.1.symm, rfl⟩
    | _ => exact absurd hn hj
  case exit =>
    intro queued hq
    refine ⟨h.exit queued hq, fun hf => ?_⟩
    obtain ⟨c, hs⟩ := h.exists_cause hf
    have hst := h.standing
    rw [hs] at hst
    exact hst.2.2.2 queued hq

/-- Whatever is read from a program, in whatever pieces, and whoever is at work on its session meanwhile,
the log is what was read, piece by piece and in its order, up to where the pump has taken it in; and how
far that is in the end depends on how the end came. -/
theorem output_captured {mode : Mode} {child : Child} {settings : SessionSettings}
    {scratch : Option Host.Path} (fresh : child.stream = {})
    (h : (start mode child settings scratch).Reaches i) : i.Captures :=
  ((sound_start mode settings scratch fresh).of_reaches h).captures

/-- A batch program whose output is read one byte at a time. -/
def quiet : Intake :=
  start .text { process := 1, wiring := .pipe, outlet := 1, inlet := 2, chunkSize := 1 } default none

/-- A program writes a byte and ends. Its survivors write another one, which the pump takes in while it
lingers, and a third one, which comes too late. -/
theorem output_captured_of_survivors :
    ∃ i, quiet.Reaches i ∧ i.Captures ∧ i.heard = [[104], [105], [33]] ∧ i.atExit = some [[104]] ∧
      i.stand = .ending .silent ∧ i.scene.session.log.bytes = [104, 105] := by
  have r : quiet.Reaches quiet := .refl
  have r := r.tail (.hear [104] rfl rfl (by decide) (by decide))
  have r := r.tail (.queue [104] rfl)
  have r := r.tail (.beside _ (.world (.ends (.exited 0) rfl)))
  have r := r.tail (.take [104] _ ⟨rfl, rfl, rfl⟩ rfl)
  have r := r.tail (.beside _ (.world (.collect (.exited 0) rfl)))
  have r := r.tail (.beside _ (.pump nofun (.mark _ rfl)))
  have r := r.tail (.hear [105] rfl rfl (by decide) (by decide))
  have r := r.tail (.beside _ (.pump nofun (.plain _ rfl rfl)))
  have r := r.tail (.beside _ (.pump nofun (.move _ _ rfl)))
  have r := r.tail (.look ⟨rfl, rfl, rfl⟩ rfl)
  have r := r.tail (.beside _ (.world (.publish (.exited 0) rfl)))
  have r := r.tail (.seeExit (.exited 0) rfl rfl rfl)
  have r := r.tail (.queue [105] rfl)
  have r := r.tail (.take [105] _ ⟨rfl, rfl, rfl⟩ rfl)
  have r := r.tail (.beside _ (.pump nofun (.mark _ rfl)))
  have r := r.tail (.beside _ (.pump nofun (.plain _ rfl rfl)))
  have r := r.tail (.beside _ (.pump nofun (.move _ _ rfl)))
  have r := r.tail (.hear [33] rfl rfl (by decide) (by decide))
  have r := r.tail (.look ⟨rfl, rfl, rfl⟩ rfl)
  have r := r.tail (.silent (.exited 0) rfl rfl)
  have r := r.tail (.queue [33] rfl)
  exact ⟨_, r, output_captured rfl r, rfl, rfl, rfl, rfl⟩

end Intake

end SessionHost
