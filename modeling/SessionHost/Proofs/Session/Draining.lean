import Mathlib.Data.List.Chain
import SessionHost.Proofs.Input.Dictation
import SessionHost.Proofs.Intake.Faithful

/-!
# Draining the output of a program that has ended

Survivors of a program may hold its output open and write for as long as they like. A pump that sees the
end of the program therefore waits for output no longer than the linger window. But it begins to wait anew
whenever it has taken some, so the window limits the gaps between the chunks and not the draining.

**The machine.** A `Drain` is a session from the time on at which its pump saw the end of the program, with
a clock, and with when each chunk came that is queued or was taken. The pump takes the turns of
`Pump.step?`.

**Hypotheses.** Nobody but the pump appends to the log, closes it, or gives up the place of the session. A
pump that can go on does so before the clock has ticked `slack` times.

**Results.**
* `Drain.drains_of_reaches`: a chunk that is taken came within the window of the one before, and one that is
  left did not. When the pump is done, the log is closed and the place is free. As long as it waits, there
  is no time that survivors cannot hold it up to.
* `Drain.taken_behind_window`: a run in which chunks are taken that came when the window was over.
* `Drain.run_alone`: what `Pump.run` does is a run of the machine.
-/
namespace SessionHost

structure Piece where
  came : Nat
  taken : Nat
  bytes : Bytes

structure Piece.Follows (window slack : Nat) (a b : Piece) : Prop where
  came : b.came ≤ b.taken
  order : a.taken ≤ b.taken
  /-- The window begins anew with each chunk. -/
  window : b.taken ≤ a.taken + window + slack
  prompt : b.taken ≤ max b.came a.taken + slack

/-- A session whose pump has seen the end of the program. -/
structure Drain where
  host : Host
  session : Session
  pump : PumpState
  /-- When the pump last took output, or saw the end of the program. -/
  last : Nat
  /-- For how long the pump could have gone on and has not. -/
  late : Nat := 0
  /-- What is queued, and when it came. -/
  queued : List (Nat × Bytes) := []
  pieces : List Piece := []

namespace Drain

variable (settings : SessionSettings)

/-- The pump has just seen the end of the program. -/
def begin_ (h : Host) (s : Session) (e : ExitInfo) : Drain where
  host := h
  session := s
  pump := .lingering e (h.now + settings.exitLinger)
  last := h.now

def next? (x : Drain) : Option (Host × Session × PumpState) := Pump.step? settings x.host x.session x.pump

def stream (x : Drain) : OutputStream := x.session.child.stream

def withStream (x : Drain) (s : OutputStream) : Drain :=
  { x with session := Pump.withStream x.session s }

def setTime (x : Drain) (now late : Nat) : Drain := { x with host := { x.host with now }, late }

/-- The pump has gone on. If it waits again, it has taken the first chunk. -/
def turn (x : Drain) (r : Host × Session × PumpState) : Drain :=
  let y := { x with host := r.1, session := r.2.1, pump := r.2.2, late := 0 }
  match r.2.2 with
  | .lingering _ _ => { y with
      last := x.host.now
      queued := x.queued.tail
      pieces := x.pieces ++ x.queued.head?.toList.map fun c => ⟨c.1, x.host.now, c.2⟩ }
  | .reading _ | .awaitingExit | .finishing _ | .finished => y

/-- The clock ticks, output comes, or the pump goes on.
mirrors session/mod:409-422 -/
inductive Step (slack : Nat) : Drain → Drain → Prop where
  | tick {x : Drain} (h : x.next? settings = none) : Step slack x (x.setTime (x.host.now + 1) 0)
  | lag {x : Drain} (h : x.next? settings ≠ none) (hl : x.late < slack) :
    Step slack x (x.setTime (x.host.now + 1) (x.late + 1))
  | arrive {x : Drain} (bs : Bytes) (hne : bs ≠ []) (ho : x.stream.ended = false) :
    Step slack x { x.withStream (x.stream.arrive (.chunk bs)) with
      queued := x.queued ++ [(x.host.now, bs)] }
  | heed {x : Drain} (r : ReadReply) (ho : x.stream.ended = false) :
    Step slack x (x.withStream (x.stream.heed x.session.child.wiring r))
  -- whoever else is at work
  | beside {x : Drain} (h : Host) (s : Session) (ht : h.now = x.host.now)
      (hs : s.child.stream = x.session.child.stream) (hl : s.log = x.session.log)
      (hp : s.holdsSlot = x.session.holdsSlot) : Step slack x { x with host := h, session := s }
  | turn {x : Drain} (r : Host × Session × PumpState) (h : x.next? settings = some r) :
    Step slack x (x.turn r)

abbrev Reaches (slack : Nat) : Drain → Drain → Prop := Relation.ReflTransGen (Step settings slack)

end Drain

/-! ## What is queued -/

namespace OutputStream

variable {s : OutputStream}

theorem read_eq_none_iff : s.read? = none ↔ s.queue = [] ∧ s.ended = false := by
  rcases s.read?_cases with ⟨hq, ho, hr⟩ | ⟨hd, hr⟩ | ⟨bs, q, hq, hr⟩ | ⟨reason, q, hq, hr⟩
  · simp [hr, hq, ho]
  · simp [hr, hd.2]
  · simp [hr, hq]
  · simp [hr, hq]

/-- Nothing is queued if no chunk is, as long as the reader goes on. -/
theorem FailsLast.queue_eq_nil (h : s.FailsLast) (ho : s.ended = false) (hc : s.chunks = []) :
    s.queue = [] := by
  cases hq : s.queue with
  | nil => rfl
  | cons a q =>
    cases a with
    | chunk bs => simp [chunks, hq] at hc
    | failed reason =>
      rw [FailsLast, hq] at h
      rw [h.2] at ho
      cases ho

theorem FailsLast.read_of_chunks (h : s.FailsLast) {bs : Bytes} {rest : List Bytes}
    (hc : s.chunks = bs :: rest) :
    ∃ stream, s.read? = some (.ok (.data bs), stream) ∧ stream.ended = s.ended := by
  rcases s.read?_cases with ⟨hq, -, -⟩ | ⟨hd, -⟩ | ⟨bs', q, -, hr⟩ | ⟨reason, q, hq, -⟩
  · simp [chunks, hq] at hc
  · rw [hd.chunks] at hc
    cases hc
  · obtain ⟨hchunks, hended, -⟩ := of_read_data hr
    obtain ⟨rfl, -⟩ := List.cons_eq_cons.1 (hchunks.symm.trans hc)
    exact ⟨_, hr, hended⟩
  · rw [FailsLast, hq] at h
    simp [chunks, hq, h.1] at hc

/-- A read that gives no chunk, and something else, is the last one. -/
theorem FailsLast.of_read_last (h : s.FailsLast) {outcome : Except String ReadOutcome}
    {stream : OutputStream} (hr : s.read? = some (outcome, stream))
    (hne : ∀ bs, outcome ≠ .ok (.data bs)) : s.chunks = [] ∧ stream.Drained := by
  rcases s.read?_cases with ⟨-, -, hn⟩ | ⟨hd, hc⟩ | ⟨bs, q, -, hd⟩ | ⟨reason, q, -, hf⟩
  · cases hn.symm.trans hr
  · cases hc.symm.trans hr
    exact ⟨hd.chunks, hd⟩
  · cases hd.symm.trans hr
    exact absurd rfl (hne bs)
  · cases hf.symm.trans hr
    obtain ⟨hchunks, hdrained, -⟩ := of_read_failed h hf
    exact ⟨hchunks, hdrained⟩

end OutputStream

theorem Child.stream_give (c : Child) (out : Option Bytes) : (c.give out).stream = c.stream := by
  by_cases h : c.Accepts
  · rw [give_of_accepts h]
  · rw [give_of_not_accepts h]

/-- The log grows by the chunk that is taken in, and neither the queue nor the place of the session
changes. -/
theorem Session.of_taken {s : Session} (ho : s.log.closed = false) (chunk : Bytes) :
    (s.ingest chunk).log = s.log.append chunk ∧ (s.ingest chunk).child.stream = s.child.stream ∧
      (s.ingest chunk).holdsSlot = s.holdsSlot := by
  cases hp : s.pacer with
  | none => simp [ingest, ho, hp, moveTo]
  | some p =>
    rw [ingest_of_pacer ho hp, observe_eq]
    exact ⟨rfl, Child.stream_give .., rfl⟩

namespace Drain

variable {settings : SessionSettings} {slack : Nat} {o x y : Drain}

/-! ## Any steps -/

/-- The chunk that stands for the end of the program. -/
def origin (x : Drain) : Piece := ⟨x.host.now, x.host.now, []⟩

/-- The window was over before anything came that is still queued, and no more comes unless it is. -/
structure Over (settings : SessionSettings) (x : Drain) : Prop where
  time : x.last + settings.exitLinger ≤ x.host.now ∨ x.stream.ended = true
  queued : ∀ c ∈ x.queued, x.last + settings.exitLinger ≤ c.1

structure Waits (settings : SessionSettings) (x : Drain) : Prop where
  log : x.session.log.closed = false
  slot : x.session.holdsSlot = true
  soon : x.host.now ≤ x.last + settings.exitLinger + x.late
  prompt : ∀ c ∈ x.queued.head?, x.host.now ≤ max c.1 x.last + x.late

def Stands (settings : SessionSettings) (x : Drain) : Prop :=
  match x.pump with
  | .lingering _ deadline => deadline = x.last + settings.exitLinger ∧ x.Waits settings
  | .finishing _ => x.Over settings
  | .finished => x.session.log.closed = true ∧ x.session.holdsSlot = false ∧ x.Over settings
  | .reading _ | .awaitingExit => False

structure Sound (settings : SessionSettings) (slack : Nat) (o x : Drain) : Prop where
  log : x.session.log.bytes = o.session.log.bytes ++ (x.pieces.map (·.bytes)).flatten
  queued : x.queued.map (·.2) = x.stream.chunks
  fails : x.stream.FailsLast
  came : ∀ c ∈ x.queued, c.1 ≤ x.host.now
  chain : List.IsChain (Piece.Follows settings.exitLinger slack) (o.origin :: x.pieces)
  last : ∀ p ∈ (o.origin :: x.pieces).getLast?, p.taken = x.last
  early : x.last ≤ x.host.now
  late : x.late ≤ slack
  stands : x.Stands settings

theorem sound_begin {h : Host} {s : Session} {e : ExitInfo} (hs : s.child.stream.read? = none)
    (ho : s.log.closed = false) (hp : s.holdsSlot = true) :
    Sound settings slack (begin_ settings h s e) (begin_ settings h s e) := by
  refine ⟨(List.append_nil _).symm, ?_, ?_, nofun, .singleton _, ?_, Nat.le_refl _, Nat.zero_le _, rfl, ho,
    hp, ?_, nofun⟩
  · exact (OutputStream.of_read_none hs).symm
  · show OutputStream.failsLast _ s.child.stream.queue
    rw [(OutputStream.read_eq_none_iff.1 hs).1]
    trivial
  · rintro p hp
    obtain rfl := Option.some.inj hp
    rfl
  · show h.now ≤ h.now + settings.exitLinger + 0
    omega

theorem Over.mono (h : x.Over settings) (hl : y.last = x.last) (hn : x.host.now ≤ y.host.now)
    (hs : x.stream.ended = true → y.stream.ended = true)
    (hq : ∀ c ∈ y.queued, c ∈ x.queued ∨ x.stream.ended = false ∧ c.1 = x.host.now) :
    y.Over settings where
  time := by
    rw [hl]
    exact h.time.imp (fun ht => Nat.le_trans ht hn) hs
  queued c hc := by
    rw [hl]
    rcases hq c hc with hc | ⟨ho, ht⟩
    · exact h.queued c hc
    · rw [ht]
      exact h.time.resolve_right (by rw [ho]; exact nofun)

/-- Nothing is queued for a pump that has nothing to do but wait. -/
theorem Sound.idle (h : Sound settings slack o x) {e : ExitInfo} {d : Nat} (hp : x.pump = .lingering e d)
    (hn : x.next? settings = none) :
    x.queued = [] ∧ x.stream.ended = false ∧ x.host.now < x.last + settings.exitLinger := by
  have hst := h.stands
  rw [Stands, hp] at hst
  rw [next?, hp, Pump.step?, Pump.linger?] at hn
  split at hn
  · cases hn
  · cases hn
  · rename_i hr
    split at hn
    · cases hn
    · rename_i hd
      refine ⟨List.map_eq_nil_iff.1 (h.queued.trans (OutputStream.of_read_none hr)),
        (OutputStream.read_eq_none_iff.1 hr).2, ?_⟩
      rw [← hst.1]
      exact Nat.lt_of_not_le hd

theorem Stands.imp (h : x.Stands settings) (hp : y.pump = x.pump) (hl : y.last = x.last)
    (hc : y.session.log.closed = x.session.log.closed)
    (hs : y.session.holdsSlot = x.session.holdsSlot)
    (hw : ∀ e d, x.pump = .lingering e d → x.Waits settings → y.Waits settings)
    (ho : x.Over settings → y.Over settings) : y.Stands settings := by
  unfold Stands at h ⊢
  rw [hp, hl, hc, hs]
  split at h
  · rename_i e d he
    exact ⟨h.1, hw e d he h.2⟩
  · exact ho h
  · exact ⟨h.1, h.2.1, ho h.2.2⟩
  · exact h
  · exact h

theorem Sound.clock (h : Sound settings slack o x) {late : Nat} (hl : late ≤ slack)
    (hw : ∀ e d, x.pump = .lingering e d → x.Waits settings →
      x.host.now + 1 ≤ x.last + settings.exitLinger + late ∧
        ∀ c ∈ x.queued.head?, x.host.now + 1 ≤ max c.1 x.last + late) :
    Sound settings slack o (x.setTime (x.host.now + 1) late) where
  log := h.log
  queued := h.queued
  fails := h.fails
  came c hc := Nat.le_succ_of_le (h.came c hc)
  chain := h.chain
  last := h.last
  early := Nat.le_succ_of_le h.early
  late := hl
  stands := h.stands.imp rfl rfl rfl rfl
    (fun e d hp hx => ⟨hx.log, hx.slot, (hw e d hp hx).1, (hw e d hp hx).2⟩)
    fun ho => ho.mono rfl (Nat.le_succ _) id fun _ hc => .inl hc

theorem Sound.tick (h : Sound settings slack o x) (hn : x.next? settings = none) :
    Sound settings slack o (x.setTime (x.host.now + 1) 0) := by
  refine h.clock (Nat.zero_le _) fun e d hp _ => ?_
  obtain ⟨hq, -, hlt⟩ := h.idle hp hn
  refine ⟨hlt, fun c hc => ?_⟩
  rw [hq] at hc
  cases hc

theorem Sound.lag (h : Sound settings slack o x) (hl : x.late < slack) :
    Sound settings slack o (x.setTime (x.host.now + 1) (x.late + 1)) :=
  h.clock hl fun _ _ _ hw => ⟨Nat.succ_le_succ hw.soon, fun c hc => Nat.succ_le_succ (hw.prompt c hc)⟩

theorem Sound.arrive (h : Sound settings slack o x) {bs : Bytes} (ho : x.stream.ended = false) :
    Sound settings slack o { x.withStream (x.stream.arrive (.chunk bs)) with
      queued := x.queued ++ [(x.host.now, bs)] } where
  log := h.log
  queued := by
    show (x.queued ++ [(x.host.now, bs)]).map _ = (x.stream.arrive (.chunk bs)).chunks
    rw [List.map_append, h.queued, OutputStream.chunks_arrive_chunk]
    rfl
  fails := h.fails.arrive_chunk ho bs
  came c hc := by
    rcases List.mem_append.1 hc with hc | hc
    · exact h.came c hc
    · rw [List.mem_singleton.1 hc]
      exact Nat.le_refl _
  chain := h.chain
  last := h.last
  early := h.early
  late := h.late
  stands := by
    refine h.stands.imp rfl rfl rfl rfl (fun e d hp hw => ⟨hw.log, hw.slot, hw.soon, fun c hc => ?_⟩)
      fun hover => ?_
    · show x.host.now ≤ max c.1 x.last + x.late
      cases hq : x.queued with
      | nil =>
        simp only [hq, List.nil_append, List.head?_cons, Option.mem_some_iff] at hc
        rw [← hc]
        show x.host.now ≤ max x.host.now x.last + x.late
        omega
      | cons first rest =>
        simp only [hq, List.cons_append, List.head?_cons, Option.mem_some_iff] at hc
        exact hw.prompt c (by rw [hq, ← hc]; rfl)
    · refine hover.mono rfl (Nat.le_refl _) id fun c hc => ?_
      exact (List.mem_append.1 hc).imp_right fun hc => ⟨ho, by rw [List.mem_singleton.1 hc]⟩

theorem Sound.heed (h : Sound settings slack o x) (r : ReadReply) (ho : x.stream.ended = false) :
    Sound settings slack o (x.withStream (x.stream.heed x.session.child.wiring r)) where
  log := h.log
  queued := h.queued.trans (OutputStream.chunks_heed ..).symm
  fails := h.fails.heed ho _ r
  came := h.came
  chain := h.chain
  last := h.last
  early := h.early
  late := h.late
  stands := h.stands.imp rfl rfl rfl rfl (fun _ _ _ hw => ⟨hw.log, hw.slot, hw.soon, hw.prompt⟩)
    fun hover => hover.mono rfl (Nat.le_refl _) (fun he => nomatch ho.symm.trans he) fun _ hc => .inl hc

theorem Sound.beside (h : Sound settings slack o x) {host : Host} {s : Session}
    (ht : host.now = x.host.now) (hs : s.child.stream = x.session.child.stream)
    (hl : s.log = x.session.log) (hp : s.holdsSlot = x.session.holdsSlot) :
    Sound settings slack o { x with host, session := s } := by
  have hstream : stream { x with host, session := s } = x.stream := hs
  refine ⟨hl ▸ h.log, hstream ▸ h.queued, hstream ▸ h.fails, ht ▸ h.came, h.chain, h.last, ht ▸ h.early,
    h.late, ?_⟩
  refine h.stands.imp rfl rfl (congrArg _ hl) hp (fun _ _ _ hw => ⟨?_, ?_, ?_, ?_⟩) fun hover => ?_
  · exact hl ▸ hw.log
  · exact hp.trans hw.slot
  · exact ht ▸ hw.soon
  · exact ht ▸ hw.prompt
  · exact hover.mono rfl (Nat.le_of_eq ht.symm) (fun hended => hstream ▸ hended) fun _ hc => .inl hc

/-! ## The pump goes on -/

/-- What a pump that waits can do: take the first chunk, see the stream closed or failed behind the last
one, or give up when the window is over. -/
theorem Sound.turn_cases (h : Sound settings slack o x) {e : ExitInfo} {d : Nat}
    (hp : x.pump = .lingering e d) {r : Host × Session × PumpState} (hr : x.next? settings = some r) :
    (∃ c rest stream, x.queued = c :: rest ∧ stream.chunks = rest.map (·.2) ∧
      stream.ended = x.stream.ended ∧ stream.FailsLast ∧
        r = (x.host, (Pump.withStream x.session stream).ingest c.2,
          .lingering e (x.host.now + settings.exitLinger))) ∨
      x.queued = [] ∧ ∃ stream, stream.chunks = [] ∧ stream.FailsLast ∧
        (x.last + settings.exitLinger ≤ x.host.now ∨ stream.ended = true) ∧
          r = (x.host, Pump.withStream x.session stream, .finishing e) := by
  have hst := h.stands
  rw [Stands, hp] at hst
  rw [next?, hp, Pump.step?, Pump.linger?] at hr
  split at hr
  · rename_i bs stream hread
    cases hr
    obtain ⟨hchunks, hended, hfails⟩ := OutputStream.of_read_data hread
    obtain ⟨c, rest, hq, rfl, hrest⟩ := List.map_eq_cons_iff.1 (h.queued.trans hchunks)
    exact .inl ⟨c, rest, stream, hq, hrest.symm, hended, hfails h.fails, rfl⟩
  · rename_i outcome stream hne hread
    cases hr
    obtain ⟨hchunks, hdrained⟩ := h.fails.of_read_last hread hne
    exact .inr ⟨List.map_eq_nil_iff.1 (h.queued.trans hchunks), stream, hdrained.chunks,
      hdrained.failsLast, .inr hdrained.2, rfl⟩
  · rename_i hread
    split at hr
    · rename_i hd
      cases hr
      have hchunks := OutputStream.of_read_none hread
      refine .inr ⟨List.map_eq_nil_iff.1 (h.queued.trans hchunks), x.stream, hchunks, h.fails, ?_, rfl⟩
      rw [← hst.1]
      exact .inl hd
    · cases hr

theorem Sound.take (h : Sound settings slack o x) (hw : x.Waits settings) {e : ExitInfo} {c : Nat × Bytes}
    {rest : List (Nat × Bytes)} {stream : OutputStream} (hq : x.queued = c :: rest)
    (hchunks : stream.chunks = rest.map (·.2)) (hfails : stream.FailsLast) :
    Sound settings slack o { x with
      session := (Pump.withStream x.session stream).ingest c.2
      pump := .lingering e (x.host.now + settings.exitLinger)
      late := 0
      last := x.host.now
      queued := rest
      pieces := x.pieces ++ [⟨c.1, x.host.now, c.2⟩] } := by
  obtain ⟨hlog, hstream, hslot⟩ := Session.of_taken (s := Pump.withStream x.session stream) hw.log c.2
  have hopen : (x.session.log.append c.2).closed = false := (OutputLog.closed_append ..).trans hw.log
  have hfollows : ∀ p ∈ (o.origin :: x.pieces).getLast?,
      p.Follows settings.exitLinger slack ⟨c.1, x.host.now, c.2⟩ := fun p hp => by
    have hlast := h.last p hp
    have hsoon := hw.soon
    have hprompt := hw.prompt c (by rw [hq]; rfl)
    have hlate := h.late
    refine ⟨h.came c (by rw [hq]; exact List.mem_cons_self), ?_, ?_, ?_⟩ <;> rw [hlast] <;> dsimp only
    · exact h.early
    · omega
    · omega
  refine ⟨?log, ?queued, ?fails, ?came, ?chain, ?last, Nat.le_refl _, Nat.zero_le _, rfl, ?_,
    hslot.trans hw.slot, ?_, ?_⟩
  case log =>
    show ((Pump.withStream x.session stream).ingest c.2).log.bytes = _
    rw [hlog, OutputLog.bytes_append, show (Pump.withStream x.session stream).log = x.session.log from rfl,
      hw.log, if_neg Bool.false_ne_true, h.log]
    simp
  case queued => exact hchunks.symm.trans (congrArg _ hstream.symm)
  case fails =>
    show ((Pump.withStream x.session stream).ingest c.2).child.stream.FailsLast
    rw [hstream]
    exact hfails
  case came => exact fun d hd => h.came d (by rw [hq]; exact List.mem_cons_of_mem _ hd)
  case chain =>
    show List.IsChain _ ((o.origin :: x.pieces) ++ [_])
    exact h.chain.append (.singleton _) fun p hp b hb => by
      obtain rfl := Option.some.inj hb
      exact hfollows p hp
  case last =>
    intro p hp
    rw [show o.origin :: (x.pieces ++ [⟨c.1, x.host.now, c.2⟩]) =
      (o.origin :: x.pieces) ++ [⟨c.1, x.host.now, c.2⟩] from rfl, List.getLast?_concat] at hp
    obtain rfl := Option.some.inj hp
    rfl
  · show ((Pump.withStream x.session stream).ingest c.2).log.closed = false
    rw [hlog]
    exact hopen
  · show x.host.now ≤ x.host.now + settings.exitLinger + 0
    omega
  · intro d _
    show x.host.now ≤ max d.1 x.host.now + 0
    omega

theorem Sound.turn (h : Sound settings slack o x) {r : Host × Session × PumpState}
    (hr : x.next? settings = some r) : Sound settings slack o (x.turn r) := by
  have hst := h.stands
  unfold Stands at hst
  split at hst
  · rename_i e d hp
    rcases h.turn_cases hp hr with ⟨c, rest, stream, hq, hchunks, -, hfails, rfl⟩ |
      ⟨hq, stream, hchunks, hfails, htime, rfl⟩
    · have hnext := h.take hst.2 (e := e) hq hchunks hfails
      simp only [Drain.turn, hq]
      exact hnext
    · refine ⟨h.log, ?_, hfails, h.came, h.chain, h.last, h.early, Nat.zero_le _, htime, ?_⟩
      · show x.queued.map _ = stream.chunks
        rw [hq, hchunks]
        rfl
      · intro c hc
        have hc : c ∈ x.queued := hc
        rw [hq] at hc
        cases hc
  · rename_i e hp
    rw [next?, hp] at hr
    cases hr
    exact ⟨h.log, h.queued, h.fails, h.came, h.chain, h.last, h.early, Nat.zero_le _, rfl, rfl, hst.time,
      hst.queued⟩
  · rename_i hp
    rw [next?, hp] at hr
    cases hr
  · cases hst
  · cases hst

theorem Sound.of_step (h : Sound settings slack o x) (hst : Step settings slack x y) :
    Sound settings slack o y := by
  cases hst with
  | tick hn => exact h.tick hn
  | lag hn hl => exact h.lag hl
  | arrive bs hne ho => exact h.arrive ho
  | heed r ho => exact h.heed r ho
  | beside host s ht hs hl hp => exact h.beside ht hs hl hp
  | turn r hr => exact h.turn hr

theorem Sound.of_reaches (h : Sound settings slack o x) (hr : Reaches settings slack x y) :
    Sound settings slack o y := by
  induction hr with
  | refl => exact h
  | tail _ hst ih => exact ih.of_step hst

/-! ## How long it may take -/

structure Lingers (settings : SessionSettings) (slack : Nat) (o : Drain) (e : ExitInfo) (x : Drain) :
    Prop where
  sound : Sound settings slack o x
  pump : ∃ d, x.pump = .lingering e d

/-- The pump waits, it has taken all that came, and more may come. -/
structure Quiet (settings : SessionSettings) (slack : Nat) (o : Drain) (e : ExitInfo) (x : Drain) : Prop
    extends Lingers settings slack o e x where
  queued : x.queued = []
  ended : x.stream.ended = false

variable {e : ExitInfo}

theorem Lingers.take (h : Lingers settings slack o e x) {c : Nat × Bytes} {rest : List (Nat × Bytes)}
    (hq : x.queued = c :: rest) : ∃ y, Step settings slack x y ∧ Lingers settings slack o e y ∧
      y.host = x.host ∧ y.queued = rest ∧ y.stream.ended = x.stream.ended ∧ y.last = x.host.now ∧
        y.pieces = x.pieces ++ [⟨c.1, x.host.now, c.2⟩] := by
  obtain ⟨d, hp⟩ := h.pump
  have hchunks := h.sound.queued
  rw [hq, List.map_cons] at hchunks
  obtain ⟨stream, hread, hended⟩ := h.sound.fails.read_of_chunks hchunks.symm
  have hst := h.sound.stands
  rw [Stands, hp] at hst
  have hnext : x.next? settings = some (x.host, (Pump.withStream x.session stream).ingest c.2,
      .lingering e (x.host.now + settings.exitLinger)) := by
    rw [next?, hp, Pump.step?, Pump.linger?, show x.session.child.stream.read? = _ from hread]
  refine ⟨_, .turn _ hnext, ⟨h.sound.turn hnext, ⟨_, rfl⟩⟩, rfl, ?_, ?_, rfl, ?_⟩
  · simp [Drain.turn, hq]
  · show ((Pump.withStream x.session stream).ingest c.2).child.stream.ended = _
    rw [(Session.of_taken (s := Pump.withStream x.session stream) hst.2.log c.2).2.1]
    exact hended
  · simp [Drain.turn, hq]

theorem Lingers.takeAll {x : Drain} (h : Lingers settings slack o e x) : ∃ y, Reaches settings slack x y ∧
    Lingers settings slack o e y ∧ y.queued = [] ∧ y.stream.ended = x.stream.ended := by
  generalize hq : x.queued = queued
  induction queued generalizing x with
  | nil => exact ⟨x, .refl, h, hq, rfl⟩
  | cons c rest ih =>
    obtain ⟨y, hstep, hy, -, hqueued, hended, -⟩ := h.take hq
    obtain ⟨z, hz, hlingers, hempty, hended'⟩ := ih hy hqueued
    exact ⟨z, .head hstep hz, hlingers, hempty, hended'.trans hended⟩

/-- Survivors write a chunk, and the pump takes it at once. -/
theorem Quiet.answer (h : Quiet settings slack o e x) (bs : Bytes) (hne : bs ≠ []) :
    ∃ y, Reaches settings slack x y ∧ Quiet settings slack o e y ∧ y.host = x.host ∧
      y.last = x.host.now ∧ y.pieces = x.pieces ++ [⟨x.host.now, x.host.now, bs⟩] := by
  have harrive : Step settings slack x { x.withStream (x.stream.arrive (.chunk bs)) with
      queued := x.queued ++ [(x.host.now, bs)] } := .arrive bs hne h.ended
  have hlingers : Lingers settings slack o e { x.withStream (x.stream.arrive (.chunk bs)) with
      queued := x.queued ++ [(x.host.now, bs)] } := ⟨h.sound.arrive h.ended, h.pump⟩
  have hfirst : x.queued ++ [(x.host.now, bs)] = [(x.host.now, bs)] := by
    rw [h.queued, List.nil_append]
  obtain ⟨y, hstep, hy, hhost, hqueued, hended, hlast, hpieces⟩ := hlingers.take hfirst
  exact ⟨y, .tail (.single harrive) hstep, ⟨hy, hqueued, hended.trans h.ended⟩, hhost, hlast, hpieces⟩

/-- As long as the window is open, a pump with nothing queued has nothing to do. -/
theorem Quiet.idle (h : Quiet settings slack o e x) (hw : x.host.now < x.last + settings.exitLinger) :
    x.next? settings = none := by
  obtain ⟨d, hp⟩ := h.pump
  have hst := h.sound.stands
  rw [Stands, hp] at hst
  have hchunks : x.stream.chunks = [] := h.sound.queued.symm.trans (by rw [h.queued]; rfl)
  have hread : x.session.child.stream.read? = none :=
    OutputStream.read_eq_none_iff.2 ⟨h.sound.fails.queue_eq_nil h.ended hchunks, h.ended⟩
  rw [next?, hp, Pump.step?, Pump.linger?, hread]
  exact if_neg (by omega)

/-- While nothing comes, the clock goes on to the end of the window. -/
theorem Quiet.pass (h : Quiet settings slack o e x) {n : Nat}
    (hn : x.host.now + n ≤ x.last + settings.exitLinger) : ∃ y, Reaches settings slack x y ∧
      Quiet settings slack o e y ∧ y.host.now = x.host.now + n ∧ y.last = x.last ∧
        y.pieces = x.pieces := by
  induction n with
  | zero => exact ⟨x, .refl, h, rfl, rfl, rfl⟩
  | succ n ih =>
    obtain ⟨y, hy, hquiet, hnow, hlast, hpieces⟩ := ih (by omega)
    have hidle := hquiet.idle (by omega)
    refine ⟨_, hy.tail (.tick hidle), ⟨⟨hquiet.sound.tick hidle, hquiet.pump⟩, hquiet.queued, hquiet.ended⟩,
      ?_, hlast, hpieces⟩
    show y.host.now + 1 = x.host.now + (n + 1)
    omega

theorem Quiet.hear (h : Quiet settings slack o e x) {n : Nat}
    (hn : x.host.now + n ≤ x.last + settings.exitLinger) (bs : Bytes) (hne : bs ≠ []) :
    ∃ y, Reaches settings slack x y ∧ Quiet settings slack o e y ∧ y.host.now = x.host.now + n ∧
      y.last = x.host.now + n ∧
        y.pieces = x.pieces ++ [⟨x.host.now + n, x.host.now + n, bs⟩] := by
  obtain ⟨y, hy, hquiet, hnow, -, hpieces⟩ := h.pass hn
  obtain ⟨z, hz, hquiet, hhost, hlast, hpieces'⟩ := hquiet.answer bs hne
  rw [hnow] at hlast hpieces'
  rw [hpieces] at hpieces'
  exact ⟨z, hy.trans hz, hquiet, hhost ▸ hnow, hlast, hpieces'⟩

/-- Survivors that write often enough hold the pump up to any time. -/
theorem Quiet.outlast (h : Quiet settings slack o e x) (hw : 0 < settings.exitLinger) (n : Nat) :
    ∃ y, Reaches settings slack x y ∧ Quiet settings slack o e y ∧ n ≤ y.host.now := by
  induction n with
  | zero => exact ⟨x, .refl, h, Nat.zero_le _⟩
  | succ n ih =>
    obtain ⟨y, hy, hquiet, hn⟩ := ih
    obtain ⟨z, hz, hquiet, hhost, hlast, -⟩ := hquiet.answer [0] nofun
    obtain ⟨u, hu, hquiet, hnow, -⟩ := hquiet.pass (n := 1) (by rw [hlast, hhost]; omega)
    rw [hhost] at hnow
    exact ⟨u, (hy.trans hz).trans hu, hquiet, by omega⟩

theorem Lingers.done (h : Lingers settings slack o e x) (hq : x.queued = [])
    (hn : x.next? settings ≠ none) :
    ∃ y, Reaches settings slack x y ∧ y.pump = .finished ∧ y.pieces = x.pieces := by
  obtain ⟨d, hp⟩ := h.pump
  obtain ⟨r, hr⟩ := Option.ne_none_iff_exists'.1 hn
  have hturn : Step settings slack x (x.turn r) := .turn r hr
  rcases h.sound.turn_cases hp hr with ⟨c, rest, stream, hqueued, -⟩ | ⟨-, stream, -, -, -, rfl⟩
  · rw [hq] at hqueued
    cases hqueued
  · exact ⟨_, .tail (.single hturn) (.turn _ rfl), rfl, rfl⟩

/-- When nothing more comes, the pump ends the session. -/
theorem Lingers.ends (h : Lingers settings slack o e x) (hq : x.queued = []) :
    ∃ y, Reaches settings slack x y ∧ y.pump = .finished ∧ y.pieces = x.pieces := by
  by_cases hn : x.next? settings = none
  · obtain ⟨d, hp⟩ := h.pump
    obtain ⟨-, ho, hlt⟩ := h.sound.idle hp hn
    obtain ⟨y, hy, hquiet, hnow, hlast, hpieces⟩ :=
      Quiet.pass ⟨h, hq, ho⟩ (n := x.last + settings.exitLinger - x.host.now) (by omega)
    have hover : y.next? settings ≠ none := fun hn => by
      obtain ⟨d, hp⟩ := hquiet.pump
      obtain ⟨-, -, hlt⟩ := hquiet.sound.idle hp hn
      omega
    obtain ⟨z, hz, hfinished, hsame⟩ := hquiet.done hquiet.queued hover
    exact ⟨z, hy.trans hz, hfinished, hsame.trans hpieces⟩
  · exact h.done hq hn

/-- The time of a chunk is limited by how many there were before. -/
theorem taken_le {window : Nat} {p q : Piece} {l : List Piece}
    (h : List.IsChain (Piece.Follows window slack) (p :: l)) (hq : q ∈ (p :: l).getLast?) :
    q.taken ≤ p.taken + l.length * (window + slack) := by
  induction l generalizing p with
  | nil =>
    obtain rfl := Option.some.inj hq
    simp
  | cons r l ih =>
    obtain ⟨hr, hl⟩ := List.isChain_cons_cons.1 h
    rw [List.getLast?_cons_cons] at hq
    have hnext := ih hl hq
    have hwindow := hr.window
    rw [List.length_cons, Nat.add_mul]
    omega

structure Drains (settings : SessionSettings) (slack : Nat) (o x : Drain) : Prop where
  /-- The log has grown by what was taken, in its order. -/
  log : x.session.log.bytes = o.session.log.bytes ++ (x.pieces.map (·.bytes)).flatten
  /-- Each chunk was taken within the window of the one before, and soon after it came. -/
  chain : List.IsChain (Piece.Follows settings.exitLinger slack) (o.origin :: x.pieces)
  last : ∀ p ∈ (o.origin :: x.pieces).getLast?, p.taken = x.last
  /-- The pump waits no longer than the window since it last took something, and so long the session keeps
  its place. -/
  waits : ∀ e d, x.pump = .lingering e d →
    x.session.log.closed = false ∧ x.session.holdsSlot = true ∧
      x.host.now ≤ x.last + settings.exitLinger + slack ∧
        x.host.now ≤ o.host.now + (x.pieces.length + 1) * (settings.exitLinger + slack)
  /-- What it leaves came when the window was over. -/
  rest : (∀ e d, x.pump ≠ .lingering e d) → ∀ c ∈ x.queued, x.last + settings.exitLinger ≤ c.1
  /-- If nothing more comes, it ends the session, -/
  ends : ∀ e d, x.pump = .lingering e d → ∃ y, Reaches settings slack x y ∧ y.pump = .finished
  sealed : x.pump = .finished → x.session.log.closed = true ∧ x.session.holdsSlot = false
  /-- and as long as somebody may write, there is no time up to which it must have done so. -/
  unlimited : 0 < settings.exitLinger → (∃ e d, x.pump = .lingering e d) → x.stream.ended = false →
    ∀ n, ∃ y, Reaches settings slack x y ∧ ∃ p ∈ y.pieces, n ≤ p.came

/-- Whenever survivors write, and whoever else is at work on the session, the pump takes their output until
none has come for as long as the linger window. -/
theorem drains_of_reaches {h : Host} {s : Session} {deadline : Nat} (hopen : s.log.closed = false)
    (hheld : s.holdsSlot = true) (hseen : Pump.step? settings h s (.reading deadline) =
      some (h, s, .lingering e (h.now + settings.exitLinger)))
    (hr : Reaches settings slack (begin_ settings h s e) x) :
    Drains settings slack (begin_ settings h s e) x := by
  have hread : s.child.stream.read? = none := by
    cases hread : s.child.stream.read? with
    | none => rfl
    | some found =>
      rw [Pump.step?, Pump.read?, hread] at hseen
      have hpump := congrArg (Option.map (·.2.2)) hseen
      rcases found with ⟨_ | _ | _ | _, _⟩ <;> cases hpump
  have hsound := (sound_begin hread hopen hheld).of_reaches hr
  have hst := hsound.stands
  refine ⟨hsound.log, hsound.chain, hsound.last, fun e' d hp => ?waits, fun hn => ?rest,
    fun e' d hp => ?ends, fun hp => ?sealed, fun hw ⟨e', d, hp⟩ ho n => ?unlimited⟩
  case waits =>
    rw [Stands, hp] at hst
    have hsoon := hst.2.soon
    have hlate := hsound.late
    obtain ⟨q, hq⟩ : ∃ q, q ∈ ((begin_ settings h s e).origin :: x.pieces).getLast? :=
      Option.isSome_iff_exists.1 (by simp)
    have hlast := hsound.last q hq
    have hle := taken_le hsound.chain hq
    refine ⟨hst.2.log, hst.2.slot, by omega, ?_⟩
    rw [Nat.add_mul, Nat.one_mul]
    have hstart : (begin_ settings h s e).origin.taken = (begin_ settings h s e).host.now := rfl
    omega
  case rest =>
    unfold Stands at hst
    split at hst
    · rename_i e' d hp
      exact absurd hp (hn e' d)
    · exact hst.queued
    · exact hst.2.2.queued
    · cases hst
    · cases hst
  case ends =>
    obtain ⟨y, hy, hlingers, hempty, -⟩ := Lingers.takeAll ⟨hsound, ⟨d, hp⟩⟩
    obtain ⟨z, hz, hfinished, -⟩ := hlingers.ends hempty
    exact ⟨z, hy.trans hz, hfinished⟩
  case sealed =>
    rw [Stands, hp] at hst
    exact ⟨hst.1, hst.2.1⟩
  case unlimited =>
    obtain ⟨y, hy, hlingers, hempty, hended⟩ := Lingers.takeAll ⟨hsound, ⟨d, hp⟩⟩
    obtain ⟨z, hz, hquiet, hn⟩ := Quiet.outlast ⟨hlingers, hempty, hended.trans ho⟩ hw n
    obtain ⟨u, hu, -, -, -, hpieces⟩ := hquiet.answer [0] nofun
    refine ⟨u, (hy.trans hz).trans hu, ⟨z.host.now, z.host.now, [0]⟩, ?_, hn⟩
    rw [hpieces]
    exact List.mem_append_right _ (List.mem_singleton_self _)

/-- The session of a program that has written a byte and ended. -/
def survived : Session where
  mode := .text
  state := .running
  child := { process := 1, wiring := .pipe, outlet := 1, inlet := 2, chunkSize := 4096
             published := some (.exited 0) }
  log := { bytes := [97] }

def site : Host := { files := ⟨[]⟩ }

def window : SessionSettings :=
  { (default : SessionSettings) with exitLinger := SessionSettings.milliseconds 1500 }

theorem quiet_survived (slack : Nat) : Quiet window slack (begin_ window site survived (.exited 0))
    (.exited 0) (begin_ window site survived (.exited 0)) :=
  ⟨⟨sound_begin rfl rfl rfl, _, rfl⟩, rfl, rfl⟩

/-- A survivor writes a byte when a second is over, and then no more. -/
theorem drains_of_one_byte : ∃ x, Reaches window 0 (begin_ window site survived (.exited 0)) x ∧
    x.pump = .finished ∧ x.pieces = [⟨1000000, 1000000, [98]⟩] ∧ x.session.log.bytes = [97, 98] ∧
      Drains window 0 (begin_ window site survived (.exited 0)) x := by
  obtain ⟨x, rx, hx, -, -, hpieces⟩ := (quiet_survived 0).hear (n := 1000000) (by decide) [98] nofun
  obtain ⟨y, ry, hy, hsame⟩ := hx.ends hx.queued
  have hseen : Pump.step? window site survived (.reading 0) =
      some (site, survived, .lingering (.exited 0) (site.now + window.exitLinger)) := rfl
  have hdrains := drains_of_reaches rfl rfl hseen (rx.trans ry)
  have hall : y.pieces = [⟨1000000, 1000000, [98]⟩] := hsame.trans hpieces
  refine ⟨y, rx.trans ry, hy, hall, ?_, hdrains⟩
  rw [hdrains.log, hall]
  rfl

/-- A survivor writes a byte every second. The third one comes when twice the window is over, and the pump
takes it and waits. -/
theorem taken_behind_window : ∃ x, Reaches window 0 (begin_ window site survived (.exited 0)) x ∧
    Pump.step? window site survived (.reading 0) =
      some (site, survived, .lingering (.exited 0) (site.now + window.exitLinger)) ∧
    x.pieces = [⟨1000000, 1000000, [98]⟩, ⟨2000000, 2000000, [99]⟩, ⟨3000000, 3000000, [100]⟩] ∧
    x.session.log.bytes = [97, 98, 99, 100] ∧ x.session.log.closed = false ∧
    x.session.holdsSlot = true ∧ ¬ ∀ p ∈ x.pieces, p.came ≤ site.now + window.exitLinger := by
  obtain ⟨x, rx, hx, nx, lx, px⟩ := (quiet_survived 0).hear (n := 1000000) (by decide) [98] nofun
  obtain ⟨y, ry, hy, ny, ly, py⟩ := hx.hear (n := 1000000) (by rw [nx, lx]; decide) [99] nofun
  obtain ⟨z, rz, hz, -, -, pz⟩ := hy.hear (n := 1000000) (by rw [ny, ly, nx]; decide) [100] nofun
  have hall : z.pieces =
      [⟨1000000, 1000000, [98]⟩, ⟨2000000, 2000000, [99]⟩, ⟨3000000, 3000000, [100]⟩] := by
    rw [pz, py, px, ny, nx]
    rfl
  obtain ⟨d, hp⟩ := hz.pump
  have hst := hz.sound.stands
  rw [Stands, hp] at hst
  refine ⟨z, (rx.trans ry).trans rz, rfl, hall, ?_, hst.2.log, hst.2.slot, fun hn => ?_⟩
  · rw [hz.sound.log, hall]
    rfl
  · rw [hall] at hn
    have hlast := hn ⟨3000000, 3000000, [100]⟩ (by simp)
    revert hlast
    decide

/-! ## Without interruption -/

theorem turn_eq (x : Drain) (r : Host × Session × PumpState) :
    (x.turn r).host = r.1 ∧ (x.turn r).session = r.2.1 ∧ (x.turn r).pump = r.2.2 := by
  unfold turn
  split <;> exact ⟨rfl, rfl, rfl⟩

/-- A pump that goes on for some turns is a run of the machine. -/
theorem run_alone {x : Drain} (fuel : Nat) (did : Bool) : ∃ y did', Reaches settings slack x y ∧
    Pump.run settings fuel x.host x.session x.pump did = (y.host, y.session, y.pump, did') := by
  induction fuel generalizing x did with
  | zero => exact ⟨x, did, .refl, rfl⟩
  | succ fuel ih =>
    rw [Pump.run]
    cases hr : Pump.step? settings x.host x.session x.pump with
    | none => exact ⟨x, did, .refl, rfl⟩
    | some r =>
      obtain ⟨y, did', hy, he⟩ := ih (x := x.turn r) true
      obtain ⟨hhost, hsession, hpump⟩ := turn_eq x r
      rw [hhost, hsession, hpump] at he
      exact ⟨y, did', .head (.turn r hr) hy, he⟩

end Drain

end SessionHost
