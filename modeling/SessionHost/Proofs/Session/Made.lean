import SessionHost.Proofs.Service.Alone

/-!
# What sessions keep of the settings that they were made with

A session is made with the settings of its registry. The size of the chunks that its reader takes and the
prompt that its debugger is known by are put into it then, and nothing that is done to a session changes
them. The times that its pump waits, the limit and the grace period are looked up in the registry each time.

**Results.**
* `Session.Made` and `Entry.Made`: a session was made with these settings, and its pump waits as they say.
* `Registry.MadeBy`: a registry has these settings, and all its sessions were made with them.
  `MadeBy.create`, `MadeBy.kill`, `MadeBy.reap`, `MadeBy.serve` and `MadeBy.put` keep it.
* `Registry.create_exhausted_iff`, `Registry.mem_reap_iff` and `Registry.find_serve`: what the settings of a
  registry decide.
-/
namespace SessionHost

/-! ## A pacer and its marker -/

namespace Pacer

variable {p q : Pacer} {released : Option Bytes}

theorem marker_send {line : String} (h : p.send line = some (q, released)) : q.marker = p.marker := by
  unfold send at h
  split at h
  · cases h
  · exact (congrArg (·.1.marker) (Option.some.inj h)).symm.trans (marker_dispatch _)

@[simp] theorem marker_observe (p : Pacer) (chunk : Bytes) : (p.observe chunk).1.marker = p.marker := by
  unfold observe
  split
  · rfl
  · dsimp only
    split
    · exact marker_dispatch _
    · rfl

end Pacer

/-! ## A program and the size of its chunks -/

namespace Child

variable {h h' : Host} {c d : Child}

theorem chunkSize_write {bs : Bytes} (hw : c.write? bs = some d) : d.chunkSize = c.chunkSize := by
  unfold write? at hw
  split at hw
  · cases hw
  · obtain ⟨input, -, rfl⟩ := Option.map_eq_some_iff.1 hw
    rfl

theorem chunkSize_serveWish {w : WriterWish} (hw : serveWish h c w = some (h', d)) :
    d.chunkSize = c.chunkSize := by
  unfold serveWish at hw
  split at hw
  case h_2 bs =>
    split at hw <;> cases hw <;> rfl
  all_goals
    cases hw
    rfl

theorem chunkSize_serveWriter (fuel : Nat) (h : Host) (c : Child) (did : Bool) :
    (serveWriter fuel h c did).2.1.chunkSize = c.chunkSize := by
  induction fuel generalizing h c did with
  | zero => rfl
  | succ fuel ih =>
    unfold serveWriter
    split
    · rfl
    · split
      · rfl
      · next hs => exact (ih _ _ _).trans (chunkSize_serveWish hs)

theorem chunkSize_serveReader (h : Host) (c : Child) :
    (c.serveReader h).2.1.chunkSize = c.chunkSize := by
  unfold serveReader
  split
  · rfl
  · dsimp only
    repeat' split
    all_goals rfl

theorem chunkSize_serveWaiter (h : Host) (c : Child) :
    (c.serveWaiter h).2.1.chunkSize = c.chunkSize := by
  unfold serveWaiter
  split <;> rfl

theorem chunkSize_serve (h : Host) (c : Child) : (c.serve h).2.1.chunkSize = c.chunkSize := by
  unfold serve
  dsimp only
  rw [chunkSize_serveWaiter, chunkSize_serveWriter, chunkSize_serveReader]

end Child

/-- The size of chunks is that which a program is started with. -/
theorem Launch.chunkSize_of_start {h h' : Host} {l : Launch} {home : Host.Path} {wiring : Wiring}
    {size : Nat} {c : Child} (hs : l.start? h home wiring size = .ok (h', c)) : c.chunkSize = size := by
  cases wiring with
  | pipe =>
    simp only [start?, overPipes?, bind, Except.bind, pure, Except.pure] at hs
    repeat' split at hs
    all_goals cases hs
    all_goals rfl
  | terminal =>
    simp only [start?, onTerminal?, bind, Except.bind, pure, Except.pure] at hs
    repeat' split at hs
    all_goals cases hs
    all_goals rfl

/-! ## A session -/

namespace Session

structure Made (settings : SessionSettings) (s : Session) : Prop where
  chunkSize : s.child.chunkSize = settings.readChunk
  marker : s.pacer.map (·.marker) =
    if s.mode = .debugger then some (Bytes.ofString settings.promptMarker) else none

structure Alike (s t : Session) : Prop where
  mode : t.mode = s.mode
  chunkSize : t.child.chunkSize = s.child.chunkSize
  marker : t.pacer.map (·.marker) = s.pacer.map (·.marker)

variable {settings : SessionSettings} {s t u : Session}

theorem Made.of_alike (h : s.Made settings) (ha : s.Alike t) : t.Made settings :=
  ⟨ha.chunkSize.trans h.chunkSize, by rw [ha.marker, ha.mode]; exact h.marker⟩

theorem Alike.rfl : s.Alike s := ⟨.refl _, .refl _, .refl _⟩

theorem Alike.trans (h : s.Alike t) (h' : t.Alike u) : s.Alike u :=
  ⟨h'.mode.trans h.mode, h'.chunkSize.trans h.chunkSize, h'.marker.trans h.marker⟩

theorem made_begin (mode : Mode) {child : Child} (hc : child.chunkSize = settings.readChunk)
    (scratch : Option Host.Path) : (begin_ mode child settings scratch).Made settings := by
  refine ⟨hc, ?_⟩
  unfold begin_
  dsimp only
  split <;> rfl

theorem alike_withPacer {p q : Pacer} (hp : s.pacer = some p) (h : q.marker = p.marker) :
    s.Alike (s.withPacer q) :=
  ⟨.refl _, .refl _, by rw [hp]; exact congrArg some h⟩

theorem alike_enqueue {bs : Bytes} (h : s.enqueue? bs = .ok t) : s.Alike t := by
  unfold enqueue? at h
  split at h
  · next hw =>
    cases h
    exact ⟨.refl _, Child.chunkSize_write hw, .refl _⟩
  · cases h

theorem alike_writeInput {bs : Bytes} (h : s.writeInput? bs = .ok t) : s.Alike t := by
  unfold writeInput? at h
  split at h
  · cases h
  · cases he : s.enqueue? bs with
    | error e =>
      rw [he] at h
      cases h
    | ok u =>
      rw [he] at h
      cases h
      exact (alike_enqueue he).trans ⟨.refl _, .refl _, .refl _⟩

theorem alike_sendCommand (s : Session) (line : String) : s.Alike (s.sendCommand line).1 := by
  unfold sendCommand
  split
  · split
    · next hw => exact alike_writeInput hw
    · exact .rfl
  · next p hp =>
    split
    · exact .rfl
    · next hsend => exact alike_withPacer hp (Pacer.marker_send hsend)
    · next hsend =>
      have hpaced := alike_withPacer hp (Pacer.marker_send hsend)
      dsimp only
      split
      · next he => exact hpaced.trans ((alike_enqueue he).trans ⟨.refl _, .refl _, .refl _⟩)
      · exact hpaced

theorem alike_sendCommands (s : Session) (lines : List String) : s.Alike (s.sendCommands lines).1 := by
  induction lines generalizing s with
  | nil => exact .rfl
  | cons line rest ih =>
    have hsend := alike_sendCommand s line
    unfold sendCommands
    split
    · next he =>
      rw [he] at hsend
      exact hsend.trans (ih _)
    · exact hsend

theorem alike_submitInput (s : Session) (payload : String) : s.Alike (s.submitInput payload).1 := by
  unfold submitInput
  split
  · exact alike_sendCommands s _
  · split
    · next hw => exact alike_writeInput hw
    · exact .rfl

theorem alike_poll {p : Poll} (h : s.poll = .ok (p, t)) : s.Alike t := by
  unfold poll at h
  cases hp : s.pollFrom s.cursor with
  | error e =>
    rw [hp] at h
    cases h
  | ok p =>
    rw [hp] at h
    cases h
    exact ⟨.refl _, .refl _, .refl _⟩

theorem alike_observe {p : Pacer} (hp : s.pacer = some p) (chunk : Bytes) :
    s.Alike (s.observe p chunk) := by
  have hpaced := alike_withPacer hp (Pacer.marker_observe p chunk)
  unfold observe
  dsimp only
  split
  · next bs _ =>
    cases hw : (s.withPacer (p.observe chunk).1).child.write? bs with
    | none => exact hpaced.trans ⟨.refl _, .refl _, .refl _⟩
    | some child => exact hpaced.trans ⟨.refl _, Child.chunkSize_write hw, .refl _⟩
  · exact hpaced.trans ⟨.refl _, .refl _, .refl _⟩

theorem alike_ingest (s : Session) (chunk : Bytes) : s.Alike (s.ingest chunk) := by
  unfold ingest
  split
  · exact .rfl
  · dsimp only
    split
    · exact ⟨.refl _, .refl _, .refl _⟩
    · next p hp =>
      have hgrown : s.Alike { s with log := s.log.append chunk, outputSinceInput := true } :=
        ⟨.refl _, .refl _, .refl _⟩
      refine hgrown.trans (alike_observe ?_ chunk)
      exact hp

theorem alike_onStall (s : Session) : s.Alike s.onStall := by
  unfold onStall
  split <;> exact ⟨.refl _, .refl _, .refl _⟩

theorem alike_kill (h : Host) (s : Session) : s.Alike (s.kill h).2.1 := by
  unfold kill
  split <;> exact ⟨.refl _, .refl _, .refl _⟩

theorem alike_finish (s : Session) (e : ExitInfo) (now : Nat) : s.Alike (s.finish e now) := by
  refine ⟨.refl _, .refl _, ?_⟩
  change (s.pacer.map Pacer.close).map (·.marker) = s.pacer.map (·.marker)
  rw [Option.map_map]
  rfl

end Session

/-! ## The pump of a session -/

namespace PumpState

/-- A pump waits for as long as the settings say. -/
def Waits (settings : SessionSettings) : PumpState → Prop
  | reading deadline => ∃ since, deadline = since + max settings.inputGrace 1000
  | lingering _ deadline => ∃ since, deadline = since + settings.exitLinger
  | awaitingExit | finishing _ | finished => True

end PumpState

structure Entry.Made (settings : SessionSettings) (e : Entry) : Prop where
  session : e.session.Made settings
  pump : e.pump.Waits settings

namespace Pump

variable {settings : SessionSettings} {h h' : Host} {s s' : Session} {p p' : PumpState}

theorem alike_withStream (s : Session) (stream : OutputStream) : s.Alike (withStream s stream) :=
  ⟨rfl, rfl, rfl⟩

/-- The session is still made as it was, and the next time to wait is one of the settings. -/
theorem alike_of_step (hst : step? settings h s p = some (h', s', p')) :
    s.Alike s' ∧ p'.Waits settings := by
  cases p with
  | finished => cases hst
  | finishing e =>
    cases hst
    exact ⟨s.alike_finish e h.now, trivial⟩
  | awaitingExit =>
    obtain ⟨e, -, he⟩ := Option.map_eq_some_iff.1 hst
    cases he
    exact ⟨.rfl, trivial⟩
  | reading deadline =>
    change read? settings h s deadline = _ at hst
    unfold read? at hst
    split at hst
    · cases hst
      exact ⟨(alike_withStream s _).trans (Session.alike_ingest _ _), h.now, rfl⟩
    · cases hst
      exact ⟨alike_withStream s _, trivial⟩
    · cases hst
      exact ⟨alike_withStream s _, trivial⟩
    · split at hst
      · cases hst
        exact ⟨.rfl, h.now, rfl⟩
      · split at hst <;> cases hst
        exact ⟨s.alike_onStall, h.now, rfl⟩
  | lingering e deadline =>
    change linger? settings h s e deadline = _ at hst
    unfold linger? at hst
    split at hst
    · cases hst
      exact ⟨(alike_withStream s _).trans (Session.alike_ingest _ _), h.now, rfl⟩
    · cases hst
      exact ⟨alike_withStream s _, trivial⟩
    · split at hst <;> cases hst
      exact ⟨.rfl, trivial⟩

theorem made_run (fuel : Nat) (did : Bool) (hm : Entry.Made settings ⟨s, p⟩) :
    Entry.Made settings ⟨(run settings fuel h s p did).2.1, (run settings fuel h s p did).2.2.1⟩ := by
  induction fuel generalizing h s p did with
  | zero => exact hm
  | succ fuel ih =>
    unfold run
    cases hst : step? settings h s p with
    | none => exact hm
    | some r =>
      obtain ⟨h', s', p'⟩ := r
      obtain ⟨halike, hwaits⟩ := alike_of_step hst
      exact ih true ⟨hm.session.of_alike halike, hwaits⟩

end Pump

/-! ## A registry -/

theorem Host.lookUp_change {α : Type} (xs : List (Nat × α)) (n : Nat) (f : α → α) :
    lookUp (change xs n f) n = (lookUp xs n).map f := by
  unfold lookUp change
  rw [List.find?_map, Option.map_map, Option.map_map]
  have hkey : ((fun x : Nat × α => x.1 == n) ∘ fun x => if x.1 == n then (n, f x.2) else x) =
      fun x => x.1 == n := by
    funext x
    by_cases hx : x.1 = n <;> simp [hx]
  rw [hkey]
  refine Option.map_congr fun x hx => ?_
  have hfound : x.1 = n := by simpa using List.find?_some hx
  simp [hfound]

namespace Registry

structure MadeBy (settings : SessionSettings) (r : Registry) : Prop where
  settings_eq : r.settings = settings
  entries : ∀ p ∈ r.entries, p.2.Made settings

variable {settings : SessionSettings} {r : Registry}

theorem madeBy_empty (settings : SessionSettings) : MadeBy settings { settings } :=
  ⟨rfl, fun _ h => absurd h List.not_mem_nil⟩

theorem MadeBy.put (h : MadeBy settings r) (id : Nat) {e : Entry} (he : e.Made settings) :
    MadeBy settings (r.put id e) := by
  refine ⟨h.settings_eq, fun p hp => ?_⟩
  rcases mem_put hp with rfl | ⟨hp, -⟩
  · exact he
  · exact h.entries p hp

theorem MadeBy.add (h : MadeBy settings r) (id : Nat) {e : Entry} (he : e.Made settings) :
    MadeBy settings (r.add id e) := by
  refine ⟨h.settings_eq, fun p hp => ?_⟩
  rcases List.mem_append.1 hp with hp | hp
  · exact h.entries p hp
  · rw [List.mem_singleton.1 hp]
    exact he

theorem MadeBy.find (h : MadeBy settings r) {id : Nat} {e : Entry} (he : r.find? id = some e) :
    e.Made settings := h.entries _ (mem_of_find he)

theorem MadeBy.create (h : MadeBy settings r) (host : Host) (home : Host.Path) (mode : Mode)
    (l : Launch) : MadeBy settings (r.create host home mode l).2.1 := by
  unfold Registry.create reserve?
  by_cases hleft : r.active < r.settings.maxSessions
  · rw [if_pos hleft]
    dsimp only
    cases hs : l.start? host home mode.wiring (takeId { r with active := r.active + 1 }).1.settings.readChunk
      with
    | error e => exact ⟨h.settings_eq, h.entries⟩
    | ok started =>
      obtain ⟨host', child⟩ := started
      have hsize : child.chunkSize = settings.readChunk :=
        (Launch.chunkSize_of_start hs).trans (congrArg (·.readChunk) h.settings_eq)
      refine ⟨h.settings_eq, fun p hp => ?_⟩
      rcases List.mem_append.1 hp with hp | hp
      · exact h.entries p hp
      · rw [List.mem_singleton.1 hp]
        dsimp only [takeId]
        rw [h.settings_eq]
        exact ⟨(Session.made_begin mode hsize l.scratch).of_alike ⟨rfl, rfl, rfl⟩, host'.now, rfl⟩
  · rw [if_neg hleft]
    exact h

theorem MadeBy.kill (h : MadeBy settings r) (host : Host) (id : Nat) :
    MadeBy settings (r.kill host id).2.1 := by
  unfold Registry.kill
  cases he : r.find? id with
  | none => exact h
  | some e =>
    have hmade := h.find he
    exact h.put id ⟨hmade.session.of_alike (Session.alike_kill host _), hmade.pump⟩

theorem MadeBy.reap (h : MadeBy settings r) (now : Nat) : MadeBy settings (r.reap now).1 :=
  ⟨h.settings_eq, fun p hp => h.entries p (List.mem_filter.1 hp).1⟩

theorem MadeBy.serve (h : MadeBy settings r) (host : Host) (id : Nat) :
    MadeBy settings (r.serve host id).2.1 := by
  unfold Registry.serve
  cases he : r.find? id with
  | none => exact h
  | some e =>
    have hmade := h.find he
    have hserved : Entry.Made settings
        ⟨{ e.session with child := (e.session.child.serve host).2.1 }, e.pump⟩ :=
      ⟨hmade.session.of_alike ⟨rfl, Child.chunkSize_serve host _, rfl⟩, hmade.pump⟩
    rw [h.settings_eq]
    have hput := h.put id (Pump.made_run (h := (e.session.child.serve host).1) pumpSlice false hserved)
    dsimp only
    split
    · exact ⟨hput.settings_eq, hput.entries⟩
    · exact hput

/-! ## What the settings decide -/

/-- A session goes on as the settings of its registry say. -/
theorem find_serve {id : Nat} {e : Entry} (he : r.find? id = some e) (host : Host) :
    (r.serve host id).2.1.find? id = some
      (let (host, child, _) := e.session.child.serve host
       let (_, session, pump, _) :=
         Pump.run r.settings pumpSlice host { e.session with child } e.pump false
       { session, pump }) := by
  have hput : ∀ f, (r.put id f).find? id = some f := fun f => by
    change Host.lookUp (Host.change r.entries id fun _ => f) id = some f
    rw [Host.lookUp_change]
    exact congrArg (Option.map fun _ => f) he
  unfold Registry.serve
  rw [he]
  dsimp only
  split <;> exact hput _

/-- A session is refused just when the limit is reached, and it is told. -/
theorem create_exhausted_iff {host : Host} {home : Host.Path} {mode : Mode} {l : Launch} {n : Nat} :
    (r.create host home mode l).2.2 = .error (.resourceExhausted n) ↔
      n = r.settings.maxSessions ∧ r.settings.maxSessions ≤ r.active := by
  unfold create reserve?
  by_cases hleft : r.active < r.settings.maxSessions
  · rw [if_pos hleft]
    dsimp only
    constructor
    · intro h
      split at h <;> cases h
    · rintro ⟨-, hfull⟩
      exact absurd hfull (Nat.not_le.2 hleft)
  · rw [if_neg hleft]
    constructor
    · intro h
      cases h
      exact ⟨rfl, Nat.not_lt.1 hleft⟩
    · rintro ⟨rfl, -⟩
      rfl

theorem mem_reap_iff {now : Nat} {p : Nat × Entry} :
    p ∈ (r.reap now).2 ↔ p ∈ r.entries ∧
      ∃ at_, p.2.session.finishedAt = some at_ ∧ r.settings.gracePeriod ≤ now - at_ := by
  unfold reap isExpired
  rw [List.mem_filter]
  refine and_congr_right fun _ => ?_
  cases p.2.session.finishedAt with
  | none => simp
  | some at_ => simp

end Registry

end SessionHost
