import SessionHost.Proofs.Intake.Faithful

/-!
# Reader and pump without interruption

The steps of an intake are those of the reader and of the pump, taken one at a time. If nobody else has a
turn in between, they leave the session as the functions that run leave it.

* `reader_alone`: the reader, as in `Child.serveReader`.
* `pump_alone`: the pump, as in `Pump.run`.
-/
namespace SessionHost

/-! ## The reader -/

/-- Pieces are no longer than they may be, and never empty. -/
theorem Bytes.of_mem_pieces {size : Nat} {bs piece : Bytes} (h : piece ∈ bs.pieces size) :
    piece ≠ [] ∧ piece.length ≤ size := by
  induction bs using pieces.induct size with
  | case1 bs hnone =>
    rw [pieces, dif_pos hnone] at h
    cases h
  | case2 bs hsome ih =>
    rw [pieces, dif_neg hsome] at h
    rw [not_or] at hsome
    rcases List.mem_cons.1 h with rfl | h
    · refine ⟨?_, List.length_take_le ..⟩
      rw [Ne, List.take_eq_nil_iff, not_or]
      exact ⟨hsome.2, hsome.1⟩
    · exact ih h

namespace Intake

variable {i : Intake}

theorem pieces_alone {i : Intake} {pieces : List Bytes} (hh : i.hand = none)
    (ho : i.stream.ended = false)
    (hp : ∀ piece ∈ pieces,
      piece ≠ [] ∧ piece.length ≤ max i.scene.session.child.chunkSize 1) :
    ∃ j, i.Reaches j ∧ j.hand = none ∧ j.scene.session = Pump.withStream i.scene.session
      { i.stream with queue := i.stream.queue ++ pieces.map Arrival.chunk } := by
  induction pieces generalizing i with
  | nil =>
    refine ⟨i, .refl, hh, ?_⟩
    rw [List.map_nil, List.append_nil]
    rfl
  | cons piece pieces ih =>
    obtain ⟨hne, hl⟩ := hp piece (List.mem_cons_self ..)
    obtain ⟨u, r, huhand, husession⟩ : ∃ u, i.Reaches u ∧ u.hand = none ∧ u.scene.session =
        Pump.withStream i.scene.session (i.stream.arrive (.chunk piece)) :=
      ⟨_, .tail (.single (.hear piece hh ho hne hl)) (.queue piece rfl), rfl, rfl⟩
    have hustream : u.stream = i.stream.arrive (.chunk piece) := by
      rw [stream, husession]
      rfl
    have hsize : u.scene.session.child.chunkSize = i.scene.session.child.chunkSize := by
      rw [husession]
      rfl
    have hpieces : ∀ x ∈ pieces, x ≠ [] ∧ x.length ≤ max u.scene.session.child.chunkSize 1 := by
      rw [hsize]
      exact fun x hx => hp x (List.mem_cons_of_mem _ hx)
    obtain ⟨j, hj, hhand, hjsession⟩ := ih huhand (by rw [hustream]; exact ho) hpieces
    refine ⟨j, r.trans hj, hhand, hjsession.trans ?_⟩
    rw [husession, hustream]
    simp [Pump.withStream, OutputStream.arrive]

/-- The reader reads all that was written, or leaves when nothing can follow. -/
theorem reader_alone (h : Host) (hh : i.hand = none) :
    ∃ j, i.Reaches j ∧ j.hand = none ∧ j.scene.session =
      { i.scene.session with child := (i.scene.session.child.serveReader h).2.1 } := by
  unfold Child.serveReader
  cases ho : i.scene.session.child.stream.ended with
  | true => exact ⟨i, .refl, hh, rfl⟩
  | false =>
    rw [if_neg nofun]
    dsimp only
    split
    · obtain ⟨j, hj, hhand, hsession⟩ := pieces_alone hh ho fun _ hp => Bytes.of_mem_pieces hp
      exact ⟨j, hj, hhand, hsession⟩
    · split
      · exact ⟨i, .refl, hh, rfl⟩
      · exact ⟨_, .single (.heed .nothing hh ho), hh, rfl⟩

/-! ## The pump -/

/-- An intake at which the pump stands as one that runs. -/
def Stands (i : Intake) : PumpState → Prop
  | .reading _ => i.stand = .following ∧ i.scene.pump = .reading
  | .awaitingExit => i.stand = .awaiting ∧ i.scene.pump = .reading
  | .lingering e _ => i.stand = .lingering e ∧ i.scene.pump = .reading
  | .finishing e => (∃ c, i.stand = .ending c) ∧ i.scene.pump = .finishing e FinishStep.all
  | .finished => (∃ c, i.stand = .ending c) ∧ ∃ e, i.scene.pump = .finishing e []

/-- The intake of a session whose pump runs, with nobody else at work. -/
structure Follows (i : Intake) (s : Session) (p : PumpState) : Prop where
  session : i.scene.session = s
  stands : i.Stands p
  looked : i.looked = false
  pacing : i.scene.pacing = none
  recorder : i.scene.recorder = none

theorem reaches_of_pumping (i : Intake) {t : Scene} (h : i.scene.Pumping t) :
    i.Reaches { i with scene := t } ∧ t.recorder = i.scene.recorder :=
  ⟨i.reaches_of_between h.between, h.same.2.1⟩

variable {settings : SessionSettings} {h h' : Host} {s s' : Session} {p p' : PumpState}
  {d : Nat}

/-- The pump takes a chunk out of the queue and into the log. -/
theorem take_alone (hs : Sound i) (hp : i.Looks) (hpacing : i.scene.pacing = none)
    {chunk : Bytes} {rest : OutputStream}
    (hr : i.stream.read? = some (.ok (.data chunk), rest)) :
    ∃ j, i.Reaches j ∧ j.scene.session = (Pump.withStream i.scene.session rest).ingest chunk ∧
      j.scene.pump = .reading ∧ j.stand = i.stand ∧ j.looked = false ∧ j.scene.pacing = none ∧
        j.scene.recorder = i.scene.recorder := by
  have hopen : (Pump.withStream i.scene.session rest).log.closed = false :=
    hs.steady.captured.pumping fun e steps he => by rw [hp.1] at he; cases he
  have hst := Step.take chunk rest hp hr
  obtain ⟨t, ht, hsession, hpump, -, hfree⟩ :=
    Scene.react_alone (s := ((i.withStream rest).takeIn chunk).scene) rfl hpacing
  obtain ⟨hreaches, hrecorder⟩ := reaches_of_pumping _ ht
  refine ⟨_, .head hst hreaches, ?_, hpump, rfl, hp.2.2, hfree, hrecorder⟩
  rw [Scene.ingest_eq hopen]
  exact hsession

theorem stall_alone (hp : i.Looks) (hs : i.stand = .following) (hpacing : i.scene.pacing = none)
    (hr : i.stream.read? = none) :
    ∃ j, i.Reaches j ∧ j.scene.session = i.scene.session.onStall ∧ j.scene.pump = .reading ∧
      j.stand = .following ∧ j.looked = false ∧ j.scene.pacing = none ∧
        j.scene.recorder = i.scene.recorder := by
  have hlook := Step.look hp hr
  unfold Session.onStall
  split
  · rename_i hstall
    obtain ⟨hm, ho, he⟩ := hstall
    have hst := Step.stall (i := { i with looked := true, mark := i.sent }) rfl hs hm ho
    have hlive : i.scene.session.child.hasExited = false := by simpa using he
    have r : i.Reaches _ := .tail (.single hlook) hst
    have r := r.tail (.beside _ (.pump nofun (.stalled rfl hlive)))
    have r := r.tail (.beside _ (.pump nofun (.move .idle false rfl)))
    exact ⟨_, r, rfl, rfl, hs, rfl, hpacing, rfl⟩
  · exact ⟨_, .tail (.single hlook) (.wait rfl), rfl, hp.1, hs, rfl, hpacing, rfl⟩

/-- A pump that follows its program. -/
theorem read_alone (hs : Sound i) (hf : Follows i s (.reading d))
    (hstep : Pump.read? settings h s d = some (h', s', p')) : ∃ j, i.Reaches j ∧ Follows j s' p' := by
  obtain ⟨rfl, ⟨hstand, hpump⟩, hlooked, hpacing, hrecorder⟩ := hf
  have hp : i.Looks := ⟨hpump, by rw [hstand]; rfl, hlooked⟩
  unfold Pump.read? at hstep
  rcases i.stream.read?_cases with ⟨-, -, hr⟩ | ⟨hd, hr⟩ | ⟨bs, q, hq, hr⟩ | ⟨reason, q, -, hr⟩
  · have hread : i.scene.session.child.stream.read? = none := hr
    rw [hread] at hstep
    dsimp only at hstep
    split at hstep
    · rename_i e he
      cases hstep
      have hst := Step.seeExit (i := { i with looked := true, mark := i.sent }) e rfl hstand he
      exact ⟨_, .tail (.single (.look hp hr)) hst, rfl, ⟨rfl, hpump⟩, rfl, hpacing, hrecorder⟩
    · split at hstep
      · cases hstep
        obtain ⟨j, hj, hsession, hjpump, hjstand, hjlooked, hjpacing, hjrecorder⟩ :=
          stall_alone hp hstand hpacing hr
        exact ⟨j, hj, hsession, ⟨hjstand, hjpump⟩, hjlooked, hjpacing, hjrecorder.trans hrecorder⟩
      · cases hstep
  · have hread : i.scene.session.child.stream.read? = some (.ok .closed, i.stream) := hr
    rw [hread] at hstep
    cases hstep
    exact ⟨_, .single (.close _ hp hstand hr), rfl, ⟨rfl, hpump⟩, hlooked, hpacing, hrecorder⟩
  · have hread : i.scene.session.child.stream.read? = _ := hr
    rw [hread] at hstep
    cases hstep
    obtain ⟨j, hj, hsession, hjpump, hjstand, hjlooked, hjpacing, hjrecorder⟩ :=
      take_alone hs hp hpacing hr
    exact ⟨j, hj, hsession, ⟨hjstand.trans hstand, hjpump⟩, hjlooked, hjpacing,
      hjrecorder.trans hrecorder⟩
  · have hread : i.scene.session.child.stream.read? = _ := hr
    rw [hread] at hstep
    cases hstep
    exact ⟨_, .single (.fail reason _ hp hstand hr), rfl, ⟨⟨_, rfl⟩, rfl⟩, rfl, hpacing, hrecorder⟩

theorem linger_alone (hs : Sound i) {e : ExitInfo} (hf : Follows i s (.lingering e d))
    (hstep : Pump.linger? settings h s e d = some (h', s', p')) :
    ∃ j, i.Reaches j ∧ Follows j s' p' := by
  obtain ⟨rfl, ⟨hstand, hpump⟩, hlooked, hpacing, hrecorder⟩ := hf
  have hp : i.Looks := ⟨hpump, by rw [hstand]; rfl, hlooked⟩
  unfold Pump.linger? at hstep
  rcases i.stream.read?_cases with ⟨-, -, hr⟩ | ⟨hd, hr⟩ | ⟨bs, q, hq, hr⟩ | ⟨reason, q, -, hr⟩
  · have hread : i.scene.session.child.stream.read? = none := hr
    rw [hread] at hstep
    dsimp only at hstep
    split at hstep
    · cases hstep
      have hst := Step.silent (i := { i with looked := true, mark := i.sent }) e rfl hstand
      exact ⟨_, .tail (.single (.look hp hr)) hst, rfl, ⟨⟨_, rfl⟩, rfl⟩, rfl, hpacing, hrecorder⟩
    · cases hstep
  · have hread : i.scene.session.child.stream.read? = some (.ok .closed, i.stream) := hr
    rw [hread] at hstep
    cases hstep
    exact ⟨_, .single (.closeLate e _ hp hstand hr), rfl, ⟨⟨_, rfl⟩, rfl⟩, rfl, hpacing, hrecorder⟩
  · have hread : i.scene.session.child.stream.read? = _ := hr
    rw [hread] at hstep
    cases hstep
    obtain ⟨j, hj, hsession, hjpump, hjstand, hjlooked, hjpacing, hjrecorder⟩ :=
      take_alone hs hp hpacing hr
    exact ⟨j, hj, hsession, ⟨hjstand.trans hstand, hjpump⟩, hjlooked, hjpacing,
      hjrecorder.trans hrecorder⟩
  · have hread : i.scene.session.child.stream.read? = _ := hr
    rw [hread] at hstep
    cases hstep
    exact ⟨_, .single (.failLate e reason _ hp hstand hr), rfl, ⟨⟨_, rfl⟩, rfl⟩, rfl, hpacing,
      hrecorder⟩

theorem step_alone (hs : Sound i) (hf : Follows i s p)
    (hstep : Pump.step? settings h s p = some (h', s', p')) : ∃ j, i.Reaches j ∧ Follows j s' p' := by
  cases p with
  | reading d => exact read_alone hs hf hstep
  | lingering e d => exact linger_alone hs hf hstep
  | finished => cases hstep
  | awaitingExit =>
    obtain ⟨rfl, ⟨hstand, hpump⟩, hlooked, hpacing, hrecorder⟩ := hf
    obtain ⟨e, he, hresult⟩ := Option.map_eq_some_iff.1 hstep
    cases hresult
    exact ⟨_, .single (.exitKnown e hstand he), rfl, ⟨⟨_, rfl⟩, rfl⟩, rfl, hpacing, hrecorder⟩
  | finishing e =>
    obtain ⟨rfl, ⟨hstand, hpump⟩, hlooked, hpacing, hrecorder⟩ := hf
    obtain ⟨t, ht, hsession, htpump, hfree⟩ := Scene.finish_alone h.now hpump hrecorder hpacing
    obtain ⟨hreaches, htrecorder⟩ := reaches_of_pumping i ht
    cases hstep
    exact ⟨_, hreaches, hsession, ⟨hstand, e, htpump⟩, hlooked, hfree, htrecorder.trans hrecorder⟩

/-- A pump that runs. -/
theorem pump_alone (hs : Sound i) (hf : Follows i s p) (fuel : Nat) (did : Bool) :
    ∃ j, i.Reaches j ∧ Follows j (Pump.run settings fuel h s p did).2.1
      (Pump.run settings fuel h s p did).2.2.1 := by
  induction fuel generalizing i h s p did with
  | zero => exact ⟨i, .refl, hf⟩
  | succ fuel ih =>
    unfold Pump.run
    cases hstep : Pump.step? settings h s p with
    | none => exact ⟨i, .refl, hf⟩
    | some r =>
      obtain ⟨h', s', p'⟩ := r
      obtain ⟨j, hj, hjf⟩ := step_alone hs hf hstep
      obtain ⟨k, hk, hkf⟩ := ih (hs.of_reaches hj) hjf true
      exact ⟨k, hj.trans hk, hkf⟩

end Intake

end SessionHost
