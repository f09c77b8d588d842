import SessionHost.Proofs.Scene.Ended

/-!
# What is held is let go

The pump and the callers wait for each other in two places: for the pacer, and for whoever finds out how
the session ended. Neither is held by anybody who waits for something else in turn, so each comes free
without the pump taking in more output.

* `Scene.Held`: the pacer is held by those who say so, and by nobody else.
* `Held.exists_pacer_free`, `Agreed.exists_recorder_free`: what is held is let go.
* `exists_at_rest`: whatever the pump is at, it comes to wait for output or has ended the session.
-/
namespace SessionHost

/-- A caller at this point holds the pacer. -/
def Task.holdsPacer : Task → Bool
  | .sending (.offering paced ..) | .sending (.pushing paced ..) | .sending (.moving paced ..) => paced
  | _ => false

/-- The pump at this point holds the pacer. -/
def PumpTask.holdsPacer : PumpTask → Bool
  | .offering .. | .pushing .. => true
  | .moving _ paced => paced
  | _ => false

namespace Scene

variable {s t : Scene}

structure Held (s : Scene) : Prop where
  caller : ∀ i, s.pacing = some (.caller i) ↔ (s.task i).holdsPacer = true
  pump : s.pacing = some .pump ↔ s.pump.holdsPacer = true

theorem held_start (mode : Mode) (child : Child) (settings : SessionSettings)
    (scratch : Option Host.Path) : Held (start mode child settings scratch) where
  caller i := by simp [start, Task.holdsPacer]
  pump := by simp [start, PumpTask.holdsPacer]

/-! ## Taking the pacer and letting it go -/

theorem Held.of_same (h : Held s) (hp : t.pacing = s.pacing)
    (hpump : t.pump.holdsPacer = s.pump.holdsPacer)
    (htask : ∀ j, (t.task j).holdsPacer = (s.task j).holdsPacer) : Held t where
  caller j := by rw [hp, htask]; exact h.caller j
  pump := by rw [hp, hpump]; exact h.pump

theorem holdsPacer_put {i : Nat} {x : Task} (hx : x.holdsPacer = (s.task i).holdsPacer) (j : Nat) :
    ((s.put i x).task j).holdsPacer = (s.task j).holdsPacer := by
  by_cases hj : j = i
  · subst hj
    rw [task_put_self, hx]
  · rw [task_put_of_ne s x hj]

/-- A caller goes on, and holds the pacer if it has held it before. -/
theorem Held.put (h : Held s) {i : Nat} {x : Task} (hp : t.pacing = s.pacing)
    (hpump : t.pump = s.pump) (htask : t.task = s.task)
    (hx : x.holdsPacer = (s.task i).holdsPacer) : Held (t.put i x) := by
  refine h.of_same hp (congrArg _ hpump) fun j => ?_
  rw [← htask] at hx ⊢
  exact holdsPacer_put hx j

/-- The pump goes on, and holds the pacer if it has held it before. -/
theorem Held.of_pump (h : Held s) (hp : t.pacing = s.pacing) (htask : t.task = s.task)
    (hpump : t.pump.holdsPacer = s.pump.holdsPacer) : Held t :=
  h.of_same hp hpump fun j => by rw [htask]

theorem Held.of_free (h : Held s) (free : s.pacing = none) :
    (∀ j, (s.task j).holdsPacer = false) ∧ s.pump.holdsPacer = false := by
  refine ⟨fun j => ?_, ?_⟩
  · rw [Bool.eq_false_iff, Ne, ← h.caller j, free]
    exact nofun
  · rw [Bool.eq_false_iff, Ne, ← h.pump, free]
    exact nofun

theorem Held.take_caller (h : Held s) (free : s.pacing = none) {i : Nat} {x : Task}
    (hp : t.pacing = some (.caller i)) (hpump : t.pump = s.pump) (htask : t.task = s.task)
    (hx : x.holdsPacer = true) : Held (t.put i x) where
  caller j := by
    change t.pacing = _ ↔ _
    rw [hp]
    by_cases hj : j = i
    · subst hj
      rw [task_put_self, hx]
      exact ⟨fun _ => rfl, fun _ => rfl⟩
    · rw [task_put_of_ne t x hj, htask, (h.of_free free).1 j]
      constructor
      · intro he
        cases he
        exact absurd rfl hj
      · exact nofun
  pump := by
    change t.pacing = _ ↔ t.pump.holdsPacer = true
    rw [hp, hpump, (h.of_free free).2]
    exact ⟨nofun, nofun⟩

theorem Held.take_pump (h : Held s) (free : s.pacing = none) (hp : t.pacing = some .pump)
    (htask : t.task = s.task) (hpump : t.pump.holdsPacer = true) : Held t where
  caller j := by
    rw [hp, htask, (h.of_free free).1 j]
    exact ⟨nofun, nofun⟩
  pump := by
    rw [hp, hpump]
    exact ⟨fun _ => rfl, fun _ => rfl⟩

/-- A caller goes on, and lets go of the pacer if it holds it. -/
theorem Held.drop_caller (h : Held s) (paced : Bool) {i : Nat} {x : Task}
    (hi : (s.task i).holdsPacer = paced) (hp : t.pacing = (s.release paced).pacing)
    (hpump : t.pump = s.pump) (htask : t.task = s.task) (hx : x.holdsPacer = false) :
    Held (t.put i x) := by
  cases paced with
  | false => exact h.put hp hpump htask (hx.trans hi.symm)
  | true =>
    have hfree : t.pacing = none := hp
    have hheld := (h.caller i).2 hi
    refine ⟨fun j => ?_, ?_⟩
    · change t.pacing = _ ↔ _
      rw [hfree]
      by_cases hj : j = i
      · subst hj
        rw [task_put_self, hx]
        exact ⟨nofun, nofun⟩
      · rw [task_put_of_ne t x hj, htask, ← h.caller j, hheld]
        constructor
        · exact nofun
        · intro he
          cases he
          exact absurd rfl hj
    · change t.pacing = _ ↔ t.pump.holdsPacer = true
      rw [hfree, hpump, ← h.pump, hheld]
      exact ⟨nofun, nofun⟩

/-- The pump goes on, and lets go of the pacer if it holds it. -/
theorem Held.drop_pump (h : Held s) (paced : Bool) (hs : s.pump.holdsPacer = paced)
    (hp : t.pacing = (s.release paced).pacing) (htask : t.task = s.task)
    (hpump : t.pump.holdsPacer = false) : Held t := by
  cases paced with
  | false => exact h.of_pump hp htask (hpump.trans hs.symm)
  | true =>
    have hfree : t.pacing = none := hp
    have hheld := h.pump.2 hs
    refine ⟨fun j => ?_, ?_⟩
    · rw [hfree, htask, ← h.caller j, hheld]
      exact ⟨nofun, nofun⟩
    · rw [hfree, hpump]
      exact ⟨nofun, nofun⟩

/-! ## Every step -/

theorem Held.of_read (h : Held s) (hst : ReadStep s t) : Held t := by
  cases hst with
  | readSince => exact h.of_same rfl rfl fun _ => rfl
  | takeOwn i route offset saw hi =>
    refine h.put rfl rfl rfl ?_
    rw [hi]
    unfold Task.afterPoll
    split
    · split <;> rfl
    · rfl
  | store i route late p hi =>
    refine h.put rfl rfl rfl ?_
    rw [hi]
    cases p <;> cases route <;> rfl
  | callPoll i _ hi | callPollFrom i _ _ hi => exact h.put rfl rfl rfl (by rw [hi]; rfl)
  | acquire i _ _ hi | look i _ _ _ hi => exact h.put rfl rfl rfl (by rw [hi]; rfl)
  | take i _ _ _ _ _ hi | refuse i _ _ _ _ _ hi => exact h.put rfl rfl rfl (by rw [hi]; rfl)

theorem Held.of_kill (h : Held s) (hst : KillStep s t) : Held t := by
  cases hst with
  | call i _ hi | recorded i _ _ hi | enter i _ hi | answer i _ _ hi =>
    exact h.put rfl rfl rfl (by rw [hi]; rfl)
  | goOn i _ _ _ hi | decide i _ _ _ _ hi => exact h.put rfl rfl rfl (by rw [hi]; rfl)
  | move i route _ hi =>
    refine h.put rfl rfl rfl ?_
    rw [hi]
    cases route <;> rfl

theorem Held.of_tell (h : Held s) (hst : TellStep s t) : Held t := by
  cases hst with
  | readExit | readState => exact h.of_same rfl rfl fun _ => rfl
  | callWait i hi | seeDone i hi | answerWait i hi | callSnapshot i hi =>
    exact h.put rfl rfl rfl (by rw [hi]; rfl)
  | readLength i _ hi | answerSnapshot i _ _ hi | routeState i _ hi | routeExit i _ _ hi =>
    exact h.put rfl rfl rfl (by rw [hi]; rfl)

theorem Held.of_world (h : Held s) (hst : WorldStep s t) : Held t := by
  cases hst <;> exact h.of_same rfl rfl fun _ => rfl

theorem Held.of_send (h : Held s) (hst : SendStep s t) : Held t := by
  cases hst with
  | closeInput => exact h.of_same rfl rfl fun _ => rfl
  | dispatch i _ _ _ _ _ _ _ free => exact h.take_caller free rfl rfl rfl rfl
  | exited i paced _ _ hi | closed i paced _ _ hi =>
    refine h.drop_caller paced (i := i) (by rw [hi]; rfl) rfl ?_ ?_ rfl <;>
      cases paced <;> rfl
  | move i paced _ hi =>
    refine h.drop_caller paced (i := i) (by rw [hi]; rfl) ?_ ?_ ?_ rfl <;>
      cases paced <;> rfl
  | push i paced _ _ _ hi =>
    refine h.put rfl rfl rfl ?_
    rw [hi]
    cases paced <;> rfl
  | submit i payload hi =>
    refine h.put rfl rfl rfl ?_
    rw [hi]
    unfold Session.beginInput
    split <;> rfl
  | write i _ hi | command i _ hi | answer i hi | plain i _ _ hi | refuse i _ _ _ hi =>
    exact h.put rfl rfl rfl (by rw [hi]; rfl)
  | queue i _ _ _ _ hi | check i _ _ hi | tooLate i _ _ hi | offer i _ _ _ hi | note i _ hi =>
    exact h.put rfl rfl rfl (by rw [hi]; rfl)

theorem Held.of_pump_step (h : Held s) (hst : PumpStep s t) : Held t := by
  cases hst with
  | observe _ _ _ _ _ free => exact h.take_pump free rfl rfl rfl
  | dispatch _ _ _ _ _ _ free => exact h.take_pump free rfl rfl rfl
  | move _ paced hp =>
    refine h.drop_pump paced (by rw [hp]; rfl) ?_ ?_ ?_ <;> cases paced <;> rfl
  | arrive _ hp | mark _ hp | plain _ hp | beginFinish _ hp =>
    exact h.of_pump rfl rfl (by rw [hp]; rfl)
  | offer _ _ hp | lost _ _ hp | push _ _ _ hp | closed _ _ hp =>
    exact h.of_pump rfl rfl (by rw [hp]; rfl)
  | stall hp | stalled hp | overtaken hp | finish _ _ _ _ hp =>
    exact h.of_pump rfl rfl (by rw [hp]; rfl)

theorem Held.of_step (h : Held s) (hst : Step s t) : Held t := by
  cases hst with
  | read hr => exact h.of_read hr
  | kill hk => exact h.of_kill hk
  | tell ht => exact h.of_tell ht
  | send hs => exact h.of_send hs
  | pump hp => exact h.of_pump_step hp
  | world hw => exact h.of_world hw

theorem Held.of_reaches (h : Held s) (hr : s.Reaches t) : Held t :=
  Reaches.keeps (fun _ _ hh hst => Held.of_step hh hst) hr h

/-! ## Letting go -/

/-- A caller has let go of the pacer, and nobody else has had a turn. -/
structure LetGo (s t : Scene) (i : Nat) : Prop where
  pacing : t.pacing = none
  pump : t.pump = s.pump
  others : ∀ j, j ≠ i → t.task j = s.task j

theorem letGo_put {i : Nat} {x : Task} (hp : t.pacing = none) (hpump : t.pump = s.pump)
    (htask : ∀ j, j ≠ i → t.task j = s.task j) : LetGo s (t.put i x) i where
  pacing := hp
  pump := hpump
  others j hj := by rw [task_put_of_ne t x hj, htask j hj]

theorem LetGo.of_put {u : Scene} {i : Nat} {x : Task} (h : LetGo (u.put i x) t i)
    (hpump : u.pump = s.pump) (htask : u.task = s.task) : LetGo s t i where
  pacing := h.pacing
  pump := h.pump.trans hpump
  others j hj := by rw [h.others j hj, task_put_of_ne u x hj, htask]

theorem exists_letGo_of_moving {i : Nat} {rest : List String}
    (hi : s.task i = .sending (.moving true rest)) : ∃ t, s.Between t ∧ LetGo s t i :=
  ⟨_, .single (.send (.move i true rest hi)), letGo_put rfl rfl fun _ _ => rfl⟩

theorem exists_letGo_of_pushing {i : Nat} {bytes : Bytes} {rest : List String}
    (hi : s.task i = .sending (.pushing true bytes rest)) : ∃ t, s.Between t ∧ LetGo s t i := by
  cases hq : s.session.child.input.send? bytes with
  | none =>
    exact ⟨_, .single (.send (.closed i true bytes rest hi hq)), letGo_put rfl rfl fun _ _ => rfl⟩
  | some input =>
    have hst := StepBetween.send (.push i true bytes rest input hi hq)
    obtain ⟨t, ht, hgo⟩ := exists_letGo_of_moving (task_put_self ..)
    exact ⟨t, .head hst ht, hgo.of_put rfl rfl⟩

theorem exists_letGo_of_offering {i : Nat} {bytes : Bytes} {rest : List String}
    (hi : s.task i = .sending (.offering true bytes rest)) : ∃ t, s.Between t ∧ LetGo s t i := by
  cases he : s.session.child.hasExited with
  | true =>
    exact ⟨_, .single (.send (.exited i true bytes rest hi he)), letGo_put rfl rfl fun _ _ => rfl⟩
  | false =>
    have hst := StepBetween.send (.offer i true bytes rest hi he)
    obtain ⟨t, ht, hgo⟩ := exists_letGo_of_pushing (task_put_self ..)
    exact ⟨t, .head hst ht, hgo.of_put rfl rfl⟩

theorem exists_letGo {i : Nat} (hi : (s.task i).holdsPacer = true) :
    ∃ t, s.Between t ∧ LetGo s t i := by
  unfold Task.holdsPacer at hi
  split at hi
  case h_1 hs => subst hi; exact exists_letGo_of_offering hs
  case h_2 hs => subst hi; exact exists_letGo_of_pushing hs
  case h_3 hs => subst hi; exact exists_letGo_of_moving hs
  case h_4 => cases hi

theorem exists_settled (hp : s.pump.holdsPacer = true) :
    ∃ t, s.Pumping t ∧ t.pump = .reading ∧ t.pacing = none := by
  have of_moving : ∀ {u : Scene} {prompt : PromptState}, u.pump = .moving prompt true →
      ∃ t, u.Pumping t ∧ t.pump = .reading ∧ t.pacing = none := by
    intro u prompt hu
    obtain ⟨t, ht, -, hpump, -, hfree⟩ := settle_alone hu nofun
    exact ⟨t, ht, hpump, hfree⟩
  cases hs : s.pump with
  | moving prompt paced =>
    rw [hs] at hp
    obtain rfl : paced = true := hp
    exact of_moving hs
  | offering bytes prompt =>
    obtain ⟨u, hu, hupump, -⟩ := offer_alone hs
    obtain ⟨t, ht, hpump, hfree⟩ := of_moving hupump
    exact ⟨t, hu.trans ht, hpump, hfree⟩
  | pushing bytes prompt =>
    have busy : s.pump ≠ .reading := by rw [hs]; exact nofun
    cases hq : s.session.child.input.send? bytes with
    | none =>
      obtain ⟨t, ht, hpump, hfree⟩ := of_moving (u := { s with pump := .moving prompt true }) rfl
      exact ⟨t, .head ⟨busy, .closed bytes prompt hs hq⟩ ht, hpump, hfree⟩
    | some input =>
      obtain ⟨u, hst, hu⟩ : ∃ u, PumpStep s u ∧ u.pump = .moving prompt true :=
        ⟨_, .push bytes prompt input hs hq, rfl⟩
      obtain ⟨t, ht, hpump, hfree⟩ := of_moving hu
      exact ⟨t, .head ⟨busy, hst⟩ ht, hpump, hfree⟩
  | reading | marking | reacting | stalling | finishing =>
    rw [hs] at hp
    cases hp

/-- Whoever holds the pacer lets go of it. -/
theorem Held.exists_pacer_free (h : Held s) : ∃ t, s.Between t ∧ t.pacing = none ∧
    (s.pump.holdsPacer = false → t.pump = s.pump) ∧
    ∀ j, (s.task j).holdsPacer = false → t.task j = s.task j := by
  cases hp : s.pacing with
  | none => exact ⟨s, .refl, hp, fun _ => rfl, fun _ _ => rfl⟩
  | some party =>
    cases party with
    | pump =>
      have hholds := h.pump.1 hp
      obtain ⟨t, ht, -, hfree⟩ := exists_settled hholds
      refine ⟨t, ht.between, hfree, ?_, fun j _ => by rw [ht.same.1]⟩
      rw [hholds]
      exact nofun
    | caller i =>
      have hholds := (h.caller i).1 hp
      obtain ⟨t, ht, hgo⟩ := exists_letGo hholds
      refine ⟨t, ht, hgo.pacing, fun _ => hgo.pump, fun j hj => hgo.others j ?_⟩
      rintro rfl
      rw [hholds] at hj
      cases hj

/-- Whoever finds out how the session ended comes to know it. -/
theorem Agreed.exists_recorder_free (h : Agreed s) :
    ∃ t, s.Between t ∧ t.recorder = none ∧ t.pump = s.pump := by
  cases hr : s.recorder with
  | none => exact ⟨s, .refl, hr, rfl⟩
  | some i =>
    have hfinding := (h.recorder i).1 hr
    unfold Task.isFinding at hfinding
    split at hfinding
    · rename_i route stage hi
      obtain ⟨t, ht, hsession, -, -, hpump, -⟩ := find_alone hi
      refine ⟨t, ht, ?_, hpump⟩
      by_contra hne
      have hnone := (h.of_reaches ht.reaches).unrecorded hne
      rw [hsession] at hnone
      cases hnone
    · cases hfinding

/-! ## The pump comes to rest -/

/-- The pump waits for output, or has ended the session. -/
def AtRest (s : Scene) : Prop := s.pump = .reading ∨ ∃ e, s.pump = .finishing e []

variable {e : ExitInfo} {steps : List FinishStep}

theorem exists_finished {s : Scene} (hh : Held s) (ha : Agreed s) (hp : s.pump = .finishing e steps) :
    ∃ t, s.Between t ∧ t.pump = .finishing e [] := by
  induction steps generalizing s with
  | nil => exact ⟨s, .refl, hp⟩
  | cons f rest ih =>
    have step : ∀ {u : Scene}, s.Between u → u.pump = s.pump → (f = .record → u.recorder = none) →
        (f = .closePacer → u.pacing = none) → ∃ t, s.Between t ∧ t.pump = .finishing e [] := by
      intro u hu hpump hr hc
      have hupump := hpump.trans hp
      have hst := PumpStep.finish e f rest 0 hupump hr hc
      have hbetween : s.Between _ := hu.tail (.pump (by rw [hupump]; exact nofun) hst)
      have hreaches := hbetween.reaches
      obtain ⟨t, ht, htpump⟩ := ih (hh.of_reaches hreaches) (ha.of_reaches hreaches) rfl
      exact ⟨t, hbetween.trans ht, htpump⟩
    cases f with
    | record =>
      obtain ⟨u, hu, hfree, hpump⟩ := ha.exists_recorder_free
      exact step hu hpump (fun _ => hfree) nofun
    | closePacer =>
      obtain ⟨u, hu, hfree, hpump, -⟩ := hh.exists_pacer_free
      exact step hu (hpump (by rw [hp]; rfl)) nofun fun _ => hfree
    | move | sealLog | closeInput | releaseSlot | stamp | announce => exact step .refl rfl nofun nofun

/-- A chunk that the pump has taken in is shown to the pacer. -/
theorem exists_rest_of_reacting {s : Scene} {chunk : Bytes} (hh : Held s)
    (hp : s.pump = .reacting chunk) : ∃ t, s.Between t ∧ t.pump = .reading := by
  obtain ⟨u, hu, hfree, hpump, -⟩ := hh.exists_pacer_free
  have hupump := (hpump (by rw [hp]; rfl)).trans hp
  cases hpacer : u.session.pacer with
  | none =>
    have hst := PumpStep.plain chunk hupump hpacer
    have hu := hu.tail (.pump (by rw [hupump]; exact nofun) hst)
    exact ⟨_, hu.tail (.pump nofun (.move .busy false rfl)), rfl⟩
  | some p =>
    obtain ⟨t, ht, -, htpump, -⟩ := observe_alone hupump hpacer hfree
    exact ⟨t, hu.trans ht.between, htpump⟩

/-- Whatever the pump is at, it comes to an end with it. -/
theorem exists_at_rest (hh : Held s) (ha : Agreed s) : ∃ t, s.Between t ∧ t.AtRest := by
  have busy : ∀ {p : PumpTask}, s.pump = p → p ≠ .reading → s.pump ≠ .reading := by
    intro p hp hne
    rwa [hp]
  cases hp : s.pump with
  | reading => exact ⟨s, .refl, Or.inl hp⟩
  | finishing e steps =>
    obtain ⟨t, ht, htpump⟩ := exists_finished hh ha hp
    exact ⟨t, ht, Or.inr ⟨e, htpump⟩⟩
  | reacting chunk =>
    obtain ⟨t, ht, htpump⟩ := exists_rest_of_reacting hh hp
    exact ⟨t, ht, Or.inl htpump⟩
  | marking chunk =>
    have hst := StepBetween.pump (busy hp nofun) (.mark chunk hp)
    obtain ⟨t, ht, htpump⟩ := exists_rest_of_reacting (hh.of_step hst.step) rfl
    exact ⟨t, .head hst ht, Or.inl htpump⟩
  | offering | pushing =>
    obtain ⟨t, ht, htpump, -⟩ := exists_settled (s := s) (by rw [hp]; rfl)
    exact ⟨t, ht.between, Or.inl htpump⟩
  | moving prompt paced =>
    refine ⟨_, .single (.pump (busy hp nofun) (.move prompt paced hp)), Or.inl ?_⟩
    cases paced <;> rfl
  | stalling =>
    cases he : s.session.child.hasExited with
    | true => exact ⟨_, .single (.pump (busy hp nofun) (.overtaken hp he)), Or.inl rfl⟩
    | false =>
      have hst := StepBetween.pump (busy hp nofun) (.stalled hp he)
      exact ⟨_, .tail (.single hst) (.pump nofun (.move .idle false rfl)), Or.inl rfl⟩

end Scene

end SessionHost
