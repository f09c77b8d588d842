import SessionHost.Proofs.Scene.Ended

/-!
# Killing a program that has ended by itself

A program ends, the waiter takes its status and then makes it known, and each of the six looks of a
kill may fall before, between or behind these. A kill that sends no signal was too late: the program
had ended by itself, and its own status is what should be recorded.

**The end of a program** goes on one step at a time (`Fate.Next`, `Scene.Step.endStep`), whoever else is
at work, and all that is ever known of it is its one status (`Scene.Watched`).

**Hypothesis** (`Child.Fresh`). When the session starts, nothing is known of the end of its program.

**Results.**
* `KillStage.exit_of_unsent`, `KillStage.exit_of_settle`: what a look decides that sends no signal.
* `Session.exit_kill`: what a kill records that nobody interrupts.
* `kill_without_signal`: a kill without a signal records the status of the program, but for one case:
  its last look comes before the status is made known. Then it records an end by force.
* `kill_between_collection_and_publication`: a run through that case.
-/
namespace SessionHost

/-! ## How the end of a program goes on -/

namespace Fate

/-- The status of a program that has ended, whoever knows it. -/
def exit? : Fate → Option ExitInfo
  | alive => none
  | ended e | collected e | published e => some e

inductive Next : Fate → Fate → Prop where
  | ends (e : ExitInfo) : Next .alive (.ended e)
  | collect (e : ExitInfo) : Next (.ended e) (.collected e)
  | publish (e : ExitInfo) : Next (.collected e) (.published e)

theorem Next.ne_alive {a b : Fate} (h : Next a b) : b ≠ .alive := by
  cases h <;> exact nofun

theorem published_of_published? {f : Fate} {e : ExitInfo} (h : f.published? = some e) :
    f = .published e := by
  cases f <;> cases h
  rfl

theorem exit_of_peek? {f : Fate} {e : ExitInfo} (h : f.peek? = some e) : f.exit? = some e := by
  cases f <;> cases h <;> rfl

end Fate

/-! ## What a look decides -/

namespace KillStage

/-- A kill comes to its last look only when the program has ended. -/
theorem ne_alive_of_settle {fate : Fate} {stage : KillStage} (h : stage.step fate = .goOn .settle) :
    fate ≠ .alive := by
  rintro rfl
  cases stage <;> cases h

/-- Every look but the last decides on the status that it finds. -/
theorem exit_of_unsent {fate : Fate} {stage : KillStage} {e : ExitInfo} (hs : stage ≠ .settle)
    (h : stage.step fate = .decided e false) : fate.exit? = some e := by
  cases stage with
  | settle => exact absurd rfl hs
  | look =>
    simp only [step] at h
    split at h
    · rename_i x hx
      cases h
      rw [Fate.published_of_published? hx]
      rfl
    · cases h
  | peek =>
    simp only [step] at h
    split at h
    · rename_i x hx
      cases h
      exact Fate.exit_of_peek? hx
    · cases h
  | lookAgain | peekAgain | signal =>
    simp only [step] at h
    split at h <;> cases h

/-- The last look decides on the status if everybody knows it, and else takes the end for one by
force. -/
theorem exit_of_settle {fate : Fate} {e x : ExitInfo} (hx : fate.exit? = some x)
    (h : settle.step fate = .decided e false) : e = if fate = .published x then x else byForce := by
  cases fate with
  | published y =>
    cases hx
    cases h
    exact (if_pos rfl).symm
  | alive => cases hx
  | ended y | collected y =>
    cases h
    exact (if_neg nofun).symm

theorem run_of_decided {fate : Fate} {stage : KillStage} {e : ExitInfo} {sent : Bool}
    (h : stage.step fate = .decided e sent) : stage.run fate = (e, sent) := by
  rw [run]
  split <;> simp_all

theorem run_of_goOn {fate : Fate} {stage : KillStage} (next : KillStage)
    (h : stage.step fate = .goOn next) : stage.run fate = next.run fate := by
  rw [run]
  split <;> simp_all

/-- What all looks come to with nothing happening in between: the status that the system tells, and the
end by force if it tells none. That is so for a program that is alive, and for one whose status the
waiter has taken and not made known. -/
theorem run_look (fate : Fate) : (look.run fate).1 = fate.peek?.getD byForce := by
  cases fate with
  | published e => rw [run_of_decided rfl]; rfl
  | ended e => rw [run_of_goOn .peek rfl, run_of_decided rfl]; rfl
  | alive =>
    rw [run_of_goOn .peek rfl, run_of_goOn .lookAgain rfl,
      run_of_goOn .peekAgain rfl, run_of_goOn .signal rfl, run_of_decided rfl]
    rfl
  | collected e =>
    rw [run_of_goOn .peek rfl, run_of_goOn .lookAgain rfl,
      run_of_goOn .peekAgain rfl, run_of_goOn .signal rfl,
      run_of_goOn .settle rfl, run_of_decided rfl]
    rfl

end KillStage

theorem Session.exit_kill (h : Host) (s : Session) (hn : s.exit = none) :
    (s.kill h).2.1.exit = some ((s.child.fate h).peek?.getD KillStage.byForce) := by
  simp only [kill, hn, record, moveTo, Option.getD_none, KillStage.run_look]

/-- A program of whose end nothing is known when its session starts. -/
def Child.Fresh (c : Child) : Prop := c.collected = none ∧ c.published = none

namespace Scene

variable {s t : Scene}

/-! ## Every step leaves the end alone or takes it further -/

theorem hasExited_iff : s.session.child.hasExited = true ↔ ∃ e, s.fate = .published e := by
  unfold Child.hasExited fate Child.fateOf
  constructor
  · intro h
    obtain ⟨e, he⟩ := Option.isSome_iff_exists.1 h
    exact ⟨e, by rw [he]⟩
  · rintro ⟨e, he⟩
    split at he
    · rename_i hp
      rw [hp]
      rfl
    · cases he
    · cases hs : s.ended <;> rw [hs] at he <;> cases he

theorem unpublished_of_fate (h : ∀ e, s.fate ≠ .published e) : s.session.child.published = none := by
  cases hp : s.session.child.published with
  | none => rfl
  | some e =>
    refine absurd ?_ (h e)
    simp [fate, Child.fateOf, hp]

theorem uncollected_of_fate (h : ∀ e, s.fate ≠ .published e) (hc : ∀ e, s.fate ≠ .collected e) :
    s.session.child.collected = none := by
  have hp := unpublished_of_fate h
  cases he : s.session.child.collected with
  | none => rfl
  | some e =>
    refine absurd ?_ (hc e)
    simp [fate, Child.fateOf, hp, he]

theorem fate_ends (h : s.fate = .alive) (e : ExitInfo) :
    Scene.fate { s with ended := some e } = .ended e := by
  have hp : s.session.child.published = none := unpublished_of_fate (by rw [h]; exact nofun)
  have hc : s.session.child.collected = none :=
    uncollected_of_fate (by rw [h]; exact nofun) (by rw [h]; exact nofun)
  simp [fate, Child.fateOf, hp, hc]

/-- The waiter takes the status of the program. -/
def collect (s : Scene) (e : ExitInfo) : Scene :=
  s.withSession { s.session with child := { s.session.child with collected := some e } }

theorem fate_collect {e : ExitInfo} (h : s.fate = .ended e) : (s.collect e).fate = .collected e := by
  have hp : s.session.child.published = none := unpublished_of_fate (by rw [h]; exact nofun)
  simp [fate, collect, withSession, Child.fateOf, hp]

/-- The end of the program is left alone or comes one step further, and what is known of it is its
status. -/
inductive EndStep (s t : Scene) : Prop where
  | same (hf : t.fate = s.fate) (he : t.ended = s.ended)
  | next (hf : s.fate.Next t.fate) (he : s.fate.exit? = s.ended → t.fate.exit? = t.ended)

theorem WorldStep.endStep (h : WorldStep s t) : EndStep s t := by
  cases h with
  | ends e ha =>
    refine .next ?_ fun _ => ?_
    · rw [ha, fate_ends ha]
      exact .ends e
    · rw [fate_ends ha]
      rfl
  | collect e ha =>
    have ht : (s.collect e).fate = .collected e := fate_collect ha
    refine .next ?_ fun hs => ?_
    · change s.fate.Next (s.collect e).fate
      rw [ha, ht]
      exact .collect e
    · rw [ha] at hs
      change (s.collect e).fate.exit? = s.ended
      rw [ht]
      exact hs
  | publish e ha =>
    refine .next ?_ fun hs => ?_
    · rw [ha]
      exact .publish e
    · rw [ha] at hs
      exact hs
  | writer w => exact .same rfl rfl

theorem exists_published (s : Scene) : ∃ t e, s.Between t ∧
    t.session.child.published = some e ∧ t.pump = s.pump := by
  have of_collected : ∀ {s : Scene} {e : ExitInfo}, s.fate = .collected e → ∃ t e, s.Between t ∧
      t.session.child.published = some e ∧ t.pump = s.pump :=
    fun h => ⟨_, _, .single (.world (.publish _ h)), rfl, rfl⟩
  have of_ended : ∀ {s : Scene} {e : ExitInfo}, s.fate = .ended e → ∃ t e, s.Between t ∧
      t.session.child.published = some e ∧ t.pump = s.pump := by
    intro s e h
    obtain ⟨t, x, ht, hx, hp⟩ := of_collected (fate_collect h)
    exact ⟨t, x, .head (.world (.collect e h)) ht, hx, hp⟩
  cases h : s.fate with
  | published e =>
    obtain ⟨x, hx⟩ := Option.isSome_iff_exists.1 (hasExited_iff.2 ⟨e, h⟩)
    exact ⟨s, x, .refl, hx, rfl⟩
  | collected e => exact of_collected h
  | ended e => exact of_ended h
  | alive =>
    obtain ⟨t, x, ht, hx, hp⟩ := of_ended (fate_ends h (.exited 0))
    exact ⟨t, x, .head (.world (.ends _ h)) ht, hx, hp⟩

theorem Step.endStep (h : Step s t) : EndStep s t := by
  cases h with
  | world hw => exact hw.endStep
  | read hr => cases hr <;> exact .same rfl rfl
  | kill hk => cases hk <;> exact .same rfl rfl
  | tell ht => cases ht <;> exact .same rfl rfl
  | send hs =>
    cases hs with
    | exited i paced | closed i paced | move i paced => cases paced <;> exact .same rfl rfl
    | _ => exact .same rfl rfl
  | pump hp =>
    cases hp with
    | move prompt paced => cases paced <;> exact .same rfl rfl
    | finish e f => cases f <;> exact .same rfl rfl
    | _ => exact .same rfl rfl

/-! ## The invariant -/

/-- Whoever takes a last look comes from a look at the same moment, or was there before. -/
theorem Step.settle_of (h : Step s t) {i : Nat} {route : Bool}
    (hi : t.task i = .ending route (.finding .settle)) :
    s.task i = .ending route (.finding .settle) ∨
      t.fate = s.fate ∧ ∃ stage : KillStage, stage.step s.fate = .goOn .settle := by
  have bystander : Bystands s t → s.task i = .ending route (.finding .settle) := by
    intro hb
    rcases hb.task i with he | ⟨-, hu⟩
    · rw [← he, hi]
    · rw [hi] at hu
      cases hu
  cases h with
  | read hr => exact Or.inl (bystander hr.bystands)
  | send hs => exact Or.inl (bystander hs.bystands)
  | world hw => exact Or.inl (bystander hw.bystands)
  | pump hp =>
    rcases hp.bystands_or_ends with hb | ⟨e, rfl⟩ | ⟨e, f, rest, now, -, -, rfl⟩
    · exact Or.inl (bystander hb)
    · exact Or.inl hi
    · exact Or.inl hi
  | tell ht =>
    cases ht with
    | readExit | readState => exact Or.inl hi
    | _ => exact Or.inl (task_of_put hi nofun)
  | kill hk =>
    cases hk with
    | goOn j _ stage next _ hg =>
      by_cases hn : next = .settle
      · exact Or.inr ⟨rfl, stage, hn ▸ hg⟩
      · refine Or.inl (task_of_put hi ?_)
        intro he
        cases he
        exact hn rfl
    | move j route' => cases route' <;> exact Or.inl (task_of_put hi nofun)
    | _ => exact Or.inl (task_of_put hi nofun)

/-- What is known of the end of the program is its status, and a kill takes its last look behind the
end. -/
structure Watched (s : Scene) : Prop where
  exit : s.fate.exit? = s.ended
  settling : ∀ i route, s.task i = .ending route (.finding .settle) → s.fate ≠ .alive

theorem Watched.of_step (h : Watched s) (hst : Step s t) : Watched t := by
  have gone : s.fate ≠ .alive → t.fate ≠ .alive := by
    intro hs
    cases hst.endStep with
    | same hf => rwa [hf]
    | next hf => exact hf.ne_alive
  refine ⟨?exit, fun i route hi => ?settling⟩
  case exit =>
    cases hst.endStep with
    | same hf he => rw [hf, he, h.exit]
    | next _ he => exact he h.exit
  case settling =>
    rcases hst.settle_of hi with hs | ⟨hf, stage, hg⟩
    · exact gone (h.settling i route hs)
    · rw [hf]
      exact KillStage.ne_alive_of_settle hg

theorem watched_start (mode : Mode) {child : Child} (settings : SessionSettings)
    (scratch : Option Host.Path) (h : child.Fresh) : Watched (start mode child settings scratch) where
  exit := by
    have hf : (start mode child settings scratch).fate = .alive := by
      simp [fate, start, Child.fateOf, Session.begin_, Session.moveTo, h.1, h.2]
    rw [hf]
    rfl
  settling i route hi := by cases hi

theorem Watched.of_reaches (h : Watched s) (hr : s.Reaches t) : Watched t :=
  Reaches.keeps (fun _ _ hw hst => Watched.of_step hw hst) hr h

/-! ## What is recorded -/

/-- A kill that decides without a signal has found the status of the program, unless it looked for the
last time before that status was made known. -/
theorem Watched.found (h : Watched s) {i : Nat} {route : Bool} {stage : KillStage} {e : ExitInfo}
    (hi : s.task i = .ending route (.finding stage)) (hd : stage.step s.fate = .decided e false) :
    ∃ x, s.ended = some x ∧
      e = if stage = .settle ∧ s.fate ≠ .published x then KillStage.byForce else x := by
  by_cases hs : stage = .settle
  · subst hs
    obtain ⟨x, hx⟩ : ∃ x, s.fate.exit? = some x := by
      have hne := h.settling i route hi
      cases hf : s.fate with
      | alive => exact absurd hf hne
      | ended x | collected x | published x => exact ⟨x, rfl⟩
    refine ⟨x, by rw [← h.exit, hx], ?_⟩
    rw [KillStage.exit_of_settle hx hd]
    by_cases hp : s.fate = .published x <;> simp [hp]
  · have hx := KillStage.exit_of_unsent hs hd
    exact ⟨e, by rw [← h.exit, hx], by rw [if_neg fun hc => hs hc.1]⟩

/-- A caller who kills has found out how the session ended, and records it. -/
def decided (s : Scene) (i : Nat) (route : Bool) (e : ExitInfo) : Scene :=
  { s with session := s.session.record e, recorder := none }.put i
    (.ending route (.moving (s.session.exit.getD e)))

/-- Whoever is at work beside it, a kill that comes to its end without a signal records the status of
the program, unless its last look comes before that status is made known. -/
theorem kill_without_signal {mode : Mode} {child : Child} {settings : SessionSettings}
    {scratch : Option Host.Path} (fresh : child.Fresh)
    (hr : (start mode child settings scratch).Reaches s) (i : Nat) (route : Bool)
    (stage : KillStage) (e : ExitInfo) (hi : s.task i = .ending route (.finding stage))
    (hd : stage.step s.fate = .decided e false) :
    Step s (s.decided i route e) ∧ ∃ x, s.ended = some x ∧
      ∀ t, (s.decided i route e).Reaches t → t.session.exit =
        some (if stage = .settle ∧ s.fate ≠ .published x then KillStage.byForce else x) := by
  obtain ⟨x, hx, he⟩ := ((watched_start mode settings scratch fresh).of_reaches hr).found hi hd
  refine ⟨.kill (.decide i route stage e false hi hd), x, hx, fun t ht => ?_⟩
  have hnone := (((agreed_start mode child settings scratch).of_reaches hr).of_finding hi).2
  have hrecorded : (s.decided i route e).session.exit = some e := by
    change some (s.session.exit.getD e) = some e
    rw [hnone]
    rfl
  rw [exit_of_reaches ht hrecorded, he]

/-- A program ends by itself behind the first look of a kill. The second sees its status. -/
theorem kill_without_signal_of_zombie :
    ∃ s, quiet.Reaches s ∧ s.fate = .ended (.exited 3) ∧
      ∀ t, (s.decided 0 false (.exited 3)).Reaches t → t.session.exit = some (.exited 3) := by
  have r : quiet.Reaches quiet := .refl
  have r := r.tail (.kill (.call 0 false rfl))
  have r := r.tail (.kill (.enter 0 _ rfl rfl rfl))
  have r := r.tail (.kill (.goOn 0 _ .look .peek rfl rfl))
  have r := r.tail (.world (.ends (.exited 3) rfl))
  obtain ⟨-, x, hx, hkept⟩ := kill_without_signal ⟨rfl, rfl⟩ r 0 false .peek _ rfl rfl
  obtain rfl : ExitInfo.exited 3 = x := Option.some.inj hx
  exact ⟨_, r, rfl, hkept⟩

/-- A program ends by itself and the waiter takes its status. A kill that comes before the waiter makes
it known finds nothing to look at and nothing to send a signal to, and records an end by force. -/
theorem kill_between_collection_and_publication :
    ∃ s, quiet.Reaches s ∧ s.ended = some (.exited 0) ∧ s.fate = .collected (.exited 0) ∧
      s.task 0 = .ending false (.finding .settle) ∧
      KillStage.settle.step s.fate = .decided (.killed 9) false ∧
      Step s (s.decided 0 false (.killed 9)) ∧
      ∀ t, (s.decided 0 false (.killed 9)).Reaches t → t.session.exit = some (.killed 9) := by
  have r : quiet.Reaches quiet := .refl
  have r := r.tail (.world (.ends (.exited 0) rfl))
  have r := r.tail (.world (.collect (.exited 0) rfl))
  have r := r.tail (.kill (.call 0 false rfl))
  have r := r.tail (.kill (.enter 0 _ rfl rfl rfl))
  have r := r.tail (.kill (.goOn 0 _ .look .peek rfl rfl))
  have r := r.tail (.kill (.goOn 0 _ .peek .lookAgain rfl rfl))
  have r := r.tail (.kill (.goOn 0 _ .lookAgain .peekAgain rfl rfl))
  have r := r.tail (.kill (.goOn 0 _ .peekAgain .signal rfl rfl))
  have r := r.tail (.kill (.goOn 0 _ .signal .settle rfl rfl))
  refine ⟨_, r, rfl, rfl, rfl, rfl, ?_, fun t ht => exit_of_reaches ht rfl⟩
  exact .kill (.decide 0 false .settle _ false rfl rfl)

end Scene

end SessionHost
