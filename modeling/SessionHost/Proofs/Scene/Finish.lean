import Mathlib.Data.List.Basic
import SessionHost.Proofs.Scene.Ended

/-!
# The end of a session, step by step

The pump ends a session in eight steps, and anybody may act between two of them. Each step leaves a mark
on the session (`FinishStep.Mark`), which is never taken away again. Some of these marks are left by the
pump alone (`FinishStep.IsOwn`): they tell how far the pump has come.

* `Step.undisturbed_or_finishes`: a step is one of those of the end, or takes none of its marks away and
  leaves none of the pump's own.
* `Scene.Closing`: every mark is there when the pump is past its step, and the marks of the pump's own
  only then.
-/
namespace SessionHost

/-! ## What the end changes, and nobody else takes back -/

namespace Pacer

/-- Only an open pacer takes a command, and it stays open. -/
theorem closed_of_send {p p' : Pacer} {line : String} {out : Option Bytes}
    (h : p.send line = some (p', out)) : p.closed = false ∧ p'.closed = false := by
  unfold send at h
  split at h
  · cases h
  · rename_i ho
    have hopen : p.closed = false := by simpa using ho
    have hp := congrArg Prod.fst (Option.some.inj h)
    refine ⟨hopen, ?_⟩
    rw [← show _ = p' from hp, closed_dispatch]
    exact hopen

@[simp] theorem closed_observe (p : Pacer) (chunk : Bytes) : (p.observe chunk).1.closed = p.closed := by
  unfold observe
  split
  · rfl
  · dsimp only
    split
    · rw [closed_dispatch]
    · rfl

theorem send_eq_none_iff {p : Pacer} {line : String} : p.send line = none ↔ p.closed = true := by
  unfold send
  split <;> simp_all

end Pacer

namespace InputChannel

@[simp] theorem accepting_take (c : InputChannel) (w : WriterStep) :
    (c.take w).accepting = c.accepting := by
  unfold take step?
  cases w <;> dsimp only <;> repeat' split
  all_goals rfl

/-- The writer may leave and never comes back. -/
theorem isOpen_take {c : InputChannel} {w : WriterStep} (h : c.isOpen = false) :
    (c.take w).isOpen = false := by
  revert h
  unfold take step? isOpen
  cases w <;> dsimp only <;> repeat' split
  all_goals simp_all

/-- Only an open channel takes a payload, and it stays open. -/
theorem of_send {c c' : InputChannel} {bs : Bytes} (h : c.send? bs = some c') :
    c'.accepting = c.accepting ∧ c.isOpen = true ∧ c'.isOpen = true := by
  unfold send? at h
  split at h
  · rename_i ho
    cases h
    exact ⟨rfl, ho, ho⟩
  · cases h

theorem send_eq_none {c : InputChannel} {bs : Bytes} (h : c.isOpen = false) : c.send? bs = none := by
  unfold send?
  rw [h]
  rfl

end InputChannel

namespace FinishStep

/-- What a step of the end leaves behind. -/
def Mark (s : Session) : FinishStep → Prop
  | record => ∃ e, s.exit = some e
  | move => s.state.isTerminal = true
  | sealLog => s.log.closed = true
  | closePacer => ∀ p, s.pacer = some p → p.closed = true
  | closeInput => s.child.input.accepting = false
  | releaseSlot => s.holdsSlot = false
  | stamp => ∃ at_, s.finishedAt = some at_
  | announce => s.done = true

def IsOwn (s : Session) : FinishStep → Prop
  | sealLog | releaseSlot | stamp | announce => True
  | closePacer => ∃ p, s.pacer = some p
  | record | move | closeInput => False

theorem nodup_all : all.Nodup := by decide

def rank (f : FinishStep) : Nat := all.idxOf f

theorem mem_all (f : FinishStep) : f ∈ all := by cases f <;> decide

theorem not_mem_of_le {steps : List FinishStep} (hs : steps <:+ all) {f g : FinishStep}
    (hle : g.rank ≤ f.rank) (hf : f ∉ steps) : g ∉ steps := by
  obtain ⟨taken, htaken⟩ := hs
  intro hg
  have hnodup := nodup_all
  rw [← htaken] at hnodup
  have hfresh : g ∉ taken := fun hmem => (List.nodup_append.1 hnodup).2.2 g hmem g hg rfl
  have hmem : f ∈ taken := by
    have := mem_all f
    rw [← htaken] at this
    exact (List.mem_append.1 this).resolve_right hf
  unfold rank at hle
  rw [← htaken, List.idxOf_append_of_mem hmem, List.idxOf_append_of_notMem hfresh] at hle
  have := List.idxOf_lt_length_of_mem hmem
  omega

end FinishStep

namespace Scene

variable {s t : Scene}

/-- The pump has taken this step of the end. -/
def Past (s : Scene) (f : FinishStep) : Prop :=
  ∃ e steps, s.pump = .finishing e steps ∧ f ∉ steps

/-- Nothing happens that concerns the marks of the pump, and the pump goes on with the end from its
beginning, or not at all. -/
structure Undisturbed (s t : Scene) : Prop where
  mode : t.session.mode = s.session.mode
  sealed : t.session.log.closed = s.session.log.closed
  pacer : t.session.pacer.map (·.closed) = s.session.pacer.map (·.closed)
  input : s.session.child.input.accepting = false → t.session.child.input.accepting = false
  shut : s.session.child.input.isOpen = false → t.session.child.input.isOpen = false
  slot : t.session.holdsSlot = s.session.holdsSlot
  stamp : t.session.finishedAt = s.session.finishedAt
  done : t.session.done = s.session.done
  pump : t.pump = s.pump ∨ (∀ e steps, s.pump ≠ .finishing e steps) ∧
    ∀ e steps, t.pump = .finishing e steps → steps = FinishStep.all

theorem Undisturbed.of_session (h : t.session = s.session) (hp : t.pump = s.pump) :
    Undisturbed s t := by
  refine ⟨?_, ?_, ?_, ?_, ?_, ?_, ?_, ?_, Or.inl hp⟩
  all_goals rw [h]
  all_goals exact id

theorem ReadStep.undisturbed (h : ReadStep s t) : Undisturbed s t := by
  cases h with
  | store => exact ⟨rfl, rfl, rfl, id, id, rfl, rfl, rfl, Or.inl rfl⟩
  | _ => exact .of_session rfl rfl

theorem KillStep.undisturbed (h : KillStep s t) : Undisturbed s t := by
  cases h with
  | decide | move => exact ⟨rfl, rfl, rfl, id, id, rfl, rfl, rfl, Or.inl rfl⟩
  | _ => exact .of_session rfl rfl

theorem TellStep.undisturbed (h : TellStep s t) : Undisturbed s t := by
  cases h <;> exact .of_session rfl rfl

theorem WorldStep.undisturbed (h : WorldStep s t) : Undisturbed s t := by
  cases h with
  | writer w =>
    refine ⟨rfl, rfl, rfl, fun hc => ?_, fun hc => ?_, rfl, rfl, rfl, Or.inl rfl⟩
    · exact (InputChannel.accepting_take ..).trans hc
    · exact InputChannel.isOpen_take hc
  | _ => exact ⟨rfl, rfl, rfl, id, id, rfl, rfl, rfl, Or.inl rfl⟩

theorem SendStep.undisturbed (h : SendStep s t) : Undisturbed s t := by
  cases h with
  | queue i line rest p p' _ hp _ hs | dispatch i line rest p p' _ _ hp _ hs =>
    obtain ⟨hopen, hopen'⟩ := Pacer.closed_of_send hs
    refine ⟨rfl, rfl, ?_, id, id, rfl, rfl, rfl, Or.inl rfl⟩
    change some p'.closed = s.session.pacer.map (·.closed)
    rw [hp, Option.map_some, hopen, hopen']
  | push i paced bytes rest input _ hi =>
    obtain ⟨haccepting, hopen⟩ := InputChannel.of_send hi
    refine ⟨rfl, rfl, rfl, haccepting.trans, fun hc => ?_, rfl, rfl, rfl, Or.inl rfl⟩
    rw [hopen.1] at hc
    cases hc
  | closeInput =>
    exact ⟨rfl, rfl, rfl, fun _ => rfl, fun _ => Bool.and_false _, rfl, rfl, rfl, Or.inl rfl⟩
  | exited i paced | closed i paced => cases paced <;> exact .of_session rfl rfl
  | move i paced => cases paced <;> exact ⟨rfl, rfl, rfl, id, id, rfl, rfl, rfl, Or.inl rfl⟩
  | note => exact ⟨rfl, rfl, rfl, id, id, rfl, rfl, rfl, Or.inl rfl⟩
  | _ => exact .of_session rfl rfl

/-- The pump goes on that does not end the session yet. -/
theorem PumpStep.undisturbed_or_finishes (h : PumpStep s t) : Undisturbed s t ∨
    ∃ e f rest now, s.pump = .finishing e (f :: rest) ∧
      t = { s with session := f.apply e now s.session, pump := .finishing e rest } := by
  have working : ∀ {p q : PumpTask}, s.pump = p → (∀ e steps, p ≠ .finishing e steps) →
      (∀ e steps, q = .finishing e steps → steps = FinishStep.all) →
        q = s.pump ∨ (∀ e steps, s.pump ≠ .finishing e steps) ∧
          ∀ e steps, q = .finishing e steps → steps = FinishStep.all :=
    fun hp hn hq => Or.inr ⟨by rw [hp]; exact hn, hq⟩
  cases h with
  | finish e f rest now hp => exact Or.inr ⟨e, f, rest, now, hp, rfl⟩
  | beginFinish e hp =>
    exact Or.inl ⟨rfl, rfl, rfl, id, id, rfl, rfl, rfl, working hp nofun fun _ _ h => by cases h; rfl⟩
  | arrive chunk hp =>
    exact Or.inl ⟨rfl, OutputLog.closed_append .., rfl, id, id, rfl, rfl, rfl, working hp nofun nofun⟩
  | observe chunk p p' hp hpacer _ ho | dispatch chunk p p' _ hp hpacer _ ho =>
    refine Or.inl ⟨rfl, rfl, ?_, id, id, rfl, rfl, rfl, working hp nofun nofun⟩
    have hsame : p'.closed = p.closed := by rw [← Pacer.closed_observe p chunk, ho]
    change some p'.closed = s.session.pacer.map (·.closed)
    rw [hpacer, Option.map_some, hsame]
  | push bytes prompt input hp hi =>
    obtain ⟨haccepting, hopen⟩ := InputChannel.of_send hi
    refine Or.inl ⟨rfl, rfl, rfl, haccepting.trans, fun hc => ?_, rfl, rfl, rfl,
      working hp nofun nofun⟩
    rw [hopen.1] at hc
    cases hc
  | move prompt paced hp =>
    cases paced <;>
      exact Or.inl ⟨rfl, rfl, rfl, id, id, rfl, rfl, rfl, working hp nofun nofun⟩
  | mark chunk hp | plain chunk hp =>
    exact Or.inl ⟨rfl, rfl, rfl, id, id, rfl, rfl, rfl, working hp nofun nofun⟩
  | offer bytes prompt hp | lost bytes prompt hp | closed bytes prompt hp =>
    exact Or.inl ⟨rfl, rfl, rfl, id, id, rfl, rfl, rfl, working hp nofun nofun⟩
  | stall hp | stalled hp | overtaken hp =>
    exact Or.inl ⟨rfl, rfl, rfl, id, id, rfl, rfl, rfl, working hp nofun nofun⟩

theorem Step.undisturbed_or_finishes (h : Step s t) : Undisturbed s t ∨
    ∃ e f rest now, s.pump = .finishing e (f :: rest) ∧
      t = { s with session := f.apply e now s.session, pump := .finishing e rest } := by
  cases h with
  | read h => exact Or.inl h.undisturbed
  | kill h => exact Or.inl h.undisturbed
  | tell h => exact Or.inl h.undisturbed
  | send h => exact Or.inl h.undisturbed
  | world h => exact Or.inl h.undisturbed
  | pump h => exact h.undisturbed_or_finishes

/-! ## Marks stay -/

theorem Undisturbed.mark (h : Undisturbed s t) (ho : Onward s t) {f : FinishStep}
    (hf : f.Mark s.session) : f.Mark t.session := by
  cases f with
  | record =>
    obtain ⟨e, he⟩ := hf
    exact ⟨e, ho.exit e he⟩
  | move =>
    have ht : s.session.state.isTerminal = true := hf
    exact (congrArg SessionState.isTerminal (ho.terminal ht)).trans ht
  | sealLog => exact h.sealed.trans hf
  | closePacer =>
    intro p hp
    have hmap := h.pacer
    rw [hp] at hmap
    cases hs : s.session.pacer with
    | none => rw [hs] at hmap; cases hmap
    | some q =>
      rw [hs] at hmap
      exact (Option.some.inj hmap).trans (hf q hs)
  | closeInput => exact h.input hf
  | releaseSlot => exact h.slot.trans hf
  | stamp =>
    obtain ⟨at_, hat⟩ := hf
    exact ⟨at_, h.stamp.trans hat⟩
  | announce => exact h.done.trans hf

theorem mark_apply_of_mark (s : Scene) (e : ExitInfo) (f : FinishStep) (now : Nat) {g : FinishStep}
    (h : g.Mark s.session) : g.Mark (f.apply e now s.session) := by
  have ho := onward_apply s e f now s.pump
  cases g with
  | record =>
    obtain ⟨x, hx⟩ := h
    exact ⟨x, ho.exit x hx⟩
  | move => exact (congrArg SessionState.isTerminal (ho.terminal h)).trans h
  | closePacer =>
    cases f with
    | closePacer =>
      intro p hp
      obtain ⟨q, -, rfl⟩ := Option.map_eq_some_iff.1 hp
      rfl
    | _ => exact h
  | stamp =>
    cases f with
    | stamp => exact ⟨now, rfl⟩
    | _ => exact h
  | sealLog | closeInput | releaseSlot | announce =>
    cases f <;> first | exact h | exact rfl

theorem mark_apply_self {s : Scene} (h : Agreed s) {e : ExitInfo} {f : FinishStep}
    {rest : List FinishStep} (now : Nat) (hp : s.pump = .finishing e (f :: rest))
    (hsuffix : f :: rest <:+ FinishStep.all) : f.Mark (f.apply e now s.session) := by
  cases f with
  | record => exact ⟨_, rfl⟩
  | move =>
    obtain ⟨x, hx⟩ := h.passed e _ hp nofun
    have hfits : s.session.state.Fits (some x) := by rw [← hx]; exact h.fits
    change (s.session.state.moveTo (s.session.exit.getD e).terminalState).isTerminal = true
    rw [hx, Option.getD_some, hfits.moveTo_terminalState h.begun]
    exact x.isTerminal_terminalState
  | closePacer =>
    intro p hpacer
    obtain ⟨q, -, rfl⟩ := Option.map_eq_some_iff.1 hpacer
    rfl
  | stamp => exact ⟨now, rfl⟩
  | sealLog | closeInput | releaseSlot | announce => rfl

theorem Undisturbed.mark_of_own (h : Undisturbed s t) {f : FinishStep} (hown : f.IsOwn t.session)
    (hf : f.Mark t.session) : f.IsOwn s.session ∧ f.Mark s.session := by
  cases f with
  | record | move | closeInput => exact hown.elim
  | sealLog => exact ⟨trivial, h.sealed.symm.trans hf⟩
  | releaseSlot => exact ⟨trivial, h.slot.symm.trans hf⟩
  | announce => exact ⟨trivial, h.done.symm.trans hf⟩
  | stamp =>
    obtain ⟨at_, hat⟩ := hf
    exact ⟨trivial, at_, h.stamp.symm.trans hat⟩
  | closePacer =>
    obtain ⟨p, hp⟩ := hown
    have hmap := h.pacer
    rw [hp, Option.map_some, hf p hp] at hmap
    obtain ⟨q, hq, hclosed⟩ := Option.map_eq_some_iff.1 hmap.symm
    refine ⟨⟨q, hq⟩, fun r hr => ?_⟩
    rw [← Option.some.inj (hq.symm.trans hr)]
    exact hclosed

/-- A step of the end leaves no mark of the pump but its own. -/
theorem mark_of_mark_apply {e : ExitInfo} {f g : FinishStep} {now : Nat} {x : Session}
    (hown : g.IsOwn x) (h : g.Mark (f.apply e now x)) : g.Mark x ∨ g = f := by
  cases g with
  | record | move | closeInput => exact hown.elim
  | sealLog | closePacer | releaseSlot | stamp | announce =>
    cases f <;> first | exact Or.inr rfl | exact Or.inl h

/-! ## How far the end has come -/

structure Closing (s : Scene) : Prop where
  steps : ∀ e steps, s.pump = .finishing e steps → steps <:+ FinishStep.all
  marked : ∀ f, s.Past f → f.Mark s.session
  own : ∀ f : FinishStep, f.IsOwn s.session → f.Mark s.session → s.Past f

theorem isOwn_of_apply {e : ExitInfo} {f g : FinishStep} {now : Nat} {x : Session}
    (h : g.IsOwn (f.apply e now x)) : g.IsOwn x := by
  cases g with
  | closePacer =>
    obtain ⟨p, hp⟩ := h
    cases f with
    | closePacer =>
      obtain ⟨q, hq, -⟩ := Option.map_eq_some_iff.1 hp
      exact ⟨q, hq⟩
    | _ => exact ⟨p, hp⟩
  | _ => exact h

theorem closing_start (mode : Mode) (child : Child) (settings : SessionSettings)
    (scratch : Option Host.Path) : Closing (start mode child settings scratch) where
  steps e steps h := by cases h
  marked f h := by
    obtain ⟨e, steps, h, -⟩ := h
    cases h
  own f hown hf := by
    cases f with
    | record | move | closeInput => exact hown.elim
    | sealLog | releaseSlot | announce => cases hf
    | stamp => obtain ⟨_, h⟩ := hf; cases h
    | closePacer =>
      obtain ⟨p, hp⟩ := hown
      have hopen : p.closed = false := by
        simp only [start, Session.moveTo, Session.begin_] at hp
        split at hp <;> cases hp
        rfl
      rw [hf p hp] at hopen
      cases hopen

theorem Past.of_pump_eq {f : FinishStep} (h : s.Past f) (hp : t.pump = s.pump) : t.Past f := by
  obtain ⟨e, steps, hs, hf⟩ := h
  exact ⟨e, steps, hp.trans hs, hf⟩

/-- Who is at work beside the end does not take it further. -/
theorem Undisturbed.past_iff (h : Undisturbed s t) {f : FinishStep} : t.Past f ↔ s.Past f := by
  rcases h.pump with he | ⟨hn, hall⟩
  · exact ⟨fun hf => hf.of_pump_eq he.symm, fun hf => hf.of_pump_eq he⟩
  constructor
  · rintro ⟨e, steps, hs, hf⟩
    rw [hall e steps hs] at hf
    exact absurd (by cases f <;> decide) hf
  · rintro ⟨e, steps, hs, -⟩
    exact absurd hs (hn e steps)

theorem past_iff_of_finish {e : ExitInfo} {f g : FinishStep} {rest : List FinishStep} {x : Session}
    (hp : s.pump = .finishing e (f :: rest)) (hsuffix : f :: rest <:+ FinishStep.all) :
    Past { s with session := x, pump := .finishing e rest } g ↔ s.Past g ∨ g = f := by
  have hnodup := FinishStep.nodup_all.sublist hsuffix.sublist
  constructor
  · rintro ⟨e', steps, hs, hg⟩
    cases hs
    by_cases hgf : g = f
    · exact Or.inr hgf
    · exact Or.inl ⟨e, f :: rest, hp, by simp [hgf, hg]⟩
  · rintro (⟨e', steps, hs, hg⟩ | rfl)
    · rw [hp] at hs
      cases hs
      exact ⟨e, rest, rfl, fun hmem => hg (List.mem_cons_of_mem _ hmem)⟩
    · exact ⟨e, rest, rfl, (List.nodup_cons.1 hnodup).1⟩

/-- The pump takes the steps of the end in their order. -/
theorem Closing.past_of_le (h : Closing s) {f g : FinishStep} (hle : g.rank ≤ f.rank)
    (hf : s.Past f) : s.Past g := by
  obtain ⟨e, steps, hp, hn⟩ := hf
  exact ⟨e, steps, hp, FinishStep.not_mem_of_le (h.steps e steps hp) hle hn⟩

/-- Whoever sees a mark of the pump's own sees the marks of all steps before it. -/
theorem Closing.mark_of_le (h : Closing s) {f g : FinishStep} (hle : g.rank ≤ f.rank)
    (hown : f.IsOwn s.session) (hf : f.Mark s.session) : g.Mark s.session :=
  h.marked g (h.past_of_le hle (h.own f hown hf))

theorem Closing.of_step (h : Closing s) (ha : Agreed s) (hst : Step s t) : Closing t := by
  rcases hst.undisturbed_or_finishes with hu | ⟨e, f, rest, now, hp, rfl⟩
  · refine ⟨?steps, fun f hf => hu.mark hst.onward (h.marked f (hu.past_iff.1 hf)), ?own⟩
    case steps =>
      intro e steps hs
      rcases hu.pump with he | ⟨-, hall⟩
      · exact h.steps e steps (he.symm.trans hs)
      · obtain rfl := hall e steps hs
        exact List.suffix_refl _
    case own =>
      intro f hown hf
      obtain ⟨hown, hf⟩ := hu.mark_of_own hown hf
      exact hu.past_iff.2 (h.own f hown hf)
  · have hsuffix := h.steps e _ hp
    refine ⟨?steps, ?marked, ?own⟩
    case steps =>
      intro e' steps hs
      cases hs
      exact (List.suffix_cons f rest).trans hsuffix
    case marked =>
      intro g hg
      rcases (past_iff_of_finish hp hsuffix).1 hg with hg | rfl
      · exact mark_apply_of_mark s e f now (h.marked g hg)
      · exact mark_apply_self ha now hp hsuffix
    case own =>
      intro g hown hg
      refine (past_iff_of_finish hp hsuffix).2 ?_
      have hown := isOwn_of_apply hown
      exact (mark_of_mark_apply hown hg).imp (h.own g hown) id

theorem closing_of_reaches {mode : Mode} {child : Child} {settings : SessionSettings}
    {scratch : Option Host.Path} (h : (start mode child settings scratch).Reaches s) : Closing s := by
  have hboth : Closing s ∧ Agreed s := by
    refine Reaches.keeps (P := fun s => Closing s ∧ Agreed s) ?_ h
      ⟨closing_start .., agreed_start ..⟩
    exact fun _ _ hc hst => ⟨hc.1.of_step hc.2 hst, hc.2.of_step hst⟩
  exact hboth.1

theorem Step.mark (h : Step s t) {f : FinishStep} (hf : f.Mark s.session) : f.Mark t.session := by
  rcases h.undisturbed_or_finishes with hu | ⟨e, g, rest, now, -, rfl⟩
  · exact hu.mark h.onward hf
  · exact mark_apply_of_mark s e g now hf

/-- A session keeps its mode, and a debugger session its pacer. -/
theorem Step.mode (h : Step s t) : t.session.mode = s.session.mode ∧
    t.session.pacer.isSome = s.session.pacer.isSome := by
  rcases h.undisturbed_or_finishes with hu | ⟨e, f, rest, now, -, rfl⟩
  · have hp := congrArg Option.isSome hu.pacer
    rw [Option.isSome_map, Option.isSome_map] at hp
    exact ⟨hu.mode, hp⟩
  · cases f with
    | closePacer => exact ⟨rfl, Option.isSome_map ..⟩
    | _ => exact ⟨rfl, rfl⟩

/-- A session has a pacer exactly if its program is a debugger. -/
theorem mode_of_reaches {mode : Mode} {child : Child} {settings : SessionSettings}
    {scratch : Option Host.Path} (h : (start mode child settings scratch).Reaches s) :
    s.session.mode = mode ∧ s.session.pacer.isSome = decide (mode = .debugger) := by
  induction h with
  | refl => cases mode <;> exact ⟨rfl, rfl⟩
  | tail _ hst ih => exact ⟨hst.mode.1.trans ih.1, hst.mode.2.trans ih.2⟩

end Scene

end SessionHost
