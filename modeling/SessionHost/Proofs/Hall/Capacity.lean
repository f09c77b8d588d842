import Mathlib.Data.List.Infix
import SessionHost.Proofs.Hall.Listing

/-!
# Every place is held once or given back once

`SessionHost.Hall.accounts_of_reaches`: however the calls that create sessions, those who kill them, their
pumps and those who reap them come in each other's way, a registry counts as many sessions as there are
places held by calls and by sessions that their pumps have not ended, and this is never more than it has
places for. Each place that was taken is held by one of them or was given back, once. A call is turned
away if and only if all places are held when it comes.

**The proof.** `Hall.Effect` says what a step can do to the book of a hall: nothing, or take one place
that is left, or give back one that is held (`Step.effect`). A book that balances (`Hall.Balanced`) still
does after each of these. That no number is used twice, and that only sessions in existence can be found,
is `Hall.Numbered` and `Hall.Listed`, and how far the end of each session has come is known from its scene
(`Scene.Closing`).
-/
namespace SessionHost

open scoped List

/-! ## What one step does to the place of a session -/

namespace Scene

variable {s t : Scene}

/-- Only the pump takes a session its place, by one of the steps of the end, and nobody gives it one. -/
theorem Step.holdsSlot (h : Step s t) : t.session.holdsSlot = s.session.holdsSlot ∨
    t.session.holdsSlot = false ∧ ∃ e rest, s.pump = .finishing e (.releaseSlot :: rest) := by
  rcases h.undisturbed_or_finishes with hu | ⟨e, f, rest, now, hp, rfl⟩
  · exact Or.inl hu.slot
  · cases f with
    | releaseSlot => exact Or.inr ⟨rfl, e, rest, hp⟩
    | _ => exact Or.inl rfl

/-- A session has its place until the pump is past the step that gives it back. -/
theorem Closing.holdsSlot_iff (h : Closing s) :
    s.session.holdsSlot = true ↔ ¬ s.Past .releaseSlot := by
  constructor
  · intro hs hp
    have hmark : s.session.holdsSlot = false := h.marked _ hp
    rw [hs] at hmark
    cases hmark
  · intro hn
    by_contra hs
    have hmark : FinishStep.releaseSlot.Mark s.session := eq_false_of_ne_true hs
    exact hn (h.own .releaseSlot trivial hmark)

/-- A session whose end is noted or made known has given back its place. -/
theorem Closing.holdsSlot_of_over (h : Closing s)
    (ho : (∃ at_, s.session.finishedAt = some at_) ∨ s.session.done = true) :
    s.session.holdsSlot = false := by
  rcases ho with hat | hdone
  · exact h.mark_of_le (f := .stamp) (g := .releaseSlot) (by decide) trivial hat
  · exact h.mark_of_le (f := .announce) (g := .releaseSlot) (by decide) trivial hdone

end Scene

namespace Hall

variable {s t : Hall}

/-! ## The book -/

inductive GivesBack (s : Hall) : Hall → Nat → Release → Prop where
  | finished (before after : List Room) (room : Room) (t : Scene) (pump : PumpState) (e : ExitInfo)
      (rest : List FinishStep) (h : s.rooms = before ++ room :: after)
      (hp : room.scene.pump = .finishing e (.releaseSlot :: rest)) :
    GivesBack s (s.work before after room t pump) room.slot (.finished room.id)
  | failed (before after : List Call) (slot id : Nat) (program message : String)
      (h : s.calls = before ++ .numbered slot id :: after) :
    GivesBack s (s.fail before after slot id program message) slot (.failed id)
  | dropped (before after : List Room) (room : Room) (h : s.rooms = before ++ room :: after)
      (hh : room.holds = true) :
    GivesBack s (s.drop before after room) room.slot (.dropped room.id)

inductive Effect (s t : Hall) : Prop where
  | keeps (held : t.held ~ s.held) (active : t.registry.active = s.registry.active)
      (granted : t.granted = s.granted) (freed : t.freed = s.freed)
  | takes (left : s.held.length < s.places) (held : t.held ~ s.granted :: s.held)
      (active : t.registry.active = s.registry.active + 1) (granted : t.granted = s.granted + 1)
      (freed : t.freed = s.freed)
  | gives (slot : Nat) (how : Release) (who : GivesBack s t slot how)
      (held : s.held ~ slot :: t.held) (active : t.registry.active + 1 = s.registry.active)
      (granted : t.granted = s.granted) (freed : t.freed = s.freed ++ [(slot, how)])

structure Balanced (s : Hall) : Prop where
  active : s.registry.active = s.held.length
  once : s.held ++ s.freed.map (·.1) ~ List.range s.granted
  bounded : s.registry.active ≤ s.places

theorem Balanced.of_effect (h : Balanced s) (hp : t.places = s.places) (he : Effect s t) :
    Balanced t := by
  cases he with
  | keeps held active granted freed =>
    refine ⟨?_, ?_, ?_⟩
    · rw [active, h.active, held.length_eq]
    · rw [granted, freed]
      exact (held.append_right _).trans h.once
    · rw [active, hp]
      exact h.bounded
  | takes left held active granted freed =>
    refine ⟨?_, ?_, ?_⟩
    · rw [active, h.active, held.length_eq, List.length_cons]
    · rw [granted, freed, List.range_succ]
      calc t.held ++ s.freed.map (·.1)
        _ ~ s.granted :: s.held ++ s.freed.map (·.1) := held.append_right _
        _ ~ s.granted :: List.range s.granted := h.once.cons _
        _ ~ List.range s.granted ++ [s.granted] := (List.perm_append_singleton ..).symm
    · rw [active, hp, h.active]
      exact left
  | gives slot how _ held active granted freed =>
    have hlength := held.length_eq
    rw [List.length_cons] at hlength
    have hactive := h.active
    have hbounded := h.bounded
    refine ⟨by omega, ?_, by omega⟩
    rw [granted, freed, List.map_append, List.map_singleton, ← List.append_assoc]
    calc t.held ++ s.freed.map (·.1) ++ [slot]
      _ ~ slot :: t.held ++ s.freed.map (·.1) := List.perm_append_singleton ..
      _ ~ s.held ++ s.freed.map (·.1) := (held.append_right _).symm
      _ ~ List.range s.granted := h.once

theorem balanced_opening (settings : SessionSettings) : Balanced (opening settings) :=
  ⟨rfl, .refl _, Nat.zero_le _⟩

/-! ## What each step does to the book -/

theorem effect_arrive (h : s.registry.active = s.held.length) : Effect s s.arrive := by
  rw [arrive_eq]
  split
  · rename_i hl
    refine .takes (h ▸ hl) ?_ rfl rfl rfl
    simp only [held, List.filterMap_append, List.append_assoc]
    exact List.perm_middle
  · exact .keeps (.refl _) rfl rfl rfl

theorem effect_fail (ha : s.registry.active = s.held.length) {before after : List Call}
    {slot id : Nat} (program message : String)
    (h : s.calls = before ++ .numbered slot id :: after) :
    Effect s (s.fail before after slot id program message) := by
  have hheld : s.held ~ slot :: (s.fail before after slot id program message).held := by
    simp only [held, fail, h, List.filterMap_append, List.filterMap_cons, Call.slot?,
      List.append_assoc, List.cons_append]
    exact List.perm_middle
  have hlength := hheld.length_eq
  rw [List.length_cons] at hlength
  refine .gives slot _ (.failed _ _ _ _ _ _ h) hheld ?_ rfl rfl
  change s.registry.active - 1 + 1 = s.registry.active
  omega

theorem effect_start {before after : List Call} {slot id : Nat} (mode : Mode) (child : Child)
    (scratch : Option Host.Path) (h : s.calls = before ++ .numbered slot id :: after) :
    Effect s (s.start before after slot id mode child scratch) := by
  refine .keeps ?_ rfl rfl rfl
  have hroom : Room.slot? { id, slot, scene := Scene.start mode child s.registry.settings scratch } =
    some slot := rfl
  simp only [held, start, h, List.filterMap_append, List.filterMap_cons, List.filterMap_nil,
    Call.slot?, hroom, List.append_assoc, List.cons_append]
  calc before.filterMap Call.slot? ++ (after.filterMap Call.slot? ++
        (s.rooms.filterMap Room.slot? ++ [slot]))
    _ ~ before.filterMap Call.slot? ++ (slot :: (after.filterMap Call.slot? ++
        s.rooms.filterMap Room.slot?)) := by
      rw [← List.append_assoc (after.filterMap _)]
      exact (List.perm_append_singleton ..).append_left _

/-- A session that is taken out of a list of sessions, or put back without its place. -/
theorem held_of_rooms (ha : s.registry.active = s.held.length) {before after : List Room} {room : Room}
    (h : s.rooms = before ++ room :: after) (hh : room.holds = true) (rooms : List Room)
    (hr : rooms.filterMap Room.slot? = before.filterMap Room.slot? ++ after.filterMap Room.slot?) :
    s.held ~ room.slot :: { s with rooms }.held ∧ s.registry.active - 1 + 1 = s.registry.active := by
  have hheld : s.held ~ room.slot :: { s with rooms }.held := by
    simp only [held, h, hr, List.filterMap_append, List.filterMap_cons, Room.slot?, hh, if_true]
    rw [← List.append_assoc, ← List.append_assoc]
    exact List.perm_middle
  have hlength := hheld.length_eq
  rw [List.length_cons] at hlength
  exact ⟨hheld, by omega⟩

theorem effect_work (ha : s.registry.active = s.held.length) {before after : List Room} {room : Room}
    {t : Scene} (pump : PumpState) (h : s.rooms = before ++ room :: after)
    (hst : room.scene.Step t) : Effect s (s.work before after room t pump) := by
  by_cases hsame : t.session.holdsSlot = room.scene.session.holdsSlot
  · have hleaves : (room.holds && !t.session.holdsSlot) = false := by
      rw [hsame]
      exact Bool.and_not_self _
    have hslot : Room.slot? { room with scene := t } = room.slot? := by
      change (if t.session.holdsSlot = true then _ else _) = _
      rw [hsame]
      rfl
    refine .keeps ?_ ?_ rfl ?_
    · simp only [held, work, h, List.filterMap_append, List.filterMap_cons, hslot]
      exact .refl _
    · simp only [work, hleaves, Bool.false_eq_true, if_false]
      rfl
    · simp only [work, hleaves, Bool.false_eq_true, if_false]
  · obtain ⟨hgone, e, rest, hp⟩ := hst.holdsSlot.resolve_left hsame
    have hh : room.holds = true :=
      eq_true_of_ne_false fun hn => hsame (hgone.trans hn.symm)
    have hleaves : (room.holds && !t.session.holdsSlot) = true := by rw [hh, hgone]; rfl
    have hslot : Room.slot? { room with scene := t } = none := by
      simp only [Room.slot?, Room.holds, hgone, Bool.false_eq_true, if_false]
    obtain ⟨hheld, hactive⟩ := held_of_rooms ha h hh
      (before ++ { room with scene := t } :: after) (by
        rw [List.filterMap_append, List.filterMap_cons, hslot])
    refine .gives room.slot _ (.finished before after room t pump e rest h hp) hheld ?_ rfl ?_
    · simp only [work, hleaves, if_true]
      exact hactive
    · simp only [work, hleaves, if_true]

theorem effect_drop (ha : s.registry.active = s.held.length) {before after : List Room} {room : Room}
    (h : s.rooms = before ++ room :: after) : Effect s (s.drop before after room) := by
  cases hh : room.holds with
  | false =>
    refine .keeps ?_ ?_ rfl ?_
    · simp only [held, drop, h, List.filterMap_append, List.filterMap_cons, Room.slot?, hh,
        Bool.false_eq_true, if_false]
      exact .refl _
    · simp only [drop, hh, Bool.false_eq_true, if_false]
    · simp only [drop, hh, Bool.false_eq_true, if_false]
  | true =>
    obtain ⟨hheld, hactive⟩ := held_of_rooms ha h hh (before ++ after)
      List.filterMap_append
    refine .gives room.slot _ (.dropped before after room h hh) hheld ?_ rfl ?_
    · simp only [drop, hh, if_true]
      exact hactive
    · simp only [drop, hh, if_true]

/-- No step takes a place that is not left, or gives back one that is not held. -/
theorem Step.effect (hst : Step s t) (ha : s.registry.active = s.held.length) : Effect s t := by
  cases hst with
  | arrive => exact effect_arrive ha
  | fail before after slot id program message h => exact effect_fail ha program message h
  | start before after slot id mode child scratch h => exact effect_start mode child scratch h
  | work before after room t pump h hst => exact effect_work ha pump h hst
  | drop before after room h => exact effect_drop ha h
  | number before after slot h =>
    refine .keeps ?_ rfl rfl rfl
    simp only [held, Hall.number, h, List.filterMap_append, List.filterMap_cons, Call.slot?]
    exact .refl _
  | register before after room pump h =>
    refine .keeps ?_ rfl rfl rfl
    simp only [held, Hall.register, h, List.filterMap_append, List.filterMap_cons, Call.slot?]
    exact .refl _
  | stop before after room h =>
    refine .keeps ?_ rfl rfl rfl
    simp only [held, Hall.stop, h, List.filterMap_append, List.filterMap_cons, Room.slot?, Room.holds]
    exact .refl _
  | reap now => exact .keeps (.refl _) rfl rfl rfl
  | close => exact .keeps (.refl _) rfl rfl rfl

/-! ## What a call answers -/

inductive Answers (s : Hall) : Hall → CreateAnswer → Prop where
  | exhausted (h : ¬ s.registry.active < s.places) :
    Answers s { s with answers := s.answers ++ [.exhausted s.places] } (.exhausted s.places)
  | failed (before after : List Call) (slot id : Nat) (program message : String)
      (h : s.calls = before ++ .numbered slot id :: after) :
    Answers s (s.fail before after slot id program message) (.failed slot id program message)
  | created (before after : List Call) (room : Room) (pump : PumpState)
      (h : s.calls = before ++ .registering room.id :: after) :
    Answers s (s.register before after room pump) (.created room.id)

theorem Step.answers (hst : Step s t) :
    t.answers = s.answers ∨ ∃ a, t.answers = s.answers ++ [a] ∧ Answers s t a := by
  cases hst with
  | arrive =>
    rw [arrive_eq]
    split
    · exact Or.inl rfl
    · exact Or.inr ⟨_, rfl, .exhausted ‹_›⟩
  | fail before after slot id program message h =>
    exact Or.inr ⟨_, rfl, .failed before after slot id program message h⟩
  | register before after room pump h => exact Or.inr ⟨_, rfl, .created before after room pump h⟩
  | _ => exact Or.inl rfl

theorem Step.settings (hst : Step s t) : t.registry.settings = s.registry.settings := by
  cases hst with
  | arrive => rw [arrive_eq]; split <;> rfl
  | work => unfold Hall.work; dsimp only; split <;> rfl
  | drop => unfold Hall.drop; dsimp only; split <;> rfl
  | _ => rfl

theorem Effect.mem_freed (h : Effect s t) {x : Nat × Release} (hx : x ∈ s.freed) : x ∈ t.freed := by
  cases h with
  | keeps _ _ _ freed | takes _ _ _ _ freed => rwa [freed]
  | gives _ _ _ _ _ _ freed =>
    rw [freed]
    exact List.mem_append_left _ hx

/-- The place of a call that could not start its program was given back. -/
def Recorded (s : Hall) : Prop := ∀ slot id program message,
  CreateAnswer.failed slot id program message ∈ s.answers → (slot, Release.failed id) ∈ s.freed

theorem Recorded.of_step (h : Recorded s) (hst : Step s t) (he : Effect s t) : Recorded t := by
  intro slot id program message hmem
  rcases hst.answers with ha | ⟨a, ha, hwho⟩
  · exact he.mem_freed (h slot id program message (ha ▸ hmem))
  rw [ha] at hmem
  rcases List.mem_append.1 hmem with hmem | hmem
  · exact he.mem_freed (h slot id program message hmem)
  · obtain rfl := List.mem_singleton.1 hmem
    cases hwho with
    | failed => exact List.mem_append_right _ (List.mem_singleton_self _)

/-! ## In any order -/

structure Sound (settings : SessionSettings) (s : Hall) : Prop where
  settings : s.registry.settings = settings
  balanced : Balanced s
  numbered : Numbered s
  listed : Listed s
  recorded : Recorded s

theorem sound_opening (settings : SessionSettings) : Sound settings (opening settings) where
  settings := rfl
  balanced := balanced_opening settings
  numbered := numbered_opening settings
  listed := listed_opening settings
  recorded _ _ _ _ h := absurd h List.not_mem_nil

theorem Sound.of_step {settings : SessionSettings} (h : Sound settings s) (hst : Step s t) :
    Sound settings t := by
  have he := hst.effect h.balanced.active
  have hplaces : t.places = s.places := congrArg SessionSettings.maxSessions hst.settings
  exact {
    settings := hst.settings.trans h.settings
    balanced := h.balanced.of_effect hplaces he
    numbered := h.numbered.of_numbering hst.numbering
    listed := h.listed.of_step h.numbered hst
    recorded := h.recorded.of_step hst he }

theorem Listed.closing (h : Listed s) {room : Room} (hr : room ∈ s.rooms) :
    Scene.Closing room.scene := by
  obtain ⟨mode, child, settings, scratch, hreaches⟩ := h.begun room hr
  exact Scene.closing_of_reaches hreaches

/-- A session that is past its grace period has given back its place. -/
theorem Sound.not_holds_of_reaped {settings : SessionSettings} (h : Sound settings s) {now : Nat}
    {room : Room} (hr : room ∈ s.rooms) (hid : room.id ∈ (s.registry.reap now).2.map (·.1)) :
    room.holds = false := by
  obtain ⟨p, hp, hpid⟩ := List.mem_map.1 hid
  obtain ⟨hentry, at_, hat, -⟩ := Registry.finishedAt_of_reaped hp
  obtain ⟨r, hmem, hrid, hsession⟩ := h.listed.listed p hentry
  obtain rfl := h.numbered.room_inj hmem hr (hrid.trans hpid)
  exact (h.listed.closing hr).holdsSlot_of_over (Or.inl ⟨at_, hsession ▸ hat⟩)

structure Accounts (settings : SessionSettings) (s : Hall) : Prop where
  /-- Counted are the calls that have a place and the sessions that have one. -/
  counted : s.registry.active = s.calls.countP (·.slot?.isSome) + s.rooms.countP (·.holds)
  /-- A session has a place until its pump gives it back. -/
  holds : ∀ r ∈ s.rooms, r.holds = true ↔ ¬ r.scene.Past .releaseSlot
  bounded : s.registry.active ≤ settings.maxSessions
  /-- Every place that was taken is held once or was given back once. -/
  once : s.held ++ s.freed.map (·.1) ~ List.range s.granted
  /-- A step takes a place only if one is left, and gives back only one that is held. -/
  effect : ∀ t, s.Step t → s.Effect t
  /-- A call is turned away if all places are held, and has one otherwise. -/
  arrive : s.arrive = if s.held.length = settings.maxSessions then
    { s with answers := s.answers ++ [.exhausted settings.maxSessions] }
    else { s with
      registry := { s.registry with active := s.registry.active + 1 }
      calls := s.calls ++ [.reserved s.granted]
      granted := s.granted + 1 }
  /-- Nothing else turns a call away. -/
  refused : ∀ t max, s.Step t → t.answers = s.answers ++ [.exhausted max] →
    s.held.length = settings.maxSessions ∧ t.registry = s.registry ∧ t.calls = s.calls
  /-- A call whose program could not be started has given back its place, and left nothing to be
  found. -/
  failed : ∀ slot id program message, .failed slot id program message ∈ s.answers →
    (slot, .failed id) ∈ s.freed ∧ slot ∉ s.held ∧ ∀ p ∈ s.registry.entries, p.1 ≠ id
  kill : ∀ before room after t pump, s.rooms = before ++ room :: after → room.scene.KillStep t →
    (s.work before after room t pump).registry.active = s.registry.active
  /-- Reaping gives back no place, also when the sessions go out of existence by it. -/
  reap : ∀ now, (s.reap now).registry.active = s.registry.active ∧
    ∀ before room after, s.rooms = before ++ room :: after →
      room.id ∈ (s.registry.reap now).2.map (·.1) →
        ((s.reap now).drop before after room).registry.active = s.registry.active
  /-- A session that is over and can still be found has no place. -/
  ended : ∀ p ∈ s.registry.entries,
    (∃ at_, p.2.session.finishedAt = some at_) ∨ p.2.session.done = true →
      p.2.session.holdsSlot = false
  /-- What can be found can be found once. -/
  found : (s.registry.entries.map (·.1)).Nodup

theorem length_held (s : Hall) :
    s.held.length = s.calls.countP (·.slot?.isSome) + s.rooms.countP (·.holds) := by
  have hroom : ∀ r : Room, r.slot?.isSome = r.holds := fun r => by
    unfold Room.slot?
    cases r.holds <;> rfl
  simp only [held, List.length_append, List.length_filterMap_eq_countP, hroom]

theorem Balanced.arrive_eq (h : Balanced s) : s.arrive = if s.held.length = s.places then
    { s with answers := s.answers ++ [.exhausted s.places] }
    else { s with
      registry := { s.registry with active := s.registry.active + 1 }
      calls := s.calls ++ [.reserved s.granted]
      granted := s.granted + 1 } := by
  have hactive := h.active
  have hbounded := h.bounded
  rw [Hall.arrive_eq]
  by_cases hfull : s.held.length = s.places
  · rw [if_pos hfull, if_neg (by omega)]
  · rw [if_neg hfull, if_pos (by omega)]

theorem Sound.accounts {settings : SessionSettings} (h : Sound settings s) :
    Accounts settings s := by
  have hplaces : settings.maxSessions = s.places :=
    congrArg SessionSettings.maxSessions h.settings.symm
  have hactive := h.balanced.active
  refine ⟨?counted, fun r hr => (h.listed.closing hr).holdsSlot_iff, ?bounded, h.balanced.once,
    fun t hst => hst.effect hactive, ?arrive, ?refused, ?failed, ?kill, fun now => ⟨rfl, ?reap⟩,
    ?ended, (List.nodup_append.1 h.listed.keys).2.1⟩
  case counted => rw [hactive, length_held]
  case bounded => exact hplaces ▸ h.balanced.bounded
  case arrive => rw [hplaces]; exact h.balanced.arrive_eq
  case refused =>
    intro t max hst hanswers
    rcases hst.answers with hsame | ⟨a, ha, hwho⟩
    · rw [hsame] at hanswers
      simp at hanswers
    · obtain rfl : a = .exhausted max := by simpa [ha] using hanswers
      cases hwho with
      | exhausted hfull =>
        have hbounded := h.balanced.bounded
        exact ⟨by omega, rfl, rfl⟩
  case failed =>
    intro slot id program message ha
    have hfreed := h.recorded slot id program message ha
    refine ⟨hfreed, fun hheld => ?_, fun p hp hid => ?_⟩
    · have hnodup := h.balanced.once.nodup_iff.2 List.nodup_range
      exact (List.nodup_append.1 hnodup).2.2 slot hheld slot (List.mem_map.2 ⟨_, hfreed, rfl⟩) rfl
    · obtain ⟨r, hr, hrid, -⟩ := h.listed.listed p hp
      exact h.numbered.ne_of_failed ha hr (hrid.trans hid)
  case kill =>
    intro before room after t pump hs hk
    have hkeeps : (room.holds && !t.session.holdsSlot) = false := by
      rw [hk.undisturbed.slot]
      exact Bool.and_not_self _
    simp only [work, hkeeps, Bool.false_eq_true, if_false]
    rfl
  case reap =>
    intro before room after hs hid
    have hnot := h.not_holds_of_reaped (hs ▸ mem_middle.2 (Or.inl rfl)) hid
    simp only [drop, hnot, Bool.false_eq_true, if_false]
    rfl
  case ended =>
    intro p hp ho
    obtain ⟨r, hr, -, hsession⟩ := h.listed.listed p hp
    rw [hsession] at ho ⊢
    exact (h.listed.closing hr).holdsSlot_of_over ho

/-- However creating, killing, ending, reaping and dropping sessions come in each other's way, the book
of a registry balances. -/
theorem accounts_of_reaches {settings : SessionSettings} (h : (opening settings).Reaches s) :
    Accounts settings s :=
  Sound.accounts (h.keeps (fun _ _ hs hst => hs.of_step hst) (sound_opening settings))

def single : Hall := opening { (default : SessionSettings) with maxSessions := 1 }

/-- A registry with one place, in which a session is kept for three units of time after its end. -/
def brief : Hall := opening { (default : SessionSettings) with maxSessions := 1, gracePeriod := 3 }

/-- A program cannot be started, a second one is, and a third call is turned away until the pump of the
session that was started has given back its place. -/
theorem accounts_of_turned_away : ∃ s, single.Reaches s ∧ Accounts single.registry.settings s ∧
    s.answers.map CreateAnswer.result =
      [.error (.spawn "gdb" "not found"), .ok 2, .error (.resourceExhausted 1)] ∧
    s.freed = [(0, .failed 1), (1, .finished 2)] ∧ s.calls = [.reserved 2] ∧
    s.registry.active = 1 ∧ s.registry.size = 1 := by
  have r : single.Reaches single := .refl
  have r := r.tail (.arrive rfl)
  have r := r.tail (.number [] [] 0 rfl)
  have r := r.tail (.fail [] [] 0 1 "gdb" "not found" rfl)
  have r := r.tail (.arrive rfl)
  have r := r.tail (.number [] [] 1 rfl)
  have r := r.tail (.start [] [] 1 2 .text Scene.quiet.session.child none rfl)
  have r := r.tail (.register [] [] ⟨2, 1, Scene.quiet, false⟩ .finished rfl (List.mem_singleton_self _))
  have r := r.tail (.arrive rfl)
  have r := r.tail (.alone rfl rfl (.pump (.beginFinish (.exited 0) rfl)))
  have r := r.tail (.alone rfl rfl (.pump (.finish _ _ _ 0 rfl (fun _ => rfl) fun _ => rfl)))
  have r := r.tail (.alone rfl rfl (.pump (.finish _ _ _ 0 rfl (fun _ => rfl) fun _ => rfl)))
  have r := r.tail (.alone rfl rfl (.pump (.finish _ _ _ 0 rfl (fun _ => rfl) fun _ => rfl)))
  have r := r.tail (.alone rfl rfl (.pump (.finish _ _ _ 0 rfl (fun _ => rfl) fun _ => rfl)))
  have r := r.tail (.alone rfl rfl (.pump (.finish _ _ _ 0 rfl (fun _ => rfl) fun _ => rfl)))
  have r := r.tail (.alone rfl rfl (.pump (.finish _ _ _ 0 rfl (fun _ => rfl) fun _ => rfl)))
  have r := r.tail (.arrive rfl)
  exact ⟨_, r, accounts_of_reaches r, rfl, rfl, rfl, rfl, rfl⟩

end Hall

end SessionHost
