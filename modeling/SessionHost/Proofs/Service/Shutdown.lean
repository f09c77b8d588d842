import SessionHost.Proofs.Service.Sound

/-!
# Stopping a server

A server that is told to stop looks once which sessions there are, and kills them one after the other. Until
that is done it takes connections, and then it waits for the requests in flight. Such a request may start a
session when the look is over, and nobody kills it any more.

**The machine.** A `Tenure` is a service with a server that is told to stop. Whoever is at work in the
service goes on at any stage, and requests come until the server has returned. The server kills as a caller
of its own, the `sweeper`, whose steps on a session are those of any kill.

**Hypotheses.** The server takes connections until it has killed the sessions that it knows of, and returns
when no request is in flight.

* `Tenure.cleared_of_returned`: all sessions that had been registered when the server looked have ended when
  it returns, and how they ended is recorded.
* `Tenure.session_outlives_server`: a session that was registered later may still run.
-/
namespace SessionHost

open Host (Path)
open scoped List

/-! ## A kill that goes on -/

namespace Scene

variable {s t : Scene}

theorem Step.task_of_ending (hst : Step s t) {i : Nat} {route : Bool} {x : Ending}
    (hi : s.task i = .ending route x) : t.task i = s.task i ∨ KillStep s t := by
  cases hst with
  | kill h => exact Or.inr h
  | world h => cases h <;> exact Or.inl rfl
  | pump h =>
    cases h with
    | move prompt paced => cases paced <;> exact Or.inl rfl
    | _ => exact Or.inl rfl
  | read h =>
    cases h with
    | readSince => exact Or.inl rfl
    | callPoll j _ hj | callPollFrom j _ _ hj | acquire j _ _ hj | look j _ _ _ hj =>
      exact Or.inl (task_put_of_task_ne hj hi nofun)
    | takeOwn j _ _ _ hj | take j _ _ _ _ _ hj | refuse j _ _ _ _ _ hj | store j _ _ _ hj =>
      exact Or.inl (task_put_of_task_ne hj hi nofun)
  | tell h =>
    cases h with
    | readExit | readState => exact Or.inl rfl
    | callWait j hj | seeDone j hj | answerWait j hj | callSnapshot j hj | readLength j _ hj =>
      exact Or.inl (task_put_of_task_ne hj hi nofun)
    | answerSnapshot j _ _ hj | routeState j _ hj | routeExit j _ _ hj =>
      exact Or.inl (task_put_of_task_ne hj hi nofun)
  | send h =>
    cases h with
    | closeInput => exact Or.inl rfl
    | exited j paced _ _ hj | closed j paced _ _ hj | move j paced _ hj =>
      refine Or.inl ((task_put_of_ne _ _ ?_).trans ?_)
      · rintro rfl
        rw [hj] at hi
        cases hi
      · cases paced <;> rfl
    | submit j _ hj | write j _ hj | command j _ hj | answer j hj | plain j _ _ hj
    | refuse j _ _ _ hj | queue j _ _ _ _ hj | dispatch j _ _ _ _ _ hj | check j _ _ hj
    | tooLate j _ _ hj | offer j _ _ _ hj | push j _ _ _ _ hj | note j _ hj =>
      exact Or.inl (task_put_of_task_ne hj hi nofun)

theorem Agreed.ending (h : Agreed s) (hst : Step s t) {i : Nat} {x : Ending}
    (hi : s.task i = .ending false x) :
    (∃ y, t.task i = .ending false y) ∨ t.session.state.isTerminal = true := by
  have other : ∀ {u : Scene} {j : Nat} {y : Task}, u.task = s.task → i ≠ j →
      ∃ z, (u.put j y).task i = .ending false z := fun hu hne =>
    ⟨x, by rw [task_put_of_ne _ _ hne, hu, hi]⟩
  rcases hst.task_of_ending hi with he | hk
  · exact Or.inl ⟨x, he.trans hi⟩
  · cases hk with
    | call j _ hj => exact Or.inl ⟨x, (task_put_of_task_ne hj hi nofun).trans hi⟩
    | recorded j route e hj | enter j route hj | goOn j route _ next hj | decide j route _ e _ hj =>
      by_cases hij : i = j
      · subst hij
        obtain ⟨rfl, -⟩ := Task.ending.inj (hj.symm.trans hi)
        exact Or.inl ⟨_, task_put_self ..⟩
      · exact Or.inl (other rfl hij)
    | move j route e hj =>
      by_cases hij : i = j
      · subst hij
        have he : s.session.exit = some e := by
          have := h.knows i
          rwa [hj] at this
        have hfits : s.session.state.Fits (some e) := he ▸ h.fits
        refine Or.inr ?_
        change (s.session.state.moveTo e.terminalState).isTerminal = true
        rw [hfits.moveTo_terminalState h.begun]
        exact e.isTerminal_terminalState
      · exact Or.inl (other rfl hij)
    | answer j route e hj =>
      by_cases hij : i = j
      · subst hij
        have hknows := h.knows i
        rw [hj] at hknows
        refine Or.inr ?_
        change s.session.state.isTerminal = true
        rw [hknows.2.1]
        exact e.isTerminal_terminalState
      · exact Or.inl (other rfl hij)

end Scene

/-! ## What stays -/

/-- A session has ended, and how is recorded. -/
def Session.Ended (s : Session) : Prop := ∃ e, s.exit = some e ∧ s.state = e.terminalState

theorem Session.Ended.isTerminal {s : Session} (h : s.Ended) : s.state.isTerminal = true := by
  obtain ⟨e, -, hstate⟩ := h
  rw [hstate]
  exact e.isTerminal_terminalState

namespace Room

variable {r r' : Room}

def Ended (r : Room) : Prop := r.scene.session.Ended

theorem Begun.agreed (h : r.Begun) : r.scene.Agreed := by
  obtain ⟨mode, child, settings, scratch, hr⟩ := h
  exact (Scene.agreed_start ..).of_reaches hr

theorem Begun.ended (h : r.Begun) (ht : r.scene.session.state.isTerminal = true) : r.Ended :=
  h.agreed.fits ht

theorem Begun.ended_of_finished (h : r.Begun) (hf : r.Finished) : r.Ended := by
  obtain ⟨mode, child, settings, scratch, hr⟩ := h
  have hmove : FinishStep.move.Mark r.scene.session :=
    (Scene.closing_of_reaches hr).mark_of_le (f := .stamp) (by decide) trivial hf
  exact Begun.ended ⟨mode, child, settings, scratch, hr⟩ hmove

theorem Ended.of_reaches (h : r.Ended) (hr : r.scene.Reaches r'.scene) : r'.Ended := by
  have hterminal := Session.Ended.isTerminal h
  obtain ⟨e, he, hstate⟩ := h
  exact ⟨e, Scene.exit_of_reaches hr he, (Scene.state_of_reaches hr hterminal).trans hstate⟩

end Room

namespace Service

variable {s t : Service}

/-- The sessions that were registered: they can be found, or were reaped. -/
def registered (s : Service) : List Nat := s.hall.keys ++ s.reaped

structure Advances (s t : Service) : Prop where
  next : s.hall.registry.nextId ≤ t.hall.registry.nextId
  numbered : ∀ slot id, .numbered slot id ∈ t.hall.calls →
    .numbered slot id ∈ s.hall.calls ∨ id = s.hall.registry.nextId
  registered : ∀ id ∈ s.registered, id ∈ t.registered
  room : ∀ r' ∈ t.hall.rooms, (∃ r ∈ s.hall.rooms, r.id = r'.id ∧
    Relation.ReflGen Scene.Step r.scene r'.scene) ∨ ∃ slot, .numbered slot r'.id ∈ s.hall.calls
  gone : ∀ r ∈ t.gone, r ∈ s.gone ∨ r.Ended ∧ (∃ r' ∈ s.hall.rooms, r'.id = r.id) ∧
    ∀ r' ∈ t.hall.rooms, r'.id ≠ r.id

theorem Advances.of_same (hn : s.hall.registry.nextId ≤ t.hall.registry.nextId)
    (hc : ∀ slot id, .numbered slot id ∈ t.hall.calls →
      .numbered slot id ∈ s.hall.calls ∨ id = s.hall.registry.nextId)
    (hreg : ∀ id ∈ s.registered, id ∈ t.registered) (hr : t.hall.rooms = s.hall.rooms)
    (hg : t.gone = s.gone) : Advances s t where
  next := hn
  numbered := hc
  registered := hreg
  room r' hr' := Or.inl ⟨r', hr ▸ hr', rfl, .refl⟩
  gone _ hr' := Or.inl (hg ▸ hr')

theorem Advances.letGo {u : Service} (h : Advances s u) (hu : Sound u) (hg : u.gone = s.gone) {id : Nat}
    (hroom : u.hall.rooms.map (·.id) = s.hall.rooms.map (·.id))
    (ht : LetGo u id t) : Advances s t := by
  cases ht with
  | held => exact h
  | last before after room hs _ hn =>
    have hmem : room ∈ u.hall.rooms := hs ▸ Hall.mem_middle.2 (Or.inl rfl)
    refine ⟨?_, h.numbered, fun id hid => ?_, fun r' hr' => ?_, fun r hr => ?_⟩
    · refine h.next.trans (le_of_eq ?_)
      change _ = Registry.nextId (if _ then _ else _)
      split <;> rfl
    · change id ∈ (u.hall.drop before after room).keys ++ u.reaped
      rw [keys_drop]
      exact h.registered id hid
    · exact h.room r' (hs ▸ Hall.mem_middle.2 (Or.inr hr'))
    · rcases List.mem_append.1 hr with hr | hr
      · exact Or.inl (hg ▸ hr)
      · rw [List.mem_singleton.1 hr]
        have hid : room.id ∈ s.hall.rooms.map (·.id) := hroom ▸ List.mem_map_of_mem hmem
        have hended := (hu.listed.begun room hmem).ended_of_finished (hu.isDone hmem hn).2.1
        exact Or.inr ⟨hended, List.mem_map.1 hid, fun r' hr' => hu.ne_of_mem_others hs hr'⟩

theorem Sound.advances (h : Sound s) (hst : Step s t) : Advances s t := by
  have refl : ∀ {u : Service}, u.hall = s.hall → u.reaped = s.reaped → u.gone = s.gone →
      Advances s u := fun hhall hreaped hgone => by
    refine .of_same (hhall ▸ le_refl _) (fun slot id hid => Or.inl (hhall ▸ hid)) (fun id hid => ?_)
      (hhall ▸ rfl) hgone
    unfold registered
    rw [hhall, hreaped]
    exact hid
  rcases hst with hst | hst
  · cases hst with
    | _ => exact refl rfl rfl rfl
  · cases hst with
    | buildFails | clientLeaves | find | lose => exact refl rfl rfl rfl
    | arrive | exhausted =>
      refine .of_same (nextId_arrive s.hall).ge
        (fun slot id hid => Or.inl ((mem_calls_arrive s.hall (by nofun)).1 hid)) (fun id hid => ?_)
        (rooms_arrive s.hall) rfl
      change id ∈ s.hall.arrive.keys ++ s.reaped
      rwa [keys_arrive]
    | number before after slot hc =>
      refine .of_same (Nat.le_succ _) (fun slot' id hid => ?_) (fun _ hid => hid) rfl rfl
      rw [hc]
      rcases Hall.mem_middle.1 hid with he | hid
      · exact Or.inr (Call.numbered.inj he).2
      · exact Or.inl (Hall.mem_middle.2 (Or.inr hid))
    | fail before after slot id program message left right dir hc =>
      refine .of_same (le_refl _) (fun slot' id' hid => Or.inl ?_) (fun _ hid => hid) rfl rfl
      rw [hc]
      exact Hall.mem_middle.2 (Or.inr hid)
    | start before after slot id mode child left right dir hc =>
      have hslot : .numbered slot id ∈ s.hall.calls := hc ▸ Hall.mem_middle.2 (Or.inl rfl)
      refine ⟨le_refl _, fun slot' id' hid => Or.inl ?_, fun _ hid => hid, fun r hr => ?_, fun _ => Or.inl⟩
      · rw [hc]
        exact Hall.mem_middle.2 (Or.inr ((Hall.mem_middle.1 hid).resolve_left nofun))
      · rcases List.mem_append.1 hr with hr | hr
        · exact Or.inl ⟨r, hr, rfl, .refl⟩
        · rw [List.mem_singleton.1 hr]
          exact Or.inr ⟨slot, hslot⟩
    | register before after room pump hc hr =>
      refine .of_same (le_refl _) (fun slot id hid => Or.inl ?_) (fun id hid => ?_) rfl rfl
      · rw [hc]
        exact Hall.mem_middle.2 (Or.inr hid)
      · change id ∈ (s.hall.register before after room pump).keys ++ s.reaped
        rw [keys_register, List.append_assoc]
        exact (List.mem_append.1 hid).elim (List.mem_append_left _)
          fun hid => List.mem_append_right _ (List.mem_append_right _ hid)
    | work before after room u pump hs hsc =>
      refine ⟨?_, fun _ _ => Or.inl, fun id hid => ?_, fun r' hr' => ?_, fun _ => Or.inl⟩
      · refine le_of_eq ?_
        change _ = Registry.nextId (if _ then _ else _)
        split <;> rfl
      · change id ∈ (s.hall.work before after room u pump).keys ++ s.reaped
        rwa [keys_work]
      · rcases Hall.mem_middle.1 hr' with rfl | hr'
        · exact Or.inl ⟨room, hs ▸ Hall.mem_middle.2 (Or.inl rfl), rfl, .single hsc⟩
        · exact Or.inl ⟨r', hs ▸ Hall.mem_middle.2 (Or.inr hr'), rfl, .refl⟩
    | leave before after i room hg hr hi ht =>
      have hadvances : Advances s { s with guests := before ++ after } := refl rfl rfl rfl
      exact hadvances.letGo (h.leave hg hr hi) rfl rfl ht
    | pumpReturns before after room e hs hp ht =>
      have hadvances : Advances s { s with hall := s.hall.stop before after room } := by
        refine ⟨le_refl _, fun _ _ => Or.inl, fun _ hid => hid, fun r' hr' => ?_, fun _ => Or.inl⟩
        rcases Hall.mem_middle.1 hr' with rfl | hr'
        · exact Or.inl ⟨room, hs ▸ Hall.mem_middle.2 (Or.inl rfl), rfl, .refl⟩
        · exact Or.inl ⟨r', hs ▸ Hall.mem_middle.2 (Or.inr hr'), rfl, .refl⟩
      refine hadvances.letGo (h.stop hs hp) rfl ?_ ht
      simp [Hall.stop, hs]
    | reap now takes =>
      refine .of_same (le_refl _) (fun _ _ => Or.inl) (fun id hid => ?_) rfl rfl
      rcases List.mem_append.1 hid with hid | hid
      · cases htakes : takes id with
        | false => exact List.mem_append_left _ (mem_keys_takeAway.2 ⟨hid, htakes⟩)
        | true =>
          exact List.mem_append_right _ (List.mem_append_right _ (List.mem_filter.2 ⟨hid, htakes⟩))
      · exact List.mem_append_right _ (List.mem_append_left _ hid)
    | reapLetsGo before after id hs ht =>
      have hsub : ∀ id' ∈ before ++ after, id' ∈ s.hands := fun id' hid =>
        hs ▸ Hall.mem_middle.2 (Or.inr hid)
      have hadvances : Advances s { s with hands := before ++ after } := refl rfl rfl rfl
      exact hadvances.letGo (h.of_hands hsub) rfl rfl ht

/-- A session that exists has a number that was given out, and not to a call that has no session yet. -/
theorem Sound.numbered_room (h : Sound s) {r : Room} (hr : r ∈ s.hall.rooms) :
    r.id < s.hall.registry.nextId ∧ ∀ slot, .numbered slot r.id ∉ s.hall.calls := by
  have hmem : r.id ∈ s.hall.rooms.map (·.id) := List.mem_map_of_mem hr
  refine ⟨h.numbered.fresh _ (List.mem_append_left _ (List.mem_append_right _ hmem)), fun slot hc => ?_⟩
  have hnodup := (List.nodup_append.1 h.numbered.nodup).1
  exact (List.nodup_append.1 hnodup).2.2 _ (List.mem_filterMap.2 ⟨_, hc, rfl⟩) _ hmem rfl

/-- What else holds at every time: those that have gone have ended, and their numbers are not used again. -/
structure Firm (s : Service) : Prop where
  sound : Sound s
  gone : ∀ r ∈ s.gone, r.Ended ∧ r.id < s.hall.registry.nextId ∧
    (∀ slot, .numbered slot r.id ∉ s.hall.calls) ∧ ∀ r' ∈ s.hall.rooms, r'.id ≠ r.id

theorem firm_opening (settings : SessionSettings) : Firm (opening settings) :=
  ⟨sound_opening settings, fun _ h => absurd h List.not_mem_nil⟩

theorem Firm.of_step (h : Firm s) (hst : Step s t) : Firm t := by
  have ha := h.sound.advances hst
  refine ⟨h.sound.of_step hst, fun r hr => ?_⟩
  have old : r.id < s.hall.registry.nextId → (∀ slot, .numbered slot r.id ∉ s.hall.calls) →
      r.id < t.hall.registry.nextId ∧ ∀ slot, .numbered slot r.id ∉ t.hall.calls :=
    fun hlt hn => ⟨hlt.trans_le ha.next, fun slot hc =>
      (ha.numbered slot r.id hc).elim (hn slot) fun he => hlt.ne he⟩
  rcases ha.gone r hr with hr | ⟨hended, ⟨r₀, hr₀, hid⟩, hothers⟩
  · obtain ⟨hended, hlt, hn, hothers⟩ := h.gone r hr
    obtain ⟨hlt', hn'⟩ := old hlt hn
    refine ⟨hended, hlt', hn', fun r' hr' he => ?_⟩
    rcases ha.room r' hr' with ⟨r₁, hr₁, hid, -⟩ | ⟨slot, hc⟩
    · exact hothers r₁ hr₁ (hid.trans he)
    · exact hn slot (he ▸ hc)
  · obtain ⟨hlt, hn⟩ := h.sound.numbered_room hr₀
    rw [hid] at hlt hn
    obtain ⟨hlt', hn'⟩ := old hlt hn
    exact ⟨hended, hlt', hn', hothers⟩

theorem Sound.ever_of_registered (h : Sound s) {id : Nat} (hid : id ∈ s.registered) :
    s.Ever (·.id = id) := by
  rcases List.mem_append.1 hid with hid | hid
  · exact Or.inl (h.exists_of_key hid)
  · exact (h.reaped id hid).imp (fun ⟨r, hr, hid, _⟩ => ⟨r, hr, hid⟩)
      fun ⟨r, hr, hid, _⟩ => ⟨r, hr, hid⟩

/-- No call is about to start a session under the number of one that was registered. -/
theorem Firm.not_numbered (h : Firm s) {id : Nat} (hid : id ∈ s.registered) (slot : Nat) :
    .numbered slot id ∉ s.hall.calls := by
  rcases h.sound.ever_of_registered hid with ⟨r, hr, rfl⟩ | ⟨r, hr, rfl⟩
  · exact (h.sound.numbered_room hr).2 slot
  · exact (h.gone r hr).2.2.1 slot

/-- A session that was registered can be found, or has ended. -/
theorem Firm.key_or_ended (h : Firm s) {r : Room} (hr : r ∈ s.hall.rooms) (hid : r.id ∈ s.registered) :
    r.id ∈ s.hall.keys ∨ r.Ended := by
  refine (List.mem_append.1 hid).imp_right fun hreaped => ?_
  refine (h.sound.listed.begun r hr).ended_of_finished ?_
  rcases h.sound.reaped r.id hreaped with ⟨r', hr', he, hf⟩ | ⟨r', hr', he, -⟩
  · rwa [← h.sound.numbered.room_inj hr' hr he]
  · exact absurd he.symm ((h.gone r' hr').2.2.2 r hr)

end Service

/-! ## The machine -/

/-- How far a server has come. -/
inductive Stage where
  | serving
  /-- It was told to stop. -/
  | told
  /-- It kills its sessions, and these are left. -/
  | sweeping (left : List Nat)
  /-- It is about to have killed one of them. -/
  | killing (id : Nat) (left : List Nat)
  /-- It takes no more connections, and waits for the requests in flight. -/
  | draining
  | returned

namespace Stage

/-- The sessions whose kill is yet to begin. -/
def left : Stage → List Nat
  | sweeping left | killing _ left => left
  | serving | told | draining | returned => []

def targets : Stage → List Nat
  | killing id left => id :: left
  | stage => stage.left

end Stage

structure Tenure where
  service : Service
  stage : Stage := .serving
  /-- The sessions that had been registered when the server began to kill them. -/
  known : List Nat := []

namespace Tenure

/-- A server that has just begun to serve. -/
def opening (settings : SessionSettings) : Tenure where service := .opening settings

/-- The caller who kills the sessions as the server stops. -/
def sweeper : Nat := 0

/-- The sweeper does not turn to any session, and does not leave one. -/
structure Aside (s t : Service) : Prop where
  guests : ∀ id, (sweeper, id) ∈ t.guests ↔ (sweeper, id) ∈ s.guests
  tasks : ∀ r' ∈ t.hall.rooms, r'.scene.task sweeper ≠ .idle →
    ∃ r ∈ s.hall.rooms, r.id = r'.id ∧ r.scene.task sweeper ≠ .idle

/-- What happens.
mirrors server/mod:132-151 and session/registry:126-139 -/
inductive Step : Tenure → Tenure → Prop where
  /-- Requests come until the server has returned, as a connection may have been there for long. -/
  | comes {s : Tenure} (t : Service) (hs : s.stage ≠ .returned) (h : s.service.Comes t)
      (ha : Aside s.service t) : Step s { s with service := t }
  | goes {s : Tenure} (t : Service) (h : s.service.Goes t) (ha : Aside s.service t) :
    Step s { s with service := t }
  | tell {s : Tenure} (h : s.stage = .serving) : Step s { s with stage := .told }
  /-- The server looks once which sessions there are. -/
  | list {s : Tenure} (ids : List Nat) (h : s.stage = .told) (hids : ids ~ s.service.hall.keys) :
    Step s {
      service := { s.service with guests := s.service.guests ++ ids.map (sweeper, ·) }
      stage := .sweeping ids
      known := s.service.registered }
  | kill {s : Tenure} (left : List Nat) (before after : List Room) (room : Room) (pump : PumpState)
      (h : s.stage = .sweeping (room.id :: left)) (hr : s.service.hall.rooms = before ++ room :: after)
      (hi : room.scene.task sweeper = .idle) :
    Step s { s with
      service := { s.service with
        hall := s.service.hall.work before after room
          (room.scene.put sweeper (.ending false .entering)) pump }
      stage := .killing room.id left }
  | killed {s : Tenure} (left : List Nat) (room : Room) (h : s.stage = .killing room.id left)
      (hr : room ∈ s.service.hall.rooms) (hi : room.scene.task sweeper = .idle) :
    Step s { s with stage := .sweeping left }
  | letGo {s : Tenure} (before after : List (Nat × Nat)) (room : Room) (t : Service)
      (h : s.stage = .sweeping []) (hg : s.service.guests = before ++ (sweeper, room.id) :: after)
      (hr : room ∈ s.service.hall.rooms) (hi : room.scene.task sweeper = .idle)
      (ht : Service.LetGo { s.service with guests := before ++ after } room.id t) :
    Step s { s with service := t }
  | close {s : Tenure} (h : s.stage = .sweeping []) (hg : ∀ id, (sweeper, id) ∉ s.service.guests) :
    Step s { s with stage := .draining }
  /-- No request is in flight any more, and no reap under way. -/
  | return_ {s : Tenure} (h : s.stage = .draining) (hb : s.service.builds = [])
      (hc : s.service.hall.calls = []) (hs : s.service.seekers = []) (hg : s.service.guests = [])
      (hh : s.service.hands = []) : Step s { s with stage := .returned }

abbrev Reaches : Tenure → Tenure → Prop := Relation.ReflTransGen Step

theorem Reaches.keeps {P : Tenure → Prop} (hP : ∀ s t, P s → Step s t → P t) {s t : Tenure}
    (h : Reaches s t) (hs : P s) : P t := by
  induction h with
  | refl => exact hs
  | tail _ hst ih => exact hP _ _ ih hst

variable {s t : Tenure}

/-! ## The sweep -/

/-- How far the sweep has come with a session. -/
def Awaits (s : Tenure) (r : Room) : Prop :=
  r.Ended ∨ r.id ∈ s.stage.left ∨
    ∃ left x, s.stage = .killing r.id left ∧ r.scene.task sweeper = .ending false x

structure Swept (s : Tenure) : Prop where
  firm : s.service.Firm
  known : ∀ id ∈ s.known, id ∈ s.service.registered
  guests : ∀ id ∈ s.stage.targets, (sweeper, id) ∈ s.service.guests
  /-- The sweeper kills one session at a time. -/
  one : ∀ r ∈ s.service.hall.rooms, r.scene.task sweeper ≠ .idle → ∃ left, s.stage = .killing r.id left
  awaits : ∀ r ∈ s.service.hall.rooms, r.id ∈ s.known → s.Awaits r

theorem swept_opening (settings : SessionSettings) : Swept (opening settings) where
  firm := Service.firm_opening settings
  known _ h := absurd h List.not_mem_nil
  guests _ h := absurd h List.not_mem_nil
  one _ h := absurd h List.not_mem_nil
  awaits _ h := absurd h List.not_mem_nil

theorem Awaits.of_scene {r r' : Room} (h : s.Awaits r) (hr : r.Begun) (hr' : r'.Begun) (hid : r.id = r'.id)
    (hst : Relation.ReflGen Scene.Step r.scene r'.scene) {u : Service} :
    Awaits { s with service := u } r' := by
  rcases h with hended | hleft | ⟨left, x, hstage, hx⟩
  · exact Or.inl (hended.of_reaches hst.to_reflTransGen)
  · exact Or.inr (Or.inl (hid ▸ hleft))
  · have hgoes : (∃ y, r'.scene.task sweeper = .ending false y) ∨
        r'.scene.session.state.isTerminal = true := by
      rcases Relation.reflGen_iff _ _ _ |>.1 hst with he | hst
      · exact Or.inl ⟨x, he ▸ hx⟩
      · exact hr.agreed.ending hst hx
    rcases hgoes with ⟨y, hy⟩ | hterminal
    · exact Or.inr (Or.inr ⟨left, y, hid ▸ hstage, hy⟩)
    · exact Or.inl (hr'.ended hterminal)

theorem Swept.of_service (h : Swept s) {u : Service} (hst : s.service.Step u) (ha : Aside s.service u) :
    Swept { s with service := u } := by
  have hadv := h.firm.sound.advances hst
  have hfirm := h.firm.of_step hst
  refine ⟨hfirm, fun id hid => hadv.registered id (h.known id hid),
    fun id hid => (ha.guests id).2 (h.guests id hid), fun r' hr' hi => ?_, fun r' hr' hid => ?_⟩
  · obtain ⟨r, hr, hid, hi⟩ := ha.tasks r' hr' hi
    obtain ⟨left, hstage⟩ := h.one r hr hi
    exact ⟨left, hid ▸ hstage⟩
  · rcases hadv.room r' hr' with ⟨r, hr, he, hsc⟩ | ⟨slot, hc⟩
    · exact (h.awaits r hr (he ▸ hid)).of_scene (h.firm.sound.listed.begun r hr)
        (hfirm.sound.listed.begun r' hr') he hsc
    · exact absurd hc (h.firm.not_numbered (h.known _ hid) slot)

/-- Before the sweep and after it the server goes on to its next stage. -/
theorem Swept.of_stage (h : Swept s) {stage : Stage} (hs : s.stage.targets = [])
    (ht : stage.targets = []) : Swept { s with stage } := by
  have calm : ∀ id left, s.stage ≠ .killing id left := fun id left he => by
    rw [he] at hs
    cases hs
  have hleft : s.stage.left = [] := by
    cases hstage : s.stage with
    | killing id left => exact absurd hstage (calm id left)
    | serving | told | draining | returned => rfl
    | sweeping left =>
      rw [hstage] at hs
      exact hs
  refine ⟨h.firm, h.known, fun id hid => ?_, fun r hr hi => ?_, fun r hr hid => Or.inl ?_⟩
  · rw [ht] at hid
    cases hid
  · obtain ⟨left, hstage⟩ := h.one r hr hi
    exact absurd hstage (calm _ _)
  · rcases h.awaits r hr hid with hended | hmem | ⟨left, x, hstage, -⟩
    · exact hended
    · rw [hleft] at hmem
      cases hmem
    · exact absurd hstage (calm _ _)

theorem Swept.list (h : Swept s) {ids : List Nat} (hs : s.stage = .told)
    (hids : ids ~ s.service.hall.keys) :
    Swept {
      service := { s.service with guests := s.service.guests ++ ids.map (sweeper, ·) }
      stage := .sweeping ids
      known := s.service.registered } where
  firm := ⟨h.firm.sound.visit sweeper ids fun _ hid => hids.mem_iff.1 hid, h.firm.gone⟩
  known _ hid := hid
  guests id hid := List.mem_append_right _ (List.mem_map_of_mem hid)
  one r hr hi := by
    obtain ⟨left, hstage⟩ := h.one r hr hi
    rw [hs] at hstage
    cases hstage
  awaits r hr hid :=
    (h.firm.key_or_ended hr hid).elim (fun hk => Or.inr (Or.inl (hids.mem_iff.2 hk))) Or.inl

theorem Swept.kill (h : Swept s) {left : List Nat} {before after : List Room} {room : Room}
    (pump : PumpState) (hs : s.stage = .sweeping (room.id :: left))
    (hr : s.service.hall.rooms = before ++ room :: after) (hi : room.scene.task sweeper = .idle) :
    Swept { s with
      service := { s.service with
        hall := s.service.hall.work before after room
          (room.scene.put sweeper (.ending false .entering)) pump }
      stage := .killing room.id left } := by
  have hmem : room ∈ s.service.hall.rooms := hr ▸ Hall.mem_middle.2 (Or.inl rfl)
  have hall : ∀ id ∈ room.id :: left, (sweeper, id) ∈ s.service.guests := fun id hid =>
    h.guests id (by rw [hs]; exact hid)
  have hbusy : ∀ i, (room.scene.put sweeper (.ending false .entering)).task i ≠ .idle →
      (i, room.id) ∈ s.service.guests := by
    intro i hne
    by_cases hsweeper : i = sweeper
    · rw [hsweeper]
      exact hall room.id List.mem_cons_self
    · rw [Scene.task_put_of_ne _ _ hsweeper] at hne
      exact h.firm.sound.busy room hmem i hne
  have hst : s.service.Step { s.service with
      hall := s.service.hall.work before after room
        (room.scene.put sweeper (.ending false .entering)) pump } :=
    .goes (.work before after room _ pump hr (.kill (.call sweeper false hi)) (fun _ => rfl) hbusy)
  have calm : ∀ id left', s.stage ≠ .killing id left' := fun id left' he => by
    rw [hs] at he
    cases he
  refine ⟨h.firm.of_step hst, fun id hid => (h.firm.sound.advances hst).registered id (h.known id hid),
    hall, fun r hmem' hne => ?_, fun r hmem' hid => ?_⟩
  · rcases Hall.mem_middle.1 hmem' with rfl | hmem'
    · exact ⟨left, rfl⟩
    · obtain ⟨left', hstage⟩ := h.one r (hr ▸ Hall.mem_middle.2 (Or.inr hmem')) hne
      exact absurd hstage (calm _ _)
  · rcases Hall.mem_middle.1 hmem' with rfl | hmem'
    · exact Or.inr (Or.inr ⟨left, .entering, rfl, Scene.task_put_self ..⟩)
    · rcases h.awaits r (hr ▸ Hall.mem_middle.2 (Or.inr hmem')) hid with hended | hleft | ⟨_, _, hstage, -⟩
      · exact Or.inl hended
      · rw [hs] at hleft
        exact Or.inr (Or.inl ((List.mem_cons.1 hleft).resolve_left
          (h.firm.sound.ne_of_mem_others hr hmem')))
      · exact absurd hstage (calm _ _)

theorem Swept.killed (h : Swept s) {left : List Nat} {room : Room} (hs : s.stage = .killing room.id left)
    (hr : room ∈ s.service.hall.rooms) (hi : room.scene.task sweeper = .idle) :
    Swept { s with stage := .sweeping left } := by
  have hidle : ∀ r ∈ s.service.hall.rooms, ∀ left', s.stage = .killing r.id left' →
      r.scene.task sweeper = .idle := by
    intro r hmem left' hstage
    rw [hs] at hstage
    rwa [h.firm.sound.numbered.room_inj hmem hr (Stage.killing.inj hstage).1.symm]
  refine ⟨h.firm, h.known, fun id hid => h.guests id ?_, fun r hmem hne => ?_, fun r hmem hid => ?_⟩
  · rw [hs]
    exact List.mem_cons_of_mem _ hid
  · obtain ⟨left', hstage⟩ := h.one r hmem hne
    exact absurd (hidle r hmem left' hstage) hne
  · rcases h.awaits r hmem hid with hended | hleft | ⟨left', x, hstage, hx⟩
    · exact Or.inl hended
    · rw [hs] at hleft
      exact Or.inr (Or.inl hleft)
    · rw [hidle r hmem left' hstage] at hx
      cases hx

theorem Swept.letGo (h : Swept s) {before after : List (Nat × Nat)} {room : Room} {u : Service}
    (hs : s.stage = .sweeping []) (hg : s.service.guests = before ++ (sweeper, room.id) :: after)
    (hr : room ∈ s.service.hall.rooms) (hi : room.scene.task sweeper = .idle)
    (ht : Service.LetGo { s.service with guests := before ++ after } room.id u) :
    Swept { s with service := u } := by
  have hst : s.service.Step u := .goes (.leave before after sweeper room hg hr hi ht)
  have hrooms : ∀ r ∈ u.hall.rooms, r ∈ s.service.hall.rooms := by
    cases ht with
    | held => exact fun _ hmem => hmem
    | last before after room hs => exact fun r hmem => hs ▸ Hall.mem_middle.2 (Or.inr hmem)
  refine ⟨h.firm.of_step hst, fun id hid => (h.firm.sound.advances hst).registered id (h.known id hid),
    fun id hid => ?_, fun r hmem => h.one r (hrooms r hmem), fun r hmem => h.awaits r (hrooms r hmem)⟩
  change id ∈ s.stage.targets at hid
  rw [hs] at hid
  cases hid

theorem Swept.of_step (h : Swept s) (hst : Step s t) : Swept t := by
  cases hst with
  | comes u _ hu ha => exact h.of_service (.comes hu) ha
  | goes u hu ha => exact h.of_service (.goes hu) ha
  | tell hs => exact h.of_stage (by rw [hs]; rfl) rfl
  | list ids hs hids => exact h.list hs hids
  | kill left before after room pump hs hr hi => exact h.kill pump hs hr hi
  | killed left room hs hr hi => exact h.killed hs hr hi
  | letGo before after room u hs hg hr hi ht => exact h.letGo hs hg hr hi ht
  | close hs => exact h.of_stage (by rw [hs]; rfl) rfl
  | return_ hs => exact h.of_stage (by rw [hs]; rfl) rfl

theorem Swept.of_reaches (h : Swept s) (hr : s.Reaches t) : Swept t :=
  hr.keeps (fun _ _ => Swept.of_step) h

/-! ## After the sweep -/

structure Cleared (s : Tenure) : Prop where
  /-- Those that had been registered when it began have ended. -/
  known : ∀ r ∈ s.service.hall.rooms, r.id ∈ s.known → r.Ended
  gone : ∀ r ∈ s.service.gone, r.Ended
  /-- And each of them is there, or has gone. -/
  ever : ∀ id ∈ s.known, s.service.Ever (·.id = id)

/-- No session outlives the server that had been registered when the server began to kill its sessions. -/
theorem cleared_of_returned {settings : SessionSettings} (h : (opening settings).Reaches s)
    (hs : s.stage = .returned) : Cleared s := by
  have hswept := (swept_opening settings).of_reaches h
  refine ⟨fun r hr hid => ?_, fun r hr => (hswept.firm.gone r hr).1,
    fun id hid => hswept.firm.sound.ever_of_registered (hswept.known id hid)⟩
  rcases hswept.awaits r hr hid with hended | hleft | ⟨left, x, hstage, -⟩
  · exact hended
  · rw [hs] at hleft
    cases hleft
  · rw [hs] at hstage
    cases hstage

theorem aside_of_idle {v w : Service} (hg : ∀ id, (sweeper, id) ∈ w.guests ↔ (sweeper, id) ∈ v.guests)
    (hi : ∀ r ∈ w.hall.rooms, r.scene.task sweeper = .idle) : Aside v w :=
  ⟨hg, fun r hr hne => absurd (hi r hr) hne⟩

theorem aside_of_empty {v w : Service} (hg : w.guests = v.guests) (hr : w.hall.rooms = []) : Aside v w :=
  aside_of_idle (fun _ => hg ▸ Iff.rfl) fun _ h => absurd (hr ▸ h) List.not_mem_nil

theorem Reaches.killing {settings : SessionSettings} (h : (opening settings).Reaches s) {room : Room}
    {u : Scene} (hrooms : s.service.hall.rooms = [room]) (hstopped : room.stopped = false)
    (hst : room.scene.KillStep u) (hkilling : room.scene.task sweeper ≠ .idle)
    (hothers : ∀ i, i ≠ sweeper → u.task i = room.scene.task i) :
    (opening settings).Reaches { s with service := { s.service with
      hall := s.service.hall.work [] [] room u .finished } } := by
  have hmem : room ∈ s.service.hall.rooms := hrooms ▸ List.mem_singleton_self _
  have hbusy := ((swept_opening settings).of_reaches h).firm.sound.busy room hmem
  refine h.tail (.goes _ (.work [] [] room u .finished hrooms (.kill hst) (fun hs => ?_) fun i hne => ?_)
    ⟨fun _ => Iff.rfl, fun r hr _ => ?_⟩)
  · rw [hstopped] at hs
    cases hs
  · by_cases hi : i = sweeper
    · exact hi ▸ hbusy sweeper hkilling
    · exact hbusy i (hothers i hi ▸ hne)
  · rw [List.mem_singleton.1 hr]
    exact ⟨room, hmem, rfl, hkilling⟩

/-- A caller who is not the sweeper comes to be at work on a session. -/
theorem mem_guests_iff {i : Nat} (hi : i ≠ sweeper) (j id : Nat) :
    (sweeper, id) ∈ ([(i, j)] : List (Nat × Nat)) ↔ (sweeper, id) ∈ ([] : List (Nat × Nat)) :=
  ⟨fun h => absurd (Prod.mk.inj (List.mem_singleton.1 h)).1.symm hi, nofun⟩

/-- A compiler is at work for the only request. -/
def building : Service :=
  { Service.opening Hall.brief.registry.settings with dirs := [["a"]], builds := [["a"]] }

def started : Room where
  id := 1
  slot := 0
  scene := Scene.start .text Scene.quiet.session.child Hall.brief.registry.settings (some ["a"])

/-- Whatever the server is about, a request that was begun goes on to its end. -/
theorem exists_started (stage : Stage) (known : List Nat) : ∃ t : Service,
    Reaches ⟨building, stage, known⟩ ⟨t, stage, known⟩ ∧ t.hall.rooms = [started] ∧
      t.hall.keys = [1] ∧ t.registered = [1] ∧ t.hall.calls = [] ∧ t.builds = [] ∧ t.seekers = [] ∧
      t.guests = [] ∧ t.hands = [] := by
  have r : Reaches ⟨building, stage, known⟩ _ := .refl
  have r := r.tail (.goes _ (.arrive [] [] ["a"] rfl Nat.zero_lt_one) (aside_of_empty rfl rfl))
  have r := r.tail (.goes _ (.number [] [] 0 rfl) (aside_of_empty rfl rfl))
  have r := r.tail (.goes _ (.start [] [] 0 1 .text Scene.quiet.session.child [] [] ["a"] rfl rfl)
    (aside_of_idle (fun _ => Iff.rfl) (List.forall_mem_singleton.2 rfl)))
  have r := r.tail (.goes _ (.register [] [] _ .finished rfl (List.mem_singleton_self _))
    (aside_of_idle (fun _ => Iff.rfl) (List.forall_mem_singleton.2 rfl)))
  have r := r.tail (.goes _ (.find [] [] 1 1 rfl (List.mem_singleton_self 1) List.not_mem_nil)
    (aside_of_idle (mem_guests_iff (by decide) 1) (List.forall_mem_singleton.2 rfl)))
  have r := r.tail (.goes _ (.leave [] [] 1 _ rfl (List.mem_singleton_self _) rfl
    (.held _ (List.mem_singleton_self _) rfl (.pump rfl)))
    (aside_of_idle (fun id => (mem_guests_iff (by decide) 1 id).symm)
      (List.forall_mem_singleton.2 rfl)))
  exact ⟨_, r, rfl, rfl, rfl, rfl, rfl, rfl, rfl, rfl⟩

/-- A session runs when the server is told to stop, and is killed. -/
theorem cleared_of_killed_session : ∃ s, (opening Hall.brief.registry.settings).Reaches s ∧
    s.stage = .returned ∧ Cleared s ∧ s.known = [1] ∧
    s.service.hall.rooms.map (fun r => (r.id, r.scene.session.state, r.scene.session.exit)) =
      [(1, .killed, some (.killed 9))] := by
  have r : (opening Hall.brief.registry.settings).Reaches _ := .refl
  have r := r.tail (.comes building nofun (.build ["a"] (by decide))
    (aside_of_empty rfl rfl))
  obtain ⟨t, hr, hrooms, hkeys, hregistered, hcalls, hbuilds, hseekers, hguests, hhands⟩ :=
    exists_started .serving []
  have r := r.trans hr
  have r := r.tail (.tell rfl)
  have r := r.tail (.list [1] rfl (hkeys ▸ .refl _))
  have r := r.tail (.kill [] [] [] started .finished rfl hrooms rfl)
  have others : ∀ {v : Scene} {x : Task} (i : Nat), i ≠ sweeper →
      (v.put sweeper x).task i = v.task i := fun _ => Scene.task_put_of_ne _ _
  have r := Reaches.killing r rfl rfl (.enter sweeper false rfl rfl rfl) nofun others
  have r := Reaches.killing r rfl rfl (.goOn sweeper false .look .peek rfl rfl) nofun others
  have r := Reaches.killing r rfl rfl (.goOn sweeper false .peek .lookAgain rfl rfl) nofun others
  have r := Reaches.killing r rfl rfl (.goOn sweeper false .lookAgain .peekAgain rfl rfl) nofun others
  have r := Reaches.killing r rfl rfl (.goOn sweeper false .peekAgain .signal rfl rfl) nofun others
  have r := Reaches.killing r rfl rfl (.decide sweeper false .signal (.killed 9) true rfl rfl) nofun others
  have r := Reaches.killing r rfl rfl (.move sweeper false (.killed 9) rfl) nofun others
  have r := r.tail (.killed [] _ (by rfl) (List.mem_singleton_self _) rfl)
  have hguest : t.guests ++ [(sweeper, 1)] = [] ++ (sweeper, 1) :: [] := congrArg (· ++ [_]) hguests
  have r := r.tail (.letGo [] [] _ _ rfl (by exact hguest) (List.mem_singleton_self _) rfl
    (.held _ (List.mem_singleton_self _) rfl (.pump rfl)))
  have r := r.tail (.close rfl fun _ => List.not_mem_nil)
  have r := r.tail (.return_ rfl hbuilds hcalls hseekers rfl hhands)
  exact ⟨_, r, rfl, cleared_of_returned r rfl, hregistered, rfl⟩

/-- A compiler is at work when the server is told to stop. The session that it leads to comes too late to be
killed, and goes on running when the server has returned. -/
theorem session_outlives_server : ∃ s, (opening Hall.brief.registry.settings).Reaches s ∧
    s.stage = .returned ∧ ∃ r ∈ s.service.hall.rooms, r.id ∈ s.service.registered ∧
      r.scene.session.state = .running ∧ r.scene.session.exit = none := by
  have r : (opening Hall.brief.registry.settings).Reaches _ := .refl
  have r := r.tail (.comes building nofun (.build ["a"] (by decide))
    (aside_of_empty rfl rfl))
  have r := r.tail (.tell rfl)
  have r := r.tail (.list [] rfl (.refl _))
  have r := r.tail (.close rfl nofun)
  obtain ⟨t, hr, hrooms, -, hregistered, hcalls, hbuilds, hseekers, hguests, hhands⟩ :=
    exists_started .draining []
  have r := r.trans hr
  have r := r.tail (.return_ rfl hbuilds hcalls hseekers hguests hhands)
  exact ⟨_, r, rfl, started, hrooms ▸ List.mem_singleton_self _,
    hregistered ▸ List.mem_singleton_self _, rfl, rfl⟩

end Tenure

end SessionHost
