import SessionHost.Proofs.Service.Sound

/-!
# Scratch directories are kept as long as they are needed

A session exists as long as somebody holds it (`Service.AllHeld`), since whoever lets go of it looks whether
somebody else does.

* `Service.custody_of_reaches`: the directories that exist are those of builds, of calls and of sessions
  that are held. A request that is answered with an error leaves none behind, and that of a session is
  there until the session has finished, was reaped, and nobody holds it any more.
-/
namespace SessionHost

open Host (Path)
open scoped List

namespace Service

variable {s t : Service}

def AllHeld (s : Service) : Prop := ∀ r ∈ s.hall.rooms, s.Held r

/-- Whoever holds a session still does, or somebody else has come to. -/
structure HeldOn (s t : Service) (id : Nat) : Prop where
  keys : id ∈ s.hall.keys → id ∈ t.hall.keys ∨ id ∈ t.hands
  calls : .registering id ∈ s.hall.calls → .registering id ∈ t.hall.calls ∨ id ∈ t.hall.keys
  guests : ∀ i, (i, id) ∈ s.guests → (i, id) ∈ t.guests
  hands : id ∈ s.hands → id ∈ t.hands

theorem HeldOn.held {r r' : Room} (h : HeldOn s t r.id) (hr : s.Held r) (hid : r'.id = r.id)
    (hs : r'.stopped = r.stopped) : t.Held r' := by
  cases hr with
  | listed hk => exact (h.keys hk).elim (fun h => .listed (hid ▸ h)) fun h => .reap (hid ▸ h)
  | registering hc => exact (h.calls hc).elim (fun h => .registering (hid ▸ h)) fun h => .listed (hid ▸ h)
  | pump hp => exact .pump (hs.trans hp)
  | guest i hg => exact .guest i (hid ▸ h.guests i hg)
  | reap hh => exact .reap (hid ▸ h.hands hh)

theorem AllHeld.of_same (h : AllHeld s) (hr : t.hall.rooms = s.hall.rooms)
    (hon : ∀ id, HeldOn s t id) : AllHeld t := fun r hmem =>
  (hon r.id).held (h r (hr ▸ hmem)) rfl rfl

/-- If somebody lets go of a session, all that are left are held. -/
theorem Sound.allHeld_letGo (h : Sound s) {id : Nat}
    (hothers : ∀ r ∈ s.hall.rooms, r.id ≠ id → s.Held r) (ht : LetGo s id t) : AllHeld t := by
  cases ht with
  | held room hr hid hheld =>
    intro r hmem
    by_cases he : r.id = id
    · rw [h.numbered.room_inj hmem hr (he.trans hid.symm)]
      exact hheld
    · exact hothers r hmem he
  | last before after room hs hid hn =>
    intro r hmem
    have hheld := hothers r (hs ▸ Hall.mem_middle.2 (Or.inr hmem)) (hid ▸ h.ne_of_mem_others hs hmem)
    have hon : HeldOn s (s.drop before after room) r.id := by
      refine ⟨fun hk => Or.inl ?_, Or.inl, fun _ h => h, fun h => h⟩
      change r.id ∈ (s.hall.drop before after room).keys
      rwa [keys_drop]
    exact hon.held hheld rfl rfl

theorem mem_others {α : Type} {l before after : List α} {x y : α} (hl : l = before ++ x :: after)
    (hy : y ∈ l) (hne : y ≠ x) : y ∈ before ++ after :=
  (Hall.mem_middle.1 (hl ▸ hy)).resolve_left hne

/-- A call has gone on that was not about to register a session. -/
theorem heldOn_of_calls {before after : List Call} {c : Call} (middle : List Call)
    (hs : s.hall.calls = before ++ c :: after) (ht : t.hall.calls = before ++ (middle ++ after))
    (hc : ∀ id, c ≠ .registering id) (hk : t.hall.keys = s.hall.keys) (hg : t.guests = s.guests)
    (hh : t.hands = s.hands) (id : Nat) : HeldOn s t id where
  keys hid := Or.inl (hk ▸ hid)
  calls hid := by
    have hmem := mem_others hs hid fun he => hc id he.symm
    rw [ht]
    refine Or.inl ?_
    rcases List.mem_append.1 hmem with hmem | hmem
    · exact List.mem_append_left _ hmem
    · exact List.mem_append_right _ (List.mem_append_right _ hmem)
  guests i hmem := hg ▸ hmem
  hands hmem := hh ▸ hmem

theorem AllHeld.arrive (h : AllHeld s) {dirs builds : List Path} {launches : List (Nat × Path)}
    {refusals : List Refusal} :
    AllHeld { s with hall := s.hall.arrive, dirs, builds, launches, refusals } := by
  refine h.of_same (rooms_arrive s.hall) fun id => ⟨fun hid => Or.inl ?_,
    fun hid => Or.inl ((mem_calls_arrive s.hall (by nofun)).2 hid), fun _ h => h, fun h => h⟩
  change id ∈ s.hall.arrive.keys
  rwa [keys_arrive]

theorem AllHeld.register (h : AllHeld s) {before after : List Call} {room : Room} (pump : PumpState)
    {seekers : List Nat} (hc : s.hall.calls = before ++ .registering room.id :: after) :
    AllHeld { s with hall := s.hall.register before after room pump, seekers } := by
  have hkeys := keys_register s.hall before after room pump
  refine h.of_same rfl fun id => ⟨fun hid => Or.inl ?_, fun hid => ?_, fun _ h => h, fun h => h⟩
  · change id ∈ (s.hall.register before after room pump).keys
    rw [hkeys]
    exact List.mem_append_left _ hid
  · by_cases he : id = room.id
    · refine Or.inr ?_
      change id ∈ (s.hall.register before after room pump).keys
      rw [hkeys, he]
      exact List.mem_append_right _ (List.mem_singleton_self _)
    · exact Or.inl (mem_others hc hid fun heq => he (Call.registering.inj heq))

theorem AllHeld.work (h : AllHeld s) {before after : List Room} {room : Room} (t : Scene)
    (pump : PumpState) (hs : s.hall.rooms = before ++ room :: after) :
    AllHeld { s with hall := s.hall.work before after room t pump } := by
  have hon : ∀ id, HeldOn s { s with hall := s.hall.work before after room t pump } id := by
    refine fun id => ⟨fun hid => Or.inl ?_, Or.inl, fun _ h => h, fun h => h⟩
    change id ∈ (s.hall.work before after room t pump).keys
    rwa [keys_work]
  intro r hr
  rcases Hall.mem_middle.1 hr with rfl | hr
  · exact (hon room.id).held (h room (hs ▸ Hall.mem_middle.2 (Or.inl rfl))) rfl rfl
  · exact (hon r.id).held (h r (hs ▸ Hall.mem_middle.2 (Or.inr hr))) rfl rfl

theorem AllHeld.takeAway (h : AllHeld s) (takes : Nat → Bool) : AllHeld (s.takeAway takes) := by
  refine h.of_same rfl fun id => ⟨fun hid => ?_, Or.inl, fun _ h => h, List.mem_append_left _⟩
  cases htakes : takes id with
  | false => exact Or.inl (mem_keys_takeAway.2 ⟨hid, htakes⟩)
  | true => exact Or.inr (List.mem_append_right _ (List.mem_filter.2 ⟨hid, htakes⟩))

theorem AllHeld.of_comes (h : AllHeld s) (hst : Comes s t) : AllHeld t := by
  cases hst with
  | early | build => exact h.of_same rfl fun _ => ⟨Or.inl, Or.inl, fun _ h => h, fun h => h⟩
  | visit => exact h.of_same rfl fun _ => ⟨Or.inl, Or.inl, fun _ => List.mem_append_left _, fun h => h⟩

theorem Sound.allHeld_of_goes (h : Sound s) (hall : AllHeld s) (hst : Goes s t) : AllHeld t := by
  cases hst with
  | buildFails | clientLeaves | lose =>
    exact hall.of_same rfl fun _ => ⟨Or.inl, Or.inl, fun _ h => h, fun h => h⟩
  | find => exact hall.of_same rfl fun _ => ⟨Or.inl, Or.inl, fun _ => List.mem_append_left _, fun h => h⟩
  | arrive | exhausted => exact hall.arrive
  | number before after slot hc =>
    exact hall.of_same rfl (heldOn_of_calls [_] hc rfl nofun rfl rfl rfl)
  | fail before after slot id program message left right dir hc =>
    exact hall.of_same rfl (heldOn_of_calls [] hc rfl nofun rfl rfl rfl)
  | start before after slot id mode child left right dir hc =>
    intro r hr
    rcases List.mem_append.1 hr with hr | hr
    · have hon : HeldOn s { s with
          hall := s.hall.start before after slot id mode child (some dir)
          launches := left ++ right
          started := s.started ++ [(id, dir)] } r.id := by
        refine heldOn_of_calls [.registering id] hc ?_ nofun ?_ ?_ ?_ r.id <;> rfl
      exact hon.held (hall r hr) rfl rfl
    · rw [List.mem_singleton.1 hr]
      exact .pump rfl
  | register before after room pump hc => exact hall.register pump hc
  | work before after room u pump hs => exact hall.work u pump hs
  | leave before after i room hg hr hi ht =>
    refine (h.leave hg hr hi).allHeld_letGo (fun r hmem hne => ?_) ht
    have hon : HeldOn s { s with guests := before ++ after } r.id :=
      ⟨Or.inl, Or.inl, fun j hj => mem_others hg hj fun he => hne (Prod.mk.inj he).2, fun h => h⟩
    exact hon.held (hall r hmem) rfl rfl
  | pumpReturns before after room e hs hp ht =>
    refine (h.stop hs hp).allHeld_letGo (fun r hmem hne => ?_) ht
    have hr : r ∈ before ++ after := (Hall.mem_middle.1 hmem).resolve_left fun he => hne (by rw [he])
    have hon : HeldOn s { s with hall := s.hall.stop before after room } r.id :=
      ⟨Or.inl, Or.inl, fun _ h => h, fun h => h⟩
    exact hon.held (hall r (hs ▸ Hall.mem_middle.2 (Or.inr hr))) rfl rfl
  | reap now takes => exact hall.takeAway takes
  | reapLetsGo before after id hs ht =>
    have hsub : ∀ id' ∈ before ++ after, id' ∈ s.hands := fun _ hid =>
      hs ▸ Hall.mem_middle.2 (Or.inr hid)
    refine (h.of_hands hsub).allHeld_letGo (fun r hmem hne => ?_) ht
    have hon : HeldOn s { s with hands := before ++ after } r.id :=
      ⟨Or.inl, Or.inl, fun _ h => h, fun hh => mem_others hs hh hne⟩
    exact hon.held (hall r hmem) rfl rfl

theorem Sound.allHeld_of_step (h : Sound s) (hall : AllHeld s) (hst : Step s t) : AllHeld t := by
  cases hst with
  | comes hst => exact hall.of_comes hst
  | goes hst => exact h.allHeld_of_goes hall hst

/-! ## The last one to let go -/

/-- A session has gone, and its directory is removed. -/
def Left (s : Service) (room : Room) : Prop :=
  ∃ r ∈ s.gone, r.id = room.id ∧ r.scratch? = room.scratch? ∧
    ∀ dir, room.scratch? = some dir → dir ∉ s.dirs

theorem Sound.mem_dirs (h : Sound s) {room : Room} (hr : room ∈ s.hall.rooms) {dir : Path}
    (hd : room.scratch? = some dir) : dir ∈ s.dirs :=
  h.dirs.mem_iff.2 (List.mem_append_right _ (List.mem_filterMap.2 ⟨room, hr, hd⟩))

theorem Sound.left_drop (h : Sound s) (before after : List Room) (room : Room) :
    (s.drop before after room).Left room := by
  refine ⟨room, List.mem_append_right _ (List.mem_singleton_self _), rfl, rfl, fun dir hd => ?_⟩
  change dir ∉ room.scratch?.elim s.dirs s.dirs.erase
  rw [hd]
  exact h.nodup.not_mem_erase

/-- Whoever lets go of a session may find that somebody else holds it, and otherwise it goes. -/
theorem Sound.exists_letGo (h : Sound s) {room : Room} (hr : room ∈ s.hall.rooms) :
    ∃ t, LetGo s room.id t ∧ (t = s ∨ t.Left room) := by
  by_cases hheld : s.Held room
  · exact ⟨s, .held room hr rfl hheld, Or.inl rfl⟩
  · obtain ⟨before, after, hs⟩ := List.append_of_mem hr
    exact ⟨_, .last before after room hs rfl hheld, Or.inr (h.left_drop before after room)⟩

/-- A session that cannot be found any more, on which everybody has done what there was to do. -/
structure Retired (s : Service) (room : Room) : Prop where
  mem : room ∈ s.hall.rooms
  unlisted : room.id ∉ s.hall.keys
  registered : .registering room.id ∉ s.hall.calls
  idle : ∀ i, room.scene.task i = .idle

/-- How often guests and reaps hold a session. -/
def holders (s : Service) : Nat := s.guests.length + s.hands.length

/-- If only guests and reaps hold a session, one of them lets go, and the session goes or is held by fewer. -/
theorem Sound.exists_fewer (h : Sound s) (hall : AllHeld s) {room : Room} (hr : s.Retired room)
    (hstopped : room.stopped = true) :
    ∃ t, Goes s t ∧ (t.Left room ∨ t.Retired room ∧ t.holders < s.holders) := by
  cases hall room hr.mem with
  | listed hk => exact absurd hk hr.unlisted
  | registering hc => exact absurd hc hr.registered
  | pump hp => rw [hstopped] at hp; cases hp
  | guest i hg =>
    obtain ⟨before, after, hs⟩ := List.append_of_mem hg
    obtain ⟨t, ht, hleft⟩ := (h.leave hs hr.mem (hr.idle i)).exists_letGo hr.mem
    refine ⟨t, .leave before after i room hs hr.mem (hr.idle i) ht, ?_⟩
    rcases hleft with rfl | hleft
    · refine Or.inr ⟨⟨hr.mem, hr.unlisted, hr.registered, hr.idle⟩, ?_⟩
      simp only [holders, hs, List.length_append, List.length_cons]
      omega
    · exact Or.inl hleft
  | reap hh =>
    obtain ⟨before, after, hs⟩ := List.append_of_mem hh
    have hsub : ∀ id' ∈ before ++ after, id' ∈ s.hands := fun _ hid =>
      hs ▸ Hall.mem_middle.2 (Or.inr hid)
    have hmem : room ∈ ({ s with hands := before ++ after } : Service).hall.rooms := hr.mem
    obtain ⟨t, ht, hleft⟩ := (h.of_hands hsub).exists_letGo hmem
    refine ⟨t, .reapLetsGo before after room.id hs ht, ?_⟩
    rcases hleft with rfl | hleft
    · refine Or.inr ⟨⟨hr.mem, hr.unlisted, hr.registered, hr.idle⟩, ?_⟩
      simp only [holders, hs, List.length_append, List.length_cons]
      omega
    · exact Or.inl hleft

/-- Those who still hold a session let go of it, one after the other. -/
theorem Sound.left_of_stopped (h : Sound s) (hall : AllHeld s) {room : Room} (hr : s.Retired room)
    (hstopped : room.stopped = true) : ∃ t, Relation.ReflTransGen Goes s t ∧ t.Left room := by
  induction hn : s.holders using Nat.strong_induction_on generalizing s with
  | _ n ih =>
    obtain ⟨t, hst, hleft | ⟨hretired, hless⟩⟩ := h.exists_fewer hall hr hstopped
    · exact ⟨t, .single hst, hleft⟩
    · obtain ⟨u, hu, hleft⟩ :=
        ih _ (hn ▸ hless) (h.of_goes hst) (h.allHeld_of_goes hall hst) hretired rfl
      exact ⟨u, .head hst hu, hleft⟩

/-- The pump of a session takes the steps that are left of its end, and returns. -/
theorem Sound.left_of_finishing (h : Sound s) (hall : AllHeld s) {room : Room} (hr : s.Retired room)
    {e : ExitInfo} {steps : List FinishStep} (hp : room.scene.pump = .finishing e steps)
    (hrecord : .record ∉ steps) (hpacer : .closePacer ∉ steps) (hstopped : room.stopped = false) :
    ∃ t, Relation.ReflTransGen Goes s t ∧ t.Left room := by
  obtain ⟨before, after, hs⟩ := List.append_of_mem hr.mem
  induction steps generalizing s room with
  | nil =>
    have hsound := h.stop hs hp
    have hmem : { room with stopped := true } ∈ (s.hall.stop before after room).rooms :=
      Hall.mem_middle.2 (Or.inl rfl)
    obtain ⟨t, ht, hleft⟩ := hsound.exists_letGo hmem
    have hst : Goes s t := .pumpReturns before after room e hs hp ht
    rcases hleft with rfl | hleft
    · have hretired : Retired { s with hall := s.hall.stop before after room }
          { room with stopped := true } := ⟨hmem, hr.unlisted, hr.registered, hr.idle⟩
      obtain ⟨u, hu, hleft⟩ := (h.of_goes hst).left_of_stopped (h.allHeld_of_goes hall hst) hretired rfl
      exact ⟨u, .head hst hu, hleft⟩
    · exact ⟨t, .single hst, hleft⟩
  | cons f rest ih =>
    obtain ⟨u, hu⟩ : ∃ u : Scene, u = { room.scene with
      session := f.apply e 0 room.scene.session, pump := .finishing e rest } := ⟨_, rfl⟩
    have hsc : room.scene.Step u := by
      rw [hu]
      exact .pump (.finish e f rest 0 hp (fun hf => absurd (hf ▸ List.mem_cons_self) hrecord)
        fun hf => absurd (hf ▸ List.mem_cons_self) hpacer)
    have htask : ∀ i, u.task i = .idle := fun i => hu ▸ hr.idle i
    have hst : Goes s { s with hall := s.hall.work before after room u .finished } := by
      refine .work before after room u .finished hs hsc (fun hst => ?_) fun i hi => absurd (htask i) hi
      rw [hstopped] at hst
      cases hst
    have hretired : Retired { s with hall := s.hall.work before after room u .finished }
        { room with scene := u } :=
      ⟨Hall.mem_middle.2 (Or.inl rfl), fun hk => hr.unlisted (keys_work .. ▸ hk), hr.registered, htask⟩
    obtain ⟨t, ht, r, hgone, hid, hscratch, hdir⟩ := ih (h.of_goes hst) (h.allHeld_of_goes hall hst)
      hretired (hu ▸ rfl) (fun hmem => hrecord (List.mem_cons_of_mem _ hmem))
      (fun hmem => hpacer (List.mem_cons_of_mem _ hmem)) hstopped rfl
    have hsame : Room.scratch? { room with scene := u } = room.scratch? := hsc.scratch
    exact ⟨t, .head hst ht, r, hgone, hid, hscratch.trans hsame, hsame ▸ hdir⟩

theorem Sound.left_of_retired (h : Sound s) (hall : AllHeld s) {room : Room} (hr : s.Retired room) :
    ∃ t, Relation.ReflTransGen Goes s t ∧ t.Left room := by
  cases hstopped : room.stopped with
  | true => exact h.left_of_stopped hall hr hstopped
  | false =>
    obtain ⟨-, at_, hat⟩ := ((h.known room hr.mem).resolve_left hr.unlisted).resolve_left hr.registered
    obtain ⟨mode, child, settings, scratch, hbegun⟩ := h.listed.begun room hr.mem
    have hclosing := Scene.closing_of_reaches hbegun
    have hstamp : room.scene.Past .stamp := hclosing.own .stamp trivial ⟨at_, hat⟩
    obtain ⟨e, steps, hp, hn⟩ := hstamp
    have hsuffix := hclosing.steps e steps hp
    exact h.left_of_finishing hall hr hp (FinishStep.not_mem_of_le hsuffix (by decide) hn)
      (FinishStep.not_mem_of_le hsuffix (by decide) hn) hstopped

/-! ## What one step removes -/

theorem LetGo.books {id : Nat} (h : LetGo s id t) : t.refusals = s.refusals ∧
    (t.gone = s.gone ∨ ∃ r ∈ s.hall.rooms, t.gone = s.gone ++ [r] ∧
      t.dirs = r.scratch?.elim s.dirs s.dirs.erase) := by
  cases h with
  | held => exact ⟨rfl, Or.inl rfl⟩
  | last before after room hs _ hn =>
    exact ⟨rfl, Or.inr ⟨room, hs ▸ Hall.mem_middle.2 (Or.inl rfl), rfl, rfl⟩⟩

/-- A request for which there was a directory is refused as its directory is removed. -/
theorem Step.refused (hst : Step s t) {x : Refusal} (hx : t.refusals = s.refusals ++ [x]) {dir : Path}
    (hd : x.dir? = some dir) :
    (dir ∈ s.builds ∨ dir ∈ s.launches.map (·.2)) ∧ t.dirs = s.dirs.erase dir := by
  have hne : s.refusals ≠ s.refusals ++ [x] := fun h => by simpa using congrArg List.length h
  have hlast : ∀ y, s.refusals ++ [y] = s.refusals ++ [x] → y.dir? = some dir := fun y hy => by
    rw [List.singleton_inj.1 (List.append_cancel_left hy), hd]
  rcases hst with hst | hst
  · cases hst with
    | early e => cases hlast _ hx
    | build | visit => exact absurd hx hne
  · cases hst with
    | buildFails before after d e hb | exhausted before after d hb =>
      cases hlast _ hx
      exact ⟨Or.inl (hb ▸ List.mem_append_right _ List.mem_cons_self), rfl⟩
    | fail before after slot id program message left right d hc hl =>
      cases hlast _ hx
      refine ⟨Or.inr (List.mem_map.2 ⟨(slot, dir), ?_, rfl⟩), rfl⟩
      exact hl ▸ List.mem_append_right _ List.mem_cons_self
    | lose before after id => cases hlast _ hx
    | leave before after i room _ _ _ ht => exact absurd (ht.books.1.symm.trans hx) hne
    | pumpReturns before after room e _ _ ht => exact absurd (ht.books.1.symm.trans hx) hne
    | reapLetsGo before after id _ ht => exact absurd (ht.books.1.symm.trans hx) hne
    | _ => exact absurd hx hne

theorem Step.removed (hst : Step s t) {r : Room} (hr : t.gone = s.gone ++ [r]) :
    (∃ r' ∈ s.hall.rooms, r'.scratch? = r.scratch?) ∧ t.dirs = r.scratch?.elim s.dirs s.dirs.erase := by
  have hne : s.gone ≠ s.gone ++ [r] := fun h => by simpa using congrArg List.length h
  have hlet : ∀ {u id}, LetGo u id t → u.gone = s.gone →
      r ∈ u.hall.rooms ∧ t.dirs = r.scratch?.elim u.dirs u.dirs.erase := by
    intro u id ht hu
    rcases ht.books.2 with hgone | ⟨r', hr', hgone, hdirs⟩
    · exact absurd ((hu.symm.trans hgone.symm).trans hr) hne
    · rw [hu, hr] at hgone
      obtain rfl := List.singleton_inj.1 (List.append_cancel_left hgone)
      exact ⟨hr', hdirs⟩
  rcases hst with hst | hst
  · cases hst with
    | _ => exact absurd hr hne
  · cases hst with
    | leave before after i room _ _ _ ht => exact (hlet ht rfl).imp_left fun hmem => ⟨r, hmem, rfl⟩
    | pumpReturns before after room e hs _ ht =>
      refine (hlet ht rfl).imp_left fun hmem => ?_
      rcases Hall.mem_middle.1 hmem with rfl | hmem
      · exact ⟨room, hs ▸ Hall.mem_middle.2 (Or.inl rfl), rfl⟩
      · exact ⟨r, hs ▸ Hall.mem_middle.2 (Or.inr hmem), rfl⟩
    | reapLetsGo before after id _ ht => exact (hlet ht rfl).imp_left fun hmem => ⟨r, hmem, rfl⟩
    | _ => exact absurd hr hne

/-! ## At every time -/

/-- What is known at a time of the scratch directories. -/
structure Custody (s : Service) : Prop where
  /-- Those that exist are those of the builds, of the calls that have no session yet, and of the
  sessions. -/
  exact : s.dirs ~ s.builds ++ s.launches.map (·.2) ++ s.hall.rooms.filterMap Room.scratch?
  nodup : s.dirs.Nodup
  /-- There is one for each call that has no session yet. -/
  launching : s.launches.map (·.1) ~ s.hall.calls.filterMap Call.slot?
  /-- All sessions that exist are held. -/
  held : ∀ r ∈ s.hall.rooms, s.Held r
  /-- And all that are held exist. -/
  exist : ∀ id, id ∈ s.hall.keys ∨ .registering id ∈ s.hall.calls ∨ (∃ i, (i, id) ∈ s.guests) ∨
    id ∈ s.hands → ∃ r ∈ s.hall.rooms, r.id = id
  /-- A request that is answered with an error leaves none behind. -/
  refused : ∀ t, Step s t → ∀ x, t.refusals = s.refusals ++ [x] → ∀ dir, x.dir? = some dir →
    dir ∈ s.dirs ∧ dir ∉ t.dirs
  /-- Unless it is told that the session it had created was reaped. -/
  lost : ∀ id, .lost id ∈ s.refusals → id ∈ s.reaped
  /-- The directory of a session that was started is there, or the session has finished and was reaped. -/
  started : ∀ x ∈ s.started,
    (∃ r ∈ s.hall.rooms, r.id = x.1 ∧ r.scratch? = some x.2 ∧ x.2 ∈ s.dirs) ∨
    ∃ r ∈ s.gone, r.id = x.1 ∧ r.scratch? = some x.2 ∧ r.Finished ∧ r.id ∈ s.reaped
  /-- Only sessions that have finished are reaped. -/
  reaped : ∀ id ∈ s.reaped, s.Ever fun r => r.id = id ∧ r.Finished
  /-- With the session goes its directory. -/
  removed : ∀ t, Step s t → ∀ r, t.gone = s.gone ++ [r] → ∀ dir, r.scratch? = some dir →
    dir ∈ s.dirs ∧ dir ∉ t.dirs
  /-- And when nobody has anything left to do on a session that was reaped, it is on its way. -/
  goes : ∀ r, s.Retired r → ∃ t, Relation.ReflTransGen Goes s t ∧ t.Left r

theorem allHeld_opening (settings : SessionSettings) : AllHeld (opening settings) :=
  fun _ h => absurd h List.not_mem_nil

/-- Whoever comes and whoever goes on, scratch directories are in somebody's custody at every time. -/
theorem custody_of_reaches {settings : SessionSettings} (h : (opening settings).Reaches s) :
    Custody s := by
  have hboth : Sound s ∧ AllHeld s :=
    h.keeps (P := fun s => Sound s ∧ AllHeld s)
      (fun _ _ hs hst => ⟨hs.1.of_step hst, hs.1.allHeld_of_step hs.2 hst⟩)
      ⟨sound_opening settings, allHeld_opening settings⟩
  obtain ⟨hsound, hheld⟩ := hboth
  refine {
    exact := hsound.dirs
    nodup := hsound.nodup
    launching := hsound.launching
    held := hheld
    exist := ?exist
    refused := ?refused
    lost := hsound.lost
    started := ?started
    reaped := hsound.reaped
    removed := ?removed
    goes := fun r hr => hsound.left_of_retired hheld hr }
  case exist =>
    rintro id (hk | hc | ⟨i, hg⟩ | hh)
    · exact hsound.exists_of_key hk
    · refine hsound.listed.exists_room (List.mem_append_left _ ?_)
      exact List.mem_filterMap.2 ⟨_, hc, rfl⟩
    · exact hsound.guests _ hg
    · exact hsound.hands id hh
  case refused =>
    intro t hst x hx dir hd
    obtain ⟨hown, hdirs⟩ := hst.refused hx hd
    have hmem : dir ∈ s.owned := List.mem_append_left _ (List.mem_append.2 hown)
    exact ⟨hsound.dirs.mem_iff.2 hmem, hdirs ▸ hsound.nodup.not_mem_erase⟩
  case started =>
    intro x hx
    rcases hsound.started x hx with ⟨r, hr, hid, hd⟩ | ⟨r, hr, hid, hd⟩
    · exact Or.inl ⟨r, hr, hid, hd, hsound.mem_dirs hr hd⟩
    · obtain ⟨hreaped, hf, -⟩ := hsound.gone r hr
      exact Or.inr ⟨r, hr, hid, hd, hf, hreaped⟩
  case removed =>
    intro t hst r hr dir hd
    obtain ⟨⟨r', hr', hsame⟩, hdirs⟩ := hst.removed hr
    rw [hd] at hdirs
    exact ⟨hsound.mem_dirs hr' (hsame.trans hd), hdirs ▸ hsound.nodup.not_mem_erase⟩

/-- Somebody goes on who is at work on the only session, and nobody but its pump is. -/
theorem Goes.alone {room : Room} {u : Scene} (h : s.hall.rooms = [room]) (hr : room.stopped = false)
    (hst : room.scene.Step u) (hi : ∀ i, u.task i = .idle) :
    Goes s { s with hall := s.hall.work [] [] room u .finished } :=
  .work [] [] room u .finished h hst (fun hs => by rw [hr] at hs; cases hs) fun i ht => absurd (hi i) ht

/-- Of three requests one does not compile, and one is turned away as there is one place only. The session
of the other one ends and is reaped, and its directory goes with it, while the compiler is at work for a
fourth request. -/
theorem custody_of_reaped_session : ∃ s, (opening Hall.brief.registry.settings).Reaches s ∧ Custody s ∧
    s.dirs = [["d"]] ∧ s.builds = [["d"]] ∧ s.refusals = [
      .late ["a"] (.build (.compileFailed "")), .late ["c"] (.session (.resourceExhausted 1))] ∧
    s.started = [(1, ["b"])] ∧ s.reaped = [1] ∧ s.gone.map (·.id) = [1] ∧ s.hall.rooms = [] := by
  have r : (opening Hall.brief.registry.settings).Reaches _ := .refl
  have r := r.tail (.comes (.build ["a"] (by decide)))
  have r := r.tail (.comes (.build ["b"] (by decide)))
  have r := r.tail (.goes (.buildFails [] [["b"]] ["a"] (.compileFailed "") rfl))
  have r := r.tail (.comes (.build ["c"] (by decide)))
  have r := r.tail (.goes (.arrive [] [["c"]] ["b"] rfl (by decide)))
  have r := r.tail (.goes (.number [] [] 0 rfl))
  have r := r.tail (.goes (.start [] [] 0 1 .text Scene.quiet.session.child [] [] ["b"] rfl rfl))
  have r := r.tail (.goes (.register [] [] _ .finished rfl (List.mem_singleton_self _)))
  have r := r.tail (.goes (.exhausted [] [] ["c"] rfl (by decide)))
  have r := r.tail (.goes (.find [] [] 0 1 rfl (by decide) (by decide)))
  have r := r.tail (.goes (.alone rfl rfl (.pump (.beginFinish (.exited 0) rfl)) fun _ => rfl))
  have r := r.tail (.goes (.alone rfl rfl (.pump (.finish _ .record _ 0 rfl (fun _ => rfl) nofun))
    fun _ => rfl))
  have r := r.tail (.goes (.alone rfl rfl (.pump (.finish _ .move _ 0 rfl nofun nofun)) fun _ => rfl))
  have r := r.tail (.goes (.alone rfl rfl (.pump (.finish _ .sealLog _ 0 rfl nofun nofun)) fun _ => rfl))
  have r := r.tail (.goes (.alone rfl rfl (.pump (.finish _ .closePacer _ 0 rfl nofun fun _ => rfl))
    fun _ => rfl))
  have r := r.tail (.goes (.alone rfl rfl (.pump (.finish _ .closeInput _ 0 rfl nofun nofun))
    fun _ => rfl))
  have r := r.tail (.goes (.alone rfl rfl (.pump (.finish _ .releaseSlot _ 0 rfl nofun nofun))
    fun _ => rfl))
  have r := r.tail (.goes (.alone rfl rfl (.pump (.finish _ .stamp _ 0 rfl nofun nofun)) fun _ => rfl))
  have r := r.tail (.goes (.alone rfl rfl (.pump (.finish _ .announce _ 0 rfl nofun nofun)) fun _ => rfl))
  have r := r.tail (.goes (.pumpReturns [] [] _ _ rfl rfl
    (.held _ (List.mem_singleton_self _) rfl (.listed (by decide)))))
  have r := r.tail (.goes (.reap 3 (fun _ => true) (List.forall_mem_singleton.2 fun _ => rfl)))
  have r := r.tail (.goes (.leave [] [] 0 _ rfl (List.mem_singleton_self _) rfl
    (.held _ (List.mem_singleton_self _) rfl (.reap (by decide)))))
  have r := r.tail (.comes (.build ["d"] (by decide)))
  have r := r.tail (.goes (.reapLetsGo [] [] 1 rfl (.last [] [] _ rfl rfl fun hheld => by
    cases hheld with
    | listed h | registering h | guest _ h | reap h => cases h
    | pump h => cases h)))
  exact ⟨_, r, custody_of_reaches r, rfl, rfl, rfl, rfl, rfl, rfl, rfl⟩

end Service

end SessionHost
