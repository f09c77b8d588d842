import SessionHost.Proofs.Hall.Dated
import SessionHost.Proofs.Service.Step

/-!
# Who has which scratch directory

Every directory has one owner: a build, a call that has no session yet, or a session. A step hands a
directory on, or removes it together with its owner. `Service.Sound` is what holds of this at every time,
whoever holds the sessions, and every step keeps it.
-/
namespace SessionHost

open Host (Path)
open scoped List

theorem Scene.Step.scratch {s t : Scene} (h : s.Step t) : t.session.scratch = s.session.scratch := by
  cases h with
  | read h => cases h <;> rfl
  | kill h => cases h <;> rfl
  | tell h => cases h <;> rfl
  | world h => cases h <;> rfl
  | send h =>
    cases h with
    | exited i paced | closed i paced | move i paced => cases paced <;> rfl
    | _ => rfl
  | pump h =>
    cases h with
    | move prompt paced => cases paced <;> rfl
    | finish e f => cases f <;> rfl
    | _ => rfl

/-- What stands first among others is erased, and they stay as they are. -/
theorem erase_perm_of_perm_cons {α : Type} [BEq α] [LawfulBEq α] {l l' : List α} {x : α}
    (h : l ~ x :: l') : l.erase x ~ l' := by
  have he := h.erase x
  rwa [List.erase_cons_head] at he

namespace Service

variable {s t : Service}

def owned (s : Service) : List Path :=
  s.builds ++ s.launches.map (·.2) ++ s.hall.rooms.filterMap Room.scratch?

/-- There is such a session, or was. -/
def Ever (s : Service) (P : Room → Prop) : Prop := (∃ r ∈ s.hall.rooms, P r) ∨ ∃ r ∈ s.gone, P r

structure Sound (s : Service) : Prop where
  opened : s.hall.closed = false
  numbered : s.hall.Numbered
  listed : s.hall.Listed
  dirs : s.dirs ~ s.owned
  nodup : s.dirs.Nodup
  /-- A call has a directory as long as it has no session. -/
  launching : s.launches.map (·.1) ~ s.hall.calls.filterMap Call.slot?
  known : ∀ r ∈ s.hall.rooms, r.id ∈ s.hall.keys ∨ .registering r.id ∈ s.hall.calls ∨
    r.id ∈ s.reaped ∧ r.Finished
  guests : ∀ g ∈ s.guests, ∃ r ∈ s.hall.rooms, r.id = g.2
  hands : ∀ id ∈ s.hands, ∃ r ∈ s.hall.rooms, r.id = id
  /-- Whoever is at work on a session is known to be. -/
  busy : ∀ r ∈ s.hall.rooms, ∀ i, r.scene.task i ≠ .idle → (i, r.id) ∈ s.guests
  stopped : ∀ r ∈ s.hall.rooms, r.stopped = true → ∃ e, r.scene.pump = .finishing e []
  seekers : ∀ id ∈ s.seekers, id ∈ s.hall.keys ∨ id ∈ s.reaped
  lost : ∀ id, .lost id ∈ s.refusals → id ∈ s.reaped
  reaped : ∀ id ∈ s.reaped, s.Ever fun r => r.id = id ∧ r.Finished
  started : ∀ x ∈ s.started, s.Ever fun r => r.id = x.1 ∧ r.scratch? = some x.2
  gone : ∀ r ∈ s.gone, r.id ∈ s.reaped ∧ r.Finished ∧ r.IsDone

theorem sound_opening (settings : SessionSettings) : Sound (opening settings) where
  opened := rfl
  numbered := Hall.numbered_opening settings
  listed := Hall.listed_opening settings
  dirs := .refl _
  nodup := .nil
  launching := .refl _
  known _ h := absurd h List.not_mem_nil
  guests _ h := absurd h List.not_mem_nil
  hands _ h := absurd h List.not_mem_nil
  busy _ h := absurd h List.not_mem_nil
  stopped _ h := absurd h List.not_mem_nil
  seekers _ h := absurd h List.not_mem_nil
  lost _ h := absurd h List.not_mem_nil
  reaped _ h := absurd h List.not_mem_nil
  started _ h := absurd h List.not_mem_nil
  gone _ h := absurd h List.not_mem_nil

/-! ## Directories -/

/-- A directory that is made belongs to nobody yet. -/
theorem Sound.dirs_build (h : Sound s) (dir : Path) :
    s.dirs ++ [dir] ~ s.builds ++ [dir] ++ s.launches.map (·.2) ++
      s.hall.rooms.filterMap Room.scratch? := by
  refine (List.perm_append_singleton ..).trans ((h.dirs.cons dir).trans ?_)
  simp only [owned, List.append_assoc, List.singleton_append]
  exact List.perm_middle.symm

theorem Sound.nodup_build (h : Sound s) {dir : Path} (hn : dir ∉ s.dirs) : (s.dirs ++ [dir]).Nodup :=
  (List.perm_append_singleton ..).nodup_iff.2 (List.nodup_cons.2 ⟨hn, h.nodup⟩)

/-- The directory of a build comes first, as far as it matters. -/
theorem Sound.dirs_cons_build (h : Sound s) {before after : List Path} {dir : Path}
    (hb : s.builds = before ++ dir :: after) :
    s.dirs ~ dir :: (before ++ after ++ s.launches.map (·.2) ++
      s.hall.rooms.filterMap Room.scratch?) := by
  refine h.dirs.trans ?_
  simp only [owned, hb, List.append_assoc, List.cons_append]
  exact List.perm_middle

theorem Sound.dirs_cons_launch (h : Sound s) {left right : List (Nat × Path)} {slot : Nat} {dir : Path}
    (hl : s.launches = left ++ (slot, dir) :: right) :
    s.dirs ~ dir :: (s.builds ++ (left ++ right).map (·.2) ++
      s.hall.rooms.filterMap Room.scratch?) := by
  refine h.dirs.trans ?_
  simp only [owned, hl, List.map_append, List.map_cons, List.append_assoc, List.cons_append]
  rw [← List.append_assoc, ← List.append_assoc]
  exact List.perm_middle

theorem launching_drop {left right : List (Nat × Path)} {slot : Nat} {dir : Path} {slots : List Nat}
    {before after : List Call} {c : Call} (hc : c.slot? = some slot)
    (h : (left ++ (slot, dir) :: right).map (·.1) ~ (before ++ c :: after).filterMap Call.slot?)
    (hs : slots = (before ++ after).filterMap Call.slot?) : (left ++ right).map (·.1) ~ slots := by
  rw [hs]
  simp only [List.map_append, List.map_cons, List.filterMap_append, List.filterMap_cons, hc] at h ⊢
  exact (List.perm_cons slot).1 (List.perm_middle.symm.trans (h.trans List.perm_middle))

/-! ## Steps of a hall -/

section

variable (s : Hall)

/-- A call that comes leaves the sessions as they are, and no number is given out. -/
theorem rooms_arrive : s.arrive.rooms = s.rooms := by
  rw [Hall.arrive_eq]
  split <;> rfl

theorem keys_arrive : s.arrive.keys = s.keys := by
  rw [Hall.arrive_eq]
  split <;> rfl

theorem nextId_arrive : s.arrive.registry.nextId = s.registry.nextId := by
  rw [Hall.arrive_eq]
  split <;> rfl

theorem mem_calls_arrive {c : Call} (hc : ∀ slot, c ≠ .reserved slot) :
    c ∈ s.arrive.calls ↔ c ∈ s.calls := by
  rw [Hall.arrive_eq]
  split
  · exact ⟨fun h => (List.mem_append.1 h).resolve_right fun h => hc _ (List.mem_singleton.1 h),
      List.mem_append_left _⟩
  · exact Iff.rfl

theorem keys_register (before after : List Call) (room : Room) (pump : PumpState) :
    (s.register before after room pump).keys = s.keys ++ [room.id] := by
  simp [Hall.keys, Hall.register, Registry.add]

theorem keys_work (before after : List Room) (room : Room) (t : Scene) (pump : PumpState) :
    (s.work before after room t pump).keys = s.keys := by
  unfold Hall.keys
  rw [Hall.entries_work, Registry.numbers_put]

theorem keys_drop (before after : List Room) (room : Room) :
    (s.drop before after room).keys = s.keys := by
  unfold Hall.keys
  rw [Hall.entries_drop]

end

/-! ## Calls -/

theorem Sound.of_calls (h : Sound s) {hall : Hall} (dirs builds : List Path)
    (launches : List (Nat × Path)) (hst : s.hall.Step hall) (ho : hall.closed = false)
    (hr : hall.rooms = s.hall.rooms) (hk : hall.keys = s.hall.keys)
    (hc : ∀ id, .registering id ∈ s.hall.calls → .registering id ∈ hall.calls)
    (hd : dirs ~ builds ++ launches.map (·.2) ++ s.hall.rooms.filterMap Room.scratch?)
    (hn : dirs.Nodup) (hl : launches.map (·.1) ~ hall.calls.filterMap Call.slot?) :
    Sound { s with hall, dirs, builds, launches } where
  opened := ho
  numbered := h.numbered.of_numbering hst.numbering
  listed := h.listed.of_step h.numbered hst
  dirs := by
    unfold owned
    rw [hr]
    exact hd
  nodup := hn
  launching := hl
  known r hmem := by
    rw [hk]
    rcases h.known r (hr ▸ hmem) with hkey | hcall | hreaped
    · exact Or.inl hkey
    · exact Or.inr (Or.inl (hc _ hcall))
    · exact Or.inr (Or.inr hreaped)
  guests g hg := by
    rw [hr]
    exact h.guests g hg
  hands id hid := by
    rw [hr]
    exact h.hands id hid
  busy r hmem := h.busy r (hr ▸ hmem)
  stopped r hmem := h.stopped r (hr ▸ hmem)
  seekers id hid := by
    rw [hk]
    exact h.seekers id hid
  lost := h.lost
  reaped id hid := by
    unfold Ever
    rw [hr]
    exact h.reaped id hid
  started x hx := by
    unfold Ever
    rw [hr]
    exact h.started x hx
  gone := h.gone

/-- A request is answered with an error that is not about a session. -/
theorem Sound.refuse (h : Sound s) {x : Refusal} (hx : ∀ id, x ≠ .lost id) : Sound (s.refuse x) :=
  { h with
    lost := fun id hid => by
      rcases List.mem_append.1 hid with hid | hid
      · exact h.lost id hid
      · exact absurd (List.mem_singleton.1 hid).symm (hx id) }

theorem Sound.buildEnds (h : Sound s) {before after : List Path} {dir : Path}
    (hb : s.builds = before ++ dir :: after) : Sound ({ s with builds := before ++ after }.remove dir) :=
  { h with
    dirs := erase_perm_of_perm_cons (h.dirs_cons_build hb)
    nodup := h.nodup.erase dir }

theorem Sound.arrive (h : Sound s) {before after : List Path} {dir : Path}
    (hb : s.builds = before ++ dir :: after) (hl : s.hall.registry.active < s.hall.places) :
    Sound { s with
      hall := s.hall.arrive
      builds := before ++ after
      launches := s.launches ++ [(s.hall.granted, dir)] } := by
  have hst : s.hall.Step s.hall.arrive := .arrive h.opened
  have heq := s.hall.arrive_eq
  rw [if_pos hl] at heq
  rw [heq] at hst ⊢
  refine h.of_calls s.dirs _ _ hst h.opened rfl rfl ?_ ?_ h.nodup ?_
  · exact fun id hid => List.mem_append_left _ hid
  · refine (h.dirs_cons_build hb).trans ?_
    rw [List.map_append, List.map_singleton, ← List.append_assoc (before ++ after),
      List.append_assoc _ [dir], List.singleton_append]
    exact List.perm_middle.symm
  · simp only [List.map_append, List.map_singleton, List.filterMap_append, List.filterMap_cons,
      Call.slot?, List.filterMap_nil]
    exact h.launching.append_right _

theorem Sound.exhausted (h : Sound s) {before after : List Path} {dir : Path}
    (hb : s.builds = before ++ dir :: after) (hl : s.hall.places ≤ s.hall.registry.active) :
    Sound ({ s with hall := s.hall.arrive, builds := before ++ after }.remove dir) := by
  have hst : s.hall.Step s.hall.arrive := .arrive h.opened
  have heq := s.hall.arrive_eq
  rw [if_neg (Nat.not_lt.2 hl)] at heq
  rw [heq] at hst ⊢
  exact h.of_calls _ _ s.launches hst h.opened rfl rfl (fun _ => id)
    (erase_perm_of_perm_cons (h.dirs_cons_build hb)) (h.nodup.erase dir) h.launching

theorem Sound.number (h : Sound s) {before after : List Call} {slot : Nat}
    (hc : s.hall.calls = before ++ .reserved slot :: after) :
    Sound { s with hall := s.hall.number before after slot } := by
  refine h.of_calls s.dirs _ _ (.number before after slot hc) h.opened rfl rfl ?_ h.dirs h.nodup ?_
  · intro id hid
    rw [hc] at hid
    simpa [Hall.number] using hid
  · have hl := h.launching
    rw [hc] at hl
    simpa [Hall.number, List.filterMap_cons, Call.slot?] using hl

theorem Sound.fail (h : Sound s) {before after : List Call} {slot id : Nat} (program message : String)
    {left right : List (Nat × Path)} {dir : Path}
    (hc : s.hall.calls = before ++ .numbered slot id :: after)
    (hl : s.launches = left ++ (slot, dir) :: right) :
    Sound ({ s with
      hall := s.hall.fail before after slot id program message
      launches := left ++ right }.remove dir) := by
  refine h.of_calls _ _ _ (.fail before after slot id program message hc) h.opened rfl rfl ?_
    (erase_perm_of_perm_cons (h.dirs_cons_launch hl)) (h.nodup.erase dir) ?_
  · intro id' hid
    rw [hc] at hid
    simpa [Hall.fail] using hid
  · have hlaunching := h.launching
    rw [hc, hl] at hlaunching
    exact launching_drop rfl hlaunching rfl

/-! ## Sessions -/

/-- What holds of some session still does when one of them stands differently. -/
theorem exists_of_room {P : Room → Prop} {before after rooms : List Room} {room room' : Room}
    (hs : rooms = before ++ room :: after) (hp : P room → P room') (h : ∃ r ∈ rooms, P r) :
    ∃ r ∈ before ++ room' :: after, P r := by
  obtain ⟨r, hr, h⟩ := h
  rcases Hall.mem_middle.1 (hs ▸ hr) with rfl | hr
  · exact ⟨room', Hall.mem_middle.2 (Or.inl rfl), hp h⟩
  · exact ⟨r, Hall.mem_middle.2 (Or.inr hr), h⟩

/-- A session stands differently, and nobody else is concerned. -/
theorem Sound.of_room (h : Sound s) {before after : List Room} {room : Room} (room' : Room) {hall : Hall}
    (hs : s.hall.rooms = before ++ room :: after) (hst : s.hall.Step hall) (ho : hall.closed = false)
    (hr : hall.rooms = before ++ room' :: after) (hk : hall.keys = s.hall.keys)
    (hc : hall.calls = s.hall.calls) (hid : room'.id = room.id)
    (hscratch : room'.scratch? = room.scratch?) (hf : room.Finished → room'.Finished)
    (hbusy : ∀ i, room'.scene.task i ≠ .idle → (i, room'.id) ∈ s.guests)
    (hstopped : room'.stopped = true → ∃ e, room'.scene.pump = .finishing e []) :
    Sound { s with hall } where
  opened := ho
  numbered := h.numbered.of_numbering hst.numbering
  listed := h.listed.of_step h.numbered hst
  dirs := by
    refine h.dirs.trans ?_
    simp only [owned, hr, hs, List.filterMap_append, List.filterMap_cons, hscratch]
    exact .refl _
  nodup := h.nodup
  launching := by
    rw [hc]
    exact h.launching
  known r hmem := by
    rw [hk, hc]
    rcases Hall.mem_middle.1 (hr ▸ hmem) with rfl | hmem
    · have hroom := h.known room (hs ▸ Hall.mem_middle.2 (Or.inl rfl))
      rw [hid]
      exact hroom.imp id (Or.imp id (And.imp id hf))
    · exact h.known r (hs ▸ Hall.mem_middle.2 (Or.inr hmem))
  guests g hg := by
    rw [hr]
    exact exists_of_room hs (hid.trans ·) (h.guests g hg)
  hands id hid' := by
    rw [hr]
    exact exists_of_room hs (hid.trans ·) (h.hands id hid')
  busy r hmem := by
    rcases Hall.mem_middle.1 (hr ▸ hmem) with rfl | hmem
    · exact hbusy
    · exact h.busy r (hs ▸ Hall.mem_middle.2 (Or.inr hmem))
  stopped r hmem := by
    rcases Hall.mem_middle.1 (hr ▸ hmem) with rfl | hmem
    · exact hstopped
    · exact h.stopped r (hs ▸ Hall.mem_middle.2 (Or.inr hmem))
  seekers id hid := by
    rw [hk]
    exact h.seekers id hid
  lost := h.lost
  reaped id hmem := by
    unfold Ever
    rw [hr]
    exact (h.reaped id hmem).imp_left
      (exists_of_room hs fun hroom => ⟨hid.trans hroom.1, hf hroom.2⟩)
  started x hmem := by
    unfold Ever
    rw [hr]
    exact (h.started x hmem).imp_left
      (exists_of_room hs fun hroom => ⟨hid.trans hroom.1, hscratch.trans hroom.2⟩)
  gone := h.gone

theorem Sound.start (h : Sound s) {before after : List Call} {slot id : Nat} (mode : Mode)
    (child : Child) {left right : List (Nat × Path)} {dir : Path}
    (hc : s.hall.calls = before ++ .numbered slot id :: after)
    (hl : s.launches = left ++ (slot, dir) :: right) :
    Sound { s with
      hall := s.hall.start before after slot id mode child (some dir)
      launches := left ++ right
      started := s.started ++ [(id, dir)] } := by
  have hst : s.hall.Step (s.hall.start before after slot id mode child (some dir)) :=
    .start before after slot id mode child (some dir) hc
  have hcalls : ∀ id', .registering id' ∈ s.hall.calls →
      .registering id' ∈ before ++ .registering id :: after := by
    intro id' hid
    rw [hc] at hid
    simp only [List.mem_append, List.mem_cons, reduceCtorEq, false_or] at hid ⊢
    exact hid.imp_right Or.inr
  have hever : ∀ {P : Room → Prop}, s.Ever P → Ever { s with
      hall := s.hall.start before after slot id mode child (some dir) } P := by
    rintro P (⟨r, hr, hp⟩ | hgone)
    · exact Or.inl ⟨r, List.mem_append_left _ hr, hp⟩
    · exact Or.inr hgone
  refine {
    opened := h.opened
    numbered := h.numbered.of_numbering hst.numbering
    listed := h.listed.of_step h.numbered hst
    dirs := ?dirs
    nodup := h.nodup
    launching := ?launching
    known := ?known
    guests := fun g hg => ?guests
    hands := fun id hid => ?hands
    busy := ?busy
    stopped := ?stopped
    seekers := h.seekers
    lost := h.lost
    reaped := fun id hid => hever (h.reaped id hid)
    started := ?started
    gone := h.gone }
  case dirs =>
    refine (h.dirs_cons_launch hl).trans ((List.perm_append_singleton ..).symm.trans ?_)
    change _ ~ s.builds ++ (left ++ right).map (·.2) ++ (s.hall.rooms ++ [_]).filterMap Room.scratch?
    rw [List.filterMap_append, ← List.append_assoc]
    exact .refl _
  case launching =>
    have hlaunching := h.launching
    rw [hc, hl] at hlaunching
    refine launching_drop rfl hlaunching ?_
    simp [Hall.start, List.filterMap_cons, Call.slot?]
  case known =>
    intro r hr
    rcases List.mem_append.1 hr with hr | hr
    · exact (h.known r hr).imp_right (Or.imp_left (hcalls r.id))
    · rw [List.mem_singleton.1 hr]
      exact Or.inr (Or.inl (List.mem_append_right _ List.mem_cons_self))
  case guests =>
    obtain ⟨r, hr, hid⟩ := h.guests g hg
    exact ⟨r, List.mem_append_left _ hr, hid⟩
  case hands =>
    obtain ⟨r, hr, hid⟩ := h.hands id hid
    exact ⟨r, List.mem_append_left _ hr, hid⟩
  case busy =>
    intro r hr i hi
    rcases List.mem_append.1 hr with hr | hr
    · exact h.busy r hr i hi
    · rw [List.mem_singleton.1 hr] at hi
      exact absurd rfl hi
  case stopped =>
    intro r hr hs
    rcases List.mem_append.1 hr with hr | hr
    · exact h.stopped r hr hs
    · rw [List.mem_singleton.1 hr] at hs
      cases hs
  case started =>
    intro x hx
    rcases List.mem_append.1 hx with hx | hx
    · exact hever (h.started x hx)
    · rw [List.mem_singleton.1 hx]
      exact Or.inl ⟨_, List.mem_append_right _ (List.mem_singleton_self _), rfl, rfl⟩

theorem Sound.register (h : Sound s) {before after : List Call} {room : Room} (pump : PumpState)
    (hc : s.hall.calls = before ++ .registering room.id :: after) (hr : room ∈ s.hall.rooms) :
    Sound { s with
      hall := s.hall.register before after room pump, seekers := s.seekers ++ [room.id] } := by
  have hst : s.hall.Step (s.hall.register before after room pump) := .register before after room pump hc hr
  have hkeys := keys_register s.hall before after room pump
  have hold : ∀ id ∈ s.hall.keys, id ∈ s.hall.keys ++ [room.id] := fun id => List.mem_append_left _
  refine { h with
    numbered := h.numbered.of_numbering hst.numbering
    listed := h.listed.of_step h.numbered hst
    launching := ?launching
    known := fun r hmem => ?known
    seekers := fun id hid => ?seekers }
  case launching =>
    have hlaunching := h.launching
    rw [hc] at hlaunching
    simpa [Hall.register, List.filterMap_cons, Call.slot?] using hlaunching
  case known =>
    rw [hkeys]
    rcases h.known r hmem with hkey | hcall | hreaped
    · exact Or.inl (hold _ hkey)
    · rcases Hall.mem_middle.1 (hc ▸ hcall) with he | hcall
      · rw [Call.registering.inj he]
        exact Or.inl (List.mem_append_right _ (List.mem_singleton_self _))
      · exact Or.inr (Or.inl hcall)
    · exact Or.inr (Or.inr hreaped)
  case seekers =>
    rw [hkeys]
    rcases List.mem_append.1 hid with hid | hid
    · exact (h.seekers id hid).imp_left (hold id)
    · rw [List.mem_singleton.1 hid]
      exact Or.inl (List.mem_append_right _ (List.mem_singleton_self _))

theorem Sound.finished_of_step (h : Sound s) {room : Room} (hr : room ∈ s.hall.rooms) {t : Scene}
    (hst : room.scene.Step t) (hf : room.Finished) : Room.Finished { room with scene := t } := by
  obtain ⟨mode, child, settings, scratch, hbegun⟩ := h.listed.begun room hr
  obtain ⟨at_, hat⟩ := hf
  exact ⟨at_, hst.finishedAt (Scene.closing_of_reaches hbegun) hat⟩

theorem Sound.work (h : Sound s) {before after : List Room} {room : Room} {t : Scene}
    (pump : PumpState) (hs : s.hall.rooms = before ++ room :: after) (hst : room.scene.Step t)
    (hp : room.stopped = true → t.pump = room.scene.pump)
    (hg : ∀ i, t.task i ≠ .idle → (i, room.id) ∈ s.guests) :
    Sound { s with hall := s.hall.work before after room t pump } := by
  have hmem : room ∈ s.hall.rooms := hs ▸ Hall.mem_middle.2 (Or.inl rfl)
  refine h.of_room { room with scene := t } hs (.work before after room t pump hs hst hp)
    h.opened rfl (keys_work ..) rfl rfl hst.scratch (h.finished_of_step hmem hst) hg ?_
  intro hstopped
  obtain ⟨e, he⟩ := h.stopped room hmem hstopped
  exact ⟨e, (hp hstopped).trans he⟩

theorem Sound.stop (h : Sound s) {before after : List Room} {room : Room} {e : ExitInfo}
    (hs : s.hall.rooms = before ++ room :: after) (hp : room.scene.pump = .finishing e []) :
    Sound { s with hall := s.hall.stop before after room } := by
  have hmem : room ∈ s.hall.rooms := hs ▸ Hall.mem_middle.2 (Or.inl rfl)
  exact h.of_room { room with stopped := true } hs (.stop before after room hs) h.opened
    rfl rfl rfl rfl rfl id (h.busy room hmem) fun _ => ⟨e, hp⟩

/-! ## Those who hold a session -/

theorem Sound.exists_of_key (h : Sound s) {id : Nat} (hid : id ∈ s.hall.keys) :
    ∃ r ∈ s.hall.rooms, r.id = id := h.listed.exists_room (List.mem_append_right _ hid)

theorem Sound.visit (h : Sound s) (i : Nat) (ids : List Nat) (hk : ∀ id ∈ ids, id ∈ s.hall.keys) :
    Sound { s with guests := s.guests ++ ids.map (i, ·) } :=
  { h with
    guests := fun g hg => by
      rcases List.mem_append.1 hg with hg | hg
      · exact h.guests g hg
      · obtain ⟨id, hid, rfl⟩ := List.mem_map.1 hg
        exact h.exists_of_key (hk id hid)
    busy := fun r hr j hj => List.mem_append_left _ (h.busy r hr j hj) }

theorem Sound.of_seekers (h : Sound s) {seekers : List Nat} (hs : ∀ id ∈ seekers, id ∈ s.seekers) :
    Sound { s with seekers } :=
  { h with seekers := fun id hid => h.seekers id (hs id hid) }

theorem Sound.lose (h : Sound s) {before after : List Nat} {id : Nat}
    (hs : s.seekers = before ++ id :: after) (hk : id ∉ s.hall.keys) :
    Sound ({ s with seekers := before ++ after }.refuse (.lost id)) := by
  have hmem : id ∈ s.seekers := hs ▸ Hall.mem_middle.2 (Or.inl rfl)
  have hsub : ∀ id' ∈ before ++ after, id' ∈ s.seekers := fun id' hid =>
    hs ▸ Hall.mem_middle.2 (Or.inr hid)
  exact { h.of_seekers hsub with
    lost := fun id' hid => by
      rcases List.mem_append.1 hid with hid | hid
      · exact h.lost id' hid
      · cases List.mem_singleton.1 hid
        exact (h.seekers id hmem).resolve_left hk }

/-- Somebody who has nothing left to do on a session leaves it. -/
theorem Sound.leave (h : Sound s) {before after : List (Nat × Nat)} {i : Nat} {room : Room}
    (hg : s.guests = before ++ (i, room.id) :: after) (hr : room ∈ s.hall.rooms)
    (hi : room.scene.task i = .idle) : Sound { s with guests := before ++ after } :=
  { h with
    guests := fun g hmem => h.guests g (hg ▸ Hall.mem_middle.2 (Or.inr hmem))
    busy := fun r hmem j hj => by
      rcases Hall.mem_middle.1 (hg ▸ h.busy r hmem j hj) with he | hguest
      · obtain ⟨rfl, hid⟩ := Prod.mk.inj he
        rw [h.numbered.room_inj hmem hr hid] at hj
        exact absurd hi hj
      · exact hguest }

theorem Sound.of_hands (h : Sound s) {hands : List Nat} (hs : ∀ id ∈ hands, id ∈ s.hands) :
    Sound { s with hands } :=
  { h with hands := fun id hid => h.hands id (hs id hid) }

theorem mem_keys_takeAway {takes : Nat → Bool} {id : Nat} :
    id ∈ (s.takeAway takes).hall.keys ↔ id ∈ s.hall.keys ∧ takes id = false := by
  simp only [takeAway, Hall.keys, List.mem_map, List.mem_filter]
  constructor
  · rintro ⟨p, ⟨hp, ht⟩, rfl⟩
    exact ⟨⟨p, hp, rfl⟩, by simpa using ht⟩
  · rintro ⟨⟨p, hp, rfl⟩, ht⟩
    exact ⟨p, ⟨hp, by simpa using ht⟩, rfl⟩

/-- A reap takes away sessions whose end is noted. -/
theorem Sound.takeAway (h : Sound s) {now : Nat} {takes : Nat → Bool}
    (ht : ∀ p ∈ s.hall.registry.entries, takes p.1 = true →
      Registry.isExpired s.hall.registry.settings now p.2.session = true) :
    Sound (s.takeAway takes) := by
  have hfinished : ∀ id ∈ s.hall.keys.filter takes, ∃ r ∈ s.hall.rooms, r.id = id ∧ r.Finished := by
    intro id hid
    obtain ⟨hkey, htakes⟩ := List.mem_filter.1 hid
    obtain ⟨p, hp, rfl⟩ := List.mem_map.1 hkey
    obtain ⟨r, hr, hrid, hsession⟩ := h.listed.listed p hp
    obtain ⟨at_, hat, -⟩ := Registry.isExpired_iff.1 (ht p hp htakes)
    exact ⟨r, hr, hrid, at_, hsession ▸ hat⟩
  have hstays : ∀ id ∈ s.hall.keys, id ∈ (s.takeAway takes).hall.keys ∨
      id ∈ s.hall.keys.filter takes := by
    intro id hid
    cases htakes : takes id with
    | false => exact Or.inl (mem_keys_takeAway.2 ⟨hid, htakes⟩)
    | true => exact Or.inr (List.mem_filter.2 ⟨hid, htakes⟩)
  refine { h with
    numbered := ⟨h.numbered.nodup, h.numbered.fresh⟩
    listed := h.listed.of_sublist s.hall.closed List.filter_sublist
    known := fun r hr => ?known
    hands := fun id hid => ?hands
    seekers := fun id hid => ?seekers
    lost := fun id hid => List.mem_append_left _ (h.lost id hid)
    reaped := fun id hid => ?reaped
    gone := fun r hr => ⟨List.mem_append_left _ (h.gone r hr).1, (h.gone r hr).2⟩ }
  case known =>
    rcases h.known r hr with hkey | hcall | ⟨hreaped, hf⟩
    · rcases hstays _ hkey with hkey | htaken
      · exact Or.inl hkey
      · obtain ⟨r', hr', hid, hf⟩ := hfinished _ htaken
        rw [h.numbered.room_inj hr' hr hid] at hf
        exact Or.inr (Or.inr ⟨List.mem_append_right _ htaken, hf⟩)
    · exact Or.inr (Or.inl hcall)
    · exact Or.inr (Or.inr ⟨List.mem_append_left _ hreaped, hf⟩)
  case hands =>
    rcases List.mem_append.1 hid with hid | hid
    · exact h.hands id hid
    · obtain ⟨r, hr, hrid, -⟩ := hfinished id hid
      exact ⟨r, hr, hrid⟩
  case seekers =>
    rcases h.seekers id hid with hkey | hreaped
    · exact (hstays id hkey).imp_right (List.mem_append_right _)
    · exact Or.inr (List.mem_append_left _ hreaped)
  case reaped =>
    rcases List.mem_append.1 hid with hid | hid
    · exact h.reaped id hid
    · exact Or.inl (hfinished id hid)

/-- A session that nobody holds has ended, and everybody has left it. -/
theorem Sound.isDone (h : Sound s) {room : Room} (hr : room ∈ s.hall.rooms) (hn : ¬ s.Held room) :
    room.id ∈ s.reaped ∧ room.Finished ∧ room.IsDone := by
  obtain ⟨hreaped, hf⟩ := ((h.known room hr).resolve_left fun hk => hn (.listed hk)).resolve_left
    fun hc => hn (.registering hc)
  refine ⟨hreaped, hf, fun i => ?_, ?_⟩
  · by_contra hi
    exact hn (.guest i (h.busy room hr i hi))
  · cases hs : room.stopped with
    | false => exact absurd (.pump hs) hn
    | true => exact Or.inl rfl

/-- What holds of some session still does when one goes, if it is remembered. -/
theorem Ever.of_drop {P : Room → Prop} {before after : List Room} {room : Room}
    (hs : s.hall.rooms = before ++ room :: after) (h : s.Ever P) :
    (s.drop before after room).Ever P := by
  rcases h with ⟨r, hr, h⟩ | ⟨r, hr, h⟩
  · rcases Hall.mem_middle.1 (hs ▸ hr) with rfl | hr
    · exact Or.inr ⟨r, List.mem_append_right _ (List.mem_singleton_self _), h⟩
    · exact Or.inl ⟨r, hr, h⟩
  · exact Or.inr ⟨r, List.mem_append_left _ hr, h⟩

theorem Sound.ne_of_mem_others (h : Sound s) {before after : List Room} {room r : Room}
    (hs : s.hall.rooms = before ++ room :: after) (hr : r ∈ before ++ after) : r.id ≠ room.id := by
  have hnodup := (List.nodup_append.1 (List.nodup_append.1 h.numbered.nodup).1).2.1
  rw [hs, List.map_append, List.map_cons, List.nodup_middle, List.nodup_cons, ← List.map_append] at hnodup
  exact fun he => hnodup.1 (he ▸ List.mem_map_of_mem hr)

/-- A session that nobody holds goes, and its directory with it. -/
theorem Sound.drop (h : Sound s) {before after : List Room} {room : Room}
    (hs : s.hall.rooms = before ++ room :: after) (hn : ¬ s.Held room) :
    Sound (s.drop before after room) := by
  have hmem : room ∈ s.hall.rooms := hs ▸ Hall.mem_middle.2 (Or.inl rfl)
  have hdone := h.isDone hmem hn
  have hst : s.hall.Step (s.hall.drop before after room) := by
    refine .drop before after room hs hdone.2.2 (fun p hp he => ?_) fun hc => hn (.registering hc)
    exact hn (.listed (he ▸ List.mem_map_of_mem hp))
  have hkeys := keys_drop s.hall before after room
  have hrooms : ∀ r ∈ before ++ after, r ∈ s.hall.rooms := fun r hr =>
    hs ▸ Hall.mem_middle.2 (Or.inr hr)
  have hothers : ∀ r ∈ s.hall.rooms, r.id ≠ room.id → r ∈ before ++ after := fun r hr hne =>
    (Hall.mem_middle.1 (hs ▸ hr)).resolve_left fun he => hne (congrArg Room.id he)
  refine {
    opened := h.opened
    numbered := h.numbered.of_numbering hst.numbering
    listed := h.listed.of_step h.numbered hst
    dirs := ?dirs
    nodup := ?nodup
    launching := h.launching
    known := fun r hr => ?known
    guests := fun g hg => ?guests
    hands := fun id hid => ?hands
    busy := fun r hr => h.busy r (hrooms r hr)
    stopped := fun r hr => h.stopped r (hrooms r hr)
    seekers := fun id hid => ?seekers
    lost := h.lost
    reaped := fun id hid => (h.reaped id hid).of_drop hs
    started := fun x hx => (h.started x hx).of_drop hs
    gone := fun r hr => ?gone }
  case dirs =>
    have howned := h.dirs
    simp only [owned, hs, List.filterMap_append, List.filterMap_cons] at howned
    change room.scratch?.elim s.dirs s.dirs.erase ~
      s.builds ++ s.launches.map (·.2) ++ (before ++ after).filterMap Room.scratch?
    rw [List.filterMap_append]
    cases hscratch : room.scratch? with
    | none =>
      simp only [hscratch] at howned
      exact howned
    | some dir =>
      simp only [hscratch] at howned
      refine erase_perm_of_perm_cons (howned.trans ?_)
      rw [← List.append_assoc, ← List.append_assoc]
      exact List.perm_middle
  case nodup =>
    change (room.scratch?.elim s.dirs s.dirs.erase).Nodup
    cases room.scratch? with
    | none => exact h.nodup
    | some dir => exact h.nodup.erase dir
  case known =>
    change r.id ∈ (s.hall.drop before after room).keys ∨ _
    rw [hkeys]
    exact h.known r (hrooms r hr)
  case guests =>
    obtain ⟨r, hr, hid⟩ := h.guests g hg
    refine ⟨r, hothers r hr fun he => hn (.guest g.1 ?_), hid⟩
    rw [← he, hid]
    exact hg
  case hands =>
    obtain ⟨r, hr, hrid⟩ := h.hands id hid
    exact ⟨r, hothers r hr fun he => hn (.reap (by rwa [← he, hrid])), hrid⟩
  case seekers =>
    change id ∈ (s.hall.drop before after room).keys ∨ _
    rw [hkeys]
    exact h.seekers id hid
  case gone =>
    rcases List.mem_append.1 hr with hr | hr
    · exact h.gone r hr
    · rw [List.mem_singleton.1 hr]
      exact hdone

theorem Sound.letGo (h : Sound s) {id : Nat} (ht : LetGo s id t) : Sound t := by
  cases ht with
  | held => exact h
  | last before after room hs _ hn => exact h.drop hs hn

theorem Sound.of_comes (h : Sound s) (hst : Comes s t) : Sound t := by
  cases hst with
  | early e => exact h.refuse nofun
  | build dir hd => exact { h with dirs := h.dirs_build dir, nodup := h.nodup_build hd }
  | visit i ids hk => exact h.visit i ids hk

theorem Sound.of_goes (h : Sound s) (hst : Goes s t) : Sound t := by
  cases hst with
  | buildFails before after dir e hb => exact (h.buildEnds hb).refuse nofun
  | clientLeaves before after dir hb => exact h.buildEnds hb
  | arrive before after dir hb hl => exact h.arrive hb hl
  | exhausted before after dir hb hl => exact (h.exhausted hb hl).refuse nofun
  | number before after slot hc => exact h.number hc
  | fail before after slot id program message left right dir hc hl =>
    exact (h.fail program message hc hl).refuse nofun
  | start before after slot id mode child left right dir hc hl => exact h.start mode child hc hl
  | register before after room pump hc hr => exact h.register pump hc hr
  | find before after i id hs hk =>
    have hsub : ∀ id' ∈ before ++ after, id' ∈ s.seekers := fun id' hid =>
      hs ▸ Hall.mem_middle.2 (Or.inr hid)
    exact (h.of_seekers hsub).visit i [id] fun id' hid => by rwa [List.mem_singleton.1 hid]
  | lose before after id hs hk => exact h.lose hs hk
  | work before after room u pump hs hsc hp hg => exact h.work pump hs hsc hp hg
  | leave before after i room hg hr hi ht => exact (h.leave hg hr hi).letGo ht
  | pumpReturns before after room e hs hp ht => exact (h.stop hs hp).letGo ht
  | reap now takes ht => exact h.takeAway ht
  | reapLetsGo before after id hs ht =>
    exact (h.of_hands fun id' hid =>
      hs ▸ Hall.mem_middle.2 (Or.inr hid)).letGo ht

theorem Sound.of_step (h : Sound s) (hst : Step s t) : Sound t := by
  cases hst with
  | comes hst => exact h.of_comes hst
  | goes hst => exact h.of_goes hst

theorem Sound.of_reaches (h : Sound s) (hr : s.Reaches t) : Sound t :=
  hr.keeps (fun _ _ => Sound.of_step) h

end Service

end SessionHost
