import Mathlib.Data.List.Nodup
import SessionHost.Proofs.Hall.Step

/-!
# Numbers, and what can be found by them

Sessions are numbered in the order in which they are begun, and can be found by their numbers.

* `Hall.Numbered`: no number is used twice, be it by a call that has no session yet, by a session, or for
  nothing.
* `Hall.Listed`: what can be found are sessions in existence, as they stand, each of them once.
-/
namespace SessionHost

open scoped List

namespace Registry

/-- Putting a session back leaves the numbers as they are. -/
theorem numbers_put (r : Registry) (id : Nat) (e : Entry) :
    (r.put id e).entries.map (·.1) = r.entries.map (·.1) := by
  simp only [Registry.put, Host.change, List.map_map]
  refine List.map_congr_left fun p _ => ?_
  change (if p.1 == id then _ else p).1 = p.1
  split <;> simp_all

theorem mem_put {r : Registry} {id : Nat} {e : Entry} {p : Nat × Entry}
    (h : p ∈ (r.put id e).entries) : p = (id, e) ∨ p ∈ r.entries ∧ p.1 ≠ id := by
  obtain ⟨q, hq, rfl⟩ := List.mem_map.1 h
  by_cases hid : q.1 = id
  · exact Or.inl (by simp [hid])
  · exact Or.inr (by simpa [hid] using hq)

/-- A session is reaped only after its end was noted. -/
theorem finishedAt_of_reaped {r : Registry} {now : Nat} {p : Nat × Entry} (hp : p ∈ (r.reap now).2) :
    p ∈ r.entries ∧ ∃ at_, p.2.session.finishedAt = some at_ ∧ r.settings.gracePeriod ≤ now - at_ := by
  obtain ⟨hentry, hexpired⟩ := List.mem_filter.1 hp
  refine ⟨hentry, ?_⟩
  unfold Registry.isExpired at hexpired
  split at hexpired
  · rename_i at_ hat
    exact ⟨at_, hat, of_decide_eq_true hexpired⟩
  · cases hexpired

end Registry

namespace Hall

variable {s t : Hall}

/-- A call has a place if one is left, and is turned away otherwise. -/
theorem arrive_eq (s : Hall) : s.arrive =
    if s.registry.active < s.places then { s with
      registry := { s.registry with active := s.registry.active + 1 }
      calls := s.calls ++ [.reserved s.granted]
      granted := s.granted + 1 }
    else { s with answers := s.answers ++ [.exhausted s.places] } := by
  have hplaces : s.places = s.registry.settings.maxSessions := rfl
  unfold arrive Registry.reserve?
  rw [hplaces]
  by_cases hl : s.registry.active < s.registry.settings.maxSessions
  · rw [if_pos hl, if_pos hl]
  · rw [if_neg hl, if_neg hl]

/-! ## Numbers -/

/-- The numbers of calls that have no session yet, of the sessions in existence, and those that were used
up for nothing. -/
def ids (s : Hall) : List Nat :=
  s.calls.filterMap Call.number? ++ s.rooms.map (·.id) ++ s.answers.filterMap CreateAnswer.wasted?

inductive Numbering (s t : Hall) : Prop where
  | keeps (ids : t.ids ~ s.ids) (next : t.registry.nextId = s.registry.nextId)
  | takes (ids : t.ids ~ s.registry.nextId :: s.ids)
      (next : t.registry.nextId = s.registry.nextId + 1)
  | forgets (id : Nat) (ids : s.ids ~ id :: t.ids) (next : t.registry.nextId = s.registry.nextId)

structure Numbered (s : Hall) : Prop where
  nodup : s.ids.Nodup
  fresh : ∀ id ∈ s.ids, id < s.registry.nextId

theorem numbered_opening (settings : SessionSettings) : Numbered (opening settings) :=
  ⟨.nil, fun _ h => absurd h List.not_mem_nil⟩

theorem Numbered.of_numbering (h : Numbered s) (hn : Numbering s t) : Numbered t := by
  cases hn with
  | keeps ids next => exact ⟨ids.nodup_iff.2 h.nodup, fun id hid => next ▸ h.fresh id (ids.mem_iff.1 hid)⟩
  | takes ids next =>
    refine ⟨ids.nodup_iff.2 (List.nodup_cons.2 ⟨fun hmem => ?_, h.nodup⟩), fun id hid => ?_⟩
    · exact Nat.lt_irrefl _ (h.fresh _ hmem)
    · rw [next]
      rcases List.mem_cons.1 (ids.mem_iff.1 hid) with rfl | hmem
      · exact Nat.lt_succ_self _
      · exact Nat.lt_succ_of_lt (h.fresh id hmem)
  | forgets id ids next =>
    have hnodup := ids.nodup_iff.1 h.nodup
    refine ⟨(List.nodup_cons.1 hnodup).2, fun id' hid => ?_⟩
    rw [next]
    exact h.fresh id' (ids.mem_iff.2 (List.mem_cons_of_mem _ hid))

theorem numbering_start {before after : List Call} {slot id : Nat} (mode : Mode) (child : Child)
    (scratch : Option Host.Path) (h : s.calls = before ++ .numbered slot id :: after) :
    Numbering s (s.start before after slot id mode child scratch) := by
  refine .keeps ?_ rfl
  simp only [ids, start, h, List.filterMap_append, List.filterMap_cons, Call.number?, List.map_append,
    List.map_singleton, List.append_assoc, List.cons_append]
  refine List.Perm.append_left _ ?_
  rw [← List.append_assoc, ← List.append_assoc]
  exact List.perm_middle

theorem numbering_fail {before after : List Call} {slot id : Nat} (program message : String)
    (h : s.calls = before ++ .numbered slot id :: after) :
    Numbering s (s.fail before after slot id program message) := by
  refine .keeps ?_ rfl
  simp only [ids, fail, h, List.filterMap_append, List.filterMap_cons, List.filterMap_nil,
    Call.number?, CreateAnswer.wasted?, List.append_assoc, List.cons_append]
  refine List.Perm.append_left _ ?_
  rw [← List.append_assoc, ← List.append_assoc]
  refine (List.perm_append_singleton ..).trans (.cons _ ?_)
  rw [List.append_assoc]

theorem Step.numbering (hst : Step s t) : Numbering s t := by
  cases hst with
  | arrive =>
    rw [arrive_eq]
    split
    · refine .keeps ?_ rfl
      simp only [ids, List.filterMap_append, List.filterMap_cons, List.filterMap_nil, Call.number?,
        List.append_nil]
      exact .refl _
    · refine .keeps ?_ rfl
      simp only [ids, List.filterMap_append, List.filterMap_cons, List.filterMap_nil,
        CreateAnswer.wasted?, List.append_nil]
      exact .refl _
  | fail before after slot id program message h => exact numbering_fail program message h
  | start before after slot id mode child scratch h => exact numbering_start mode child scratch h
  | number before after slot h =>
    refine .takes ?_ rfl
    simp only [ids, Hall.number, Registry.takeId, h, List.filterMap_append, List.filterMap_cons,
      Call.number?, List.append_assoc, List.cons_append]
    exact List.perm_middle
  | register before after room pump h =>
    refine .keeps ?_ rfl
    simp only [ids, Hall.register, h, List.filterMap_append, List.filterMap_cons, List.filterMap_nil,
      Call.number?, CreateAnswer.wasted?, List.append_nil]
    exact .refl _
  | work before after room t pump h =>
    refine .keeps ?_ ?_
    · simp only [ids, Hall.work, h, List.map_append, List.map_cons]
      exact .refl _
    · simp only [Hall.work]
      split <;> rfl
  | stop before after room h =>
    refine .keeps ?_ rfl
    simp only [ids, Hall.stop, h, List.map_append, List.map_cons]
    exact .refl _
  | drop before after room h =>
    refine .forgets room.id ?_ ?_
    · simp only [ids, Hall.drop, h, List.map_append, List.map_cons, List.append_assoc,
        List.cons_append]
      rw [← List.append_assoc, ← List.append_assoc]
      exact List.perm_middle
    · simp only [Hall.drop]
      split <;> rfl
  | reap now => exact .keeps (.refl _) rfl
  | close => exact .keeps (.refl _) rfl

/-- A call that has no session yet has its number for itself. -/
theorem Numbered.ne_of_numbered (h : Numbered s) {slot id : Nat} (hc : .numbered slot id ∈ s.calls)
    {room : Room} (hr : room ∈ s.rooms) : room.id ≠ id := by
  rintro rfl
  have hnodup := (List.nodup_append.1 h.nodup).1
  have hcall : room.id ∈ s.calls.filterMap Call.number? := List.mem_filterMap.2 ⟨_, hc, rfl⟩
  exact (List.nodup_append.1 hnodup).2.2 _ hcall _ (List.mem_map_of_mem hr) rfl

/-- A number that was used up for nothing is not that of a session. -/
theorem Numbered.ne_of_failed (h : Numbered s) {slot id : Nat} {program message : String}
    (ha : .failed slot id program message ∈ s.answers) {room : Room} (hr : room ∈ s.rooms) :
    room.id ≠ id := by
  rintro rfl
  have hroom : room.id ∈ s.calls.filterMap Call.number? ++ s.rooms.map (·.id) :=
    List.mem_append_right _ (List.mem_map_of_mem hr)
  have hwasted : room.id ∈ s.answers.filterMap CreateAnswer.wasted? :=
    List.mem_filterMap.2 ⟨_, ha, rfl⟩
  exact (List.nodup_append.1 h.nodup).2.2 _ hroom _ hwasted rfl

theorem Numbered.room_inj (h : Numbered s) {r r' : Room} (hr : r ∈ s.rooms) (hr' : r' ∈ s.rooms)
    (hid : r.id = r'.id) : r = r' := by
  have hnodup := (List.nodup_append.1 (List.nodup_append.1 h.nodup).1).2.1
  exact List.inj_on_of_nodup_map hnodup hr hr' hid

/-! ## What can be found -/

structure Listed (s : Hall) : Prop where
  begun : ∀ r ∈ s.rooms, r.Begun
  listing : ∀ id, .registering id ∈ s.calls → ∃ r ∈ s.rooms, r.id = id
  listed : ∀ p ∈ s.registry.entries, ∃ r ∈ s.rooms, r.id = p.1 ∧ p.2.session = r.scene.session
  keys : (s.calls.filterMap Call.listing? ++ s.registry.entries.map (·.1)).Nodup

theorem listed_opening (settings : SessionSettings) : Listed (opening settings) :=
  ⟨fun _ h => absurd h List.not_mem_nil, fun _ h => absurd h List.not_mem_nil,
    fun _ h => absurd h List.not_mem_nil, .nil⟩

theorem mem_listing_iff {calls : List Call} {id : Nat} :
    id ∈ calls.filterMap Call.listing? ↔ .registering id ∈ calls := by
  constructor
  · intro h
    obtain ⟨c, hc, hid⟩ := List.mem_filterMap.1 h
    cases c <;> cases hid
    exact hc
  · exact fun h => List.mem_filterMap.2 ⟨_, h, rfl⟩

/-- What can be found and what is about to be registered is in existence. -/
theorem Listed.exists_room (h : Listed s) {id : Nat}
    (hid : id ∈ s.calls.filterMap Call.listing? ++ s.registry.entries.map (·.1)) :
    ∃ r ∈ s.rooms, r.id = id := by
  rcases List.mem_append.1 hid with hid | hid
  · exact h.listing id (mem_listing_iff.1 hid)
  · obtain ⟨p, hp, rfl⟩ := List.mem_map.1 hid
    obtain ⟨r, hr, hid, -⟩ := h.listed p hp
    exact ⟨r, hr, hid⟩

/-- A step of a call that has no session yet, or that of one that comes. -/
theorem Listed.of_calls (h : Listed s) {calls : List Call} {registry : Registry} {granted : Nat}
    {freed : List (Nat × Release)} {answers : List CreateAnswer}
    (hc : calls.filterMap Call.listing? = s.calls.filterMap Call.listing?)
    (he : registry.entries = s.registry.entries) :
    Listed { s with calls, registry, granted, freed, answers } where
  begun := h.begun
  listing id hid := h.listing id (by rw [← mem_listing_iff, ← hc]; exact mem_listing_iff.2 hid)
  listed := by rw [he]; exact h.listed
  keys := by rw [hc, he]; exact h.keys

theorem mem_middle {α : Type} {before after : List α} {x y : α} :
    y ∈ before ++ x :: after ↔ y = x ∨ y ∈ before ++ after :=
  List.perm_middle.mem_iff.trans List.mem_cons

theorem Listed.of_rooms (h : Listed s) {before after : List Room} {room room' : Room}
    {registry : Registry} {freed : List (Nat × Release)} (hs : s.rooms = before ++ room :: after)
    (hid : room'.id = room.id) (hb : room'.Begun)
    (hk : registry.entries.map (·.1) = s.registry.entries.map (·.1))
    (he : ∀ p ∈ registry.entries, ∃ r ∈ before ++ room' :: after, r.id = p.1 ∧
      p.2.session = r.scene.session) :
    Listed { s with rooms := before ++ room' :: after, registry, freed } where
  begun := by
    intro r hr
    rcases mem_middle.1 hr with rfl | hr
    · exact hb
    · exact h.begun r (hs ▸ mem_middle.2 (Or.inr hr))
  listing := by
    intro id hc
    obtain ⟨r, hr, rfl⟩ := h.listing id hc
    rcases mem_middle.1 (hs ▸ hr) with rfl | hr
    · exact ⟨room', mem_middle.2 (Or.inl rfl), hid⟩
    · exact ⟨r, mem_middle.2 (Or.inr hr), rfl⟩
  listed := he
  keys := by rw [hk]; exact h.keys

theorem Listed.start (h : Listed s) (hn : Numbered s) {before after : List Call} {slot id : Nat}
    (mode : Mode) (child : Child) (scratch : Option Host.Path)
    (hc : s.calls = before ++ .numbered slot id :: after) :
    Listed (s.start before after slot id mode child scratch) where
  begun := by
    intro r hr
    rcases List.mem_append.1 hr with hr | hr
    · exact h.begun r hr
    · obtain rfl := List.mem_singleton.1 hr
      exact ⟨mode, child, _, scratch, .refl⟩
  listing := by
    intro id' hid
    by_cases he : id' = id
    · subst he
      exact ⟨_, List.mem_append_right _ (List.mem_singleton_self _), rfl⟩
    · have hid : .registering id' ∈ s.calls := by
        rw [hc]
        simpa [Hall.start, he] using hid
      obtain ⟨r, hr, hrid⟩ := h.listing id' hid
      exact ⟨r, List.mem_append_left _ hr, hrid⟩
  listed := by
    intro p hp
    obtain ⟨r, hr, hrid⟩ := h.listed p hp
    exact ⟨r, List.mem_append_left _ hr, hrid⟩
  keys := by
    have hkeys := h.keys
    have hmem : .numbered slot id ∈ s.calls := by rw [hc]; simp
    have hnew : id ∉ s.calls.filterMap Call.listing? ++ s.registry.entries.map (·.1) := by
      intro hid
      obtain ⟨r, hr, hrid⟩ := h.exists_room hid
      exact hn.ne_of_numbered hmem hr hrid
    simp only [hc, List.filterMap_append, List.filterMap_cons, Call.listing?, List.append_assoc]
      at hkeys hnew
    simp only [Hall.start, List.filterMap_append, List.filterMap_cons, Call.listing?,
      List.append_assoc, List.cons_append]
    exact List.nodup_middle.2 (List.nodup_cons.2 ⟨hnew, hkeys⟩)

theorem Listed.register (h : Listed s) {before after : List Call} {room : Room} (pump : PumpState)
    (hc : s.calls = before ++ .registering room.id :: after) (hr : room ∈ s.rooms) :
    Listed (s.register before after room pump) where
  begun := h.begun
  listing id hid := h.listing id (by
    rw [hc]
    exact List.Sublist.mem hid ((List.sublist_cons_self ..).append_left before))
  listed := by
    intro p hp
    rcases List.mem_append.1 hp with hp | hp
    · exact h.listed p hp
    · obtain rfl := List.mem_singleton.1 hp
      exact ⟨room, hr, rfl, rfl⟩
  keys := by
    have hkeys := h.keys
    simp only [hc, List.filterMap_append, List.filterMap_cons, Call.listing?, List.append_assoc,
      List.cons_append] at hkeys
    refine (List.Perm.nodup_iff ?_).1 hkeys
    simp only [Hall.register, Registry.add, List.filterMap_append, List.map_append, List.map_singleton,
      List.append_assoc]
    refine List.perm_middle.trans ?_
    rw [← List.append_assoc, ← List.append_assoc, ← List.append_assoc]
    exact (List.perm_append_singleton ..).symm

/-- The session that goes on is put back as it stands now. -/
theorem entries_work (s : Hall) (before after : List Room) (room : Room) (t : Scene)
    (pump : PumpState) : (s.work before after room t pump).registry.entries =
      (s.registry.put room.id { session := t.session, pump }).entries := by
  unfold Hall.work
  dsimp only
  split <;> rfl

theorem entries_drop (s : Hall) (before after : List Room) (room : Room) :
    (s.drop before after room).registry.entries = s.registry.entries := by
  unfold Hall.drop
  dsimp only
  split <;> rfl

theorem Listed.work (h : Listed s) {before after : List Room} {room : Room} {t : Scene}
    (pump : PumpState) (hs : s.rooms = before ++ room :: after) (hst : room.scene.Step t) :
    Listed (s.work before after room t pump) := by
  have hentries := s.entries_work before after room t pump
  refine h.of_rooms hs rfl ?_ ?_ ?_
  · obtain ⟨mode, child, settings, scratch, hr⟩ := h.begun room (hs ▸ mem_middle.2 (Or.inl rfl))
    exact ⟨mode, child, settings, scratch, hr.tail hst⟩
  · exact (congrArg _ hentries).trans (Registry.numbers_put ..)
  · intro p hp
    rcases Registry.mem_put (hentries ▸ hp) with rfl | ⟨hp, hne⟩
    · exact ⟨{ room with scene := t }, mem_middle.2 (Or.inl rfl), rfl, rfl⟩
    · obtain ⟨r, hr, hid, hsession⟩ := h.listed p hp
      refine ⟨r, ?_, hid, hsession⟩
      rcases mem_middle.1 (hs ▸ hr) with rfl | hr
      · exact absurd hid.symm hne
      · exact mem_middle.2 (Or.inr hr)

theorem Listed.stop (h : Listed s) {before after : List Room} {room : Room}
    (hs : s.rooms = before ++ room :: after) : Listed (s.stop before after room) := by
  refine h.of_rooms hs rfl (h.begun room (hs ▸ mem_middle.2 (Or.inl rfl))) rfl fun p hp => ?_
  obtain ⟨r, hr, hid, hsession⟩ := h.listed p hp
  rcases mem_middle.1 (hs ▸ hr) with rfl | hr
  · exact ⟨{ r with stopped := true }, mem_middle.2 (Or.inl rfl), hid, hsession⟩
  · exact ⟨r, mem_middle.2 (Or.inr hr), hid, hsession⟩

theorem Listed.drop (h : Listed s) {before after : List Room} {room : Room}
    (hs : s.rooms = before ++ room :: after) (hu : ∀ p ∈ s.registry.entries, p.1 ≠ room.id)
    (hc : .registering room.id ∉ s.calls) : Listed (s.drop before after room) := by
  have hentries := s.entries_drop before after room
  have hstays : ∀ r ∈ s.rooms, r.id ≠ room.id → r ∈ before ++ after := fun r hr hne =>
    (mem_middle.1 (hs ▸ hr)).resolve_left fun he => hne (congrArg Room.id he)
  refine ⟨fun r hr => h.begun r (hs ▸ mem_middle.2 (Or.inr hr)), ?listing, ?listed, hentries ▸ h.keys⟩
  case listing =>
    intro id hid
    obtain ⟨r, hr, rfl⟩ := h.listing id hid
    exact ⟨r, hstays r hr fun he => hc (he ▸ hid), rfl⟩
  case listed =>
    rw [hentries]
    intro p hp
    obtain ⟨r, hr, hid, hsession⟩ := h.listed p hp
    exact ⟨r, hstays r hr (hid ▸ hu p hp), hid, hsession⟩

theorem Listed.of_sublist (h : Listed s) {registry : Registry} (closed : Bool)
    (he : registry.entries <+ s.registry.entries) : Listed { s with registry, closed } where
  begun := h.begun
  listing := h.listing
  listed p hp := h.listed p (he.mem hp)
  keys := h.keys.sublist ((he.map _).append_left _)

theorem Listed.of_step (h : Listed s) (hn : Numbered s) (hst : Step s t) : Listed t := by
  cases hst with
  | arrive =>
    rw [arrive_eq]
    split
    · exact h.of_calls (by simp [Call.listing?]) rfl
    · exact h.of_calls rfl rfl
  | number before after slot hc =>
    exact h.of_calls (by simp [hc, List.filterMap_cons, Call.listing?]) rfl
  | fail before after slot id program message hc =>
    exact h.of_calls (by simp [hc, List.filterMap_cons, Call.listing?]) rfl
  | start before after slot id mode child scratch hc => exact h.start hn mode child scratch hc
  | register before after room pump hc hr => exact h.register pump hc hr
  | work before after room t pump hs hst => exact h.work pump hs hst
  | stop before after room hs => exact h.stop hs
  | drop before after room hs _ hu hc => exact h.drop hs hu hc
  | reap now => exact h.of_sublist _ List.filter_sublist
  | close hc => exact h.of_sublist true (List.nil_sublist _)

end Hall

end SessionHost
