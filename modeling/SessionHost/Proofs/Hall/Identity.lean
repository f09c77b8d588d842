import SessionHost.Proofs.Hall.Dated

/-!
# Which session a number finds, and for how long

`SessionHost.Timed.addressed_of_reaches`: numbers are given out as 1, 2, 3 and so on, and each belongs to
one call for ever, whether its program could be started or not. A number finds a session from when a call
has registered one under it until a reap takes that away, it is always the same session, and after that
it finds nothing any more. A reap takes away those sessions that it found finished for at least the grace
period, and no others, and says how many they were; so a session can be found until a grace period has
passed since its end.

**Hypothesis.** The registry was opened with nobody in it. Its numbers have no bound here; `Addressed.fits`
says that they stay below a bound as long as fewer calls take one.

`Timed.reap_alone` is what a reap does that nobody comes in the way of: it is `Registry.reap` at the time
on the clock.
-/
namespace SessionHost

open scoped List

namespace Timed

variable {s t : Timed} {settings : SessionSettings}

/-! ## The same session -/

/-- No other session than this one has its number, or comes to have it. -/
structure Owns (r : Room) (s : Timed) : Prop where
  next : r.id < s.hall.registry.nextId
  call : ∀ slot, .numbered slot r.id ∉ s.hall.calls
  room : ∀ r' ∈ s.hall.rooms, r'.id = r.id → r'.slot = r.slot ∧ r.scene.Reaches r'.scene

theorem Dated.owns (h : Dated settings s) {r : Room} (hr : r ∈ s.hall.rooms) : Owns r s where
  next := h.sound.numbered.fresh r.id
    (List.mem_append_left _ (List.mem_append_right _ (List.mem_map_of_mem hr)))
  call slot hc := h.sound.numbered.ne_of_numbered hc hr rfl
  room r' hr' hid := by
    obtain rfl := h.sound.numbered.room_inj hr' hr hid
    exact ⟨rfl, .refl⟩

theorem Owns.of_step {r : Room} (h : Owns r s) (hst : Step s t) : Owns r t := by
  have ha := hst.advances
  refine ⟨Nat.lt_of_lt_of_le h.next ha.next, fun slot hc => ?_, fun r' hr' hid => ?_⟩
  · rcases ha.numbered slot r.id hc with hc | hnew
    · exact h.call slot hc
    · exact Nat.lt_irrefl _ (hnew ▸ h.next)
  · rcases ha.room r' hr' with ⟨r₀, hr₀, hf⟩ | ⟨⟨slot, hc⟩, -⟩
    · obtain ⟨hslot, hreaches⟩ := h.room r₀ hr₀ (hf.id.symm.trans hid)
      refine ⟨hf.slot.trans hslot, ?_⟩
      rcases (Relation.reflGen_iff ..).1 hf.scene with he | hst
      · exact he ▸ hreaches
      · exact hreaches.tail hst
    · exact absurd (hid ▸ hc) (h.call slot)

theorem Owns.of_reaches {r : Room} (h : Owns r s) (hr : s.Reaches t) : Owns r t :=
  Reaches.keeps (fun _ _ ho hst => Owns.of_step ho hst) hr h

theorem Dated.get_eq_ok (h : Dated settings s) {id : Nat} {e : Entry}
    (hg : s.hall.registry.get? id = .ok e) :
    ∃ r ∈ s.hall.rooms, r.id = id ∧ e.session = r.scene.session := by
  have he := (Registry.get_eq_ok_iff h.sound.listed.nodup_keys).1 hg
  exact h.sound.listed.listed _ he

/-! ## What can be found -/

theorem Dated.mem_keys_iff (h : Dated settings s) {id : Nat} :
    id ∈ s.hall.keys ↔ id ∈ s.hall.created ∧ id ∉ s.removed.map (·.id) := by
  have hnodup : (s.hall.keys ++ s.removed.map (·.id)).Nodup := h.kept.nodup_iff.2 h.nodup_created
  rw [← h.kept.mem_iff, List.mem_append]
  constructor
  · intro hid
    exact ⟨Or.inl hid, fun hr => (List.nodup_append.1 hnodup).2.2 id hid id hr rfl⟩
  · rintro ⟨hid | hid, hn⟩
    · exact hid
    · exact absurd hid hn

theorem exists_get_iff {id : Nat} : (∃ e, s.hall.registry.get? id = .ok e) ↔ id ∈ s.hall.keys := by
  rw [← not_iff_not]
  refine Iff.trans ?_ Registry.get_eq_error_iff
  unfold Registry.get?
  cases s.hall.registry.find? id <;> simp

/-- A number whose session was taken away finds nothing any more. -/
theorem Dated.get_of_removed (h : Dated settings s) {x : Removal} (hx : x ∈ s.removed)
    (hr : s.Reaches t) : t.hall.registry.get? x.id = .error (.notFound x.id) := by
  refine Registry.get_eq_error_iff.2 fun hid => ?_
  have hmem := (removed_of_reaches hr).subset hx
  exact ((h.of_reaches hr).mem_keys_iff.1 hid).2 (List.mem_map_of_mem hmem)

/-! ## What a reap does -/

structure Reaps (s t : Timed) (x : Reaping) : Prop where
  /-- It has looked at every session that can be found, once. -/
  looked : x.sweep.looked.map (·.1) ~ s.hall.keys
  /-- What it saw of the end of a session is still so. -/
  saw : ∀ p ∈ x.sweep.looked, s.Saw p.1 p.2
  kept : t.hall.keys <+ s.hall.keys
  /-- It takes away those that it saw finished for at least the grace period, and no others. -/
  gone : ∀ id ∈ s.hall.keys, id ∉ t.hall.keys ↔ ∃ y at_, (id, y) ∈ x.sweep.looked ∧
    y.finishedAt = some at_ ∧ s.hall.registry.settings.gracePeriod ≤ x.sweep.now - at_
  /-- Among them are all that stood so when it came to have the registry for itself. -/
  due : x.sweep.stood.map (·.1) = s.hall.keys ∧ ∀ p ∈ x.sweep.stood, ∀ at_,
    p.2.finishedAt = some at_ → s.hall.registry.settings.gracePeriod ≤ x.sweep.now - at_ →
      p.1 ∉ t.hall.keys
  /-- It says how many they were. -/
  count : x.count + t.hall.registry.size = s.hall.registry.size

theorem Dated.reaps (h : Dated settings s) {w : Sweep} (hw : s.sweep = some w) (hr : w.rest = []) :
    ∃ x, (s.remove w).reapings = s.reapings ++ [x] ∧ Reaps s (s.remove w) x := by
  have hsweeping := h.sweep w hw
  have hlooked : w.looked.map (·.1) ~ s.hall.keys := by simpa [hr] using hsweeping.keys
  have hgone : ∀ id ∈ s.hall.keys, id ∉ (s.remove w).hall.keys ↔
      ∃ y at_, (id, y) ∈ w.looked ∧ y.finishedAt = some at_ ∧
        s.hall.registry.settings.gracePeriod ≤ w.now - at_ := by
    intro id hid
    refine Iff.trans ?_ Sweep.mem_expired_iff
    rw [keys_remove, List.mem_filter]
    simp [hid]
  refine ⟨_, rfl, hlooked, hsweeping.saw, ?kept, hgone, ⟨hsweeping.all, ?due⟩, ?count⟩
  case kept =>
    rw [keys_remove]
    exact List.filter_sublist
  case due =>
    intro p hp at_ hat hgrace
    have hid : p.1 ∈ s.hall.keys := hsweeping.all ▸ List.mem_map_of_mem hp
    obtain ⟨q, hq, hqid⟩ := List.mem_map.1 (hlooked.mem_iff.2 hid)
    exact (hgone p.1 hid).2 ⟨q.2, at_, hqid ▸ hq, hsweeping.found p hp at_ hat q hq hqid, hgrace⟩
  case count =>
    have hperm := List.filter_append_perm
      (fun p : Nat × Entry => decide (p.1 ∈ (w.expired s.hall.registry.settings).map (·.1)))
      s.hall.registry.entries
    have hlength := hperm.length_eq
    rw [List.length_append] at hlength
    simpa [Timed.remove, Registry.remove, Registry.size] using hlength

/-- Nothing but a reap takes a session away. -/
theorem Dated.keeps_or_reaps (h : Dated settings s) (hst : Step s t) :
    t.reapings = s.reapings ∧ t.removed = s.removed ∧ s.hall.keys <+: t.hall.keys ∨
      ∃ x, t.reapings = s.reapings ++ [x] ∧ Reaps s t x := by
  cases hst with
  | remove w hw hr => exact Or.inr (h.reaps hw hr)
  | plain t hp => exact Or.inl ⟨rfl, rfl, hp.keeps.keys ▸ List.prefix_rfl⟩
  | register before after room pump =>
    refine Or.inl ⟨rfl, rfl, ?_⟩
    have hkeys : (s.register before after room pump).hall.keys = s.hall.keys ++ [room.id] :=
      List.map_append
    exact hkeys ▸ List.prefix_append ..
  | tick | number | read | reap | acquire | look => exact Or.inl ⟨rfl, rfl, List.prefix_rfl⟩

/-! ## A reap that nobody comes in the way of -/

theorem look_alone {s : Timed} {w : Sweep} (entries : List (Nat × Entry)) (hw : s.sweep = some w)
    (hr : w.rest = entries.map (·.1)) (he : entries ⊆ s.hall.registry.entries) :
    s.Reaches { s with sweep := some { w with
      rest := [], looked := w.looked ++ entries.map fun p => (p.1, p.2.session) } } := by
  induction entries generalizing s w with
  | nil =>
    have hsame : { w with rest := [], looked := w.looked ++ [] } = w := by
      rw [List.append_nil, ← show w.rest = [] from hr]
    rw [List.map_nil, hsame, ← hw]
  | cons p entries ih =>
    have hst : s.Step (s.look w [] (entries.map (·.1)) p.1 p.2.session) :=
      .look w [] _ p.1 p.2 hw hr (he List.mem_cons_self)
    have hrest := ih (s := s.look w [] (entries.map (·.1)) p.1 p.2.session) rfl rfl
      fun q hq => he (List.mem_cons_of_mem _ hq)
    rw [List.map_cons, List.append_cons]
    exact .head hst hrest

/-- A reap that found the sessions as they stand takes away those whose grace period is over. -/
theorem remove_expired {r : Registry} (hk : (r.entries.map (·.1)).Nodup) {w : Sweep}
    (hw : w.looked = r.sessions) :
    r.remove ((w.expired r.settings).map (·.1)) = r.reap w.now := by
  have hmem : ∀ p ∈ r.entries, decide (p.1 ∈ (w.expired r.settings).map (·.1)) =
      Registry.isExpired r.settings w.now p.2.session := by
    intro p hp
    rw [Bool.eq_iff_iff, decide_eq_true_iff, Sweep.mem_expired_iff, Registry.isExpired_iff, hw]
    constructor
    · rintro ⟨y, at_, hlooked, hat, hgrace⟩
      obtain ⟨q, hq, heq⟩ := List.mem_map.1 hlooked
      obtain ⟨hid, rfl⟩ := Prod.mk.inj heq
      obtain rfl := List.inj_on_of_nodup_map hk hq hp hid
      exact ⟨at_, hat, hgrace⟩
    · rintro ⟨at_, hat, hgrace⟩
      exact ⟨_, at_, List.mem_map.2 ⟨p, hp, rfl⟩, hat, hgrace⟩
  have hgone := List.filter_congr hmem
  have hkept : r.entries.filter (·.1 ∉ (w.expired r.settings).map (·.1)) =
      r.entries.filter fun p => !Registry.isExpired r.settings w.now p.2.session :=
    List.filter_congr fun p hp => by rw [decide_not, hmem p hp]
  unfold Registry.remove Registry.reap
  rw [hgone, hkept]

/-- A reap that has the registry for itself from the start takes away what `Registry.reap` does. -/
theorem reap_alone (hk : s.hall.keys.Nodup) (free : s.sweep = none) : ∃ t x, s.Reaches t ∧
    t.hall.registry = (s.hall.registry.reap s.clock).1 ∧ t.reapings = s.reapings ++ [x] ∧
    x.count = (s.hall.registry.reap s.clock).2.length ∧ t.clock = s.clock ∧ t.sweep = none := by
  have r : s.Reaches _ := .single .reap
  have r := r.tail (.acquire s.waiting [] s.clock rfl free)
  have r := r.trans (look_alone s.hall.registry.entries rfl rfl (List.Subset.refl _))
  have r := r.tail (.remove _ rfl rfl)
  have hremove := remove_expired (r := s.hall.registry) hk
    (w := ⟨s.clock, s.hall.registry.sessions, [], s.hall.registry.sessions⟩) rfl
  exact ⟨_, _, r, congrArg Prod.fst hremove, rfl, congrArg (·.2.length) hremove, rfl, rfl⟩

/-! ## In any order -/

structure Addressed (settings : SessionSettings) (s : Timed) : Prop where
  /-- Numbers are given out in their order, and each belongs to one call. -/
  numbers : s.numbers = List.range' 1 s.numbers.length
  increasing : s.numbers.Pairwise (· < ·)
  /-- They fit into a word, as long as no more calls take one. -/
  fits : s.numbers.length < UInt64.size → ∀ id ∈ s.numbers, id < UInt64.size
  used : s.hall.used ~ s.numbers
  created : s.hall.created.Nodup ∧ s.hall.created ⊆ s.numbers
  /-- A number finds a session exactly if one was registered under it and was not taken away. -/
  found : ∀ id, (∃ e, s.hall.registry.get? id = .ok e) ↔
    id ∈ s.hall.created ∧ id ∉ s.removed.map (·.id)
  missing : ∀ id, (¬ ∃ e, s.hall.registry.get? id = .ok e) →
    s.hall.registry.get? id = .error (.notFound id)
  /-- It always finds the same session. -/
  same : ∀ id e, s.hall.registry.get? id = .ok e →
    ∃ r ∈ s.hall.rooms, r.id = id ∧ e.session = r.scene.session ∧
      ∀ t, s.Reaches t → ∀ e', t.hall.registry.get? id = .ok e' →
        ∃ r' ∈ t.hall.rooms, r'.id = id ∧ r'.slot = r.slot ∧ e'.session = r'.scene.session ∧
          r.scene.Reaches r'.scene
  /-- Only a reap takes sessions away. -/
  reaps : ∀ t, s.Step t →
    t.reapings = s.reapings ∧ t.removed = s.removed ∧ s.hall.keys <+: t.hall.keys ∨
      ∃ x, t.reapings = s.reapings ++ [x] ∧ Reaps s t x
  /-- Whatever was taken away had been finished for at least the grace period. -/
  late : ∀ x ∈ s.removed, Late settings s x
  /-- A session can be found until it has been finished for that long. -/
  lasts : ∀ r ∈ s.hall.rooms, r.id ∈ s.hall.created →
    (∀ at_, r.scene.session.finishedAt = some at_ → s.clock < at_ + settings.gracePeriod) →
      ∃ e, s.hall.registry.get? r.id = .ok e ∧ e.session = r.scene.session
  /-- What was taken away is never found again. -/
  gone : ∀ x ∈ s.removed, ∀ t, s.Reaches t →
    t.hall.registry.get? x.id = .error (.notFound x.id)

theorem Dated.addressed (h : Dated settings s) : Addressed settings s := by
  have hfound : ∀ id, (∃ e, s.hall.registry.get? id = .ok e) ↔
      id ∈ s.hall.created ∧ id ∉ s.removed.map (·.id) := fun id =>
    exists_get_iff.trans h.mem_keys_iff
  refine ⟨h.numbers, ?increasing, ?fits, h.used, ⟨h.nodup_created, ?created⟩, hfound, ?missing, ?same,
    fun t hst => h.keeps_or_reaps hst, h.removed, ?lasts, fun x hx t hr => h.get_of_removed hx hr⟩
  case increasing =>
    rw [h.numbers]
    exact List.pairwise_lt_range'
  case fits =>
    intro hfew id hid
    rw [h.numbers, List.mem_range'_1] at hid
    omega
  case created =>
    intro id hid
    exact h.used.mem_iff.1 (List.mem_append_right _ (s.hall.created_sublist.mem hid))
  case missing =>
    intro id hn
    exact Registry.get_eq_error_iff.2 fun hid => hn (exists_get_iff.2 hid)
  case same =>
    intro id e he
    obtain ⟨r, hr, hid, hsession⟩ := h.get_eq_ok he
    refine ⟨r, hr, hid, hsession, fun t ht e' he' => ?_⟩
    obtain ⟨r', hr', hid', hsession'⟩ := (h.of_reaches ht).get_eq_ok he'
    obtain ⟨hslot, hreaches⟩ := ((h.owns hr).of_reaches ht).room r' hr' (hid'.trans hid.symm)
    exact ⟨r', hr', hid', hslot, hsession', hreaches⟩
  case lasts =>
    intro r hr hc hlate
    have hkept : r.id ∉ s.removed.map (·.id) := by
      intro hid
      obtain ⟨x, hx, hid⟩ := List.mem_map.1 hid
      obtain ⟨hsaw, at_, hat, hgrace, hle⟩ := h.removed x hx
      have hnoted := (hsaw.2 at_ hat).2 r hr hid.symm
      have := hlate at_ hnoted
      omega
    obtain ⟨e, he⟩ := (hfound r.id).2 ⟨hc, hkept⟩
    obtain ⟨r', hr', hid, hsession⟩ := h.get_eq_ok he
    obtain rfl := h.sound.numbered.room_inj hr' hr hid
    exact ⟨e, he, hsession⟩

/-- Whatever goes on in a registry, its numbers find the sessions that they belong to, and for as long as
they should. -/
theorem addressed_of_reaches (h : (opening settings).Reaches s) : Addressed settings s :=
  Dated.addressed ((dated_opening settings).of_reaches h)

/-- The first program cannot be started, the second session is finished before it is registered, and the
third goes on. A reap that began too early takes nothing away, the next one takes away the second. -/
theorem addressed_of_two_reaps : ∃ s, (opening Hall.brief.registry.settings).Reaches s ∧
    Addressed Hall.brief.registry.settings s ∧ s.numbers = [1, 2, 3] ∧
    s.hall.answers.map CreateAnswer.result = [.error (.spawn "gdb" "not found"), .ok 2, .ok 3] ∧
    s.reapings.map (·.count) = [0, 1] ∧ s.removed.map (fun x => (x.id, x.at_)) = [(2, 9)] ∧
    s.hall.registry.get? 2 = .error (.notFound 2) ∧ s.hall.keys = [3] := by
  have r : (opening Hall.brief.registry.settings).Reaches _ := .refl
  have r := r.tail (.plain _ (.arrive rfl))
  have r := r.tail (.number [] [] 0 rfl)
  have r := r.tail (.plain _ (.fail [] [] 0 1 "gdb" "not found" rfl))
  have r := r.tail (.plain _ (.arrive rfl))
  have r := r.tail (.number [] [] 1 rfl)
  have r := r.tail (.plain _ (.start [] [] 1 2 .text Scene.quiet.session.child none rfl))
  have r := r.tail (.plain _ (.alone rfl rfl (.pump (.beginFinish (.exited 0) rfl)) (Or.inl rfl)))
  have r := r.tail (.plain _ (.alone rfl rfl (.pump (.finish _ .record _ 0 rfl (fun _ => rfl) nofun))
    (Or.inl rfl)))
  have r := r.tail (.plain _ (.alone rfl rfl (.pump (.finish _ .move _ 0 rfl nofun nofun))
    (Or.inl rfl)))
  have r := r.tail (.plain _ (.alone rfl rfl (.pump (.finish _ .sealLog _ 0 rfl nofun nofun))
    (Or.inl rfl)))
  have r := r.tail (.plain _ (.alone rfl rfl (.pump (.finish _ .closePacer _ 0 rfl nofun fun _ => rfl))
    (Or.inl rfl)))
  have r := r.tail (.plain _ (.alone rfl rfl (.pump (.finish _ .closeInput _ 0 rfl nofun nofun))
    (Or.inl rfl)))
  have r := r.tail (.plain _ (.alone rfl rfl (.pump (.finish _ .releaseSlot _ 0 rfl nofun nofun))
    (Or.inl rfl)))
  have r := r.tail (.tick 4 (by decide))
  have r := r.tail (.read _ _ _ (List.mem_singleton_self _) rfl rfl rfl)
  have r := r.tail (.tick 5 (by decide))
  have r := r.tail (.plain _ (.alone rfl rfl (.pump (.finish _ .stamp _ 4 rfl nofun nofun))
    (Or.inr rfl)))
  have r := r.tail (.register [] [] _ .finished rfl rfl (List.mem_singleton_self _))
  have r := r.tail (.plain _ (.arrive rfl))
  have r := r.tail (.number [] [] 2 rfl)
  have r := r.tail (.plain _ (.start [] [] 2 3 .text Scene.quiet.session.child none rfl))
  have r := r.tail (.register [] [] _ .finished rfl rfl
    (List.mem_append_right _ (List.mem_singleton_self _)))
  have r := r.tail (.tick 6 (by decide))
  have r := r.tail .reap
  have r := r.tail (.tick 9 (by decide))
  have r := r.tail .reap
  have r := r.tail (.acquire [] [9] 6 rfl rfl)
  have r := r.tail (.look _ [] [3] 2 _ rfl rfl List.mem_cons_self)
  have r := r.tail (.look _ [] [] 3 _ rfl rfl (.tail _ List.mem_cons_self))
  have r := r.tail (.remove _ rfl rfl)
  have r := r.tail (.acquire [] [] 9 rfl rfl)
  have r := r.tail (.look _ [2] [] 3 _ rfl rfl (.tail _ List.mem_cons_self))
  have r := r.tail (.look _ [] [] 2 _ rfl rfl List.mem_cons_self)
  have r := r.tail (.remove _ rfl rfl)
  exact ⟨_, r, addressed_of_reaches r, rfl, rfl, rfl, rfl, rfl, rfl⟩

end Timed

end SessionHost
