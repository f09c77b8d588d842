import SessionHost.Proofs.Hall.Timed

/-!
# What holds in a registry with a clock

* `Timed.Dated` holds in every registry (`Dated.of_reaches`): the numbers that were given out are 1, 2, 3
  and so on, and each belongs to a call; whoever was registered can be found or was taken away, and not
  both; nobody has read a time that lies ahead.
* `Timed.Saw` is what stays true of a session that was seen finished, since the time of its end is noted
  once (`Scene.Step.finishedAt`). A reap goes by what it saw (`Sweeping`), and so its answer is right when
  it acts, and not only when it looked (`Late`).
-/
namespace SessionHost

open scoped List

theorem Scene.Step.finishedAt {s t : Scene} (hc : Scene.Closing s) (hst : s.Step t) {at_ : Nat}
    (h : s.session.finishedAt = some at_) : t.session.finishedAt = some at_ := by
  rcases hst.undisturbed_or_finishes with hu | ⟨e, f, rest, now, hp, rfl⟩
  · exact hu.stamp.trans h
  · cases f with
    | stamp =>
      obtain ⟨e', steps, hp', hn⟩ := hc.own .stamp trivial ⟨at_, h⟩
      rw [hp] at hp'
      cases hp'
      exact absurd List.mem_cons_self hn
    | _ => exact h

namespace Registry

variable {r : Registry} {id : Nat} {e : Entry}

theorem isExpired_iff {settings : SessionSettings} {now : Nat} {x : Session} :
    isExpired settings now x = true ↔
      ∃ at_, x.finishedAt = some at_ ∧ settings.gracePeriod ≤ now - at_ := by
  unfold isExpired
  cases x.finishedAt <;> simp

theorem get_eq_ok_iff (hk : (r.entries.map (·.1)).Nodup) :
    r.get? id = .ok e ↔ (id, e) ∈ r.entries := by
  have hfind : r.get? id = .ok e ↔ r.find? id = some e := by
    unfold get?
    cases r.find? id <;> simp
  rw [hfind]
  constructor
  · intro h
    obtain ⟨p, hp, rfl⟩ := Option.map_eq_some_iff.1 h
    obtain rfl : p.1 = id := by simpa using List.find?_some hp
    exact List.mem_of_find?_eq_some hp
  · intro h
    cases hp : r.entries.find? (·.1 == id) with
    | none => exact absurd (List.find?_eq_none.1 hp _ h) (by simp)
    | some p =>
      have hid : p.1 = id := by simpa using List.find?_some hp
      have he := List.inj_on_of_nodup_map hk (List.mem_of_find?_eq_some hp) h hid
      exact Option.map_eq_some_iff.2 ⟨p, hp, by rw [he]⟩

theorem get_eq_error_iff : r.get? id = .error (.notFound id) ↔ id ∉ r.entries.map (·.1) := by
  unfold get? find? Host.lookUp
  cases hp : r.entries.find? (·.1 == id) with
  | none =>
    refine ⟨fun _ hid => ?_, fun _ => rfl⟩
    obtain ⟨p, hmem, rfl⟩ := List.mem_map.1 hid
    exact List.find?_eq_none.1 hp p hmem (by simp)
  | some p =>
    refine ⟨nofun, fun hn => absurd ?_ hn⟩
    obtain rfl : p.1 = id := by simpa using List.find?_some hp
    exact List.mem_map_of_mem (List.mem_of_find?_eq_some hp)

end Registry

theorem Sweep.mem_expired_iff {settings : SessionSettings} {w : Sweep} {id : Nat} :
    id ∈ (w.expired settings).map (·.1) ↔ ∃ y at_, (id, y) ∈ w.looked ∧
      y.finishedAt = some at_ ∧ settings.gracePeriod ≤ w.now - at_ := by
  simp only [List.mem_map, Sweep.expired, List.mem_filter, Registry.isExpired_iff]
  constructor
  · rintro ⟨⟨_, y⟩, ⟨hlooked, at_, hat, hgrace⟩, rfl⟩
    exact ⟨y, at_, hlooked, hat, hgrace⟩
  · rintro ⟨y, at_, hlooked, hat, hgrace⟩
    exact ⟨(id, y), ⟨hlooked, at_, hat, hgrace⟩, rfl⟩

namespace Hall

variable {s : Hall}

theorem Listed.nodup_keys (h : Listed s) : s.keys.Nodup := (List.nodup_append.1 h.keys).2.1

theorem created_sublist (s : Hall) : s.created <+ s.answers.filterMap CreateAnswer.id? := by
  unfold created
  induction s.answers with
  | nil => exact .slnil
  | cons a answers ih =>
    cases a with
    | exhausted => exact ih
    | failed slot id => exact ih.cons id
    | created id => exact ih.cons_cons id

theorem Sound.of_sublist {settings : SessionSettings} (h : Sound settings s)
    {entries : List (Nat × Entry)} (he : entries <+ s.registry.entries) :
    Sound settings { s with registry := { s.registry with entries } } where
  settings := h.settings
  balanced := ⟨h.balanced.active, h.balanced.once, h.balanced.bounded⟩
  numbered := ⟨h.numbered.nodup, h.numbered.fresh⟩
  listed := h.listed.of_sublist s.closed he
  recorded := h.recorded

end Hall

namespace Timed

variable {s t : Timed} {settings : SessionSettings}

/-! ## The invariant -/

/-- Whoever saw the session of a number finished saw what is still so. -/
def Saw (s : Timed) (id : Nat) (x : Session) : Prop :=
  id ∈ s.hall.created ∧ ∀ at_, x.finishedAt = some at_ → at_ ≤ s.clock ∧
    ∀ r ∈ s.hall.rooms, r.id = id → r.scene.session.finishedAt = some at_

structure Sweeping (s : Timed) (w : Sweep) : Prop where
  now : w.now ≤ s.clock
  keys : w.rest ++ w.looked.map (·.1) ~ s.hall.keys
  saw : ∀ p ∈ w.looked, s.Saw p.1 p.2
  all : w.stood.map (·.1) = s.hall.keys
  stood : ∀ p ∈ w.stood, s.Saw p.1 p.2
  /-- Whoever was finished when it came to have the registry was found so. -/
  found : ∀ p ∈ w.stood, ∀ at_, p.2.finishedAt = some at_ →
    ∀ q ∈ w.looked, q.1 = p.1 → q.2.finishedAt = some at_

/-- A session was taken away after its grace period. -/
def Late (settings : SessionSettings) (s : Timed) (x : Removal) : Prop :=
  s.Saw x.id x.session ∧ ∃ at_, x.session.finishedAt = some at_ ∧
    at_ + settings.gracePeriod ≤ x.at_ ∧ x.at_ ≤ s.clock

structure Dated (settings : SessionSettings) (s : Timed) : Prop where
  sound : Hall.Sound settings s.hall
  numbers : s.numbers = List.range' 1 s.numbers.length
  next : s.hall.registry.nextId = s.numbers.length + 1
  used : s.hall.used ~ s.numbers
  kept : s.hall.keys ++ s.removed.map (·.id) ~ s.hall.created
  finished : ∀ r ∈ s.hall.rooms, ∀ at_, r.scene.session.finishedAt = some at_ → at_ ≤ s.clock
  readings : ∀ id at_, s.readings id = some at_ → at_ ≤ s.clock
  waiting : ∀ now ∈ s.waiting, now ≤ s.clock
  sweep : ∀ w, s.sweep = some w → s.Sweeping w
  removed : ∀ x ∈ s.removed, Late settings s x

theorem dated_opening (settings : SessionSettings) : Dated settings (opening settings) where
  sound := Hall.sound_opening settings
  numbers := rfl
  next := rfl
  used := .refl _
  kept := .refl _
  finished _ h := absurd h List.not_mem_nil
  readings _ _ h := by cases h
  waiting _ h := absurd h List.not_mem_nil
  sweep _ h := by cases h
  removed _ h := absurd h List.not_mem_nil

theorem Dated.nodup_numbers (h : Dated settings s) : s.numbers.Nodup :=
  h.numbers ▸ List.nodup_range'

theorem Dated.nodup_created (h : Dated settings s) : s.hall.created.Nodup := by
  have hnodup := h.used.nodup_iff.2 h.nodup_numbers
  exact (List.nodup_append.1 hnodup).2.1.sublist s.hall.created_sublist

/-- A number under which a session was registered is not that of a call. -/
theorem Dated.not_numbered (h : Dated settings s) {id : Nat} (hc : id ∈ s.hall.created) (slot : Nat) :
    .numbered slot id ∉ s.hall.calls := by
  intro hn
  have hnodup := h.used.nodup_iff.2 h.nodup_numbers
  have hcall : id ∈ s.hall.calls.filterMap Call.id? := List.mem_filterMap.2 ⟨_, hn, rfl⟩
  have hanswer := s.hall.created_sublist.mem hc
  exact (List.nodup_append.1 hnodup).2.2 id hcall id hanswer rfl

theorem Saw.of_step {id : Nat} {x : Session} (h : s.Saw id x) (hd : Dated settings s)
    (hst : Step s t) : t.Saw id x := by
  have ha := hst.advances
  refine ⟨ha.created h.1, fun at_ hat => ?_⟩
  obtain ⟨hle, hrooms⟩ := h.2 at_ hat
  refine ⟨hle.trans ha.clock, fun r' hr' hid => ?_⟩
  rcases ha.room r' hr' with ⟨r, hr, hf⟩ | ⟨⟨slot, hn⟩, -⟩
  · have hnoted := hrooms r hr (hf.id.symm.trans hid)
    rcases (Relation.reflGen_iff ..).1 hf.scene with he | hst
    · exact he ▸ hnoted
    · exact hst.finishedAt (hd.sound.listed.closing hr) hnoted
  · exact absurd (hid ▸ hn) (hd.not_numbered h.1 slot)

/-! ## What a reap takes away -/

theorem Sweeping.of_step {w : Sweep} (h : s.Sweeping w) (hd : Dated settings s) (hst : Step s t)
    (hk : t.hall.keys = s.hall.keys) : t.Sweeping w where
  now := h.now.trans hst.advances.clock
  keys := hk ▸ h.keys
  saw p hp := (h.saw p hp).of_step hd hst
  all := hk ▸ h.all
  stood p hp := (h.stood p hp).of_step hd hst
  found := h.found

/-- A reap that has looked at all sessions takes away those it found expired, each of them once. -/
theorem Sweeping.expired_perm {w : Sweep} (h : s.Sweeping w) (hr : w.rest = [])
    (hk : s.hall.keys.Nodup) : (w.expired settings).map (·.1) ~
      s.hall.keys.filter (· ∈ (w.expired settings).map (·.1)) := by
  have hlooked : w.looked.map (·.1) ~ s.hall.keys := by simpa [hr] using h.keys
  have hsub : (w.expired settings).map (·.1) <+ w.looked.map (·.1) := List.filter_sublist.map _
  refine (List.perm_ext_iff_of_nodup ((hlooked.nodup_iff.2 hk).sublist hsub) (hk.filter _)).2 ?_
  intro id
  rw [List.mem_filter]
  exact ⟨fun hid => ⟨hlooked.mem_iff.1 (hsub.mem hid), decide_eq_true hid⟩,
    fun hid => of_decide_eq_true hid.2⟩

theorem keys_remove (s : Timed) (w : Sweep) : (s.remove w).hall.keys =
    s.hall.keys.filter (· ∉ (w.expired s.hall.registry.settings).map (·.1)) := by
  simp only [Hall.keys, Timed.remove, Registry.remove, List.filter_map]
  rfl

/-- What can be found and what is taken away is what could be found. -/
theorem Sweeping.keys_remove {w : Sweep} (h : s.Sweeping w) (hr : w.rest = [])
    (hk : s.hall.keys.Nodup) : (s.remove w).hall.keys ++
      (w.expired s.hall.registry.settings).map (·.1) ~ s.hall.keys := by
  rw [Timed.keys_remove]
  refine ((h.expired_perm hr hk).append_left _).trans (List.perm_append_comm.trans ?_)
  simpa using List.filter_append_perm (· ∈ (w.expired s.hall.registry.settings).map (·.1)) s.hall.keys

/-! ## Every step -/

theorem Dated.sound_of_step (h : Dated settings s) (hst : Step s t) : Hall.Sound settings t.hall := by
  cases hst with
  | tick | read | reap | acquire | look => exact h.sound
  | plain t hp => exact h.sound.of_step hp.step
  | number before after slot hc => exact h.sound.of_step (.number before after slot hc)
  | register before after room pump _ hc hr =>
    exact h.sound.of_step (.register before after room pump hc hr)
  | remove w => exact h.sound.of_sublist List.filter_sublist

theorem Dated.counted_of_step (h : Dated settings s) (hst : Step s t) :
    t.numbers = List.range' 1 t.numbers.length ∧
      t.hall.registry.nextId = t.numbers.length + 1 ∧ t.hall.used ~ t.numbers := by
  cases hst with
  | tick | read | reap | acquire | look | remove => exact ⟨h.numbers, h.next, h.used⟩
  | plain t hp =>
    have hk := hp.keeps
    exact ⟨h.numbers, hk.next.trans h.next, hk.used.trans h.used⟩
  | number before after slot hc =>
    simp only [Timed.number, Hall.number, Hall.used, Registry.takeId, List.length_append,
      List.length_singleton]
    refine ⟨?_, by rw [h.next], ?_⟩
    · rw [h.next, List.range'_concat, ← h.numbers, Nat.one_mul, Nat.add_comm]
    · refine List.Perm.trans ?_ (List.perm_append_singleton ..).symm
      refine List.Perm.trans ?_ (h.used.cons _)
      simp only [Hall.used, hc, List.filterMap_append, List.filterMap_cons, Call.id?,
        List.append_assoc, List.cons_append]
      exact List.perm_middle
  | register before after room pump _ hc =>
    refine ⟨h.numbers, h.next, List.Perm.trans ?_ h.used⟩
    simp only [Timed.register, Hall.register, Hall.used, hc, List.filterMap_append,
      List.filterMap_cons, List.filterMap_nil, Call.id?, CreateAnswer.id?, List.append_assoc,
      List.cons_append]
    refine List.Perm.append_left _ ?_
    rw [← List.append_assoc]
    exact List.perm_append_singleton ..

theorem Dated.kept_of_step (h : Dated settings s) (hst : Step s t) :
    t.hall.keys ++ t.removed.map (·.id) ~ t.hall.created := by
  cases hst with
  | tick | read | reap | acquire | look | number => exact h.kept
  | plain t hp =>
    have hk := hp.keeps
    rw [hk.keys, hk.created]
    exact h.kept
  | register before after room pump =>
    have hkeys : (s.register before after room pump).hall.keys = s.hall.keys ++ [room.id] :=
      List.map_append
    have hcreated : (s.register before after room pump).hall.created = s.hall.created ++ [room.id] :=
      List.filterMap_append
    rw [hkeys, hcreated, List.append_assoc]
    calc s.hall.keys ++ ([room.id] ++ s.removed.map (·.id))
      _ ~ room.id :: (s.hall.keys ++ s.removed.map (·.id)) := List.perm_middle
      _ ~ room.id :: s.hall.created := h.kept.cons _
      _ ~ s.hall.created ++ [room.id] := (List.perm_append_singleton ..).symm
  | remove w hw hr =>
    have hsplit := (h.sweep w hw).keys_remove hr h.sound.listed.nodup_keys
    have hremoved : (s.remove w).removed.map (·.id) = s.removed.map (·.id) ++
        (w.expired s.hall.registry.settings).map (·.1) := by
      simp only [Timed.remove, List.map_append, List.map_map]
      rfl
    rw [hremoved]
    calc (s.remove w).hall.keys ++ (s.removed.map (·.id) ++
          (w.expired s.hall.registry.settings).map (·.1))
      _ ~ (s.remove w).hall.keys ++ ((w.expired s.hall.registry.settings).map (·.1) ++
          s.removed.map (·.id)) := List.perm_append_comm.append_left _
      _ ~ s.hall.keys ++ s.removed.map (·.id) := by
        rw [← List.append_assoc]
        exact hsplit.append_right _
      _ ~ s.hall.created := h.kept

theorem Dated.finished_of_step (h : Dated settings s) (hst : Step s t) : ∀ r ∈ t.hall.rooms,
    ∀ at_, r.scene.session.finishedAt = some at_ → at_ ≤ t.clock := by
  have ha := hst.advances
  intro r' hr' at_ hat
  rcases ha.room r' hr' with ⟨r, hr, hf⟩ | ⟨-, hnone⟩
  · refine Nat.le_trans ?_ ha.clock
    rcases hf.stamp with he | he
    · exact h.finished r hr at_ (he ▸ hat)
    · exact h.readings r.id at_ (he ▸ hat)
  · rw [hnone] at hat
    cases hat

theorem Dated.read_of_step (h : Dated settings s) (hst : Step s t) :
    (∀ id at_, t.readings id = some at_ → at_ ≤ t.clock) ∧ ∀ now ∈ t.waiting, now ≤ t.clock := by
  have hle := hst.advances.clock
  cases hst with
  | read room =>
    refine ⟨fun id at_ hat => ?_, h.waiting⟩
    replace hat : Function.update s.readings room.id (some s.clock) id = some at_ := hat
    by_cases hid : id = room.id
    · subst hid
      rw [Function.update_self] at hat
      exact (Option.some.inj hat).ge
    · rw [Function.update_of_ne hid] at hat
      exact h.readings id at_ hat
  | reap =>
    refine ⟨h.readings, fun now hnow => ?_⟩
    rcases List.mem_append.1 hnow with hnow | hnow
    · exact h.waiting now hnow
    · exact (List.mem_singleton.1 hnow).le
  | acquire before after now hw =>
    exact ⟨h.readings, fun x hx => h.waiting x (hw ▸ List.Sublist.mem hx
      ((List.sublist_cons_self ..).append_left before))⟩
  | tick | plain | number | register | look | remove =>
    exact ⟨fun id at_ hat => (h.readings id at_ hat).trans hle,
      fun now hnow => (h.waiting now hnow).trans hle⟩

/-- A reap sees a session as it stands. -/
theorem Dated.saw (h : Dated settings s) {id : Nat} {e : Entry}
    (he : (id, e) ∈ s.hall.registry.entries) : s.Saw id e.session := by
  have hkey : id ∈ s.hall.keys := List.mem_map_of_mem he
  refine ⟨h.kept.mem_iff.1 (List.mem_append_left _ hkey), fun at_ hat => ?_⟩
  obtain ⟨r, hr, hid, hsession⟩ := h.sound.listed.listed _ he
  have hnoted : r.scene.session.finishedAt = some at_ := hsession ▸ hat
  refine ⟨h.finished r hr at_ hnoted, fun r' hr' hid' => ?_⟩
  rw [h.sound.numbered.room_inj hr' hr (hid'.trans hid.symm)]
  exact hnoted

theorem Dated.sweep_of_step (h : Dated settings s) (hst : Step s t) :
    ∀ w, t.sweep = some w → t.Sweeping w := by
  intro w hw
  cases hst with
  | tick now hle => exact (h.sweep w hw).of_step h (.tick now hle) rfl
  | plain t hp => exact (h.sweep w hw).of_step h (.plain t hp) hp.keeps.keys
  | number before after slot hc => exact (h.sweep w hw).of_step h (.number before after slot hc) rfl
  | read room e rest hr hp hs hn => exact (h.sweep w hw).of_step h (.read room e rest hr hp hs hn) rfl
  | reap => exact (h.sweep w hw).of_step h .reap rfl
  | register _ _ _ _ free =>
    rw [show s.sweep = some w from hw] at free
    cases free
  | acquire before after now hwaiting =>
    obtain rfl := Option.some.inj hw
    refine ⟨h.waiting now (hwaiting ▸ by simp), ?_, fun p hp => absurd hp List.not_mem_nil,
      List.map_map, fun p hp => ?_, fun _ _ _ _ q hq => absurd hq List.not_mem_nil⟩
    · rw [List.map_nil, List.append_nil]
      exact .refl _
    · obtain ⟨q, hq, rfl⟩ := List.mem_map.1 hp
      exact h.saw hq
  | look w' before after id e hw' hr he =>
    obtain rfl := Option.some.inj hw
    have hsweeping := h.sweep w' hw'
    refine ⟨hsweeping.now, ?_, fun p hp => ?_, hsweeping.all, hsweeping.stood,
      fun p hp at_ hat q hq hid => ?_⟩
    · have hkeys := hsweeping.keys
      rw [hr] at hkeys
      refine List.Perm.trans ?_ hkeys
      rw [List.map_append, List.map_singleton, ← List.append_assoc]
      refine (List.perm_append_singleton ..).trans ?_
      rw [List.append_assoc, List.append_assoc]
      exact List.perm_middle.symm
    · rcases List.mem_append.1 hp with hp | hp
      · exact hsweeping.saw p hp
      · obtain rfl := List.mem_singleton.1 hp
        exact h.saw he
    · rcases List.mem_append.1 hq with hq | hq
      · exact hsweeping.found p hp at_ hat q hq hid
      · -- the session stands as its scene does, which is still as it was seen before
        obtain rfl := List.mem_singleton.1 hq
        obtain ⟨r, hr, hrid, hsession⟩ := h.sound.listed.listed _ he
        have hnoted := ((hsweeping.stood p hp).2 at_ hat).2 r hr (hrid.trans hid)
        exact (congrArg Session.finishedAt hsession).trans hnoted
  | remove => cases hw

theorem Dated.removed_of_step (h : Dated settings s) (hst : Step s t) :
    ∀ x ∈ t.removed, Late settings t x := by
  have stays : ∀ x ∈ s.removed, Late settings t x := by
    intro x hx
    obtain ⟨hsaw, at_, hat, hgrace, hle⟩ := h.removed x hx
    exact ⟨hsaw.of_step h hst, at_, hat, hgrace, hle.trans hst.advances.clock⟩
  intro x hx
  cases hst with
  | remove w hw hr =>
    rcases List.mem_append.1 hx with hx | hx
    · exact stays x hx
    · obtain ⟨p, hp, rfl⟩ := List.mem_map.1 hx
      obtain ⟨hlooked, hexpired⟩ := List.mem_filter.1 hp
      obtain ⟨at_, hat, hgrace⟩ := Registry.isExpired_iff.1 hexpired
      have hsaw := (h.sweep w hw).saw p hlooked
      refine ⟨hsaw.of_step h (.remove w hw hr), at_, hat, ?_, Nat.le_refl _⟩
      have hnow := (h.sweep w hw).now
      have hclock := (hsaw.2 at_ hat).1
      rw [h.sound.settings] at hgrace
      change at_ + settings.gracePeriod ≤ s.clock
      omega
  | tick | plain | number | register | read | reap | acquire | look => exact stays x hx

theorem Dated.of_step (h : Dated settings s) (hst : Step s t) : Dated settings t := by
  obtain ⟨hnumbers, hnext, hused⟩ := h.counted_of_step hst
  obtain ⟨hreadings, hwaiting⟩ := h.read_of_step hst
  exact {
    sound := h.sound_of_step hst
    numbers := hnumbers
    next := hnext
    used := hused
    kept := h.kept_of_step hst
    finished := h.finished_of_step hst
    readings := hreadings
    waiting := hwaiting
    sweep := h.sweep_of_step hst
    removed := h.removed_of_step hst }

theorem Dated.of_reaches (h : Dated settings s) (hr : s.Reaches t) : Dated settings t :=
  Reaches.keeps (fun _ _ hd hst => Dated.of_step hd hst) hr h

end Timed

end SessionHost
