import SessionHost.Proofs.Hall.Capacity

/-!
# A registry in one hand

The functions on registries are several steps of a hall at a time. If nobody else has a turn in between,
they leave a registry as these steps do, and the book can be read off the registry itself: what it counts
are the sessions that can be found and have not given back their places.

* `Hall.create_alone`: `Registry.create` is a way through the steps of a call.
* `Registry.Booked`: what a registry counts that nobody else works on. `Booked.create`, `Booked.kill`,
  `Booked.reap` and `Booked.serve` keep it.
-/
namespace SessionHost

/-! ## Creating -/

theorem Hall.create_alone {s : Hall} (ho : s.closed = false) (h : Host) (home : Host.Path)
    (mode : Mode) (l : Launch) : ∃ t a, s.Reaches t ∧
      t.registry = (s.registry.create h home mode l).2.1 ∧ t.calls = s.calls ∧
      t.answers = s.answers ++ [a] ∧ a.result = (s.registry.create h home mode l).2.2 := by
  have r : s.Reaches s.arrive := .single (.arrive ho)
  unfold Registry.create
  cases hr : s.registry.reserve? with
  | none =>
    have harrive : s.arrive = { s with answers := s.answers ++ [.exhausted s.places] } := by
      rw [arrive, hr]
    rw [harrive] at r
    exact ⟨_, _, r, rfl, rfl, rfl, rfl⟩
  | some registry =>
    have harrive : s.arrive = { s with
        registry, calls := s.calls ++ [.reserved s.granted], granted := s.granted + 1 } := by
      rw [arrive, hr]
    rw [harrive] at r
    have r := r.tail (.number s.calls [] s.granted rfl)
    dsimp only
    cases hl : l.start? h home mode.wiring registry.takeId.1.settings.readChunk with
    | error e =>
      have r := r.tail (.fail s.calls [] s.granted registry.nextId l.program e.message rfl)
      exact ⟨_, _, r, rfl, List.append_nil _, rfl, rfl⟩
    | ok started =>
      obtain ⟨h', child⟩ := started
      have r := r.tail (.start s.calls [] s.granted registry.nextId mode child l.scratch rfl)
      have r := r.tail (.register s.calls []
        { id := registry.nextId, slot := s.granted
          scene := Scene.start mode child registry.settings l.scratch }
        (Pump.start registry.settings h'.now) rfl
        (List.mem_append_right _ (List.mem_singleton_self _)))
      exact ⟨_, _, r, rfl, List.append_nil _, rfl, rfl⟩

/-! ## The place of a session -/

namespace Session

/-- The place of a session is not concerned. -/
def Settled (s t : Session) : Prop := t.holdsSlot = s.holdsSlot ∧ t.finishedAt = s.finishedAt

/-- A session whose end is noted has given back its place. -/
def Tidy (s : Session) : Prop := s.finishedAt.isSome → s.holdsSlot = false

variable {s t u : Session}

theorem Settled.trans (h : Settled s t) (ht : Settled t u) : Settled s u :=
  ⟨ht.1.trans h.1, ht.2.trans h.2⟩

theorem settled_observe (s : Session) (p : Pacer) (chunk : Bytes) : Settled s (s.observe p chunk) := by
  unfold observe
  dsimp only
  split
  · cases (s.withPacer (p.observe chunk).1).child.write? _ <;> exact ⟨rfl, rfl⟩
  · exact ⟨rfl, rfl⟩

theorem settled_ingest (s : Session) (chunk : Bytes) : Settled s (s.ingest chunk) := by
  unfold ingest
  split
  · exact ⟨rfl, rfl⟩
  · dsimp only
    split
    · exact ⟨rfl, rfl⟩
    · exact (settled_observe _ _ chunk).imp id id

theorem settled_onStall (s : Session) : Settled s s.onStall := by
  unfold onStall
  split <;> exact ⟨rfl, rfl⟩

theorem settled_kill (h : Host) (s : Session) : Settled s (s.kill h).2.1 := by
  unfold kill
  split <;> exact ⟨rfl, rfl⟩

end Session

namespace Pump

variable {settings : SessionSettings} {h h' : Host} {s s' : Session} {p p' : PumpState}

/-- A pump leaves the place of its session alone until it gives it back. -/
theorem settled_or_released_of_step (hst : step? settings h s p = some (h', s', p')) :
    s.Settled s' ∨ s'.holdsSlot = false := by
  cases p with
  | finished => cases hst
  | finishing e =>
    cases hst
    exact Or.inr rfl
  | awaitingExit =>
    obtain ⟨e, -, he⟩ := Option.map_eq_some_iff.1 hst
    cases he
    exact Or.inl ⟨rfl, rfl⟩
  | reading deadline =>
    refine Or.inl ?_
    change read? settings h s deadline = _ at hst
    unfold read? at hst
    split at hst
    · cases hst; exact Session.settled_ingest _ _
    · cases hst; exact ⟨rfl, rfl⟩
    · cases hst; exact ⟨rfl, rfl⟩
    · split at hst
      · cases hst; exact ⟨rfl, rfl⟩
      · split at hst <;> cases hst
        exact s.settled_onStall
  | lingering e deadline =>
    refine Or.inl ?_
    change linger? settings h s e deadline = _ at hst
    unfold linger? at hst
    split at hst
    · cases hst; exact Session.settled_ingest _ _
    · cases hst; exact ⟨rfl, rfl⟩
    · split at hst <;> cases hst
      exact ⟨rfl, rfl⟩

theorem settled_or_released_of_run (fuel : Nat) (did : Bool) :
    s.Settled (run settings fuel h s p did).2.1 ∨
      (run settings fuel h s p did).2.1.holdsSlot = false := by
  induction fuel generalizing h s p did with
  | zero => exact Or.inl ⟨rfl, rfl⟩
  | succ fuel ih =>
    unfold run
    cases hst : step? settings h s p with
    | none => exact Or.inl ⟨rfl, rfl⟩
    | some r =>
      obtain ⟨h', s', p'⟩ := r
      dsimp only
      rcases settled_or_released_of_step hst with hs | hs
      · exact (ih true).imp_left hs.trans
      · exact Or.inr ((ih true).elim (fun h => h.1.trans hs) id)

end Pump

/-! ## A registry that nobody else works on -/

namespace Registry

/-- A registry counts the sessions that can be found and have not given back their places. -/
structure Booked (r : Registry) : Prop where
  active : r.active = r.entries.countP (·.2.session.holdsSlot)
  bounded : r.active ≤ r.settings.maxSessions
  keys : (r.entries.map (·.1)).Nodup
  fresh : ∀ p ∈ r.entries, p.1 < r.nextId
  tidy : ∀ p ∈ r.entries, p.2.session.Tidy

variable {r : Registry}

/-- What can be found stands somewhere, and is what changes when it is put back. -/
theorem exists_split (hk : (r.entries.map (·.1)).Nodup) {id : Nat} {e : Entry}
    (he : r.find? id = some e) : ∃ before after, r.entries = before ++ (id, e) :: after ∧
      ∀ e', (r.put id e').entries = before ++ (id, e') :: after := by
  obtain ⟨p, hp, rfl⟩ := Option.map_eq_some_iff.1 he
  obtain ⟨hid, before, after, hs, -⟩ := List.find?_eq_some_iff_append.1 hp
  obtain rfl : p.1 = id := by simpa using hid
  rw [hs, List.map_append, List.map_cons, List.nodup_middle, List.nodup_cons,
    ← List.map_append] at hk
  have hother : ∀ q ∈ before ++ after, q.1 ≠ p.1 := fun q hq hqp =>
    hk.1 (hqp ▸ List.mem_map_of_mem hq)
  refine ⟨before, after, hs, fun e' => ?_⟩
  have hkeep : ∀ xs : List (Nat × Entry), (∀ q ∈ xs, q.1 ≠ p.1) →
      Host.change xs p.1 (fun _ => e') = xs := by
    intro xs hxs
    have hsame : ∀ q ∈ xs, (if q.1 == p.1 then (p.1, e') else q) = q := fun q hq => by
      simp [hxs q hq]
    exact (List.map_congr_left hsame).trans (List.map_id' xs)
  have hbefore := hkeep before fun q hq => hother q (List.mem_append_left _ hq)
  have hafter := hkeep after fun q hq => hother q (List.mem_append_right _ hq)
  unfold Host.change at hbefore hafter
  simp only [put, Host.change, hs, List.map_append, List.map_cons, hbefore, hafter, beq_self_eq_true,
    if_true]

theorem countP_put (hk : (r.entries.map (·.1)).Nodup) {id : Nat} {e : Entry}
    (he : r.find? id = some e) (f : Entry) (counts : Nat × Entry → Bool) :
    (r.put id f).entries.countP counts + (if counts (id, e) then 1 else 0) =
      r.entries.countP counts + if counts (id, f) then 1 else 0 := by
  obtain ⟨before, after, hentries, hput⟩ := exists_split hk he
  rw [hput f, hentries]
  simp only [List.countP_append, List.countP_cons]
  omega

/-- A session is put back, and its place is free if it has given it back. -/
theorem Booked.put (h : Booked r) {id : Nat} {e f : Entry} (he : r.find? id = some e)
    (hs : e.session.Settled f.session ∨ f.session.holdsSlot = false) :
    Booked (if e.session.holdsSlot && !f.session.holdsSlot then (r.put id f).release
      else r.put id f) := by
  have hmem : (id, e) ∈ r.entries := by
    obtain ⟨before, after, hentries, -⟩ := exists_split h.keys he
    rw [hentries]
    exact List.mem_append_right _ List.mem_cons_self
  have htidy : f.session.Tidy := fun hf => by
    rcases hs with hs | hs
    · rw [hs.1]
      exact h.tidy _ hmem (hs.2 ▸ hf)
    · exact hs
  have hbooked : ∀ active, active = (r.put id f).entries.countP (·.2.session.holdsSlot) →
      active ≤ r.active → Booked { r.put id f with active } := by
    intro active ha hle
    refine ⟨ha, hle.trans h.bounded, (numbers_put r id f).symm ▸ h.keys, fun p hp => ?_,
      fun p hp => ?_⟩
    · rcases mem_put hp with rfl | ⟨hp, -⟩
      · exact h.fresh (id, e) hmem
      · exact h.fresh p hp
    · rcases mem_put hp with rfl | ⟨hp, -⟩
      · exact htidy
      · exact h.tidy p hp
  have hcount := countP_put h.keys he f (·.2.session.holdsSlot)
  rw [← h.active] at hcount
  cases hb : e.session.holdsSlot with
  | true =>
    cases hf : f.session.holdsSlot with
    | true =>
      simp only [hb, hf, if_true] at hcount
      exact hbooked r.active (by omega) (Nat.le_refl _)
    | false =>
      simp only [hb, hf, if_true, Bool.false_eq_true, if_false] at hcount
      exact hbooked (r.active - 1) (by omega) (Nat.sub_le ..)
  | false =>
    have hf : f.session.holdsSlot = false := hs.elim (fun hs => hs.1.trans hb) fun hs => hs
    simp only [hb, hf, Bool.false_eq_true, if_false] at hcount
    exact hbooked r.active (by omega) (Nat.le_refl _)

theorem Booked.kill (h : Booked r) (host : Host) (id : Nat) : Booked (r.kill host id).2.1 := by
  unfold Registry.kill
  cases he : r.find? id with
  | none => exact h
  | some e =>
    have hs := Session.settled_kill host e.session
    have hput := h.put (f := { e with session := (e.session.kill host).2.1 }) he (Or.inl hs)
    rwa [show (e.session.holdsSlot && !(e.session.kill host).2.1.holdsSlot) = false by
      rw [hs.1]; exact Bool.and_not_self _, if_neg Bool.false_ne_true] at hput

theorem Booked.reap (h : Booked r) (now : Nat) : Booked (r.reap now).1 where
  active := by
    have hfree : ∀ p ∈ r.entries, isExpired r.settings now p.2.session = true →
        p.2.session.holdsSlot = false := by
      intro p hp hexpired
      refine h.tidy p hp ?_
      unfold isExpired at hexpired
      split at hexpired
      · rename_i hat
        rw [hat]
        rfl
      · cases hexpired
    refine h.active.trans ?_
    rw [Registry.reap, List.countP_filter]
    refine List.countP_congr fun p hp => ?_
    cases hb : p.2.session.holdsSlot with
    | false => simp
    | true =>
      have hkept : isExpired r.settings now p.2.session = false :=
        eq_false_of_ne_true fun hexpired => by
          rw [hfree p hp hexpired] at hb
          cases hb
      simp [hkept]
  bounded := h.bounded
  keys := h.keys.sublist (List.filter_sublist.map _)
  fresh p hp := h.fresh p (List.mem_filter.1 hp).1
  tidy p hp := h.tidy p (List.mem_filter.1 hp).1

theorem Booked.create (h : Booked r) (host : Host) (home : Host.Path) (mode : Mode) (l : Launch) :
    Booked (r.create host home mode l).2.1 := by
  have hfresh : ∀ p ∈ r.entries, p.1 < r.nextId + 1 := fun p hp => Nat.lt_succ_of_lt (h.fresh p hp)
  unfold Registry.create Registry.reserve?
  by_cases hleft : r.active < r.settings.maxSessions
  · rw [if_pos hleft]
    dsimp only
    cases l.start? host home mode.wiring _ with
    | error e => exact ⟨h.active, h.bounded, h.keys, hfresh, h.tidy⟩
    | ok started =>
      refine ⟨?_, hleft, ?_, fun p hp => ?_, fun p hp => ?_⟩
      · change r.active + 1 = (r.entries ++ [_]).countP _
        rw [List.countP_append, h.active]
        rfl
      · change ((r.entries ++ [_]).map Prod.fst).Nodup
        rw [List.map_append, List.map_singleton]
        refine List.nodup_append.2 ⟨h.keys, List.nodup_singleton _, fun id hid id' hid' he => ?_⟩
        obtain ⟨p, hp, rfl⟩ := List.mem_map.1 hid
        obtain rfl := List.mem_singleton.1 hid'
        exact Nat.lt_irrefl _ (he ▸ h.fresh p hp)
      · rcases List.mem_append.1 hp with hp | hp
        · exact hfresh p hp
        · obtain rfl := List.mem_singleton.1 hp
          exact Nat.lt_succ_self _
      · rcases List.mem_append.1 hp with hp | hp
        · exact h.tidy p hp
        · obtain rfl := List.mem_singleton.1 hp
          intro hf
          cases hf
  · rw [if_neg hleft]
    exact h

theorem Booked.serve (h : Booked r) (host : Host) (id : Nat) : Booked (r.serve host id).2.1 := by
  unfold Registry.serve
  cases he : r.find? id with
  | none => exact h
  | some e =>
    dsimp only
    exact h.put (f := ⟨_, _⟩) he (Pump.settled_or_released_of_run pumpSlice false)

theorem booked_of_settings (settings : SessionSettings) : Booked { settings } where
  active := rfl
  bounded := Nat.zero_le _
  keys := .nil
  fresh _ h := absurd h List.not_mem_nil
  tidy _ h := absurd h List.not_mem_nil

theorem Booked.killAll {r : Registry} (h : Booked r) (host : Host) (ids : List Nat) :
    Booked (killAll ids host r).2 := by
  induction ids generalizing host r with
  | nil => exact h
  | cons id rest ih => exact ih (h.kill host id) _

theorem Booked.shutdown (h : Booked r) (host : Host) : Booked (r.shutdown host).2.1 :=
  h.killAll host _

theorem Booked.serveAll {r : Registry} (h : Booked r) (host : Host) (ids : List Nat) (did : Bool) :
    Booked (serveAll ids host r did).2.1 := by
  induction ids generalizing host r did with
  | nil => exact h
  | cons id rest ih => exact ih (h.serve host id) _ _

end Registry

end SessionHost
