import SessionHost.Proofs.Hall.Capacity
import SessionHost.Proofs.Scene.Order

/-!
# Ending a session in a registry, in a safe order

`SessionHost.Hall.safeOrder_of_reaches`: at every moment, with anybody at work in the registry and on its
sessions, each session shows its end in the order of `Session.Ordered`. So whoever was told that a session
is done, or that its output is finished, and whoever takes it out of the registry, finds all its output
and how it ended (`Scene.Complete`), and those who wait for its end, or reap it, also find that its place
has been given back (`Hall.GaveBack`).

**Hypothesis.** The registry was opened with nobody in it.

The order within a session is that of its scene (`Scene.ordered_of_reaches`); what is added here is the
book of the registry, into which a place is entered when a session gives it back (`Returned`).
-/
namespace SessionHost.Hall

open scoped List

variable {s t : Hall}

/-- The place of a session was given back by its pump, and nobody holds it now by that number. -/
def GaveBack (s : Hall) (r : Room) : Prop :=
  r.holds = false ∧ (r.slot, .finished r.id) ∈ s.freed ∧ r.slot ∉ s.held

/-- A session that has no place any more was entered into the book. -/
def Returned (s : Hall) : Prop :=
  ∀ r ∈ s.rooms, r.holds = false → (r.slot, .finished r.id) ∈ s.freed

theorem Returned.of_step (h : Returned s) (hst : Step s t) (he : Effect s t) : Returned t := by
  have stays : ∀ r ∈ s.rooms, r.holds = false → (r.slot, .finished r.id) ∈ t.freed :=
    fun r hr hn => he.mem_freed (h r hr hn)
  cases hst with
  | arrive =>
    rw [arrive_eq] at stays ⊢
    split <;> exact h
  | start before after slot id mode child scratch =>
    intro r hr hn
    rcases List.mem_append.1 hr with hr | hr
    · exact h r hr hn
    · rw [List.mem_singleton.1 hr] at hn
      cases hn
  | work before after room t pump hs =>
    intro r hr hn
    rcases mem_middle.1 hr with rfl | hr
    · -- the session that goes on: either it had no place before, or it gives it back now
      cases hh : room.holds with
      | false => exact stays room (hs ▸ mem_middle.2 (Or.inl rfl)) hh
      | true =>
        have hn : t.session.holdsSlot = false := hn
        simp only [Hall.work, hh, hn, Bool.not_false, Bool.and_self, if_true]
        exact List.mem_append_right _ (List.mem_singleton_self _)
    · exact stays r (hs ▸ mem_middle.2 (Or.inr hr)) hn
  | stop before after room hs =>
    intro r hr hn
    rcases mem_middle.1 hr with rfl | hr
    · exact h room (hs ▸ mem_middle.2 (Or.inl rfl)) hn
    · exact h r (hs ▸ mem_middle.2 (Or.inr hr)) hn
  | drop before after room hs => exact fun r hr => stays r (hs ▸ mem_middle.2 (Or.inr hr))
  | fail => exact stays
  | number | register | reap | close => exact h

theorem Returned.gaveBack (h : Returned s) (hb : Balanced s) {r : Room} (hr : r ∈ s.rooms)
    (hn : r.holds = false) : s.GaveBack r := by
  have hfreed := h r hr hn
  refine ⟨hn, hfreed, fun hheld => ?_⟩
  have hnodup := hb.once.nodup_iff.2 List.nodup_range
  exact (List.nodup_append.1 hnodup).2.2 r.slot hheld r.slot (List.mem_map.2 ⟨_, hfreed, rfl⟩) rfl

/-- What sessions show of their end, and what can be relied on then. -/
structure SafeOrder (s : Hall) : Prop where
  /-- Every session shows its end in its order, and so does what can be found of it. -/
  ordered : ∀ r ∈ s.rooms, r.scene.session.Ordered
  found : ∀ p ∈ s.registry.entries, p.2.session.Ordered
  /-- Whoever has waited for the end of a session was told how it ended. -/
  waited : ∀ r ∈ s.rooms, ∀ x, .waited x ∈ r.scene.reports →
    (∃ e, x = some e ∧ r.scene.session.exit = some e) ∧ r.scene.Complete ∧ s.GaveBack r
  finished : ∀ r ∈ s.rooms, r.scene.ToldFinished → r.scene.Complete
  reaped : ∀ now, ∀ p ∈ (s.registry.reap now).2, ∃ r ∈ s.rooms, r.id = p.1 ∧
    r.scene.session = p.2.session ∧ r.scene.Complete ∧ s.GaveBack r

/-- Whatever goes on in a registry, its sessions end in a safe order. -/
theorem safeOrder_of_reaches {settings : SessionSettings} (h : (opening settings).Reaches s) :
    SafeOrder s := by
  obtain ⟨hsound, hreturned⟩ : Sound settings s ∧ Returned s := by
    refine h.keeps (P := fun s => Sound settings s ∧ Returned s) ?_
      ⟨sound_opening settings, fun _ hr => absurd hr List.not_mem_nil⟩
    exact fun s t hs hst =>
      ⟨hs.1.of_step hst, hs.2.of_step hst (hst.effect hs.1.balanced.active)⟩
  have hbegun := hsound.listed.begun
  have hordered : ∀ r ∈ s.rooms, r.scene.session.Ordered := by
    intro r hr
    obtain ⟨_, _, _, _, hreaches⟩ := hbegun r hr
    exact Scene.ordered_of_reaches hreaches
  have hcomplete : ∀ r ∈ s.rooms, r.scene.session.log.closed = true → r.scene.Complete := by
    intro r hr hc
    obtain ⟨_, _, _, _, hreaches⟩ := hbegun r hr
    exact Scene.complete_of_sealed hreaches hc
  -- without its place a session is complete
  have hover : ∀ r ∈ s.rooms, r.holds = false → r.scene.Complete ∧ s.GaveBack r := fun r hr hn =>
    ⟨hcomplete r hr ((hordered r hr).released hn).2.2, hreturned.gaveBack hsound.balanced hr hn⟩
  refine ⟨hordered, ?found, ?waited, ?finished, ?reaped⟩
  case found =>
    intro p hp
    obtain ⟨r, hr, -, hsession⟩ := hsound.listed.listed p hp
    exact hsession ▸ hordered r hr
  case waited =>
    intro r hr x hx
    obtain ⟨_, _, _, _, hreaches⟩ := hbegun r hr
    obtain ⟨hdone, hexit⟩ := Scene.done_of_waited hreaches hx
    have horder := hordered r hr
    exact ⟨hexit, hover r hr (horder.noted (horder.announced hdone))⟩
  case finished =>
    intro r hr hf
    obtain ⟨_, _, _, _, hreaches⟩ := hbegun r hr
    exact hcomplete r hr (Scene.sealed_of_finished hreaches hf)
  case reaped =>
    intro now p hp
    obtain ⟨hentry, at_, hat, -⟩ := Registry.finishedAt_of_reaped hp
    obtain ⟨r, hr, hid, hsession⟩ := hsound.listed.listed p hentry
    have hnoted := (hordered r hr).noted ⟨at_, hsession ▸ hat⟩
    exact ⟨r, hr, hid, hsession.symm, hover r hr hnoted⟩

/-- A poll is told that all output has been read while the pump still ends the session, whoever waits for
its end is told last, and it can be reaped three units of time after its end was noted. -/
theorem safeOrder_of_brief_session : ∃ s, brief.Reaches s ∧ SafeOrder s ∧
    (∀ r ∈ s.rooms, r.scene.ToldFinished ∧ r.scene.reports = [.waited (some (.exited 7))]) ∧
    s.rooms.length = 1 ∧ (s.registry.reap 6).2 = [] ∧ (s.registry.reap 7).2.map (·.1) = [1] := by
  have r : brief.Reaches brief := .refl
  have r := r.tail (.arrive rfl)
  have r := r.tail (.number [] [] 0 rfl)
  have r := r.tail (.start [] [] 0 1 .text Scene.quiet.session.child none rfl)
  have r := r.tail (.register [] [] ⟨1, 0, Scene.quiet, false⟩ .finished rfl (List.mem_singleton_self _))
  have r := r.tail (.alone rfl rfl (.tell (.callWait 0 rfl)))
  have r := r.tail (.alone rfl rfl (.pump (.beginFinish (.exited 7) rfl)))
  have r := r.tail (.alone rfl rfl (.pump (.finish _ _ _ 4 rfl (fun _ => rfl) fun _ => rfl)))
  have r := r.tail (.alone rfl rfl (.pump (.finish _ _ _ 4 rfl (fun _ => rfl) fun _ => rfl)))
  have r := r.tail (.alone rfl rfl (.pump (.finish _ _ _ 4 rfl (fun _ => rfl) fun _ => rfl)))
  have r := r.tail (.alone rfl rfl (.read (.callPollFrom 1 false 0 rfl)))
  have r := r.tail (.alone rfl rfl (.read (.look 1 _ _ _ rfl)))
  have r := r.tail (.alone rfl rfl (.read (.takeOwn 1 _ _ _ rfl)))
  have r := r.tail (.alone rfl rfl (.pump (.finish _ _ _ 4 rfl (fun _ => rfl) fun _ => rfl)))
  have r := r.tail (.alone rfl rfl (.pump (.finish _ _ _ 4 rfl (fun _ => rfl) fun _ => rfl)))
  have r := r.tail (.alone rfl rfl (.pump (.finish _ _ _ 4 rfl (fun _ => rfl) fun _ => rfl)))
  have r := r.tail (.alone rfl rfl (.pump (.finish _ _ _ 4 rfl (fun _ => rfl) fun _ => rfl)))
  have r := r.tail (.alone rfl rfl (.pump (.finish _ _ _ 4 rfl (fun _ => rfl) fun _ => rfl)))
  have r := r.tail (.alone rfl rfl (.tell (.seeDone 0 rfl rfl)))
  have r := r.tail (.alone rfl rfl (.tell (.answerWait 0 rfl)))
  refine ⟨_, r, safeOrder_of_reaches r, fun x hx => ?_, rfl, rfl, rfl⟩
  obtain rfl := List.mem_singleton.1 hx
  exact ⟨Or.inr ⟨0, List.mem_singleton_self _⟩, rfl⟩

end SessionHost.Hall
