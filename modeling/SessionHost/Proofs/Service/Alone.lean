import SessionHost.Proofs.Service.Custody
import SessionHost.Proofs.Service.Shutdown
import SessionHost.Server.Turn

/-!
# What a server does with scratch directories, and as it stops

The functions of a server make and remove directories of files, where a `Service` keeps the list of those
that exist.

* `Compilation.fresh_of_start`: the directory of a build did not exist before.
* `Compilation.bare_of_start`, `Server.bare_of_advance`: a request to run a program that is answered with an
  error leaves nothing behind, unless a session was started for it that cannot be found any more.
* `Server.create_alone`, `Server.reap_alone`: to start a session for which there is a build, and to take
  sessions away, are ways through the steps of a service.
* `Server.mem_nodes_reap`: a reap removes the directories of those it takes away and whom nobody holds on
  to, and nothing else.
* `Server.ended_of_stopStep`: as it stops, a server ends all sessions that can be found.
-/
namespace SessionHost

open Host (Path Files)

namespace Host.Files

variable {fs fs' : Files} {p q : Path}

def Bare (fs : Files) (p : Path) : Prop := ∀ n ∈ fs.nodes, p.isPrefixOf n.1 = false

theorem mem_nodes_remove {n : Path × Node} :
    n ∈ (fs.remove p).nodes ↔ n ∈ fs.nodes ∧ p.isPrefixOf n.1 = false := by
  simp [remove, List.mem_filter]

theorem bare_remove (fs : Files) (p : Path) : (fs.remove p).Bare p :=
  fun _ hn => (mem_nodes_remove.1 hn).2

theorem node_eq_none_iff (hp : p ≠ []) : fs.node? p = none ↔ p ∉ fs.nodes.map (·.1) := by
  have hempty : p.isEmpty = false := by simpa using hp
  unfold node?
  rw [hempty, if_neg Bool.false_ne_true, Option.map_eq_none_iff, List.find?_eq_none]
  simp only [beq_iff_eq, List.mem_map, not_exists, not_and]

theorem mem_map_put {x : Node} (h : q ∈ fs.nodes.map (·.1)) : q ∈ (fs.put p x).nodes.map (·.1) := by
  unfold put
  split
  · obtain ⟨n, hn, rfl⟩ := List.mem_map.1 h
    refine List.mem_map.2 ⟨_, List.mem_map_of_mem hn, ?_⟩
    split
    · next he => exact (beq_iff_eq.1 he).symm
    · rfl
  · rw [List.map_append]
    exact List.mem_append_left _ h

/-- A place at which there is nothing had nothing before something was put elsewhere. -/
theorem node_of_put {x : Node} (h : (fs.put p x).node? q = none) : fs.node? q = none := by
  rcases eq_or_ne q [] with rfl | hq
  · exact h
  · exact (node_eq_none_iff hq).2 fun hmem => (node_eq_none_iff hq).1 h (mem_map_put hmem)

theorem makeDirectory_eq_ok (h : fs.makeDirectory? p = .ok fs') :
    fs.node? p = none ∧ fs' = fs.put p .directory := by
  unfold makeDirectory? at h
  split at h
  · cases h
  · next hnone =>
    split at h
    · cases h
    · split at h <;> cases h
      exact ⟨by simpa using hnone, rfl⟩

theorem node_of_makeDirectories {at_ : Path} {cs : List String}
    (h : fs.makeDirectories? at_ cs = .ok (fs', p)) (hq : fs'.node? q = none) : fs.node? q = none := by
  induction cs generalizing fs at_ with
  | nil =>
    cases h
    exact hq
  | cons c rest ih =>
    unfold makeDirectories? at h
    split at h
    · exact ih h
    · split at h
      · exact ih h
      · dsimp only at h
        split at h
        · exact ih h
        · cases h
        · split at h
          · next made =>
            obtain ⟨-, rfl⟩ := makeDirectory_eq_ok made
            exact node_of_put (ih h)
          · cases h

end Host.Files

/-! ## Letting go of a program -/

namespace Host

theorem files_signalOne (h : Host) (n : Nat) (x : Signal) : (h.signalOne n x).files = h.files := by
  unfold signalOne
  repeat' split
  all_goals rfl

theorem files_foldl {α : Type} {f : Host → α → Host} (hf : ∀ h x, (f h x).files = h.files) (l : List α)
    (h : Host) : (l.foldl f h).files = h.files := by
  induction l generalizing h with
  | nil => rfl
  | cons x rest ih => exact (ih (f h x)).trans (hf h x)

theorem files_signalGroup (h : Host) (group : Nat) (x : Signal) :
    (h.signalGroup group x).files = h.files := by
  refine (files_foldl (fun h t => ?_) _ _).trans (files_foldl (fun h n => files_signalOne h n x) _ h)
  split
  · exact files_foldl (fun h n => files_signalOne h n _) _ _
  · rfl

theorem files_kill (h : Host) (c : Child) : (c.kill h).1.files = h.files := by
  unfold Child.kill
  split
  · rfl
  · split
    · exact files_signalGroup ..
    · rfl

theorem files_abandon (h : Host) (c : Child) : (c.abandon h).files = h.files := by
  unfold Child.abandon
  dsimp only
  split <;> exact files_kill h c

end Host

/-! ## Building -/

namespace Scratch

theorem bare_remove (h : Host) (p : Path) : (remove h p).files.Bare p :=
  Files.bare_remove _ _

theorem node_of_make {h h' : Host} {home place : Path} {parent : Option String} {text : String}
    (hm : make? h home parent = .ok (h', text, place)) : h.files.node? place = none := by
  unfold make? at hm
  cases parent with
  | none =>
    simp only [bind, Except.bind, pure, Except.pure] at hm
    split at hm
    · cases hm
    · split at hm
      · cases hm
      · next hmade =>
        cases hm
        exact (Files.makeDirectory_eq_ok hmade).1
  | some dir =>
    simp only [bind, Except.bind, pure, Except.pure] at hm
    split at hm
    · cases hm
    · next hparents =>
      split at hm
      · cases hm
      · next hmade =>
        cases hm
        exact Files.node_of_makeDirectories hparents (Files.makeDirectory_eq_ok hmade).1

end Scratch

namespace Compilation

variable {h h' : Host} {home : Path} {tools : ToolchainConfig} {r : BuildRequest} {symbols : Bool}
  {c : Compilation} {e : BuildError}

/-- A compiler is at work in a directory that did not exist before. -/
theorem fresh_of_start (hs : start? h home tools r symbols = (.ok c, h')) :
    h.files.node? c.build.place = none := by
  unfold start? at hs
  split at hs
  · cases hs
  · next made text place hmade =>
    dsimp only at hs
    split at hs
    · cases hs
    · split at hs <;> cases hs
      exact Scratch.node_of_make hmade

/-- If no compiler can be started, there is no directory, or it is removed. -/
theorem bare_of_start (hs : start? h home tools r symbols = (.error e, h')) :
    h' = h ∨ ∃ made text place, Scratch.make? h home tools.workDir = .ok (made, text, place) ∧
      h'.files.Bare place := by
  unfold start? at hs
  split at hs
  · cases hs
    exact Or.inl rfl
  · next made text place hmade =>
    refine Or.inr ⟨made, text, place, hmade, ?_⟩
    dsimp only at hs
    split at hs
    · cases hs
      exact Scratch.bare_remove _ _
    · split at hs <;> cases hs
      exact Scratch.bare_remove _ _

theorem bare_of_result (hr : c.result? h = some (.error e, h')) : h'.files.Bare c.build.place := by
  unfold result? at hr
  split at hr
  · dsimp only at hr
    split at hr <;> cases hr
    exact Scratch.bare_remove _ _
  · split at hr <;> cases hr
    exact Scratch.bare_remove _ _

/-- One that does not fail has what it had from the start. -/
theorem build_of_result {b : Build} (hr : c.result? h = some (.ok b, h')) : b = c.build := by
  unfold result? at hr
  split at hr
  · dsimp only at hr
    split at hr <;> cases hr
    rfl
  · split at hr <;> cases hr

theorem build_of_serve (h : Host) (c : Compilation) : (c.serve h).2.build = c.build := rfl

end Compilation

namespace Server

/-! ## Creating a session -/

/-- If a session cannot be started, its directory is removed. -/
theorem bare_of_create {s s' : Server} {mode : Mode} {l : Launch} {e : SessionError} {dir : Path}
    (hl : l.scratch = some dir) (h : s.create mode l = (s', .error e)) : s'.host.files.Bare dir := by
  unfold create at h
  dsimp only at h
  split at h <;> cases h
  unfold removeScratch
  rw [hl]
  exact Scratch.bare_remove _ _

theorem create_alone {v : Service} {s : Server}
    (hreg : v.hall.registry = s.registry) {before after : List Path} {dir : Path}
    (hb : v.builds = before ++ dir :: after) (mode : Mode) {l : Launch} (hl : l.scratch = some dir) :
    ∃ w, v.Reaches w ∧ w.hall.registry = (s.create mode l).1.registry ∧ w.builds = before ++ after ∧
      match (s.create mode l).2 with
      | .ok id => w.dirs = v.dirs ∧ w.started = v.started ++ [(id, dir)] ∧ w.seekers = v.seekers ++ [id]
      | .error e => w.dirs = v.dirs.erase dir ∧ w.refusals = v.refusals ++ [.late dir (.session e)] := by
  unfold create Registry.create
  rw [← hreg]
  cases hr : v.hall.registry.reserve? with
  | none =>
    have hle : v.hall.places ≤ v.hall.registry.active := by
      unfold Registry.reserve? at hr
      split at hr
      · cases hr
      · next hfull => exact Nat.not_lt.1 hfull
    have r : v.Reaches _ := .single (.goes (.exhausted before after dir hb hle))
    have harrive : v.hall.arrive =
        { v.hall with answers := v.hall.answers ++ [.exhausted v.hall.places] } := by
      rw [Hall.arrive, hr]
    rw [harrive] at r
    refine ⟨_, r, ?_, rfl, rfl, rfl⟩
    dsimp only
    unfold removeScratch
    rw [hl]
    rfl
  | some registry =>
    have hlt : v.hall.registry.active < v.hall.places := by
      unfold Registry.reserve? at hr
      split at hr
      · next hfree => exact hfree
      · cases hr
    have r : v.Reaches _ := .single (.goes (.arrive before after dir hb hlt))
    have harrive : v.hall.arrive = { v.hall with
        registry, calls := v.hall.calls ++ [.reserved v.hall.granted],
        granted := v.hall.granted + 1 } := by
      rw [Hall.arrive, hr]
    rw [harrive] at r
    have r := r.tail (.goes (.number v.hall.calls [] v.hall.granted rfl))
    dsimp only
    cases hstart : l.start? s.host s.home mode.wiring registry.takeId.1.settings.readChunk with
    | error e =>
      have r := r.tail (.goes (.fail v.hall.calls [] v.hall.granted registry.nextId l.program e.message
        v.launches [] dir rfl rfl))
      refine ⟨_, r, ?_, rfl, rfl, rfl⟩
      dsimp only
      unfold removeScratch
      rw [hl]
      rfl
    | ok started =>
      obtain ⟨h', child⟩ := started
      have r := r.tail (.goes (.start v.hall.calls [] v.hall.granted registry.nextId mode child
        v.launches [] dir rfl rfl))
      have r := r.tail (.goes (.register v.hall.calls []
        { id := registry.nextId, slot := v.hall.granted
          scene := Scene.start mode child registry.settings (some dir) }
        (Pump.start registry.settings h'.now) rfl
        (List.mem_append_right _ (List.mem_singleton_self _))))
      refine ⟨_, r, ?_, rfl, rfl, rfl, rfl⟩
      dsimp only
      rw [hl]
      rfl

/-- What is built for a request is started in its directory, which the session gets. -/
theorem bare_of_launch {s s' : Server} {job : RunJob} {b : Build} {e : ApiError}
    (h : s.launch job b = (s', .error e)) :
    s'.host.files.Bare b.place ∨ ∃ id, e = .session (.notFound id) := by
  unfold launch at h
  split at h
  · next hc =>
    cases h
    exact Or.inl (bare_of_create rfl hc)
  · split at h
    · next hf =>
      obtain ⟨-, he⟩ := Prod.mk.inj h
      cases he
      unfold find Registry.get? at hf
      split at hf <;> cases hf
      exact Or.inr ⟨_, rfl⟩
    · cases h

theorem bare_of_advance {s s' : Server} {job : RunJob} {e : ApiError}
    (h : s.advance job = (s', .ok (.error e))) :
    s'.host.files.Bare job.compilation.build.place ∨ ∃ id, e = .session (.notFound id) := by
  unfold advance at h
  dsimp only at h
  split at h
  · cases h
  · next hr =>
    obtain ⟨rfl, -⟩ := Prod.mk.inj h
    have hbare := Compilation.bare_of_result hr
    rw [Compilation.build_of_serve] at hbare
    exact Or.inl hbare
  · next b host hr =>
    have hplace : b.place = job.compilation.build.place := by
      rw [Compilation.build_of_result hr, Compilation.build_of_serve]
    rw [← hplace]
    obtain ⟨rfl, he⟩ := Prod.mk.inj h
    exact bare_of_launch (Prod.ext rfl (Except.ok.inj he))

/-! ## Reaping -/

/-- To let go of a session removes its directory, if nobody holds on to it, and nothing else. -/
theorem mem_nodes_letGo {s : Server} {id : Nat} {e : Entry} {n : Path × Host.Node} :
    n ∈ (s.letGo id e).host.files.nodes ↔ n ∈ s.host.files.nodes ∧
      (id ∉ s.held → ∀ dir, e.session.scratch = some dir → dir.isPrefixOf n.1 = false) := by
  unfold letGo
  split
  · next h => simp_all
  · next h =>
    have hid : id ∉ s.held := by simpa using h
    unfold removeScratch
    cases e.session.scratch with
    | none => simp [Host.files_abandon]
    | some dir => simp [Scratch.remove, Files.mem_nodes_remove, Host.files_abandon, hid]

theorem held_letGo (s : Server) (id : Nat) (e : Entry) : (s.letGo id e).held = s.held := by
  unfold letGo removeScratch
  split
  · rfl
  · cases e.session.scratch <;> rfl

theorem mem_nodes_letGoAll {gone : List (Nat × Entry)} {s : Server} {n : Path × Host.Node} :
    n ∈ (gone.foldl (fun s e => s.letGo e.1 e.2) s).host.files.nodes ↔ n ∈ s.host.files.nodes ∧
      ∀ p ∈ gone, p.1 ∉ s.held → ∀ dir, p.2.session.scratch = some dir →
        dir.isPrefixOf n.1 = false := by
  induction gone generalizing s with
  | nil => simp
  | cons p rest ih =>
    rw [List.foldl_cons, ih, mem_nodes_letGo, held_letGo, List.forall_mem_cons, and_assoc]

/-- A reap that has the registry for itself takes away what `Registry.reap` does. -/
theorem reap_alone {v : Service} (hk : v.hall.keys.Nodup) (now : Nat) : ∃ w, v.Reaches w ∧
    w.hall.registry = (v.hall.registry.reap now).1 ∧ w.dirs = v.dirs ∧
    w.hands = v.hands ++ (v.hall.registry.reap now).2.map (·.1) := by
  let expired (p : Nat × Entry) : Bool := Registry.isExpired v.hall.registry.settings now p.2.session
  let takes (id : Nat) : Bool := id ∈ (v.hall.registry.entries.filter expired).map (·.1)
  have htakes : ∀ p ∈ v.hall.registry.entries, takes p.1 = expired p := by
    intro p hp
    rw [Bool.eq_iff_iff, decide_eq_true_iff]
    constructor
    · intro hmem
      obtain ⟨q, hq, hid⟩ := List.mem_map.1 hmem
      obtain ⟨hq, he⟩ := List.mem_filter.1 hq
      rwa [← List.inj_on_of_nodup_map hk hq hp hid]
    · exact fun he => List.mem_map_of_mem (List.mem_filter.2 ⟨hp, he⟩)
  have r : v.Reaches (v.takeAway takes) :=
    .single (.goes (.reap now takes fun p hp ht => (htakes p hp).symm.trans ht))
  refine ⟨_, r, ?_, rfl, ?_⟩
  · unfold Registry.reap Service.takeAway
    dsimp only
    congr 1
    exact List.filter_congr fun p hp => by rw [htakes p hp]
  · refine congrArg (v.hands ++ ·) ?_
    unfold Hall.keys Registry.reap
    rw [List.filter_map]
    exact congrArg (List.map (·.1)) (List.filter_congr htakes)

/-- A reap removes the directories of those it takes away and whom nobody holds on to, and nothing else. -/
theorem mem_nodes_reap {s : Server} {n : Path × Host.Node} :
    n ∈ s.reap.1.host.files.nodes ↔ n ∈ s.host.files.nodes ∧
      ∀ p ∈ (s.registry.reap s.host.now).2, p.1 ∉ s.held → ∀ dir, p.2.session.scratch = some dir →
        dir.isPrefixOf n.1 = false :=
  mem_nodes_letGoAll

end Server

/-! ## Killing all sessions -/

namespace Session

/-- A session that has begun, and has ended only if it is recorded how. -/
def Sane (s : Session) : Prop := s.state ≠ .starting ∧ s.state.Fits s.exit

theorem Sane.ended_kill {s : Session} (h : s.Sane) (host : Host) : (s.kill host).2.1.Ended := by
  unfold kill
  cases he : s.exit with
  | some e =>
    have hfits : s.state.Fits (some e) := he ▸ h.2
    exact ⟨e, he, hfits.moveTo_terminalState h.1⟩
  | none =>
    have hlive : s.state.isTerminal = false := by
      cases ht : s.state.isTerminal with
      | false => rfl
      | true =>
        obtain ⟨e, hexit, -⟩ := h.2 ht
        rw [he] at hexit
        cases hexit
    refine ⟨_, ?_, (SessionState.fits_of_not_terminal hlive).moveTo_terminalState h.1⟩
    simp [record, moveTo, he]

theorem Ended.sane {s : Session} (h : s.Ended) : s.Sane := by
  refine ⟨fun hs => ?_, fun _ => h⟩
  have hterminal := h.isTerminal
  rw [hs] at hterminal
  cases hterminal

end Session

namespace Registry

variable {r : Registry}

theorem mem_of_find {id : Nat} {e : Entry} (h : r.find? id = some e) : (id, e) ∈ r.entries := by
  obtain ⟨p, hp, rfl⟩ := Option.map_eq_some_iff.1 h
  obtain rfl : p.1 = id := by simpa using List.find?_some hp
  exact List.mem_of_find?_eq_some hp

theorem ended_of_killAll {ids : List Nat} (host : Host) (hs : ∀ p ∈ r.entries, p.2.session.Sane)
    (hids : ∀ p ∈ r.entries, p.1 ∈ ids ∨ p.2.session.Ended) :
    ∀ p ∈ (killAll ids host r).2.entries, p.2.session.Ended := by
  induction ids generalizing host r with
  | nil => exact fun p hp => (hids p hp).resolve_left List.not_mem_nil
  | cons id rest ih =>
    have hrest : ∀ p ∈ r.entries, p.1 ≠ id → p.1 ∈ rest ∨ p.2.session.Ended := fun p hp hne =>
      (hids p hp).imp_left fun hid => (List.mem_cons.1 hid).resolve_left hne
    have hkill : ∀ p ∈ (r.kill host id).2.1.entries, p.2.session.Sane ∧
        (p.1 ∈ rest ∨ p.2.session.Ended) := by
      unfold kill
      cases he : r.find? id with
      | none =>
        have hnone : ∀ p ∈ r.entries, p.1 ≠ id := fun p hp => by
          simpa using List.find?_eq_none.1 (Option.map_eq_none_iff.1 he) p hp
        exact fun p hp => ⟨hs p hp, hrest p hp (hnone p hp)⟩
      | some e =>
        intro p hp
        rcases mem_put hp with rfl | ⟨hp, hne⟩
        · have hended := (hs _ (mem_of_find he)).ended_kill host
          exact ⟨hended.sane, Or.inr hended⟩
        · exact ⟨hs p hp, hrest p hp hne⟩
    exact ih _ (fun p hp => (hkill p hp).1) fun p hp => (hkill p hp).2

end Registry

/-- A server that was told to stop ends all sessions that can be found. -/
theorem Server.ended_of_stopStep {s t : Server} (hp : s.phase = .stopping) (ht : s.stopStep? = some t)
    (hs : ∀ p ∈ s.registry.entries, p.2.session.Sane) :
    ∀ p ∈ t.registry.entries, p.2.session.Ended := by
  unfold stopStep? at ht
  rw [hp] at ht
  obtain rfl := Option.some.inj ht
  exact Registry.ended_of_killAll s.host hs fun p hmem => Or.inl (List.mem_map_of_mem hmem)

end SessionHost
