import Mathlib
import SessionHost.Proofs.Session.Made
import SessionHost.Proofs.Workshop.Stages

/-!
# Which settings requests and sessions go by

A request to run a program goes by the settings that were in force when it looked, for all that it asks for,
and whatever is put in force while its program is compiled. Sessions go by the settings of the start, for as
long as there is a server.

**Results.**
* `Server.Steady`: what a server does leaves alone what it was told at its start.
* `Workshop.supplied_of_reaches`: which settings requests go by, and which sessions.
-/
namespace SessionHost

open Host (Path)

/-! ## What a server keeps -/

namespace Session

variable {settings : SessionSettings} {h h' : Host} {s t : Session}

theorem alike_closeInput (s : Session) : s.Alike s.closeInput := ⟨rfl, rfl, rfl⟩

theorem Call.alike (hc : s.Call h h' t) : s.Alike t := by
  cases hc with
  | poll p t hp => exact alike_poll hp
  | submit payload => exact alike_submitInput s payload
  | write bs t hw => exact alike_writeInput hw
  | command line => exact alike_sendCommand s line
  | closeInput => exact alike_closeInput s
  | kill => exact alike_kill h s

theorem alike_deliverFirst (s : Session) (stdin : String) :
    s.Alike (Server.deliverFirst s stdin) := by
  have htyped : s.Alike (if stdin == "" then s else (s.submitInput stdin).1) := by
    split
    · exact .rfl
    · exact alike_submitInput s stdin
  unfold Server.deliverFirst
  split
  · dsimp only
    split
    · exact alike_closeInput s
    · split
      · next hw => exact (alike_writeInput hw).trans (alike_closeInput _)
      · exact alike_closeInput s
  · exact htyped
  · exact htyped

end Session

namespace Server

structure MadeBy (settings : SessionSettings) (s : Server) : Prop where
  registry : s.registry.MadeBy settings
  kept : s.kept.MadeBy settings

/-- A server holds to what it was told at its start, and to the settings of its store. -/
structure Steady (settings : SessionSettings) (s t : Server) : Prop where
  store : t.store = s.store
  bindAddr : t.bindAddr = s.bindAddr
  reapInterval : t.reapInterval = s.reapInterval
  shutdownTimeout : t.shutdownTimeout = s.shutdownTimeout
  made : s.MadeBy settings → t.MadeBy settings

variable {settings : SessionSettings} {s t u : Server}

theorem Steady.rfl : Steady settings s s := ⟨.refl _, .refl _, .refl _, .refl _, id⟩

theorem Steady.trans (h : Steady settings s t) (h' : Steady settings t u) : Steady settings s u :=
  ⟨h'.store.trans h.store, h'.bindAddr.trans h.bindAddr, h'.reapInterval.trans h.reapInterval,
    h'.shutdownTimeout.trans h.shutdownTimeout, fun hm => h'.made (h.made hm)⟩

theorem steady_withHost (s : Server) (host : Host) : Steady settings s { s with host } :=
  ⟨rfl, rfl, rfl, rfl, fun hm => ⟨hm.registry, hm.kept⟩⟩

theorem Aside.steady (h : s.Aside t) : Steady settings s t :=
  ⟨h.store, h.bindAddr, h.reapInterval, h.shutdownTimeout,
    fun hm => ⟨h.registry ▸ hm.registry, h.kept ▸ hm.kept⟩⟩

theorem steady_removeScratch (s : Server) (place : Option Path) :
    Steady settings s (s.removeScratch place) := by
  cases place with
  | none => exact .rfl
  | some p => exact steady_withHost s _

theorem steady_create (s : Server) (mode : Mode) (l : Launch) : Steady settings s (s.create mode l).1 := by
  have hcreated : Steady settings s { s with
      host := (s.registry.create s.host s.home mode l).1
      registry := (s.registry.create s.host s.home mode l).2.1 } :=
    ⟨rfl, rfl, rfl, rfl, fun hm => ⟨hm.registry.create .., hm.kept⟩⟩
  unfold create
  dsimp only
  split
  · exact hcreated
  · exact hcreated.trans (steady_removeScratch _ _)

theorem entry_of_find {id : Nat} {e : Entry} (h : s.find id = .ok e) : s.entry? id = .ok e := by
  unfold find Registry.get? at h
  split at h
  · next he =>
    cases h
    unfold entry?
    rw [he]
  · cases h

/-- What can be found, or somebody holds, was made with these settings. -/
theorem MadeBy.entry (h : s.MadeBy settings) {id : Nat} {e : Entry} (he : s.entry? id = .ok e) :
    e.Made settings := by
  unfold entry? at he
  split at he
  · next hf =>
    cases he
    exact h.registry.find hf
  · next hf =>
    cases he
    exact h.kept.find hf
  · cases he

theorem steady_putSession {id : Nat} {e : Entry} (he : s.entry? id = .ok e) {session : Session}
    (ha : e.session.Alike session) : Steady settings s (s.putSession id session) := by
  unfold putSession
  rw [he]
  refine ⟨rfl, rfl, rfl, rfl, fun hm => ?_⟩
  have hmade : Entry.Made settings { e with session } :=
    ⟨(hm.entry he).session.of_alike ha, (hm.entry he).pump⟩
  exact ⟨hm.registry.put id hmade, hm.kept.put id hmade⟩

theorem steady_kill (s : Server) (id : Nat) : Steady settings s (s.kill id).1 :=
  ⟨rfl, rfl, rfl, rfl, fun hm => ⟨hm.registry.kill .., hm.kept⟩⟩

theorem steady_serveOne (s : Server) (id : Nat) : Steady settings s (s.serveOne id) :=
  ⟨rfl, rfl, rfl, rfl, fun hm => ⟨hm.registry.serve .., hm.kept⟩⟩

theorem steady_serveKept (s : Server) (id : Nat) : Steady settings s (s.serveKept id) :=
  ⟨rfl, rfl, rfl, rfl, fun hm => ⟨hm.registry, hm.kept.serve ..⟩⟩

theorem steady_letGo (s : Server) (id : Nat) {e : Entry} (he : e.Made settings) :
    Steady settings s (s.letGo id e) := by
  unfold letGo
  split
  · exact ⟨rfl, rfl, rfl, rfl, fun hm => ⟨hm.registry, hm.kept.add id he⟩⟩
  · exact (steady_withHost s _).trans (steady_removeScratch _ _)

theorem steady_letGoAll {gone : List (Nat × Entry)} (hg : ∀ p ∈ gone, p.2.Made settings) (s : Server) :
    Steady settings s (gone.foldl (fun s e => s.letGo e.1 e.2) s) := by
  induction gone generalizing s with
  | nil => exact .rfl
  | cons p rest ih =>
    obtain ⟨hp, hrest⟩ := List.forall_mem_cons.1 hg
    exact (steady_letGo s p.1 hp).trans (ih hrest _)

theorem steady_reap (s : Server) (hm : s.MadeBy settings) : Steady settings s s.reap.1 := by
  have hgone : ∀ p ∈ (s.registry.reap s.host.now).2, p.2.Made settings :=
    fun p hp => hm.registry.entries p (List.mem_filter.1 hp).1
  have hleft : Steady settings s { s with registry := (s.registry.reap s.host.now).1 } :=
    ⟨rfl, rfl, rfl, rfl, fun hm => ⟨hm.registry.reap _, hm.kept⟩⟩
  exact hleft.trans (steady_letGoAll hgone _)

end Server

namespace Run

variable {settings : SessionSettings} {run : Run} {s : Server} {x : Server × Run}

theorem steady_of_goes (hx : run.Goes s x) : Server.Steady settings s x.1 := by
  cases hx with
  | house =>
    unfold house
    dsimp only
    split
    · exact .rfl
    · exact Server.steady_withHost s _
  | compile =>
    unfold compile
    dsimp only
    split <;> exact Server.steady_withHost s _
  | collect =>
    unfold collect
    dsimp only
    split <;> exact Server.steady_withHost s _
  | launch tools b =>
    have hcreated : Server.Steady settings s
        (s.create run.mode (Toolchain.launch tools b run.mode run.args)).1 := Server.steady_create s _ _
    unfold launch
    dsimp only [demand]
    split
    · next he =>
      rw [he] at hcreated
      exact hcreated
    · next he =>
      rw [he] at hcreated
      exact hcreated
  | deliver id =>
    unfold deliver
    split
    · exact .rfl
    · next entry he =>
      exact Server.steady_putSession (Server.entry_of_find he) (Session.alike_deliverFirst _ _)

end Run

/-! ## What always holds -/

namespace Workshop

open Enforcement (inForce inForce_append)

structure RunSound (config : Config) (history : List StoreEvent) (i : Nat) (run : Run) : Prop where
  stands : run.Stands (inForce config run.before).toolchain
  looked : run.stage ≠ .asked →
    ∃ after, history = run.before ++ .got i (inForce config run.before) :: after

/-- What holds of a workshop at every time if `config` was in force at the start. -/
structure Sound (config : Config) (w : Workshop) : Prop where
  current : w.server.store.config = inForce config w.history
  runs : ∀ i run, w.runs i = some run → RunSound config w.history i run
  made : w.server.MadeBy (.ofConfig config.sessions)
  bindAddr : w.server.bindAddr = config.server.bindAddr
  reapInterval : w.server.reapInterval = SessionSettings.milliseconds config.sessions.reapIntervalMs
  shutdownTimeout :
    w.server.shutdownTimeout = SessionSettings.seconds config.server.shutdownTimeoutSeconds

variable {decode : String → Option Config} {config : Config} {w v : Workshop} {s : Server} {i : Nat}
  {run : Run}

/-- Whatever happens to a store, it has in force what was put in force last. -/
theorem current_of_step {r r' : Enforcement} (h : r.store.config = inForce config r.history)
    (hst : Enforcement.Step decode r r') :
    r'.store.config = inForce config r'.history ∧ r.history <+: r'.history := by
  cases hst with
  | get i =>
    refine ⟨?_, List.prefix_append _ _⟩
    change r.store.config = inForce config (r.history ++ [_])
    rw [inForce_append, ← h]
    rfl
  | load i found c free hl => exact ⟨h, List.prefix_refl _⟩
  | fail i found e free hl =>
    refine ⟨?_, List.prefix_append _ _⟩
    change r.store.config = inForce config (r.history ++ [_])
    rw [inForce_append, ← h]
    rfl
  | renew i found c hu =>
    refine ⟨?_, List.prefix_append _ _⟩
    change c = inForce config (r.history ++ [_])
    rw [inForce_append]
    rfl

theorem RunSound.mono {history history' : List StoreEvent} (h : RunSound config history i run)
    (hp : history <+: history') : RunSound config history' i run := by
  refine ⟨h.stands, fun hs => ?_⟩
  obtain ⟨after, rfl⟩ := h.looked hs
  obtain ⟨more, rfl⟩ := hp
  exact ⟨after ++ more, List.append_assoc _ _ _⟩

theorem Sound.withRules (h : Sound config w) {r : Enforcement} (hst : Enforcement.Step decode w.rules r) :
    Sound config (w.withRules r) := by
  obtain ⟨hcurrent, hgrown⟩ := current_of_step (r := w.rules) h.current hst
  exact {
    current := hcurrent
    runs := fun i run hr => (h.runs i run hr).mono hgrown
    made := ⟨h.made.registry, h.made.kept⟩
    bindAddr := h.bindAddr
    reapInterval := h.reapInterval
    shutdownTimeout := h.shutdownTimeout }

theorem Sound.withServer (h : Sound config w)
    (hs : Server.Steady (.ofConfig config.sessions) w.server s) : Sound config (w.withServer s) where
  current := (congrArg (·.config) hs.store).trans h.current
  runs := h.runs
  made := hs.made h.made
  bindAddr := hs.bindAddr.trans h.bindAddr
  reapInterval := hs.reapInterval.trans h.reapInterval
  shutdownTimeout := hs.shutdownTimeout.trans h.shutdownTimeout

theorem Sound.put (h : Sound config w) {r : Option Run}
    (hr : ∀ run, r = some run → RunSound config w.history i run) : Sound config (w.put i r) := by
  refine ⟨h.current, fun j run hj => ?_, h.made, h.bindAddr, h.reapInterval, h.shutdownTimeout⟩
  change (if j = i then r else w.runs j) = some run at hj
  split at hj
  · next hji =>
    rw [hji]
    exact hr run hj
  · exact h.runs j run hj

theorem Sound.equip (h : Sound config w) (hr : w.runs i = some run) (hs : run.stage = .asked) :
    Sound config (w.equip i run) := by
  have hd : run.demands = [] := by
    have hstands := (h.runs i run hr).stands
    unfold Run.Stands at hstands
    rwa [hs] at hstands
  have hgot : Enforcement.Step Config.decode? w.rules
      (w.rules.note (.got i w.server.store.config)) := .get i
  refine (h.withRules hgot).put fun _ hrun => ?_
  obtain rfl := Option.some.inj hrun
  refine ⟨⟨congrArg (·.toolchain) h.current, hd⟩, fun _ => ⟨[], ?_⟩⟩
  change w.history ++ [.got i w.server.store.config] = _
  rw [h.current]

theorem RunSound.of_goes {history : List StoreEvent} (h : RunSound config history i run)
    {x : Server × Run} (hx : run.Goes s x) : RunSound config history i x.2 := by
  have hbefore := (Run.same_of_goes hx).before
  refine ⟨?_, fun _ => ?_⟩
  · rw [hbefore]
    exact h.stands.of_goes hx
  · rw [hbefore]
    exact h.looked (Run.ne_asked_of_goes hx)

theorem Sound.of_step (h : Sound config w) (hst : Step decode w v) : Sound config v := by
  cases hst with
  | settings r hr => exact h.withRules hr
  | ask i mode request args stdin free =>
    refine h.put fun _ hrun => ?_
    obtain rfl := Option.some.inj hrun
    exact ⟨rfl, fun hs => absurd rfl hs⟩
  | equip i run hr hs => exact h.equip hr hs
  | goOn i run x hr hx =>
    refine (h.withServer (Run.steady_of_goes hx)).put fun _ hrun => ?_
    obtain rfl := Option.some.inj hrun
    exact (h.runs i _ hr).of_goes hx
  | leave i => exact h.put fun _ hrun => by cases hrun
  | create mode l => exact h.withServer (Server.steady_create _ mode l)
  | call id e host session he hc =>
    have he' : Server.entry? { w.server with host } id = .ok e := he
    exact h.withServer ((Server.steady_withHost w.server host).trans
      (Server.steady_putSession he' hc.alike))
  | kill id => exact h.withServer (Server.steady_kill _ id)
  | serve id => exact h.withServer (Server.steady_serveOne _ id)
  | serveKept id => exact h.withServer (Server.steady_serveKept _ id)
  | reap => exact h.withServer (Server.steady_reap _ h.made)
  | aside s hs => exact h.withServer hs.steady

theorem sound_opening (host : Host) (home : Path) (store : ConfigStore) :
    Sound store.config (opening host home store) where
  current := rfl
  runs _ _ h := by cases h
  made := ⟨Registry.madeBy_empty _, Registry.madeBy_empty _⟩
  bindAddr := rfl
  reapInterval := rfl
  shutdownTimeout := rfl

theorem Sound.of_reaches (h : Sound config w) (hr : Reaches decode w v) : Sound config v := by
  induction hr with
  | refl => exact h
  | tail _ hst ih => exact ih.of_step hst

/-! ## Which settings are gone by -/

/-- The compiler of a request is given up when its time is up, and never before. -/
structure Patient (c : Compilation) (seconds since : Nat) : Prop where
  waits : ∀ h, c.result? h = none → h.now < since + seconds * 1000000
  givesUp : ∀ h h' e, c.result? h = some (.error e, h') →
    (∃ text, e = .compileFailed text) ∨ e = .timedOut seconds ∧ since + seconds * 1000000 ≤ h.now

/-- A request goes by settings on tools for all that it asks for. -/
structure GoesBy (tools : ToolchainConfig) (run : Run) : Prop where
  demands : ∃ directory place since, run.demands <+: run.plan tools directory place since
  /-- A session was started for it: it has asked for all that it needs. -/
  started : (∃ id, run.stage = .created id ∨ run.stage = .answered (.ok id)) →
    ∃ directory place since, run.demands = run.plan tools directory place since
  patient : ∀ tools' c, run.stage = .compiling tools' c →
    ∃ l since, .compiler l tools.buildTimeoutSeconds since ∈ run.demands ∧
      Patient c tools.buildTimeoutSeconds since
  told : ∀ r, run.stage = .answered r → run.Telling tools r

structure Governed (settings : SessionSettings) (r : Registry) : Prop where
  /-- The limit counts for every session that is to be started. -/
  limit : ∀ host home mode l n, (r.create host home mode l).2.2 = .error (.resourceExhausted n) ↔
    n = settings.maxSessions ∧ settings.maxSessions ≤ r.active
  /-- The grace period counts for every session that has finished. -/
  grace : ∀ now p, p ∈ (r.reap now).2 ↔ p ∈ r.entries ∧
    ∃ at_, p.2.session.finishedAt = some at_ ∧ settings.gracePeriod ≤ now - at_
  /-- Every session has the chunks and the prompt, and its pump waits for input and lingers as long. -/
  made : ∀ p ∈ r.entries, p.2.Made settings
  /-- Every pump goes on by the settings. -/
  pumps : ∀ id e, r.find? id = some e → ∀ host, (r.serve host id).2.1.find? id = some
    (let (host, child, _) := e.session.child.serve host
     let (_, session, pump, _) :=
       Pump.run settings Registry.pumpSlice host { e.session with child } e.pump false
     { session, pump })

/-- What a workshop goes by if `config` was in force at the start. -/
structure Supplied (config : Config) (w : Workshop) : Prop where
  /-- A request that has asked for anything has looked at the settings, and got those in force. -/
  looked : ∀ i run, w.runs i = some run → run.demands ≠ [] →
    ∃ after, w.history = run.before ++ .got i (inForce config run.before) :: after
  /-- A request goes by those and no others, whatever has happened since. -/
  runs : ∀ i run, w.runs i = some run → GoesBy (inForce config run.before).toolchain run
  /-- What is put in force is what the next request gets. -/
  current : w.server.store.config = inForce config w.history
  /-- Sessions go by the settings of the start, also those that are reaped and held. -/
  registry : Governed (.ofConfig config.sessions) w.server.registry
  kept : Governed (.ofConfig config.sessions) w.server.kept
  bindAddr : w.server.bindAddr = config.server.bindAddr
  reapInterval : w.server.reapInterval = SessionSettings.milliseconds config.sessions.reapIntervalMs
  shutdownTimeout :
    w.server.shutdownTimeout = SessionSettings.seconds config.server.shutdownTimeoutSeconds

theorem governed_of_madeBy {settings : SessionSettings} {r : Registry} (h : r.MadeBy settings) :
    Governed settings r := by
  obtain ⟨rfl, hmade⟩ := h
  exact ⟨fun _ _ _ _ _ => Registry.create_exhausted_iff, fun _ _ => Registry.mem_reap_iff, hmade,
    fun _ _ he host => Registry.find_serve he host⟩

theorem patient_of_timely {tools : ToolchainConfig} {since : Nat} {c : Compilation}
    (h : Run.Timely tools since c) : Patient c tools.buildTimeoutSeconds since := by
  rw [← h.seconds]
  have hdeadline : since + c.seconds * 1000000 = c.deadline := by rw [h.deadline, h.seconds]
  constructor
  · intro host hr
    rw [hdeadline]
    exact (Compilation.result_of_deadline c host).1 hr
  · intro host host' e hr
    rw [hdeadline]
    exact (Compilation.result_of_deadline c host).2 e host' hr

/-- All that a request has asked for is the beginning of one plan. -/
theorem exists_plan_of_stands {tools : ToolchainConfig} (h : run.Stands tools) :
    ∃ directory place since, run.demands <+: run.plan tools directory place since := by
  unfold Run.Stands at h
  split at h
  · exact ⟨"", [], 0, h ▸ List.nil_prefix⟩
  · exact ⟨"", [], 0, h.2 ▸ List.nil_prefix⟩
  · next directory place _ => exact ⟨directory, place, 0, h.2 0 ▸ List.take_prefix _ _⟩
  · obtain ⟨-, directory, place, since, hd, -⟩ := h
    exact ⟨directory, place, since, hd ▸ List.take_prefix _ _⟩
  · obtain ⟨-, directory, place, since, hd, -⟩ := h
    exact ⟨directory, place, since, hd ▸ List.take_prefix _ _⟩
  · obtain ⟨directory, place, since, hd⟩ := h
    exact ⟨directory, place, since, hd ▸ List.prefix_refl _⟩
  · obtain ⟨directory, place, since, hd, -⟩ := h
    exact ⟨directory, place, since, hd⟩

theorem goesBy_of_stands {tools : ToolchainConfig} (h : run.Stands tools) : GoesBy tools run := by
  refine ⟨exists_plan_of_stands h, ?started, fun tools' c hs => ?patient, fun r hs => ?told⟩
  all_goals unfold Run.Stands at h
  case started =>
    rintro ⟨id, hs | hs⟩ <;> rw [hs] at h
    · exact h
    · obtain ⟨directory, place, since, -, hall, -⟩ := h
      exact ⟨directory, place, since, hall rfl⟩
  case patient =>
    rw [hs] at h
    obtain ⟨-, directory, place, since, hd, -, hc⟩ := h
    refine ⟨run.command tools directory, since, ?_, patient_of_timely hc⟩
    rw [hd]
    exact List.mem_cons_of_mem _ (List.mem_singleton_self _)
  case told =>
    rw [hs] at h
    obtain ⟨directory, place, since, -, -, htold⟩ := h
    exact htold

/-- Requests and sessions go by the settings that are meant for them, whenever settings are put in force,
and whatever they are. -/
theorem supplied_of_reaches {host : Host} {home : Path} {store : ConfigStore}
    (hr : Reaches decode (opening host home store) w) : Supplied store.config w := by
  have h := (sound_opening host home store).of_reaches hr
  refine {
    looked := fun i run hrun hd => (h.runs i run hrun).looked fun hs => hd ?_
    runs := fun i run hrun => goesBy_of_stands (h.runs i run hrun).stands
    current := h.current
    registry := governed_of_madeBy h.made.registry
    kept := governed_of_madeBy h.made.kept
    bindAddr := h.bindAddr
    reapInterval := h.reapInterval
    shutdownTimeout := h.shutdownTimeout }
  have hstands := (h.runs i run hrun).stands
  unfold Run.Stands at hstands
  rwa [hs] at hstands

/-! ### A request, and settings that are put in force meanwhile -/

def bench : Host where files := { nodes := [(["cc"], .program "cc")] }

/-- A host with a compiler and with a directory for a request. -/
def housed : Host where
  files := { nodes := [(["cc"], .program "cc"), (["runbox-mBMGup"], .directory)] }
  next := 101

/-- A host on which the process of a compilation has ended well. -/
def compiled (c : Compilation) : Host where
  files := { nodes := [] }
  processes := [{ number := c.process, status := some (.exited 0), activity := .tool (.start "cc" []) }]

def plain : Config where
  sessions := { maxSessions := 1 }
  toolchain :=
    { gcc := "/cc", gdb := "/gdb", gdbArgs := ["-q"], workDir := some "", buildTimeoutSeconds := 5 }

/-- Settings that are others in every section. -/
def renewed : Config where
  server := { bindAddr := "[::1]:9000" }
  sessions := { maxSessions := 7, gracePeriodSeconds := 1, promptMarker := "> " }
  toolchain :=
    { gcc := "/tcc", gdb := "/lldb", gdbArgs := [], workDir := some "/w", buildTimeoutSeconds := 9 }

/-- A request to run a program under a debugger. -/
def debugged : Run where
  mode := .debugger
  request := { language := .c, compiler := .gcc, source := "" }
  args := "a b"
  stdin := ""

theorem make_bench : Scratch.make? bench [] plain.toolchain.workDir =
    .ok (housed, "/runbox-mBMGup", ["runbox-mBMGup"]) := by
  have hnone : Path.components "" = [] := by cbv
  have hplace : plain.toolchain.workDir = some "" := rfl
  simp only [Scratch.make?, hplace, hnone]
  rfl

def compiler : Launch := debugged.command plain.toolchain "/runbox-mBMGup"

def written : Host.Files where
  nodes := housed.files.nodes ++ [(["runbox-mBMGup", "main.c"], .file [] false)]

theorem activity_written : compiler.activity { housed with files := written } ["runbox-mBMGup"]
    (compiler.environment []) false = .ok (.tool (.start "cc" (compiler.args.map Octets.ofText))) := by
  have hprogram : compiler.program = "/cc" := rfl
  have hcomponents : Path.components "/cc" = ["cc"] := by cbv
  have hslash : (Octets.ofText "/cc").toList.contains '/' = true := rfl
  have hname : (Octets.ofText "/cc" = "") = False := by decide
  have htext : Octets.toText (Octets.ofText "/cc") = "/cc" := rfl
  simp only [Launch.activity, Host.locate, Host.load, Host.Files.find?, Host.Files.resolve?, hprogram,
    hslash, htext, hname, if_true, if_false, bind, Except.bind, pure, Except.pure, hcomponents]
  rfl

theorem result_compiled (c : Compilation) : ∃ h, (c.serve (compiled c)).2.result? (c.serve (compiled c)).1 =
    some (.ok c.build, h) := by
  simp [Compilation.serve, Compilation.drain, Compilation.result?, Compilation.isSilent, compiled,
    Host.process?, Host.pipe?, Host.lookUp, Host.isHeld, Host.Process.isAlive]

/-- A request to debug a program looks at the settings, and has made its directory when all of them are
replaced. It has its program compiled and started by those that it saw, and the next request sees the others.
For sessions nothing changes. -/
theorem supplied_of_late_settings : ∃ (decode : String → Option Config) (w : Workshop) (run next : Run),
    Reaches decode (opening bench [] { config := plain, path := "config.toml" }) w ∧ Supplied plain w ∧
    w.history = [.got 0 plain, .renewed 5 (.content []) renewed, .got 1 renewed] ∧
    w.runs 0 = some run ∧
    run.demands = debugged.plan plain.toolchain "/runbox-mBMGup" ["runbox-mBMGup"] 0 ∧
    w.runs 1 = some next ∧ next.stage = .equipped renewed.toolchain := by
  let decode (text : String) : Option Config := if text = "" then some renewed else none
  have hloaded : Config.loaded decode "config.toml" (.content []) = .ok renewed := by decide
  have r : Reaches decode (opening bench [] { config := plain, path := "config.toml" }) _ := .refl
  have r := r.tail (.ask 0 debugged.mode debugged.request debugged.args debugged.stdin rfl)
  have r := r.tail (.equip 0 debugged rfl rfl)
  have hgoes := Run.Goes.house (s := .start bench [] ⟨plain, "config.toml"⟩) plain.toolchain
    (r := { debugged with stage := .equipped plain.toolchain }) rfl
  rw [Run.house_eq make_bench] at hgoes
  have r := r.tail (.goOn 0 _ _ rfl hgoes)
  have r := r.tail (.settings _ (.load 5 (.content []) renewed rfl hloaded))
  have r := r.tail (.settings _ (.renew 5 _ _ rfl))
  have r := r.tail (.ask 1 debugged.mode debugged.request debugged.args debugged.stdin rfl)
  have r := r.tail (.equip 1 debugged rfl rfl)
  have hstarts : ∃ c host, Compilation.startIn? housed compiler 5 debugged.request "/runbox-mBMGup"
      ["runbox-mBMGup"] = (.ok c, host) := Compilation.exists_startIn rfl rfl activity_written
  obtain ⟨c, host, hc⟩ := hstarts
  -- the server by then, and the request in its last stages
  let server (host : Host) : Server := { Server.start host [] ⟨plain, "config.toml"⟩ with
    store := { config := renewed, path := "config.toml" } }
  let run (stage : RunStage) (demands : List Demand) : Run := { debugged with stage, demands }
  let asked : List Demand := [.directory plain.toolchain.workDir, .compiler compiler 5 0]
  have hgoes := Run.Goes.compile (s := server housed)
    (r := run (.housed plain.toolchain "/runbox-mBMGup" ["runbox-mBMGup"]) (asked.take 1))
    plain.toolchain "/runbox-mBMGup" ["runbox-mBMGup"] rfl
  rw [Run.compile_eq hc] at hgoes
  have r := r.tail (.goOn 0 _ _ rfl hgoes)
  have r := r.tail (.aside (server (compiled c)) ⟨rfl, rfl, rfl, rfl, rfl, rfl⟩)
  obtain ⟨host', hresult⟩ := result_compiled c
  have hgoes := Run.Goes.collect (s := server (compiled c)) (r := run (.compiling plain.toolchain c) asked)
    plain.toolchain c rfl
  rw [Run.collect_eq hresult] at hgoes
  have r := r.tail (.goOn 0 _ _ rfl hgoes)
  have r := r.tail (.goOn 0 _ _ rfl (.launch (s := server host')
    (r := run (.built plain.toolchain c.build) asked) plain.toolchain c.build rfl))
  refine ⟨decode, _, _, _, r, supplied_of_reaches r, rfl, rfl, ?_, rfl, rfl⟩
  rw [Run.demands_launch, (Compilation.startIn_eq_ok hc).1]
  rfl

end Workshop

end SessionHost
