import SessionHost.Proofs.Workshop.Supplied

/-!
# What a server does, as ways through a workshop

The functions of a server are several steps of a workshop at a time.

* `Workshop.reload_alone`: to load the settings again.
* `Workshop.beginRun_alone`: to look at a request, to make its directory and to start the compiler.
* `Workshop.advance_alone`: to collect what a compiler says, and to start what was built.
* `Workshop.serveSessions_alone`: to let all sessions go on.
-/
namespace SessionHost.Workshop

variable {decode : String → Option Config} {w : Workshop} {i : Nat} {run : Run}

theorem reaches_of_rules {r : Enforcement} (hr : Enforcement.Reaches decode w.rules r) :
    Reaches decode w (w.withRules r) := by
  induction hr with
  | refl => exact .refl
  | tail _ hst ih => exact ih.tail (.settings _ hst)

theorem reload_alone {i : Nat} (free : w.underWay i = none) :
    ∃ v, Reaches Config.decode? w v ∧ v.server = w.server.reload.1 ∧ v.runs = w.runs :=
  ⟨_, reaches_of_rules (Enforcement.reload_alone (s := w.rules) w.server.host.files w.server.home free),
    rfl, rfl⟩

structure Carries (run : Run) (job : RunJob) : Prop where
  mode : run.mode = job.mode
  args : run.args = job.args
  stdin : run.stdin = job.stdin
  stage : run.stage = .compiling job.tools job.compilation

theorem Step.of_goes {x : Server × Run} (hx : run.Goes w.server x) (h : w.runs i = some run) :
    ∃ v, Step decode w v ∧ v.server = x.1 ∧ v.runs i = some x.2 :=
  ⟨_, .goOn i run x h hx, rfl, if_pos rfl⟩

/-- A request that has looked at the settings makes its directory and starts the compiler. -/
theorem start_alone {tools : ToolchainConfig} (h : w.runs i = some run)
    (hs : run.stage = .equipped tools) : ∃ v next, Reaches decode w v ∧ v.runs i = some next ∧
      run.Same next ∧
      v.server = { w.server with host := (Compilation.start? w.server.host w.server.home tools run.request
        (run.mode = .debugger)).2 } ∧
      next.stage = match (Compilation.start? w.server.host w.server.home tools run.request
        (run.mode = .debugger)).1 with
      | .error e => .answered (.error (.build e))
      | .ok c => .compiling tools c := by
  obtain ⟨v, hst, hserver, hrun⟩ := Step.of_goes (.house tools hs) h
  rw [Compilation.start_eq]
  cases hm : Scratch.make? w.server.host w.server.home tools.workDir with
  | error e =>
    have hx : run.house w.server tools = (w.server, (run.demand (.directory tools.workDir)).at_
        (.answered (.error (.build (.directory e.message))))) := by
      simp only [Run.house, hm]
    rw [hx] at hserver hrun
    exact ⟨v, _, .single hst, hrun, ⟨rfl, rfl, rfl, rfl, rfl⟩, hserver, rfl⟩
  | ok made =>
    obtain ⟨host, directory, place⟩ := made
    rw [Run.house_eq hm] at hserver hrun
    obtain ⟨u, hst', hserver', hrun'⟩ := Step.of_goes (.compile tools directory place rfl) hrun
    have r : Reaches decode w u := (Relation.ReflTransGen.single hst).tail hst'
    rw [hserver] at hserver' hrun'
    unfold Run.compile at hserver' hrun'
    dsimp only [Run.demand, Run.at_, Run.command] at hserver' hrun' ⊢
    cases hc : Compilation.startIn? host (Compilation.command tools run.request (run.mode = .debugger)
        directory) tools.buildTimeoutSeconds run.request directory place with
    | mk out host' =>
      rw [hc] at hserver' hrun'
      cases out with
      | error e => exact ⟨u, _, r, hrun', ⟨rfl, rfl, rfl, rfl, rfl⟩, hserver', rfl⟩
      | ok c => exact ⟨u, _, r, hrun', ⟨rfl, rfl, rfl, rfl, rfl⟩, hserver', rfl⟩

/-- To look at a request to run a program, and to start the compiler. -/
theorem beginRun_alone (free : w.runs i = none) (mode : String) (r : Request) :
    ∃ v, Reaches decode w v ∧ v.server = (w.server.beginRun mode r).1 ∧
      match (w.server.beginRun mode r).2 with
      | .error e => v = w ∨ ∃ run, v.runs i = some run ∧ run.stage = .answered (.error e)
      | .ok job => ∃ run, v.runs i = some run ∧ Carries run job := by
  unfold Server.beginRun
  dsimp only
  split
  · exact ⟨w, .refl, rfl, .inl rfl⟩
  · next mode' build body _ =>
    let asked : Run := { mode := mode', request := build, args := body.args, stdin := body.stdin }
    have r : Reaches decode w (w.put i (some asked)) := .single (.ask i mode' build body.args body.stdin free)
    have r := r.tail (.equip i asked (if_pos rfl) rfl)
    obtain ⟨v, next, r', hrun, hsame, hserver, hstage⟩ :=
      start_alone (w := (w.put i (some asked)).equip i asked) (if_pos rfl) rfl
    refine ⟨v, r.trans r', ?_, ?_⟩
    · rw [hserver]
      dsimp only [equip, put, withRules, rules, Enforcement.note, asked]
      cases Compilation.start? w.server.host w.server.home w.server.store.config.toolchain build
        (mode' = .debugger) with
      | mk out host => cases out <;> rfl
    · dsimp only [equip, put, withRules, rules, Enforcement.note, asked] at hstage
      cases hc : Compilation.start? w.server.host w.server.home w.server.store.config.toolchain build
        (mode' = .debugger) with
      | mk out host =>
        rw [hc] at hstage
        cases out with
        | error e => exact .inr ⟨next, hrun, hstage⟩
        | ok c => exact ⟨next, hrun, hsame.mode, hsame.args, hsame.stdin, hstage⟩

/-- To start what was built for a request, and to give it its first input. -/
theorem launch_alone {job : RunJob} {b : Build} (h : w.runs i = some run) (hm : run.mode = job.mode)
    (ha : run.args = job.args) (hi : run.stdin = job.stdin) (hs : run.stage = .built job.tools b) :
    ∃ v, Reaches decode w v ∧ v.server = (w.server.launch job b).1 ∧
      ∃ next r, v.runs i = some next ∧ next.stage = .answered r ∧
        (w.server.launch job b).2 = r.map Server.pidResponse := by
  obtain ⟨v, hst, hserver, hrun⟩ := Step.of_goes (.launch job.tools b hs) h
  unfold Run.launch at hserver hrun
  unfold Server.launch
  dsimp only [Run.demand, Run.at_] at hserver hrun ⊢
  rw [hm, ha] at hserver hrun
  cases hc : w.server.create job.mode (Toolchain.launch job.tools b job.mode job.args) with
  | mk s out =>
    rw [hc] at hserver hrun
    cases out with
    | error e => exact ⟨v, .single hst, hserver, _, _, hrun, rfl, rfl⟩
    | ok id =>
      dsimp only at hserver hrun ⊢
      obtain ⟨u, hst', hserver', hrun'⟩ := Step.of_goes (.deliver id rfl) hrun
      have r : Reaches decode w u := (Relation.ReflTransGen.single hst).tail hst'
      unfold Run.deliver at hserver' hrun'
      rw [hserver] at hserver' hrun'
      cases hf : s.find id with
      | error e =>
        rw [hf] at hserver' hrun'
        exact ⟨u, r, hserver', _, _, hrun', rfl, rfl⟩
      | ok entry =>
        rw [hf] at hserver' hrun'
        dsimp only at hserver' hrun'
        rw [hi] at hserver'
        exact ⟨u, r, hserver', _, _, hrun', rfl, rfl⟩

/-- To collect what a compiler says, and to start what was built when it is done. -/
theorem advance_alone {job : RunJob} (h : w.runs i = some run) (hj : Carries run job) :
    ∃ v, Reaches decode w v ∧ v.server = (w.server.advance job).1 ∧
      ∃ next, v.runs i = some next ∧
        match (w.server.advance job).2 with
        | .error job => Carries next job
        | .ok answer => ∃ r, next.stage = .answered r ∧ answer = r.map Server.pidResponse := by
  obtain ⟨v, hst, hserver, hrun⟩ := Step.of_goes (.collect _ _ hj.stage) h
  unfold Run.collect at hserver hrun
  unfold Server.advance
  dsimp only at hserver hrun ⊢
  cases hr : (job.compilation.serve w.server.host).2.result? (job.compilation.serve w.server.host).1 with
  | none =>
    rw [hr] at hserver hrun
    exact ⟨v, .single hst, hserver, _, hrun, hj.mode, hj.args, hj.stdin, rfl⟩
  | some out =>
    obtain ⟨out, host⟩ := out
    rw [hr] at hserver hrun
    cases out with
    | error e => exact ⟨v, .single hst, hserver, _, hrun, _, rfl, rfl⟩
    | ok b =>
      dsimp only at hserver hrun ⊢
      obtain ⟨u, hr', hserver', next, r, hrun', hstage, hanswer⟩ :=
        launch_alone hrun hj.mode hj.args hj.stdin rfl
      rw [hserver] at hserver' hanswer
      exact ⟨u, hr'.head hst, hserver', next, hrun', r, hstage, hanswer⟩

/-- The sessions that can be found go on, one after the other. -/
theorem serveAll_alone (ids : List Nat) (did : Bool) : Reaches decode w (w.withServer { w.server with
    host := (Registry.serveAll ids w.server.host w.server.registry did).1
    registry := (Registry.serveAll ids w.server.host w.server.registry did).2.1 }) := by
  induction ids generalizing w did with
  | nil => exact .refl
  | cons id rest ih => exact (ih _).head (.serve id)

/-- Those go on that were reaped while somebody held them. -/
theorem serveAllKept_alone (ids : List Nat) (did : Bool) : Reaches decode w (w.withServer { w.server with
    host := (Registry.serveAll ids w.server.host w.server.kept did).1
    kept := (Registry.serveAll ids w.server.host w.server.kept did).2.1 }) := by
  induction ids generalizing w did with
  | nil => exact .refl
  | cons id rest ih => exact (ih _).head (.serveKept id)

theorem serveSessions_alone : Reaches decode w (w.withServer w.server.serveSessions.1) :=
  (serveAll_alone _ false).trans (serveAllKept_alone _ false)

end SessionHost.Workshop
