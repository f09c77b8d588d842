import SessionHost.Proofs.Service.Alone
import SessionHost.Proofs.Workshop.Step

/-!
# What a request asks for, stage by stage

A request that has looked at the settings asks for a directory, for a compiler and for a program, in this
order, and each time it asks by the settings that it saw.

**Results.**
* `Run.plan`: what a request asks for that goes by some settings.
* `Run.Stands.of_goes`: a request that stands where it comes to by these settings does so after any stage.
* `Compilation.result_of_deadline`: a compiler is given up when its time is up, and never before.
-/
namespace SessionHost

open Host (Path)

/-! ## A compiler -/

namespace Compilation

variable {h h' : Host} {l : Launch} {seconds : Nat} {r : BuildRequest} {directory : String} {place : Path}
  {c : Compilation} {e : BuildError}

theorem startIn_eq_ok (hs : startIn? h l seconds r directory place = (.ok c, h')) :
    c.build = product directory place ∧ c.seconds = seconds ∧
      c.deadline = h.now + seconds * 1000000 := by
  unfold startIn? at hs
  dsimp only at hs
  split at hs
  · cases hs
  · split at hs <;> cases hs
    exact ⟨rfl, rfl, rfl⟩

/-- A compiler starts if its source can be written and if its program is found. -/
theorem exists_startIn {files : Host.Files} {a : Host.Activity}
    (hw : h.files.write? (place ++ [r.language.sourceName]) (Bytes.ofString r.source) = .ok files)
    (ht : l.checkTexts = .ok ())
    (ha : l.activity { h with files } place (l.environment []) false = .ok a) :
    ∃ c h', startIn? h l seconds r directory place = (.ok c, h') := by
  cases hs : startIn? h l seconds r directory place with
  | mk out h' =>
    cases out with
    | ok c => exact ⟨c, h', rfl⟩
    | error e =>
      simp only [startIn?, hw, ht, bind, Except.bind, ha] at hs
      cases hs

/-- A compiler that cannot be started is the one that was asked for. -/
theorem startIn_eq_error (hs : startIn? h l seconds r directory place = (.error e, h')) :
    (∃ reason, e = .directory reason) ∨ ∃ reason, e = .compilerUnavailable l.program reason := by
  unfold startIn? at hs
  dsimp only at hs
  split at hs
  · cases hs
    exact .inl ⟨_, rfl⟩
  · split at hs <;> cases hs
    exact .inr ⟨_, rfl⟩

/-- A compiler is given up for its time alone, and as soon as it is up. -/
theorem result_of_deadline (c : Compilation) (h : Host) :
    (c.result? h = none → h.now < c.deadline) ∧
      ∀ e h', c.result? h = some (.error e, h') →
        (∃ text, e = .compileFailed text) ∨ e = .timedOut c.seconds ∧ c.deadline ≤ h.now := by
  unfold result?
  constructor
  · intro hr
    split at hr
    · split at hr <;> cases hr
    · split at hr
      · cases hr
      · next hlate => exact Nat.not_le.1 hlate
  · intro e h' hr
    split at hr
    · dsimp only at hr
      split at hr <;> cases hr
      exact .inl ⟨_, rfl⟩
    · split at hr
      · next hlate =>
        cases hr
        exact .inr ⟨rfl, hlate⟩
      · cases hr

end Compilation

theorem Server.find_eq_error {s : Server} {id : Nat} {e : ApiError} (h : s.find id = .error e) :
    e = .session (.notFound id) := by
  unfold find Registry.get? at h
  split at h <;> cases h
  rfl

/-! ## What a request asks for -/

namespace Run

/-- What a request asks for that goes by these settings, in this order: a directory where they say, the
compiler that they name for as long as they allow, and what was built there or the debugger that they name
with it. -/
def plan (run : Run) (tools : ToolchainConfig) (directory : String) (place : Path) (since : Nat) :
    List Demand :=
  [.directory tools.workDir,
    .compiler (run.command tools directory) tools.buildTimeoutSeconds since,
    .program (Toolchain.launch tools (Compilation.product directory place) run.mode run.args)]

structure Timely (tools : ToolchainConfig) (since : Nat) (c : Compilation) : Prop where
  seconds : c.seconds = tools.buildTimeoutSeconds
  deadline : c.deadline = since + tools.buildTimeoutSeconds * 1000000

/-- What an answer tells of the settings is as they say. -/
structure Telling (run : Run) (tools : ToolchainConfig) (r : Except ApiError Nat) : Prop where
  timedOut : ∀ n, r = .error (.build (.timedOut n)) → n = tools.buildTimeoutSeconds
  unavailable : ∀ p reason, r = .error (.build (.compilerUnavailable p reason)) →
    p = Toolchain.compilerPath tools run.request.language run.request.compiler

/-- A request that has looked at the settings goes by these. -/
def Stands (tools : ToolchainConfig) (run : Run) : Prop :=
  match run.stage with
  | .asked => run.demands = []
  | .equipped t => t = tools ∧ run.demands = []
  | .housed t directory place => t = tools ∧
    ∀ since, run.demands = (run.plan tools directory place since).take 1
  | .compiling t c => t = tools ∧ ∃ directory place since,
    run.demands = (run.plan tools directory place since).take 2 ∧
      c.build = Compilation.product directory place ∧ Timely tools since c
  | .built t b => t = tools ∧ ∃ directory place since,
    run.demands = (run.plan tools directory place since).take 2 ∧ b = Compilation.product directory place
  | .created _ => ∃ directory place since, run.demands = run.plan tools directory place since
  | .answered r => ∃ directory place since, run.demands <+: run.plan tools directory place since ∧
    (r.toOption.isSome → run.demands = run.plan tools directory place since) ∧ run.Telling tools r

structure Same (run next : Run) : Prop where
  mode : next.mode = run.mode
  request : next.request = run.request
  args : next.args = run.args
  stdin : next.stdin = run.stdin
  before : next.before = run.before

variable {run : Run} {s : Server} {tools : ToolchainConfig} {x : Server × Run}

theorem stands_house (h : run.demands = []) : (run.house s tools).2.Stands tools := by
  unfold house
  dsimp only
  split
  · refine ⟨"", [], 0, ?_, nofun, nofun, nofun⟩
    simp [at_, demand, h, plan]
  · refine ⟨rfl, fun since => ?_⟩
    simp [at_, demand, h, plan]

theorem stands_compile {directory : String} {place : Path}
    (h : ∀ since, run.demands = (run.plan tools directory place since).take 1) :
    (run.compile s tools directory place).2.Stands tools := by
  have hd := h s.host.now
  unfold compile
  dsimp only
  split
  · next e host hs =>
    refine ⟨directory, place, s.host.now, ?_, nofun, fun n hn => ?_, fun p reason hp => ?_⟩
    · rw [at_, demand, hd]
      exact ⟨_, rfl⟩
    · rcases Compilation.startIn_eq_error hs with ⟨x, rfl⟩ | ⟨x, rfl⟩ <;> cases hn
    · rcases Compilation.startIn_eq_error hs with ⟨x, rfl⟩ | ⟨x, rfl⟩ <;> cases hp
      rfl
  · next c host hs =>
    obtain ⟨hbuild, hseconds, hdeadline⟩ := Compilation.startIn_eq_ok hs
    refine ⟨rfl, directory, place, s.host.now, ?_, hbuild, hseconds, hdeadline⟩
    rw [at_, demand, hd]
    rfl

theorem stands_collect {c : Compilation} {directory : String} {place : Path} {since : Nat}
    (hd : run.demands = (run.plan tools directory place since).take 2)
    (hb : c.build = Compilation.product directory place) (hc : Timely tools since c) :
    (run.collect s tools c).2.Stands tools := by
  unfold collect
  dsimp only
  split
  · exact ⟨rfl, directory, place, since, hd, hb, hc.seconds, hc.deadline⟩
  · next e host hr =>
    have hend := (Compilation.result_of_deadline _ _).2 e host hr
    refine ⟨directory, place, since, ?_, nofun, fun n hn => ?_, fun p reason hp => ?_⟩
    · rw [at_, hd]
      exact List.take_prefix 2 _
    · rcases hend with ⟨x, rfl⟩ | ⟨rfl, -⟩ <;> cases hn
      exact hc.seconds
    · rcases hend with ⟨x, rfl⟩ | ⟨rfl, -⟩ <;> cases hp
  · next b host hr =>
    refine ⟨rfl, directory, place, since, hd, ?_⟩
    rw [Compilation.build_of_result hr, Compilation.build_of_serve, hb]

theorem stands_launch {b : Build} {directory : String} {place : Path} {since : Nat}
    (hd : run.demands = (run.plan tools directory place since).take 2)
    (hb : b = Compilation.product directory place) : (run.launch s tools b).2.Stands tools := by
  have hall : run.demands ++ [.program (Toolchain.launch tools b run.mode run.args)] =
      run.plan tools directory place since := by rw [hd, hb]; rfl
  unfold launch
  dsimp only
  split
  · exact ⟨directory, place, since, hall ▸ List.prefix_refl _, nofun, nofun, nofun⟩
  · exact ⟨directory, place, since, hall⟩

theorem stands_deliver {id : Nat} {directory : String} {place : Path} {since : Nat}
    (hd : run.demands = run.plan tools directory place since) : (run.deliver s id).2.Stands tools := by
  unfold deliver
  split
  · next e he =>
    cases Server.find_eq_error he
    exact ⟨directory, place, since, hd ▸ List.prefix_refl _, nofun, nofun, nofun⟩
  · exact ⟨directory, place, since, hd ▸ List.prefix_refl _, fun _ => hd, nofun, nofun⟩

/-- A request goes by the same settings in all its stages. -/
theorem Stands.of_goes (h : run.Stands tools) (hx : run.Goes s x) : x.2.Stands tools := by
  unfold Stands at h
  cases hx with
  | house tools' hs =>
    rw [hs] at h
    obtain ⟨rfl, hd⟩ := h
    exact stands_house hd
  | compile tools' directory place hs =>
    rw [hs] at h
    obtain ⟨rfl, hd⟩ := h
    exact stands_compile hd
  | collect tools' c hs =>
    rw [hs] at h
    obtain ⟨rfl, directory, place, since, hd, hb, hc⟩ := h
    exact stands_collect hd hb hc
  | launch tools' b hs =>
    rw [hs] at h
    obtain ⟨rfl, directory, place, since, hd, hb⟩ := h
    exact stands_launch hd hb
  | deliver id hs =>
    rw [hs] at h
    obtain ⟨directory, place, since, hd⟩ := h
    exact stands_deliver hd

theorem same_of_goes (hx : run.Goes s x) : run.Same x.2 := by
  cases hx with
  | house =>
    unfold house
    dsimp only
    split <;> exact ⟨rfl, rfl, rfl, rfl, rfl⟩
  | compile =>
    unfold compile
    dsimp only
    split <;> exact ⟨rfl, rfl, rfl, rfl, rfl⟩
  | collect =>
    unfold collect
    dsimp only
    split <;> exact ⟨rfl, rfl, rfl, rfl, rfl⟩
  | launch =>
    unfold launch
    dsimp only
    split <;> exact ⟨rfl, rfl, rfl, rfl, rfl⟩
  | deliver =>
    unfold deliver
    split <;> exact ⟨rfl, rfl, rfl, rfl, rfl⟩

theorem ne_asked_of_goes (hx : run.Goes s x) : run.stage ≠ .asked := by
  intro ha
  cases hx with
  | house _ h | compile _ _ _ h | collect _ _ h | launch _ _ h | deliver _ h =>
    rw [ha] at h
    cases h

/-! ## What comes of a stage -/

theorem house_eq {host : Host} {directory : String} {place : Path}
    (hm : Scratch.make? s.host s.home tools.workDir = .ok (host, directory, place)) :
    run.house s tools = ({ s with host },
      (run.demand (.directory tools.workDir)).at_ (.housed tools directory place)) := by
  simp only [house, hm]

theorem compile_eq {host : Host} {directory : String} {place : Path} {c : Compilation}
    (hc : Compilation.startIn? s.host (run.command tools directory) tools.buildTimeoutSeconds run.request
      directory place = (.ok c, host)) :
    run.compile s tools directory place = ({ s with host },
      (run.demand (.compiler (run.command tools directory) tools.buildTimeoutSeconds s.host.now)).at_
        (.compiling tools c)) := by
  simp only [compile, demand, hc]

theorem collect_eq {host : Host} {c : Compilation} {b : Build}
    (hr : (c.serve s.host).2.result? (c.serve s.host).1 = some (.ok b, host)) :
    run.collect s tools c = ({ s with host }, run.at_ (.built tools b)) := by
  simp only [collect, hr]

theorem demands_launch (b : Build) : (run.launch s tools b).2.demands =
    run.demands ++ [.program (Toolchain.launch tools b run.mode run.args)] := by
  unfold launch
  dsimp only
  split <;> rfl

end Run

end SessionHost
