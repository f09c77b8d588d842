import Mathlib.Data.List.Basic
import Mathlib.Logic.Relation
import SessionHost.Options
import SessionHost.Server.Life

/-!
# Settings in force over time

Settings come in force in two ways: a start loads them and puts the options of the command line in, and
a reload puts those that it loads in the place of what there was. What a file holds may differ from one
time to the next, and so may whether it can be read. How its text is read is left open here.

**The machine.** An `Enforcement` is a store with the reloads that are under way, which may be any number
as many hold the store, and with what its holders have got and done. A reload loads first and puts in force
then, and anything may happen in between.

**Results.**
* `Enforcement.enforced_of_reaches`: only settings without a fault come in force, and a reload that fails
  changes nothing.
* `Config.load_eq`, `startSettings_eq` and `Enforcement.reload_alone`: on a host the settings are loaded,
  put in force and loaded again as `Config.load`, `startSettings` and `ConfigStore.reload` do.
-/
namespace SessionHost

/-! ## Loading -/

/-- What a look at a file finds. -/
inductive FileState where
  | missing
  | unreadable (reason : String)
  | content (bytes : Bytes)
  deriving DecidableEq, Repr

namespace Config

variable {decode : String → Option Config} {path : String} {found : FileState} {c : Config}

/-- The settings that a look at the file `path` gives, if its text is read by `decode`.
mirrors config/loader:50-67 -/
def loaded (decode : String → Option Config) (path : String) : FileState → Except ConfigError Config
  | .missing => .ok {}
  | .unreadable reason => .error (.read path reason)
  | .content bytes =>
    match Utf8.decode? bytes with
    | none => .error (.read path IoError.notText.message)
    | some text =>
      match decode text with
      | none => .error (.parse path)
      | some c => c.validate

/-- What a look at a file finds on a host. -/
def reading (files : Host.Files) (home : Host.Path) (path : String) : FileState :=
  match files.find? home path with
  | .error _ => .missing
  | .ok _ =>
    match files.read? home path with
    | .error e => .unreadable e.message
    | .ok content => .content content

theorem load_eq (files : Host.Files) (home : Host.Path) (path : String) :
    load files home path = loaded decode? path (reading files home path) := by
  unfold load reading
  cases files.find? home path with
  | error e => rfl
  | ok node => cases files.read? home path <;> rfl

theorem validate_eq_ok_iff {d : Config} : c.validate = .ok d ↔ c = d ∧ c.Valid := by
  rw [← fault?_eq_none_iff]
  unfold validate
  cases c.fault? <;> simp

theorem Valid.validate (h : c.Valid) : c.validate = .ok c := validate_eq_ok_iff.2 ⟨rfl, h⟩

theorem valid_default : Valid {} := by
  refine ⟨?_, by decide, by decide, by decide⟩
  decide

theorem valid_of_loaded (h : loaded decode path found = .ok c) : c.Valid := by
  unfold loaded at h
  split at h
  · cases h
    exact valid_default
  · cases h
  · split at h
    · cases h
    · split at h
      · cases h
      · obtain ⟨rfl, hvalid⟩ := validate_eq_ok_iff.1 h
        exact hvalid

end Config

/-- The settings that a command line asks for, as in `startSettings`, if `read` is what files hold and
`decode` reads their text. -/
def startLoaded (decode : String → Option Config) (read : String → FileState) (default : String)
    (args : List String) : Except StartError (Config × String) := do
  let o ← (Options.parse args).mapError StartError.options
  let path := o.configPath default
  let loaded ← (Config.loaded decode path (read path)).mapError StartError.loading
  let config ← (o.apply loaded).validate.mapError StartError.overriding
  return (config, path)

theorem startSettings_eq (files : Host.Files) (home : Host.Path) (default : String)
    (args : List String) : startSettings files home default args =
      startLoaded Config.decode? (Config.reading files home) default args := by
  unfold startSettings startLoaded
  simp only [Config.load_eq]

structure Overridden (o : Options) (loaded config : Config) : Prop where
  bindAddr : config.server.bindAddr = o.bind.getD loaded.server.bindAddr
  maxSessions : config.sessions.maxSessions = o.maxSessions.getD loaded.sessions.maxSessions
  /-- Nothing else is. -/
  rest : { config with
    server := { config.server with bindAddr := loaded.server.bindAddr }
    sessions := { config.sessions with maxSessions := loaded.sessions.maxSessions } } = loaded

theorem Options.overridden_apply (o : Options) (loaded : Config) :
    Overridden o loaded (o.apply loaded) := ⟨rfl, rfl, rfl⟩

/-- A start that succeeds has loaded settings, and put the options in. -/
structure Started (decode : String → Option Config) (read : String → FileState) (default : String)
    (args : List String) (config : Config) (path : String) : Prop where
  loads : ∃ o loaded, Options.parse args = .ok o ∧ path = o.configPath default ∧
    Config.loaded decode path (read path) = .ok loaded ∧ Overridden o loaded config
  valid : config.validate = .ok config

theorem started_of_startLoaded {decode : String → Option Config} {read : String → FileState}
    {default path : String} {args : List String} {config : Config}
    (h : startLoaded decode read default args = .ok (config, path)) :
    Started decode read default args config path := by
  unfold startLoaded at h
  cases ho : Options.parse args with
  | error e =>
    rw [ho] at h
    cases h
  | ok o =>
    rw [ho] at h
    cases hl : Config.loaded decode (o.configPath default) (read (o.configPath default)) with
    | error e =>
      simp only [Except.mapError, bind, Except.bind, hl] at h
      cases h
    | ok loaded =>
      cases hv : (o.apply loaded).validate with
      | error e =>
        simp only [Except.mapError, bind, Except.bind, hl, hv] at h
        cases h
      | ok c =>
        simp only [Except.mapError, bind, Except.bind, hl, hv] at h
        cases h
        obtain ⟨rfl, hvalid⟩ := Config.validate_eq_ok_iff.1 hv
        exact ⟨⟨o, loaded, ho, rfl, hl, o.overridden_apply loaded⟩, hvalid.validate⟩

/-! ## The machine -/

inductive StoreEvent where
  | got (holder : Nat) (config : Config)
  /-- A reload has put in force what it had found in the file. -/
  | renewed (holder : Nat) (found : FileState) (config : Config)
  /-- A reload has failed. -/
  | kept (holder : Nat) (found : FileState) (error : ConfigError)
  deriving DecidableEq, Repr

structure Enforcement where
  store : ConfigStore
  /-- The reloads that have loaded settings and not put them in force yet, by their holders. -/
  underWay : Nat → Option (FileState × Config) := fun _ => none
  history : List StoreEvent := []

namespace Enforcement

def put (s : Enforcement) (i : Nat) (r : Option (FileState × Config)) : Enforcement :=
  { s with underWay := fun j => if j = i then r else s.underWay j }

def note (s : Enforcement) (e : StoreEvent) : Enforcement := { s with history := s.history ++ [e] }

/-- A holder gets the settings, or its reload goes on.
mirrors config/store:30-41 -/
inductive Step (decode : String → Option Config) : Enforcement → Enforcement → Prop where
  | get {s : Enforcement} (i : Nat) : Step decode s (s.note (.got i s.store.config))
  | load {s : Enforcement} (i : Nat) (found : FileState) (c : Config) (free : s.underWay i = none)
      (h : Config.loaded decode s.store.path found = .ok c) :
    Step decode s (s.put i (some (found, c)))
  | fail {s : Enforcement} (i : Nat) (found : FileState) (e : ConfigError) (free : s.underWay i = none)
      (h : Config.loaded decode s.store.path found = .error e) : Step decode s (s.note (.kept i found e))
  | renew {s : Enforcement} (i : Nat) (found : FileState) (c : Config)
      (h : s.underWay i = some (found, c)) :
    Step decode s (note { s.put i none with store := { s.store with config := c } } (.renewed i found c))

abbrev Reaches (decode : String → Option Config) : Enforcement → Enforcement → Prop :=
  Relation.ReflTransGen (Step decode)

/-- The settings that are in force after all this if `config` was at first. -/
def inForce (config : Config) (history : List StoreEvent) : Config :=
  history.foldl (fun c e => match e with
    | .renewed _ _ d => d
    | .got .. | .kept .. => c) config

/-! ## What is kept -/

def EventSound (decode : String → Option Config) (path : String) : StoreEvent → Prop
  | .got _ c => c.Valid
  | .renewed _ found c => Config.loaded decode path found = .ok c
  | .kept _ found e => Config.loaded decode path found = .error e

structure Sound (decode : String → Option Config) (config : Config) (path : String)
    (s : Enforcement) : Prop where
  place : s.store.path = path
  current : s.store.config = inForce config s.history
  valid : s.store.config.Valid
  underWay : ∀ i found c, s.underWay i = some (found, c) → Config.loaded decode path found = .ok c
  events : ∀ e ∈ s.history, EventSound decode path e
  /-- Whoever gets the settings gets those that are in force. -/
  got : ∀ before i c after, s.history = before ++ .got i c :: after → c = inForce config before

variable {decode : String → Option Config} {config : Config} {path : String} {s t : Enforcement}

theorem inForce_append (config : Config) (h h' : List StoreEvent) :
    inForce config (h ++ h') = inForce (inForce config h) h' := List.foldl_append

/-- Something happens that is no get, or a get of what is in force. -/
theorem got_note {history : List StoreEvent} {e : StoreEvent}
    (h : ∀ before i c after, history = before ++ .got i c :: after → c = inForce config before)
    (he : ∀ i c, e = .got i c → c = inForce config history) (before : List StoreEvent) (i : Nat)
    (c : Config) (after : List StoreEvent) (hs : history ++ [e] = before ++ .got i c :: after) :
    c = inForce config before := by
  rcases List.eq_nil_or_concat after with rfl | ⟨rest, last, rfl⟩
  · obtain ⟨rfl, hlast⟩ := List.append_inj' hs rfl
    exact he i c (List.singleton_inj.1 hlast)
  · rw [List.concat_eq_append, ← List.cons_append, ← List.append_assoc] at hs
    exact h before i c rest (List.append_inj' hs rfl).1

theorem events_note {history : List StoreEvent} {e : StoreEvent}
    (h : ∀ x ∈ history, EventSound decode path x) (he : EventSound decode path e) :
    ∀ x ∈ history ++ [e], EventSound decode path x := by
  intro x hx
  rcases List.mem_append.1 hx with hx | hx
  · exact h x hx
  · rw [List.mem_singleton.1 hx]
    exact he

theorem Sound.of_step (h : Sound decode config path s) (hst : Step decode s t) :
    Sound decode config path t := by
  cases hst with
  | get i =>
    refine ⟨h.place, ?_, h.valid, h.underWay, events_note h.events h.valid, got_note h.got ?_⟩
    · change s.store.config = inForce config (s.history ++ [_])
      rw [inForce_append, ← h.current]
      rfl
    · intro j c hc
      cases hc
      exact h.current
  | load i found c free hl =>
    refine ⟨h.place, h.current, h.valid, fun j found' c' hj => ?_, h.events, h.got⟩
    unfold put at hj
    dsimp only at hj
    split at hj
    · cases hj
      rw [← h.place]
      exact hl
    · exact h.underWay j found' c' hj
  | fail i found e free hl =>
    rw [h.place] at hl
    refine ⟨h.place, ?_, h.valid, h.underWay, events_note h.events hl, got_note h.got nofun⟩
    change s.store.config = inForce config (s.history ++ [_])
    rw [inForce_append, ← h.current]
    rfl
  | renew i found c hu =>
    have hl := h.underWay i found c hu
    refine ⟨h.place, ?_, Config.valid_of_loaded hl, fun j found' c' hj => ?_,
      events_note h.events hl, got_note h.got nofun⟩
    · change c = inForce config (s.history ++ [_])
      rw [inForce_append]
      rfl
    · unfold put note at hj
      dsimp only at hj
      split at hj
      · cases hj
      · exact h.underWay j found' c' hj

theorem sound_start (hv : config.Valid) (path : String) :
    Sound decode config path { store := { config, path } } where
  place := rfl
  current := rfl
  valid := hv
  underWay _ _ _ h := by cases h
  events _ h := by cases h
  got before i c after h := by simp at h

theorem Sound.of_reaches (h : Sound decode config path s) (hr : Reaches decode s t) :
    Sound decode config path t := by
  induction hr with
  | refl => exact h
  | tail _ hst ih => exact ih.of_step hst

/-! ## What is in force -/

/-- A server finds its address in settings that have no fault. -/
theorem bind_ne_invalidBindAddr (host : Host) (home : Host.Path) {store : ConfigStore}
    (h : store.config.Valid) (text : String) :
    (Server.start host home store).bind.2 ≠ .error (.invalidBindAddr text) := by
  obtain ⟨a, ha⟩ := Option.isSome_iff_exists.1 h.1
  have hbind : (Server.start host home store).bindAddr = store.config.server.bindAddr := rfl
  unfold Server.bind
  rw [hbind, ha]
  dsimp only
  split <;> exact nofun

structure Enforced (decode : String → Option Config) (config : Config) (path : String)
    (s : Enforcement) : Prop where
  /-- Whoever gets the settings gets those of the last reload that succeeded, whoever made it, and before
  there was one those of the start. -/
  got : ∀ before i c after, s.history = before ++ .got i c :: after → c = inForce config before
  /-- A reload that succeeds has put in force what it had loaded. -/
  renewed : ∀ i found c, .renewed i found c ∈ s.history → Config.loaded decode path found = .ok c
  /-- A reload that fails tells why nothing could be loaded. -/
  kept : ∀ i found e, .kept i found e ∈ s.history → Config.loaded decode path found = .error e
  /-- Nobody gets settings that have a fault. -/
  valid : ∀ i c, .got i c ∈ s.history → c.validate = .ok c
  /-- A server that is started with the store finds the text of its address in order. -/
  binds : ∀ host home text,
    (Server.start host home s.store).bind.2 ≠ .error (.invalidBindAddr text)

/-- Whatever the command line is, what files hold by the time that they are looked at, and how their text is
read: a start that succeeds has put the options into what it has loaded, and only settings without a fault
are ever in force, those of the start and of the reloads that succeed. -/
theorem enforced_of_reaches {read : String → FileState} {default : String} {args : List String}
    (hs : startLoaded decode read default args = .ok (config, path))
    (hr : Reaches decode { store := { config, path } } s) :
    Started decode read default args config path ∧ Enforced decode config path s := by
  have hstart := started_of_startLoaded hs
  have h := (sound_start (Config.validate_eq_ok_iff.1 hstart.valid).2 path).of_reaches hr
  exact ⟨hstart, {
    got := h.got
    renewed := fun i found c hmem => h.events _ hmem
    kept := fun i found e hmem => h.events _ hmem
    valid := fun i c hmem => Config.Valid.validate (h.events _ hmem)
    binds := fun host home text => bind_ne_invalidBindAddr host home h.valid text }⟩

/-- A start with two options and no file. One holder's reload fails, another's finds the file empty, and
each gets the settings that are in force. -/
theorem enforced_of_two_reloads :
    ∃ (decode : String → Option Config) (config renewed : Config) (s : Enforcement),
      startLoaded decode (fun _ => .missing) "config.toml" ["--bind", "[::1]:9000", "--max-sessions=4"] =
        .ok (config, "config.toml") ∧
      Reaches decode { store := { config, path := "config.toml" } } s ∧
      s.history = [.kept 0 (.unreadable "denied") (.read "config.toml" "denied"), .got 1 config,
        .renewed 1 (.content []) renewed, .got 0 renewed] ∧
      config.server.bindAddr = "[::1]:9000" ∧ renewed.toolchain.gcc = "cc" ∧
      Enforced decode config "config.toml" s := by
  let renewed : Config := { toolchain := { gcc := "cc" } }
  let config : Config := { server := { bindAddr := "[::1]:9000" }, sessions := { maxSessions := 4 } }
  let decode (text : String) : Option Config := if text = "" then some renewed else none
  have hs : startLoaded decode (fun _ => .missing) "config.toml"
      ["--bind", "[::1]:9000", "--max-sessions=4"] = .ok (config, "config.toml") := by
    decide
  have hempty : Config.loaded decode "config.toml" (.content []) = .ok renewed := by
    decide
  have r : Reaches decode { store := { config, path := "config.toml" } } _ := .refl
  have r := r.tail (.fail 0 (.unreadable "denied") _ rfl rfl)
  have r := r.tail (.load 1 (.content []) _ rfl hempty)
  have r := r.tail (.get 1)
  have r := r.tail (.renew 1 _ _ rfl)
  have r := r.tail (.get 0)
  exact ⟨decode, config, renewed, _, hs, r, rfl, rfl, rfl, (enforced_of_reaches hs r).2⟩

/-! ## Without interruption -/

/-- What a holder has done whose reload gave this. -/
def ofReload (i : Nat) (found : FileState) : ConfigStore × Except ConfigError Unit → StoreEvent
  | (store, .ok ()) => .renewed i found store.config
  | (_, .error e) => .kept i found e

theorem put_put_self (s : Enforcement) {i : Nat} {r : Option (FileState × Config)}
    (x : Option (FileState × Config)) (h : s.underWay i = r) : (s.put i x).put i r = s := by
  have hsame : (fun j => if j = i then r else if j = i then x else s.underWay j) = s.underWay := by
    funext j
    split
    · rename_i hj
      rw [hj, h]
    · rfl
  unfold put
  dsimp only
  rw [hsame]

theorem reload_alone (files : Host.Files) (home : Host.Path) {i : Nat} (free : s.underWay i = none) :
    Reaches Config.decode? s (note { s with store := (s.store.reload files home).1 }
      (ofReload i (Config.reading files home s.store.path) (s.store.reload files home))) := by
  unfold ConfigStore.reload ConfigStore.accept
  rw [Config.load_eq]
  cases hl : Config.loaded Config.decode? s.store.path (Config.reading files home s.store.path) with
  | error e => exact .single (.fail i _ e free hl)
  | ok c =>
    have r : Reaches Config.decode? s _ := .single (.load i _ c free hl)
    have r := r.tail (.renew i _ c (if_pos rfl))
    rw [put_put_self s _ free] at r
    exact r

end Enforcement

end SessionHost
