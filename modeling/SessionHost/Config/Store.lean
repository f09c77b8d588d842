import SessionHost.Config.Load

/-!
# Settings in force (`config/store`)

A store holds the settings in force and the path of the file that they came from. All who hold a store
see the same settings. A reload either puts new settings in force or changes nothing.

* `ConfigStore.reload_error`: a reload that fails leaves the settings as they are.
-/
namespace SessionHost

/-- Settings in force.
mirrors config/store:16-19 -/
structure ConfigStore where
  config : Config := {}
  path : String
  deriving DecidableEq, Repr, Inhabited

namespace ConfigStore

/-- Puts settings in force, or keeps those that are.
mirrors config/store:38-40 -/
def accept (s : ConfigStore) : Except ConfigError Config → ConfigStore × Except ConfigError Unit
  | .ok config => ({ s with config }, .ok ())
  | .error e => (s, .error e)

/-- Loads the file again.
mirrors config/store:37-41 -/
def reload (files : Host.Files) (home : Host.Path) (s : ConfigStore) :
    ConfigStore × Except ConfigError Unit :=
  s.accept (Config.load files home s.path)

theorem reload_error {files : Host.Files} {home : Host.Path} {s t : ConfigStore} {e : ConfigError}
    (h : s.reload files home = (t, .error e)) : t = s := by
  unfold reload accept at h
  split at h <;> simp_all

end ConfigStore

end SessionHost
