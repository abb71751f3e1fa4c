import TreeLint.Settings.File
import TreeLint.Telemetry

/-!
# Registered services

The parts that a run is put together from, each under a key.  A registry starts out with the
standard parts, and any of them can be replaced.
-/

namespace TreeLint

inductive Service where
  | settings (settings : Settings)
  | telemetry (sender : Telemetry)
  | files
  | dumps
  | renderer
  | value (v : Value)

def projectName : String := "MESS-DETECTOR"

structure Registry where
  services : List (String × Service)

namespace Registry

def settingsKey : String := "ConfigurationLoader"

def telemetryKey : String := "TelemetryPort"

def filesKey : String := "FileSystemGateway"

def dumpsKey : String := "TreeDumpGateway"

def rendererKey : String := "JSONRenderer"

/-- The standard parts, with settings that have been loaded. -/
def standard (settings : Settings) : Registry where
  services :=
    [(settingsKey, .settings settings), (telemetryKey, .telemetry { project := projectName }),
      (filesKey, .files), (dumpsKey, .dumps), (rendererKey, .renderer)]

def register (registry : Registry) (key : String) (service : Service) : Registry :=
  ⟨(key, service) :: registry.services.filter fun entry => entry.1 != key⟩

/-- A key that nothing is registered under. -/
structure Unregistered where
  key : String
  deriving DecidableEq, Repr

def Unregistered.message (error : Unregistered) : String :=
  "Dependency '" ++ error.key ++ "' not registered."

def get (registry : Registry) (key : String) : Except Unregistered Service :=
  match registry.services.find? fun entry => entry.1 == key with
  | some entry => .ok entry.2
  | none => .error ⟨key⟩

/-- The key of a part by its role. -/
def keyOfRole? (role : String) : Option String :=
  match role with
  | "config_loader" => some settingsKey
  | "telemetry" => some telemetryKey
  | "filesystem" => some filesKey
  | "tree_loader" => some dumpsKey
  | "renderer" => some rendererKey
  | _ => none

/-- A registry that is put together from the settings file. -/
def load (store : Store) (start : Path) : Except Settings.FileFault Registry :=
  (Settings.load store start).map fun loaded => standard loaded.settings

/-- The registry that all parts of a program share.  It is made when it is first asked for; `serial`
tells one from the next. -/
structure Shared where
  current : Option Registry := none
  serial : Nat := 0

def Shared.get (shared : Shared) (store : Store) : Except Settings.FileFault (Registry × Shared) :=
  match shared.current with
  | some registry => .ok (registry, shared)
  | none =>
    (load store (Path.parse ".")).map fun registry =>
      (registry, ⟨some registry, shared.serial + 1⟩)

def Shared.reset (shared : Shared) : Shared := { shared with current := none }

end Registry

end TreeLint
