import TitusIsolate.Lib.OrderedDict

/-!
# Cached properties and the watcher that restarts the process

The config manager answers from a property provider, and `get_cached_str` remembers its
first answer for good. The memory is `functools.lru_cache`'s, so what it is keyed on is
the call as written: the same property read with another default, or with the default
left out, is another entry.

The watcher reads each of its properties once without a default when it is constructed.
A pass compares that first answer with the property as it is now, and calls the exit
handler where they differ.
-/

namespace TitusIsolate

/-- How a caller passes `default`. The ways are told apart by the cache. -/
inductive DefaultArg (V : Type) where
  | omitted
  | positional (value : Option V)
  | keyword (value : Option V)
  deriving DecidableEq, Repr

/-- The default the callee sees. -/
def DefaultArg.value {V : Type} : DefaultArg V → Option V
  | omitted => none
  | positional value => value
  | keyword value => value

/-- The config manager, with the properties its provider gives at the moment. -/
structure ConfigManager (V : Type) where
  /-- `property_provider.get(key)` -/
  properties : String → Option V
  /-- What `get_cached_str` has answered, under the calls it answered. -/
  cachedStr : OrderedDict (String × DefaultArg V) (Option V)

namespace ConfigManager

variable {V : Type} [DecidableEq V]

/-- `get_str(key, default)` -/
def getStr (cm : ConfigManager V) (key : String) (default : Option V) : Option V :=
  match cm.properties key with
  | none => default
  | some value => some value

/-- `get_cached_str(key, default)` -/
def getCachedStr (cm : ConfigManager V) (key : String) (default : DefaultArg V) :
    Option V × ConfigManager V :=
  match cm.cachedStr.get? (key, default) with
  | some value => (value, cm)
  | none =>
      let value := cm.getStr key default.value
      (value, { cm with cachedStr := cm.cachedStr.insert (key, default) value })

/-- The provider starts to answer `value` for `key`. -/
def setProperty (cm : ConfigManager V) (key : String) (value : Option V) : ConfigManager V :=
  { cm with properties := fun k => if k = key then value else cm.properties k }

end ConfigManager

/-- `GENERIC_PROPERTY_CHANGE_EXIT` -/
def genericPropertyChangeExit : Nat := 3

/-- `RestartPropertyWatcher`, by its attributes, and what it told the exit handler. -/
structure RestartPropertyWatcher (V : Type) where
  configManager : ConfigManager V
  properties : List String
  /-- The codes the exit handler was called with, in order. -/
  exitCodes : List Nat

/-- What can happen once the watcher is constructed. -/
inductive WatcherEvent (V : Type) where
  /-- The provider starts to answer `value` for `key`. -/
  | change (key : String) (value : Option V)
  /-- A component calls `get_cached_str`. -/
  | read (key : String) (default : DefaultArg V)
  /-- A pass of `detect_changes`. -/
  | detect

namespace RestartPropertyWatcher

variable {V : Type} [DecidableEq V]

/-- `RestartPropertyWatcher(config_manager, exit_handler, properties)` -/
def init (configManager : ConfigManager V) (properties : List String) :
    RestartPropertyWatcher V where
  configManager := properties.foldl (fun cm p => (cm.getCachedStr p .omitted).2) configManager
  properties := properties
  exitCodes := []

/-- One round of the loop of `__detect_property_changes`. -/
def detectPropertyChange (w : RestartPropertyWatcher V) (p : String) : RestartPropertyWatcher V :=
  let (originalValue, configManager) := w.configManager.getCachedStr p .omitted
  -- the provider as it is now, past the cache
  let currValue := configManager.getStr p none
  if originalValue ≠ currValue then
    { w with
      configManager := configManager
      exitCodes := w.exitCodes ++ [genericPropertyChangeExit] }
  else { w with configManager := configManager }

/-- `detect_changes()` -/
def detectChanges (w : RestartPropertyWatcher V) : RestartPropertyWatcher V :=
  w.properties.foldl detectPropertyChange w

/-- One change of a property, one read of it, or one look of the watcher. -/
def step (w : RestartPropertyWatcher V) : WatcherEvent V → RestartPropertyWatcher V
  | .change key value => { w with configManager := w.configManager.setProperty key value }
  | .read key default =>
      { w with configManager := (w.configManager.getCachedStr key default).2 }
  | .detect => w.detectChanges

end RestartPropertyWatcher

end TitusIsolate
