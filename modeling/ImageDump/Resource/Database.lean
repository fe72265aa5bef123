import ImageDump.Resource.Store

/-!
# The resource database

Settings are looked up in layers: the overrides, then each store in turn, then
the built-in defaults of the application. Every layer but the last is asked for
the name first and for the class next; the defaults are asked for the name
alone. While the stores are inhibited only the overrides answer.
-/

namespace ImageDump

/-- The default settings, by name relative to the application. -/
def defaultResources : List (String × String) := [
  ("foreground", "SystemWindowText"),
  ("background", "SystemWindow"),
  ("tooltip.attributeForeground", "SystemInfoText"),
  ("tooltip.attributeBackground", "SystemInfoWindow"),
  ("tool-bar.attributeForeground", "SystemButtonText"),
  ("tool-bar.attributeBackground", "SystemButtonFace"),
  ("tab-bar.attributeForeground", "SystemButtonText"),
  ("tab-bar.attributeBackground", "SystemButtonFace"),
  ("menu.attributeForeground", "SystemMenuText"),
  ("menu.attributeBackground", "SystemMenu"),
  ("scroll-bar.attributeForeground", "SystemScrollbar")]

/-- Settings in layers. -/
structure ResourceDatabase where
  overrides : ResourceStore := {}
  /-- Stores in the order in which they are asked. -/
  stores : List ResourceStore := []
  defaults : ResourceStore := {}
  /-- Only the overrides answer. -/
  inhibited : Bool := false
deriving DecidableEq, Repr

namespace ResourceDatabase

/-- The database of an application, with its defaults alone. -/
def ofApplication (application : String) : ResourceDatabase where
  defaults := ResourceStore.empty.insertAll <|
    defaultResources.map fun (name, value) => (application ++ "." ++ name, value)

/-- The value of a name in a store, or else of a class. -/
def askStore (store : ResourceStore) (name className : String) : Option String :=
  (store.get? name).or (store.get? className)

/-- The value of a setting, by its name or else by its class. -/
def lookup (database : ResourceDatabase) (name className : String) : Option String :=
  let stored :=
    if database.inhibited then none
    else (database.stores.findSome? (askStore · name className)).or (database.defaults.get? name)
  (askStore database.overrides name className).or stored

end ResourceDatabase
end ImageDump
