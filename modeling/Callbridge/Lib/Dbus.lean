/-
The object tree of a D-Bus service, as a client receives it: paths, the
interfaces an object has, and their properties, each a value whose type
the receiver has to ask for.
-/
import Callbridge.Lib.GoMap
import Callbridge.Lib.Strings

namespace Callbridge.Lib.Dbus

/-- `dbus.ObjectPath`. -/
abbrev Path := Bytes

/-- A `dbus.Variant`, by the dynamic type of its value. The types no
receiver asks for are one, and so is the zero value. -/
inductive Variant where
  | string (value : Bytes)
  | path (value : Path)
  | strings (values : List Bytes)
  | byte (v : UInt8)
  | uint16 (v : UInt16)
  | uint32 (v : UInt32)
  | bytes (v : Bytes)
  | dict (entries : List (String × Variant))
  | other

abbrev Properties := GoMap Bytes Variant

abbrev Interfaces := GoMap Bytes Properties

/-- The reply of `GetManagedObjects`. -/
abbrev ManagedObjects := GoMap Path Interfaces

/-- The objects in an order a `range` loop may visit them in. -/
abbrev Visit := List (Path × Interfaces)

/-- A property that is missing reads as the zero value. -/
def Properties.get (properties : Properties) (name : String) : Variant :=
  (properties.lookup (ascii name)).getD .other

end Callbridge.Lib.Dbus
