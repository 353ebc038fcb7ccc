/-
Which BlueZ objects make up the phone's GTBS
(internal/gtbs/inventory.go): the device of a selector, its one service,
and the characteristics of that service.

BlueZ's objects arrive as a map, and the three loops range over it, so
each takes the order it visits the objects in as an argument. The
properties are untyped; one of the wrong type counts as one that is not
there.
-/
import Callbridge.Lib.Dbus
import Callbridge.Lib.Guards
import Mathlib.Data.List.Sort

namespace Callbridge.Gtbs

open Lib Lib.Dbus

-- == constants

def gattServiceIface : Bytes := ascii "org.bluez.GattService1"

def gattCharacteristicIF : Bytes := ascii "org.bluez.GattCharacteristic1"

def deviceIface : Bytes := ascii "org.bluez.Device1"

def uuidGTBS : Bytes := ascii "0000184c-0000-1000-8000-00805f9b34fb"

def uuidCallState : Bytes := ascii "00002bbd-0000-1000-8000-00805f9b34fb"

def uuidControlPoint : Bytes := ascii "00002bbe-0000-1000-8000-00805f9b34fb"

-- == records

structure Characteristic where
  path : Path
  uuid : Bytes
  flags : List Bytes
  deriving DecidableEq

structure Inventory where
  devicePath : Path
  servicePath : Path
  characteristics : GoMap Bytes Characteristic
  deriving DecidableEq

inductive SelectorError where
  | selector
  | path
  | found (count : Nat)
  deriving DecidableEq

def SelectorError.text : SelectorError → String
  | .selector => "invalid BlueZ device selector"
  | .path => "invalid BlueZ device path"
  | .found count =>
      "expected one BlueZ device for selector, found " ++ toString count

inductive DiscoverError where
  | deviceAbsent
  | interfaceAbsent
  | services (count : Nat)
  | duplicate (uuid : Bytes)
  | absent (uuid : Bytes)
  | lacks (uuid flag : Bytes)
  | notWritable
  deriving DecidableEq

def DiscoverError.text : DiscoverError → Bytes
  | .deviceAbsent => ascii "expected BlueZ device object is absent"
  | .interfaceAbsent => ascii "expected BlueZ device interface is absent"
  | .services count =>
      ascii "expected one GTBS service on the bonded device, found "
        ++ ascii (toString count)
  | .duplicate uuid => ascii "duplicate GTBS characteristic " ++ uuid
  | .absent uuid =>
      ascii "required GTBS characteristic " ++ uuid ++ ascii " is absent"
  | .lacks uuid flag =>
      ascii "GTBS characteristic " ++ uuid ++ ascii " lacks " ++ flag
  | .notWritable => ascii "GTBS Call Control Point is not writable"

def variantString : Variant → Option Bytes
  | .string value => some value
  | _ => none

def variantPath : Variant → Option Path
  | .path value => some value
  | _ => none

def variantStrings : Variant → Option (List Bytes)
  | .strings values => some values
  | _ => none

/-- `sort.Strings`, and `sort.Slice` by `<` on paths. -/
def sortStrings (values : List Bytes) : List Bytes :=
  values.insertionSort (· ≤ ·)

section Case

variable (valid : Path → Bool) (text : CaseMapping)

-- == the device

/-- `valid` is what `ObjectPath.IsValid` says of a path. -/
def devicePath (adapter address : Bytes) : Except SelectorError Path :=
  if (ascii "hci").isPrefixOf adapter = false ∨ address = [] then
    .error .selector
  else
    let path := ascii "/org/bluez/" ++ adapter ++ ascii "/dev_"
      ++ (text.toUpper address).map fun b => if b = 0x3a then 0x5f else b
    if valid path = false then .error .path else .ok path

/-- The object has the interface, and among its properties the text, in any
case, and the path of the object it belongs to: the body of a loop that
appends it to the matches. -/
def ownedMatch (iface : Bytes) (key : String) (value : Bytes)
    (ownerKey : String) (owner : Path) (interfaces : Interfaces) : Bool :=
  match interfaces.lookup iface with
  | none => false
  | some properties =>
      match variantString (properties.get key),
        variantPath (properties.get ownerKey) with
      | some actual, some actualOwner =>
          text.equalFold actual value && actualOwner == owner
      | _, _ => false

/-- The body of the loop of `ResolveDevicePath`. -/
def resolveMatch (adapter address : Bytes) : Interfaces → Bool :=
  ownedMatch text deviceIface "Address" address "Adapter"
    (ascii "/org/bluez/" ++ adapter)

def resolveDevicePath (visit : Visit) (adapter address : Bytes) :
    Except SelectorError Path := do
  let _ ← devicePath valid text adapter address
  exactlyOne .found (sortStrings
    ((visit.filter fun object => resolveMatch text adapter address object.2)
      |>.map Prod.fst))

-- == the inventory

/-- The body of the first loop of `Discover`. -/
def serviceMatch (device : Path) : Interfaces → Bool :=
  ownedMatch text gattServiceIface "UUID" uuidGTBS "Device" device

/-- What the second loop of `Discover` makes of an object, if it does not
pass over it. -/
def characteristicOf (service : Path) (object : Path × Interfaces) :
    Option Characteristic := do
  let properties ← object.2.lookup gattCharacteristicIF
  let owner ← variantPath (properties.get "Service")
  let uuid ← variantString (properties.get "UUID")
  let flags ← variantStrings (properties.get "Flags")
  if owner = service then
    some ⟨object.1, text.toLower uuid, sortStrings flags⟩
  else none

/-- The second loop of `Discover`. -/
def characteristicsLoop (service : Path) :
    GoMap Bytes Characteristic → Visit →
      Except DiscoverError (GoMap Bytes Characteristic)
  | found, [] => .ok found
  | found, object :: visit =>
      match characteristicOf text service object with
      | none => characteristicsLoop service found visit
      | some c =>
          if (found.lookup c.uuid).isSome then .error (.duplicate c.uuid)
          else characteristicsLoop service (found.insert c.uuid c) visit

end Case

/-- What `validateInventory` requires: a characteristic, and its flags. -/
def required : List (Bytes × List Bytes) :=
  [(uuidCallState, [ascii "read", ascii "notify"]),
   (uuidControlPoint, [ascii "notify"])]

/-- The loop of `validateInventory`, at one expectation. -/
def checkRequired (inventory : Inventory)
    (expectation : Bytes × List Bytes) : Option DiscoverError :=
  match inventory.characteristics.lookup expectation.1 with
  | none => some (.absent expectation.1)
  | some characteristic =>
      (expectation.2.find? fun flag => !characteristic.flags.contains flag)
        |>.map (.lacks expectation.1)

def validateInventory (inventory : Inventory) : Option DiscoverError :=
  match required.findSome? (checkRequired inventory) with
  | some e => some e
  | none =>
      let flags := match inventory.characteristics.lookup uuidControlPoint with
        | some control => control.flags
        | none => []
      if !flags.contains (ascii "write")
          && !flags.contains (ascii "write-without-response") then
        some .notWritable
      else none

/-- `Discover`, the two loops in the orders `visit` and `visit'`. -/
def discover (text : CaseMapping) (objects : ManagedObjects)
    (visit visit' : Visit) (device : Path) :
    Except DiscoverError Inventory := do
  let interfaces ← require (objects.lookup device) (fun _ => true)
    .deviceAbsent
  let _ ← require (interfaces.lookup deviceIface) (fun _ => true)
    .interfaceAbsent
  let service ← exactlyOne .services
    ((visit.filter fun object => serviceMatch text device object.2)
      |>.map Prod.fst)
  let characteristics ← characteristicsLoop text service ∅ visit'
  let inventory := ⟨device, service, characteristics⟩
  match validateInventory inventory with
  | some e => .error e
  | none => .ok inventory

end Callbridge.Gtbs
