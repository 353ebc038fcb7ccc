/-
The two halves of the bridge follow the same phone.

The call service and the audio broker search BlueZ's objects with code of
their own, each in whatever order its map is visited. No answer may depend
on that order, so each is said without one:

- a search for a device or a service answers with the only object that
  matches (`GoMap.Order.only_iff`), and the two searches for the device
  match the same objects;
- the loop over the characteristics is a `GoMap.enterOnce`, by UUID in
  lower case, over what it lists.
-/
import Callbridge.Gtbs.Inventory
import Callbridge.Bluez.Negotiate

namespace Callbridge.Gtbs

open Lib Lib.Dbus
open Bluez (deviceInterface selectMatch selectDevicePath)

variable {valid : Path → Bool} {text : CaseMapping}
  {objects : ManagedObjects} {visit visit' : Visit}
  {adapter address : Bytes} {device service : Path} {v : Variant}
  {interfaces : Interfaces} {path : Path}

-- == what the loops look for

theorem variantString_eq_some {value : Bytes} :
    variantString v = some value ↔ v = .string value := by
  cases v <;> simp [variantString]

theorem variantPath_eq_some {value : Path} :
    variantPath v = some value ↔ v = .path value := by
  cases v <;> simp [variantPath]

theorem variantStrings_eq_some {values : List Bytes} :
    variantStrings v = some values ↔ v = .strings values := by
  cases v <;> simp [variantStrings]

/-- The match of a loop, said with the values the object has. -/
theorem ownedMatch_iff {iface value : Bytes} {key ownerKey : String}
    {owner : Path} :
    ownedMatch text iface key value ownerKey owner interfaces = true
      ↔ ∃ properties actual, interfaces.lookup iface = some properties
        ∧ properties.get key = .string actual
        ∧ properties.get ownerKey = .path owner
        ∧ text.equalFold actual value = true := by
  simp only [← variantString_eq_some, ← variantPath_eq_some]
  unfold ownedMatch
  constructor
  · intro h
    split at h
    · cases h
    case h_2 properties hlookup =>
      split at h
      case h_1 actual actualOwner hactual howner =>
        rw [Bool.and_eq_true, beq_iff_eq] at h
        rw [h.2] at howner
        exact ⟨properties, actual, hlookup, hactual, howner, h.1⟩
      · cases h
  · rintro ⟨properties, actual, hlookup, hactual, howner, hfold⟩
    rw [hlookup]
    simp only [hactual, howner, hfold, beq_self_eq_true, Bool.and_self]

/-- The two loops look for the same objects, though one asks for the types
by a function and the other where it reads the property. -/
theorem selectMatch_eq : selectMatch text adapter address interfaces
    = resolveMatch text adapter address interfaces := by
  unfold selectMatch resolveMatch ownedMatch
  rw [show deviceInterface = deviceIface from rfl]
  cases interfaces.lookup deviceIface with
  | none => rfl
  | some properties =>
    dsimp only
    generalize properties.get "Address" = address'
    generalize properties.get "Adapter" = adapter'
    cases address' <;> cases adapter' <;> rfl

/-- The object is a device of the adapter with the address. -/
def IsDevice (text : CaseMapping) (adapter address : Bytes)
    (interfaces : Interfaces) : Prop :=
  ∃ properties actual, interfaces.lookup deviceIface = some properties
    ∧ properties.get "Address" = .string actual
    ∧ properties.get "Adapter" = .path (ascii "/org/bluez/" ++ adapter)
    ∧ text.equalFold actual address = true

theorem resolveMatch_iff :
    resolveMatch text adapter address interfaces = true
      ↔ IsDevice text adapter address interfaces :=
  ownedMatch_iff

/-- The object is a GTBS service of the device. -/
def IsService (text : CaseMapping) (device : Path)
    (interfaces : Interfaces) : Prop :=
  ∃ properties uuid, interfaces.lookup gattServiceIface = some properties
    ∧ properties.get "UUID" = .string uuid
    ∧ properties.get "Device" = .path device
    ∧ text.equalFold uuid uuidGTBS = true

theorem serviceMatch_iff :
    serviceMatch text device interfaces = true
      ↔ IsService text device interfaces :=
  ownedMatch_iff

-- == the device

theorem sortStrings_eq_singleton {found : List Path} :
    sortStrings found = [path] ↔ found = [path] := by
  have hperm : (sortStrings found).Perm found := List.perm_insertionSort _ _
  constructor
  · intro h
    rw [h] at hperm
    exact (List.singleton_perm.mp hperm).symm
  · intro h
    apply List.perm_singleton.mp
    exact h ▸ hperm

/-- The object at the path is the one device of the selector. -/
def OnlyDevice (text : CaseMapping) (objects : ManagedObjects)
    (adapter address : Bytes) (path : Path) : Prop :=
  ∀ path', (∃ interfaces, objects.lookup path' = some interfaces
    ∧ IsDevice text adapter address interfaces) ↔ path' = path

theorem resolveDevicePath_eq_ok {own : Path}
    (hown : devicePath valid text adapter address = .ok own)
    (hvisit : objects.Order visit) :
    resolveDevicePath valid text visit adapter address = .ok path
      ↔ OnlyDevice text objects adapter address path := by
  unfold resolveDevicePath OnlyDevice
  rw [hown, ok_bind, exactlyOne_eq_ok, sortStrings_eq_singleton,
    hvisit.only_iff]
  simp only [resolveMatch_iff]

theorem selectDevicePath_eq_ok (hvisit : objects.Order visit) :
    selectDevicePath text visit adapter address = .ok path
      ↔ OnlyDevice text objects adapter address path := by
  unfold selectDevicePath OnlyDevice
  rw [exactlyOne_eq_ok, hvisit.only_iff]
  simp only [selectMatch_eq, resolveMatch_iff]

-- == the characteristics

/-- The object is the characteristic, and it belongs to the service. -/
def Belongs (text : CaseMapping) (service : Path) (c : Characteristic)
    (interfaces : Interfaces) : Prop :=
  ∃ properties uuid flags,
    interfaces.lookup gattCharacteristicIF = some properties
      ∧ properties.get "Service" = .path service
      ∧ properties.get "UUID" = .string uuid
      ∧ properties.get "Flags" = .strings flags
      ∧ c.uuid = text.toLower uuid ∧ c.flags = sortStrings flags

/-- What the loop takes from an object. -/
theorem characteristicOf_eq_some {object : Path × Interfaces}
    {c : Characteristic} :
    characteristicOf text service object = some c
      ↔ c.path = object.1 ∧ Belongs text service c object.2 := by
  obtain ⟨path, uuid, flags⟩ := c
  simp only [characteristicOf, Belongs, Option.bind_eq_bind,
    Option.bind_eq_some_iff, variantPath_eq_some, variantString_eq_some,
    variantStrings_eq_some, Option.ite_none_right_eq_some,
    Option.some.injEq, Characteristic.mk.injEq]
  constructor
  · rintro ⟨properties, hlookup, owner, howner, raw, hraw, list, hlist, rfl,
      rfl, rfl, rfl⟩
    exact ⟨rfl, properties, raw, list, hlookup, howner, hraw, hlist, rfl,
      rfl⟩
  · rintro ⟨rfl, properties, raw, list, hlookup, howner, hraw, hlist, rfl,
      rfl⟩
    exact ⟨properties, hlookup, service, howner, raw, hraw, list, hlist, rfl,
      rfl, rfl, rfl⟩

/-- The loop enters what the objects list, one for each UUID. -/
theorem characteristicsLoop_eq_ok
    {found out : GoMap Bytes Characteristic} :
    characteristicsLoop text service found visit = .ok out
      ↔ GoMap.enterOnce Characteristic.uuid found
          (visit.filterMap (characteristicOf text service)) = .ok out := by
  induction visit generalizing found with
  | nil => simp [characteristicsLoop, GoMap.enterOnce]
  | cons object visit ih =>
    rw [characteristicsLoop, List.filterMap_cons]
    cases characteristicOf text service object with
    | none => exact ih
    | some c =>
      dsimp only [GoMap.enterOnce]
      by_cases htaken : (found.lookup c.uuid).isSome = true
      · rw [if_pos htaken, if_pos htaken]
        simp
      · rw [if_neg htaken, if_neg htaken]
        exact ih

/-- The object at its path is the characteristic, and it belongs to the
service. -/
def OfService (text : CaseMapping) (objects : ManagedObjects) (service : Path)
    (c : Characteristic) : Prop :=
  ∃ interfaces, objects.lookup c.path = some interfaces
    ∧ Belongs text service c interfaces

/-- The loop lists the characteristics of the service. -/
theorem mem_listed {c : Characteristic} (hvisit : objects.Order visit) :
    c ∈ visit.filterMap (characteristicOf text service)
      ↔ OfService text objects service c := by
  rw [List.mem_filterMap]
  constructor
  · rintro ⟨⟨path, interfaces⟩, hmem, hlisted⟩
    obtain ⟨hpath, hbelongs⟩ := characteristicOf_eq_some.mp hlisted
    refine ⟨interfaces, ?_, hbelongs⟩
    rw [hpath]
    exact hvisit.mem_iff.mp hmem
  · rintro ⟨interfaces, hlookup, hbelongs⟩
    exact ⟨(c.path, interfaces), hvisit.mem_iff.mpr hlookup,
      characteristicOf_eq_some.mpr ⟨rfl, hbelongs⟩⟩

/-- No two objects list the same characteristic: it names its path. -/
theorem nodup_listed (hvisit : objects.Order visit) :
    (visit.filterMap (characteristicOf text service)).Nodup := by
  have hpaths : visit.Pairwise fun a b => a.1 ≠ b.1 :=
    List.pairwise_map.mp hvisit.nodup_keys
  refine hpaths.filterMap _ ?_
  intro a b hab c hc c' hc' heq
  apply hab
  rw [← (characteristicOf_eq_some.mp hc).1,
    ← (characteristicOf_eq_some.mp hc').1, heq]

/-- The loop ends well when no two characteristics of the service have the
same UUID in lower case, and then holds each of them under it. -/
theorem characteristics_iff {out : GoMap Bytes Characteristic}
    (hvisit : objects.Order visit) :
    characteristicsLoop text service ∅ visit = .ok out
      ↔ (∀ c c', OfService text objects service c →
          OfService text objects service c' → c.uuid = c'.uuid → c = c')
        ∧ ∀ uuid c, out.lookup uuid = some c
          ↔ OfService text objects service c ∧ c.uuid = uuid := by
  rw [characteristicsLoop_eq_ok, GoMap.enterOnce_eq_ok,
    List.nodup_map_iff_inj_on (nodup_listed hvisit)]
  simp only [mem_listed hvisit, Finmap.lookup_empty, reduceCtorEq, or_false,
    implies_true, true_and]
  constructor
  · rintro ⟨honce, hout⟩
    exact ⟨fun c c' hc hc' heq => honce c hc c' hc' heq, hout⟩
  · rintro ⟨honce, hout⟩
    exact ⟨fun c hc c' hc' heq => honce c c' hc hc' heq, hout⟩

-- == the inventory

/-- The inventory of a device's one GTBS service, said without an order:
every characteristic of the service, no two with the same UUID in lower
case. -/
structure Discovered (text : CaseMapping) (objects : ManagedObjects)
    (device : Path) (inventory : Inventory) : Prop where
  ofDevice : inventory.devicePath = device
  present : ∃ interfaces properties, objects.lookup device = some interfaces
    ∧ interfaces.lookup deviceIface = some properties
  onlyService : ∀ path, (∃ interfaces, objects.lookup path = some interfaces
    ∧ IsService text device interfaces) ↔ path = inventory.servicePath
  once : ∀ c c', OfService text objects inventory.servicePath c →
    OfService text objects inventory.servicePath c' →
    c.uuid = c'.uuid → c = c'
  listed : ∀ uuid c, inventory.characteristics.lookup uuid = some c
    ↔ OfService text objects inventory.servicePath c ∧ c.uuid = uuid
  valid : validateInventory inventory = none

/-- An inventory is what `Discover` returns when it is `Discovered`. -/
theorem discover_iff {inventory : Inventory} (hvisit : objects.Order visit)
    (hvisit' : objects.Order visit') :
    discover text objects visit visit' device = .ok inventory
      ↔ Discovered text objects device inventory := by
  simp only [discover, bind_eq_ok, require_eq_ok, and_true, exactlyOne_eq_ok,
    hvisit.only_iff, serviceMatch_iff, characteristics_iff hvisit']
  constructor
  · rintro ⟨interfaces, hinterfaces, properties, hproperties, service,
      hservice, characteristics, ⟨honce, hlisted⟩, h⟩
    split at h
    · cases h
    case h_2 hvalid =>
      cases h
      exact ⟨rfl, ⟨interfaces, properties, hinterfaces, hproperties⟩,
        hservice, honce, hlisted, hvalid⟩
  · rintro ⟨rfl, ⟨interfaces, properties, hinterfaces, hproperties⟩, hservice,
      honce, hlisted, hvalid⟩
    refine ⟨interfaces, hinterfaces, properties, hproperties, _, hservice, _,
      ⟨honce, hlisted⟩, ?_⟩
    rw [hvalid]

-- == results

/-- For every tree of objects and every selector that makes a device path:
in whatever orders the two searches visit the objects, both fail or both
return the same path. And for every device, `Discover` returns the same
inventories in all orders; one that it returns lists characteristics of
the one GTBS service of the device, all of them, and no two with the same
UUID in lower case. -/
theorem same_phone_followed (valid : Path → Bool) (text : CaseMapping)
    (objects : ManagedObjects) (adapter address : Bytes) (path : Path)
    (hpath : devicePath valid text adapter address = .ok path) :
    (∀ visit visit', objects.Order visit → objects.Order visit' →
      (∃ e e', resolveDevicePath valid text visit adapter address = .error e
          ∧ selectDevicePath text visit' adapter address = .error e')
        ∨ ∃ found,
          resolveDevicePath valid text visit adapter address = .ok found
          ∧ selectDevicePath text visit' adapter address = .ok found)
      ∧ ∀ device visit₁ visit₂ inventory, objects.Order visit₁ →
        objects.Order visit₂ →
        discover text objects visit₁ visit₂ device = .ok inventory →
        (∀ visit₃ visit₄, objects.Order visit₃ → objects.Order visit₄ →
          discover text objects visit₃ visit₄ device = .ok inventory)
          ∧ inventory.devicePath = device
          ∧ (∀ path, (∃ interfaces, objects.lookup path = some interfaces
              ∧ IsService text device interfaces)
                ↔ path = inventory.servicePath)
          ∧ (∀ uuid c, inventory.characteristics.lookup uuid = some c
              ↔ OfService text objects inventory.servicePath c ∧ c.uuid = uuid)
          ∧ ∀ c c', OfService text objects inventory.servicePath c →
              OfService text objects inventory.servicePath c' →
              c.uuid = c'.uuid → c = c' := by
  refine ⟨?_, ?_⟩
  · intro visit visit' hvisit hvisit'
    cases hselect : selectDevicePath text visit' adapter address with
    | ok found =>
      refine Or.inr ⟨found, ?_, rfl⟩
      apply (resolveDevicePath_eq_ok hpath hvisit).mpr
      exact (selectDevicePath_eq_ok hvisit').mp hselect
    | error e' =>
      cases hresolve : resolveDevicePath valid text visit adapter address with
      | error e => exact Or.inl ⟨e, e', rfl, rfl⟩
      | ok found =>
        have honly := (resolveDevicePath_eq_ok hpath hvisit).mp hresolve
        rw [(selectDevicePath_eq_ok hvisit').mpr honly] at hselect
        cases hselect
  · intro device visit₁ visit₂ inventory hvisit₁ hvisit₂ h
    have hfound := (discover_iff hvisit₁ hvisit₂).mp h
    refine ⟨?_, hfound.ofDevice, hfound.onlyService, hfound.listed,
      hfound.once⟩
    intro visit₃ visit₄ hvisit₃ hvisit₄
    exact (discover_iff hvisit₃ hvisit₄).mpr hfound

/-- An object with one interface. -/
def object (iface : Bytes) (properties : List (String × Variant)) :
    Interfaces :=
  (∅ : Interfaces).insert iface
    (properties.foldl (fun m p => m.insert (ascii p.1) p.2) ∅)

def roomDevice : Path := ascii "/org/bluez/hci0/dev_5B_3B_C8_E0_A8_C2"

def roomService : Path := roomDevice ++ ascii "/service001"

/-- A phone whose path keeps the private address it was paired with, and
its GTBS. -/
def roomVisit : Visit :=
  [(roomDevice, object deviceIface
      [("Address", .string (ascii "00:11:22:33:44:55")),
       ("Adapter", .path (ascii "/org/bluez/hci0"))]),
   (roomService, object gattServiceIface
      [("UUID", .string uuidGTBS), ("Device", .path roomDevice)]),
   (roomService ++ ascii "/char001", object gattCharacteristicIF
      [("UUID", .string uuidCallState), ("Service", .path roomService),
       ("Flags", .strings [ascii "read", ascii "notify"])]),
   (roomService ++ ascii "/char002", object gattCharacteristicIF
      [("UUID", .string uuidControlPoint), ("Service", .path roomService),
       ("Flags", .strings [ascii "write", ascii "notify"])])]

def roomObjects : ManagedObjects where
  entries := ((roomVisit.map fun o => ⟨o.1, o.2⟩ :
    List (Sigma fun _ : Path => Interfaces)) : Multiset _)
  nodupKeys := by
    show (List.map Sigma.fst (List.map _ roomVisit)).Nodup
    rw [List.map_map]
    decide +kernel

/-- The path `DevicePath` makes of the selector. -/
def roomPath : Path := ascii "/org/bluez/hci0/dev_00_11_22_33_44_55"

/-- Both halves find it, visiting the objects from opposite ends, and its
inventory is found from either end. -/
theorem same_phone_followed_room :
    (∃ found, resolveDevicePath (· == roomPath) asciiCase roomVisit
          (ascii "hci0") (ascii "00:11:22:33:44:55") = .ok found
        ∧ selectDevicePath asciiCase roomVisit.reverse (ascii "hci0")
          (ascii "00:11:22:33:44:55") = .ok found)
      ∧ ∃ inventory, discover asciiCase roomObjects roomVisit
            roomVisit.reverse roomDevice = .ok inventory
          ∧ discover asciiCase roomObjects roomVisit.reverse roomVisit
            roomDevice = .ok inventory := by
  have hvisit : roomObjects.Order roomVisit := rfl
  have hback : roomObjects.Order roomVisit.reverse :=
    Multiset.coe_eq_coe.mpr ((List.reverse_perm roomVisit).map _)
  obtain ⟨hdevice, hinventory⟩ := same_phone_followed (· == roomPath)
    asciiCase roomObjects (ascii "hci0") (ascii "00:11:22:33:44:55")
    roomPath (by rfl)
  refine ⟨?_, ?_⟩
  · rcases hdevice _ _ hvisit hback with ⟨e, -, he, -⟩ | hfound
    · have hok : (resolveDevicePath (· == roomPath) asciiCase roomVisit
          (ascii "hci0") (ascii "00:11:22:33:44:55")).toOption.isSome
            = true := by
        decide +kernel
      rw [he] at hok
      cases hok
    · exact hfound
  · have hok : (discover asciiCase roomObjects roomVisit roomVisit.reverse
        roomDevice).toOption.isSome = true := by decide +kernel
    cases hdiscover : discover asciiCase roomObjects roomVisit
        roomVisit.reverse roomDevice with
    | error e =>
      rw [hdiscover] at hok
      cases hok
    | ok inventory =>
      exact ⟨inventory, rfl, (hinventory _ _ _ _ hvisit hback hdiscover).1 _ _
        hback hvisit⟩

end Callbridge.Gtbs
