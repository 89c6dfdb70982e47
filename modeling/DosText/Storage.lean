import DosText.Catalog
import DosText.Log

/-! What the library asks of the places where files are kept. Each call may fail, and says
which devices it left behind and what it had to report. -/

namespace DosText

namespace Storage

/-- Why a call to a store or to a source failed. -/
inductive Failure where
  | cannotRead
  | cannotWrite
  deriving DecidableEq, Repr

end Storage

/-- What a call on devices ends in: its outcome, the devices after it and its report. -/
structure Reply (Devices Value : Type) where
  outcome : Except Storage.Failure Value
  devices : Devices
  report : List Log.Entry

/-- A flat mapping from names to contents. A name without content differs from one whose
content is empty. -/
structure Store (Devices : Type) where
  /-- The content of a name, if it has any. -/
  get : Name → Devices → Reply Devices (Option Bytes)
  /-- Replaces the content of a name. -/
  set : Name → Bytes → Devices → Reply Devices Unit
  /-- Takes its content from a name; a name without content is left alone. -/
  remove : Name → Devices → Reply Devices Unit

/-- Where names that a store has never seen get their first content from. -/
structure Source (Devices : Type) where
  /-- The first content of a name, if it has any. -/
  fetch : Name → Devices → Reply Devices (Option Bytes)

/-- One part of a larger set of devices. -/
structure Component (Whole Part : Type) where
  read : Whole → Part
  write : Part → Whole → Whole

namespace Component

variable {Whole Part Value : Type}

/-- Makes a call on a part and leaves the other parts as they are. -/
def apply (component : Component Whole Part) (call : Part → Reply Part Value) (whole : Whole) :
    Reply Whole Value :=
  let reply := call (component.read whole)
  ⟨reply.outcome, component.write reply.devices whole, reply.report⟩

/-- A store on one part is a store on the whole. -/
def store (component : Component Whole Part) (store : Store Part) : Store Whole where
  get name := component.apply (store.get name)
  set name content := component.apply (store.set name content)
  remove name := component.apply (store.remove name)

/-- A source on one part is a source on the whole. -/
def source (component : Component Whole Part) (source : Source Part) : Source Whole where
  fetch name := component.apply (source.fetch name)

end Component

/-- The source that has no content for any name. -/
def Source.none {Devices : Type} : Source Devices where
  fetch _ devices := ⟨.ok Option.none, devices, []⟩

/-- A store that lasts as long as the program; its calls never fail. -/
def Store.memory : Store (Catalog Name Bytes) where
  get name entries := ⟨.ok (entries.find? name), entries, []⟩
  set name content entries := ⟨.ok (), entries.insert name content, []⟩
  remove name entries := ⟨.ok (), entries.erase name, []⟩

/-- A source that always has the same contents. -/
def Source.memory {Devices : Type} (contents : Catalog Name Bytes) : Source Devices where
  fetch name devices := ⟨.ok (contents.find? name), devices, []⟩

end DosText
