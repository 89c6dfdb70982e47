import DosText.Storage

/-! Stores and sources that refuse some of their calls, as a medium that fails would. -/

namespace DosText

/-- The calls that are refused: those of a kind that is out of order, for the listed names, or
for every name if none is listed. -/
structure Outage where
  get : Bool
  set : Bool
  remove : Bool
  names : List Name
  deriving DecidableEq, Repr

namespace Outage

/-- Everything works. -/
def none : Outage := ⟨false, false, false, []⟩

/-- Whether an outage extends to a name. -/
def concerns (outage : Outage) (name : Name) : Bool :=
  outage.names.isEmpty || outage.names.contains name

end Outage

variable {Devices : Type}

/-- A store during the outage that its devices are in. A refused call does nothing. -/
def Store.during (store : Store Devices) (outage : Devices → Outage) : Store Devices where
  get name devices :=
    if (outage devices).get && (outage devices).concerns name then
      ⟨.error .cannotRead, devices, []⟩
    else store.get name devices
  set name content devices :=
    if (outage devices).set && (outage devices).concerns name then
      ⟨.error .cannotWrite, devices, []⟩
    else store.set name content devices
  remove name devices :=
    if (outage devices).remove && (outage devices).concerns name then
      ⟨.error .cannotWrite, devices, []⟩
    else store.remove name devices

/-- A source that cannot be read for some names. -/
def Source.without (source : Source Devices) (names : List Name) : Source Devices where
  fetch name devices :=
    if names.contains name then ⟨.error .cannotRead, devices, []⟩ else source.fetch name devices

end DosText
