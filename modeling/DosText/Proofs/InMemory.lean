import DosText.Proofs.Calls
import DosText.Storage.Outage

/-! Files kept in memory, during an outage or without one. They show that what is asked of
peripherals can be had. -/

namespace DosText

/-- A console at which nothing is typed. -/
def Console.silent {Devices : Type} : Console Devices where
  character devices := (0, devices)
  line _ devices := ([], devices)
  firmware _ devices := (devices, [])
  deferred := false

namespace Peripherals

/-- Peripherals that keep files in memory during an outage. `first` lists the first contents. -/
def inMemory (first : Catalog Name Bytes) (outage : Outage) :
    Peripherals (Catalog Name Bytes) :=
  { store := Store.memory.during fun _ => outage
    source := .memory first
    console := .silent }

theorem sound_inMemory (first : Catalog Name Bytes) (outage : Outage) :
    (inMemory first outage).Sound Catalog.find? where
  got := by
    intro name devices content
    simp only [inMemory, Store.during]
    split
    · intro same
      cases same
    · intro same
      cases same
      rfl
  get := by
    intro name devices
    simp only [inMemory, Store.during]
    split <;> rfl
  set := by
    intro name content devices
    simp only [inMemory, Store.during]
    split
    · intro same
      cases same
    · intro done
      funext other
      rw [Function.update_apply]
      exact Catalog.find?_insert devices name other content
  setFailed := by
    intro name content devices failure
    simp only [inMemory, Store.during]
    split
    · intro failed
      rfl
    · intro same
      cases same
  remove := by
    intro name devices
    simp only [inMemory, Store.during]
    split
    · intro same
      cases same
    · intro done
      funext other
      rw [Function.update_apply]
      exact Catalog.find?_erase devices name other
  removeFailed := by
    intro name devices failure
    simp only [inMemory, Store.during]
    split
    · intro failed
      rfl
    · intro same
      cases same
  fetch := fun _ _ => rfl
  character := fun _ => rfl
  line := fun _ _ => rfl
  firmware := fun _ _ => rfl

/-- Without an outage nothing fails. -/
theorem reliable_inMemory (first : Catalog Name Bytes) :
    (inMemory first .none).Reliable Catalog.find? first.find? where
  toSound := sound_inMemory first .none
  gets := fun name devices => ⟨devices.find? name, rfl⟩
  sets := fun _ _ _ => rfl
  removes := fun _ _ => rfl
  fetches := fun _ _ => rfl

end Peripherals

end DosText
