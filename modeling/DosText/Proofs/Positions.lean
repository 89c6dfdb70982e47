import DosText.Proofs.Places

/-! Moving a pointer on in two steps and in one. Both the pointer and the record number are tried
against the largest word, and what is tried in one step lies no nearer than in the first of two. -/

namespace DosText

/-- A file whose pointer is moved on by a number of records. -/
def Buffer.advanced (buffer : Buffer) (records : Nat) : Buffer :=
  { buffer with
    filePointer := buffer.filePointer + records * buffer.recordLength
    recordNumber := buffer.recordNumber + records }

theorem Buffer.advanced_advanced (buffer : Buffer) (first second : Nat) :
    (buffer.advanced first).advanced second = buffer.advanced (first + second) := by
  simp only [advanced, Nat.add_mul, Nat.add_assoc]

/-- Words that can hold where a file is moved on to can hold every place on the way. -/
theorem Buffer.isAddressable_advanced {buffer : Buffer} {first second : Nat}
    (addressable : (buffer.advanced (first + second)).place.IsAddressable) :
    (buffer.advanced first).place.IsAddressable := by
  obtain ⟨pointer, number⟩ := addressable
  simp only [advanced, place, Nat.add_mul] at pointer number
  constructor
  · show buffer.filePointer + first * buffer.recordLength < _
    omega
  · show buffer.recordNumber + first < _
    omega

namespace TextFile

variable {Devices : Type} {peripherals : Peripherals Devices} {machine between : Machine Devices}
variable {name : Name} {buffer : Buffer} {first second : Nat}

/-- Once the file is got hold of, it is moved on if words can hold where it comes to. -/
theorem position_of_obtained
    (obtained : openedOrLoaded peripherals name machine = (.ok buffer, between)) (records : Nat) :
    position peripherals name records machine =
      if (buffer.advanced records).place.IsAddressable then
        (.ok (), { between with session := between.session.keep (buffer.advanced records) })
      else (.error .invalidOption, between) := by
  rw [position, Attempt.bind_of_ok _ obtained, offset_eq, offset_eq, Nat.mul_one]
  by_cases addressable : (buffer.advanced records).place.IsAddressable
  · have pointer : buffer.filePointer + records * buffer.recordLength < offsetLimit :=
      addressable.1
    have number : buffer.recordNumber + records < offsetLimit := addressable.2
    rw [if_pos pointer, if_pos number, if_pos addressable]
    rfl
  · rw [if_neg addressable]
    by_cases pointer : buffer.filePointer + records * buffer.recordLength < offsetLimit
    · have number : ¬buffer.recordNumber + records < offsetLimit :=
        fun number => addressable ⟨pointer, number⟩
      rw [if_pos pointer, if_neg number]
      rfl
    · rw [if_neg pointer]
      rfl

/-- A file that was moved on once is moved on from there. -/
theorem position_position_of_obtained (named : buffer.name = name)
    (obtained : openedOrLoaded peripherals name machine = (.ok buffer, between))
    (addressable : (buffer.advanced first).place.IsAddressable) :
    let begun := position peripherals name first machine
    begun.1 = .ok () ∧
      position peripherals name second begun.2 =
        if (buffer.advanced (first + second)).place.IsAddressable then
          (.ok (), { between with
            session := between.session.keep (buffer.advanced (first + second)) })
        else (.error .invalidOption, begun.2) := by
  intro begun
  let next : Machine Devices :=
    { between with session := between.session.keep (buffer.advanced first) }
  have moved : begun = (.ok (), next) :=
    (position_of_obtained obtained first).trans (if_pos addressable)
  have found : next.session.buffers.find? name = some (buffer.advanced first) :=
    find?_keep_of_named named
  have kept : next.session.keep (buffer.advanced (first + second)) =
      between.session.keep (buffer.advanced (first + second)) := between.session.keep_keep rfl
  rw [moved, position_of_obtained (openedOrLoaded_of_find? found) second,
    Buffer.advanced_advanced, kept]
  exact ⟨rfl, rfl⟩

/-- A file that cannot be got hold of is not moved on, by however many records. -/
theorem position_of_unread {fault : Fault}
    (unread : openedOrLoaded peripherals name machine = (.error fault, between)) (records : Nat) :
    position peripherals name records machine = (.error .ioError, between) := by
  obtain ⟨calls, after, obtains, -⟩ :=
    (openedOrLoaded_obtains (.refl peripherals machine) name).apply unread
  cases obtains.eq_ioError
  exact Attempt.bind_of_error _ unread

theorem name_of_obtained (consistent : machine.session.Consistent)
    (obtained : openedOrLoaded peripherals name machine = (.ok buffer, between)) :
    buffer.name = name := by
  obtain ⟨calls, after, obtains, -⟩ :=
    (openedOrLoaded_obtains (.refl peripherals machine) name).apply obtained
  obtain ⟨content, rfl⟩ := obtains.standing
  exact Session.name_standing consistent name

/-- A file that is not open is opened at its beginning, where every number of records fits. So one
that cannot be moved on was open, and nothing was done to get hold of it. -/
theorem eq_of_beyond {records : Nat} (fits : records < offsetLimit)
    (obtained : openedOrLoaded peripherals name machine = (.ok buffer, between))
    (beyond : ¬(buffer.advanced records).place.IsAddressable) : between = machine := by
  cases found : machine.session.buffers.find? name with
  | some opened =>
    cases obtained.symm.trans (openedOrLoaded_of_find? found)
    rfl
  | none =>
    obtain ⟨calls, after, obtains, -⟩ :=
      (openedOrLoaded_obtains (.refl peripherals machine) name).apply obtained
    obtain ⟨content, rfl⟩ := obtains.standing
    rw [Session.standing_of_closed found] at beyond
    refine absurd ⟨?_, ?_⟩ beyond
    · show 0 + records * 1 < offsetLimit
      omega
    · show 0 + records < offsetLimit
      omega

end TextFile

/-- Moving a pointer on by a sum of records comes to the same as moving it on by one summand and
then by the other: it succeeds if both of them do, and leaves the same behind. If it is refused,
exactly one of them is, with which the attempt ends, and that one changes nothing. -/
theorem Dos.Reaches.position_add {Devices Receiver : Type}
    {earlier peripherals : Peripherals Devices} {monitor : Monitor} {devices : Devices}
    {dos : Dos Devices Receiver}
    (reached : (Dos.initial monitor devices).Reaches earlier (fun _ _ => True) dos) (name : Name)
    {first second : Nat} (fits : first + second < TextFile.offsetLimit) :
    let position (records : Nat) := TextFile.position peripherals name records
    let whole := position (first + second) dos.machine
    let begun := position first dos.machine
    let ended := position second begun.2
    let both := (do position first; position second : Action Devices Unit) dos.machine
    (both.1 = .ok () ↔ whole.1 = .ok ()) ∧
      (whole.1 = .ok () → both.2 = whole.2) ∧
      (whole.1 = .error .invalidOption →
        begun = (.error .invalidOption, dos.machine) ∧ both = begun ∨
          begun.1 = .ok () ∧ ended = (.error .invalidOption, begun.2) ∧ both = ended) := by
  intro position whole begun ended both
  have consistent := reached.consistent (Session.consistent_initial monitor)
  have goesOn (done : begun.1 = .ok ()) : both = ended :=
    Attempt.bind_of_ok (fun _ => position second) (Prod.ext done rfl)
  have stops {fault : Fault} (failed : begun.1 = .error fault) : both = begun :=
    (Attempt.bind_of_error (fun _ => position second) (Prod.ext failed rfl)).trans
      (Prod.ext failed.symm rfl)
  rcases obtained : TextFile.openedOrLoaded peripherals name dos.machine with
    ⟨fault | buffer, between⟩
  · have unread (records : Nat) : position records dos.machine = (.error .ioError, between) :=
      TextFile.position_of_unread obtained records
    rw [stops (congrArg Prod.fst (unread first)), show whole = _ from unread (first + second),
      show begun = _ from unread first]
    exact ⟨Iff.rfl, nofun, nofun⟩
  have one : whole = _ := TextFile.position_of_obtained obtained (first + second)
  have two (addressable : (buffer.advanced first).place.IsAddressable) :
      begun.1 = .ok () ∧ ended = _ :=
    TextFile.position_position_of_obtained (TextFile.name_of_obtained consistent obtained) obtained
      addressable
  by_cases addressable : (buffer.advanced (first + second)).place.IsAddressable
  · obtain ⟨done, further⟩ := two (Buffer.isAddressable_advanced addressable)
    rw [if_pos addressable] at one further
    rw [goesOn done, one, further]
    exact ⟨Iff.rfl, fun _ => rfl, nofun⟩
  obtain rfl := TextFile.eq_of_beyond fits obtained addressable
  rw [if_neg addressable] at one
  -- The first step may be refused already; then the second is not tried.
  by_cases half : (buffer.advanced first).place.IsAddressable
  · obtain ⟨done, further⟩ := two half
    rw [if_neg addressable] at further
    rw [goesOn done, one, further]
    exact ⟨iff_of_false nofun nofun, nofun, fun _ => .inr ⟨done, rfl, rfl⟩⟩
  · have refused : begun = _ :=
      (TextFile.position_of_obtained obtained first).trans (if_neg half)
    rw [stops (congrArg Prod.fst refused), one, refused]
    exact ⟨iff_of_false nofun nofun, nofun, fun _ => .inl ⟨rfl, rfl⟩⟩

/-- Where records are three bytes long, a third of the largest word is as far as a pointer can be
moved on; one record more is refused, alone or behind it. -/
theorem Dos.position_add_largest :
    let start : Dos (Catalog Name Bytes) Unit := .initial .off .empty
    let peripherals := Peripherals.inMemory .empty .none
    let machine := ((Event.file (.openFile (ascii "F") 3)).run peripherals start).2.machine
    let third := 0x5555555555555555
    let position (records : Nat) := TextFile.position peripherals (ascii "F") records
    let moved := position third machine
    moved.1 = .ok () ∧ position 1 moved.2 = (.error .invalidOption, moved.2) ∧
      (position (third + 1) machine).1 = .error .invalidOption := by
  intro start peripherals machine third position moved
  have begun : start.Reaches peripherals (fun _ _ => True) start := .refl
  have opened := begun.step (.file (.openFile (ascii "F") 3)) trivial
  have refused : (position (third + 1) machine).1 = .error .invalidOption := by decide +kernel
  have fits : third + 1 < TextFile.offsetLimit := by decide
  have last : moved.1 = .ok () := by decide +kernel
  rcases (opened.position_add (ascii "F") fits).2.2 refused with ⟨first, -⟩ | ⟨done, second, -⟩
  · cases last.symm.trans (congrArg Prod.fst first)
  · exact ⟨done, second, refused⟩

end DosText
