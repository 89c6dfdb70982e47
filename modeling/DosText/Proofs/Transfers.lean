import DosText.TextFile
import DosText.Proofs.Calls

/-! How files come from the store and the source and go back to the store: for each step that the
operations on text files are made of, the calls that it can make, the outcomes that these lead to
and the session that it leaves. -/

namespace DosText.TextFile

open Peripherals (Call)

/-- The ways in which the content of a name is loaded. -/
inductive Loads (name : Name) : List Call → Except Fault (Option Bytes) → Prop where
  | stored (content : Bytes) : Loads name [.get name (.ok (some content))] (.ok (some content))
  | absent : Loads name [.get name (.ok none), .fetch name (.ok none)] (.ok none)
  | seeded (content : Bytes) : Loads name
    [.get name (.ok none), .fetch name (.ok (some content)), .set name content (.ok ())]
    (.ok (some content))
  | unread (failure : Storage.Failure) : Loads name [.get name (.error failure)] (.error .ioError)
  | unfetched (failure : Storage.Failure) :
    Loads name [.get name (.ok none), .fetch name (.error failure)] (.error .ioError)
  | unstored (content : Bytes) (failure : Storage.Failure) : Loads name
    [.get name (.ok none), .fetch name (.ok (some content)), .set name content (.error failure)]
    (.error .ioError)

/-- The ways in which an open file is stored. -/
inductive Flushes (buffer : Buffer) : List Call → Except Fault Unit → Prop where
  | empty (none : buffer.content = none) : Flushes buffer [] (.ok ())
  | stored {content : PackedBytes} (some : buffer.content = some content) :
    Flushes buffer [.set buffer.name content.toBytes (.ok ())] (.ok ())
  | refused {content : PackedBytes} (some : buffer.content = some content)
    (failure : Storage.Failure) :
    Flushes buffer [.set buffer.name content.toBytes (.error failure)] (.error .ioError)

/-- The ways in which open files are stored in turn, up to the first that cannot be. -/
inductive FlushesAll : List Buffer → List Call → Except Fault Unit → Prop where
  | nil : FlushesAll [] [] (.ok ())
  | cons {buffer : Buffer} {rest : List Buffer} {first later : List Call}
    {outcome : Except Fault Unit} (flushed : Flushes buffer first (.ok ()))
    (others : FlushesAll rest later outcome) : FlushesAll (buffer :: rest) (first ++ later) outcome
  | refused {buffer : Buffer} {rest : List Buffer} {calls : List Call} {fault : Fault}
    (failed : Flushes buffer calls (.error fault)) :
    FlushesAll (buffer :: rest) calls (.error fault)

/-- The ways in which the system finds the content of a name. -/
inductive Finds (session : Session) (name : Name) :
    List Call → Except Fault (Option Bytes) → Prop where
  | opened {buffer : Buffer} (found : session.buffers.find? name = some buffer) :
    Finds session name [] (.ok (buffer.content.map PackedBytes.toBytes))
  | loaded {calls : List Call} {outcome : Except Fault (Option Bytes)}
    (closed : session.buffers.find? name = none) (loads : Loads name calls outcome) :
    Finds session name calls outcome

/-- The ways in which a file is opened with some content. -/
inductive Installs (session : Session) (name : Name) (recordLength : Nat)
    (content : Option Bytes) : List Call → Except Fault Buffer → Session → Prop where
  | fresh (closed : session.buffers.find? name = none) :
    Installs session name recordLength content [] (.ok (.opened name recordLength content))
      (session.keep (.opened name recordLength content))
  | replaced {existing : Buffer} {calls : List Call}
    (found : session.buffers.find? name = some existing)
    (flushed : Flushes existing calls (.ok ())) :
    Installs session name recordLength content calls (.ok (.opened name recordLength content))
      ((session.discard name).keep (.opened name recordLength content))
  | refused {existing : Buffer} {calls : List Call} {fault : Fault}
    (found : session.buffers.find? name = some existing)
    (failed : Flushes existing calls (.error fault)) :
    Installs session name recordLength content calls (.error fault) session

/-- The ways in which an open file is got hold of, or opened for that. -/
inductive Obtains (session : Session) (name : Name) :
    List Call → Except Fault Buffer → Session → Prop where
  | opened {buffer : Buffer} (found : session.buffers.find? name = some buffer) :
    Obtains session name [] (.ok buffer) session
  | loaded {calls : List Call} {content : Option Bytes}
    (closed : session.buffers.find? name = none) (loads : Loads name calls (.ok content)) :
    Obtains session name calls (.ok (.opened name 0 content))
      (session.keep (.opened name 0 content))
  | unread {calls : List Call} {fault : Fault}
    (closed : session.buffers.find? name = none) (loads : Loads name calls (.error fault)) :
    Obtains session name calls (.error fault) session

/-- The ways in which a file with content is got hold of, or opened for that. -/
inductive Readies (session : Session) (name : Name) :
    List Call → Except Fault Buffer → Session → Prop where
  | opened {buffer : Buffer} (found : session.buffers.find? name = some buffer)
    (some : buffer.content.isSome = true) : Readies session name [] (.ok buffer) session
  | empty {buffer : Buffer} (found : session.buffers.find? name = some buffer)
    (none : buffer.content = none) : Readies session name [] (.error .fileNotFound) session
  | loaded {calls : List Call} {content : Bytes} (closed : session.buffers.find? name = none)
    (loads : Loads name calls (.ok (some content))) :
    Readies session name calls (.ok (.opened name 0 (some content)))
      (session.keep (.opened name 0 (some content)))
  | absent {calls : List Call} (closed : session.buffers.find? name = none)
    (loads : Loads name calls (.ok none)) :
    Readies session name calls (.error .fileNotFound) session
  | unread {calls : List Call} {fault : Fault} (closed : session.buffers.find? name = none)
    (loads : Loads name calls (.error fault)) : Readies session name calls (.error fault) session

/-- The ways in which an open file comes by a content that can be written to. -/
inductive Creates (buffer : Buffer) : List Call → Except Fault PackedBytes → Prop where
  | kept {content : PackedBytes} (some : buffer.content = some content) :
    Creates buffer [] (.ok content)
  | created (none : buffer.content = none) :
    Creates buffer [.set buffer.name [] (.ok ())] (.ok .empty)
  | refused (none : buffer.content = none) (failure : Storage.Failure) :
    Creates buffer [.set buffer.name [] (.error failure)] (.error .ioError)

variable {Devices : Type} {peripherals : Peripherals Devices}
variable {start machine : Machine Devices} {before : List Call} {session : Session}

theorem ensures_find?_bind {Value : Type} {name : Name}
    {next : Option Buffer → Action Devices Value}
    {condition : Except Fault Value → Machine Devices → Prop} :
    (find? name >>= next).Ensures machine condition ↔
      (next (machine.session.buffers.find? name)).Ensures machine condition := Iff.rfl

theorem load_loads (moved : start.Moves peripherals before session machine) (name : Name) :
    (load peripherals name).Ensures machine fun outcome later =>
      ∃ calls, Loads name calls outcome ∧
        start.Moves peripherals (before ++ calls) session later := by
  simp only [load]
  refine moved.demand_bind (.get name) ⟨rfl, rfl⟩ ?_ ?_
  · intro stored? asked got
    cases stored? with
    | some content => exact ⟨_, .stored content, got⟩
    | none =>
      refine got.demand_bind (.fetch name) ⟨rfl, rfl⟩ ?_ ?_
      · intro first? told fetched
        rw [List.append_assoc] at fetched
        cases first? with
        | none => exact ⟨_, .absent, fetched⟩
        | some content =>
          refine fetched.demand_bind (.set name content) ⟨rfl, rfl⟩ ?_ ?_
          · intro done kept set
            rw [List.append_assoc] at set
            exact ⟨_, .seeded content, set⟩
          · intro failure kept set
            rw [List.append_assoc] at set
            exact ⟨_, .unstored content failure, set⟩
      · intro failure told fetched
        rw [List.append_assoc] at fetched
        exact ⟨_, .unfetched failure, fetched⟩
  · intro failure asked got
    exact ⟨_, .unread failure, got⟩

theorem flush_flushes (moved : start.Moves peripherals before session machine) (buffer : Buffer) :
    (flush peripherals buffer).Ensures machine fun outcome later =>
      ∃ calls, Flushes buffer calls outcome ∧
        start.Moves peripherals (before ++ calls) session later := by
  unfold flush
  cases content? : buffer.content with
  | none => exact ⟨[], .empty content?, moved.still⟩
  | some content =>
    refine (moved.demand _ _ (.set buffer.name content.toBytes) ⟨rfl, rfl⟩).mono ?_
    intro outcome later ensured
    rcases ensured with ⟨done, rfl, set⟩ | ⟨failure, rfl, set⟩
    · exact ⟨_, .stored content?, set⟩
    · exact ⟨_, .refused content? failure, set⟩

theorem flushAll_flushesAll (moved : start.Moves peripherals before session machine)
    (buffers : List Buffer) :
    (flushAll peripherals buffers).Ensures machine fun outcome later =>
      ∃ calls, FlushesAll buffers calls outcome ∧
        start.Moves peripherals (before ++ calls) session later := by
  induction buffers generalizing machine before with
  | nil => exact ⟨[], .nil, moved.still⟩
  | cons buffer rest ih =>
    unfold flushAll
    refine (flush_flushes moved buffer).bind ?_ ?_
    · intro done later ensured
      obtain ⟨first, flushed, kept⟩ := ensured
      refine (ih kept).mono ?_
      intro outcome last ensured
      obtain ⟨others, flushedAll, stored⟩ := ensured
      rw [List.append_assoc] at stored
      exact ⟨_, .cons flushed flushedAll, stored⟩
    · intro fault later ensured
      obtain ⟨calls, failed, kept⟩ := ensured
      exact ⟨calls, .refused failed, kept⟩

theorem contentOf_finds (moved : start.Moves peripherals before session machine) (name : Name) :
    (contentOf peripherals name).Ensures machine fun outcome later =>
      ∃ calls, Finds session name calls outcome ∧
        start.Moves peripherals (before ++ calls) session later := by
  unfold contentOf
  rw [ensures_find?_bind, moved.session]
  cases found : session.buffers.find? name with
  | some buffer => exact ⟨[], .opened found, moved.still⟩
  | none =>
    refine (load_loads moved name).mono ?_
    intro outcome later ensured
    obtain ⟨calls, loads, kept⟩ := ensured
    exact ⟨calls, .loaded found loads, kept⟩

theorem install_fresh (moved : start.Moves peripherals before session machine) {name : Name}
    (closed : session.buffers.find? name = none) (recordLength : Nat) (content : Option Bytes) :
    (install peripherals name recordLength content).Ensures machine fun outcome later =>
      outcome = .ok (.opened name recordLength content) ∧
        start.Moves peripherals before (session.keep (.opened name recordLength content))
          later := by
  unfold install
  rw [ensures_find?_bind, moved.session, closed]
  exact ⟨rfl, (moved.change (·.keep _)).noted _⟩

theorem install_installs (moved : start.Moves peripherals before session machine) (name : Name)
    (recordLength : Nat) (content : Option Bytes) :
    (install peripherals name recordLength content).Ensures machine fun outcome later =>
      ∃ calls after, Installs session name recordLength content calls outcome after ∧
        start.Moves peripherals (before ++ calls) after later := by
  cases found : session.buffers.find? name with
  | none =>
    refine (install_fresh moved found recordLength content).mono ?_
    intro outcome later ensured
    obtain ⟨rfl, opened⟩ := ensured
    exact ⟨[], _, .fresh found, opened.still⟩
  | some existing =>
    unfold install
    rw [ensures_find?_bind, moved.session, found]
    refine (flush_flushes moved existing).bind ?_ ?_
    · intro done later ensured
      obtain ⟨calls, flushed, kept⟩ := ensured
      have opened := (kept.change (·.discard name)).change
        (·.keep (.opened name recordLength content))
      exact ⟨calls, _, .replaced found flushed, opened.noted _⟩
    · intro fault later ensured
      obtain ⟨calls, failed, kept⟩ := ensured
      exact ⟨calls, _, .refused found failed, kept⟩

theorem openedOrLoaded_obtains (moved : start.Moves peripherals before session machine)
    (name : Name) :
    (openedOrLoaded peripherals name).Ensures machine fun outcome later =>
      ∃ calls after, Obtains session name calls outcome after ∧
        start.Moves peripherals (before ++ calls) after later := by
  unfold openedOrLoaded
  rw [ensures_find?_bind, moved.session]
  cases found : session.buffers.find? name with
  | some buffer => exact ⟨[], _, .opened found, moved.still⟩
  | none =>
    refine (load_loads moved name).bind ?_ ?_
    · intro content later ensured
      obtain ⟨calls, loads, kept⟩ := ensured
      refine (install_fresh kept found 0 content).mono ?_
      intro outcome last ensured
      obtain ⟨rfl, opened⟩ := ensured
      exact ⟨calls, _, .loaded found loads, opened⟩
    · intro fault later ensured
      obtain ⟨calls, loads, kept⟩ := ensured
      exact ⟨calls, _, .unread found loads, kept⟩

theorem openedForReading_readies (moved : start.Moves peripherals before session machine)
    (name : Name) :
    (openedForReading peripherals name).Ensures machine fun outcome later =>
      ∃ calls after, Readies session name calls outcome after ∧
        start.Moves peripherals (before ++ calls) after later := by
  unfold openedForReading
  rw [ensures_find?_bind, moved.session]
  cases found : session.buffers.find? name with
  | some buffer =>
    cases content? : buffer.content with
    | none =>
      simp only [content?]
      exact ⟨[], _, .empty found content?, moved.still⟩
    | some content =>
      simp only [content?]
      exact ⟨[], _, .opened found (by simp [content?]), moved.still⟩
  | none =>
    refine (load_loads moved name).bind ?_ ?_
    · intro content later ensured
      obtain ⟨calls, loads, kept⟩ := ensured
      cases content with
      | none => exact ⟨calls, _, .absent found loads, kept⟩
      | some content =>
        refine (install_fresh kept found 0 (some content)).mono ?_
        intro outcome last ensured
        obtain ⟨rfl, opened⟩ := ensured
        exact ⟨calls, _, .loaded found loads, opened⟩
    · intro fault later ensured
      obtain ⟨calls, loads, kept⟩ := ensured
      exact ⟨calls, _, .unread found loads, kept⟩

theorem create_creates (moved : start.Moves peripherals before session machine)
    (buffer : Buffer) :
    (create peripherals buffer).Ensures machine fun outcome later =>
      ∃ calls, Creates buffer calls outcome ∧
        start.Moves peripherals (before ++ calls) session later := by
  unfold create
  cases content? : buffer.content with
  | some content => exact ⟨[], .kept content?, moved.still⟩
  | none =>
    refine moved.demand_bind (.set buffer.name []) ⟨rfl, rfl⟩ ?_ ?_
    · intro done later set
      exact ⟨_, .created content?, set.noted _⟩
    · intro failure later set
      exact ⟨_, .refused content? failure, set⟩

end DosText.TextFile
