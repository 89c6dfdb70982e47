import DosText.Buffer
import DosText.Catalog
import DosText.Monitor

/-! The state of one running system: the open files, the one that input or output is
redirected to, what is traced, and the command being typed. -/

namespace DosText

/-- Which traffic of the terminal is redirected. -/
inductive Mode where
  | none
  | read
  | write
  deriving DecidableEq, Repr

/-- A pointer at an open file. When the file is discarded it dangles, and it goes on to dangle
when another file of that name is opened. -/
inductive Pointer where
  | file (name : Name)
  | dangling
  deriving DecidableEq, Repr

/-- Whether, and to which open file, terminal input or output is redirected. -/
inductive Redirection where
  | idle
  | reading (name : Name)
  | writing (name : Name)
  deriving DecidableEq, Repr

/-- The open file that a redirection concerns. -/
def Redirection.active? : Redirection → Option Name
  | idle => none
  | reading name => some name
  | writing name => some name

/-- The state of one running system. -/
structure Session where
  /-- The open files, each under its name. -/
  buffers : Catalog Name Buffer
  /-- The open file that input or output is redirected to. -/
  active : Option Pointer
  mode : Mode
  monitor : Monitor
  /-- Whether a command is being typed. -/
  commandMode : Bool
  /-- What has been typed of the command, its latest byte first. -/
  command : Bytes

namespace Session

/-- Nothing open, nothing redirected, no command begun. -/
def initial (monitor : Monitor) : Session := ⟨.empty, none, .none, monitor, false, []⟩

/-- The redirection that mode and active file amount to; a pointer that dangles leads to none. -/
def redirection (session : Session) : Redirection :=
  match session.mode, session.active with
  | .read, some (.file name) => .reading name
  | .write, some (.file name) => .writing name
  | _, _ => .idle

/-- The command being typed, its latest byte first; there is none outside a command. -/
def pending (session : Session) : Option Bytes :=
  if session.commandMode then some session.command else none

/-- The command being typed, as far as it is typed. -/
def command? (session : Session) : Option Bytes := session.pending.map List.reverse

/-- What has been typed of a command, as far as it is typed. -/
def accumulator (session : Session) : Bytes := session.command.reverse

/-- The session at which this much of a command is typed, its latest byte first; if there is none,
no command has begun. -/
def typing (session : Session) (pending : Option Bytes) : Session :=
  { session with commandMode := pending.isSome, command := pending.getD [] }

/-- Ends a redirection; the file stays open. -/
def deactivate (session : Session) : Session := { session with active := none, mode := .none }

/-- Begins a redirection to an open file. -/
def activate (session : Session) (mode : Mode) (name : Name) : Session :=
  { session with active := some (.file name), mode }

/-- The file that input or output in a mode relies on: it is active in this mode, it is open and
it has content. -/
def relied? (session : Session) (mode : Mode) : Option Name :=
  match session.active with
  | some (.file name) =>
    if session.mode = mode ∧
        ((session.buffers.find? name).bind Buffer.content).isSome = true then some name
    else none
  | _ => none

/-- Ends a redirection that concerns a file. -/
def release (session : Session) (name : Name) : Session :=
  if session.active = some (.file name) then session.deactivate else session

/-- Puts a file in place of the open file of its name, or opens it. -/
def keep (session : Session) (buffer : Buffer) : Session :=
  { session with buffers := session.buffers.insert buffer.name buffer }

/-- Takes a file from the open ones. A pointer at it dangles from then on. -/
def erase (session : Session) (name : Name) : Session :=
  { session with
    buffers := session.buffers.erase name
    active := if session.active = some (.file name) then some .dangling else session.active }

/-- Discards an open file without writing it anywhere, and any redirection to it. -/
def discard (session : Session) (name : Name) : Session := (session.release name).erase name

/-- Takes all files from the open ones. A pointer at one of them dangles from then on. -/
def clear (session : Session) : Session :=
  { session with
    buffers := .empty
    active := session.active.map fun _ => .dangling }

/-- Discards everything: the open files without writing them anywhere, any redirection, what is
traced and what is typed of a command. -/
def reset (session : Session) : Session :=
  { session.clear.deactivate with
    monitor := .off
    commandMode := false
    command := [] }

/-- Nothing is typed of a command outside one. -/
def TypesInside (session : Session) : Prop :=
  session.commandMode = false → session.command = []

/-- What every operation may rely on: files are listed under their own names, their records lie
apart, a redirection concerns an open file that has content, and nothing is typed of a command
outside one. -/
structure Consistent (session : Session) : Prop where
  named : ∀ name buffer, session.buffers.find? name = some buffer → buffer.name = name
  apart : ∀ name buffer, session.buffers.find? name = some buffer → 0 < buffer.recordLength
  idle : session.mode = .none ↔ session.active = none
  points : ∀ pointer, session.active = some pointer → ∃ name buffer, pointer = .file name ∧
    session.buffers.find? name = some buffer ∧ buffer.content.isSome = true
  typed : session.TypesInside

/-- No command has begun, and nothing is left of one. -/
structure BetweenCommands (session : Session) : Prop where
  outside : session.commandMode = false
  empty : session.command = []

theorem Consistent.betweenCommands {session : Session} (consistent : session.Consistent)
    (outside : session.commandMode = false) : session.BetweenCommands :=
  ⟨outside, consistent.typed outside⟩

theorem betweenCommands_typing (session : Session) : (session.typing none).BetweenCommands :=
  ⟨rfl, rfl⟩

theorem BetweenCommands.typing_none {session : Session} (between : session.BetweenCommands) :
    session.typing none = session := by
  obtain ⟨outside, empty⟩ := between
  cases session
  cases outside
  cases empty
  rfl

theorem pending_eq_none_iff {session : Session} :
    session.pending = none ↔ session.commandMode = false := by
  simp [pending]

theorem pending_eq_some_iff {session : Session} {typed : Bytes} :
    session.pending = some typed ↔ session.commandMode = true ∧ session.command = typed := by
  simp [pending]

theorem typesInside_typing (session : Session) (pending : Option Bytes) :
    (session.typing pending).TypesInside := by
  cases pending with
  | none => exact fun _ => rfl
  | some typed => nofun

@[simp] theorem pending_typing (session : Session) (pending : Option Bytes) :
    (session.typing pending).pending = pending := by
  cases pending <;> rfl

/-- Resetting leaves the session as it was at first, with nothing traced. -/
theorem reset_eq (session : Session) : session.reset = initial .off := rfl

@[simp] theorem redirection_deactivate (session : Session) :
    session.deactivate.redirection = .idle := rfl

/-- Input comes from a file exactly if that file is active and is being read. -/
theorem redirection_eq_reading_iff {session : Session} {name : Name} :
    session.redirection = .reading name ↔
      session.mode = .read ∧ session.active = some (.file name) := by
  unfold redirection
  split <;> simp_all

/-- Output goes to a file exactly if that file is active and is being written. -/
theorem redirection_eq_writing_iff {session : Session} {name : Name} :
    session.redirection = .writing name ↔
      session.mode = .write ∧ session.active = some (.file name) := by
  unfold redirection
  split <;> simp_all

/-- The file that a redirection concerns is the active one. -/
theorem active_of_active? {session : Session} {name : Name}
    (redirected : session.redirection.active? = some name) :
    session.active = some (.file name) := by
  unfold redirection at redirected
  split at redirected
  · cases redirected
    assumption
  · cases redirected
    assumption
  · cases redirected

theorem relied?_eq_some_iff {session : Session} {mode : Mode} {name : Name} :
    session.relied? mode = some name ↔
      session.mode = mode ∧ session.active = some (.file name) ∧
        ((session.buffers.find? name).bind Buffer.content).isSome = true := by
  unfold relied?
  cases session.active with
  | none => simp
  | some pointer =>
    cases pointer with
    | dangling => simp
    | file other =>
      simp only [Option.ite_none_right_eq_some, Option.some.injEq, Pointer.file.injEq]
      constructor
      · rintro ⟨⟨same, content⟩, rfl⟩
        exact ⟨same, rfl, content⟩
      · rintro ⟨same, rfl, content⟩
        exact ⟨⟨same, content⟩, rfl⟩

theorem redirection_of_relied?_read {session : Session} {name : Name}
    (relied : session.relied? .read = some name) : session.redirection = .reading name := by
  obtain ⟨mode, active, _⟩ := relied?_eq_some_iff.mp relied
  exact redirection_eq_reading_iff.mpr ⟨mode, active⟩

/-- Input and output rely on the file that they are redirected to, where it has content. -/
theorem relied?_of_reading {session : Session} {name : Name} {buffer : Buffer}
    (redirected : session.redirection = .reading name)
    (found : session.buffers.find? name = some buffer) (content : buffer.content.isSome = true) :
    session.relied? .read = some name := by
  obtain ⟨mode, active⟩ := redirection_eq_reading_iff.mp redirected
  refine relied?_eq_some_iff.mpr ⟨mode, active, ?_⟩
  rw [found]
  exact content

theorem relied?_of_writing {session : Session} {name : Name} {buffer : Buffer}
    (redirected : session.redirection = .writing name)
    (found : session.buffers.find? name = some buffer) (content : buffer.content.isSome = true) :
    session.relied? .write = some name := by
  obtain ⟨mode, active⟩ := redirection_eq_writing_iff.mp redirected
  refine relied?_eq_some_iff.mpr ⟨mode, active, ?_⟩
  rw [found]
  exact content

theorem find?_keep (session : Session) (buffer : Buffer) (name : Name) :
    (session.keep buffer).buffers.find? name =
      if name = buffer.name then some buffer else session.buffers.find? name :=
  Catalog.find?_insert session.buffers buffer.name name buffer

theorem find?_keep_self (session : Session) (buffer : Buffer) :
    (session.keep buffer).buffers.find? buffer.name = some buffer := by
  rw [find?_keep, if_pos rfl]

/-- Of two files of one name the later stays. -/
theorem keep_keep (session : Session) {first second : Buffer} (same : second.name = first.name) :
    (session.keep first).keep second = session.keep second := by
  simp only [keep, same, Catalog.insert_insert]

theorem keep_of_find? {session : Session} {buffer : Buffer}
    (found : session.buffers.find? buffer.name = some buffer) : session.keep buffer = session := by
  rw [keep, Catalog.insert_of_find? found]

@[simp] theorem buffers_release (session : Session) (name : Name) :
    (session.release name).buffers = session.buffers := by
  unfold release
  split <;> rfl

theorem active_release_ne (session : Session) (name : Name) :
    (session.release name).active ≠ some (.file name) := by
  unfold release
  split
  · nofun
  · assumption

/-- A redirection that is ended in time leaves no pointer that dangles. -/
theorem discard_eq (session : Session) (name : Name) :
    session.discard name =
      { session.release name with buffers := session.buffers.erase name } := by
  rw [discard, erase, if_neg (session.active_release_ne name), buffers_release]

@[simp] theorem buffers_discard (session : Session) (name : Name) :
    (session.discard name).buffers = session.buffers.erase name := by
  rw [discard_eq]

/-- No pointer at a discarded file is left. -/
theorem active_discard_ne (session : Session) (name : Name) :
    (session.discard name).active ≠ some (.file name) := by
  rw [discard_eq]
  exact session.active_release_ne name

theorem find?_discard (session : Session) (discarded name : Name) :
    (session.discard discarded).buffers.find? name =
      if name = discarded then none else session.buffers.find? name := by
  rw [buffers_discard]
  exact Catalog.find?_erase session.buffers discarded name

/-- A file that is listed is found, where files are listed under their own names. -/
theorem find?_of_listed {buffers : Catalog Name Buffer} {buffer : Buffer}
    (named : ∀ name buffer, buffers.find? name = some buffer → buffer.name = name)
    (listed : buffer ∈ buffers.entries.map Prod.snd) :
    buffers.find? buffer.name = some buffer := by
  obtain ⟨⟨key, value⟩, entry, rfl⟩ := List.mem_map.mp listed
  have found := (Catalog.find?_eq_some_iff buffers key value).mpr entry
  rw [named key value found]
  exact found

/-- Discarding a file does not end a redirection that concerns another. -/
theorem redirection_discard_of_ne {session : Session} {name : Name}
    (inactive : session.redirection.active? ≠ some name) :
    (session.discard name).redirection = session.redirection := by
  rw [discard_eq]
  show (session.release name).redirection = session.redirection
  unfold release
  split
  · next active =>
    rw [redirection_deactivate]
    unfold redirection at inactive ⊢
    rw [active] at inactive ⊢
    cases mode : session.mode with
    | none => rfl
    | read => exact absurd (by rw [mode]; rfl) inactive
    | write => exact absurd (by rw [mode]; rfl) inactive
  · rfl

theorem consistent_initial (monitor : Monitor) : (initial monitor).Consistent where
  named := by simp [initial]
  apart := by simp [initial]
  idle := by simp [initial]
  points := by simp [initial]
  typed := fun _ => rfl

end Session

end DosText
