import DosText.PackedBytes

/-! The running commentary of the library. Equal lines that follow one another are folded
into one line with a count, so the latest line is held until a different one arrives. -/

namespace DosText

namespace Log

/-- The part of the library that a line comes from. -/
inductive Source where
  | buffers
  | channel
  | commands
  | store
  | terminal
  | unlisted
  deriving DecidableEq, Repr

/-- How a source introduces its lines; an unlisted source does not. -/
def Source.label? : Source → Option Bytes
  | buffers => some (ascii "DOS buffers")
  | channel => some (ascii "DOS channel")
  | commands => some (ascii "DOS")
  | store => some (ascii "Store")
  | terminal => some (ascii "Terminal")
  | unlisted => none

/-- What stands before the text of a line. -/
def Source.heading (source : Source) : Bytes :=
  match source.label? with
  | some label => ascii "[" ++ label ++ ascii "] "
  | none => []

/-- Whether a line reports progress or a failure. -/
inductive Level where
  | info
  | error
  deriving DecidableEq, Repr

/-- A piece of the text of a line. -/
inductive Part where
  | text (bytes : Bytes)
  | number (value : Int)
  | textIf (condition : Bool) (bytes : Bytes)

/-- What a piece adds to the text; a text is shown up to its first NUL. -/
def Part.shown : Part → Bytes
  | text bytes => beforeNul bytes
  | number value => signedDecimal value
  | textIf condition bytes => if condition then beforeNul bytes else []

/-- One line of commentary. -/
structure Entry where
  source : Source
  level : Level
  text : Bytes
  deriving DecidableEq, Repr

/-- A line whose text is put together from pieces. -/
def Entry.ofParts (source : Source) (level : Level) (parts : List Part) : Entry :=
  ⟨source, level, parts.flatMap Part.shown⟩

def info (source : Source) (parts : List Part) : Entry := .ofParts source .info parts

def error (source : Source) (parts : List Part) : Entry := .ofParts source .error parts

/-- Progress of single characters is far too much to show; everything else is kept. -/
def Entry.isKept (entry : Entry) : Bool :=
  !(entry.source == .channel && entry.level == .info)

/-- Equal lines in succession. Progress and failure lines with one text count as equal. -/
structure Run where
  source : Source
  text : Bytes
  count : Nat
  deriving DecidableEq, Repr

/-- How a finished run is written; a line without text is not. -/
def Run.written (run : Run) : Bytes :=
  if run.text = [] then []
  else
    let repeats := if run.count > 1 then ascii " [* " ++ decimal run.count ++ ascii "]" else []
    run.source.heading ++ run.text ++ repeats ++ [lineFeed]

/-- Whether a line continues a run. -/
def Run.covers (run : Run) (entry : Entry) : Bool :=
  run.source == entry.source && run.text == entry.text

end Log

/-- The run still held, and all that has been written before it. -/
structure Log where
  held : Option Log.Run
  written : PackedBytes
  deriving DecidableEq, Repr

namespace Log

/-- The log before the first line. -/
def empty : Log := ⟨none, .empty⟩

/-- Takes note of one line: it joins the held run, or the held run is written and the line
starts the next one. -/
def record (log : Log) (entry : Entry) : Log :=
  if entry.isKept then
    match log.held with
    | none => { log with held := some ⟨entry.source, entry.text, 1⟩ }
    | some run =>
      if run.covers entry then { log with held := some { run with count := run.count + 1 } }
      else ⟨some ⟨entry.source, entry.text, 1⟩, log.written.append run.written⟩
  else log

/-- Takes note of lines in turn. -/
def recordAll (log : Log) (entries : List Entry) : Log := entries.foldl record log

/-- Hands over what has been written so far; the held run stays. -/
def drain (log : Log) : Bytes × Log := (log.written.toBytes, { log with written := .empty })

theorem record_dropped (log : Log) (entry : Entry) (dropped : entry.isKept = false) :
    log.record entry = log := by
  simp [record, dropped]

@[simp] theorem recordAll_nil (log : Log) : log.recordAll [] = log := rfl

@[simp] theorem recordAll_cons (log : Log) (entry : Entry) (rest : List Entry) :
    log.recordAll (entry :: rest) = (log.record entry).recordAll rest := rfl

theorem recordAll_append (log : Log) (first second : List Entry) :
    log.recordAll (first ++ second) = (log.recordAll first).recordAll second := by
  simp [recordAll, List.foldl_append]

/-- Draining between lines changes nothing but where the written text is kept. -/
theorem record_written (log : Log) (entry : Entry) :
    (log.record entry).written.toBytes =
      log.written.toBytes ++ (log.drain.2.record entry).written.toBytes := by
  unfold record drain
  split
  · split <;> simp_all
    split <;> simp
  · simp

end Log

end DosText
