import DosText.Command.Framing

/-! Printed text in pieces: characters outside commands, and whole commands. What a text is cut
into follows from the text alone, and there is one way to cut it. -/

namespace DosText

/-- A piece of printed text. -/
inductive Piece where
  /-- A character outside commands. -/
  | plain (byte : UInt8)
  /-- A whole command with this line. -/
  | command (line : Bytes)
  deriving DecidableEq, Repr

namespace Piece

/-- The text of a piece. -/
def text : Piece → Bytes
  | plain byte => [byte]
  | command line => controlD :: line ++ [carriageReturn]

/-- Whether a piece is no more and no less than what a text is cut into: Ctrl-D begins a command,
and the next carriage return ends it. -/
def IsWhole : Piece → Prop
  | plain byte => byte ≠ controlD
  | command line => carriageReturn ∉ line

end Piece

/-- The text of a command that has no end yet, if there is one. -/
def unendedText : Option Bytes → Bytes
  | none => []
  | some typed => controlD :: typed

/-- A way to cut a text into pieces and a command without an end. -/
structure Framing (text : Bytes) (pieces : List Piece) (unended : Option Bytes) : Prop where
  joined : text = pieces.flatMap Piece.text ++ unendedText unended
  whole : ∀ piece ∈ pieces, piece.IsWhole
  inside : ∀ typed, unended = some typed → carriageReturn ∉ typed

/-- The piece that ends with a printed byte, if one does. -/
def Printed.piece? : Printed → Option Piece
  | plain byte => some (.plain byte)
  | held => none
  | command line => some (.command line)

/-- The pieces that a text is cut into, and the command in it that has no end. -/
def framing (text : Bytes) : List Piece × Option Bytes :=
  let printed := Printed.ofBytes none text
  (printed.1.filterMap Printed.piece?, printed.2.map List.reverse)

namespace Framing

variable {text : Bytes} {pieces : List Piece} {unended : Option Bytes}

/-- A piece that stands before a text comes before the pieces of the text. -/
theorem cons {piece : Piece} (whole : piece.IsWhole) (framed : Framing text pieces unended) :
    Framing (piece.text ++ text) (piece :: pieces) unended where
  joined := by rw [List.flatMap_cons, List.append_assoc, ← framed.joined]
  whole := List.forall_mem_cons.mpr ⟨whole, framed.whole⟩
  inside := framed.inside

/-- What the bytes of a text turn out to be cuts the text, joined to what was typed before it. -/
theorem of_ofBytes (pending : Option Bytes) (text : Bytes)
    (inside : ∀ typed, pending = some typed → carriageReturn ∉ typed) :
    Framing (unendedText (pending.map List.reverse) ++ text)
      ((Printed.ofBytes pending text).1.filterMap Printed.piece?)
      ((Printed.ofBytes pending text).2.map List.reverse) := by
  induction text generalizing pending with
  | nil =>
    refine ⟨by simp [Printed.ofBytes], by simp [Printed.ofBytes], ?_⟩
    intro typed same
    obtain ⟨reversed, rfl, rfl⟩ := Option.map_eq_some_iff.mp same
    simpa using inside reversed rfl
  | cons byte rest ih =>
    cases pending with
    | none =>
      by_cases begins : byte = controlD
      · subst begins
        exact ih (some []) (by simp)
      · have framed := ih none (by simp)
        have here : Printed.ofByte none byte = (.plain byte, none) := by
          simp [Printed.ofByte, begins]
        rw [Printed.ofBytes, here]
        have whole : (Piece.plain byte).IsWhole := begins
        exact framed.cons whole
    | some typed =>
      have outside : carriageReturn ∉ typed := inside typed rfl
      by_cases ends : byte = carriageReturn
      · subst ends
        have framed := ih none (by simp)
        have here : Printed.ofByte (some typed) carriageReturn =
            (.command typed.reverse, none) := by simp [Printed.ofByte]
        have whole : (Piece.command typed.reverse).IsWhole := by
          simpa [Piece.IsWhole] using outside
        have cut := framed.cons whole
        rw [Printed.ofBytes, here]
        simpa [unendedText, Piece.text, Printed.piece?] using cut
      · have framed := ih (some (byte :: typed)) (by simp [Ne.symm ends, outside])
        have here : Printed.ofByte (some typed) byte = (.held, some (byte :: typed)) := by
          simp [Printed.ofByte, ends]
        rw [Printed.ofBytes, here]
        simpa [unendedText, Printed.piece?, List.filterMap_cons] using framed

end Framing

theorem framing_unendedText {unended : Option Bytes}
    (inside : ∀ typed, unended = some typed → carriageReturn ∉ typed) :
    framing (unendedText unended) = ([], unended) := by
  cases unended with
  | none => rfl
  | some typed =>
    have held := Printed.ofBytes_held [] typed fun byte member =>
      ne_of_mem_of_not_mem member (inside typed rfl)
    have begun : Printed.ofByte none controlD = (.held, some []) := by simp [Printed.ofByte]
    rw [framing, unendedText, Printed.ofBytes, begun]
    simp only [held]
    simp [Printed.piece?, List.filterMap_cons]

/-- A whole piece that stands before a text is cut off as that piece. -/
theorem framing_text_append {piece : Piece} (whole : piece.IsWhole) (rest : Bytes) :
    framing (piece.text ++ rest) = (piece :: (framing rest).1, (framing rest).2) := by
  cases piece with
  | plain byte =>
    have begins : byte ≠ controlD := whole
    have here : Printed.ofByte none byte = (.plain byte, none) := by
      simp [Printed.ofByte, begins]
    rw [Piece.text, List.singleton_append, framing, Printed.ofBytes, here]
    rfl
  | command line =>
    have held := Printed.ofBytes_held [] line fun byte member =>
      ne_of_mem_of_not_mem member whole
    have begun : Printed.ofByte none controlD = (.held, some []) := by simp [Printed.ofByte]
    have ended : Printed.ofByte (some line.reverse) carriageReturn = (.command line, none) := by
      simp [Printed.ofByte]
    rw [Piece.text, List.append_assoc, List.cons_append, framing, Printed.ofBytes, begun]
    simp only [Printed.ofBytes_append, held, List.append_nil, List.singleton_append,
      Printed.ofBytes, ended]
    simp [Printed.piece?, List.filterMap_cons, framing]

/-- There is one way to cut a text into whole pieces. -/
theorem framing_iff {text : Bytes} {pieces : List Piece} {unended : Option Bytes} :
    Framing text pieces unended ↔ pieces = (framing text).1 ∧ unended = (framing text).2 := by
  constructor
  · intro framed
    obtain ⟨rfl, whole, inside⟩ := framed
    induction pieces with
    | nil =>
      rw [List.flatMap_nil, List.nil_append, framing_unendedText inside]
      exact ⟨rfl, rfl⟩
    | cons piece rest ih =>
      obtain ⟨here, others⟩ := List.forall_mem_cons.mp whole
      obtain ⟨same, left⟩ := ih others
      rw [List.flatMap_cons, List.append_assoc, framing_text_append here, ← same, ← left]
      exact ⟨rfl, rfl⟩
  · rintro ⟨rfl, rfl⟩
    exact Framing.of_ofBytes none text nofun

theorem Framing.of_framing (text : Bytes) : Framing text (framing text).1 (framing text).2 :=
  framing_iff.mpr ⟨rfl, rfl⟩

end DosText
