import DosText.Proofs.InMemory
import DosText.Proofs.Inquiries
import DosText.Proofs.Respects

/-! What a program is given whose receivers only take note of it. What comes from a file is taken
from it when it is asked for, and delivered when the queue is performed, in the order in which it
was asked for. -/

namespace DosText

namespace Application

open Attempt (Ensures Respects)

variable {Devices Aside : Type} {peripherals : Peripherals Devices}
variable {aside : Aside → Attempt Failure (Machine Devices) Unit}
variable {stage later : Stage Devices Aside}

/-- The stage on which nothing has happened. -/
def Stage.initial (monitor : Monitor) (devices : Devices) : Stage Devices Aside :=
  ⟨.initial monitor devices, []⟩

/-- A delivery as it is noted when it arrives. -/
def entryOf (delivery : Delivery (Receiver Aside)) : Bytes × Item :=
  (delivery.receiver.label, delivery.item)

/-- What a program will hear of when the queue is performed. -/
def Stage.queued (stage : Stage Devices Aside) : List (Bytes × Item) :=
  stage.dos.deliveries.map entryOf

/-- An item that a program gets when it asks: where it comes from, and who asked. -/
structure Answer where
  origin : Origin
  label : Bytes
  item : Item
  deriving DecidableEq, Repr

/-- An answer as it is noted when it arrives. -/
def Answer.entry (answer : Answer) : Bytes × Item := (answer.label, answer.item)

/-- What an inquiry finds, as an answer to who asked. -/
def answersTo (console : Console Devices) (machine : Machine Devices) (label : Bytes)
    (inquiry : Inquiry) : List Answer :=
  match inquiry.finds console machine with
  | none => []
  | some (origin, item) => [⟨origin, label, item⟩]

/-- What is found when characters are asked for one after the other, until nothing is found. -/
def characterAnswers (peripherals : Peripherals Devices) (receiver : Receiver Aside) :
    Nat → Dos Devices (Receiver Aside) → List Answer
  | 0, _ => []
  | count + 1, dos =>
    match answersTo peripherals.console dos.machine receiver.label .character with
    | [] => []
    | answer :: _ => answer ::
      characterAnswers peripherals receiver count (Dos.readCharacter peripherals receiver dos).2

namespace Request

/-- What is found for a request when it is made. -/
def answers (peripherals : Peripherals Devices) (dos : Dos Devices (Receiver Aside)) :
    Request Aside → List Answer
  | .characters count label response => characterAnswers peripherals ⟨label, response⟩ count dos
  | .line prompt label _ => answersTo peripherals.console dos.machine label (.line prompt)
  | _ => []

/-- Whether the receivers of a request only take note of what they are given. Only they note
anything. -/
def Records : Request Aside → Prop
  | .characters _ _ response => response = []
  | .line _ _ response => response = []
  | .hear _ _ => False
  | _ => True

/-- Whether a request has the queue performed. -/
def Performs : Request Aside → Prop
  | .perform | .flush => True
  | _ => False

/-- Whether a request asks for one item. -/
def AsksOnce : Request Aside → Prop
  | .characters count _ _ => count = 1
  | .line _ _ _ => True
  | _ => False

end Request

/-- Whether everyone who waits only takes note of what is delivered. -/
def Stage.Recording (stage : Stage Devices Aside) : Prop :=
  ∀ delivery ∈ stage.dos.enqueued, delivery.receiver.response = []

/-- A request has ended because nothing was left to be found; in a session that is consistent the
data has ended. -/
def Stage.Ends (stage : Stage Devices Aside) (outcome : Except Failure Unit) : Prop :=
  ∃ fault, outcome = .error (.fault fault) ∧
    (stage.dos.machine.session.Consistent → fault = .endOfData)

/-- A stage has received answers: those that were due at once were heard of, and the others wait
behind what was waiting. -/
structure Stage.Receives (console : Console Devices) (before : Stage Devices Aside)
    (answers : List Answer) (after : Stage Devices Aside) : Prop where
  heard : after.heard = before.heard ++
    (answers.filter (console.atOnce ·.origin)).map Answer.entry
  queued : after.queued = before.queued ++
    (answers.filter (!console.atOnce ·.origin)).map Answer.entry
  recording : before.Recording → after.Recording

section Answers

variable {console : Console Devices} {machine : Machine Devices} {inquiry : Inquiry}

theorem answersTo_of_none (nothing : inquiry.finds console machine = none) (label : Bytes) :
    answersTo console machine label inquiry = [] := by
  rw [answersTo, nothing]

theorem answersTo_of_some {origin : Origin} {item : Item}
    (found : inquiry.finds console machine = some (origin, item)) (label : Bytes) :
    answersTo console machine label inquiry = [⟨origin, label, item⟩] := by
  rw [answersTo, found]

section Reading

variable {name : Name} {answer : Answer} {dos : Dos Devices (Receiver Aside)}

theorem origin_of_answersTo (redirected : machine.session.redirection = .reading name)
    {label : Bytes} (found : answer ∈ answersTo console machine label inquiry) :
    answer.origin = .file := by
  have mode := (Session.redirection_eq_reading_iff.mp redirected).1
  unfold answersTo Inquiry.finds Session.input? at found
  rw [if_pos mode] at found
  simp only at found
  cases first : inquiry.first? ((machine.session.relied? .read).elim [] machine.session.remaining)
    with
  | none =>
    rw [first] at found
    cases found
  | some item =>
    rw [first] at found
    rw [List.mem_singleton.mp found]

/-- A character that is read leaves input redirected. -/
theorem redirection_readCharacter (redirected : dos.machine.session.redirection = .reading name)
    (receiver : Receiver Aside) :
    (Dos.readCharacter peripherals receiver dos).2.machine.session.redirection = .reading name := by
  have mode := (Session.redirection_eq_reading_iff.mp redirected).1
  cases relied : dos.machine.session.relied? .read with
  | none =>
    rw [readCharacter_of_fault mode (readActiveCharacter_of_unmet relied)]
    exact redirected
  | some file =>
    cases read : (dos.machine.session.buffers.find? file).bind Buffer.readByte with
    | none =>
      rw [readCharacter_of_ended relied read]
      exact redirected
    | some passed =>
      rw [readCharacter_of_read relied read]
      exact redirected

theorem origin_of_characterAnswers {receiver : Receiver Aside} {count : Nat}
    (redirected : dos.machine.session.redirection = .reading name)
    (found : answer ∈ characterAnswers peripherals receiver count dos) :
    answer.origin = .file := by
  induction count generalizing dos with
  | zero => cases found
  | succ count ih =>
    unfold characterAnswers at found
    cases answered : answersTo peripherals.console dos.machine receiver.label .character with
    | nil =>
      rw [answered] at found
      cases found
    | cons first rest =>
      rw [answered] at found
      rcases List.mem_cons.mp found with same | later
      · have member : answer ∈ first :: rest := List.mem_cons.mpr (.inl same)
        rw [← answered] at member
        exact origin_of_answersTo redirected member
      · exact ih (redirection_readCharacter redirected receiver) later

/-- While a file is read, all that is found comes from it. -/
theorem origin_of_reading (redirected : dos.machine.session.redirection = .reading name)
    {request : Request Aside} (found : answer ∈ request.answers peripherals dos) :
    answer.origin = .file := by
  cases request with
  | characters count label response => exact origin_of_characterAnswers redirected found
  | line prompt label response => exact origin_of_answersTo redirected found
  | _ => cases found

end Reading

theorem characterAnswers_one (peripherals : Peripherals Devices) (receiver : Receiver Aside)
    (dos : Dos Devices (Receiver Aside)) :
    characterAnswers peripherals receiver 1 dos =
      answersTo peripherals.console dos.machine receiver.label .character := by
  unfold characterAnswers answersTo
  cases Inquiry.character.finds peripherals.console dos.machine <;> rfl

end Answers

namespace Stage.Receives

variable {console : Console Devices} {first second : List Answer}

theorem of_same (enqueued : later.dos.enqueued = stage.dos.enqueued)
    (noted : later.noted = stage.noted) : stage.Receives console [] later where
  heard := by
    unfold Stage.heard
    rw [noted]
    exact (List.append_nil _).symm
  queued := by
    unfold Stage.queued Dos.deliveries
    rw [enqueued]
    exact (List.append_nil _).symm
  recording := by
    unfold Recording
    rw [enqueued]
    exact id

theorem refl (stage : Stage Devices Aside) : stage.Receives console [] stage := of_same rfl rfl

variable {answer : Answer}

theorem of_heard (atOnce : console.atOnce answer.origin = true)
    (enqueued : later.dos.enqueued = stage.dos.enqueued)
    (noted : later.noted = answer.entry :: stage.noted) :
    stage.Receives console [answer] later where
  heard := by
    unfold Stage.heard
    rw [noted, List.reverse_cons, List.filter_cons_of_pos (by simp [atOnce])]
    rfl
  queued := by
    unfold Stage.queued Dos.deliveries
    rw [enqueued, List.filter_cons_of_neg (by simp [atOnce])]
    exact (List.append_nil _).symm
  recording := by
    unfold Recording
    rw [enqueued]
    exact id

theorem of_queued (waits : console.atOnce answer.origin = false)
    (enqueued : later.dos.enqueued = ⟨⟨answer.label, []⟩, answer.item⟩ :: stage.dos.enqueued)
    (noted : later.noted = stage.noted) : stage.Receives console [answer] later where
  heard := by
    unfold Stage.heard
    rw [noted, List.filter_cons_of_neg (by simp [waits])]
    exact (List.append_nil _).symm
  queued := by
    unfold Stage.queued Dos.deliveries
    rw [enqueued, List.reverse_cons, List.map_append, List.filter_cons_of_pos (by simp [waits])]
    rfl
  recording := by
    unfold Recording
    rw [enqueued]
    exact fun recording => List.forall_mem_cons.mpr ⟨rfl, recording⟩

/-- What comes from a file waits. -/
theorem of_files {answers : List Answer} (received : stage.Receives console answers later)
    (files : ∀ answer ∈ answers, answer.origin = .file) :
    later.heard = stage.heard ∧ later.queued = stage.queued ++ answers.map Answer.entry := by
  have none : answers.filter (console.atOnce ·.origin) = [] := by
    rw [List.filter_eq_nil_iff]
    intro answer member atOnce
    rw [files answer member] at atOnce
    cases atOnce
  have all : answers.filter (!console.atOnce ·.origin) = answers := by
    rw [List.filter_eq_self]
    intro answer member
    rw [files answer member]
    rfl
  rw [received.heard, received.queued, none, all]
  exact ⟨List.append_nil _, rfl⟩

theorem trans {between : Stage Devices Aside} (begun : stage.Receives console first between)
    (ended : between.Receives console second later) :
    stage.Receives console (first ++ second) later where
  heard := by
    rw [ended.heard, begun.heard, List.filter_append, List.map_append, List.append_assoc]
  queued := by
    rw [ended.queued, begun.queued, List.filter_append, List.map_append, List.append_assoc]
  recording := ended.recording ∘ begun.recording

end Stage.Receives

section Carrying

theorem carryOut_hear (label : Bytes) (item : Item) (rest : List (Request Aside)) :
    (agenda peripherals aside).carryOut (.hear label item :: rest) stage =
      (agenda peripherals aside).carryOut rest
        { stage with noted := (label, item) :: stage.noted } := by
  rw [bounded_agenda.carryOut_act rfl]
  show ((agenda peripherals aside).carryOut [] >>= fun _ =>
    (agenda peripherals aside).carryOut rest) _ = _
  rw [bounded_agenda.carryOut_nil, pure_bind]

theorem carryOut_hears (entries : List (Bytes × Item)) :
    (agenda peripherals aside).carryOut (entries.map fun entry => .hear entry.1 entry.2) stage =
      (.ok (), { stage with noted := entries.reverse ++ stage.noted }) := by
  induction entries generalizing stage with
  | nil =>
    rw [List.map_nil, bounded_agenda.carryOut_nil]
    rfl
  | cons entry rest ih =>
    rw [List.map_cons, carryOut_hear, ih]
    simp

/-- The stage after the queue is performed, if those who wait only take note. -/
def Stage.performed (stage : Stage Devices Aside) : Stage Devices Aside :=
  { dos := { stage.dos with enqueued := [] }, noted := stage.queued.reverse ++ stage.noted }

theorem performed_of_none (none : stage.dos.enqueued = []) : stage.performed = stage := by
  obtain ⟨⟨machine, enqueued, monitor⟩, noted⟩ := stage
  cases none
  rfl

theorem heard_performed (stage : Stage Devices Aside) :
    stage.performed.heard = stage.heard ++ stage.queued := by
  show (stage.queued.reverse ++ stage.noted).reverse = stage.noted.reverse ++ stage.queued
  rw [List.reverse_append, List.reverse_reverse]

theorem flatMap_body_of_recording {deliveries : List (Delivery (Receiver Aside))}
    (recording : ∀ delivery ∈ deliveries, delivery.receiver.response = []) :
    deliveries.flatMap body =
      (deliveries.map entryOf).map fun entry => .hear entry.1 entry.2 := by
  induction deliveries with
  | nil => rfl
  | cons delivery rest ih =>
    obtain ⟨plain, others⟩ := List.forall_mem_cons.mp recording
    rw [List.flatMap_cons, List.map_cons, List.map_cons, ih others, body, plain]
    rfl

theorem perform_of_recording (peripherals : Peripherals Devices)
    (aside : Aside → Attempt Failure (Machine Devices) Unit) (recording : stage.Recording) :
    ∃ any, (agenda peripherals aside).perform stage = (.ok any, stage.performed) := by
  have plain : ∀ delivery ∈ stage.dos.deliveries, delivery.receiver.response = [] :=
    fun delivery member => recording delivery (List.mem_reverse.mp member)
  cases waiting : stage.dos.deliveries with
  | nil =>
    refine ⟨false, ?_⟩
    rw [Agenda.perform_of_none waiting, performed_of_none (List.reverse_eq_nil_iff.mp waiting)]
  | cons first others =>
    refine ⟨true, ?_⟩
    have bodies := flatMap_body_of_recording plain
    rw [waiting] at bodies
    rw [Agenda.perform_of_some waiting, bounded_agenda.work_batch]
    show ((agenda peripherals aside).carryOut ((first :: others).flatMap body) >>= _) _ = _
    rw [bodies, Attempt.bind_of_ok _ (carryOut_hears _), Stage.performed, Stage.queued, waiting]
    rfl

/-- Having the queue performed makes all deliveries that wait, and no others. -/
theorem carryOut_performs {request : Request Aside} (performs : request.Performs)
    (recording : stage.Recording) :
    (agenda peripherals aside).carryOut [request] stage = (.ok (), stage.performed) := by
  obtain ⟨any, performed⟩ := perform_of_recording peripherals aside recording
  cases request with
  | perform =>
    rw [bounded_agenda.carryOut_perform rfl, Attempt.bind_of_ok _ performed]
    show ((agenda peripherals aside).carryOut [] >>= fun _ =>
      (agenda peripherals aside).carryOut []) _ = _
    rw [bounded_agenda.carryOut_nil]
    rfl
  | flush =>
    rw [bounded_agenda.carryOut_flush rfl, bounded_agenda.carryOut_nil]
    simp only [bind_pure_unit]
    exact bounded_agenda.flush_of_perform performed rfl
  | _ => exact performs.elim

/-- A plain request brings no answer, and does not touch what waits. -/
theorem carryOut_plain {request : Request Aside} (plain : request.IsPlain) :
    ((agenda peripherals aside).carryOut [request]).Ensures stage fun _ later =>
      stage.Receives peripherals.console [] later := by
  obtain ⟨effect, ordered, idle⟩ := exists_plain peripherals aside plain
  rw [bounded_agenda.carryOut_singleton ordered]
  refine (idle stage).bind ?_ ?_
  · intro inserted later kept
    rw [kept.inserts inserted rfl, bounded_agenda.carryOut_nil]
    exact .of_same kept.enqueued kept.noted
  · intro failure later kept
    exact .of_same kept.enqueued kept.noted

variable {inquiry : Inquiry}

/-- An answer is received before the rest is carried out. -/
theorem carryOut_asked (peripherals : Peripherals Devices)
    (aside : Aside → Attempt Failure (Machine Devices) Unit) (label : Bytes) {origin : Origin}
    {item : Item}
    (found : inquiry.finds peripherals.console stage.dos.machine = some (origin, item))
    (rest : List (Request Aside)) : ∃ later,
      (asking peripherals inquiry ⟨label, []⟩ rest >>= (agenda peripherals aside).carryOut) stage =
        (agenda peripherals aside).carryOut rest later ∧
      later.dos = (inquiry.ask peripherals ⟨label, []⟩ stage.dos).2 ∧
      stage.Receives peripherals.console [⟨origin, label, item⟩] later := by
  cases due : peripherals.console.atOnce origin with
  | true =>
    obtain ⟨dos, same, kept, asked⟩ := asking_of_atOnce found due ⟨label, []⟩ rest
    refine ⟨{ dos, noted := (label, item) :: stage.noted }, ?_, same, .of_heard due kept rfl⟩
    rw [Attempt.bind_of_ok _ asked]
    exact carryOut_hear label item rest
  | false =>
    obtain ⟨dos, same, queued, asked⟩ := asking_of_waits found due ⟨label, []⟩ rest
    exact ⟨{ stage with dos }, Attempt.bind_of_ok _ asked, same, .of_queued due queued rfl⟩

/-- An inquiry behind which nothing is left to do fails exactly if it finds nothing, and then it
changes nothing. -/
theorem carryOut_once (label : Bytes) {rest : List (Request Aside)}
    (done : (agenda peripherals aside).carryOut rest = pure ()) :
    (asking peripherals inquiry ⟨label, []⟩ rest >>= (agenda peripherals aside).carryOut).Ensures
      stage fun outcome later =>
        let answers := answersTo peripherals.console stage.dos.machine label inquiry
        stage.Receives peripherals.console answers later ∧
          if answers = [] then stage.Ends outcome ∧ later = stage else outcome = .ok () := by
  cases found : inquiry.finds peripherals.console stage.dos.machine with
  | none =>
    obtain ⟨fault, asked, ended⟩ := asking_of_none found ⟨label, []⟩ rest
    rw [answersTo_of_none found label]
    exact Attempt.ensures_of_apply (Attempt.bind_of_error _ asked)
      ⟨.refl stage, ⟨fault, rfl, ended⟩, rfl⟩
  | some answer =>
    obtain ⟨later, asked, -, received⟩ := carryOut_asked peripherals aside label found rest
    rw [done] at asked
    rw [answersTo_of_some found label]
    exact Attempt.ensures_of_apply asked ⟨received, rfl⟩

theorem carryOut_characters (label : Bytes) (count : Nat) :
    ((agenda peripherals aside).carryOut [.characters count label []]).Ensures stage fun _ later =>
      stage.Receives peripherals.console
        (characterAnswers peripherals ⟨label, []⟩ count stage.dos) later := by
  induction count generalizing stage with
  | zero =>
    rw [bounded_agenda.carryOut_singleton rfl, pure_bind, bounded_agenda.carryOut_nil]
    exact .refl stage
  | succ count ih =>
    rw [bounded_agenda.carryOut_singleton (order_characters peripherals aside count label [])]
    unfold characterAnswers
    cases found : Inquiry.character.finds peripherals.console stage.dos.machine with
    | none =>
      obtain ⟨fault, asked, -⟩ := asking_of_none found ⟨label, []⟩ [.characters count label []]
      rw [answersTo_of_none found label]
      exact Attempt.ensures_of_apply (Attempt.bind_of_error _ asked) (.refl stage)
    | some answer =>
      obtain ⟨next, asked, same, received⟩ :=
        carryOut_asked peripherals aside label found [.characters count label []]
      have behind := ih.of_apply_eq asked
      rw [answersTo_of_some found label]
      refine behind.mono ?_
      intro outcome later more
      rw [same] at more
      exact received.trans more

/-- Whatever a request finds is received, unless it has the queue performed. -/
theorem carryOut_receives {request : Request Aside} (records : request.Records)
    (waits : ¬request.Performs) :
    ((agenda peripherals aside).carryOut [request]).Ensures stage fun _ later =>
      stage.Receives peripherals.console (request.answers peripherals stage.dos) later := by
  cases request with
  | print | reset | switchFirmware | aside => exact carryOut_plain trivial
  | characters count label response =>
    cases records
    exact carryOut_characters label count
  | line prompt label response =>
    cases records
    rw [bounded_agenda.carryOut_singleton (order_line peripherals aside prompt label [])]
    exact (carryOut_once label bounded_agenda.carryOut_nil).mono fun _ _ once => once.1
  | perform => exact absurd trivial waits
  | flush => exact absurd trivial waits
  | hear label item => exact records.elim

/-- A request for one item fails exactly if it finds nothing, and then it changes nothing. -/
theorem carryOut_asksOnce {request : Request Aside} (records : request.Records)
    (asks : request.AsksOnce) :
    ((agenda peripherals aside).carryOut [request]).Ensures stage fun outcome later =>
      if request.answers peripherals stage.dos = [] then stage.Ends outcome ∧ later = stage
      else outcome = .ok () := by
  cases request with
  | characters count label response =>
    cases records
    cases asks
    have nothing : (agenda peripherals aside).carryOut [.characters 0 label []] = pure () := by
      rw [bounded_agenda.carryOut_singleton rfl, pure_bind, bounded_agenda.carryOut_nil]
    rw [bounded_agenda.carryOut_singleton (order_characters peripherals aside 0 label []),
      Request.answers, characterAnswers_one]
    exact (carryOut_once label nothing).mono fun _ _ once => once.2
  | line prompt label response =>
    cases records
    rw [bounded_agenda.carryOut_singleton (order_line peripherals aside prompt label [])]
    exact (carryOut_once label bounded_agenda.carryOut_nil).mono fun _ _ once => once.2
  | _ => exact asks.elim

end Carrying

/-- The stage after requests are made one after the other; what one of them fails in is left as it
is, and the next is made. -/
def serve (peripherals : Peripherals Devices)
    (aside : Aside → Attempt Failure (Machine Devices) Unit) :
    List (Request Aside) → Stage Devices Aside → Stage Devices Aside
  | [], stage => stage
  | request :: rest, stage =>
    serve peripherals aside rest ((agenda peripherals aside).carryOut [request] stage).2

section Consistency

/-- What a program does behind the back of the terminal leaves a session consistent. -/
def Discreet (aside : Aside → Attempt Failure (Machine Devices) Unit) : Prop :=
  ∀ action machine, machine.session.Consistent →
    (aside action machine).2.session.Consistent

/-- The session of a stage is consistent. -/
def Stage.Consistent (stage : Stage Devices Aside) : Prop :=
  stage.dos.machine.session.Consistent

theorem atTerminal_keeps {Value : Type} {call : Call Devices (Receiver Aside) Value}
    (keeps : ∀ dos, dos.machine.session.Consistent → (call dos).2.machine.session.Consistent) :
    (atTerminal call).Respects (Attempt.Same Stage.Consistent) :=
  Attempt.respects_same_iff.mpr fun stage consistent => keeps stage.dos consistent

theorem event_keeps (peripherals : Peripherals Devices) (event : Event (Receiver Aside)) :
    (atTerminal (event.run peripherals)).Respects (Attempt.Same Stage.Consistent) :=
  atTerminal_keeps fun _ consistent => event.run_consistent peripherals consistent

theorem print_keeps (peripherals : Peripherals Devices) (text : Bytes) :
    (atTerminal (Dos.print peripherals text) :
      Act Devices Aside Unit).Respects (Attempt.Same Stage.Consistent) := by
  refine atTerminal_keeps fun dos consistent => ?_
  suffices kept : ((Dos.printBytes peripherals text).Respects
      (Attempt.Same fun machine => machine.session.Consistent)) from
    Attempt.respects_same_iff.mp kept dos.machine consistent
  induction text with
  | nil => exact Attempt.respects_pure _
  | cons byte rest ih =>
    refine Respects.bind (Attempt.respects_same_iff.mpr fun machine consistent => ?_) fun _ => ih
    let dos : Dos Devices (Receiver Aside) := ⟨machine, [], .off⟩
    have printed : dos.machine.session.Consistent := consistent
    exact (Event.terminal (.print byte)).run_consistent peripherals printed

theorem asking_keeps (peripherals : Peripherals Devices) (inquiry : Inquiry)
    (receiver : Receiver Aside) (rest : List (Request Aside)) :
    (asking peripherals inquiry receiver rest).Respects (Attempt.Same Stage.Consistent) := by
  refine (atTerminal_keeps fun dos consistent => ?_).bind fun _ => Attempt.respects_pure _
  cases inquiry with
  | character =>
    have kept := (Event.terminal (.character receiver)).run_consistent peripherals consistent
    rwa [Event.run, TerminalCall.run, Attempt.bind_pure_snd] at kept
  | line prompt =>
    have kept := (Event.terminal (.line prompt receiver)).run_consistent peripherals consistent
    rwa [Event.run, TerminalCall.run, Attempt.bind_pure_snd] at kept

/-- No request of a program that is discreet leaves a consistent session inconsistent. -/

theorem agenda_keeps (peripherals : Peripherals Devices) (discreet : Discreet aside) :
    (agenda peripherals aside).Respectful (Attempt.Same Stage.Consistent) where
  queue := by
    rintro left _ ⟨rfl, -⟩
    rfl
  cleared := by
    rintro left _ ⟨rfl, consistent⟩
    exact ⟨rfl, consistent⟩
  act := by
    intro request effect ordered
    cases request with
    | print text =>
      cases ordered
      exact (print_keeps peripherals text).bind fun _ => Attempt.respects_pure _
    | characters count label response =>
      cases count with
      | zero =>
        cases ordered
        exact Attempt.respects_pure _
      | succ count =>
        cases (order_characters peripherals aside count label response).symm.trans ordered
        exact asking_keeps peripherals _ _ _
    | line prompt label response =>
      cases (order_line peripherals aside prompt label response).symm.trans ordered
      exact asking_keeps peripherals _ _ _
    | perform => cases ordered
    | flush => cases ordered
    | reset =>
      cases ordered
      exact (event_keeps peripherals .reset).bind fun _ => Attempt.respects_pure _
    | switchFirmware active =>
      cases ordered
      exact (event_keeps peripherals (.firmware active)).bind fun _ => Attempt.respects_pure _
    | aside action =>
      cases ordered
      refine (Attempt.respects_same_iff.mpr ?_).bind fun _ => Attempt.respects_pure _
      exact fun stage consistent => discreet action stage.dos.machine consistent
    | hear label item =>
      cases ordered
      refine (Attempt.respects_same_iff.mpr ?_).bind fun _ => Attempt.respects_pure _
      exact fun stage consistent => consistent

/-- Programs leave the session consistent. -/
theorem serve_consistent (peripherals : Peripherals Devices) (discreet : Discreet aside)
    (requests : List (Request Aside)) (consistent : stage.Consistent) :
    (serve peripherals aside requests stage).Consistent := by
  induction requests generalizing stage with
  | nil => exact consistent
  | cons request rest ih =>
    have made := (agenda_keeps peripherals discreet).work [.script [request]]
    exact ih (Attempt.respects_same_iff.mp made stage consistent)

end Consistency

/-- What requests find that are made one after the other. -/
def answersOf (peripherals : Peripherals Devices)
    (aside : Aside → Attempt Failure (Machine Devices) Unit) :
    List (Request Aside) → Stage Devices Aside → List Answer
  | [], _ => []
  | request :: rest, stage => request.answers peripherals stage.dos ++
    answersOf peripherals aside rest ((agenda peripherals aside).carryOut [request] stage).2

/-- What is heard of and what waits are the answers, those of each origin in order. Only answers
that are not due at once wait. -/
structure Stage.Accounts (console : Console Devices) (answered given waiting : List Answer)
    (stage : Stage Devices Aside) : Prop where
  heard : stage.heard = given.map Answer.entry
  queued : stage.queued = waiting.map Answer.entry
  ordered : ∀ origin, (given ++ waiting).filter (·.origin = origin) =
    answered.filter (·.origin = origin)
  waits : ∀ answer ∈ waiting, console.atOnce answer.origin = false
  recording : stage.Recording

namespace Stage.Accounts

variable {console : Console Devices} {answered given waiting answers : List Answer}

theorem initial (console : Console Devices) (monitor : Monitor) (devices : Devices) :
    (Stage.initial monitor devices : Stage Devices Aside).Accounts console [] [] [] where
  heard := rfl
  queued := rfl
  ordered := fun _ => rfl
  waits := nofun
  recording := nofun

/-- Those among chosen answers that come from one origin. -/
theorem filter_origin (chosen : Origin → Bool) (answers : List Answer) (origin : Origin) :
    (answers.filter (chosen ·.origin)).filter (·.origin = origin) =
      if chosen origin then answers.filter (·.origin = origin) else [] := by
  rw [List.filter_filter]
  cases choice : chosen origin with
  | true =>
    rw [if_pos rfl]
    refine List.filter_congr fun answer _ => ?_
    by_cases same : answer.origin = origin <;> simp [same, choice]
  | false =>
    rw [if_neg Bool.false_ne_true, List.filter_eq_nil_iff]
    intro answer _ both
    by_cases same : answer.origin = origin <;> simp [same, choice] at both

/-- Answers that are due at once overtake only what comes from elsewhere. -/
theorem receives (accounts : stage.Accounts console answered given waiting)
    (received : stage.Receives console answers later) :
    later.Accounts console (answered ++ answers)
      (given ++ answers.filter (console.atOnce ·.origin))
      (waiting ++ answers.filter (!console.atOnce ·.origin)) where
  heard := by rw [received.heard, accounts.heard, List.map_append]
  queued := by rw [received.queued, accounts.queued, List.map_append]
  ordered := by
    intro origin
    have before := accounts.ordered origin
    have chosen := filter_origin console.atOnce answers origin
    have others := filter_origin (fun origin => !console.atOnce origin) answers origin
    simp only [List.filter_append] at before ⊢
    rw [chosen, others, ← before]
    cases atOnce : console.atOnce origin with
    | true =>
      have none : waiting.filter (·.origin = origin) = [] := by
        rw [List.filter_eq_nil_iff]
        intro answer member same
        have here := accounts.waits answer member
        rw [of_decide_eq_true same, atOnce] at here
        cases here
      simp [none]
    | false => simp [List.append_assoc]
  waits := by
    intro answer member
    rcases List.mem_append.mp member with old | new
    · exact accounts.waits answer old
    · simpa using (List.mem_filter.mp new).2
  recording := received.recording accounts.recording

theorem performed (accounts : stage.Accounts console answered given waiting) :
    stage.performed.Accounts console answered (given ++ waiting) [] where
  heard := by rw [heard_performed, accounts.heard, accounts.queued, List.map_append]
  queued := rfl
  ordered := by
    intro origin
    rw [List.append_nil, accounts.ordered]
  waits := nofun
  recording := nofun

end Stage.Accounts

/-- One request keeps the account. -/
theorem accounts_carryOut (aside : Aside → Attempt Failure (Machine Devices) Unit)
    {answered given waiting : List Answer} {request : Request Aside}
    (accounts : stage.Accounts peripherals.console answered given waiting)
    (records : request.Records) : ∃ given waiting,
      ((agenda peripherals aside).carryOut [request] stage).2.Accounts peripherals.console
        (answered ++ request.answers peripherals stage.dos) given waiting := by
  by_cases performs : request.Performs
  · rw [carryOut_performs performs accounts.recording]
    have none : request.answers peripherals stage.dos = [] := by
      cases request with
      | perform => rfl
      | flush => rfl
      | _ => exact performs.elim
    rw [none, List.append_nil]
    exact ⟨_, _, accounts.performed⟩
  · exact ⟨_, _, accounts.receives (carryOut_receives records performs)⟩

/-- So does every sequence of requests. -/
theorem accounts_serve {answered given waiting : List Answer} {requests : List (Request Aside)}
    (accounts : stage.Accounts peripherals.console answered given waiting)
    (records : ∀ request ∈ requests, request.Records) : ∃ given waiting,
      (serve peripherals aside requests stage).Accounts peripherals.console
        (answered ++ answersOf peripherals aside requests stage) given waiting := by
  induction requests generalizing stage answered given waiting with
  | nil =>
    rw [answersOf, List.append_nil]
    exact ⟨given, waiting, accounts⟩
  | cons request rest ih =>
    obtain ⟨here, others⟩ := List.forall_mem_cons.mp records
    obtain ⟨given, waiting, next⟩ := accounts_carryOut aside accounts here
    rw [answersOf, ← List.append_assoc]
    exact ih next others

/-- Whatever requests are made, what a program has heard of and what still waits for it are the
items that it has asked for: none is lost or made up, and those of a file are in the order in which
they were asked for, as they were at that time. They are delivered when the queue is performed and
at no other time, and nothing else touches those that wait. A request for an
item that finds nothing fails and adds nothing: the data has ended, unless a session was made
inconsistent behind the back of the terminal. -/
theorem heard_and_queued_in_order (peripherals : Peripherals Devices)
    (aside : Aside → Attempt Failure (Machine Devices) Unit) (monitor : Monitor)
    (devices : Devices) {requests : List (Request Aside)}
    (records : ∀ request ∈ requests, request.Records) :
    let start : Stage Devices Aside := .initial monitor devices
    let stage := serve peripherals aside requests start
    (∃ given waiting : List Answer,
      stage.heard = given.map Answer.entry ∧ stage.queued = waiting.map Answer.entry ∧
      ∀ origin, (given ++ waiting).filter (·.origin = origin) =
        (answersOf peripherals aside requests start).filter (·.origin = origin)) ∧
    ∀ request : Request Aside, request.Records →
      ((agenda peripherals aside).carryOut [request]).Ensures stage fun outcome later =>
        let answers := request.answers peripherals stage.dos
        (request.Performs → later.heard = stage.heard ++ stage.queued ∧ later.queued = []) ∧
        (¬request.Performs → (∀ answer ∈ answers, answer.origin = .file) →
          later.heard = stage.heard ∧
          later.queued = stage.queued ++ answers.map Answer.entry) ∧
        (∀ name, stage.dos.machine.session.redirection = .reading name →
          ∀ answer ∈ answers, answer.origin = .file) ∧
        (request.AsksOnce →
          if answers = [] then later = stage ∧ ∃ fault, outcome = .error (.fault fault) ∧
            (Discreet aside → fault = .endOfData)
          else outcome = .ok ()) := by
  intro start stage
  obtain ⟨given, waiting, accounts⟩ :=
    accounts_serve (.initial peripherals.console monitor devices) records
  refine ⟨⟨given, waiting, accounts.heard, accounts.queued, accounts.ordered⟩, ?_⟩
  intro request recording
  refine ⟨?_, ?_, ?_, ?_⟩
  · intro performs
    rw [carryOut_performs performs accounts.recording]
    exact ⟨heard_performed stage, rfl⟩
  · intro waits files
    have received : stage.Receives peripherals.console (request.answers peripherals stage.dos)
      ((agenda peripherals aside).carryOut [request] stage).2 := carryOut_receives recording waits
    exact received.of_files files
  · intro name redirected answer found
    exact origin_of_reading redirected found
  · intro asks
    have made : ((agenda peripherals aside).carryOut [request]).Ensures stage _ :=
      carryOut_asksOnce recording asks
    have ended := made.apply rfl
    split at ended
    · next nothing =>
      obtain ⟨⟨fault, failed, sound⟩, same⟩ := ended
      rw [if_pos nothing]
      refine ⟨same, fault, failed, fun discreet => sound ?_⟩
      exact serve_consistent peripherals discreet requests (Session.consistent_initial monitor)
    · next something =>
      rw [if_neg something]
      exact ended

/-- A character and a line of a file that is deleted before they are delivered. What is typed behind
them is heard of first. -/
theorem heard_and_queued_in_order_deleted :
    let peripherals : Peripherals (Catalog Name Bytes) :=
      .inMemory (Catalog.empty.insert (ascii "C") (ascii "XY\rZ")) .none
    let command (line : Bytes) : Request Empty := .print (controlD :: line ++ [carriageReturn])
    let requests : List (Request Empty) := [command (ascii "READ C"), .characters 1 [1] [],
      .line [] [2] [], command (ascii "DELETE C"), .reset, .characters 1 [3] []]
    let stage := serve peripherals Empty.elim requests (.initial .off .empty)
    (∀ request ∈ requests, request.Records) ∧
      stage.heard = [([3], .character 0)] ∧
      stage.queued = [([1], .character (code 'X')), ([2], .line (ascii "Y"))] ∧
      ∃ given waiting : List Answer,
        stage.heard = given.map Answer.entry ∧ stage.queued = waiting.map Answer.entry ∧
        (given ++ waiting).filter (·.origin = .file) =
          [⟨.file, [1], .character (code 'X')⟩, ⟨.file, [2], .line (ascii "Y")⟩] := by
  intro peripherals command requests stage
  have records : ∀ request ∈ requests, request.Records := by
    simp [requests, command, Request.Records]
  have found : (answersOf peripherals Empty.elim requests (.initial .off .empty)).filter
      (·.origin = .file) =
        [⟨.file, [1], .character (code 'X')⟩, ⟨.file, [2], .line (ascii "Y")⟩] := by
    decide +kernel
  obtain ⟨⟨given, waiting, heard, queued, ordered⟩, -⟩ :=
    heard_and_queued_in_order peripherals Empty.elim .off .empty records
  exact ⟨records, by decide +kernel, by decide +kernel, given, waiting, heard, queued,
    (ordered .file).trans found⟩

end Application

end DosText
