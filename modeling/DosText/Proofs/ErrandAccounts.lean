import DosText.Fault
import DosText.Proofs.ErrandLedger
import Mathlib.Data.List.Induction

/-! What becomes of errands. The owner of a board has errands enqueued and the queue performed, and
goes on when one of them has failed. An account is kept of this: each errand that was ever enqueued
has begun, or waits in the queue, or was discarded when a failure ended the performance that had
taken it from the queue. -/

namespace DosText.Errand

/-- What the owner of a board asks for. -/
inductive Demand where
  | enqueue (errand : Errand)
  | perform
  | flush

section Demands

variable {Error State Task Instruction : Type}

/-- Does what is asked for. -/
def Demand.serve (error : Error) : Demand → Attempt Error Board Unit
  | enqueue errand => (agenda error).carryOut [.enqueue errand]
  | perform => do
    let _ ← (agenda error).perform
  | flush => (agenda error).flush

/-- The outcomes of demands, each served on the board that the others have left, and the board after
them. -/
def served (error : Error) (demands : List Demand) : List (Except Error Unit) × Board :=
  demands.foldl
    (fun (outcomes, board) demand =>
      (outcomes ++ [(demand.serve error board).1], (demand.serve error board).2))
    ([], .empty)

/-- The frames whose work serves a demand, and the state that it starts from. -/
def Demand.start (agenda : Agenda Error State Task Instruction) (enqueuing : Errand → Instruction)
    (state : State) : Demand → List (Agenda.Frame Task Instruction) × State
  | enqueue errand => ([.script [enqueuing errand]], state)
  | perform => ([.batch (agenda.queue state)], agenda.clear state)
  | flush => ([.flush], state)

theorem Demand.serve_eq_work (error : Error) (demand : Demand) (board : Board) :
    demand.serve error board =
      (agenda error).work (demand.start (agenda error) .enqueue board).1
        (demand.start (agenda error) .enqueue board).2 := by
  cases demand with
  | enqueue errand => rfl
  | perform =>
    exact (bounded_agenda error).perform_eq_work fun waiting => congrArg (Board.mk · _) waiting.symm
  | flush => rfl

/-- What has become of errands. -/
structure Account (Error : Type) where
  ledger : Ledger
  /-- The errands that were left in batches when a failure ended their performance. -/
  discarded : List Slip
  /-- How the demands ended. -/
  outcomes : List (Except Error Unit)

namespace Account

variable (error : Error)

/-- The frames of numbered errands whose work serves a demand, and the ledger that it starts
from. -/
def start (account : Account Error) (demand : Demand) : Stack × Ledger :=
  demand.start (numbered error) (⟨none, .enqueue ·⟩) account.ledger

/-- The account when another demand has been served. -/
def serve (account : Account Error) (demand : Demand) : Account Error where
  ledger := ((numbered error).work (account.start error demand).1 (account.start error demand).2).2
  discarded := account.discarded ++
    leftover ((numbered error).abandoned (account.start error demand).1
      (account.start error demand).2)
  outcomes := account.outcomes ++
    [((numbered error).work (account.start error demand).1 (account.start error demand).2).1]

/-- The account of demands on a board on which nothing had happened. -/
def of (demands : List Demand) : Account Error := demands.foldl (serve error) ⟨.empty, [], []⟩

theorem of_concat (demands : List Demand) (demand : Demand) :
    of error (demands ++ [demand]) = (of error demands).serve error demand :=
  List.foldl_concat ..

theorem start_eq (account : Account Error) (demand : Demand) :
    demand.start (agenda error) .enqueue account.ledger.board =
      ((account.start error demand).1.map (Agenda.Frame.seen Slip.errand Part.instruction),
        (account.start error demand).2.board) := by
  cases demand <;> rfl

/-- Without the numbers, an account goes on as the board does. -/
theorem serve_shows (account : Account Error) (demand : Demand) :
    demand.serve error account.ledger.board =
      (((numbered error).work (account.start error demand).1 (account.start error demand).2).1,
        (account.serve error demand).ledger.board) := by
  have shows := (shows_numbered error).work (account.start error demand).1
    (account.start error demand).2
  rw [demand.serve_eq_work, start_eq, shows, Except.map_id]
  rfl

theorem served_eq (demands : List Demand) :
    served error demands = ((of error demands).outcomes, (of error demands).ledger.board) := by
  induction demands using List.reverseRecOn with
  | nil => rfl
  | append_singleton demands demand ih =>
    unfold served at ih ⊢
    rw [of_concat, List.foldl_concat, ih]
    simp only [serve_shows]
    rfl

theorem serve_ends (account : Account Error) (demand : Demand) :
    ∃ outcome abandoned, (account.serve error demand).outcomes = account.outcomes ++ [outcome] ∧
      (account.serve error demand).discarded = account.discarded ++ leftover abandoned ∧
        (numbered error).Ends (account.start error demand).1 (account.start error demand).2 outcome
          abandoned (account.serve error demand).ledger :=
  ⟨_, _, rfl, rfl, (bounded_numbered error).work_ends _ _⟩

end Account

end Demands

variable {Error : Type} {error : Error} {lost : List Slip} {stack next outer : Stack}
variable {ledger later : Ledger}

/-- While a performance goes on, the errands that were taken before are as good as lost to it. -/
theorem Sound.performing (sound : Sound lost stack ledger) :
    Sound (lost ++ waiting stack) [.batch ledger.queue] ledger.taken :=
  .idle rfl sound.successive (sound.lose (by simp [tally, Ledger.taken]) rfl)
    (fun _ _ => List.forall_mem_nil _) sound.shown

/-- Between demands no frames are left. -/
theorem Sound.start {account : Account Error} (sound : Sound account.discarded [] account.ledger)
    (demand : Demand) :
    Sound account.discarded (account.start error demand).1 (account.start error demand).2 := by
  cases demand with
  | enqueue errand =>
    exact ⟨sound.successive, sound.counted, sound.recent, List.forall_mem_nil _,
      by simp [Account.start, Demand.start], List.forall_mem_singleton.mpr .owner, sound.shown⟩
  | perform =>
    have performing := sound.performing
    rwa [waiting_nil, List.append_nil] at performing
  | flush =>
    exact .idle rfl sound.successive sound.counted sound.recent sound.shown

/-- Where an errand fails, the errands that were taken and have not begun are those that are left in
batches. -/
theorem Sound.waiting_of_fail {slip? : Option Slip} {rest : List Part}
    (sound : Sound lost (.script (⟨slip?, .fail⟩ :: rest) :: outer) ledger) :
    waiting (.script (⟨slip?, .fail⟩ :: rest) :: outer) = leftover outer :=
  waiting_eq_leftover (List.forall_mem_cons.mpr ⟨rfl, sound.tidy⟩)

/-- Where an instruction fails, it is one of an errand that has begun and that fails. -/
theorem Sound.of_fail {slip? : Option Slip} {rest : List Part}
    (sound : Sound lost (.script (⟨slip?, .fail⟩ :: rest) :: outer) ledger) :
    ∃ slip, slip? = some slip ∧ slip.errand.fails = true ∧ slip ∈ ledger.begun := by
  obtain ⟨slip, rfl, fails⟩ := (sound.genuine ⟨slip?, .fail⟩ List.mem_cons_self).fails
  -- The failing instruction is not the first one of an errand, and only the next one could be.
  have nothing : (remaining (.script (⟨some slip, .fail⟩ :: rest) :: outer)).filterMap
      Part.begins = [] :=
    List.filterMap_eq_nil_iff.mpr (List.forall_mem_cons.mpr ⟨rfl, sound.tidy⟩)
  have started := sound.started ⟨some slip, .fail⟩ List.mem_cons_self slip rfl
  rw [nothing] at started
  exact ⟨slip, rfl, fails, started.resolve_right List.not_mem_nil⟩

/-- When work ends, what is left in batches is lost. -/
theorem Sound.ends {start abandoned : Stack} {initial last : Ledger} {outcome : Except Error Unit}
    (sound : Sound lost start initial)
    (ends : (numbered error).Ends start initial outcome abandoned last) :
    Sound (lost ++ leftover abandoned) [] last := by
  cases ends with
  | done leads =>
    rw [leftover_nil, List.append_nil]
    exact sound.leads leads
  | failed leads fails =>
    have reached := sound.leads leads
    obtain ⟨rfl, rfl, slip?, rest, outer, rfl⟩ := fail_of_advance fails
    rw [leftover_cons, tasks_script, List.nil_append, ← reached.waiting_of_fail]
    refine .idle rfl reached.successive (reached.lose (by simp [tally]) rfl) ?_ reached.shown
    intro old member
    exact reached.recent old (List.mem_append_left _ (by simpa using member))

theorem Account.sound (error : Error) (demands : List Demand) :
    Sound (Account.of error demands).discarded [] (Account.of error demands).ledger := by
  induction demands using List.reverseRecOn with
  | nil => exact .idle rfl rfl (.refl _) (List.forall_mem_nil _) rfl
  | append_singleton demands demand ih =>
    rw [of_concat]
    obtain ⟨outcome, abandoned, _, lost, ends⟩ := serve_ends error (of error demands) demand
    rw [lost]
    exact (ih.start demand).ends ends

/-- The instructions of the frames above the innermost batch. -/
def current : Stack → List Part
  | .script rest :: outer => rest ++ current outer
  | _ => []

/-- The frames from the innermost batch on. -/
def around : Stack → Stack
  | .script _ :: outer => around outer
  | stack => stack

theorem remaining_eq (stack : Stack) :
    remaining stack = current stack ++ remaining (around stack) := by
  induction stack with
  | nil => rfl
  | cons frame outer ih => cases frame <;> simp [current, around, ih]

theorem enqueues_parts (slip : Slip) :
    slip.parts.filterMap Part.enqueues = slip.errand.followUps := by
  obtain ⟨number, label, followUps, performs, fails⟩ := slip
  have enqueued : (followUps.map Instruction.enqueue).filterMap (fun instruction =>
      Part.enqueues ⟨some ⟨number, .mk label followUps performs fails⟩, instruction⟩) =
        followUps := by
    simp [List.filterMap_map, Part.enqueues]
  simp only [Slip.parts, Errand.body, List.filterMap_map, Function.comp_def, List.filterMap_append,
    List.cons_append, List.filterMap_cons, enqueued]
  cases performs <;> cases fails <;> simp [Part.enqueues, Errand.followUps]

theorem fail_not_mem_dropLast (errand : Errand) : .fail ∉ errand.body.dropLast := by
  obtain ⟨label, followUps, performs, fails⟩ := errand
  have before : Instruction.fail ∉
      .note (.ran label) :: followUps.map .enqueue ++ if performs then [.perform] else [] := by
    cases performs <;> simp
  cases fails with
  | false =>
    have whole : body (.mk label followUps performs false) = _ := List.append_nil _
    rw [whole]
    exact fun member => before (List.dropLast_subset _ member)
  | true =>
    have whole : (body (.mk label followUps performs true)).dropLast = _ := List.dropLast_concat
    rwa [whole]

/-- An errand fails with its last instruction. -/
theorem eq_nil_of_fail {slip : Slip} {rest : List Part}
    (ending : ⟨some slip, .fail⟩ :: rest <:+ slip.parts) : rest = [] := by
  rcases List.eq_nil_or_concat rest with empty | ⟨others, last, rfl⟩
  · exact empty
  · obtain ⟨before, split⟩ := ending
    have body : slip.errand.body = (before ++ ⟨some slip, .fail⟩ :: others ++ [last]).map
        Part.instruction := by
      rw [← instructions_parts, ← split]
      simp
    refine absurd ?_ (fail_not_mem_dropLast slip.errand)
    rw [body, ← List.map_dropLast, List.dropLast_concat]
    exact List.mem_map_of_mem (List.mem_append_right _ List.mem_cons_self)

/-- While an errand that does not have the queue performed goes on, what it has enqueued stands last
in the queue. -/
structure Keeps (stack : Stack) (ledger : Ledger) : Prop where
  own : ∀ part ∈ current stack, ∀ slip, part.slip? = some slip → slip.errand.performs = false →
    current stack <:+ slip.parts ∧
      slip.errand.followUps <:+
        ledger.queue.map Slip.errand ++ (current stack).filterMap Part.enqueues
  /-- Below the innermost batch are errands that have the queue performed. -/
  others : ∀ part ∈ remaining (around stack), ∀ slip, part.slip? = some slip →
    slip.errand.performs = true

namespace Keeps

/-- An instruction that is carried out is left out, and what it enqueues goes to the queue. -/
theorem of_tail {part : Part} {rest : List Part} (keeps : Keeps stack ledger)
    (now : current stack = part :: rest) (after : current next = rest)
    (same : around next = around stack)
    (queued : later.queue.map Slip.errand =
      ledger.queue.map Slip.errand ++ part.enqueues.toList) :
    Keeps next later where
  own := by
    intro other member slip owned performs
    rw [after] at member ⊢
    obtain ⟨ending, enqueued⟩ :=
      keeps.own other (now ▸ List.mem_cons_of_mem _ member) slip owned performs
    rw [now] at ending enqueued
    have moved : (part :: rest).filterMap Part.enqueues =
        part.enqueues.toList ++ rest.filterMap Part.enqueues := by
      cases enqueues : part.enqueues <;> simp [enqueues]
    rw [moved, ← List.append_assoc, ← queued] at enqueued
    exact ⟨(List.suffix_cons part rest).trans ending, enqueued⟩
  others := same ▸ keeps.others

theorem of_performing (performing : ∀ part ∈ remaining stack, ∀ slip, part.slip? = some slip →
    slip.errand.performs = true) : Keeps stack ledger where
  own := by
    intro part member slip owned performs
    have among : part ∈ remaining stack := by
      rw [remaining_eq]
      exact List.mem_append_left _ member
    exact absurd (performing part among slip owned) (by simp [performs])
  others := by
    intro part member
    refine performing part ?_
    rw [remaining_eq]
    exact List.mem_append_right _ member

/-- Where an errand has the queue performed, all errands that are under way do. -/
theorem performing {slip? : Option Slip} {rest : List Part}
    (keeps : Keeps (.script (⟨slip?, .perform⟩ :: rest) :: outer) ledger) :
    ∀ part ∈ ⟨slip?, .perform⟩ :: (rest ++ remaining outer), ∀ slip, part.slip? = some slip →
      slip.errand.performs = true := by
  intro part member slip owned
  have among : part ∈ remaining (.script (⟨slip?, .perform⟩ :: rest) :: outer) := member
  rw [remaining_eq] at among
  rcases List.mem_append.mp among with here | below
  · by_contra performs
    obtain ⟨ending, _⟩ := keeps.own part here slip owned (Bool.eq_false_iff.mpr performs)
    have own : ⟨slip?, .perform⟩ ∈ slip.parts := ending.subset List.mem_cons_self
    obtain ⟨instruction, listed, same⟩ := List.mem_map.mp own
    cases same
    exact performs (Part.Genuine.own listed).performs
  · exact keeps.others part below slip owned

theorem step (keeps : Keeps stack ledger) (step : Step stack ledger next later) :
    Keeps next later := by
  cases step with
  | idle => exact keeps
  | ended => exact ⟨keeps.own, keeps.others⟩
  | enqueued => exact keeps.of_tail rfl rfl rfl List.map_append
  | noted => exact keeps.of_tail rfl rfl rfl (List.append_nil _).symm
  | refused =>
    obtain ⟨here, rest⟩ := List.forall_mem_cons.mp keeps.performing
    exact of_performing (List.forall_mem_cons.mpr ⟨here, rest⟩)
  | performed =>
    obtain ⟨here, rest⟩ := List.forall_mem_cons.mp keeps.performing
    exact of_performing (List.forall_mem_cons.mpr ⟨here, rest⟩)
  | @begun slip rest outer =>
    refine ⟨?_, keeps.others⟩
    intro part member other owned performs
    have parts : current (.script slip.parts :: .batch rest :: outer) = slip.parts :=
      List.append_nil _
    rw [parts] at member ⊢
    obtain ⟨instruction, _, rfl⟩ := List.mem_map.mp member
    cases owned
    rw [enqueues_parts]
    exact ⟨List.suffix_rfl, List.suffix_append _ _⟩
  | emptied => exact of_performing keeps.others
  | drained => exact of_performing keeps.others
  | flushed => exact of_performing keeps.others

theorem leads {start : Stack} {initial : Ledger} (keeps : Keeps start initial)
    (leads : (numbered error).Leads start initial stack ledger) : Keeps stack ledger :=
  leads.keeps keeps fun _ _ _ _ keeps advanced => keeps.step (step_of_advance advanced)

/-- An errand that fails without having had the queue performed leaves in the queue what it has
enqueued. -/
theorem followUps_of_fail {slip : Slip} {rest : List Part}
    (keeps : Keeps (.script (⟨some slip, .fail⟩ :: rest) :: outer) ledger)
    (performs : slip.errand.performs = false) :
    slip.errand.followUps <:+ ledger.queue.map Slip.errand := by
  obtain ⟨ending, enqueued⟩ := keeps.own _ List.mem_cons_self slip rfl performs
  have nothing : rest ++ current outer = [] := eq_nil_of_fail ending
  rw [current, List.cons_append, nothing] at enqueued
  have none : [Part.mk (some slip) .fail].filterMap Part.enqueues = [] := rfl
  rwa [none, List.append_nil] at enqueued

end Keeps

theorem keeps_start (account : Account Error) (demand : Demand) :
    Keeps (account.start error demand).1 (account.start error demand).2 := by
  cases demand with
  | enqueue errand =>
    refine .of_performing (List.forall_mem_singleton.mpr ?_)
    nofun
  | perform => exact .of_performing nofun
  | flush => exact .of_performing nofun

namespace Account

/-- Where serving a demand fails: an errand fails as the last thing that it does. What the batches
that are under way still hold is discarded, and the queue is left as it is. -/
structure Breaks (error : Error) (account : Account Error) (demand : Demand) (slip : Slip)
    (rest : List Part) (outer : Stack) : Prop where
  reached : (numbered error).Leads (account.start error demand).1 (account.start error demand).2
    (.script (⟨some slip, .fail⟩ :: rest) :: outer) (account.serve error demand).ledger
  fails : slip.errand.fails = true
  begun : slip ∈ (account.serve error demand).ledger.begun
  discarded : (account.serve error demand).discarded = account.discarded ++ leftover outer
  /-- What the errand has enqueued stands last in the queue, unless it had the queue performed. -/
  followUps : slip.errand.performs = false →
    slip.errand.followUps <:+ (account.serve error demand).ledger.queue.map Slip.errand

theorem breaks_of_error {account : Account Error} {demand : Demand} {abandoned : Stack}
    {fault : Error} (sound : Sound account.discarded [] account.ledger)
    (lost : (account.serve error demand).discarded = account.discarded ++ leftover abandoned)
    (ends : (numbered error).Ends (account.start error demand).1 (account.start error demand).2
      (.error fault) abandoned (account.serve error demand).ledger) :
    fault = error ∧ ∃ slip rest outer, account.Breaks error demand slip rest outer := by
  cases ends with
  | @failed _ state _ _ leads fails =>
    obtain ⟨same, unchanged, slip?, rest, outer, rfl⟩ := fail_of_advance fails
    rw [← unchanged] at leads
    obtain ⟨slip, rfl, failing, begun⟩ := ((sound.start demand).leads leads).of_fail
    exact ⟨same, slip, rest, outer, leads, failing, begun, lost,
      ((keeps_start account demand).leads leads).followUps_of_fail⟩

theorem drained_of_flush {account : Account Error} {abandoned : Stack}
    (ends : (numbered error).Ends (account.start error .flush).1 (account.start error .flush).2
      (.ok ()) abandoned (account.serve error .flush).ledger) :
    (account.serve error .flush).ledger.queue = [] := by
  rcases ends.leads.1.flush_or_drained with ⟨above, same⟩ | ⟨_, drained⟩
  · exact absurd same.symm (List.append_ne_nil_of_right_ne_nil above (List.cons_ne_nil _ _))
  · exact drained

theorem discarded_of_ok {demands : List Demand}
    (succeeded : ∀ outcome ∈ (of error demands).outcomes, outcome = .ok ()) :
    (of error demands).discarded = [] := by
  induction demands using List.reverseRecOn with
  | nil => rfl
  | append_singleton demands demand ih =>
    obtain ⟨outcome, abandoned, ended, lost, ends⟩ := serve_ends error (of error demands) demand
    rw [of_concat] at succeeded ⊢
    rw [ended] at succeeded
    obtain ⟨before, last⟩ := List.forall_mem_append.mp succeeded
    obtain rfl := last outcome (List.mem_singleton_self outcome)
    rw [lost, ih before, ends.leads.2]
    rfl

/-- No errand is lost sight of. Whatever is asked for, and whichever errands fail, each errand that
was ever enqueued has begun once, or waits in the queue, or was discarded; each demand comes to an
end, and only one that fails discards anything. -/
theorem conserves (error : Error) (demands : List Demand) :
    let account := of error demands
    let ledger := account.ledger
    served error demands = (account.outcomes, ledger.board) ∧
      numbers ledger.enqueued = List.range ledger.enqueued.length ∧
      (ledger.begun ++ ledger.queue ++ account.discarded).Perm ledger.enqueued ∧
      (ledger.begun ++ ledger.queue ++ account.discarded).Nodup ∧
      labels ledger.events = ledger.begun.map (·.errand.label) ∧
      ((∀ outcome ∈ account.outcomes, outcome = .ok ()) → account.discarded = []) ∧
      ∀ demand : Demand,
        let begins := demand.start (agenda error) .enqueue ledger.board
        let later := account.serve error demand
        ∃ outcome abandoned,
          demand.serve error ledger.board = (outcome, later.ledger.board) ∧
          (agenda error).Ends begins.1 begins.2 outcome abandoned later.ledger.board ∧
          (outcome = .ok () → later.discarded = account.discarded ∧
            (demand = .flush → later.ledger.queue = [] ∧
              (account.discarded = [] → later.ledger.begun.Perm later.ledger.enqueued))) ∧
          (outcome ≠ .ok () → outcome = .error error ∧
            ∃ slip rest outer, account.Breaks error demand slip rest outer) := by
  intro account ledger
  have sound := Account.sound error demands
  have counted : (ledger.begun ++ ledger.queue ++ account.discarded).Perm ledger.enqueued := by
    have counted := sound.counted
    rwa [tally, waiting_nil, List.append_nil] at counted
  refine ⟨served_eq error demands, sound.successive, counted, counted.nodup_iff.mpr sound.nodup,
    sound.shown, discarded_of_ok, ?_⟩
  intro demand begins later
  obtain ⟨outcome, abandoned, ended, lost, ends⟩ := serve_ends error account demand
  have outcomes : ((numbered error).work (account.start error demand).1
      (account.start error demand).2).1 = outcome := by
    simpa [serve] using ended
  have shown := serve_shows error account demand
  rw [outcomes] at shown
  have real := (bounded_agenda error).work_ends begins.1 begins.2
  rw [← demand.serve_eq_work, shown] at real
  refine ⟨outcome, _, shown, real, ?_, ?_⟩
  · rintro rfl
    have kept : later.discarded = account.discarded := by
      rw [lost, ends.leads.2]
      exact List.append_nil _
    refine ⟨kept, ?_⟩
    rintro rfl
    have drained := drained_of_flush ends
    refine ⟨drained, fun none => ?_⟩
    have after := ((sound.start .flush).ends ends).counted
    rw [tally, drained, none, ends.leads.2] at after
    simpa using after
  · intro failed
    cases outcome with
    | ok done => exact absurd rfl failed
    | error fault =>
      obtain ⟨rfl, breaks⟩ := breaks_of_error sound lost ends
      exact ⟨rfl, breaks⟩

/-- What an errand enqueues before it fails does not always stay in the queue: an errand that also
has the queue performed has already had it carried out. -/
theorem followUp_gone_after_fail :
    let child : Errand := .mk [code 'B'] [] false false
    let parent : Errand := .mk [code 'A'] [child] true true
    let (outcomes, board) := served Fault.diskFull [.enqueue parent, .perform]
    outcomes = [.ok (), .error .diskFull] ∧ labels board.events = [parent.label, child.label] ∧
      child ∈ parent.followUps ∧ child ∉ board.queue := by
  refine ⟨rfl, rfl, List.mem_singleton_self _, ?_⟩
  exact List.not_mem_nil

end Account

end DosText.Errand
