import DosText.Proofs.ErrandAccounts

/-! The order in which errands begin, where none fails. A performance of the queue does not look at
the batches that are under way already: the errands that are left in those stay behind, and are
overtaken by what has been enqueued since. That is the only way in which errands get out of the
order in which they were enqueued. -/

namespace DosText.Errand

/-- An errand that does not fail, nor does any that it leads to. -/
inductive Succeeds : Errand → Prop where
  | mk {label : Bytes} {followUps : List Errand} {performs : Bool}
    (all : ∀ followUp ∈ followUps, Succeeds followUp) :
    Succeeds (.mk label followUps performs false)

theorem Succeeds.fails {errand : Errand} (succeeds : Succeeds errand) : errand.fails = false := by
  cases succeeds
  rfl

theorem Succeeds.followUps {errand : Errand} (succeeds : Succeeds errand) :
    ∀ followUp ∈ errand.followUps, Succeeds followUp := by
  cases succeeds with
  | mk all => exact all

variable {Error : Type} {error : Error} {lost : List Slip} {stack next outer : Stack}
variable {ledger later : Ledger}

/-- No errand fails that has been enqueued or is about to be. -/
structure Untroubled (stack : Stack) (ledger : Ledger) : Prop where
  enqueued : ∀ slip ∈ ledger.enqueued, Succeeds slip.errand
  coming : ∀ errand ∈ (remaining stack).filterMap Part.enqueues, Succeeds errand

namespace Untroubled

theorem step (untroubled : Untroubled stack ledger) (sound : Sound lost stack ledger)
    (step : Step stack ledger next later) : Untroubled next later := by
  obtain ⟨enqueued, coming⟩ := untroubled
  cases step with
  | @enqueued slip? errand rest outer =>
    obtain ⟨here, others⟩ := List.forall_mem_cons.mp coming
    exact ⟨List.forall_mem_append.mpr ⟨enqueued, List.forall_mem_singleton.mpr here⟩, others⟩
  | @begun slip rest outer =>
    have taken : slip ∈ ledger.enqueued := sound.mem_enqueued (by simp)
    refine ⟨enqueued, ?_⟩
    rw [remaining_cons, instructions_script, List.filterMap_append, enqueues_parts]
    exact List.forall_mem_append.mpr ⟨(enqueued slip taken).followUps, coming⟩
  | _ => exact ⟨enqueued, coming⟩

theorem leads {start : Stack} {initial : Ledger} (untroubled : Untroubled start initial)
    (sound : Sound lost start initial)
    (leads : (numbered error).Leads start initial stack ledger) : Untroubled stack ledger := by
  induction leads with
  | refl => exact untroubled
  | step earlier advanced ih => exact ih.step (sound.leads earlier) (step_of_advance advanced)

/-- Work that nothing troubles comes to its end. -/
theorem ends {start abandoned : Stack} {initial last : Ledger} {outcome : Except Error Unit}
    (untroubled : Untroubled start initial) (sound : Sound lost start initial)
    (ends : (numbered error).Ends start initial outcome abandoned last) :
    outcome = .ok () ∧ (numbered error).Leads start initial [] last := by
  cases ends with
  | done leads => exact ⟨rfl, leads⟩
  | failed leads fails =>
    obtain ⟨rfl, rfl, slip?, rest, outer, rfl⟩ := fail_of_advance fails
    have reached := sound.leads leads
    obtain ⟨slip, rfl, fails, begun⟩ := reached.of_fail
    have enqueued := reached.mem_enqueued (List.mem_append_left _ begun)
    have succeeds := (untroubled.leads sound leads).enqueued slip enqueued
    exact absurd succeeds.fails (by simp [fails])

end Untroubled

/-- Where nothing troubles, the queue can be performed. -/
theorem Untroubled.performs (error : Error) (untroubled : Untroubled stack ledger)
    (sound : Sound lost stack ledger) :
    ∃ any later, (numbered error).perform ledger = (.ok any, later) ∧
      (numbered error).Leads [.batch ledger.queue] ledger.taken [] later := by
  have calm : Untroubled [.batch ledger.queue] ledger.taken := ⟨untroubled.enqueued, nofun⟩
  obtain ⟨succeeded, leads⟩ := calm.ends sound.performing
    ((bounded_numbered error).work_ends [.batch ledger.queue] ledger.taken)
  rw [← numbered_perform_eq_work] at succeeded leads
  rcases performed : (numbered error).perform ledger with ⟨fault | any, later⟩
  · rw [Attempt.bind_of_error _ performed] at succeeded
    cases succeeded
  · rw [Attempt.bind_of_ok _ performed] at leads
    exact ⟨any, later, rfl, leads⟩

theorem Sound.waiting_of_calling (sound : Sound lost stack ledger) (calling : Calling stack) :
    waiting stack = leftover stack := by
  refine waiting_eq_leftover ?_
  cases calling with
  | errand => exact List.forall_mem_cons.mpr ⟨rfl, sound.tidy⟩
  | flush => exact sound.tidy

theorem begun_grows_of_leads {start : Stack} {initial : Ledger}
    (leads : (numbered error).Leads start initial stack ledger) :
    initial.begun <+: ledger.begun := by
  induction leads with
  | refl => exact List.prefix_rfl
  | step earlier advanced ih => exact ih.trans (step_of_advance advanced).begun_grows

theorem taken_subset_of_leads {start : Stack} {initial : Ledger}
    (leads : (numbered error).Leads start initial stack ledger) :
    initial.begun ++ waiting start ⊆ ledger.begun ++ waiting stack := by
  induction leads with
  | refl => exact List.Subset.refl _
  | step earlier advanced ih =>
    exact List.Subset.trans ih (step_of_advance advanced).taken_subset

/-- What waits in the queue after steps from an empty queue was enqueued on the way. -/
theorem recent_of_leads {start : Stack} {initial : Ledger}
    (leads : (numbered error).Leads start initial stack ledger) (empty : initial.queue = []) :
    initial.enqueued <+: ledger.enqueued ∧
      ∀ slip ∈ ledger.queue, initial.enqueued.length ≤ slip.number := by
  induction leads with
  | refl =>
    refine ⟨List.prefix_rfl, ?_⟩
    rw [empty]
    nofun
  | @step stack next ledger later earlier advanced ih =>
    obtain ⟨enqueued, recent⟩ := ih
    have step := step_of_advance advanced
    refine ⟨?_, ?_⟩
    · rcases step.moves with ⟨_, _, given⟩ | ⟨errand, _, _, given⟩ | ⟨_, rfl, _, _⟩
      · rwa [given]
      · rw [given]
        exact enqueued.trans (List.prefix_append _ _)
      · exact enqueued
    · rcases step.moves with ⟨_, queued, _⟩ | ⟨errand, _, queued, _⟩ | ⟨_, rfl, _, _⟩
      · rwa [queued]
      · rw [queued]
        exact List.forall_mem_append.mpr ⟨recent,
          List.forall_mem_singleton.mpr enqueued.length_le⟩
      · nofun

/-- Of the errands that had been enqueued before, a performance leaves behind those that batches
under way still hold, and no others. -/
theorem Sound.mem_leftover_iff (sound : Sound [] stack ledger)
    (left : waiting stack = leftover stack)
    (leads : (numbered error).Leads [.batch ledger.queue] ledger.taken [] later) (slip : Slip) :
    slip ∈ leftover stack ↔ slip ∈ ledger.enqueued ∧ slip ∉ later.begun := by
  have after := sound.performing.leads leads
  have counted : (later.begun ++ later.queue ++ leftover stack).Perm later.enqueued := by
    simpa [tally, left] using after.counted
  have once := List.nodup_append.mp (counted.nodup_iff.mpr after.nodup)
  obtain ⟨enqueued, recent⟩ := recent_of_leads leads rfl
  constructor
  · intro member
    have taken : slip ∈ ledger.begun ++ waiting stack :=
      List.mem_append_right _ (left ▸ member)
    refine ⟨sound.mem_enqueued taken, fun begun => ?_⟩
    exact once.2.2 slip (List.mem_append_left _ begun) slip member rfl
  · rintro ⟨before, begun⟩
    have among := counted.mem_iff.mpr (enqueued.subset before)
    rcases List.mem_append.mp among with here | member
    · have queued := recent slip ((List.mem_append.mp here).resolve_left begun)
      exact absurd (sound.number_lt before) (Nat.not_lt.mpr queued)
    · exact member

/-- The frames with which work goes on when the performance that they call for has returned. -/
def returned (any : Bool) : Stack → Stack
  | .script (part :: rest) :: outer =>
    .script [⟨part.slip?, .note (.performed any)⟩] :: .script rest :: outer
  | .flush :: outer => if any then .flush :: outer else outer
  | stack => stack

theorem leads_returned {any : Bool} (calling : Calling stack)
    (performed : (numbered error).perform ledger = (.ok any, later)) :
    (numbered error).Leads stack ledger (returned any stack) later := by
  cases calling with
  | @errand slip? =>
    have ordered : (numbered error).order ⟨slip?, .perform⟩ =
      .perform fun any => [⟨slip?, .note (.performed any)⟩] := rfl
    exact (bounded_numbered error).leads_performed ordered performed
  | flush => exact (bounded_numbered error).leads_flushing performed

/-- The queue is performed while a stack of frames is under way: the owner asks for it when there
are none, or the work of a demand reaches frames that call for it. -/
inductive Calls (error : Error) (demands : List Demand) : Stack → Ledger → Prop where
  | owner {before after : List Demand} (split : demands = before ++ .perform :: after) :
    Calls error demands [] (Account.of error before).ledger
  | within {before after : List Demand} {demand : Demand} {stack : Stack} {ledger : Ledger}
    (split : demands = before ++ demand :: after)
    (reached : (numbered error).Leads ((Account.of error before).start error demand).1
      ((Account.of error before).start error demand).2 stack ledger)
    (calling : Calling stack) : Calls error demands stack ledger

theorem Calls.append {demands : List Demand} (calls : Calls error demands stack ledger)
    (others : List Demand) : Calls error (demands ++ others) stack ledger := by
  cases calls with
  | owner split => exact .owner (by rw [split, List.append_assoc, List.cons_append])
  | within split reached calling =>
    exact .within (by rw [split, List.append_assoc, List.cons_append]) reached calling

section Demands

variable {account : Account Error} {demands : List Demand} {demand : Demand}

theorem Untroubled.start (untroubled : Untroubled [] account.ledger)
    (succeeds : ∀ errand, demand = .enqueue errand → Succeeds errand) :
    Untroubled (account.start error demand).1 (account.start error demand).2 := by
  cases demand with
  | enqueue errand =>
    exact ⟨untroubled.enqueued, List.forall_mem_singleton.mpr (succeeds errand rfl)⟩
  | perform => exact ⟨untroubled.enqueued, nofun⟩
  | flush => exact ⟨untroubled.enqueued, nofun⟩

/-- Where nothing troubles, a demand is served to the end. -/
theorem Account.leads_of_untroubled (sound : Sound account.discarded [] account.ledger)
    (untroubled : Untroubled (account.start error demand).1 (account.start error demand).2) :
    (account.serve error demand).outcomes = account.outcomes ++ [.ok ()] ∧
      (numbered error).Leads (account.start error demand).1 (account.start error demand).2 []
        (account.serve error demand).ledger := by
  obtain ⟨outcome, abandoned, ended, _, ends⟩ := serve_ends error account demand
  obtain ⟨rfl, leads⟩ := untroubled.ends (sound.start demand) ends
  exact ⟨ended, leads⟩

theorem Account.begun_grows (error : Error) (before after : List Demand) :
    (Account.of error before).ledger.begun <+:
      (Account.of error (before ++ after)).ledger.begun := by
  induction after using List.reverseRecOn with
  | nil =>
    simp only [List.append_nil, List.prefix_rfl]
  | append_singleton others demand ih =>
    rw [← List.append_assoc, of_concat]
    refine ih.trans ?_
    have same : ((Account.of error (before ++ others)).start error demand).2.begun =
        (Account.of error (before ++ others)).ledger.begun := by
      cases demand <;> rfl
    rw [← same]
    obtain ⟨outcome, abandoned, _, _, ends⟩ :=
      serve_ends error (Account.of error (before ++ others)) demand
    cases ends with
    | done leads => exact begun_grows_of_leads leads
    | failed leads fails =>
      rw [(fail_of_advance fails).2.1]
      exact begun_grows_of_leads leads

/-- Where no errand fails, all demands are served and nothing is discarded. -/
theorem Account.of_succeeding (error : Error)
    (succeeds : ∀ errand, .enqueue errand ∈ demands → Succeeds errand) :
    (∀ outcome ∈ (Account.of error demands).outcomes, outcome = .ok ()) ∧
      Sound [] [] (Account.of error demands).ledger ∧
        Untroubled [] (Account.of error demands).ledger := by
  have sound := Account.sound error demands
  induction demands using List.reverseRecOn with
  | nil => exact ⟨nofun, sound, nofun, nofun⟩
  | append_singleton demands demand ih =>
    have before := Account.sound error demands
    obtain ⟨outcomes, _, untroubled⟩ :=
      ih (fun errand member => succeeds errand (List.mem_append_left _ member)) before
    have starts : Untroubled ((Account.of error demands).start error demand).1
        ((Account.of error demands).start error demand).2 :=
      untroubled.start fun errand same =>
        succeeds errand (List.mem_append_right _ (List.mem_singleton.mpr same.symm))
    obtain ⟨ended, leads⟩ := leads_of_untroubled before starts
    have all : ∀ outcome ∈ (Account.of error (demands ++ [demand])).outcomes,
        outcome = .ok () := by
      rw [of_concat, ended]
      exact List.forall_mem_append.mpr ⟨outcomes, List.forall_mem_singleton.mpr rfl⟩
    refine ⟨all, discarded_of_ok all ▸ sound, ?_⟩
    rw [of_concat]
    exact starts.leads (before.start demand) leads

/-- Where no errand fails, each demand starts from a good state and is served to the end. -/
theorem Account.leads_of_split {before after : List Demand} (error : Error)
    (succeeds : ∀ errand, .enqueue errand ∈ demands → Succeeds errand)
    (split : demands = before ++ demand :: after) :
    Sound [] ((Account.of error before).start error demand).1
        ((Account.of error before).start error demand).2 ∧
      Untroubled ((Account.of error before).start error demand).1
          ((Account.of error before).start error demand).2 ∧
        (numbered error).Leads ((Account.of error before).start error demand).1
          ((Account.of error before).start error demand).2 []
          (Account.of error (before ++ [demand])).ledger := by
  subst split
  obtain ⟨outcomes, sound, untroubled⟩ := Account.of_succeeding error fun errand member =>
    succeeds errand (List.mem_append_left _ member)
  have none := discarded_of_ok outcomes
  rw [← none] at sound
  have starts : Untroubled ((Account.of error before).start error demand).1
      ((Account.of error before).start error demand).2 :=
    untroubled.start fun errand same =>
      succeeds errand (List.mem_append_right _ (same ▸ List.mem_cons_self))
  rw [of_concat]
  exact ⟨none ▸ sound.start demand, starts, (leads_of_untroubled sound starts).2⟩

theorem Calls.sound (succeeds : ∀ errand, .enqueue errand ∈ demands → Succeeds errand)
    (calls : Calls error demands stack ledger) :
    Sound [] stack ledger ∧ Untroubled stack ledger ∧ waiting stack = leftover stack := by
  cases calls with
  | @owner before after split =>
    subst split
    obtain ⟨_, sound, untroubled⟩ := Account.of_succeeding error fun errand member =>
      succeeds errand (List.mem_append_left _ member)
    exact ⟨sound, untroubled, rfl⟩
  | within split reached calling =>
    obtain ⟨starts, calm, _⟩ := Account.leads_of_split error succeeds split
    have sound := starts.leads reached
    exact ⟨sound, calm.leads starts reached, sound.waiting_of_calling calling⟩

/-- In the order in which they were enqueued. -/
def InOrder (slips : List Slip) : Prop := (numbers slips).Pairwise (· < ·)

/-- A step keeps the order unless it has the queue performed past what a batch still holds. -/
theorem Step.inOrder (step : Step stack ledger next later) (sound : Sound [] stack ledger)
    (ordered : InOrder (tally stack ledger))
    (free : Calling stack → leftover stack = [] ∨ ledger.queue = []) :
    InOrder (tally next later) := by
  unfold tally at *
  rcases step.moves with ⟨same, queued, _⟩ | ⟨errand, same, queued, _⟩ | ⟨calling, rfl, some, taken⟩
  · rwa [same, queued]
  · rw [same, queued, ← List.append_assoc]
    unfold InOrder
    rw [numbers_append]
    refine List.pairwise_append.mpr ⟨ordered, List.pairwise_singleton .., ?_⟩
    intro number member last new
    obtain ⟨slip, among, rfl⟩ := List.mem_map.mp member
    obtain rfl := List.mem_singleton.mp new
    exact sound.number_lt (sound.counted.mem_iff.mp (List.mem_append_left [] among))
  · have none : waiting stack = [] :=
      (sound.waiting_of_calling calling).trans ((free calling).resolve_right some)
    rw [none, List.append_nil] at taken ordered
    rw [taken, Ledger.taken, List.append_nil]
    exact ordered

theorem inOrder_of_leads {start : Stack} {initial : Ledger} (sound : Sound [] start initial)
    (ordered : InOrder (tally start initial))
    (free : ∀ stack ledger, (numbered error).Leads start initial stack ledger → Calling stack →
      leftover stack = [] ∨ ledger.queue = [])
    (leads : (numbered error).Leads start initial stack ledger) : InOrder (tally stack ledger) := by
  induction leads with
  | refl => exact ordered
  | step earlier advanced ih =>
    exact (step_of_advance advanced).inOrder (sound.leads earlier) ih (free _ _ earlier)

/-- Where no performance passes what a batch still holds, errands begin in order. -/
theorem inOrder_of_free (succeeds : ∀ errand, .enqueue errand ∈ demands → Succeeds errand)
    (free : ∀ stack ledger, Calls error demands stack ledger →
      leftover stack = [] ∨ ledger.queue = []) :
    InOrder (tally [] (Account.of error demands).ledger) := by
  induction demands using List.reverseRecOn with
  | nil => exact List.Pairwise.nil
  | append_singleton demands demand ih =>
    have before := ih (fun errand member => succeeds errand (List.mem_append_left _ member))
      fun stack ledger calls => free stack ledger (calls.append [demand])
    obtain ⟨sound, _, leads⟩ := Account.leads_of_split error succeeds rfl
    have starts : InOrder (tally ((Account.of error demands).start error demand).1
        ((Account.of error demands).start error demand).2) := by
      cases demand with
      | enqueue errand => exact before
      | perform => simpa [tally, Account.start, Demand.start, numbered, Ledger.taken] using before
      | flush => exact before
    refine inOrder_of_leads sound starts ?_ leads
    exact fun stack ledger reached calling => free stack ledger (.within rfl reached calling)

/-- Where a performance passes what a batch still holds, errands do not begin in order. -/
theorem not_inOrder_of_passed (succeeds : ∀ errand, .enqueue errand ∈ demands → Succeeds errand)
    (calls : Calls error demands stack ledger) (passed : leftover stack ≠ [])
    (some : ledger.queue ≠ []) : ¬ InOrder (Account.of error demands).ledger.begun := by
  obtain ⟨sound, untroubled, left⟩ := calls.sound succeeds
  cases calls with
  | owner => exact absurd rfl passed
  | @within before after demand stack ledger split reached calling =>
    obtain ⟨_, _, leads⟩ := Account.leads_of_split error succeeds split
    obtain ⟨any, later, performed, batch⟩ := untroubled.performs error sound
    obtain ⟨old, held⟩ := List.exists_mem_of_ne_nil _ passed
    obtain ⟨new, waits⟩ := List.exists_mem_of_ne_nil _ some
    have taken : old ∈ ledger.begun ++ waiting stack := List.mem_append_right _ (left ▸ held)
    have smaller := sound.recent old taken new waits
    have stays := ((sound.mem_leftover_iff left batch old).mp held).2
    have goes : new ∈ later.begun := by
      by_contra behind
      have enqueued : new ∈ ledger.enqueued :=
        sound.counted.mem_iff.mp (List.mem_append_left [] (List.mem_append_right _ waits))
      have among := (sound.mem_leftover_iff left batch new).mpr ⟨enqueued, behind⟩
      have itself := sound.recent new (List.mem_append_right _ (left ▸ among)) new waits
      exact absurd itself (Nat.lt_irrefl _)
    have ends := leads.rest reached
    have returns := ends.rest (leads_returned calling performed)
    have whole := Account.begun_grows error (before ++ [demand]) after
    rw [List.append_assoc, List.singleton_append, ← split] at whole
    have begins : old ∈ (Account.of error demands).ledger.begun :=
      whole.subset (by simpa using taken_subset_of_leads ends taken)
    intro inOrder
    obtain ⟨others, same⟩ := (begun_grows_of_leads returns).trans whole
    rw [← same] at inOrder begins
    unfold InOrder at inOrder
    rw [numbers_append] at inOrder
    have apart := (List.pairwise_append.mp inOrder).2.2 new.number (List.mem_map_of_mem goes)
      old.number (List.mem_map_of_mem ((List.mem_append.mp begins).resolve_left stays))
    omega

/-- Where no errand fails, every performance of the queue returns. Of the errands that had been
enqueued before it began, it leaves behind exactly those that batches under way still hold, so a
performance that is called for by an errand leaves the rest of that errand's batch behind; and all
errands begin in the order in which they were enqueued, unless a performance that leaves some behind
finds others in the queue. -/
theorem performances_return (error : Error) (demands : List Demand)
    (succeeds : ∀ errand, .enqueue errand ∈ demands → Succeeds errand) :
    (∀ outcome ∈ (served error demands).1, outcome = .ok ()) ∧
      (∀ stack ledger, Calls error demands stack ledger → ∃ any later,
        (numbered error).perform ledger = (.ok any, later) ∧
          (Calling stack → (numbered error).Leads stack ledger (returned any stack) later) ∧
          ∀ slip, slip ∈ leftover stack ↔ slip ∈ ledger.enqueued ∧ slip ∉ later.begun) ∧
      (InOrder (Account.of error demands).ledger.begun ↔
        ∀ stack ledger, Calls error demands stack ledger →
          leftover stack = [] ∨ ledger.queue = []) := by
  refine ⟨?_, ?_, ?_⟩
  · rw [Account.served_eq]
    exact (Account.of_succeeding error succeeds).1
  · intro stack ledger calls
    obtain ⟨sound, untroubled, left⟩ := calls.sound succeeds
    obtain ⟨any, later, performed, batch⟩ := untroubled.performs error sound
    exact ⟨any, later, performed, fun calling => leads_returned calling performed,
      sound.mem_leftover_iff left batch⟩
  · constructor
    · intro ordered stack ledger calls
      by_contra both
      obtain ⟨passed, some⟩ := not_or.mp both
      exact not_inOrder_of_passed succeeds calls passed some ordered
    · intro free
      have ordered := inOrder_of_free succeeds free
      unfold InOrder tally at ordered
      rw [waiting_nil, List.append_nil, numbers_append] at ordered
      exact (List.pairwise_append.mp ordered).1

/-- An errand that has the queue performed leaves behind what stood after it in its own batch, and
its follow-up overtakes that. -/
theorem performances_return_overtaking :
    let child : Errand := .mk [code 'C'] [] false false
    let parent : Errand := .mk [code 'A'] [child] true false
    let other : Errand := .mk [code 'B'] [] false false
    let demands : List Demand := [.enqueue parent, .enqueue other, .perform]
    (∀ errand, .enqueue errand ∈ demands → Succeeds errand) ∧
      labels (served Fault.diskFull demands).2.events = [parent.label, child.label, other.label] ∧
      ∃ stack ledger any later, Calls Fault.diskFull demands stack ledger ∧
        (numbered Fault.diskFull).perform ledger = (.ok any, later) ∧
        ∃ slip ∈ ledger.enqueued, slip ∉ later.begun := by
  intro child parent other demands
  have alone (label : Bytes) (performs : Bool) : Succeeds (.mk label [] performs false) :=
    .mk nofun
  have succeeds : ∀ errand, .enqueue errand ∈ demands → Succeeds errand := by
    intro errand member
    rcases List.mem_cons.mp member with same | member
    · cases same
      exact .mk (List.forall_mem_singleton.mpr (alone _ _))
    · rcases List.mem_cons.mp member with same | member
      · cases same
        exact alone _ _
      · cases List.mem_singleton.mp member
  obtain ⟨_, returns, order⟩ := performances_return Fault.diskFull demands succeeds
  have overtaken : ¬ InOrder (Account.of Fault.diskFull demands).ledger.begun := by
    have begun : numbers (Account.of Fault.diskFull demands).ledger.begun = [0, 2, 1] := by
      decide +kernel
    unfold InOrder
    rw [begun]
    decide
  refine ⟨succeeds, by decide +kernel, ?_⟩
  have passed : ∃ stack ledger, Calls Fault.diskFull demands stack ledger ∧
      leftover stack ≠ [] := by
    by_contra none
    refine overtaken (order.mpr fun stack ledger calls => .inl ?_)
    by_contra behind
    exact none ⟨stack, ledger, calls, behind⟩
  obtain ⟨stack, ledger, calls, behind⟩ := passed
  obtain ⟨slip, held⟩ := List.exists_mem_of_ne_nil _ behind
  obtain ⟨any, later, performed, _, left⟩ := returns stack ledger calls
  exact ⟨stack, ledger, any, later, calls, performed, slip, (left slip).mp held⟩

end Demands

end DosText.Errand
