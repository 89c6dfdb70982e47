import DosText.Proofs.ErrandAccounts

/-! Errands by generations. Errands that only enqueue others are performed level by level: each
performance of the queue carries out one level of the trees that the errands are, from left to
right, and leaves the next one in the queue. -/

namespace DosText

namespace Errand

/-- An errand that only enqueues others, as all do that it leads to. -/
inductive Plain : Errand → Prop where
  | mk {label : Bytes} {followUps : List Errand} (all : ∀ followUp ∈ followUps, Plain followUp) :
    Plain (.mk label followUps false false)

/-- The errands at a depth below an errand, from left to right. -/
def atDepth : Nat → Errand → List Errand
  | 0, errand => [errand]
  | depth + 1, errand => errand.followUps.flatMap (atDepth depth)

/-- The errands at a depth of trees that stand side by side. -/
def level (forest : List Errand) (depth : Nat) : List Errand := forest.flatMap (atDepth depth)

mutual

/-- How many levels an errand and those below it take up. -/
def height : Errand → Nat
  | mk _ followUps _ _ => heights followUps + 1

def heights : List Errand → Nat
  | [] => 0
  | first :: rest => max (height first) (heights rest)

end

section Levels

variable (forest : List Errand) (depth : Nat)

@[simp] theorem level_zero : level forest 0 = forest := by
  simp [level, atDepth, List.flatMap_singleton']

theorem level_succ : level forest (depth + 1) = level (forest.flatMap followUps) depth := by
  simp [level, atDepth, List.flatMap_assoc]

/-- The next level consists of the follow-ups of a level. -/
theorem level_succ_eq_flatMap :
    level forest (depth + 1) = (level forest depth).flatMap followUps := by
  induction depth generalizing forest with
  | zero => rw [level_succ, level_zero, level_zero]
  | succ depth ih => rw [level_succ, ih, ← level_succ]

theorem height_eq (errand : Errand) : height errand = heights errand.followUps + 1 := by
  cases errand
  rw [height]
  rfl

theorem heights_append (first second : List Errand) :
    heights (first ++ second) = max (heights first) (heights second) := by
  induction first with
  | nil => simp [heights]
  | cons errand rest ih => simp [heights, ih, Nat.max_assoc]

theorem heights_followUps : heights (forest.flatMap followUps) = heights forest - 1 := by
  induction forest with
  | nil => rfl
  | cons first rest ih =>
    rw [List.flatMap_cons, heights_append, ih, heights, height_eq]
    omega

/-- The height of trees is the number of levels that are inhabited. -/
theorem lt_heights_iff : depth < heights forest ↔ level forest depth ≠ [] := by
  induction depth generalizing forest with
  | zero =>
    rw [level_zero]
    cases forest with
    | nil => simp [heights]
    | cons first rest =>
      refine iff_of_true ?_ (List.cons_ne_nil first rest)
      rw [heights, height_eq]
      omega
  | succ depth ih =>
    rw [level_succ, ← ih, heights_followUps]
    omega

end Levels

section Generations

variable {Error : Type} (error : Error)

theorem carryOut_note (slip? : Option Slip) (event : Event) (rest : List Part) (ledger : Ledger) :
    (numbered error).carryOut (⟨slip?, .note event⟩ :: rest) ledger =
      (numbered error).carryOut rest (ledger.note ⟨slip?, .note event⟩ event) :=
  (bounded_numbered error).carryOut_of_act rfl rfl

theorem carryOut_enqueue (slip? : Option Slip) (errand : Errand) (rest : List Part)
    (ledger : Ledger) :
    (numbered error).carryOut (⟨slip?, .enqueue errand⟩ :: rest) ledger =
      (numbered error).carryOut rest (ledger.enqueue errand) :=
  (bounded_numbered error).carryOut_of_act rfl rfl

/-- The ledger after slips have begun and fresh ones have been enqueued. -/
def Ledger.advanced (ledger : Ledger) (begun fresh : List Slip) : Ledger where
  queue := ledger.queue ++ fresh
  enqueued := ledger.enqueued ++ fresh
  begun := ledger.begun ++ begun
  events := ledger.events ++ begun.map (.ran ·.errand.label)

theorem carryOut_enqueues (slip? : Option Slip) (errands : List Errand) (ledger : Ledger) :
    ∃ fresh, fresh.map Slip.errand = errands ∧
      (numbered error).carryOut (errands.map (⟨slip?, .enqueue ·⟩)) ledger =
        (.ok (), ledger.advanced [] fresh) := by
  induction errands generalizing ledger with
  | nil =>
    refine ⟨[], rfl, ?_⟩
    rw [List.map_nil, (bounded_numbered error).carryOut_nil]
    simp [Ledger.advanced]
  | cons first rest ih =>
    obtain ⟨fresh, rfl, carried⟩ := ih (ledger.enqueue first)
    refine ⟨ledger.slip first :: fresh, rfl, ?_⟩
    rw [List.map_cons, carryOut_enqueue, carried]
    simp [Ledger.advanced, Ledger.enqueue]

theorem Plain.deeds {errand : Errand} (plain : Plain errand) :
    errand.deeds = errand.followUps.map .enqueue := by
  cases plain
  simp [Errand.deeds, Errand.followUps]

/-- An errand that only enqueues others has begun when it is done, and they wait behind the rest. -/
theorem carryOut_plain {slip : Slip} (plain : Plain slip.errand) (ledger : Ledger) :
    ∃ fresh, fresh.map Slip.errand = slip.errand.followUps ∧
      (numbered error).carryOut ((numbered error).body slip) ledger =
        (.ok (), ledger.advanced [slip] fresh) := by
  have body : (numbered error).body slip = slip.parts := rfl
  rw [body, parts_eq, plain.deeds, List.map_map, carryOut_note]
  obtain ⟨fresh, same, carried⟩ := carryOut_enqueues error (some slip)
    slip.errand.followUps (ledger.note ⟨some slip, .note (.ran slip.errand.label)⟩
      (.ran slip.errand.label))
  refine ⟨fresh, same, carried.trans ?_⟩
  simp [Ledger.advanced, Ledger.note, Part.begins]

/-- A batch of such errands leaves what it enqueues, in order. -/
theorem work_plain {slips : List Slip} (plain : ∀ slip ∈ slips, Plain slip.errand)
    (ledger : Ledger) :
    ∃ fresh, fresh.map Slip.errand = slips.flatMap (·.errand.followUps) ∧
      (numbered error).work [.batch slips] ledger = (.ok (), ledger.advanced slips fresh) := by
  rw [(bounded_numbered error).work_batch]
  induction slips generalizing ledger with
  | nil =>
    refine ⟨[], rfl, ?_⟩
    rw [List.flatMap_nil, (bounded_numbered error).carryOut_nil]
    simp [Ledger.advanced]
  | cons first rest ih =>
    obtain ⟨here, others⟩ := List.forall_mem_cons.mp plain
    obtain ⟨fresh, same, carried⟩ := carryOut_plain error here ledger
    obtain ⟨later, alike, worked⟩ := ih others (ledger.advanced [first] fresh)
    refine ⟨fresh ++ later, by simp [same, alike], ?_⟩
    rw [List.flatMap_cons, (bounded_numbered error).carryOut_append, Attempt.bind_of_ok _ carried,
      worked]
    simp [Ledger.advanced]

/-- The board when the levels above a depth have been carried out. -/
def boardAt (forest : List Errand) (depth : Nat) : Board where
  queue := level forest depth
  events := ((List.range depth).flatMap (level forest)).map (.ran ·.label)

/-- The ledger when the levels above a depth have been carried out. -/
structure Level (forest : List Errand) (depth : Nat) (ledger : Ledger) : Prop where
  queue : ledger.queue.map Slip.errand = level forest depth
  begun : ledger.begun.map Slip.errand = (List.range depth).flatMap (level forest)
  /-- Errands begin in the order in which they were enqueued. -/
  enqueued : ledger.enqueued = ledger.begun ++ ledger.queue
  events : ledger.events = ledger.begun.map (.ran ·.errand.label)

theorem Plain.followUps {errand : Errand} (plain : Plain errand) :
    ∀ followUp ∈ errand.followUps, Plain followUp := by
  cases plain with
  | mk all => exact all

variable {forest : List Errand} {depth : Nat} {ledger : Ledger}

theorem plain_level (plain : ∀ errand ∈ forest, Plain errand) (depth : Nat) :
    ∀ errand ∈ level forest depth, Plain errand := by
  induction depth with
  | zero => rwa [level_zero]
  | succ depth ih =>
    intro errand member
    rw [level_succ_eq_flatMap] at member
    obtain ⟨parent, above, below⟩ := List.mem_flatMap.mp member
    exact (ih parent above).followUps errand below

namespace Level

theorem board_eq (reached : Level forest depth ledger) : ledger.board = boardAt forest depth := by
  unfold Ledger.board boardAt
  rw [reached.queue, reached.events, ← reached.begun, List.map_map]
  rfl

theorem queue_eq_nil_iff (reached : Level forest depth ledger) :
    ledger.queue = [] ↔ ¬ depth < heights forest := by
  rw [lt_heights_iff, ← reached.queue, not_not, List.map_eq_nil_iff]

/-- A level that is inhabited is carried out by one performance, and leaves the next one. -/
theorem perform (reached : Level forest depth ledger) (plain : ∀ errand ∈ forest, Plain errand)
    (inhabited : depth < heights forest) :
    ∃ later, (numbered error).perform ledger = (.ok true, later) ∧
      Level forest (depth + 1) later := by
  have waiting : ledger.queue ≠ [] := fun none => reached.queue_eq_nil_iff.mp none inhabited
  obtain ⟨first, others, same⟩ := List.exists_cons_of_ne_nil waiting
  have all : ∀ slip ∈ ledger.queue, Plain slip.errand := by
    intro slip member
    refine plain_level plain depth slip.errand ?_
    rw [← reached.queue]
    exact List.mem_map_of_mem member
  obtain ⟨fresh, enqueued, worked⟩ := work_plain error all ledger.taken
  refine ⟨ledger.taken.advanced ledger.queue fresh, ?_, ?_, ?_, ?_, ?_⟩
  · rw [Agenda.perform_of_some same, ← same]
    exact Attempt.bind_of_ok _ worked
  · rw [level_succ_eq_flatMap, ← reached.queue, List.flatMap_map]
    exact enqueued
  · rw [List.range_succ, List.flatMap_append, List.flatMap_singleton, ← reached.begun,
      ← reached.queue, ← List.map_append]
    rfl
  · exact congrArg (· ++ fresh) reached.enqueued
  · show ledger.events ++ _ = _
    rw [reached.events, ← List.map_append]
    rfl

/-- Where a level is not inhabited, nothing waits, and there are no more levels. -/
theorem refused (reached : Level forest depth ledger) (empty : ¬ depth < heights forest) :
    (numbered error).perform ledger = (.ok false, ledger) ∧ Level forest (depth + 1) ledger := by
  have waiting := reached.queue_eq_nil_iff.mpr empty
  have none : level forest depth = [] := by
    rw [← reached.queue, waiting]
    rfl
  refine ⟨Agenda.perform_of_none waiting, ?_, ?_, reached.enqueued, reached.events⟩
  · rw [level_succ_eq_flatMap, none, waiting]
    rfl
  · rw [List.range_succ, List.flatMap_append, List.flatMap_singleton, none, List.append_nil]
    exact reached.begun

/-- From any level on, all levels that are left are carried out one after the other. -/
theorem drains (reached : Level forest depth ledger) (plain : ∀ errand ∈ forest, Plain errand)
    {count : Nat} (left : depth + count = heights forest) :
    ∃ later, (numbered error).Drains (count + 1) ledger later ∧
      Level forest (heights forest) later := by
  induction count generalizing depth ledger with
  | zero =>
    obtain rfl : depth = heights forest := left
    exact ⟨ledger, .last (reached.refused error (Nat.lt_irrefl _)).1, reached⟩
  | succ count ih =>
    obtain ⟨between, performed, next⟩ := reached.perform error plain (by omega)
    obtain ⟨later, drains, last⟩ := ih next (by omega)
    exact ⟨later, .more performed drains, last⟩

end Level

/-- Errands that are enqueued one after the other are the first level. -/
theorem level_of_enqueued (forest : List Errand) :
    (Account.of error (forest.map .enqueue)).outcomes =
        List.replicate forest.length (.ok ()) ∧
      Level forest 0 (Account.of error (forest.map .enqueue)).ledger := by
  induction forest using List.reverseRecOn with
  | nil => exact ⟨rfl, rfl, rfl, rfl, rfl⟩
  | append_singleton forest errand ih =>
    obtain ⟨outcomes, queue, begun, enqueued, events⟩ := ih
    generalize before : Account.of error (forest.map .enqueue) = account at *
    have served : (numbered error).work (account.start error (.enqueue errand)).1
        (account.start error (.enqueue errand)).2 = (.ok (), account.ledger.enqueue errand) := by
      refine (carryOut_enqueue error none errand [] account.ledger).trans ?_
      rw [(bounded_numbered error).carryOut_nil]
      rfl
    rw [List.map_append, List.map_singleton, Account.of_concat, before, Account.serve, served]
    refine ⟨?_, ?_, begun, ?_, events⟩
    · rw [outcomes, List.length_append, List.length_singleton, List.replicate_succ']
    · rw [level_zero] at queue ⊢
      rw [Ledger.enqueue, List.map_append, queue]
      rfl
    · show account.ledger.enqueued ++ _ = account.ledger.begun ++ (account.ledger.queue ++ _)
      rw [enqueued, List.append_assoc]

/-- Every level is reached by a number of performances. -/
theorem exists_level (plain : ∀ errand ∈ forest, Plain errand) (depth : Nat) :
    ∃ ledger, Level forest depth ledger := by
  induction depth with
  | zero => exact ⟨_, (level_of_enqueued () forest).2⟩
  | succ depth ih =>
    obtain ⟨ledger, reached⟩ := ih
    by_cases inhabited : depth < heights forest
    · obtain ⟨later, _, next⟩ := reached.perform () plain inhabited
      exact ⟨later, next⟩
    · exact ⟨ledger, (reached.refused () inhabited).2⟩

/-- Trees of errands that only enqueue others are carried out breadth first. When they have been
enqueued in order, each performance of the queue carries out one level from left to right, leaves
the next one in the queue, and tells whether the level was inhabited. A flush performs the queue and
goes on for as long as something was waiting; here it takes one performance more than there are
levels, and all errands begin in the order in which they were enqueued. -/
theorem levels_performed (error : Error) (forest : List Errand)
    (plain : ∀ errand ∈ forest, Plain errand) :
    let demands := forest.map Demand.enqueue
    let ledger := (Account.of error (demands ++ [.flush])).ledger
    (∀ depth, depth < heights forest ↔ level forest depth ≠ []) ∧
      served error demands = (List.replicate forest.length (.ok ()), boardAt forest 0) ∧
      (∀ depth, (agenda error).perform (boardAt forest depth) =
        (.ok (decide (level forest depth ≠ [])), boardAt forest (depth + 1))) ∧
      (agenda error).flush =
        ((agenda error).perform >>= fun any => if any then (agenda error).flush else pure ()) ∧
      (agenda error).Drains (heights forest + 1) (boardAt forest 0)
        (boardAt forest (heights forest)) ∧
      (agenda error).flush (boardAt forest 0) = (.ok (), boardAt forest (heights forest)) ∧
      (served error (demands ++ [.flush])).2 = ledger.board ∧
      ledger.board = boardAt forest (heights forest) ∧
      ledger.queue = [] ∧
      ledger.begun.map Slip.errand = (List.range (heights forest)).flatMap (level forest) ∧
      ledger.begun = ledger.enqueued := by
  intro demands ledger
  obtain ⟨outcomes, first⟩ := level_of_enqueued error forest
  obtain ⟨last, drains, reached⟩ := first.drains error plain (Nat.zero_add _)
  have flushed := (bounded_numbered error).flush_of_drains drains
  have same : ledger = last := by
    show (Account.of error (demands ++ [.flush])).ledger = last
    rw [Account.of_concat]
    exact congrArg Prod.snd flushed
  have start : (Account.of error demands).ledger.board = boardAt forest 0 := first.board_eq
  have seen := (shows_numbered error).drains drains
  rw [start, reached.board_eq] at seen
  refine ⟨fun depth => lt_heights_iff forest depth, ?_, ?_, (bounded_agenda error).flush_eq, seen,
    (bounded_agenda error).flush_of_drains seen, ?_, ?_, ?_, ?_, ?_⟩
  · rw [Account.served_eq, outcomes, start]
  · intro depth
    obtain ⟨ledger, reached⟩ := exists_level plain depth
    have shown := (shows_numbered error).performed ledger
    rw [reached.board_eq] at shown
    by_cases inhabited : depth < heights forest
    · obtain ⟨later, performed, next⟩ := reached.perform error plain inhabited
      rw [shown, performed, next.board_eq, decide_eq_true ((lt_heights_iff _ _).mp inhabited)]
      rfl
    · obtain ⟨performed, next⟩ := reached.refused error inhabited
      rw [shown, performed, next.board_eq,
        decide_eq_false (mt (lt_heights_iff _ _).mpr inhabited)]
      rfl
  · rw [Account.served_eq]
  · rw [same, reached.board_eq]
  · rw [same]
    exact reached.queue_eq_nil_iff.mpr (Nat.lt_irrefl _)
  · rw [same]
    exact reached.begun
  · have none := reached.queue_eq_nil_iff.mpr (Nat.lt_irrefl _)
    rw [same, reached.enqueued, none, List.append_nil]

/-- An errand with a follow-up, and another one beside it: three performances, the last of which
finds nothing. -/
theorem levels_performed_two :
    let forest : List Errand :=
      [.mk [code 'A'] [.mk [code 'C'] [] false false] false false, .mk [code 'B'] [] false false]
    (∀ errand ∈ forest, Plain errand) ∧
      (agenda Fault.diskFull).Drains 3 (boardAt forest 0) (boardAt forest 2) ∧
      labels (boardAt forest 2).events = [[code 'A'], [code 'B'], [code 'C']] := by
  intro forest
  have alone (label : Bytes) : Plain (.mk label [] false false) := .mk nofun
  have plain : ∀ errand ∈ forest, Plain errand :=
    List.forall_mem_cons.mpr ⟨.mk (List.forall_mem_singleton.mpr (alone _)),
      List.forall_mem_singleton.mpr (alone _)⟩
  have levels : heights forest = 2 := by decide +kernel
  obtain ⟨_, _, _, _, drains, _⟩ := levels_performed Fault.diskFull forest plain
  rw [levels] at drains
  exact ⟨plain, drains, by decide +kernel⟩

end Generations

end Errand

end DosText
