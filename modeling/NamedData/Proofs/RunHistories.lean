import NamedData.Simulation.Report
import NamedData.Proofs.Counting
import NamedData.Proofs.RoundTrips

namespace NamedData

namespace Forwarder

variable {forwarder : Forwarder} {actions : List Action}

/-- No counter ever goes down. -/
theorem grows_run (forwarder : Forwarder) (actions : List Action) :
    Counters.Grows [] forwarder.counters (forwarder.run actions).counters := by
  induction actions generalizing forwarder with
  | nil => exact .refl _
  | cons action rest ih =>
    exact (grows_act (List.nil_subset _) ⟨nofun, nofun⟩).trans (ih (forwarder.act action))

theorem counters_collects
    (gathers : ∀ action ∈ actions, ∃ face wanted, action = .collect face wanted) :
    (forwarder.run actions).counters = forwarder.counters := by
  induction actions generalizing forwarder with
  | nil => rfl
  | cons action rest ih =>
    obtain ⟨face, wanted, rfl⟩ := gathers action List.mem_cons_self
    exact ih fun later member => gathers later (List.mem_cons_of_mem _ member)

/-- While nothing is due, the passing of time is counted nowhere. -/
theorem counters_passes {time : Instant} (idle : forwarder.timers.popDue? time = none) (count : Nat) :
    (forwarder.run (List.replicate count (.fireNext time) ++ [.passTime time])).counters =
      forwarder.counters := by
  rw [run_append, run_fireNext_of_idle idle]
  show (forwarder.act (.passTime time)).counters = _
  simp only [act]
  split <;> rfl

end Forwarder

namespace Simulation

open Consumer (Answer throughout answers)

variable {simulation : Simulation} {place asker : Nat} {consumer : Consumer}

/-- What moves do to the forwarder at a place. -/
def callsOf (place : Nat) : Simulation → List Move → List Action
  | _, [] => []
  | simulation, move :: rest =>
    simulation.calls place move ++ callsOf place (simulation.perform move) rest

/-- How many Interests the producer at a place answers in moves. -/
def repliedOf (place : Nat) : Simulation → List Move → Nat
  | _, [] => 0
  | simulation, move :: rest =>
    simulation.replied place move + repliedOf place (simulation.perform move) rest

theorem callsOf_append (earlier later : List Move) : callsOf place simulation (earlier ++ later) =
    callsOf place simulation earlier ++ callsOf place (simulation.follow earlier) later := by
  induction earlier generalizing simulation with
  | nil => rfl
  | cons move rest ih =>
    rw [List.cons_append, callsOf, callsOf, ih, List.append_assoc]
    rfl

theorem turnsOf_append (earlier later : List Move) : turnsOf asker simulation (earlier ++ later) =
    turnsOf asker simulation earlier ++ turnsOf asker (simulation.follow earlier) later := by
  induction earlier generalizing simulation with
  | nil => rfl
  | cons move rest ih =>
    rw [List.cons_append, turnsOf, turnsOf, ih, List.append_assoc]
    rfl

theorem repliedOf_append (earlier later : List Move) :
    repliedOf place simulation (earlier ++ later) =
      repliedOf place simulation earlier + repliedOf place (simulation.follow earlier) later := by
  induction earlier generalizing simulation with
  | nil => exact (Nat.zero_add _).symm
  | cons move rest ih =>
    rw [List.cons_append, repliedOf, repliedOf, ih, Nat.add_assoc]
    rfl

/-- Moves change nodes by what they do to their forwarders, and in no other way. -/
theorem nodes_follow (moves : List Move) (place : Nat) : (simulation.follow moves).nodes[place]? =
    simulation.nodes[place]?.map fun node =>
      { node with forwarder := node.forwarder.run (callsOf place simulation moves) } := by
  induction moves generalizing simulation with
  | nil => exact getElem?_run_nil _ _
  | cons move rest ih =>
    refine ih.trans ?_
    rw [nodes_perform, Option.map_map]
    refine Option.map_congr fun node _ => ?_
    rw [callsOf, Forwarder.run_append]
    rfl

theorem consumers_follow (moves : List Move) (asker : Nat) :
    (simulation.follow moves).consumers[asker]? =
      simulation.consumers[asker]?.map (·.follow (turnsOf asker simulation moves)) := by
  induction moves generalizing simulation with
  | nil => exact Option.map_id'.symm
  | cons move rest ih =>
    refine ih.trans ?_
    rw [consumers_perform, Option.map_map]
    refine Option.map_congr fun consumer _ => ?_
    rw [turnsOf, Consumer.follow_append]
    rfl

theorem producers_follow (moves : List Move) (place : Nat) :
    (simulation.follow moves).producers[place]? = simulation.producers[place]?.map fun producer =>
      { producer with served := producer.served + repliedOf place simulation moves } := by
  induction moves generalizing simulation with
  | nil => exact Option.map_id'.symm
  | cons move rest ih =>
    refine ih.trans ?_
    rw [producers_perform, Option.map_map]
    refine Option.map_congr fun producer _ => ?_
    simp only [Function.comp, repliedOf, Nat.add_assoc]

theorem nodeName_follow (moves : List Move) (place : Nat) :
    (simulation.follow moves).nodeName place = simulation.nodeName place := by
  rw [nodeName, nodes_follow, Option.map_map]
  rfl

/-- An answer is counted at the time of the move that brings it. -/
theorem answered_of_turns (found : simulation.consumers[asker]? = some consumer) {move : Move}
    {answer : Answer} (counted : answer ∈ throughout answers consumer (simulation.turns asker move)) :
    answer.answered = simulation.now := by
  by_cases turn : simulation.IsTurn asker move
  · obtain ⟨nonce, isTurns, _⟩ := turn.asks found
    rw [isTurns] at counted
    cases counted
  · rcases turns_of_not_isTurn turn found with isTurns | ⟨time, isTurns⟩ | isTurns <;>
      rw [isTurns] at counted
    · cases counted
    · cases counted
    · exact (Consumer.answers_receives counted).1

theorem le_answered (found : simulation.consumers[asker]? = some consumer) {moves : List Move}
    {answer : Answer}
    (counted : answer ∈ throughout answers consumer (turnsOf asker simulation moves)) :
    simulation.now ≤ answer.answered := by
  induction moves generalizing simulation consumer with
  | nil => cases counted
  | cons move rest ih =>
    rw [turnsOf, Consumer.throughout_append] at counted
    rcases List.mem_append.mp counted with here | later
    · rw [answered_of_turns found here]
      exact Nat.le_refl _
    · have found' : (simulation.perform move).consumers[asker]? =
          some (consumer.follow (simulation.turns asker move)) := by
        rw [consumers_perform, found]
        rfl
      exact Nat.le_trans (now_le_perform move) (ih found' later)

section Settled

variable (settled : simulation.Settled)

include settled

/-- Where nothing is left to move, an exchange brings nothing to an application. -/
theorem Settled.bringsNothing {move : Move} (pumps : Pumps simulation.layout move) (place : Nat) :
    simulation.turns place move = [] ∧ simulation.replied place move = 0 := by
  cases pumps with
  | sendOff member => exact ⟨rfl, rfl⟩
  | feed asker =>
    refine ⟨?_, rfl⟩
    simp only [turns]
    split
    · rfl
    · rename_i consumer found
      rw [settled.repliesTo_eq_nil (List.mem_map_of_mem (List.mem_of_getElem? found))]
      split <;> rfl
  | serve answerer =>
    refine ⟨rfl, ?_⟩
    simp only [replied]
    split
    · rfl
    · rename_i producer found
      rw [settled.requestsTo_eq_nil (List.mem_map_of_mem (List.mem_of_getElem? found))]
      split <;> rfl

theorem Settled.bringsNothing_all {moves : List Move}
    (pumps : ∀ move ∈ moves, Pumps simulation.layout move) (place : Nat) :
    (∀ action ∈ callsOf place simulation moves, ∃ face wanted, action = .collect face wanted) ∧
      turnsOf place simulation moves = [] ∧ repliedOf place simulation moves = 0 := by
  induction moves generalizing simulation with
  | nil => exact ⟨nofun, rfl, rfl⟩
  | cons move rest ih =>
    have first := pumps move List.mem_cons_self
    obtain ⟨turns, replied⟩ := settled.bringsNothing first place
    obtain ⟨calls', turns', replied'⟩ := ih (settled.pump first).1 fun later member => by
      rw [layout_perform]
      exact pumps later (List.mem_cons_of_mem _ member)
    refine ⟨fun action called => ?_, ?_, ?_⟩
    · rcases List.mem_append.mp called with here | later
      · exact settled.gathersPump first place action here
      · exact calls' action later
    · rw [turnsOf, turns, turns']
      rfl
    · rw [repliedOf, replied, replied']

/-- Nothing but the clocks moves when nothing is left to move. -/
theorem Settled.advances (time : Instant) (place : Nat) :
    (∃ collects : List Action, (∀ action ∈ collects, ∃ face wanted, action = .collect face wanted) ∧
      callsOf place simulation (simulation.movesFrom (.advance time)) =
        simulation.calls place (.advance time) ++ collects) ∧
      turnsOf place simulation (simulation.movesFrom (.advance time)) = [] ∧
      repliedOf place simulation (simulation.movesFrom (.advance time)) = 0 := by
  obtain ⟨collects, turns, replied⟩ := (settled.advance time).bringsNothing_all
    (fun _ => pumps_settleMoves) place
  refine ⟨⟨_, collects, rfl⟩, ?_, ?_⟩
  · exact turns
  · exact (Nat.zero_add _).trans replied

variable (last : simulation.next? = none)

include last

/-- What the end of a run comes to: no counter of a forwarder goes up, and nothing is
handed to an application. -/
theorem Settled.concludes (place : Nat) :
    (∀ node, simulation.nodes[place]? = some node →
      (node.forwarder.run (callsOf place simulation simulation.lastMoves)).counters =
        node.forwarder.counters) ∧
      turnsOf place simulation simulation.lastMoves = [.expire simulation.stop] ∧
      repliedOf place simulation simulation.lastMoves = 0 := by
  obtain ⟨⟨collects, gathers, called⟩, turns, replied⟩ := settled.advances simulation.stop place
  rw [lastMoves, callsOf_append, turnsOf_append, repliedOf_append, called, turns, replied]
  refine ⟨fun node found => ?_, rfl, rfl⟩
  have passes : simulation.calls place (.advance simulation.stop) =
      List.replicate node.forwarder.timers.running.size (.fireNext simulation.stop) ++
        [.passTime simulation.stop] := by
    simp only [calls, found]
  show (node.forwarder.run (_ ++ [])).counters = _
  rw [List.append_nil, Forwarder.run_append, Forwarder.counters_collects gathers, passes]
  exact Forwarder.counters_passes (idle_of_next? last (List.mem_of_getElem? found)) _

end Settled

end Simulation

end NamedData
