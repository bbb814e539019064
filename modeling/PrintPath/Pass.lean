import PrintPath.Log.Note
import PrintPath.Machine.Step
import PrintPath.Program

/-!
# Passes

A pass runs a stream of items on a machine, one outcome at a time. It draws
no more items than it needs for the next outcome. A pass halts at the end of
its stream, at a fatal fault, and under the abort policy at any fault; a
halted pass stays as it is.

`trace` is the same run without requests: it folds the machine over all items
and lists what each outcome left behind.
-/

namespace PrintPath

/-- What a pass reports: a move or a fault. -/
abbrev Outcome := Except Fault Move

namespace Item

/-- Runs an item on a machine. The fault of a refused line stands. -/
def run (item : Item) (m : Machine) : Except Fault (Machine × Option Move) :=
  item.result.bind m.step

/-- What is noted while an item runs, its fault apart. -/
def notes (item : Item) : List Note :=
  item.skipped.map .argumentSkipped ++
    match item.result with
    | .ok b => Note.ofBlock b
    | .error _ => []

end Item

structure Pass where
  pending : List Item
  policy : ErrorPolicy
  machine : Machine := .initial
  halted : Bool := false
  /-- The number of moves reported so far. -/
  moves : Nat := 0
  /-- The number of faults reported so far. -/
  faults : Nat := 0

/-- The answer to a request. There is no outcome once the pass is over. -/
structure Turn where
  outcome : Option Outcome
  pass : Pass
  notes : List Note

namespace Pass

/-- A pass over blocks that are already read. It reports every fault. -/
def ofBlocks (blocks : List Block) : Pass :=
  { pending := blocks.map Item.ofBlock, policy := .bestEffort }

/-- A pass over a program. -/
def ofProgram (program : String) (options : ReadingOptions) : Pass :=
  { pending := Program.items options.strictness program, policy := options.errorPolicy }

/-- Whether a fault ends a run. -/
def ends (policy : ErrorPolicy) (fault : Fault) : Bool :=
  fault.isFatal || policy == .abort

/-- What is noted of a fault that a pass reports. -/
def faultNotes (policy : ErrorPolicy) (fault : Fault) : List Note :=
  if fault.isFatal then [.runHalted fault]
  else if policy = .abort then [.lineFailed fault, .runAborted]
  else [.lineFailed fault]

/-- Draws items up to the next outcome. What was noted before comes first. -/
def draw (p : Pass) (said : Array Note) : List Item → Turn
  | [] =>
    { outcome := none
      pass := { p with pending := [], halted := true }
      notes := said.toList ++ [.runCompleted p.moves p.faults] }
  | item :: rest =>
    match item.run p.machine with
    | .error fault =>
      { outcome := some (.error fault)
        pass := { p with
          pending := rest
          faults := p.faults + 1
          halted := ends p.policy fault }
        notes := said.toList ++ item.notes ++ faultNotes p.policy fault }
    | .ok (m, some move) =>
      { outcome := some (.ok move)
        pass := { p with pending := rest, machine := m, moves := p.moves + 1 }
        notes := said.toList ++ item.notes }
    | .ok (m, none) => draw { p with machine := m } (said ++ item.notes) rest

/-- The next outcome. -/
def next (p : Pass) : Turn :=
  if p.halted then ⟨none, p, []⟩ else p.draw #[] p.pending

theorem draw_pending_length (p : Pass) (said : Array Note) (items : List Item)
    (h : (p.draw said items).outcome.isSome) :
    (p.draw said items).pass.pending.length < items.length := by
  induction items generalizing p said with
  | nil => simp [draw] at h
  | cons item rest ih =>
    unfold draw at h ⊢
    split
    · simp
    · simp
    · next m silent =>
      simp only [silent] at h
      exact Nat.lt_succ_of_lt (ih _ _ h)

theorem next_pending_length {p : Pass} (h : p.next.outcome.isSome) :
    p.next.pass.pending.length < p.pending.length := by
  unfold next at h ⊢
  split at h
  · simp at h
  · next running => simpa [running] using draw_pending_length p #[] p.pending h

/-- The turns of a pass up to and including the first without an outcome,
behind those in `done`. -/
def turnsOnto (done : Array Turn) (p : Pass) : Array Turn :=
  let turn := p.next
  if turn.outcome.isSome then turnsOnto (done.push turn) turn.pass else done.push turn
termination_by p.pending.length
decreasing_by exact next_pending_length ‹_›

/-- All turns of a pass. The last one is the only one without an outcome. -/
def turns (p : Pass) : List Turn :=
  (turnsOnto #[] p).toList

/-- All outcomes of a pass. -/
def outcomes (p : Pass) : List Outcome :=
  p.turns.filterMap Turn.outcome

/-- The pass after its last turn. -/
def finished (p : Pass) : Pass :=
  (p.turns.getLast?.map Turn.pass).getD p

/-! ## The run as a fold -/

/-- The outcomes of running items on a machine, each with the machine that it
left behind. -/
def trace (policy : ErrorPolicy) (m : Machine) : List Item → List (Outcome × Machine)
  | [] => []
  | item :: rest =>
    match item.run m with
    | .error fault =>
      (.error fault, m) :: if ends policy fault then [] else trace policy m rest
    | .ok (m', some move) => (.ok move, m') :: trace policy m' rest
    | .ok (m', none) => trace policy m' rest

end Pass

end PrintPath
