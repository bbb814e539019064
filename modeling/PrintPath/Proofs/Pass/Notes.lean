import Mathlib.Data.List.Nodup
import PrintPath.Proofs.Pass.Lines
import PrintPath.Proofs.Pass.Prefix
import PrintPath.Proofs.Pass.Request

/-!
# What a pass notes

A pass notes what becomes of each item while it runs, then the fault that it reports
on the item. Over a program the notes can be told line by line, up to the line whose
fault ends the pass: those of the line, then its fault. Behind that line nothing is
read.
-/

namespace PrintPath.Pass

open Program

/-! ## The notes of a run -/

/-- What is noted while items run on a machine. -/
def noted (policy : ErrorPolicy) (m : Machine) : List Item → List Note
  | [] => []
  | item :: rest =>
    match item.run m with
    | .error fault =>
      item.notes ++ faultNotes policy fault ++
        if ends policy fault then [] else noted policy m rest
    | .ok (m', _) => item.notes ++ noted policy m' rest

/-- The items behind the fault that ends a run. -/
def unread (policy : ErrorPolicy) (m : Machine) : List Item → List Item
  | [] => []
  | item :: rest =>
    match item.run m with
    | .error fault => if ends policy fault then rest else unread policy m rest
    | .ok (m', _) => unread policy m' rest

/-- The note at the end of a run that no fault ends, with the number of its moves
counted from `k` and that of its faults from `l` on. -/
def closing (policy : ErrorPolicy) (m : Machine) (k l : Nat) (items : List Item) : List Note :=
  if GoesOn policy m items then
    [.runCompleted (k + (movesOf (outcomesOf policy m items)).length)
      (l + (faultsOf (outcomesOf policy m items)).length)]
  else []

section Items

variable {policy : ErrorPolicy} {m m' : Machine} {item : Item} {rest : List Item}

theorem noted_of_ends {fault : Fault} (h : item.run m = .error fault)
    (final : ends policy fault = true) :
    noted policy m (item :: rest) = item.notes ++ faultNotes policy fault := by
  simp [noted, h, final]

theorem noted_of_not_ends {fault : Fault} (h : item.run m = .error fault)
    (mild : ¬ ends policy fault = true) :
    noted policy m (item :: rest) =
      item.notes ++ faultNotes policy fault ++ noted policy m rest := by
  simp [noted, h, mild]

theorem noted_of_ok {move : Option Move} (h : item.run m = .ok (m', move)) :
    noted policy m (item :: rest) = item.notes ++ noted policy m' rest := by
  simp [noted, h]

theorem unread_of_ends {fault : Fault} (h : item.run m = .error fault)
    (final : ends policy fault = true) : unread policy m (item :: rest) = rest := by
  simp [unread, h, final]

theorem unread_of_not_ends {fault : Fault} (h : item.run m = .error fault)
    (mild : ¬ ends policy fault = true) :
    unread policy m (item :: rest) = unread policy m rest := by
  simp [unread, h, mild]

theorem unread_of_ok {move : Option Move} (h : item.run m = .ok (m', move)) :
    unread policy m (item :: rest) = unread policy m' rest := by
  simp [unread, h]

theorem closing_nil (policy : ErrorPolicy) (m : Machine) (k l : Nat) :
    closing policy m k l [] = [.runCompleted k l] := by
  unfold closing
  rw [if_pos goesOn_nil]
  rfl

theorem closing_of_ends {fault : Fault} (h : item.run m = .error fault)
    (final : ends policy fault = true) (k l : Nat) : closing policy m k l (item :: rest) = [] :=
  if_neg fun goesOn => not_ends_of_goesOn goesOn h final

theorem closing_of_not_ends {fault : Fault} (h : item.run m = .error fault)
    (mild : ¬ ends policy fault = true) (k l : Nat) :
    closing policy m k l (item :: rest) = closing policy m k (l + 1) rest := by
  unfold closing
  simp only [goesOn_cons_of_fault h mild, outcomesOf_of_not_ends h mild, movesOf_fault,
    faultsOf_fault, List.length_cons, Nat.succ_add_eq_add_succ l]

theorem closing_of_move {move : Move} (h : item.run m = .ok (m', some move)) (k l : Nat) :
    closing policy m k l (item :: rest) = closing policy m' (k + 1) l rest := by
  unfold closing
  simp only [goesOn_cons_of_ok h, outcomesOf_of_move h, movesOf_move, faultsOf_move,
    List.length_cons, Nat.succ_add_eq_add_succ k]

theorem closing_of_silence (h : item.run m = .ok (m', none)) (k l : Nat) :
    closing policy m k l (item :: rest) = closing policy m' k l rest := by
  unfold closing
  simp only [goesOn_cons_of_ok h, outcomesOf_of_silence h]

end Items

/-! ## The notes of a pass -/

theorem notes_turnsFrom (outcome : Outcome) (p : Pass) (notes : List Note) :
    (turnsFrom ⟨some outcome, p, notes⟩).flatMap Turn.notes =
      notes ++ p.turns.flatMap Turn.notes := rfl

/-- A draw and the turns after it note what the items that are left do, behind what
was said before. -/
theorem notes_draw (p : Pass) (said : Array Note) (items : List Item)
    (running : p.halted = false) :
    (turnsFrom (p.draw said items)).flatMap Turn.notes =
      said.toList ++ noted p.policy p.machine items ++
        closing p.policy p.machine p.moves p.faults items := by
  induction items generalizing p said with
  | nil =>
      rw [closing_nil]
      simp [draw, turnsFrom, noted]
  | cons item rest ih =>
      -- A turn with an outcome is followed by the turns of the pass it left.
      have later (q : Pass) (awake : q.halted = false) (left : q.pending = rest) :
          q.turns.flatMap Turn.notes = noted q.policy q.machine rest ++
            closing q.policy q.machine q.moves q.faults rest := by
        rw [turns_of_running awake, left]
        exact ih q #[] awake
      unfold draw
      cases h : item.run p.machine with
      | error fault =>
          dsimp only
          rw [notes_turnsFrom]
          by_cases final : ends p.policy fault = true
          · rw [turns_of_halted final, noted_of_ends h final, closing_of_ends h final]
            simp
          · rw [later _ (Bool.eq_false_iff.mpr final) rfl, noted_of_not_ends h final,
              closing_of_not_ends h final]
            simp
      | ok r =>
          obtain ⟨m, move⟩ := r
          rw [noted_of_ok h]
          cases move with
          | none =>
              rw [closing_of_silence h]
              have rest := ih { p with machine := m } (said ++ item.notes) running
              simpa using rest
          | some move =>
              dsimp only
              have more := later { p with
                pending := rest, machine := m, moves := p.moves + 1 } running rfl
              rw [notes_turnsFrom, more, closing_of_move h]
              simp

theorem notes_turns {p : Pass} (running : p.halted = false) :
    p.turns.flatMap Turn.notes = noted p.policy p.machine p.pending ++
      closing p.policy p.machine p.moves p.faults p.pending := by
  rw [turns_of_running running]
  exact notes_draw p #[] p.pending running

theorem unread_of_silently (policy : ErrorPolicy) {m m' : Machine} {silent : List Item}
    (h : Silently m silent m') (items : List Item) :
    unread policy m (silent ++ items) = unread policy m' items := by
  induction h with
  | nil m => rfl
  | cons run _ ih => rw [List.cons_append, unread_of_ok run, ih]

/-- What a pass leaves pending at its end is what the run has not read. -/
theorem pending_finished (p : Pass) :
    p.finished.pending =
      if p.halted then p.pending else unread p.policy p.machine p.pending := by
  induction p using turns_induction with
  | ended p quiet =>
      rw [finished_of_ended quiet]
      cases running : p.halted with
      | true =>
          unfold next
          simp [running]
      | false =>
          have answer := answers_next running
          generalize p.next = turn at quiet answer
          cases answer with
          | ended silent =>
              have all := unread_of_silently p.policy silent []
              rw [List.append_nil] at all
              exact all.symm
          | failed split silent run => cases quiet
          | moved split silent run => cases quiet
  | more p outcome first ih =>
      have running := running_of_outcome first
      rw [finished_of_outcome first, ih, running]
      have answer := answers_next running
      generalize p.next = turn at first answer
      cases answer with
      | ended silent => cases first
      | @failed silent post item m fault notes split quiet run =>
          rw [split, unread_of_silently p.policy quiet]
          by_cases final : ends p.policy fault = true
          · simp [final, unread_of_ends run final]
          · simp [final, unread_of_not_ends run final]
      | @moved silent post item m m' move notes split quiet run =>
          rw [split, unread_of_silently p.policy quiet, unread_of_ok run]
          simp [running]

/-! ## Faults and lines -/

/-- The faults on line number `n`. -/
def faultsOn (faults : List Fault) (n : Nat) : List Fault :=
  faults.filter (·.line == n)

/-- The lines that a run with some faults has read: all of them, or those up to the
line whose fault ends the run. -/
def linesRead (policy : ErrorPolicy) (faults : List Fault) (ls : List (List Char × Nat)) :
    List (List Char × Nat) :=
  match faults.find? (ends policy) with
  | none => ls
  | some fault => ls.filter (·.2 ≤ fault.line)

theorem linesRead_sublist (policy : ErrorPolicy) (faults : List Fault)
    (ls : List (List Char × Nat)) : (linesRead policy faults ls).Sublist ls := by
  unfold linesRead
  cases faults.find? (ends policy) with
  | none => exact List.Sublist.refl ls
  | some fault => exact List.filter_sublist

section Head

variable {policy : ErrorPolicy} {here later : List Fault} {n : Nat}
  {rest : List (List Char × Nat)}

/-- The faults on the first line stand apart from those on the lines behind it. -/
theorem faultsOn_append (own : ∀ fault ∈ here, fault.line = n)
    (behind : ∀ fault ∈ later, n < fault.line) :
    faultsOn (here ++ later) n = here ∧
      ∀ k, n < k → faultsOn (here ++ later) k = faultsOn later k := by
  unfold faultsOn
  constructor
  · rw [List.filter_append, List.filter_eq_self.mpr, List.filter_eq_nil_iff.mpr, List.append_nil]
    · exact fun fault mem same => Nat.ne_of_gt (behind fault mem) (beq_iff_eq.mp same)
    · exact fun fault mem => beq_iff_eq.mpr (own fault mem)
  · intro k above
    rw [List.filter_append, List.filter_eq_nil_iff.mpr, List.nil_append]
    intro fault mem same
    exact Nat.ne_of_lt above ((own fault mem).symm.trans (beq_iff_eq.mp same))

theorem linesRead_cons (mild : ∀ fault ∈ here, ¬ ends policy fault = true)
    (behind : ∀ fault ∈ later, n < fault.line) (line : List Char)
    (rest : List (List Char × Nat)) :
    linesRead policy (here ++ later) ((line, n) :: rest) =
      (line, n) :: linesRead policy later rest := by
  unfold linesRead
  rw [List.find?_append, List.find?_eq_none.mpr mild, Option.none_or]
  cases found : later.find? (ends policy) with
  | none => rfl
  | some fault =>
      have after := behind fault (List.mem_of_find?_eq_some found)
      exact List.filter_cons_of_pos (decide_eq_true (Nat.le_of_lt after))

/-- A run that ends with its first line has read no other. -/
theorem linesRead_of_ends {fault : Fault} (final : ends policy fault = true)
    (own : fault.line = n) (ascending : ∀ l ∈ rest, n < l.2) (line : List Char) :
    linesRead policy [fault] ((line, n) :: rest) = [(line, n)] := by
  unfold linesRead
  rw [List.find?_cons_of_pos final]
  dsimp only
  have others : rest.filter (·.2 ≤ fault.line) = [] := by
    refine List.filter_eq_nil_iff.mpr fun l mem below => ?_
    exact Nat.not_le_of_lt (own ▸ ascending l mem) (of_decide_eq_true below)
  have kept : (line, n).2 ≤ fault.line := Nat.le_of_eq own.symm
  rw [List.filter_cons_of_pos (by simpa using kept), others]

end Head

section Run

variable (policy : ErrorPolicy) (s : Strictness) (m : Machine) {ls : List (List Char × Nat)}

theorem faultLines_sublist :
    ((faultsOf (outcomesOf policy m (itemsOn s ls))).map Fault.line).Sublist
      (ls.map Prod.snd) := by
  refine .trans ?_ (outcomeLines_sublist policy s m ls)
  generalize outcomesOf policy m (itemsOn s ls) = outcomes
  induction outcomes with
  | nil => exact .slnil
  | cons outcome rest ih =>
      cases outcome with
      | ok move => exact ih.cons move.line
      | error fault => exact ih.cons_cons fault.line

/-- A run over lines that ascend has at most one fault on each of them. -/
theorem length_faultsOn_le (ascending : ls.Pairwise (·.2 < ·.2)) (n : Nat) :
    (faultsOn (faultsOf (outcomesOf policy m (itemsOn s ls))) n).length ≤ 1 := by
  have distinct : (ls.map Prod.snd).Nodup :=
    List.pairwise_map.mpr (ascending.imp Nat.ne_of_lt)
  calc (faultsOn (faultsOf (outcomesOf policy m (itemsOn s ls))) n).length
      = ((faultsOf (outcomesOf policy m (itemsOn s ls))).map Fault.line).count n := by
        rw [List.count_eq_length_filter, List.filter_map, List.length_map]
        rfl
    _ ≤ 1 := List.nodup_iff_count_le_one.mp (distinct.sublist (faultLines_sublist policy s m)) n

/-- The faults of a run over lines behind line number `n` are on such lines. -/
theorem line_of_fault_behind {n : Nat} (behind : ∀ l ∈ ls, n < l.2) :
    ∀ fault ∈ faultsOf (outcomesOf policy m (itemsOn s ls)), n < fault.line := by
  intro fault mem
  have given := (faultLines_sublist policy s m).subset (List.mem_map_of_mem mem)
  obtain ⟨l, inside, same⟩ := List.mem_map.mp given
  exact same ▸ behind l inside

end Run

/-! ## The notes of lines -/

/-- What is noted of a line on which a run has some faults. -/
def lineNotes (policy : ErrorPolicy) (s : Strictness) (faults : List Fault)
    (l : List Char × Nat) : List Note :=
  (Item.ofLine? s l.2 l.1).elim [] Item.notes ++
    (faultsOn faults l.2).flatMap (faultNotes policy)

/-- A run over numbered lines, told by the lines that it has read. -/
structure ToldByLine (policy : ErrorPolicy) (s : Strictness) (m : Machine)
    (ls : List (List Char × Nat)) (faults : List Fault) : Prop where
  notes : noted policy m (itemsOn s ls) =
    (linesRead policy faults ls).flatMap (lineNotes policy s faults)
  reported : faults = (linesRead policy faults ls).flatMap fun l => faultsOn faults l.2
  items : itemsOn s ls = itemsOn s (linesRead policy faults ls) ++ unread policy m (itemsOn s ls)

/-- One more line in front, with the faults on it, none of which ends the run. -/
theorem ToldByLine.cons {policy : ErrorPolicy} {s : Strictness} {m m' : Machine}
    {line : List Char} {n : Nat} {rest : List (List Char × Nat)} (here : List Fault)
    {later : List Fault} (own : ∀ fault ∈ here, fault.line = n)
    (mild : ∀ fault ∈ here, ¬ ends policy fault = true)
    (behind : ∀ l ∈ rest, n < l.2) (after : ∀ fault ∈ later, n < fault.line)
    (notes : noted policy m (itemsOn s ((line, n) :: rest)) =
      (Item.ofLine? s n line).elim [] Item.notes ++ here.flatMap (faultNotes policy) ++
        noted policy m' (itemsOn s rest))
    (left : unread policy m (itemsOn s ((line, n) :: rest)) = unread policy m' (itemsOn s rest))
    (told : ToldByLine policy s m' rest later) :
    ToldByLine policy s m ((line, n) :: rest) (here ++ later) := by
  obtain ⟨first, others⟩ := faultsOn_append own after
  have same : ∀ l ∈ linesRead policy later rest,
      faultsOn (here ++ later) l.2 = faultsOn later l.2 :=
    fun l mem => others l.2 (behind l ((linesRead_sublist policy later rest).subset mem))
  have read := linesRead_cons mild after line rest
  constructor
  · -- The lines behind keep their notes, since no fault here is about them.
    rw [notes, read, List.flatMap_cons, told.notes]
    congr 1
    · unfold lineNotes
      rw [first]
    · refine List.flatMap_congr fun l mem => ?_
      unfold lineNotes
      rw [same l mem]
  · rw [read, List.flatMap_cons, first, List.flatMap_congr same, ← told.reported]
  · rw [read, left]
    have split (ls : List (List Char × Nat)) :
        itemsOn s ((line, n) :: ls) = (Item.ofLine? s n line).toList ++ itemsOn s ls := by
      cases given : Item.ofLine? s n line with
      | none => exact itemsOn_of_blank given ls
      | some item => exact itemsOn_of_item given ls
    rw [split, split, List.append_assoc, ← told.items]

/-- One more line in front, on which nothing is reported. -/
theorem ToldByLine.quiet {policy : ErrorPolicy} {s : Strictness} {m m' : Machine}
    {line : List Char} {n : Nat} {rest : List (List Char × Nat)} {faults : List Fault}
    (behind : ∀ l ∈ rest, n < l.2) (after : ∀ fault ∈ faults, n < fault.line)
    (notes : noted policy m (itemsOn s ((line, n) :: rest)) =
      (Item.ofLine? s n line).elim [] Item.notes ++ noted policy m' (itemsOn s rest))
    (left : unread policy m (itemsOn s ((line, n) :: rest)) = unread policy m' (itemsOn s rest))
    (told : ToldByLine policy s m' rest faults) :
    ToldByLine policy s m ((line, n) :: rest) faults :=
  .cons [] (by simp) (by simp) behind after (by simpa using notes) left told

/-- Line by line, a run notes what becomes of the line and then of its fault. -/
theorem toldByLine (policy : ErrorPolicy) (s : Strictness) (m : Machine)
    {ls : List (List Char × Nat)} (ascending : ls.Pairwise (·.2 < ·.2)) :
    ToldByLine policy s m ls (faultsOf (outcomesOf policy m (itemsOn s ls))) := by
  induction m, ls using lines_induction (s := s) with
  | nil m => exact ⟨rfl, rfl, rfl⟩
  | blank m line n rest given ih =>
      obtain ⟨behind, ascending⟩ := List.pairwise_cons.mp ascending
      have later := line_of_fault_behind policy s m behind
      rw [itemsOn_of_blank given]
      refine .quiet behind later ?_ ?_ (ih ascending)
      · rw [itemsOn_of_blank given, given]
        rfl
      · rw [itemsOn_of_blank given]
  | fault m line n rest item fault given h about ih =>
      obtain ⟨behind, ascending⟩ := List.pairwise_cons.mp ascending
      rw [itemsOn_of_item given]
      by_cases final : ends policy fault = true
      · -- The line of the fault that ends the run is the last one read.
        have only : faultsOn [fault] n = [fault] := by simp [faultsOn, about]
        rw [outcomesOf_of_ends h final, faultsOf_fault, faultsOf_nil]
        constructor
        · rw [itemsOn_of_item given, noted_of_ends h final, linesRead_of_ends final about behind]
          simp [lineNotes, given, only]
        · simp [linesRead_of_ends final about behind, only]
        · rw [itemsOn_of_item given, unread_of_ends h final,
            linesRead_of_ends final about behind, itemsOn_of_item given]
          rfl
      · have later := line_of_fault_behind policy s m behind
        rw [outcomesOf_of_not_ends h final]
        refine .cons [fault] (by simpa using about) (by simpa using final) behind later ?_ ?_
          (ih ascending)
        · rw [itemsOn_of_item given, noted_of_not_ends h final, given]
          simp
        · rw [itemsOn_of_item given, unread_of_not_ends h final]
  | move m line n rest item m' move given h about ih =>
      obtain ⟨behind, ascending⟩ := List.pairwise_cons.mp ascending
      have later := line_of_fault_behind policy s m' behind
      rw [itemsOn_of_item given, outcomesOf_of_move h]
      refine .quiet behind later ?_ ?_ (ih ascending)
      · rw [itemsOn_of_item given, noted_of_ok h, given]
        rfl
      · rw [itemsOn_of_item given, unread_of_ok h]
  | silence m line n rest item m' given h ih =>
      obtain ⟨behind, ascending⟩ := List.pairwise_cons.mp ascending
      have later := line_of_fault_behind policy s m' behind
      rw [itemsOn_of_item given, outcomesOf_of_silence h]
      refine .quiet behind later ?_ ?_ (ih ascending)
      · rw [itemsOn_of_item given, noted_of_ok h, given]
        rfl
      · rw [itemsOn_of_item given, unread_of_ok h]

end PrintPath.Pass
