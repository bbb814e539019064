import Mathlib
import PrintPath.Proofs.Number.Order
import PrintPath.Proofs.Pass.Handoff
import PrintPath.Proofs.Toolpath.Moves
import PrintPath.Toolpath.Summary

/-!
# The box of a toolpath

A box is grown from corners that are the wrong way round and at the ends of the
doubles. The first point replaces them, since no coordinate is beyond the ends, and
from then on each corner keeps to the points that were added. So the box of a toolpath
is tight, it is valid as soon as there is a segment, and the order of the points
makes no difference.
-/

namespace PrintPath

open Number (value lt_iff_value_lt le_iff_value_le beq_iff_value_eq)

/-! ## The first of some numbers -/

/-- A double among others of which the number comes first in an order. -/
structure First (r : ℚ → ℚ → Prop) (xs : List Float) (x : Float) : Prop where
  mem : x ∈ xs
  first : ∀ y ∈ xs, r (value x) (value y)

/-- In any order of the doubles the first ones are equal. -/
theorem First.beq {r : ℚ → ℚ → Prop} (antisymm : ∀ {a b}, r a b → r b a → a = b)
    {xs ys : List Float} (finite : ∀ z ∈ xs, z.isFinite) (same : xs.Perm ys) {x y : Float}
    (h : First r xs x) (h' : First r ys y) : (x == y) = true := by
  have mem : y ∈ xs := same.mem_iff.mpr h'.mem
  rw [beq_iff_value_eq (finite x h.mem) (finite y mem)]
  exact antisymm (h.first y mem) (h'.first x (same.mem_iff.mp h.mem))

/-- A choice of the first one of two doubles. -/
structure Selects (pick : Float → Float → Float) (r : ℚ → ℚ → Prop) : Prop where
  either : ∀ x y, pick x y = x ∨ pick x y = y
  left : ∀ {x y : Float}, x.isFinite → y.isFinite → r (value (pick x y)) (value x)
  right : ∀ {x y : Float}, x.isFinite → y.isFinite → r (value (pick x y)) (value y)

/-- A choice that takes the first double if it comes before the second one. -/
theorem selects_ite {before : Float → Float → Prop} [∀ x y, Decidable (before x y)]
    {r : ℚ → ℚ → Prop} (refl : ∀ a, r a a)
    (yes : ∀ {x y : Float}, x.isFinite → y.isFinite → before x y → r (value x) (value y))
    (no : ∀ {x y : Float}, x.isFinite → y.isFinite → ¬ before x y → r (value y) (value x)) :
    Selects (fun x y => if before x y ∨ y.isNaN then x else y) r := by
  refine ⟨fun x y => ite_eq_or_eq _ _ _, fun {x y} hx hy => ?_, fun {x y} hx hy => ?_⟩
  · split
    · exact refl _
    · next other => exact no hx hy (not_or.mp other).1
  · split
    · next first =>
        rw [Number.isNaN_of_isFinite hy] at first
        exact yes hx hy (first.resolve_right Bool.false_ne_true)
    · exact refl _

theorem selects_lesser : Selects lesser (· ≤ ·) :=
  selects_ite le_refl (fun hx hy less => ((lt_iff_value_lt hx hy).mp less).le)
    fun hx hy other => not_lt.mp (mt (lt_iff_value_lt hx hy).mpr other)

theorem selects_greater : Selects greater (· ≥ ·) :=
  selects_ite le_refl (fun hx hy more => ((lt_iff_value_lt hy hx).mp more).le)
    fun hx hy other => not_lt.mp (mt (lt_iff_value_lt hy hx).mpr other)

namespace Selects

variable {pick : Float → Float → Float} {r : ℚ → ℚ → Prop} (h : Selects pick r)

include h

theorem isFinite {x y : Float} (hx : x.isFinite) (hy : y.isFinite) : (pick x y).isFinite := by
  rcases h.either x y with same | same <;> rwa [same]

/-- Choosing again and again ends at the first of all. -/
theorem first_foldl (refl : ∀ a, r a a) (trans : ∀ {a b c}, r a b → r b c → r a c) {x : Float}
    {xs : List Float} (finite : ∀ y ∈ x :: xs, y.isFinite) :
    First r (x :: xs) (xs.foldl pick x) := by
  induction xs generalizing x with
  | nil =>
      refine ⟨List.mem_singleton_self x, fun y hy => ?_⟩
      rw [List.mem_singleton.mp hy]
      exact refl _
  | cons y rest ih =>
      rw [List.forall_mem_cons, List.forall_mem_cons] at finite
      obtain ⟨hx, hy, others⟩ := finite
      obtain ⟨mem, first⟩ := ih (x := pick x y)
        (List.forall_mem_cons.mpr ⟨h.isFinite hx hy, others⟩)
      rw [List.forall_mem_cons] at first
      constructor
      · rcases List.mem_cons.mp mem with same | mem
        · rw [List.foldl_cons, same]
          rcases h.either x y with first | second
          · rw [first]
            exact List.mem_cons_self
          · rw [second]
            exact List.mem_cons_of_mem _ List.mem_cons_self
        · exact List.mem_cons_of_mem _ (List.mem_cons_of_mem _ mem)
      · rw [List.forall_mem_cons, List.forall_mem_cons]
        exact ⟨trans first.1 (h.left hx hy), trans first.1 (h.right hx hy), first.2⟩

/-- A start that gives way to every finite double does not count. -/
theorem first_foldl_of_start (refl : ∀ a, r a a) (trans : ∀ {a b c}, r a b → r b c → r a c)
    {start : Float} (gives : ∀ y : Float, y.isFinite → pick start y = y) {xs : List Float}
    (finite : ∀ y ∈ xs, y.isFinite) (some : xs ≠ []) : First r xs (xs.foldl pick start) := by
  obtain ⟨x, rest, rfl⟩ := List.exists_cons_of_ne_nil some
  rw [List.foldl_cons, gives x (finite x List.mem_cons_self)]
  exact h.first_foldl refl trans finite

end Selects

theorem value_greatestFloat : value greatestFloat = (2 ^ 53 - 1) * 2 ^ (971 : ℤ) := by
  decide +kernel

theorem lesser_greatestFloat {x : Float} (hx : x.isFinite) : lesser greatestFloat x = x := by
  have finite : greatestFloat.isFinite = true := by decide +kernel
  have most := (le_abs_self (value x)).trans (Number.abs_value_le hx)
  rw [← value_greatestFloat] at most
  refine if_neg ?_
  rw [lt_iff_value_lt finite hx, Number.isNaN_of_isFinite hx]
  rintro (less | undefined)
  · exact absurd less most.not_gt
  · cases undefined

theorem greater_neg_greatestFloat {x : Float} (hx : x.isFinite) :
    greater (-greatestFloat) x = x := by
  have finite : (-greatestFloat).isFinite = true := by decide +kernel
  have valued : value (-greatestFloat) = -value greatestFloat :=
    Number.value_neg (by decide +kernel)
  have least := (Number.abs_value_le hx).trans' (neg_le_abs (value x))
  rw [← value_greatestFloat] at least
  refine if_neg ?_
  rw [lt_iff_value_lt hx finite, Number.isNaN_of_isFinite hx, valued]
  rintro (less | undefined)
  · linarith
  · cases undefined

/-! ## Corners -/

/-- The coordinates of a point. -/
def Point.coordinates : List (Point → Float) :=
  [Point.x, Point.y, Point.z]

theorem Point.isFinite_coordinate {p : Point} (h : p.isFinite) {c : Point → Float}
    (hc : c ∈ coordinates) : (c p).isFinite := by
  unfold Point.isFinite at h
  rw [Bool.and_eq_true, Bool.and_eq_true] at h
  obtain ⟨⟨x, y⟩, z⟩ := h
  revert c
  simp only [coordinates, List.forall_mem_cons]
  exact ⟨x, y, z, fun _ none => nomatch none⟩

theorem Point.samePlace_iff {p q : Point} :
    p.samePlace q = true ↔ ∀ c ∈ coordinates, (c p == c q) = true := by
  simp [samePlace, coordinates, and_assoc]

namespace Box

open Point (coordinates)

theorem isValid_iff {b : Box} : b.isValid = true ↔ ∀ c ∈ coordinates, c b.low ≤ c b.high := by
  simp [isValid, coordinates, and_assoc]

section Insert

variable {c : Point → Float} (hc : c ∈ coordinates)

include hc

theorem low_insert (b : Box) (p : Point) : c (b.insert p).low = lesser (c b.low) (c p) := by
  revert c
  simp [coordinates, insert]

theorem high_insert (b : Box) (p : Point) : c (b.insert p).high = greater (c b.high) (c p) := by
  revert c
  simp [coordinates, insert]

theorem low_foldl_insert (b : Box) (points : List Point) :
    c (points.foldl insert b).low = (points.map c).foldl lesser (c b.low) := by
  induction points generalizing b with
  | nil => rfl
  | cons p rest ih => rw [List.foldl_cons, ih, low_insert hc, List.map_cons, List.foldl_cons]

theorem high_foldl_insert (b : Box) (points : List Point) :
    c (points.foldl insert b).high = (points.map c).foldl greater (c b.high) := by
  induction points generalizing b with
  | nil => rfl
  | cons p rest ih => rw [List.foldl_cons, ih, high_insert hc, List.map_cons, List.foldl_cons]

theorem corners_empty : c empty.low = greatestFloat ∧ c empty.high = -greatestFloat := by
  revert c
  simp [coordinates, empty]

theorem isFinite_of_mem_map {points : List Point} (finite : ∀ p ∈ points, p.isFinite) {x : Float}
    (mem : x ∈ points.map c) : x.isFinite = true := by
  obtain ⟨p, here, rfl⟩ := List.mem_map.mp mem
  exact Point.isFinite_coordinate (finite p here) hc

/-- A box that is grown around some points has the first and the last of their
coordinates. -/
theorem first_corners {points : List Point} (finite : ∀ p ∈ points, p.isFinite)
    (some : points ≠ []) :
    First (· ≤ ·) (points.map c) (c (points.foldl insert empty).low) ∧
      First (· ≥ ·) (points.map c) (c (points.foldl insert empty).high) := by
  have finite : ∀ x ∈ points.map c, x.isFinite = true :=
    fun x mem => isFinite_of_mem_map hc finite mem
  have some : points.map c ≠ [] := mt List.map_eq_nil_iff.mp some
  obtain ⟨low, high⟩ := corners_empty hc
  rw [low_foldl_insert hc, high_foldl_insert hc, low, high]
  constructor
  · exact selects_lesser.first_foldl_of_start le_refl le_trans
      (fun _ => lesser_greatestFloat) finite some
  · exact selects_greater.first_foldl_of_start le_refl (fun h h' => le_trans h' h)
      (fun _ => greater_neg_greatestFloat) finite some

end Insert

/-- The box around some points. -/
def around (points : List Point) : Box :=
  points.foldl insert empty

/-- The points are in the box, and each of its six sides touches one. -/
structure Tight (b : Box) (points : List Point) : Prop where
  inside : ∀ c ∈ coordinates, ∀ p ∈ points, c b.low ≤ c p ∧ c p ≤ c b.high
  touched : ∀ c ∈ coordinates, (∃ p ∈ points, c p = c b.low) ∧ ∃ p ∈ points, c p = c b.high

section Around

variable {points : List Point} (finite : ∀ p ∈ points, p.isFinite)

include finite

theorem tight_around (some : points ≠ []) : (around points).Tight points := by
  constructor
  · intro c hc p mem
    obtain ⟨low, high⟩ := first_corners hc finite some
    have number {x : Float} (hx : x ∈ points.map c) := isFinite_of_mem_map hc finite hx
    have coordinate : c p ∈ points.map c := List.mem_map_of_mem mem
    unfold around
    rw [le_iff_value_le (number low.mem) (number coordinate),
      le_iff_value_le (number coordinate) (number high.mem)]
    exact ⟨low.first _ coordinate, high.first _ coordinate⟩
  · intro c hc
    obtain ⟨low, high⟩ := first_corners hc finite some
    exact ⟨List.mem_map.mp low.mem, List.mem_map.mp high.mem⟩

theorem isValid_around_iff : (around points).isValid = true ↔ points ≠ [] := by
  constructor
  · rintro valid rfl
    revert valid
    decide +kernel
  · intro some
    rw [isValid_iff]
    intro c hc
    obtain ⟨low, high⟩ := first_corners hc finite some
    have number {x : Float} (hx : x ∈ points.map c) := isFinite_of_mem_map hc finite hx
    unfold around
    rw [le_iff_value_le (number low.mem) (number high.mem)]
    exact low.first _ high.mem

/-- Points make the same box in any order. -/
theorem samePlace_around {points' : List Point} (same : points.Perm points') :
    (around points).low.samePlace (around points').low = true ∧
      (around points).high.samePlace (around points').high = true := by
  rcases eq_or_ne points [] with rfl | some
  · obtain rfl := same.nil_eq
    decide +kernel
  have finite' : ∀ p ∈ points', p.isFinite := fun p mem => finite p (same.mem_iff.mpr mem)
  have some' : points' ≠ [] := fun none => some (same.trans (none ▸ .refl _)).eq_nil
  rw [Point.samePlace_iff, Point.samePlace_iff]
  have corners {c : Point → Float} (hc : c ∈ coordinates) :=
    And.intro (first_corners hc finite some) (first_corners hc finite' some')
  constructor
  · intro c hc
    obtain ⟨⟨low, -⟩, low', -⟩ := corners hc
    exact low.beq le_antisymm (fun _ => isFinite_of_mem_map hc finite) (same.map c) low'
  · intro c hc
    obtain ⟨⟨-, high⟩, -, high'⟩ := corners hc
    exact high.beq (fun h h' => le_antisymm h' h) (fun _ => isFinite_of_mem_map hc finite)
      (same.map c) high'

end Around

end Box

namespace Toolpath

/-! ## Segments -/

/-- The points at the ends of the segments, in order. -/
def endPoints (t : Toolpath) : List Point :=
  t.segments.toList.flatMap fun s => [s.start, s.finish]

theorem endPoints_eq_nil_iff {t : Toolpath} : t.endPoints = [] ↔ t.segments = #[] := by
  unfold endPoints
  rw [List.flatMap_eq_nil_iff, ← Array.toList_eq_nil_iff, List.eq_nil_iff_forall_not_mem]
  simp

theorem ne_of_isEmpty {t : Toolpath} (h : t.isEmpty = false) : t.segments ≠ #[] := by
  intro none
  rw [isEmpty, none] at h
  cases h

/-- The box is the one around the end points. -/
def Boxed (t : Toolpath) : Prop :=
  t.box = .around t.endPoints

theorem addLayer_like (t : Toolpath) (m : Move) :
    (t.addLayer m).segments = t.segments ∧ (t.addLayer m).box = t.box := by
  unfold addLayer
  split <;> exact ⟨rfl, rfl⟩

theorem boxed_addSegment {t : Toolpath} (h : t.Boxed) (m : Move) : (t.addSegment m).Boxed := by
  have points : (t.addSegment m).endPoints = t.endPoints ++ [m.start, m.finish] := by
    simp [endPoints, addSegment, Segment.ofMove]
  show (t.box.insert m.start).insert m.finish = _
  rw [h, points, Box.around, Box.around, List.foldl_append]
  rfl

theorem boxed_push {t : Toolpath} (h : t.Boxed) (m : Move) : (t.push m).Boxed := by
  unfold push
  dsimp only
  split
  · obtain ⟨segments, box⟩ := addLayer_like { t with totals := t.totals.add m } m
    refine boxed_addSegment ?_ m
    unfold Boxed endPoints
    rw [segments, box]
    exact h
  · exact h

theorem boxed_foldl_push {t : Toolpath} (h : t.Boxed) (moves : List Move) :
    (moves.foldl push t).Boxed := by
  induction moves generalizing t with
  | nil => exact h
  | cons move rest ih => exact ih (boxed_push h move)

/-- A toolpath that is built of a program is boxed, and its end points are finite. -/
theorem boxed_of_ok {program : String} {reading : ReadingOptions} {drawing : DrawingOptions}
    {t : Toolpath} (ok : ofProgram program reading drawing = .ok t) :
    t.Boxed ∧ ∀ p ∈ t.endPoints, p.isFinite := by
  obtain ⟨rfl, -⟩ := eq_built_of_ok ok
  constructor
  · have none : (empty drawing).Boxed := rfl
    exact boxed_foldl_push none _
  · intro p mem
    unfold endPoints at mem
    rw [segments_built, List.flatMap_map, List.mem_flatMap] at mem
    obtain ⟨move, drawn, mem⟩ := mem
    obtain ⟨start, finish⟩ :=
      Pass.isFinite_of_mem_outcomes (mem_movesOf.mp (List.mem_of_mem_filter drawn))
    rcases List.mem_pair.mp mem with rfl | rfl
    · exact start
    · exact finish

theorem isValid_iff_of_ok {program : String} {reading : ReadingOptions} {drawing : DrawingOptions}
    {t : Toolpath} (ok : ofProgram program reading drawing = .ok t) :
    t.box.isValid = true ↔ t.segments ≠ #[] := by
  obtain ⟨boxed, finite⟩ := boxed_of_ok ok
  rw [boxed, Box.isValid_around_iff finite]
  exact not_congr endPoints_eq_nil_iff

theorem tight_of_ok {program : String} {reading : ReadingOptions} {drawing : DrawingOptions}
    {t : Toolpath} (ok : ofProgram program reading drawing = .ok t) (some : t.segments ≠ #[]) :
    t.box.Tight t.endPoints := by
  obtain ⟨boxed, finite⟩ := boxed_of_ok ok
  rw [boxed]
  exact Box.tight_around finite (mt endPoints_eq_nil_iff.mp some)

/-! ## Summaries -/

theorem getLast?_append {s t : String} {last : Char} (h : t.toList.getLast? = some last) :
    (s ++ t).toList.getLast? = some last := by
  rw [String.toList_append, List.getLast?_append, h]
  rfl

/-- Texts that end differently are different. -/
theorem ne_of_getLast? {s t : String} (last : Char) (h : t.toList.getLast? = some last)
    (other : s.toList.getLast? ≠ some last) : s ≠ t :=
  fun same => other (same ▸ h)

theorem boxLine_eq_iff (b : Box) : "Bounds: empty" = boxLine b ↔ b.isValid = false := by
  unfold boxLine Box.low? Box.high?
  cases b.isValid with
  | false => exact iff_of_true rfl rfl
  | true =>
      have last : b.high.text.toList.getLast? = some ')' := getLast?_append rfl
      exact iff_of_false (ne_of_getLast? ')' (getLast?_append last) (by decide)) (by decide)

/-- The summary says that there is no box exactly if the box is not valid. -/
theorem mem_summary_iff (name : String) (t : Toolpath) :
    "Bounds: empty" ∈ t.summary name ↔ t.box.isValid = false := by
  have segments : "Bounds: empty" ≠ segmentsLine name t :=
    ne_of_getLast? ')' (getLast?_append (getLast?_append rfl)) (by decide)
  have moves : "Bounds: empty" ≠ movesLine t.totals :=
    ne_of_getLast? 's' (getLast?_append (getLast?_append rfl)) (by decide)
  have filament : "Bounds: empty" ≠ filamentLine t.totals :=
    ne_of_getLast? 's' (getLast?_append (getLast?_append rfl)) (by decide)
  have modes : "Bounds: empty" ∉ t.finalMachine.toList.map modesLine := by
    intro mem
    obtain ⟨m, -, same⟩ := List.mem_map.mp mem
    have first := congrArg (·.toList.head?) same
    unfold modesLine at first
    rw [String.toList_append] at first
    cases first
  have skipped : "Bounds: empty" ∉ skippedLines t.diagnostics := by
    unfold skippedLines
    split
    · exact List.not_mem_nil
    · exact mt List.mem_singleton.mp
        (ne_of_getLast? 's' (getLast?_append rfl) (by decide))
  rw [summary, ← boxLine_eq_iff]
  simp [segments, moves, filament, modes, skipped]

/-! ## Toolpaths -/

/-- **The box is tight.** A toolpath of a program has a valid box exactly if it has a
segment. Only then the box has corners, a size and a centre, and only then the summary
shows it. No end point of a segment is beyond the corners, and each of their six
coordinates is that of an end point, unless there is none and the box is still the empty
one. The end points make the same box in any order, but for the sign of a zero. -/
theorem box_tight {program : String} {reading : ReadingOptions} {drawing : DrawingOptions}
    {t : Toolpath} (ok : ofProgram program reading drawing = .ok t) :
    (t.box.isValid = true ↔ t.segments ≠ #[]) ∧
    (∀ part ∈ [Box.low?, Box.high?, Box.size?, Box.center?],
      (part t.box).isSome = true ↔ t.segments ≠ #[]) ∧
    (∀ name, "Bounds: empty" ∈ t.summary name ↔ t.segments = #[]) ∧
    (∀ c ∈ [Point.x, Point.y, Point.z], ∀ s ∈ t.segments,
      (c t.box.low ≤ c s.start ∧ c s.start ≤ c t.box.high) ∧
        c t.box.low ≤ c s.finish ∧ c s.finish ≤ c t.box.high) ∧
    (t.segments ≠ #[] → ∀ c ∈ [Point.x, Point.y, Point.z],
      (∃ p ∈ t.endPoints, c p = c t.box.low) ∧ ∃ p ∈ t.endPoints, c p = c t.box.high) ∧
    (t.segments = #[] → t.box = .empty) ∧
    ∀ points : List Point, points.Perm t.endPoints →
      (points.foldl Box.insert .empty).low.samePlace t.box.low = true ∧
        (points.foldl Box.insert .empty).high.samePlace t.box.high = true := by
  obtain ⟨boxed, finite⟩ := boxed_of_ok ok
  have valid := isValid_iff_of_ok ok
  refine ⟨valid, ?_, fun name => ?_, fun c hc s mem => ?_,
    fun some => (tight_of_ok ok some).touched, fun none => ?_, fun points same => ?_⟩
  · simp only [List.forall_mem_cons, Box.low?, Box.high?, Box.size?, Box.center?, ← valid]
    cases t.box.isValid <;> simp
  · rw [mem_summary_iff, ← Bool.not_eq_true, valid, not_not]
  · have tight := tight_of_ok ok (Array.ne_empty_of_mem mem)
    have ends (p : Point) (end_ : p ∈ [s.start, s.finish]) : p ∈ t.endPoints :=
      List.mem_flatMap.mpr ⟨s, mem.val, end_⟩
    exact ⟨tight.inside c hc _ (ends _ List.mem_cons_self),
      tight.inside c hc _ (ends _ (List.mem_cons_of_mem _ List.mem_cons_self))⟩
  · rw [boxed, endPoints_eq_nil_iff.mpr none]
    rfl
  · rw [boxed]
    exact Box.samePlace_around (fun p mem => finite p (same.mem_iff.mp mem)) same

theorem box_tight_of_one_move :
    ∃ t, ofProgram "G1 X1 E1" ⟨.strict, .abort⟩ {} = .ok t ∧
      ∀ c ∈ [Point.x, Point.y, Point.z],
        (∃ p ∈ t.endPoints, c p = c t.box.low) ∧ ∃ p ∈ t.endPoints, c p = c t.box.high := by
  have built : (ofProgram "G1 X1 E1" ⟨.strict, .abort⟩ {}).map isEmpty = .ok false := by
    decide +kernel
  obtain ⟨t, ok, some⟩ := exists_ok_of_map built
  exact ⟨t, ok, (box_tight ok).2.2.2.2.1 (ne_of_isEmpty some)⟩

end Toolpath

end PrintPath
