import Mathlib.Data.List.Induction
import PrintPath.Proofs.Toolpath.Build
import PrintPath.Toolpath.Cache

/-!
# Reuse is invisible

A cache answers every request with what a build from its inputs would give, as
long as no two of the inputs that it was asked about share a digest. The digest
and the toolpath of a cache get out of step whenever a build fails, so the
invariant names the inputs whose toolpath is kept: those of the last request, if it
succeeded and nothing was forgotten since.
-/

namespace PrintPath.BuildCache

/-! ## Calls -/

inductive Call where
  | get (inputs : BuildInputs)
  | needsUpdate (inputs : BuildInputs)
  | toolpath
  | invalidate
deriving DecidableEq

namespace Call

/-- Whether a call leaves the cache as it is. -/
def looks : Call → Bool
  | needsUpdate _ => true
  | toolpath => true
  | _ => false

def inputs? : Call → Option BuildInputs
  | get i => some i
  | needsUpdate i => some i
  | _ => none

end Call

/-- The inputs that are named in some calls. -/
def inputsOf (calls : List Call) : List BuildInputs :=
  calls.filterMap Call.inputs?

/-- What a call leaves of the inputs whose toolpath is kept. -/
def keep (last : Option BuildInputs) : Call → Option BuildInputs
  | .get i => if (Toolpath.ofProgram i.program i.reading i.drawing).isOk then some i else none
  | .invalidate => none
  | _ => last

/-- The inputs whose toolpath is kept after some calls. -/
def kept (calls : List Call) : Option BuildInputs :=
  calls.foldl keep none

theorem keep_get_of_ok {last : Option BuildInputs} {x : BuildInputs} {t : Toolpath}
    (h : Toolpath.ofProgram x.program x.reading x.drawing = .ok t) :
    keep last (.get x) = some x := by
  rw [keep, h]
  rfl

theorem keep_get_of_error {last : Option BuildInputs} {x : BuildInputs} {fault : Fault}
    (h : Toolpath.ofProgram x.program x.reading x.drawing = .error fault) :
    keep last (.get x) = none := by
  rw [keep, h]
  rfl

theorem kept_snoc (calls : List Call) (call : Call) :
    kept (calls ++ [call]) = keep (kept calls) call :=
  List.foldl_append

theorem kept_append_looks (calls : List Call) {later : List Call}
    (looks : ∀ call ∈ later, call.looks = true) : kept (calls ++ later) = kept calls := by
  induction later using List.reverseRecOn with
  | nil => rw [List.append_nil]
  | append_singleton later call ih =>
      rw [← List.append_assoc, kept_snoc, ih fun c mem => looks c (List.mem_append_left _ mem)]
      have looking := looks call (List.mem_append_right _ List.mem_cons_self)
      cases call with
      | get i => cases looking
      | needsUpdate i => rfl
      | toolpath => rfl
      | invalidate => cases looking

/-- What is kept is due to the last request, and only looks came after it. -/
theorem kept_eq_some_iff {calls : List Call} {x : BuildInputs} :
    kept calls = some x ↔ ∃ before later t, calls = before ++ .get x :: later ∧
      (∀ call ∈ later, call.looks = true) ∧
      Toolpath.ofProgram x.program x.reading x.drawing = .ok t := by
  constructor
  · induction calls using List.reverseRecOn with
    | nil =>
        intro h
        cases h
    | append_singleton calls call ih =>
        intro h
        rw [kept_snoc] at h
        -- A call that only looks joins those after the request.
        have looked (same : kept calls = some x) (looking : call.looks = true) :
            ∃ before later t, calls ++ [call] = before ++ .get x :: later ∧
              (∀ call ∈ later, call.looks = true) ∧
              Toolpath.ofProgram x.program x.reading x.drawing = .ok t := by
          obtain ⟨before, later, t, rfl, looks, built⟩ := ih same
          refine ⟨before, later ++ [call], t, by simp, ?_, built⟩
          intro c mem
          rcases List.mem_append.mp mem with mem | mem
          · exact looks c mem
          · rw [List.mem_singleton.mp mem]
            exact looking
        cases call with
        | get i =>
            cases built : Toolpath.ofProgram i.program i.reading i.drawing with
            | ok t =>
                rw [keep_get_of_ok built] at h
                cases h
                exact ⟨calls, [], t, rfl, fun _ mem => absurd mem List.not_mem_nil, built⟩
            | error fault =>
                rw [keep_get_of_error built] at h
                cases h
        | needsUpdate i => exact looked h rfl
        | toolpath => exact looked h rfl
        | invalidate => cases h
  · rintro ⟨before, later, t, rfl, looks, built⟩
    rw [List.append_cons, kept_append_looks _ looks, kept_snoc, keep_get_of_ok built]

/-- What a request names is among the inputs. -/
theorem inputs_subset (before later : List Call) (x : BuildInputs) :
    x :: inputsOf before ⊆ inputsOf (before ++ .get x :: later) := by
  simp [inputsOf, Call.inputs?]

theorem mem_inputsOf_of_kept {calls : List Call} {x : BuildInputs} (h : kept calls = some x) :
    x ∈ inputsOf calls := by
  obtain ⟨before, later, _, rfl, _, _⟩ := kept_eq_some_iff.mp h
  exact inputs_subset before later x List.mem_cons_self

/-! ## One request -/

section Requests

variable [Hashable BuildInputs]

/-- A cache that keeps the toolpath of some inputs, if of any. The digest counts
only if there is a toolpath. -/
inductive Keeps (c : BuildCache) : Option BuildInputs → Prop
  | nothing : c.toolpath? = none → Keeps c none
  | toolpathOf {i : BuildInputs} {t : Toolpath} :
      Toolpath.ofProgram i.program i.reading i.drawing = .ok t → c.toolpath? = some t →
      c.digest = hash i → Keeps c (some i)

/-- No two of these inputs share a digest. -/
def Apart (inputs : List BuildInputs) : Prop :=
  ∀ i ∈ inputs, ∀ j ∈ inputs, hash i = hash j → i = j

theorem Apart.mono {is js : List BuildInputs} (apart : Apart js) (part : is ⊆ js) : Apart is :=
  fun i hi j hj => apart i (part hi) j (part hj)

variable {c : BuildCache} {last : Option BuildInputs} {x : BuildInputs}

theorem rebuild_of_ok {t : Toolpath}
    (h : Toolpath.ofProgram x.program x.reading x.drawing = .ok t) :
    c.rebuild x = (.ok t, ⟨hash x, some t, c.builds + 1⟩) := by
  unfold rebuild
  rw [h]

theorem rebuild_of_error {fault : Fault}
    (h : Toolpath.ofProgram x.program x.reading x.drawing = .error fault) :
    c.rebuild x = (.error fault, { c with toolpath? := none }) := by
  unfold rebuild
  rw [h]

theorem needsUpdate_eq_false_iff (h : c.Keeps last) (apart : ∀ i ∈ last, hash i = hash x → i = x) :
    c.needsUpdate x = false ↔ last = some x := by
  cases h with
  | nothing empty => simp [needsUpdate, empty]
  | @toolpathOf i t built holds digest =>
      have same : hash i = hash x ↔ i = x := ⟨apart i rfl, congrArg hash⟩
      simp [needsUpdate, holds, digest, same]

theorem get_of_needsUpdate (h : c.needsUpdate x = true) : c.get x = c.rebuild x := by
  unfold get
  unfold needsUpdate at h
  cases holds : c.toolpath? with
  | none => rfl
  | some t =>
      rw [holds] at h
      exact if_neg (bne_iff_ne.mp h)

theorem get_of_kept (h : c.Keeps (some x)) :
    c.get x = (Toolpath.ofProgram x.program x.reading x.drawing, c) := by
  obtain _ | ⟨built, holds, digest⟩ := h
  unfold get
  rw [holds, built]
  exact if_pos digest

/-- A request gives what a build gives, and keeps it. -/
theorem get_spec (h : c.Keeps last) (apart : ∀ i ∈ last, hash i = hash x → i = x) :
    (c.get x).1 = Toolpath.ofProgram x.program x.reading x.drawing ∧
      (c.get x).2.Keeps (keep last (.get x)) ∧
      (c.get x).2.builds =
        if c.needsUpdate x && (c.get x).1.isOk then c.builds + 1 else c.builds := by
  cases needed : c.needsUpdate x with
  | true =>
      rw [get_of_needsUpdate needed]
      cases built : Toolpath.ofProgram x.program x.reading x.drawing with
      | ok t =>
          rw [rebuild_of_ok built, keep_get_of_ok built]
          exact ⟨rfl, .toolpathOf built rfl rfl, rfl⟩
      | error fault =>
          rw [rebuild_of_error built, keep_get_of_error built]
          exact ⟨rfl, .nothing rfl, rfl⟩
  | false =>
      obtain rfl := (needsUpdate_eq_false_iff h apart).mp needed
      obtain _ | ⟨built, _, _⟩ := id h
      rw [get_of_kept h, keep_get_of_ok built]
      exact ⟨rfl, h, rfl⟩

/-! ## A sequence of calls -/

/-- The cache after a call. -/
def after (c : BuildCache) : Call → BuildCache
  | .get i => (c.get i).2
  | .invalidate => c.invalidate
  | _ => c

/-- The cache after some calls on an empty one. -/
def afterAll (calls : List Call) : BuildCache :=
  calls.foldl after empty

theorem afterAll_snoc (calls : List Call) (call : Call) :
    afterAll (calls ++ [call]) = (afterAll calls).after call :=
  List.foldl_append

/-- What is kept is not taken for other inputs. -/
theorem apart_kept {calls : List Call} (apart : Apart (x :: inputsOf calls)) :
    ∀ i ∈ kept calls, hash i = hash x → i = x := by
  intro i held
  exact apart i (List.mem_cons_of_mem _ (mem_inputsOf_of_kept held)) x List.mem_cons_self

theorem keeps_afterAll (calls : List Call) (apart : Apart (inputsOf calls)) :
    (afterAll calls).Keeps (kept calls) := by
  induction calls using List.reverseRecOn with
  | nil => exact .nothing rfl
  | append_singleton calls call ih =>
      have earlier : inputsOf calls ⊆ inputsOf (calls ++ [call]) := by
        simp [inputsOf, List.filterMap_append]
      have held := ih (apart.mono earlier)
      rw [afterAll_snoc, kept_snoc]
      cases call with
      | get i =>
          have named := apart.mono (inputs_subset calls [] i)
          exact (get_spec held (apart_kept named)).2.1
      | needsUpdate i => exact held
      | toolpath => exact held
      | invalidate => exact .nothing rfl

theorem get_afterAll {calls : List Call} (apart : Apart (x :: inputsOf calls)) :
    ((afterAll calls).get x).1 = Toolpath.ofProgram x.program x.reading x.drawing :=
  (get_spec (keeps_afterAll calls (apart.mono (List.subset_cons_self x _)))
    (apart_kept apart)).1

/-- **Reuse is invisible.** After any calls on a cache, none of whose inputs share a
digest, a request gives the toolpath of its program or the fault for which there is
none. It does not have to build exactly if
the last request since anything was forgotten had the same inputs and succeeded. It
counts as a build exactly if it had to build and succeeded. After a request that
failed, and after everything was forgotten, there is no toolpath. -/
theorem reuse_invisible (calls : List Call) (x : BuildInputs)
    (apart : Apart (x :: inputsOf calls)) :
    let c := afterAll calls
    (c.get x).1 = Toolpath.ofProgram x.program x.reading x.drawing ∧
    (c.needsUpdate x = false ↔ ∃ before later t, calls = before ++ .get x :: later ∧
      (∀ call ∈ later, call.looks = true) ∧ ((afterAll before).get x).1 = .ok t) ∧
    ((c.get x).2.builds =
      if c.needsUpdate x && (c.get x).1.isOk then c.builds + 1 else c.builds) ∧
    ∀ before call later, calls = before ++ call :: later →
      (∀ call ∈ later, call.looks = true) →
      (call = .invalidate ∨
        ∃ i fault, call = .get i ∧ ((afterAll before).get i).1 = .error fault) →
      c.toolpath? = none := by
  intro c
  have named : Apart (inputsOf calls) := apart.mono (List.subset_cons_self x _)
  have held : c.Keeps (kept calls) := keeps_afterAll calls named
  obtain ⟨answer, _, builds⟩ := get_spec held (apart_kept apart)
  -- Every request among the calls was answered by a build.
  have earlier {before later : List Call} {i : BuildInputs}
      (split : calls = before ++ .get i :: later) :
      ((afterAll before).get i).1 = Toolpath.ofProgram i.program i.reading i.drawing := by
    refine get_afterAll (named.mono ?_)
    rw [split]
    exact inputs_subset before later i
  refine ⟨answer, ?_, builds, ?_⟩
  · rw [needsUpdate_eq_false_iff held (apart_kept apart), kept_eq_some_iff]
    constructor
    · rintro ⟨before, later, t, split, looks, built⟩
      exact ⟨before, later, t, split, looks, (earlier split).trans built⟩
    · rintro ⟨before, later, t, split, looks, answered⟩
      exact ⟨before, later, t, split, looks, (earlier split).symm.trans answered⟩
  · intro before call later split looks forgets
    have nothing : kept calls = none := by
      rw [split, List.append_cons, kept_append_looks _ looks, kept_snoc]
      rcases forgets with rfl | ⟨i, fault, rfl, failed⟩
      · rfl
      · rw [earlier split] at failed
        exact keep_get_of_error failed
    rw [nothing] at held
    obtain ⟨empty⟩ | _ := held
    exact empty

end Requests

/-- A digest of the text and the options as a number to the base 31. -/
def polynomialDigest (i : BuildInputs) : UInt64 :=
  let options : List Bool := [i.reading.strictness = .strict, i.reading.errorPolicy = .abort,
    i.drawing.includeTravel, i.drawing.skipDegenerate]
  let text := i.program.toList.foldl (fun h c => 31 * h + UInt64.ofNat c.toNat) 7
  options.foldl (fun h b => 31 * h + if b then 1 else 2) text

/-- A request between two others for the same inputs fails for its unknown command. The
toolpath is built anew after it, and is kept when it is asked for again. -/
theorem reuse_after_failure :
    letI : Hashable BuildInputs := ⟨polynomialDigest⟩
    let good : BuildInputs := ⟨"G1 X1 E1", ⟨.strict, .abort⟩, {}⟩
    let bad : BuildInputs := ⟨"G1 X1 E1\nG7", ⟨.strict, .abort⟩, {}⟩
    let failed : List Call := [.get good, .get bad]
    let calls : List Call := failed ++ [.toolpath, .get good, .needsUpdate bad]
    Apart (good :: inputsOf calls) ∧
      ((afterAll [.get good]).get bad).1 = .error (.unknownCommand 2 "G7") ∧
      (afterAll failed).toolpath? = none ∧ (afterAll failed).needsUpdate good = true ∧
      ((afterAll calls).get good).1 = Toolpath.ofProgram "G1 X1 E1" ⟨.strict, .abort⟩ {} ∧
      (afterAll calls).needsUpdate good = false := by
  let _ : Hashable BuildInputs := ⟨polynomialDigest⟩
  intro good bad failed calls
  have apart : Apart (good :: inputsOf calls) := by
    unfold Apart
    decide +kernel
  have fault : ((afterAll [.get good]).get bad).1 = .error (.unknownCommand 2 "G7") := by
    refine (reuse_invisible [.get good] bad (apart.mono (by decide +kernel))).1.trans ?_
    exact Toolpath.ofProgram_eq_error_iff.mpr (by decide +kernel)
  obtain ⟨answer, -, -, -⟩ := reuse_invisible calls good apart
  obtain ⟨-, -, -, empty⟩ := reuse_invisible failed good (apart.mono (by decide +kernel))
  refine ⟨apart, fault, ?_, by decide +kernel, answer, by decide +kernel⟩
  exact empty [.get good] (.get bad) [] rfl (fun _ mem => absurd mem List.not_mem_nil)
    (Or.inr ⟨bad, _, rfl, fault⟩)

end PrintPath.BuildCache
