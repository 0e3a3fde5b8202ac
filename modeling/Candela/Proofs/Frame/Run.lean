import Mathlib
import Candela.Frame.State

/-!
# Runs of frame states

A state is used by calls: a frame is added, the frames are thrown away, or a target is asked for
(`Call`). What a whole run leaves is said without its states (`State.run_accumulates`). The target
is the last one that was asked for (`lastTarget`). The frames are those that were added after every
call that threw frames away (`advancesSinceRestart`), as far as they can be counted. A target that
the buffers are made for already changes nothing, so it can be asked for anywhere, and what is seen
besides its answer stays the same (`State.observe_insert`, `State.filter_observe`).
-/

namespace Candela.Frame

/-- A call on a state. -/
inductive Call where
  | advance
  | reset
  | retarget (t : Target)
  deriving DecidableEq

namespace Call

/-- The target that a call asks for. -/
def target? : Call → Option Target
  | retarget t => some t
  | _ => none

/-- Whether a call throws the frames away that buffers for a target have taken up. -/
def restarts (t : Target) : Call → Bool
  | advance => false
  | reset => true
  | retarget t' => t' ≠ t

/-- Whether a call asks for the target that the buffers are made for. -/
def isRedundant (t : Target) (c : Call) : Bool := c = retarget t

end Call

/-! ## What calls ask for -/

/-- The last target that is asked for, or the one from before the calls. -/
def lastTarget (t : Target) (calls : List Call) : Target :=
  (calls.filterMap Call.target?).getLast?.getD t

/-- Whether the call at some place throws frames away. -/
def restartsAt (t : Target) (calls : List Call) (i : Nat) : Bool :=
  calls[i]?.any (Call.restarts (lastTarget t (calls.take i)))

/-- Whether the call at some place adds a frame, and no call after it throws that away. -/
def isKept (t : Target) (calls : List Call) (i : Nat) : Bool :=
  calls[i]? = some .advance ∧ ∀ j < calls.length, i < j → restartsAt t calls j = false

/-- How many frames are added with no call after them that throws them away. -/
def advancesSinceRestart (t : Target) (calls : List Call) : Nat :=
  (List.range calls.length).countP (isKept t calls)

/-- The calls without those that ask for the target that the buffers are made for. -/
def withoutRedundant (t : Target) : List Call → List Call
  | [] => []
  | c :: calls =>
    if c.isRedundant t then withoutRedundant t calls
    else c :: withoutRedundant (c.target?.getD t) calls

variable {t : Target} {c : Call} {calls before after : List Call} {i : Nat}

@[simp] theorem lastTarget_nil : lastTarget t [] = t := rfl

theorem lastTarget_append :
    lastTarget t (before ++ after) = lastTarget (lastTarget t before) after := by
  simp only [lastTarget, List.filterMap_append, List.getLast?_append]
  cases (after.filterMap Call.target?).getLast? <;> rfl

theorem lastTarget_cons : lastTarget t (c :: calls) = lastTarget (c.target?.getD t) calls := by
  have first : lastTarget t [c] = c.target?.getD t := by cases c <;> rfl
  rw [← first, ← lastTarget_append, List.singleton_append]

/-- Whether a call throws frames away does not depend on the calls after it. -/
theorem restartsAt_concat (h : i < calls.length) :
    restartsAt t (calls ++ [c]) i = restartsAt t calls i := by
  rw [restartsAt, restartsAt, List.getElem?_append_left h, List.take_append_of_le_length h.le]

theorem restartsAt_last :
    restartsAt t (calls ++ [c]) calls.length = c.restarts (lastTarget t calls) := by
  rw [restartsAt, List.getElem?_concat_length, List.take_left]
  rfl

theorem isKept_eq_true : isKept t calls i = true ↔
    calls[i]? = some .advance ∧ ∀ j < calls.length, i < j → restartsAt t calls j = false :=
  decide_eq_true_iff

/-- Which frames are there after one call more. -/
theorem isKept_concat (h : i < calls.length) :
    isKept t (calls ++ [c]) i = (isKept t calls i && !c.restarts (lastTarget t calls)) := by
  rw [Bool.eq_iff_iff, Bool.and_eq_true, Bool.not_eq_true', isKept_eq_true, isKept_eq_true,
    List.getElem?_append_left h, List.length_append, List.length_singleton, and_assoc]
  refine and_congr_right fun _ => ?_
  rw [Nat.forall_lt_succ_right, restartsAt_last]
  refine and_congr (forall₂_congr fun j hj => ?_) (forall_prop_of_true h)
  rw [restartsAt_concat hj]

theorem isKept_last : isKept t (calls ++ [c]) calls.length = decide (c = .advance) := by
  rw [Bool.eq_iff_iff, isKept_eq_true, decide_eq_true_iff, List.getElem?_concat_length,
    Option.some_inj, List.length_append, List.length_singleton]
  exact and_iff_left fun j hj hlt => absurd hj (by omega)

/-- One call more throws all frames away, or it leaves them and may add one. -/
theorem advancesSinceRestart_concat : advancesSinceRestart t (calls ++ [c]) =
    if c.restarts (lastTarget t calls) then 0
    else advancesSinceRestart t calls + if c = .advance then 1 else 0 := by
  have earlier : (List.range calls.length).countP (isKept t (calls ++ [c])) =
      (List.range calls.length).countP fun i =>
        isKept t calls i && !c.restarts (lastTarget t calls) :=
    List.countP_congr fun i hi => by rw [isKept_concat (List.mem_range.1 hi)]
  rw [advancesSinceRestart, List.length_append, List.length_singleton, List.range_succ,
    List.countP_append, earlier, List.countP_singleton, isKept_last, advancesSinceRestart]
  cases c with
  | advance => simp [Call.restarts]
  | reset => simp [Call.restarts]
  | retarget t' => by_cases h : t' = lastTarget t calls <;> simp [Call.restarts, h]

/-- A target is the one that is asked for if it has the same numbers, none of them zero. -/
theorem Target.eq_ofRequest_iff {width height maxDepth : Nat} {statistics : Bool} :
    t = .ofRequest width height maxDepth statistics ↔
      max width 1 = t.sizes.width ∧ max height 1 = t.sizes.height ∧
        max maxDepth 1 = t.sizes.maxDepth ∧ statistics = t.statistics := by
  obtain ⟨⟨w, h, d⟩, b⟩ := t
  simp only [ofRequest, Sizes.ofRequest, Target.mk.injEq, Sizes.mk.injEq, and_assoc, eq_comm]

/-! ## Runs -/

namespace State

variable {s : State}

/-- The answer to a call, if there is one, and the state after it. -/
def call (s : State) : Call → Option Bool × State
  | .advance => (none, s.advance)
  | .reset => (none, s.reset)
  | .retarget t => (some (s.retarget t).1, (s.retarget t).2)

/-- The state after some calls. -/
def run (s : State) : List Call → State
  | [] => s
  | c :: calls => (s.call c).2.run calls

/-- What is seen of some calls: their answers, and the states after them. -/
def observe (s : State) : List Call → List (Option Bool × State)
  | [] => []
  | c :: calls => s.call c :: (s.call c).2.observe calls

theorem run_append : s.run (before ++ after) = (s.run before).run after := by
  induction before generalizing s with
  | nil => rfl
  | cons c before ih => exact ih

theorem run_concat : s.run (calls ++ [c]) = ((s.run calls).call c).2 := run_append

theorem observe_append :
    s.observe (before ++ after) = s.observe before ++ (s.run before).observe after := by
  induction before generalizing s with
  | nil => rfl
  | cons c before ih => exact congrArg _ ih

/-- What is seen first does not depend on the calls that follow. -/
theorem take_observe (n : Nat) : (s.observe calls).take n = s.observe (calls.take n) := by
  induction calls generalizing s n with
  | nil => rw [List.take_nil, observe, List.take_nil]
  | cons c calls ih =>
    cases n with
    | zero => rfl
    | succ n => exact congrArg _ (ih n)

/-- What is seen later is what is seen from the state that the first calls leave. -/
theorem drop_observe (n : Nat) :
    (s.observe calls).drop n = (s.run (calls.take n)).observe (calls.drop n) := by
  induction calls generalizing s n with
  | nil => rw [List.drop_nil, observe, List.drop_nil, observe]
  | cons c calls ih =>
    cases n with
    | zero => rfl
    | succ n => exact ih n

/-- A target is taken over, and no other call changes it. -/
theorem target_call : (s.call c).2.target = c.target?.getD s.target := by
  cases c with
  | advance => rfl
  | reset => rfl
  | retarget t =>
    by_cases h : s.target = t
    · simp [call, retarget, differs, Call.target?, h]
    · simp [call, retarget, differs, Call.target?, h, ofTarget]

/-- Frames are thrown away, or they stay and one may come. -/
theorem frameIndex_call : (s.call c).2.frameIndex =
    if c.restarts s.target then 0
    else if c = .advance then min (s.frameIndex + 1) maxFrames else s.frameIndex := by
  cases c with
  | advance => rfl
  | reset => rfl
  | retarget t =>
    by_cases h : s.target = t
    · simp [call, retarget, differs, Call.restarts, h]
    · simp [call, retarget, differs, Call.restarts, h, Ne.symm h, ofTarget]

/-- A target that the buffers are made for already is answered with no, and nothing changes. -/
theorem call_of_isRedundant (h : c.isRedundant s.target = true) : s.call c = (some false, s) := by
  obtain rfl : c = .retarget s.target := of_decide_eq_true h
  simp [call, retarget, differs]

/-- Every other call is not answered with no. -/
theorem answer_ne_of_not_isRedundant (h : c.isRedundant s.target = false) :
    (s.call c).1 ≠ some false := by
  cases c with
  | advance => nofun
  | reset => nofun
  | retarget t =>
    have other : t ≠ s.target := fun heq => of_decide_eq_false h (congrArg Call.retarget heq)
    simp [call, retarget, differs, other.symm]

theorem target_run : (s.run calls).target = lastTarget s.target calls := by
  induction calls generalizing s with
  | nil => rfl
  | cons c calls ih => rw [run, ih, target_call, lastTarget_cons]

/-- The frames after a run that began with none. -/
theorem frameIndex_run :
    ((ofTarget t).run calls).frameIndex = min (advancesSinceRestart t calls) maxFrames := by
  induction calls using List.reverseRecOn with
  | nil => rfl
  | append_singleton calls c ih =>
    rw [run_concat, frameIndex_call, target_run, advancesSinceRestart_concat, ih]
    show (if c.restarts (lastTarget t calls) then 0 else _) = _
    split
    · rfl
    · split <;> omega

/-! ## Redundant targets -/

/-- Asking for the target that the buffers are made for is seen where it happens, and nowhere
later. -/
theorem observe_insert (n : Nat) :
    (ofTarget t).observe (calls.take n ++ .retarget (lastTarget t (calls.take n)) :: calls.drop n) =
      ((ofTarget t).observe calls).take n ++ (some false, (ofTarget t).run (calls.take n)) ::
        ((ofTarget t).observe calls).drop n := by
  have redundant : ((ofTarget t).run (calls.take n)).call (.retarget (lastTarget t (calls.take n)))
      = (some false, (ofTarget t).run (calls.take n)) :=
    call_of_isRedundant (decide_eq_true (by rw [target_run]; rfl))
  rw [observe_append, observe, redundant, take_observe, drop_observe]

/-- A run shows what it would show without redundant targets, and their answers. -/
theorem filter_observe : (s.observe calls).filter (fun seen => seen.1 ≠ some false) =
    s.observe (withoutRedundant s.target calls) := by
  induction calls generalizing s with
  | nil => rfl
  | cons c calls ih =>
    rw [observe, withoutRedundant]
    split
    next h =>
      rw [call_of_isRedundant h, List.filter_cons_of_neg (by simp)]
      exact ih
    next h =>
      have kept := answer_ne_of_not_isRedundant (Bool.eq_false_iff.2 h)
      rw [List.filter_cons_of_pos (by simpa using kept), ih, target_call, observe]

/-! ## Accumulation -/

/-- What a run of calls leaves, said without the states in between. -/
structure Accumulates (t : Target) (calls : List Call) : Prop where
  target : ((ofTarget t).run calls).target = lastTarget t calls
  frameIndex : ((ofTarget t).run calls).frameIndex = min (advancesSinceRestart t calls) (2 ^ 32 - 1)
  /-- The answer to a target that is asked for next, and the state with it. -/
  retarget (width height maxDepth : Nat) (statistics : Bool) :
    ((ofTarget t).run calls).retarget (.ofRequest width height maxDepth statistics) =
      if max width 1 = (lastTarget t calls).sizes.width ∧
          max height 1 = (lastTarget t calls).sizes.height ∧
          max maxDepth 1 = (lastTarget t calls).sizes.maxDepth ∧
          statistics = (lastTarget t calls).statistics then
        (false, (ofTarget t).run calls)
      else (true, ofTarget (.ofRequest width height maxDepth statistics))
  /-- The current target is asked for once more after `n` calls: that is answered with no, and what
  is seen later stays the same. -/
  insert (n : Nat) :
    (ofTarget t).observe (calls.take n ++ .retarget (lastTarget t (calls.take n)) :: calls.drop n) =
      ((ofTarget t).observe calls).take n ++ (some false, (ofTarget t).run (calls.take n)) ::
        ((ofTarget t).observe calls).drop n
  /-- All redundant targets at once. -/
  redundant : ((ofTarget t).observe calls).filter (fun seen => seen.1 ≠ some false) =
    (ofTarget t).observe (withoutRedundant t calls)

/-- The answer to a target, in the numbers that are asked for. -/
theorem retarget_ofRequest (s : State) (width height maxDepth : Nat) (statistics : Bool) :
    s.retarget (.ofRequest width height maxDepth statistics) =
      if max width 1 = s.target.sizes.width ∧ max height 1 = s.target.sizes.height ∧
          max maxDepth 1 = s.target.sizes.maxDepth ∧ statistics = s.target.statistics then
        (false, s)
      else (true, ofTarget (.ofRequest width height maxDepth statistics)) := by
  rw [← if_congr Target.eq_ofRequest_iff rfl rfl, retarget, differs]
  by_cases h : s.target = .ofRequest width height maxDepth statistics <;> simp [h]

/-- Whatever is called: the target is the last one asked for, the frames are those since the last
restart, and asking for the same target again changes nothing. -/
theorem run_accumulates (t : Target) (calls : List Call) : Accumulates t calls where
  target := target_run
  frameIndex := frameIndex_run
  retarget width height maxDepth statistics := by
    rw [retarget_ofRequest, target_run]
    rfl
  insert := observe_insert
  redundant := filter_observe

example : let s := ofTarget (.ofRequest 0 1 4 false)
    s.observe [.advance, .retarget (.ofRequest 1 0 4 false), .retarget (.ofRequest 1 1 4 true)] =
      [(none, ⟨s.target, 1⟩), (some false, ⟨s.target, 1⟩),
        (some true, ⟨⟨⟨1, 1, 4⟩, true⟩, 0⟩)] := by
  decide

end State

end Candela.Frame
