import Interop.Parameter

/-!
# Interop.Proofs.Parameter.Environment — the environment of the host under edits.

The parameter that hands in the environment of the host is made as an input. What it is made for
cannot be taken from it: no edit of a parameter turns the environment into something else, or
something else into the environment. Its direction is less safe. One edit gives a parameter another
type, name and direction at once, and it does not ask whether the parameter is the environment. So an
environment can be edited into an output, and what counts is the last edit that names a direction.

## Main statements

* **`direction_run`** — the direction of a parameter after any edits.
* **`environment_run`** — which edits leave the environment an input.
* **`not_input_environment`** — an environment that is an output.
-/

namespace Interop

open Qualifier (Kind Payload)

namespace Parameter

/-! ## §1 Histories of edits -/

/-- One edit of a parameter. -/
inductive Edit where
  /-- A qualifier is put in, in the place of any other of its kind. -/
  | add (q : Qualifier)
  | remove (k : Kind)
  | dropArrayKinds
  | modify (k : Kind) (f : Payload k → Payload k)
  | document (mode : LinkMode) (text links : String)
  | withDoc (doc : String)
  | retype (type : CType) (name : String)
  | retypeAs (type : CType) (name : String) (direction : Direction)
  /-- The parameter is frozen, and a copy of it thawed. -/
  | refreeze

/-- The parameter after one edit. -/
def apply (p : Parameter) : Edit → Parameter
  | .add q => p.add q
  | .remove k => p.remove k
  | .dropArrayKinds => p.dropArrayKinds
  | .modify k f => p.modify k f
  | .document mode text links => p.document mode text links
  | .withDoc doc => p.withDoc (some doc)
  | .retype type name => p.retype type name
  | .retypeAs type name direction => p.retypeAs type name direction
  | .refreeze => p.freeze.thaw

/-- The parameter after the edits of a list, one after the other. -/
def run (p : Parameter) (es : List Edit) : Parameter := es.foldl apply p

/-- The direction that an edit names. -/
def Edit.direction? : Edit → Option Direction
  | .retypeAs _ _ direction => some direction
  | _ => none

/-- The direction that was named last. -/
def lastDirection? (es : List Edit) : Option Direction := (es.filterMap Edit.direction?).getLast?

/-! ## §2 One edit -/

/-- No edit makes a parameter the environment, or the environment another parameter. -/
theorem isEnvironment_apply (p : Parameter) (e : Edit) :
    (p.apply e).isEnvironment = p.isEnvironment := by
  cases e with
  | add q => rfl
  | remove k => rfl
  | dropArrayKinds => rfl
  | modify k f => rfl
  | document mode text links => rfl
  | withDoc doc => rfl
  | retype type name => rfl
  | retypeAs type name direction => rfl
  | refreeze => rfl

/-- An edit sets the direction that it names, and keeps it if it names none. -/
theorem direction_apply (p : Parameter) (e : Edit) :
    (p.apply e).direction = e.direction?.getD p.direction := by
  cases e with
  | add q => rfl
  | remove k => rfl
  | dropArrayKinds => rfl
  | modify k f => rfl
  | document mode text links => rfl
  | withDoc doc => rfl
  | retype type name => rfl
  | retypeAs type name direction => rfl
  | refreeze => rfl

/-! ## §3 Any number of edits -/

theorem isEnvironment_run (p : Parameter) (es : List Edit) :
    (p.run es).isEnvironment = p.isEnvironment := by
  induction es generalizing p with
  | nil => rfl
  | cons e es ih => exact (ih (p.apply e)).trans (p.isEnvironment_apply e)

/-- Of an edit and those after it, the first one counts only if no other names a direction. -/
theorem lastDirection?_cons (e : Edit) (es : List Edit) :
    lastDirection? (e :: es) = (lastDirection? es).or e.direction? := by
  unfold lastDirection?
  rw [List.filterMap_cons]
  cases e.direction? with
  | none => exact (Option.or_none).symm
  | some d =>
    rw [List.getLast?_cons]
    cases (es.filterMap Edit.direction?).getLast? with
    | none => rfl
    | some d' => rfl

/-- **The direction** is the one that was named last, and the one from before the edits if none
was. -/
theorem direction_run (p : Parameter) (es : List Edit) :
    (p.run es).direction = (lastDirection? es).getD p.direction := by
  induction es generalizing p with
  | nil => rfl
  | cons e es ih =>
    have hrest : (p.run (e :: es)).direction = (lastDirection? es).getD (p.apply e).direction :=
      ih (p.apply e)
    rw [hrest, direction_apply, lastDirection?_cons]
    cases lastDirection? es with
    | none => rfl
    | some d => rfl

/-! ## §4 The environment -/

/-- **The environment under edits.** After any edits the environment of the host is the environment
still. Its direction is the one that was named last; so it is an input exactly when no direction was
named, or the last one was that of an input. -/
theorem environment_run (name : String) (type : CType) (es : List Edit) :
    ((environment name type).run es).isEnvironment = true ∧
    ((environment name type).run es).direction = (lastDirection? es).getD .input ∧
    (((environment name type).run es).direction = .input ↔
      ∀ d, lastDirection? es = some d → d = .input) := by
  have hdirection := direction_run (environment name type) es
  refine ⟨isEnvironment_run (environment name type) es, hdirection, ?_⟩
  rw [hdirection]
  cases lastDirection? es with
  | none => exact ⟨fun _ => nofun, fun _ => rfl⟩
  | some d => exact ⟨fun hd _ h => Option.some.inj h ▸ hd, fun h => h d rfl⟩

/-- **An environment that is an output.** One edit gives the environment the type and the name it
had, and a direction. -/
theorem not_input_environment :
    ¬ ∀ (name : String) (type : CType) (es : List Edit),
      ((environment name type).run es).isEnvironment = true ∧
        ((environment name type).run es).direction = .input := by
  intro h
  have hinput :=
    (h "__env" (.handleTo "JNIEnv") [.retypeAs (.handleTo "JNIEnv") "__env" .output]).2
  cases hinput

end Parameter

end Interop
