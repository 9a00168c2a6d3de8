import Assay.Proofs.Check.Sequence
import Assay.Proofs.Check.Settings

/-!
Contract: no run breaks an invariant of the session.
-/

namespace Assay

/-- The handles of definitions and nodes stand for something, and the members that were declared can
be counted: a sealed struct has two members more. -/
structure Run.State.Safe (state : Run.State) : Prop where
  covered : (state.1.bounds state.2.size).Covers
    (state.1.handles ++ state.2.nodes.toList.flatMap Node.handles)
  counted : ∀ struct ∈ state.1.structs, struct.isSealed = true → 2 ≤ struct.members.length

/-- A state without a broken invariant: every handle that it holds anywhere stands for a definition,
no operands were met on which a remainder overflows, and no internal or fatal error was reported. -/
structure Run.Safe (run : Run) : Prop extends run.state.Safe where
  handles : run.bounds.Covers run.handles
  untrapped : run.trapped = false
  reported : run.log.counts .internal = 0 ∧ run.log.counts .fatal = 0
  kept : ∀ diagnostic ∈ run.log.kept,
    diagnostic.entry.severity ≠ .internal ∧ diagnostic.entry.severity ≠ .fatal

/-! ## Inside a step -/

namespace Run

variable {may : Handle → Prop} {before after : Run.State}

/-- What every single change keeps: the integrity of the session, and nodes whose operands and types
are there. -/
structure State.Whole (state : Run.State) : Prop where
  integral : state.1.Integral state.2.size
  closed : state.2.Closed
  covered : state.2.CoveredBy (state.1.bounds state.2.size)

theorem State.Whole.safe (whole : before.Whole) : before.Safe := by
  refine ⟨Bounds.covers_append.mpr ⟨Session.covers_handles.mpr whole.integral.covered, ?_⟩,
    whole.integral.counted⟩
  rw [Bounds.covers_flatMap]
  intro node member
  obtain ⟨index, held, isNode⟩ := Array.mem_iff_getElem.mp (Array.mem_toList_iff.mp member)
  have found : before.2.node? ⟨index⟩ = some node := by
    rw [Arena.node?, Array.getElem?_eq_getElem held, isNode]
  have covered := whole.covered found
  rw [Node.handles, Bounds.covers_append, Bounds.covers_map, Bounds.covers_flatMap]
  exact ⟨fun child isChild => decide_eq_true (whole.closed found child isChild),
    List.forall_mem_cons.mpr ⟨covered.ty, covered.types⟩⟩

theorem Change.whole (change : Change may before after) (whole : before.Whole) : after.Whole := by
  cases change with
  | session event =>
    exact ⟨event.integral whole.integral, whole.closed,
      whole.covered.mono (event.persists.bounds _)⟩
  | @arena session first last revision =>
    have size := revision.size_le
    have covered : last.CoveredBy (session.bounds first.size) := revision.nodewise whole.covered
    exact ⟨whole.integral.mono size, revision.closed whole.closed,
      covered.mono (session.bounds_le size)⟩

/-- The second state comes from the first by single changes of definitions and nodes, and is safe
after each of them. -/
def ChangesSafely : Run.State → Run.State → Prop :=
  Relation.ReflTransGen fun before after => Change (fun _ => True) before after ∧ after.Safe

theorem Changes.safely (changes : Changes (fun _ => True) before after) (whole : before.Whole) :
    ChangesSafely before after ∧ after.Whole := by
  induction changes with
  | refl => exact ⟨.refl, whole⟩
  | tail _ change ih =>
    have wholeAfter := change.whole ih.2
    exact ⟨ih.1.tail ⟨change, wholeAfter.safe⟩, wholeAfter⟩

end Run

theorem Entry.Plain.severity {entry : Entry} (plain : entry.Plain) :
    entry.severity ≠ .internal ∧ entry.severity ≠ .fatal := by
  rcases plain with isTrace | isError
  · rw [isTrace]
    decide
  · rw [show entry.severity = .error from isError]
    decide

namespace Run

variable {run : Run}

theorem Intact.whole (intact : run.Intact) : run.state.Whole :=
  ⟨intact.integral, intact.acyclic.closed, intact.covered⟩

theorem Orderly.safe (orderly : run.Orderly) : run.Safe where
  toSafe := orderly.toIntact.whole.safe
  handles := by
    obtain ⟨session, nodes⟩ := Bounds.covers_append.mp orderly.toIntact.whole.safe.covered
    simp only [Run.handles, Bounds.covers_append, Bounds.covers_map, Bounds.covers_flatMap]
    refine ⟨⟨⟨fun entry member => decide_eq_true (orderly.modulesHeld entry member),
      fun frame member => ?_⟩, session⟩, Bounds.covers_flatMap.mp nodes⟩
    obtain ⟨module, block⟩ := orderly.framesHeld frame member
    exact Bounds.covers_cons.mpr ⟨decide_eq_true module,
      Bounds.covers_cons.mpr ⟨decide_eq_true block, Bounds.covers_nil⟩⟩
  untrapped := orderly.untrapped
  reported := ⟨orderly.plain.counts .internal (by decide) (by decide),
    orderly.plain.counts .fatal (by decide) (by decide)⟩
  kept := fun diagnostic member => (orderly.plain.kept diagnostic member).severity

/-- Every state that the run over a manifest comes to is orderly. -/
theorem orderly_of_steps (manifest : Manifest) (file : String) {earlier later : List Step}
    (isPrefix : manifest.steps file = earlier ++ later) :
    (Step.afterAll earlier (start manifest file)).Orderly := by
  have taken := steps_taken manifest file
  rw [isPrefix] at taken
  exact (taken.of_append).orderly (orderly_start manifest file)

end Run

def remainders : Manifest :=
  { modules := [{
      name := "m"
      structs := [{ name := "Box", members := [⟨"v", "uint8_t"⟩] }]
      functions := [{ name := "f", locals := [
        { name := "left", type := "uint8_t",
          init := some (.chain (.name "rest") [("%", .int 0)]) }] }]
      constants := [{ name := "rest", value := .chain (.int 7) [("%", .int (-1))] }] }] }

end Assay
