import Assay.Proofs.Scope.Variables
import Assay.Proofs.Scope.Views

/-!
Contract: the folding of a block as a rewrite of what its variables start from.
-/

namespace Assay

/-! ## Changes of one block -/

namespace Session

variable {session : Session} {block : BlockId}

theorem modifyBlock_modifyBlock (session : Session) (block : BlockId)
    (first second : Block → Block) :
    (session.modifyBlock block first).modifyBlock block second =
      session.modifyBlock block fun state => second (first state) := by
  have blocks : (session.blocks.modify block.index first).modify block.index second =
      session.blocks.modify block.index fun state => second (first state) := by
    apply Array.ext_getElem?
    intro place
    simp only [Array.getElem?_modify]
    split <;> simp [Function.comp_def]
  rw [modifyBlock, modifyBlock, modifyBlock, blocks]

theorem modifyBlock_congr {first second : Block → Block}
    (same : first (session.blockAt block) = second (session.blockAt block)) :
    session.modifyBlock block first = session.modifyBlock block second := by
  have blocks : session.blocks.modify block.index first =
      session.blocks.modify block.index second := by
    apply Array.ext_getElem?
    intro place
    rw [Array.getElem?_modify, Array.getElem?_modify]
    split
    · next isPlace =>
      subst isPlace
      cases found : session.blocks[block.index]? with
      | none => rfl
      | some state =>
        rw [blockAt, found, Option.getD_some] at same
        simp only [Option.map_some, same]
    · rfl
  rw [modifyBlock, modifyBlock, blocks]

end Session

/-- Inlining reads nothing of a session but the values of names. -/
theorem Rooted.inlineNames_congr {first second : Session} {scope : ScopeId}
    (same : ∀ name, first.value? scope name = second.value? scope name) (expr : Rooted) :
    Rooted.inlineNames first scope expr = Rooted.inlineNames second scope expr := by
  have sameName : Rooted.inlineName first scope = Rooted.inlineName second scope := by
    funext expr id name
    rw [inlineName, inlineName, same]
  rw [inlineNames, inlineNames, sameName]

/-! ## Attempts -/

namespace Session

/-- What becomes of the expression that a variable starts from. -/
inductive Fate where
  | kept
  | folded (root : ExprId)
  | failed (entry : Entry)
  | trapped

namespace Fate

def root (old : ExprId) : Fate → ExprId
  | folded root => root
  | _ => old

def entry? : Fate → Option Entry
  | failed entry => some entry
  | _ => none

def isTrapped : Fate → Bool
  | trapped => true
  | _ => false

end Fate

variable {session : Session} {block : BlockId} {arena : Arena} {env : Environment} {name : String}
  {fates : List (String × Fate)} {fate : Fate} {state : Folded}

/-- Inline the names in one expression, and fold it if it is constant then. -/
def attempt (session : Session) (block : BlockId) (arena : Arena) (init : ExprId) : Fate × Arena :=
  let inlined := (Rooted.inlineNames session (.block block) ⟨arena, init⟩).2
  if inlined.arena.isConst inlined.root then
    match inlined.simplify with
    | (.ok root, solved) => (.folded root, solved.arena)
    | (.error (.fault fault), solved) =>
        (.failed (.foldError (solved.arena.locAt inlined.root) fault), solved.arena)
    | (.error .trap, solved) => (.trapped, solved.arena)
  else
    (.kept, inlined.arena)

def attempts (session : Session) (block : BlockId) :
    Arena → List (String × ExprId) → List (String × Fate) × Arena
  | arena, [] => ([], arena)
  | arena, (name, init) :: rest =>
      let (fate, next) := session.attempt block arena init
      let (fates, last) := attempts session block next rest
      ((name, fate) :: fates, last)

def settledRoot (fates : List (String × Fate)) (name : String) (old : ExprId) : ExprId :=
  ((fates.lookup name).map (Fate.root old)).getD old

def settle (fates : List (String × Fate)) (state : Block) : Block :=
  { state with
    init := state.init.map fun entry => (entry.1, settledRoot fates entry.1 entry.2) }

def Folded.after (block : BlockId) (state : Folded) (name : String) (fate : Fate) (arena : Arena) :
    Folded where
  session :=
    match fate with
    | .folded root => state.session.modifyBlock block fun state => state.setInit name root
    | _ => state.session
  arena := arena
  entries := state.entries ++ fate.entry?.toList
  ok := state.ok && fate.entry?.isNone && !fate.isTrapped
  trapped := state.trapped || fate.isTrapped

def Folded.afterAll (block : BlockId) (state : Folded) (fates : List (String × Fate))
    (arena : Arena) : Folded where
  session := state.session.modifyBlock block (settle fates)
  arena := arena
  entries := state.entries ++ fates.filterMap fun outcome => Fate.entry? outcome.2
  ok := state.ok && fates.all fun outcome => (Fate.entry? outcome.2).isNone && !outcome.2.isTrapped
  trapped := state.trapped || fates.any fun outcome => outcome.2.isTrapped

theorem attempts_cons (session : Session) (block : BlockId) (arena : Arena) (name : String)
    (init : ExprId) (rest : List (String × ExprId)) :
    session.attempts block arena ((name, init) :: rest) =
      let tried := session.attempt block arena init
      let later := session.attempts block tried.2 rest
      ((name, tried.1) :: later.1, later.2) :=
  rfl

theorem foldInit_eq (block : BlockId) (state : Folded) (name : String) (init : ExprId) :
    foldInit block state name init =
      let tried := state.session.attempt block state.arena init
      state.after block name tried.1 tried.2 := by
  unfold foldInit attempt
  dsimp only
  generalize (Rooted.inlineNames state.session (.block block) ⟨state.arena, init⟩).2 = inlined
  split
  · rcases inlined.simplify with ⟨stop | root, solved⟩
    · cases stop <;> simp [Folded.after, Fate.entry?, Fate.isTrapped]
    · simp [Folded.after, Fate.entry?, Fate.isTrapped]
  · simp [Folded.after, Fate.entry?, Fate.isTrapped]

theorem attempts_names (session : Session) (block : BlockId) (arena : Arena)
    (inits : List (String × ExprId)) :
    (session.attempts block arena inits).1.map Prod.fst = inits.map Prod.fst := by
  induction inits generalizing arena with
  | nil => rfl
  | cons entry inits ih =>
    rw [attempts_cons, List.map_cons, List.map_cons, ih]

theorem attempts_congr {later : Session}
    (same : ∀ name, later.value? (.block block) name = session.value? (.block block) name)
    (arena : Arena) (inits : List (String × ExprId)) :
    later.attempts block arena inits = session.attempts block arena inits := by
  have sameAttempt : later.attempt block = session.attempt block := by
    funext arena init
    rw [attempt, attempt, Rooted.inlineNames_congr same]
  induction inits generalizing arena with
  | nil => rfl
  | cons entry inits ih =>
    rw [attempts_cons, attempts_cons, sameAttempt]
    simp only [ih]

/-! ## Folding a block -/

theorem lookup_eq_none {α : Type} {entries : List (String × α)}
    (absent : name ∉ entries.map Prod.fst) : entries.lookup name = none := by
  rw [List.lookup_eq_none_iff]
  intro entry member
  rw [bne_iff_ne]
  rintro rfl
  exact absent (List.mem_map_of_mem member)

theorem exists_lookup {α : Type} {entries : List (String × α)}
    (member : name ∈ entries.map Prod.fst) : ∃ value, entries.lookup name = some value := by
  apply Option.ne_none_iff_exists'.mp
  intro missing
  obtain ⟨entry, isEntry, rfl⟩ := List.mem_map.mp member
  have different := List.lookup_eq_none_iff.mp missing entry isEntry
  simp at different

theorem settledRoot_cons (fates : List (String × Fate)) (name other : String) (fate : Fate)
    (old : ExprId) :
    settledRoot ((name, fate) :: fates) other old =
      if other = name then fate.root old else settledRoot fates other old := by
  unfold settledRoot
  rw [List.lookup_cons]
  by_cases isName : other = name
  · simp [isName]
  · simp [isName, beq_false_of_ne isName]

theorem settledRoot_absent (absent : name ∉ fates.map Prod.fst) (old : ExprId) :
    settledRoot fates name old = old := by
  rw [settledRoot, lookup_eq_none absent]
  rfl

theorem settle_cons_unfolded (absent : name ∉ fates.map Prod.fst)
    (unfolded : ∀ old, fate.root old = old) (state : Block) :
    settle ((name, fate) :: fates) state = settle fates state := by
  unfold settle
  congr 1
  refine List.map_congr_left fun entry _ => ?_
  rw [settledRoot_cons]
  split
  · next isName => rw [unfolded, isName, settledRoot_absent absent]
  · rfl

theorem settle_setInit {root : ExprId} {state : Block} (absent : name ∉ fates.map Prod.fst)
    (started : name ∈ state.started) :
    settle ((name, .folded root) :: fates) state = settle fates (state.setInit name root) := by
  unfold settle Block.setInit
  rw [Table.enter_of_taken started]
  congr 1
  rw [List.map_map]
  refine List.map_congr_left fun entry _ => ?_
  rw [Function.comp_apply, settledRoot_cons]
  split
  · next isName =>
    rw [isName, settledRoot_absent absent]
    rfl
  · rfl

theorem started_settle (fates : List (String × Fate)) (state : Block) :
    (settle fates state).started = state.started := by
  simp [Block.started, settle, Function.comp_def]

theorem lookup_settle {state : Block} {old : ExprId} (distinct : state.started.Nodup)
    (member : (name, old) ∈ state.init) :
    (settle fates state).init.lookup name = some (settledRoot fates name old) := by
  rw [← started_settle fates] at distinct
  rw [Table.lookup_eq_some_iff_mem distinct]
  exact List.mem_map.mpr ⟨(name, old), member, rfl⟩

/-- An attempt and those after it settle a block together. -/
theorem settle_after (absent : name ∉ fates.map Prod.fst)
    (started : name ∈ (state.session.blockAt block).started) (fate : Fate) (arena : Arena) :
    (state.after block name fate arena).session.modifyBlock block (settle fates) =
      state.session.modifyBlock block (settle ((name, fate) :: fates)) := by
  cases fate with
  | folded root =>
    change (state.session.modifyBlock block fun state => state.setInit name root).modifyBlock block
      (settle fates) = _
    rw [modifyBlock_modifyBlock]
    exact modifyBlock_congr (settle_setInit absent started).symm
  | kept | failed entry | trapped =>
    exact modifyBlock_congr (settle_cons_unfolded absent (fun _ => rfl) _).symm

theorem value?_after (state : Folded) (name other : String) (fate : Fate) (arena : Arena) :
    (state.after block name fate arena).session.value? (.block block) other =
      state.session.value? (.block block) other := by
  cases fate with
  | folded root =>
    refine (state.session.sameView_of_blocks (.block block) Array.size_modify fun id => ?_).value
      other
    change ((state.session.modifyBlock block fun state => state.setInit name root).blockAt id).vars =
      _ ∧ ((state.session.modifyBlock block _).blockAt id).parent = _
    rw [blockAt_modifyBlock]
    split
    all_goals exact ⟨rfl, rfl⟩
  | _ => rfl

theorem started_after {other : String} (started : other ∈ (state.session.blockAt block).started)
    (fate : Fate) (arena : Arena) :
    other ∈ ((state.after block name fate arena).session.blockAt block).started := by
  cases fate with
  | folded root =>
    change other ∈ ((state.session.modifyBlock block fun state =>
      state.setInit name root).blockAt block).started
    rw [blockAt_modifyBlock]
    split
    · exact Block.mem_started_setInit.mpr (.inr started)
    · exact started
  | _ => exact started

theorem afterAll_nil (block : BlockId) (state : Folded) :
    state.afterAll block [] state.arena = state := by
  have unchanged : settle [] = id := by
    funext state
    simp [settle, settledRoot]
  have same : state.session.modifyBlock block (settle []) = state.session := by
    rw [unchanged, modifyBlock]
    congr 1
    apply Array.ext_getElem?
    simp [Array.getElem?_modify]
  simp [Folded.afterAll, same]

theorem after_afterAll (absent : name ∉ fates.map Prod.fst)
    (started : name ∈ (state.session.blockAt block).started) (fate : Fate) (next last : Arena) :
    (state.after block name fate next).afterAll block fates last =
      state.afterAll block ((name, fate) :: fates) last := by
  unfold Folded.afterAll
  rw [settle_after absent started]
  congr 1
  · cases isEntry : fate.entry? <;> simp [Folded.after, isEntry]
  · simp [Folded.after, Bool.and_assoc]
  · simp [Folded.after, Bool.or_assoc]

theorem block_afterAll (held : block.index < state.session.blocks.size)
    (fates : List (String × Fate)) (arena : Arena) :
    (state.afterAll block fates arena).session.blockAt block =
      settle fates (state.session.blockAt block) := by
  rw [Folded.afterAll, blockAt_modifyBlock, if_pos ⟨rfl, held⟩]

theorem Fate.isTrapped_iff : fate.isTrapped = true ↔ fate = .trapped := by
  cases fate <;> simp [isTrapped]

theorem afterAll_trapped (untrapped : state.trapped = false) :
    (state.afterAll block fates arena).trapped = true ↔
      ∃ outcome ∈ fates, outcome.2 = .trapped := by
  simp only [Folded.afterAll, untrapped, Bool.false_or, List.any_eq_true, Fate.isTrapped_iff]

/-- The result is good exactly if nothing was reported and no attempt ended in a trap. -/
theorem afterAll_ok (silent : state.entries = []) (ok : state.ok = true)
    (untrapped : state.trapped = false) :
    (state.afterAll block fates arena).ok = true ↔
      (state.afterAll block fates arena).entries = [] ∧
        (state.afterAll block fates arena).trapped = false := by
  simp only [Folded.afterAll, silent, ok, untrapped, Bool.true_and, Bool.false_or, List.nil_append,
    List.all_eq_true, List.filterMap_eq_nil_iff, List.any_eq_false, Bool.and_eq_true,
    Option.isNone_iff_eq_none, Bool.not_eq_true', Bool.not_eq_true]
  exact ⟨fun all => ⟨fun outcome member => (all outcome member).1,
    fun outcome member => (all outcome member).2⟩,
    fun both outcome member => ⟨both.1 outcome member, both.2 outcome member⟩⟩

/-- Folding the variables that are listed is one attempt for each of them. -/
theorem foldl_foldInit_eq {inits : List (String × ExprId)} (distinct : (inits.map Prod.fst).Nodup)
    (started : ∀ entry ∈ inits, entry.1 ∈ (state.session.blockAt block).started) :
    inits.foldl (fun state entry => foldInit block state entry.1 entry.2) state =
      let tried := state.session.attempts block state.arena inits
      state.afterAll block tried.1 tried.2 := by
  induction inits generalizing state with
  | nil => exact (afterAll_nil block state).symm
  | cons entry inits ih =>
    obtain ⟨name, init⟩ := entry
    obtain ⟨absent, distinctRest⟩ := List.nodup_cons.mp distinct
    obtain ⟨isStarted, startedRest⟩ := List.forall_mem_cons.mp started
    rw [List.foldl_cons, attempts_cons, foldInit_eq]
    generalize state.session.attempt block state.arena init = tried
    have absentLater :
        name ∉ (state.session.attempts block tried.2 inits).1.map Prod.fst := by
      rw [attempts_names]
      exact absent
    rw [ih distinctRest fun entry member =>
      started_after (startedRest entry member) tried.1 tried.2,
      attempts_congr fun other => value?_after state name other tried.1 tried.2]
    exact after_afterAll absentLater isStarted tried.1 tried.2 _

theorem foldBlock_eq_foldl (session : Session) (arena : Arena) (block : BlockId) :
    session.foldBlock arena block = (session.initsInOrder block).foldl
      (fun state entry => foldInit block state entry.1 entry.2)
      { session := session, arena := arena } :=
  rfl

theorem foldBlock_eq {own : StructId}
    (arranged : (session.structAt (session.blockAt block).vars).Arranged own) :
    session.foldBlock arena block =
      let tried := session.attempts block arena (session.initsInOrder block)
      Folded.afterAll block { session := session, arena := arena } tried.1 tried.2 := by
  rw [foldBlock_eq_foldl]
  refine foldl_foldInit_eq ?_ fun entry member => ?_
  · exact List.pairwise_map.mpr ((initsInOrder_pairwise arranged).imp fun both => both.1)
  · exact List.mem_map_of_mem (mem_initsInOrder member).2

/-! ## Meanings -/

theorem attempt_keepsMeaning (agrees : Rooted.Agrees session (.block block) env)
    (acyclic : arena.Acyclic) {init : ExprId} (allocated : arena.Allocated init) :
    let tried := session.attempt block arena init
    Arena.KeepsMeaning env arena tried.2 ∧ tried.2.Allocated (tried.1.root init) ∧
      tried.2.eval env (tried.1.root init) = arena.eval env init := by
  have inlines : Rooted.Inlines env ⟨arena, init⟩
      (Rooted.inlineNames session (.block block) ⟨arena, init⟩).2 :=
    Rooted.inlineNames_inlines agrees acyclic allocated
  unfold attempt
  dsimp only
  generalize (Rooted.inlineNames session (.block block) ⟨arena, init⟩).2 = inlined at inlines ⊢
  have folding : Rooted.KeepsMeaning env inlined inlined.simplify :=
    Rooted.simplifyWithin_keepsMeaning _ inlines.arena.acyclic inlines.root_allocated
  -- Whatever is not folded is left in an arena that keeps all meanings.
  have left : ∀ {next : Arena}, Arena.KeepsMeaning env arena next →
      Arena.KeepsMeaning env arena next ∧ next.Allocated init ∧
        next.eval env init = arena.eval env init :=
    fun kept => ⟨kept, kept.allocated allocated, kept.meaning allocated⟩
  split
  · rcases simplified : inlined.simplify with ⟨stop | root, solved⟩
    · rw [simplified] at folding
      have kept := inlines.arena.trans folding.arena
      cases stop with
      | fault fault => exact left kept
      | trap => exact left kept
    · rw [simplified] at folding
      obtain ⟨isAllocated, same⟩ := folding.result rfl
      exact ⟨inlines.arena.trans folding.arena, isAllocated, same.trans inlines.root_meaning⟩
  · exact left inlines.arena

/-- Every variable starts, after all attempts, from what means the same. -/
theorem attempts_keepMeaning (acyclic : arena.Acyclic) {inits : List (String × ExprId)}
    (distinct : (inits.map Prod.fst).Nodup)
    (allocated : ∀ entry ∈ inits, arena.Allocated entry.2) :
    let tried := session.attempts block arena inits
    (∀ env, Rooted.Agrees session (.block block) env → Arena.KeepsMeaning env arena tried.2) ∧
    ∀ entry ∈ inits, tried.2.Allocated (settledRoot tried.1 entry.1 entry.2) ∧
      ∀ env, Rooted.Agrees session (.block block) env →
        tried.2.eval env (settledRoot tried.1 entry.1 entry.2) = arena.eval env entry.2 := by
  induction inits generalizing arena with
  | nil => exact ⟨fun _ _ => .refl acyclic, fun _ absent => by cases absent⟩
  | cons entry inits ih =>
    obtain ⟨name, init⟩ := entry
    obtain ⟨absent, distinctRest⟩ := List.nodup_cons.mp distinct
    obtain ⟨isFirst, others⟩ := List.forall_mem_cons.mp allocated
    have first {env} (agrees : Rooted.Agrees session (.block block) env) :=
      attempt_keepsMeaning agrees acyclic isFirst
    have own := first (Rooted.agrees_literals session (.block block))
    rw [attempts_cons]
    generalize session.attempt block arena init = tried at first own ⊢
    dsimp only at first own ⊢
    obtain ⟨later, outcomes⟩ := ih own.1.acyclic distinctRest
      fun entry member => own.1.allocated (others entry member)
    refine ⟨fun env agrees => (first agrees).1.trans (later env agrees), ?_⟩
    rintro ⟨other, old⟩ member
    rw [settledRoot_cons]
    rcases List.mem_cons.mp member with isEntry | isLater
    · cases isEntry
      rw [if_pos rfl]
      refine ⟨(later _ (Rooted.agrees_literals session (.block block))).allocated own.2.1, ?_⟩
      intro env agrees
      rw [(later env agrees).meaning (first agrees).2.1, (first agrees).2.2]
    · have different : other ≠ name := by
        rintro rfl
        exact absent (List.mem_map.mpr ⟨_, isLater, rfl⟩)
      obtain ⟨stillAllocated, same⟩ := outcomes _ isLater
      rw [if_neg different]
      refine ⟨stillAllocated, fun env agrees => ?_⟩
      rw [same env agrees, (first agrees).1.meaning (others _ isLater)]

/-! ## Traps -/

/-- Where all literals are in range, no attempt ends in a trap. -/
theorem attempt_typed (typed : arena.Typed) (known : session.TypedIn (.block block))
    (init : ExprId) :
    (session.attempt block arena init).2.Typed ∧
      (session.attempt block arena init).1.isTrapped = false := by
  have inlinedTyped : (Rooted.inlineNames session (.block block) ⟨arena, init⟩).2.arena.Typed :=
    Rooted.inlineNames_typed (show (⟨arena, init⟩ : Rooted).arena.Typed from typed) known
  unfold attempt
  dsimp only
  generalize (Rooted.inlineNames session (.block block) ⟨arena, init⟩).2 = inlined at inlinedTyped ⊢
  have solvedTyped : inlined.simplify.2.arena.Typed :=
    Rooted.simplifyWithin_typed _ inlinedTyped
  have goesOn : inlined.simplify.1 ≠ .error .trap :=
    Rooted.simplifyWithin_ne_trap _ inlinedTyped
  split
  · rcases simplified : inlined.simplify with ⟨stop | root, solved⟩
    · rw [simplified] at solvedTyped goesOn
      cases stop with
      | fault fault => exact ⟨solvedTyped, rfl⟩
      | trap => exact absurd rfl goesOn
    · rw [simplified] at solvedTyped
      exact ⟨solvedTyped, rfl⟩
  · exact ⟨inlinedTyped, rfl⟩

theorem attempts_untrapped (typed : arena.Typed) (known : session.TypedIn (.block block))
    (inits : List (String × ExprId)) :
    ((session.attempts block arena inits).1.any fun outcome => outcome.2.isTrapped) = false := by
  induction inits generalizing arena with
  | nil => rfl
  | cons entry inits ih =>
    obtain ⟨name, init⟩ := entry
    obtain ⟨typedNext, goesOn⟩ := attempt_typed typed known init
    rw [attempts_cons, List.any_cons, goesOn, Bool.false_or]
    exact ih typedNext

/-! ## Main result -/

/-- Folding a block rewrites what its variables start from, and nothing else of the session. However
the expressions are listed, the outcome is the same. Each variable starts from an expression of the
same meaning, an expression that cannot be folded stays, and each such failure is reported once, in
the order of the variables. -/
theorem foldBlock_rewrites_initializers (reachable : session.Reachable)
    (held : block.index < session.blocks.size) (acyclic : arena.Acyclic)
    (allocated : ∀ entry ∈ (session.blockAt block).init, arena.Allocated entry.2) :
    let after := session.foldBlock arena block
    let fates := (session.attempts block arena (session.initsInOrder block)).1
    (∀ listed, listed.Perm (session.blockAt block).init →
      (session.sortedBySlot block listed).foldl
        (fun state entry => foldInit block state entry.1 entry.2)
        { session := session, arena := arena } = after) ∧
    after.session = session.modifyBlock block (settle fates) ∧
    (after.session.blockAt block).started = (session.blockAt block).started ∧
    (∀ name old, (name, old) ∈ (session.blockAt block).init →
      ∃ fate, fates.lookup name = some fate ∧
        (after.session.blockAt block).init.lookup name = some (fate.root old) ∧
        after.arena.Allocated (fate.root old) ∧
        ∀ env, Rooted.Agrees session (.block block) env →
          after.arena.eval env (fate.root old) = arena.eval env old) ∧
    (∀ env, Rooted.Agrees session (.block block) env → ∀ id, arena.Allocated id →
      after.arena.eval env id = arena.eval env id) ∧
    fates.map Prod.fst = (session.initsInOrder block).map Prod.fst ∧
    after.entries = fates.filterMap (fun outcome => Fate.entry? outcome.2) ∧
    (after.trapped = true ↔ ∃ outcome ∈ fates, outcome.2 = .trapped) ∧
    (after.ok = true ↔ after.entries = [] ∧ after.trapped = false) ∧
    (arena.Typed → session.TypedIn (.block block) → after.trapped = false) := by
  intro after fates
  have arranged := reachable.arranged (session.blockAt block).vars
  have isAfter : after = Folded.afterAll block { session := session, arena := arena } fates _ :=
    foldBlock_eq arranged
  have distinct : ((session.initsInOrder block).map Prod.fst).Nodup :=
    List.pairwise_map.mpr ((initsInOrder_pairwise arranged).imp fun both => both.1)
  have permutation := initsInOrder_perm arranged reachable.proper
  obtain ⟨kept, outcomes⟩ := @attempts_keepMeaning session block arena acyclic
    (session.initsInOrder block) distinct
    fun entry member => allocated entry (permutation.mem_iff.mp member)
  refine ⟨fun listed listing => ?_, ?_, ?_, ?_, ?_, ?_, ?_, ?_, ?_, ?_⟩
  · rw [sortedBySlot_eq arranged reachable.proper listing]
    rfl
  · rw [isAfter]
    rfl
  · rw [isAfter, block_afterAll held, started_settle]
  · intro name old member
    have isListed : name ∈ fates.map Prod.fst := by
      rw [attempts_names]
      exact List.mem_map.mpr ⟨_, permutation.mem_iff.mpr member, rfl⟩
    obtain ⟨fate, found⟩ := exists_lookup isListed
    have settled : settledRoot fates name old = fate.root old := by
      rw [settledRoot, found]
      rfl
    obtain ⟨isAllocated, same⟩ := outcomes _ (permutation.mem_iff.mpr member)
    refine ⟨fate, found, ?_⟩
    rw [isAfter, block_afterAll held, lookup_settle (reachable.proper block).distinct member,
      ← settled]
    exact ⟨rfl, isAllocated, same⟩
  · intro env agrees id isAllocated
    rw [isAfter]
    exact (kept env agrees).meaning isAllocated
  · exact attempts_names session block arena (session.initsInOrder block)
  · rw [isAfter]
    exact List.nil_append _
  · rw [isAfter]
    exact afterAll_trapped rfl
  · rw [isAfter]
    exact afterAll_ok rfl rfl rfl
  · intro typed known
    rw [isAfter]
    exact attempts_untrapped typed known (session.initsInOrder block)

/-- The sum of `n` and 1, and a quotient by zero that shares its node of 1. -/
def sumAndQuotient : Arena :=
  let node (shape : Shape ExprId) : Node := ⟨.builtin, .null, shape⟩
  ⟨#[node (.name "n"), node (.literal (.int 1)), node (.binary .add ⟨0⟩ ⟨1⟩),
    node (.literal (.int 0)), node (.binary .div ⟨1⟩ ⟨3⟩)]⟩

/-- A block whose first variable starts from the sum and whose second one from the quotient, the
second having been given first. -/
def sumAndQuotientSession : Session :=
  Operation.runAll (ofTarget {}) [.newModule "m" .builtin,
    .addConstant ⟨0⟩ (.declare "n" (.ofKind .uint8 .builtin) (.value (.int 4))),
    .newFunc "f" .builtin, .addFunc ⟨0⟩ ⟨0⟩, .newBlock none .builtin,
    .attachBlock ⟨0⟩ .mainline ⟨0⟩, .addLocal ⟨0⟩ "sum" (.ofKind .uint8 .builtin),
    .addLocal ⟨0⟩ "quotient" (.ofKind .uint8 .builtin), .setInit ⟨0⟩ "quotient" ⟨4⟩,
    .setInit ⟨0⟩ "sum" ⟨2⟩]

theorem foldBlock_rewrites_initializers_quotient :
    let session := sumAndQuotientSession
    let after := session.foldBlock sumAndQuotient ⟨0⟩
    session.Reachable ∧ sumAndQuotient.Acyclic ∧
    (session.blockAt ⟨0⟩).init = [("quotient", ⟨4⟩), ("sum", ⟨2⟩)] ∧
    (session.sortedBySlot ⟨0⟩ [("sum", ⟨2⟩), ("quotient", ⟨4⟩)]).foldl
      (fun state entry => foldInit ⟨0⟩ state entry.1 entry.2)
      { session := session, arena := sumAndQuotient } = after ∧
    (∃ root, (after.session.blockAt ⟨0⟩).init.lookup "sum" = some root ∧
      ∀ env, Rooted.Agrees session (.block ⟨0⟩) env →
        after.arena.eval env root = sumAndQuotient.eval env ⟨2⟩) ∧
    after.entries.length = 1 ∧ after.ok = false := by
  intro session after
  have reachable : session.Reachable := ⟨{}, _, by decide +kernel, rfl⟩
  have acyclic : sumAndQuotient.Acyclic := .of_ordered (by decide)
  have inits : (session.blockAt ⟨0⟩).init = [("quotient", ⟨4⟩), ("sum", ⟨2⟩)] := by decide +kernel
  have allocated : ∀ entry ∈ (session.blockAt ⟨0⟩).init, sumAndQuotient.Allocated entry.2 := by
    rw [inits]
    decide
  have reported : after.entries.length = 1 := by decide +kernel
  obtain ⟨anyOrder, _, _, starts, _, _, _, _, isOk, _⟩ :=
    foldBlock_rewrites_initializers reachable (by decide +kernel) acyclic allocated
  refine ⟨reachable, acyclic, inits, anyOrder _ ?_, ?_, reported, ?_⟩
  · rw [inits]
    exact List.Perm.swap _ _ _
  · obtain ⟨fate, _, found, _, same⟩ := starts "sum" ⟨2⟩ (by rw [inits]; simp)
    exact ⟨fate.root ⟨2⟩, found, same⟩
  · rw [← Bool.not_eq_true]
    intro isTrue
    have silent : after.entries = [] := (isOk.mp isTrue).1
    rw [silent] at reported
    cases reported

end Session

end Assay
